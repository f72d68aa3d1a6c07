import ScriptServer.Outline
import ScriptServer.Proofs.Declaration
import ScriptServer.Proofs.Text.Quote
import ScriptServer.Workspace.Diagnostics

namespace ScriptServer

/-!
# Module lines and imports are read alike everywhere

Symbol tables are made from lines whose strings are blanked.  The declared name of a module on disk
and the findings about unknown imports come from lines whose strings are kept.

* `ModuleSyntax.statement?_alike` — a statement that names a module is read alike from both.
* `ModuleSyntax.importsFrom` — the imports of some lines, each with the number of its line.
* `SymbolTable.uses` — the imports that a symbol table records.
* `Outline.imports_agree` — the declared name and the imports are the same wherever they are read.
-/

open Text Declaration

namespace ModuleSyntax

variable {syn : ModuleSyntax} {a b : Line}

/-- The separator has no quote in it. -/
def HasNoQuote (syn : ModuleSyntax) : Prop := syn.separator.any isQuote = false

/-! ### Statements -/

theorem readSegment?_alike (hsyn : syn.HasNoQuote) (h : Alike a b) :
    Option.Rel AlikeRest (syn.readSegment? a) (syn.readSegment? b) := by
  have hblanks : ∀ {a b : Line}, Alike a b → a.takeWhile isBlank = b.takeWhile isBlank :=
    fun h => h.takeWhile_eq isBlank_eq_false_of_isQuote
  refine rel_bind (h.trimStart.after? hsyn) fun afterA afterB hafter => ?_
  refine rel_bind hafter.trimStart.readName? fun readA readB hread => ?_
  refine .some ⟨?_, hread.2⟩
  rw [hblanks h, hblanks hafter, hread.1]

theorem readSegments_of_none {text : Line} (h : syn.readSegment? text = none) :
    syn.readSegments text = [] := by
  rw [readSegments]
  split
  · rfl
  · simp_all

theorem readSegments_of_some {text taken rest : Line}
    (h : syn.readSegment? text = some (taken, rest)) :
    syn.readSegments text = taken ++ syn.readSegments rest := by
  rw [readSegments]
  split <;> simp_all

theorem readSegments_alike (hsyn : syn.HasNoQuote) (h : Alike a b) :
    syn.readSegments a = syn.readSegments b := by
  fun_induction readSegments syn a generalizing b with
  | case1 a hnone =>
    have hsegment := readSegment?_alike hsyn h
    rw [hnone] at hsegment
    cases hb : syn.readSegment? b with
    | none => rw [readSegments_of_none hb]
    | some read =>
      rw [hb] at hsegment
      cases hsegment
  | case2 a taken rest hsome ih =>
    have hsegment := readSegment?_alike hsyn h
    rw [hsome] at hsegment
    cases hb : syn.readSegment? b with
    | none =>
      rw [hb] at hsegment
      cases hsegment
    | some read =>
      rw [hb] at hsegment
      cases hsegment with
      | some hread =>
        have htaken : taken = read.1 := hread.1
        rw [readSegments_of_some hb, htaken, ih hread.2]

theorem readPath?_alike (hsyn : syn.HasNoQuote) (h : Alike a b) :
    syn.readPath? a = syn.readPath? b := by
  refine eq_of_rel_eq (rel_bind h.readName? fun readA readB hread => .some ?_)
  rw [hread.1, readSegments_alike hsyn hread.2]

/-- **A statement is read alike** from lines that are alike: no part of it reads past a quote. -/
theorem statement?_alike (hsyn : syn.HasNoQuote) (h : Alike a b) {keyword : Line}
    (hkeyword : keyword.any isQuote = false) :
    syn.statement? keyword a = syn.statement? keyword b := by
  have hblanks : ∀ {a b : Line}, Alike a b → a.takeWhile isBlank = b.takeWhile isBlank :=
    fun h => h.takeWhile_eq isBlank_eq_false_of_isQuote
  refine eq_of_rel_eq (rel_bind (h.trimStart.after? hkeyword) fun restA restB hrest => ?_)
  refine rel_bind hrest.skipBlanks? fun textA textB htext => ?_
  rw [readPath?_alike hsyn htext, hblanks h, hblanks hrest]
  cases syn.readPath? textB with
  | none => exact .none
  | some path => exact .some rfl

theorem moduleStatement?_alike (hsyn : syn.HasNoQuote) (h : Alike a b) :
    syn.moduleStatement? a = syn.moduleStatement? b :=
  statement?_alike hsyn h rfl

theorem imported?_alike (hsyn : syn.HasNoQuote) (h : Alike a b) :
    syn.imported? a = syn.imported? b := by
  rw [imported?, useStatement?, statement?_alike hsyn h rfl]
  rfl

/-! ### Lines -/

/-- The first line of code is the same in texts that are alike line by line. -/
theorem firstCodeLine?_alike {as bs : List Line} (h : List.Forall₂ Alike as bs) (number : Nat) :
    Option.Rel (fun x y => x.1 = y.1 ∧ Alike x.2 y.2) (firstCodeLine? number as)
      (firstCodeLine? number bs) := by
  induction h generalizing number with
  | nil => exact .none
  | cons hline _ ih =>
    rw [firstCodeLine?, firstCodeLine?, hline.isBlankLine_eq]
    split
    · exact ih (number + 1)
    · exact .some ⟨rfl, hline⟩

/-- The module that the first line of code declares. -/
def declaredIn (syn : ModuleSyntax) (code : List Line) : Option String :=
  (firstCodeLine? 0 code).bind fun first => (syn.moduleStatement? first.2).map syn.nameOf

theorem declared?_eq (syn : ModuleSyntax) (text : String) :
    syn.declared? text = syn.declaredIn (maskComments (splitLines text)) := by
  unfold declared? declaredIn
  cases firstCodeLine? 0 (maskComments (splitLines text)) with
  | none => rfl
  | some first =>
    simp only [Option.bind_some, Option.bind_eq_bind]
    cases syn.moduleStatement? first.2 <;> rfl

theorem declaredIn_alike (hsyn : syn.HasNoQuote) {as bs : List Line}
    (h : List.Forall₂ Alike as bs) : syn.declaredIn as = syn.declaredIn bs := by
  refine eq_of_rel_eq (rel_bind (firstCodeLine?_alike h 0) fun first second hline => ?_)
  rw [moduleStatement?_alike hsyn hline.2]
  cases syn.moduleStatement? second.2 with
  | none => exact .none
  | some statement => exact .some rfl

/-- The imports of some lines, each with the number of its line; the first line has the number
    `number`. -/
def importsFrom (syn : ModuleSyntax) : Nat → List Line → List (Nat × String)
  | _, [] => []
  | number, line :: rest =>
    match syn.imported? line with
    | some name => (number, name) :: syn.importsFrom (number + 1) rest
    | none => syn.importsFrom (number + 1) rest

theorem le_of_mem_importsFrom {number : Nat} {lines : List Line} {use : Nat × String}
    (h : use ∈ syn.importsFrom number lines) : number ≤ use.1 := by
  induction lines generalizing number with
  | nil => cases h
  | cons line rest ih =>
    unfold importsFrom at h
    split at h
    · rcases List.mem_cons.mp h with rfl | hin
      · exact Nat.le_refl number
      · exact Nat.le_of_succ_le (ih hin)
    · exact Nat.le_of_succ_le (ih h)

theorem importsFrom_alike (hsyn : syn.HasNoQuote) {as bs : List Line}
    (h : List.Forall₂ Alike as bs) (number : Nat) :
    syn.importsFrom number as = syn.importsFrom number bs := by
  induction h generalizing number with
  | nil => rfl
  | cons hline _ ih => rw [importsFrom, importsFrom, imported?_alike hsyn hline, ih]

end ModuleSyntax

/-! ### Symbol tables -/

/-- The imports that a symbol table records, each with its line: all its modules but the one that
    the document declares, which comes first. -/
def SymbolTable.uses (table : SymbolTable) : List (Nat × String) :=
  let modules := table.symbols.filter fun symbol => symbol.kind = .mod
  let imported := if table.declaredModule.isSome then modules.tail else modules
  imported.map fun symbol => (symbol.position.line, symbol.name)

namespace Outline

/-- The modules among the symbols of some findings. -/
def modulesOf (page : Page) (found : List Finding) : List Symbol :=
  (found.flatMap (symbols page)).filter fun symbol => symbol.kind = .mod

theorem modulesOf_append (page : Page) (found more : List Finding) :
    modulesOf page (found ++ more) = modulesOf page found ++ modulesOf page more := by
  rw [modulesOf, List.flatMap_append, List.filter_append]
  rfl

/-- Functions, their parameters and variables are no modules. -/
theorem modulesOf_eq_nil (page : Page) {found : List Finding}
    (h : ∀ finding ∈ found, (∃ header, finding = .function header)
      ∨ ∃ name span, finding = .assigns name span) : modulesOf page found = [] := by
  unfold modulesOf
  rw [List.filter_eq_nil_iff]
  intro symbol hsymbol
  obtain ⟨finding, hfinding, hmem⟩ := List.mem_flatMap.mp hsymbol
  rcases h finding hfinding with ⟨header, rfl⟩ | ⟨name, span, rfl⟩
  · rcases List.mem_cons.mp hmem with rfl | hparam
    · simp [functionSymbol, Symbol.kind]
    · obtain ⟨parameter, -, rfl⟩ := List.mem_map.mp hparam
      simp [parameterSymbol, Symbol.kind]
  · obtain rfl := List.mem_singleton.mp hmem
    simp [variableSymbol, Symbol.kind]

/-- The modules among what lines of code declare are their imports. -/
theorem modulesOf_bodyFindings (page : Page) (syn : ModuleSyntax) (free number : Nat)
    (code : List Line) :
    (modulesOf page (bodyFindings syn free number code)).map
        (fun symbol => (symbol.position.line, symbol.name)) = syn.importsFrom number code := by
  induction code generalizing free number with
  | nil => rfl
  | cons line rest ih =>
    unfold bodyFindings ModuleSyntax.importsFrom ModuleSyntax.imported?
    cases syn.useStatement? line with
    | some statement => exact congrArg (_ :: ·) (ih free (number + 1))
    | none =>
      dsimp only [Option.map_none]
      rw [modulesOf_append, modulesOf_eq_nil page, List.nil_append, ih]
      intro finding hfinding
      rcases List.mem_append.mp hfinding with hin | hin
      · obtain ⟨header, -, hheader⟩ := List.mem_filterMap.mp hin
        cases header with
        | error line => cases hheader
        | ok header =>
          cases hheader
          exact .inl ⟨header, rfl⟩
      · split at hin
        · obtain ⟨found, -, rfl⟩ := List.mem_map.mp hin
          exact .inr ⟨_, _, rfl⟩
        · cases hin

/-- The lines below the module line declare no module. -/
theorem declares_not_mem_bodyFindings (syn : ModuleSyntax) (free number : Nat) (code : List Line)
    (name : String) (span : Span) :
    Finding.declares name span ∉ bodyFindings syn free number code := by
  intro hmem
  obtain ⟨_, _, _, -, hfound⟩ := exists_line_of_mem_bodyFindings hmem
  cases hfound

theorem declared?_bodyFindings (syn : ModuleSyntax) (free number : Nat) (code : List Line) :
    declared? (bodyFindings syn free number code) = none := by
  have hdeclares := declares_not_mem_bodyFindings syn free number code
  cases hbody : bodyFindings syn free number code with
  | nil => rfl
  | cons finding rest =>
    cases finding with
    | declares name span => exact absurd (by rw [hbody]; simp) (hdeclares name span)
    | _ => rfl

/-- The names of the imports are those of the modules, apart from the module line. -/
theorem used_eq (page : Page) {found : List Finding}
    (h : ∀ name span, Finding.declares name span ∉ found) :
    used found = (modulesOf page found).map (·.name) := by
  induction found with
  | nil => rfl
  | cons finding rest ih =>
    have hrest : used rest = (modulesOf page rest).map (·.name) :=
      ih fun name span hmem => h name span (List.mem_cons_of_mem _ hmem)
    have hsplit : modulesOf page (finding :: rest)
        = modulesOf page [finding] ++ modulesOf page rest := modulesOf_append page [finding] rest
    rw [hsplit, List.map_append, ← hrest]
    cases finding with
    | declares name span => exact absurd List.mem_cons_self (h name span)
    | imports name span => rfl
    | function header =>
      rw [modulesOf_eq_nil page (by simp)]
      rfl
    | assigns name span =>
      rw [modulesOf_eq_nil page (by simp)]
      rfl

/-- The findings in code: first the module line, if there is one. -/
theorem findings_cases (syn : ModuleSyntax) (code : List Line) :
    (syn.declaredIn code = none ∧ findings syn code = bodyFindings syn 0 0 code)
      ∨ ∃ name span, syn.declaredIn code = some name
        ∧ findings syn code = .declares name span :: bodyFindings syn 0 0 code := by
  unfold findings moduleFinding? ModuleSyntax.declaredIn
  cases ModuleSyntax.firstCodeLine? 0 code with
  | none => exact .inl ⟨rfl, rfl⟩
  | some first =>
    simp only [Option.bind_some, Option.bind_eq_bind]
    cases syn.moduleStatement? first.2 with
    | none => exact .inl ⟨rfl, rfl⟩
    | some statement => exact .inr ⟨_, _, rfl, rfl⟩

/-- The table of some findings. -/
def tableOf (page : Page) (found : List Finding) : SymbolTable where
  declaredModule := (declared? found).map (·.1)
  moduleLine := (declared? found).map (·.2)
  usedModules := used found
  symbols := found.flatMap (symbols page)

/-- The imports that the table of some findings records are its modules, without the first one when
    that is declared. -/
theorem uses_tableOf (page : Page) (found : List Finding) :
    (tableOf page found).uses
      = (if (declared? found).isSome then (modulesOf page found).tail
          else modulesOf page found).map fun symbol => (symbol.position.line, symbol.name) := by
  rw [SymbolTable.uses, tableOf, Option.isSome_map]
  rfl

/-- **What a symbol table says about modules.**  The declared name is that of the module line, the
    imports are those of the lines of code, in order, and their names are the modules in use. -/
theorem tableOf_modules (page : Page) (syn : ModuleSyntax) (code : List Line) :
    (tableOf page (findings syn code)).declaredModule = syn.declaredIn code
      ∧ (tableOf page (findings syn code)).uses = syn.importsFrom 0 code
      ∧ (tableOf page (findings syn code)).usedModules = (syn.importsFrom 0 code).map (·.2) := by
  have himports := modulesOf_bodyFindings page syn 0 0 code
  have hdeclares := declares_not_mem_bodyFindings syn 0 0 code
  have hused : used (bodyFindings syn 0 0 code) = (syn.importsFrom 0 code).map (·.2) := by
    rw [used_eq page hdeclares, ← himports, List.map_map]
    rfl
  rw [uses_tableOf]
  rcases findings_cases syn code with ⟨hnone, hfound⟩ | ⟨name, span, hsome, hfound⟩
  · rw [hfound, tableOf, declared?_bodyFindings, hnone]
    exact ⟨rfl, himports, hused⟩
  · rw [hfound, hsome]
    exact ⟨rfl, himports, hused⟩

end Outline

/-! ### Findings about unknown imports -/

namespace Workspace

/-- The findings in some lines are the imports that no module of the index has the name of. -/
theorem diagnosticsIn_eq (workspace : Workspace) (number : Nat) (lines masked : List Line)
    (h : lines.length = masked.length) :
    workspace.diagnosticsIn number lines masked
      = ((workspace.syn.importsFrom number masked).filter
          fun use => !workspace.index.contains use.2).map
        fun use => workspace.unknownModule use.1 (lines.getD (use.1 - number) []) use.2 := by
  induction lines generalizing number masked with
  | nil =>
    obtain rfl : masked = [] := List.eq_nil_of_length_eq_zero h.symm
    rfl
  | cons line lines ih =>
    cases masked with
    | nil => cases h
    | cons code masked =>
      have hlater : workspace.diagnosticsIn (number + 1) lines masked
          = ((workspace.syn.importsFrom (number + 1) masked).filter
              fun use => !workspace.index.contains use.2).map
            fun use => workspace.unknownModule use.1
              ((line :: lines).getD (use.1 - number) []) use.2 := by
        rw [ih (number + 1) masked (Nat.succ.inj h)]
        refine List.map_congr_left fun use huse => ?_
        have hnumber := ModuleSyntax.le_of_mem_importsFrom (List.mem_of_mem_filter huse)
        have hindex : use.1 - number = use.1 - (number + 1) + 1 := by omega
        rw [hindex, List.getD_cons_succ]
      unfold diagnosticsIn ModuleSyntax.importsFrom
      rw [hlater]
      cases workspace.syn.imported? code with
      | none => rfl
      | some name =>
        cases hcontains : workspace.index.contains name with
        | true => simp [hcontains]
        | false => simp [hcontains]

end Workspace

namespace Outline

/-- **Module lines and imports are read alike everywhere.**  Let the separator have no quote in it.
    The name that a module on disk declares is the one in its symbol table.  The findings about a
    text, once modules have been looked for, are its imports as the symbol table records them, less
    those that a module has the name of: one for each line, over the whole width of it.  Before
    that there are none. -/
theorem imports_agree (syn : ModuleSyntax) (hsyn : syn.HasNoQuote) (uri : Uri) (text : String) :
    syn.declared? text = (table syn uri text).declaredModule
      ∧ (table syn uri text).usedModules = (table syn uri text).uses.map (·.2)
      ∧ ∀ workspace : Workspace, workspace.syn = syn →
        workspace.diagnostics text =
          if workspace.index.isReady then
            ((table syn uri text).uses.filter fun use => !workspace.index.contains use.2).map
              fun use =>
                { range := ⟨⟨use.1, 0⟩, ⟨use.1, width ((splitLines text).getD use.1 [])⟩⟩
                  severity := workspace.settings.unknownModuleSeverity
                  message := "Module '" ++ use.2 ++ "' not found" }
          else [] := by
  have halike := alike_masks (splitLines text)
  have htable : table syn uri text = tableOf (Page.ofText uri text)
      (findings syn (maskCode (splitLines text))) := rfl
  obtain ⟨hdeclared, huses, hused⟩ :=
    tableOf_modules (Page.ofText uri text) syn (maskCode (splitLines text))
  rw [← htable] at hdeclared huses hused
  refine ⟨?_, by rw [hused, huses], ?_⟩
  · rw [hdeclared, ← ModuleSyntax.declaredIn_alike hsyn halike, ModuleSyntax.declared?_eq]
  · rintro workspace rfl
    rw [huses, ← ModuleSyntax.importsFrom_alike hsyn halike, Workspace.diagnostics]
    split
    · exact workspace.diagnosticsIn_eq 0 _ _ (halike.length_eq.trans (length_maskCode _)).symm
    · rfl

/-- What looks like the rest of a path stands in a string. -/
theorem imports_agree_before_string :
    ModuleSyntax.standard.HasNoQuote
      ∧ ModuleSyntax.standard.declared? "module m \":: n\"\nuse a \":: b\"\nuse c" = some "m"
      ∧ { Workspace.ofSettings {} with index := .build ⟨"/ws"⟩ [] [] }.diagnostics
          "module m \":: n\"\nuse a \":: b\"\nuse c"
        = [⟨⟨⟨1, 0⟩, ⟨1, 12⟩⟩, .warning, "Module 'a' not found"⟩,
          ⟨⟨⟨2, 0⟩, ⟨2, 5⟩⟩, .warning, "Module 'c' not found"⟩] := by
  obtain ⟨hdeclared, -, hfindings⟩ := imports_agree .standard rfl ⟨"file:///f"⟩
    "module m \":: n\"\nuse a \":: b\"\nuse c"
  refine ⟨rfl, hdeclared.trans (by decide +kernel), ?_⟩
  exact (hfindings _ (by decide +kernel)).trans (by decide +kernel)

end Outline

end ScriptServer
