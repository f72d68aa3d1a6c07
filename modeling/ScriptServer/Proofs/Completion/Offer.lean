import ScriptServer.Proofs.ModulePath
import ScriptServer.Proofs.Workspace.Run

namespace ScriptServer

/-!
# Offered imports

Completion offers a `use` line for every module.  What such a line imports is read back from it.

* `Library.Index.FromFiles` — every module is what its file below the root says.
* `Workspace.fromFiles_run` — whatever was done, this holds as long as paths are written in one way.
* `Workspace.diagnostics_eq_nil` — nothing is reported of a text whose imports are all modules.
* `Workspace.offered_import_resolves` — an offered line imports the module that it was offered for
  exactly when the name of this module is a path of identifiers.  Declared names always are.
-/

open Text Library

namespace Library

/-! ### Names of modules -/

namespace Entry

variable {disk : Disk} {syn : ModuleSyntax} {root path : Path} {entry : Entry}

/-- All names on the way from a root to a file, without the extension, are identifiers. -/
def HasNames (entry : Entry) (root : Path) : Prop :=
  ∃ parts, entry.path.relativeTo? root = some parts
    ∧ ∀ name ∈ (withoutExtension parts).filterMap Part.name?, IsName name.toList

/-- What a file declares is a module path. -/
theorem isModulePath_of_declaredName (hsyn : syn.Separates)
    (h : Entry.ofFile? disk syn root path = some entry) {name : String}
    (hname : entry.declaredName = some name) : syn.IsModulePath name := by
  simp only [ofFile?, Option.bind_eq_bind, Option.bind_eq_some_iff, Option.pure_def,
    Option.some.injEq] at h
  obtain ⟨derived, -, rfl⟩ := h
  have hdeclared : declaredIn disk syn path = some name := hname
  unfold declaredIn at hdeclared
  split at hdeclared
  · rw [ModuleSyntax.declared?_eq, ModuleSyntax.declaredIn, Option.bind_eq_some_iff] at hdeclared
    obtain ⟨first, -, hstatement⟩ := hdeclared
    obtain ⟨statement, hread, rfl⟩ := Option.map_eq_some_iff.mp hstatement
    exact ModuleSyntax.isModulePath_of_statement? hsyn hread
  · cases hdeclared

/-- A name derived from identifiers is a module path. -/
theorem isModulePath_derivedName (h : Entry.ofFile? disk syn root entry.path = some entry)
    (hnames : entry.HasNames root) : syn.IsModulePath entry.derivedName := by
  simp only [ofFile?, Option.bind_eq_bind, Option.bind_eq_some_iff, Option.pure_def,
    Option.some.injEq] at h
  obtain ⟨derived, hderived, hentry⟩ := h
  obtain ⟨parts, hparts, hnames⟩ := hnames
  have hname : entry.derivedName = derived := by rw [← hentry]
  simp only [derivedName?, hparts, Option.bind_eq_bind, Option.bind_some] at hderived
  split at hderived
  · cases hderived
  · next hne =>
    refine ⟨((withoutExtension parts).filterMap Part.name?).map String.toList, ?_, ?_, ?_⟩
    · exact fun h => hne (List.map_eq_nil_iff.mp h)
    · simpa only [List.forall_mem_map] using hnames
    · rw [hname, ← Option.some.inj hderived, String.toList_intercalate, String.toList_ofList]

/-- The name of a module is a module path when its file declares it, and when it is derived from
    identifiers. -/
theorem isModulePath_name (hsyn : syn.Separates)
    (h : Entry.ofFile? disk syn root entry.path = some entry)
    (hname : entry.declaredName.isSome = true ∨ entry.HasNames root) :
    syn.IsModulePath entry.name := by
  unfold name
  cases hdeclared : entry.declaredName with
  | some name => exact isModulePath_of_declaredName hsyn h hdeclared
  | none =>
    rcases hname with hsome | hnames
    · rw [hdeclared] at hsome
      cases hsome
    · exact isModulePath_derivedName h hnames

end Entry

/-! ### Modules come from files -/

section FromFiles

variable {disk : Disk} {layout : Layout} {root directory : Path} {place : Place} {entry : Entry}

theorem ofFile?_of_mem_entriesIn (h : entry ∈ entriesIn disk layout root directory place) :
    Entry.ofFile? disk layout.syn root entry.path = some entry := by
  obtain ⟨name, -, hfile⟩ := List.mem_filterMap.mp h
  rwa [path_of_ofFile? hfile]

theorem ofFile?_of_mem_walkFrom
    (h : entry ∈ (walkFrom disk layout root directory place).entries) :
    Entry.ofFile? disk layout.syn root entry.path = some entry := by
  obtain ⟨row, hentry⟩ := exists_of_mem_walkFrom h
  exact ofFile?_of_mem_entriesIn hentry

end FromFiles

namespace Index

variable {index : Index} {disk : Disk} {layout : Layout} {root directory : Path} {scanned : Scanned}

/-- Every module is what its file below the root said on some disk. -/
def FromFiles (index : Index) (syn : ModuleSyntax) : Prop :=
  ∀ entry ∈ index.entries, ∃ disk root, index.root = some root
    ∧ Entry.ofFile? disk syn root entry.path = some entry

theorem ofFile?_of_mem_discover {known : List Path} {entry : Entry}
    (h : entry ∈ (discover disk layout root known directory).1) :
    Entry.ofFile? disk layout.syn root entry.path = some entry := by
  unfold discover at h
  split at h
  · rcases List.mem_append.mp h with hentry | hentry
    · exact ofFile?_of_mem_entriesIn hentry
    · obtain ⟨walk, hwalk, hentry⟩ := List.mem_flatMap.mp hentry
      obtain ⟨name, -, rfl⟩ := List.mem_map.mp hwalk
      exact ofFile?_of_mem_walkFrom hentry
  · exact absurd h List.not_mem_nil

theorem fromFiles_scan (h : index.scan disk layout root = .ok scanned) :
    scanned.index.FromFiles layout.syn := by
  obtain ⟨place, -, hindex⟩ := exists_of_scan h
  rw [hindex]
  intro entry hentry
  exact ⟨disk, root, rfl, ofFile?_of_mem_walkFrom (mem_of_mem_build hentry)⟩

theorem fromFiles_rescan (h : index.FromFiles layout.syn) :
    (index.rescan disk layout directory).index.FromFiles layout.syn := by
  unfold rescan
  split
  · exact h
  · next root hroot =>
    split
    · intro entry hentry
      rw [index_relist] at hentry ⊢
      rcases List.mem_append.mp (mem_of_mem_build hentry) with hkept | hfound
      · -- an entry that is kept was found below the same root
        obtain ⟨earlier, root', hroot', hfile⟩ := h entry (List.mem_filter.mp hkept).1
        cases hroot.symm.trans hroot'
        exact ⟨earlier, root, rfl, hfile⟩
      · exact ⟨disk, root, rfl, ofFile?_of_mem_discover hfound⟩
    · exact h

theorem contains_of_mem {entry : Entry} (h : entry ∈ index.entries) :
    index.contains entry.name = true := by
  have hfind : entry ∈ index.find entry.name := by
    rw [find_eq]
    exact List.mem_filter.mpr ⟨h, beq_self_eq_true _⟩
  cases hall : index.find entry.name with
  | nil => simp [hall] at hfind
  | cons first rest => simp [contains, hall]

end Index

end Library

namespace Workspace

/-- All settings that a row of operations brings write module paths in one way. -/
def WritesPaths (syn : ModuleSyntax) (steps : List (Disk × Operation)) : Prop :=
  ∀ step ∈ steps, ∀ settings, step.2 = .configure settings → settings.syn = syn

/-- **Modules come from files.**  As long as module paths are written in one way, every module is
    what its file below the root says. -/
theorem fromFiles_run {syn : ModuleSyntax} {settings : Settings} (hsettings : settings.syn = syn)
    {steps : List (Disk × Operation)} (hsteps : WritesPaths syn steps) :
    ((ofSettings settings).run steps).syn = syn
      ∧ ((ofSettings settings).run steps).index.FromFiles syn := by
  refine run_keeps (fun workspace => workspace.syn = syn ∧ workspace.index.FromFiles syn) ?_
    ⟨hsettings, fun entry hentry => absurd hentry List.not_mem_nil⟩
  rintro workspace ⟨disk, operation⟩ hstep ⟨hsyn, hfiles⟩
  have hlayout : workspace.settings.layout.syn = syn := hsyn
  -- the syntax changes with new settings only, and those write paths in the same way
  constructor
  · by_cases hconfigure : ∃ settings, operation = .configure settings
    · obtain ⟨settings, rfl⟩ := hconfigure
      exact hsteps _ hstep settings rfl
    · rw [not_exists] at hconfigure
      show (workspace.perform disk operation).settings.syn = syn
      rw [settings_perform workspace disk hconfigure]
      exact hsyn
  · rcases index_perform workspace disk operation with
      heq | ⟨root, scanned, hscanned, heq⟩ | ⟨directory, heq⟩
    · rw [heq]
      exact hfiles
    · rw [heq, ← hlayout]
      exact Index.fromFiles_scan hscanned
    · rw [heq, ← hlayout]
      exact Index.fromFiles_rescan (by rwa [hlayout])

/-! ### The lines that are offered -/

/-- The candidates of the kind of modules are the imports of modules. -/
theorem exists_of_mem_generalCandidates {workspace : Workspace} {uri : Uri} {point : Position}
    {candidate : Candidate} (h : candidate ∈ workspace.generalCandidates uri point)
    (hkind : candidate.kind = .mod) :
    ∃ entry ∈ workspace.index.entries, candidate = .ofModule entry.name := by
  -- a function of another module is of another kind
  have hforeign : ∀ table module other,
      candidate ∉ workspace.foreignCandidates table module other := by
    intro table module other hmem
    unfold foreignCandidates at hmem
    split at hmem
    · cases hmem
    · obtain ⟨symbol, -, rfl⟩ := List.mem_map.mp hmem
      cases hkind
  -- induction on the entries, for whatever names were offered before
  have hmodules : ∀ (entries : List Entry) (seen : List String),
      candidate ∈ workspace.moduleCandidates uri seen entries →
      ∃ entry ∈ entries, candidate = .ofModule entry.name := by
    intro entries
    induction entries with
    | nil => exact fun seen hmem => absurd hmem List.not_mem_nil
    | cons first rest ih =>
      intro seen hmem
      have hrest : ∀ seen, candidate ∈ workspace.moduleCandidates uri seen rest →
          ∃ entry ∈ first :: rest, candidate = .ofModule entry.name := by
        intro seen hmem
        obtain ⟨entry, hentry, hname⟩ := ih seen hmem
        exact ⟨entry, List.mem_cons_of_mem first hentry, hname⟩
      unfold moduleCandidates at hmem
      split at hmem
      · exact hrest seen hmem
      · split at hmem
        · exact hrest seen hmem
        · rcases List.mem_append.mp hmem with hmem | hmem
          · rcases List.mem_append.mp hmem with hoffer | hmem
            · split at hoffer
              · cases hoffer
              · exact ⟨first, List.mem_cons_self, List.mem_singleton.mp hoffer⟩
            · exact absurd hmem (hforeign _ _ _)
          · exact hrest _ hmem
  rcases List.mem_append.mp h with h | h
  · rcases List.mem_append.mp h with h | h
    · rcases List.mem_append.mp h with h | h
      · obtain ⟨snippet, -, rfl⟩ := List.mem_map.mp h
        cases hkind
      · obtain ⟨keyword, -, rfl⟩ := List.mem_map.mp h
        cases hkind
    · obtain ⟨symbol, -, hsymbol⟩ := List.mem_filterMap.mp h
      unfold Candidate.ofSymbol? at hsymbol
      split at hsymbol <;> cases hsymbol <;> cases hkind
  · exact hmodules _ [] h

/-- Nothing is reported of a text whose imports are all modules. -/
theorem diagnostics_eq_nil {workspace : Workspace} (hsyn : workspace.syn.HasNoQuote) {text : String}
    (h : ∀ name ∈ (Outline.codeOf text.toList).filterMap workspace.syn.imported?,
      workspace.index.contains name = true) : workspace.diagnostics text = [] := by
  -- findings come from lines whose strings are kept, which import the same
  have halike := alike_masks (splitLines text)
  unfold diagnostics
  split
  · rw [workspace.diagnosticsIn_eq 0 _ _ (halike.length_eq.trans (length_maskCode _)).symm,
      ModuleSyntax.importsFrom_alike hsyn halike, List.map_eq_nil_iff, List.filter_eq_nil_iff]
    intro use huse
    have hname : use.2 ∈ (Outline.codeOf text.toList).filterMap workspace.syn.imported? := by
      rw [Outline.codeOf, ← maskCode_splitLines, ← ModuleSyntax.map_snd_importsFrom 0]
      exact List.mem_map_of_mem huse
    simp [h use.2 hname]
  · rfl

/-- The `use` line of a module path imports this module. -/
theorem imports_use {path : String} (h : ModuleSyntax.standard.IsModulePath path) :
    (Outline.codeOf ("use " ++ path).toList).filterMap ModuleSyntax.standard.imported?
      = [path] := by
  have hplain := ModuleSyntax.isPlain_use h
  have hbreak : '\n' ∉ ("use " ++ path).toList := fun hmem => absurd (hplain '\n' hmem) (by decide)
  rw [Outline.codeOf, (maskText_of_isPlain hplain none).1, splitAtChar_of_not_mem hbreak,
    List.filterMap_cons, ModuleSyntax.imported?_use ModuleSyntax.separates_standard h]
  rfl

/-- Whatever is imported is a module path. -/
theorem isModulePath_of_mem_imports {code : List Line} {name : String}
    (h : name ∈ code.filterMap ModuleSyntax.standard.imported?) :
    ModuleSyntax.standard.IsModulePath name := by
  obtain ⟨line, -, himported⟩ := List.mem_filterMap.mp h
  obtain ⟨statement, hstatement, rfl⟩ := Option.map_eq_some_iff.mp himported
  exact ModuleSyntax.isModulePath_of_statement? ModuleSyntax.separates_standard hstatement

/-- **Offered imports.**  After any row of operations with the standard way to write module paths,
    every import that completion offers is the `use` line of a module.  The line imports this very
    module exactly when the name of the module is a path of identifiers, and then nothing is
    reported of it.  This is so for every name that a file declares, and for every file whose path
    below the root is made of identifiers. -/
theorem offered_import_resolves {settings : Settings} {steps : List (Disk × Operation)}
    {workspace : Workspace} (hsettings : settings.syn = .standard)
    (hsteps : WritesPaths .standard steps) (hrun : workspace = (ofSettings settings).run steps)
    {uri : Uri} {point : Position} {candidate : Candidate}
    (hcandidate : candidate ∈ workspace.generalCandidates uri point)
    (hkind : candidate.kind = .mod) :
    ∃ entry ∈ workspace.index.entries, candidate.insertion = .plain ("use " ++ entry.name)
      ∧ (entry.name ∈ (Outline.table .standard uri ("use " ++ entry.name)).usedModules
        ↔ ModuleSyntax.standard.IsModulePath entry.name)
      ∧ (ModuleSyntax.standard.IsModulePath entry.name →
        (Outline.table .standard uri ("use " ++ entry.name)).usedModules = [entry.name]
          ∧ workspace.index.contains entry.name = true
          ∧ workspace.diagnostics ("use " ++ entry.name) = [])
      ∧ (entry.declaredName.isSome = true
          ∨ (∃ root, workspace.index.root = some root ∧ entry.HasNames root) →
        ModuleSyntax.standard.IsModulePath entry.name) := by
  obtain ⟨hsyn, hfiles⟩ := fromFiles_run hsettings hsteps
  rw [← hrun] at hsyn hfiles
  obtain ⟨entry, hentry, rfl⟩ := exists_of_mem_generalCandidates hcandidate hkind
  obtain ⟨-, -, hused⟩ := Outline.table_modules .standard uri ("use " ++ entry.name)
  have hcontains := Index.contains_of_mem hentry
  refine ⟨entry, hentry, rfl, ?_, ?_, ?_⟩
  · rw [hused]
    refine ⟨isModulePath_of_mem_imports, fun hpath => ?_⟩
    rw [imports_use hpath]
    exact List.mem_singleton_self _
  · intro hpath
    refine ⟨by rw [hused, imports_use hpath], hcontains, diagnostics_eq_nil (by rw [hsyn]; rfl) ?_⟩
    rw [hsyn, imports_use hpath]
    simpa using hcontains
  · obtain ⟨disk, root, hroot, hfile⟩ := hfiles entry hentry
    intro hname
    refine Entry.isModulePath_name ModuleSyntax.separates_standard hfile (hname.imp_right ?_)
    rintro ⟨root', hroot', hnames⟩
    cases hroot.symm.trans hroot'
    exact hnames

/-- A module that declares its name, in a directory, and one whose file name is no identifier. -/
def twoScripts : Disk :=
  ⟨[["ws"], ["ws", "a"]],
    [(["ws", "a", "b.dos"], .text "module p :: q // b"), (["ws", "my-mod.dos"], .text "")]⟩

/-- A scan of their root. -/
def scanTwo : List (Disk × Operation) := [(twoScripts, .scan ⟨"/ws"⟩)]

theorem offered_declared_name :
    Candidate.ofModule "p::q"
        ∈ ((ofSettings {}).run scanTwo).generalCandidates ⟨"file:///f"⟩ ⟨0, 0⟩
      ∧ (Candidate.ofModule "p::q").kind = .mod
      ∧ (Outline.table .standard ⟨"file:///f"⟩ "use p::q").usedModules = ["p::q"]
      ∧ ((ofSettings {}).run scanTwo).diagnostics "use p::q" = [] := by
  have hcandidate : Candidate.ofModule "p::q"
      ∈ ((ofSettings {}).run scanTwo).generalCandidates ⟨"file:///f"⟩ ⟨0, 0⟩ := by decide +kernel
  have hsteps : WritesPaths .standard scanTwo := by
    intro step hstep settings hconfigure
    obtain rfl := List.mem_singleton.mp hstep
    cases hconfigure
  obtain ⟨entry, -, hinsertion, -, hresolves, -⟩ :=
    offered_import_resolves (by decide +kernel) hsteps rfl hcandidate rfl
  have hpath : ModuleSyntax.standard.IsModulePath "p::q" :=
    ⟨[['p'], ['q']], by decide, by decide, by decide⟩
  have hname : entry.name = "p::q" := by
    have htext := congrArg String.toList (Insertion.plain.inj hinsertion)
    rw [String.toList_append, String.toList_append] at htext
    exact (String.toList_inj.mp (List.append_cancel_left htext)).symm
  rw [hname] at hresolves
  obtain ⟨hused, -, hnone⟩ := hresolves hpath
  exact ⟨hcandidate, rfl, hused, hnone⟩

/-- A file whose name is no identifier is offered for import, and the line imports a module that
    does not exist. -/
theorem offered_import_unknown :
    Candidate.ofModule "my-mod"
        ∈ ((ofSettings {}).run scanTwo).generalCandidates ⟨"file:///f"⟩ ⟨0, 0⟩
      ∧ (Outline.table .standard ⟨"file:///f"⟩ "use my-mod").usedModules = ["my"]
      ∧ ((ofSettings {}).run scanTwo).diagnostics "use my-mod"
        = [⟨⟨⟨0, 0⟩, ⟨0, 10⟩⟩, .warning, "Module 'my' not found"⟩] := by
  decide +kernel

end Workspace

end ScriptServer
