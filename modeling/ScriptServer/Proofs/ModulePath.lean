import ScriptServer.Proofs.Header
import ScriptServer.Proofs.Imports

namespace ScriptServer

/-!
# Names of modules

The name of a module is written in `use` lines, and read back from them.

* `ModuleSyntax.Spells` — a path as it may be written, with blanks around its separators.
* `ModuleSyntax.IsModulePath` — identifiers joined by the separator.
* `ModuleSyntax.Spells.normalize_eq` — without its blanks, a path is its names joined.
* `ModuleSyntax.isModulePath_of_statement?` — what a statement names is a module path.
* `ModuleSyntax.imported?_use` — every module path is read back from its `use` line.
* `ModuleSyntax.exists_of_moduleLineIn` — only blank lines stand above the module line.
* `Outline.table_modules` — what a symbol table says about modules, from the lines of code.
-/

open Text Declaration

namespace Text

/-! ### Splitting at a pattern -/

theorem splitAtPatternFrom_length (pattern skipped rest : Line) :
    splitAtPatternFrom pattern skipped.length (skipped ++ rest)
      = splitAtPatternFrom pattern 0 rest := by
  induction skipped with
  | nil => rfl
  | cons c skipped ih => rw [List.length_cons, List.cons_append, splitAtPatternFrom, ih]

section Split

variable {p : Char} {pattern front : Line}

/-- No occurrence begins at another character than the pattern does. -/
theorem splitAtPatternFrom_cons_of_ne {c : Char} (h : c ≠ p) {rest first : Line}
    {others : List Line} (hrest : splitAtPatternFrom (p :: pattern) 0 rest = first :: others) :
    splitAtPatternFrom (p :: pattern) 0 (c :: rest) = (c :: first) :: others := by
  have hafter : after? (p :: pattern) (c :: rest) = none := if_neg (Ne.symm h)
  rw [splitAtPatternFrom, hafter, hrest]
  rfl

theorem splitAtPattern_of_not_mem (h : p ∉ front) :
    splitAtPattern (p :: pattern) front = [front] := by
  induction front with
  | nil => rfl
  | cons c front ih =>
    obtain ⟨hc, hfront⟩ := not_or.mp (mt List.mem_cons.mpr h)
    exact splitAtPatternFrom_cons_of_ne (Ne.symm hc) (ih hfront)

/-- The first piece ends at the first occurrence. -/
theorem splitAtPattern_append (h : p ∉ front) (rest : Line) :
    splitAtPattern (p :: pattern) (front ++ (p :: pattern) ++ rest)
      = front :: splitAtPattern (p :: pattern) rest := by
  induction front with
  | nil =>
    have hafter : after? (p :: pattern) ((p :: pattern) ++ rest) = some rest :=
      after?_eq_some_iff.mpr rfl
    rw [List.nil_append, List.cons_append, splitAtPattern, splitAtPatternFrom, ← List.cons_append,
      hafter]
    exact congrArg ([] :: ·) (splitAtPatternFrom_length (p :: pattern) pattern rest)
  | cons c front ih =>
    obtain ⟨hc, hfront⟩ := not_or.mp (mt List.mem_cons.mpr h)
    exact splitAtPatternFrom_cons_of_ne (Ne.symm hc) (ih hfront)

end Split

end Text

namespace ModuleSyntax

variable {syn : ModuleSyntax}

/-- The separator begins with neither a blank nor a character of a word, so that it ends a name. -/
def Separates (syn : ModuleSyntax) : Prop :=
  ∃ c rest, syn.separator = c :: rest ∧ isWord c = false ∧ isBlank c = false

theorem separates_standard : standard.Separates := ⟨':', [':'], rfl, by decide, by decide⟩

/-- A path as it may be written: names joined by the separator, with blanks around it. -/
inductive Spells (syn : ModuleSyntax) : List Line → Line → Prop where
  | one {name : Line} (hname : IsName name) : Spells syn [name] name
  | more {name gap gap' rest : Line} {names : List Line} (hname : IsName name)
      (hgap : isBlankLine gap = true) (hgap' : isBlankLine gap' = true)
      (hrest : Spells syn names rest) :
      Spells syn (name :: names) (name ++ gap ++ syn.separator ++ gap' ++ rest)

/-- Identifiers joined by the separator. -/
def IsModulePath (syn : ModuleSyntax) (path : String) : Prop :=
  ∃ names, names ≠ [] ∧ (∀ name ∈ names, IsName name)
    ∧ path.toList = syn.separator.intercalate names

/-! ### Paths as they are written -/

theorem Spells.ne_nil {names : List Line} {path : Line} (h : syn.Spells names path) :
    names ≠ [] := by
  cases h <;> exact List.cons_ne_nil _ _

theorem Spells.isName {names : List Line} {path : Line} (h : syn.Spells names path) :
    ∀ name ∈ names, IsName name := by
  induction h with
  | one hname => simpa using hname
  | more hname _ _ _ ih => exact List.forall_mem_cons.mpr ⟨hname, ih⟩

/-- Names joined by the separator alone are a path as it may be written. -/
theorem spells_intercalate {names : List Line} (hne : names ≠ [])
    (hnames : ∀ name ∈ names, IsName name) :
    syn.Spells names (syn.separator.intercalate names) := by
  induction names with
  | nil => exact absurd rfl hne
  | cons name names ih =>
    obtain ⟨hname, hrest⟩ := List.forall_mem_cons.mp hnames
    cases names with
    | nil =>
      rw [List.intercalate_singleton]
      exact .one hname
    | cons next names =>
      have hmore : syn.Spells (name :: next :: names)
          (name ++ [] ++ syn.separator ++ [] ++ syn.separator.intercalate (next :: names)) :=
        .more hname rfl rfl (ih (List.cons_ne_nil _ _) hrest)
      simpa [List.intercalate_cons_cons] using hmore

/-- The pieces between the separators are the names, with blanks around them. -/
theorem Spells.map_trim {names : List Line} {path : Line} (h : syn.Spells names path)
    (hsyn : syn.Separates) {before : Line} (hbefore : isBlankLine before = true) :
    (splitAtPattern syn.separator (before ++ path)).map trim = names := by
  obtain ⟨c, rest, hsep, hword, hblank⟩ := hsyn
  have hnot : ∀ {before name after : Line}, isBlankLine before = true → IsName name →
      isBlankLine after = true → c ∉ before ++ name ++ after := by
    intro before name after hbefore hname hafter hmem
    rcases List.mem_append.mp hmem with hmem | hmem
    · rcases List.mem_append.mp hmem with hmem | hmem
      · exact not_mem_of_isBlankLine hbefore hblank hmem
      · exact hname.not_mem hword hmem
    · exact not_mem_of_isBlankLine hafter hblank hmem
  -- the blanks behind a separator go to the next piece, so the text in front is arbitrary
  induction h generalizing before with
  | @one name hname =>
    have htrim := hname.trim_eq hbefore (rfl : isBlankLine [] = true)
    have hsplit := hnot hbefore hname (rfl : isBlankLine [] = true)
    rw [List.append_nil] at htrim hsplit
    rw [hsep, splitAtPattern_of_not_mem hsplit, List.map_singleton, htrim]
  | @more name gap gap' rest names hname hgap hgap' hrest ih =>
    have hpath : before ++ (name ++ gap ++ syn.separator ++ gap' ++ rest)
        = (before ++ name ++ gap) ++ syn.separator ++ (gap' ++ rest) := by simp
    have htail := ih hgap'
    rw [hsep] at hpath htail ⊢
    rw [hpath, splitAtPattern_append (hnot hbefore hname hgap), List.map_cons,
      hname.trim_eq hbefore hgap, htail]

/-- **Without its blanks, a path is its names joined.** -/
theorem Spells.normalize_eq {names : List Line} {path : Line} (h : syn.Spells names path)
    (hsyn : syn.Separates) : syn.normalize path = syn.separator.intercalate names := by
  have hnames := h.map_trim hsyn (rfl : isBlankLine [] = true)
  rw [List.nil_append] at hnames
  rw [normalize, hnames]

/-! ### Reading a path -/

theorem readSegment?_eq_some {text taken rest : Line}
    (h : syn.readSegment? text = some (taken, rest)) :
    ∃ gap gap' name, isBlankLine gap = true ∧ isBlankLine gap' = true ∧ IsName name
      ∧ taken = gap ++ syn.separator ++ gap' ++ name := by
  simp only [readSegment?, Option.bind_eq_bind, Option.bind_eq_some_iff, Option.pure_def,
    Option.some.injEq, Prod.mk.injEq, Prod.exists] at h
  obtain ⟨afterSeparator, -, name, rest', hname, rfl, rfl⟩ := h
  exact ⟨_, _, name, isBlankLine_takeWhile text, isBlankLine_takeWhile afterSeparator,
    isName_of_readName? hname, rfl⟩

/-- A name with the segments behind it is a path. -/
theorem exists_spells_readSegments {name : Line} (hname : IsName name) (text : Line) :
    ∃ names, syn.Spells names (name ++ syn.readSegments text) := by
  fun_induction readSegments syn text generalizing name with
  | case1 text hnone => exact ⟨[name], by simpa using Spells.one hname⟩
  | case2 text taken rest hsome ih =>
    obtain ⟨gap, gap', next, hgap, hgap', hnext, rfl⟩ := readSegment?_eq_some hsome
    obtain ⟨names, hnames⟩ := ih hnext
    exact ⟨name :: names, by simpa using Spells.more hname hgap hgap' hnames⟩

/-- What is read as a path is one. -/
theorem exists_spells_of_readPath? {text path : Line} (h : syn.readPath? text = some path) :
    ∃ names, syn.Spells names path := by
  simp only [readPath?, Option.bind_eq_bind, Option.bind_eq_some_iff, Option.pure_def,
    Option.some.injEq, Prod.exists] at h
  obtain ⟨name, rest, hname, rfl⟩ := h
  exact exists_spells_readSegments (isName_of_readName? hname) rest

/-- **What a statement names is a module path.** -/
theorem isModulePath_of_statement? (hsyn : syn.Separates) {keyword line : Line}
    {statement : Statement} (h : syn.statement? keyword line = some statement) :
    syn.IsModulePath (syn.nameOf statement) := by
  simp only [statement?, Option.bind_eq_bind, Option.bind_eq_some_iff, Option.pure_def,
    Option.some.injEq] at h
  obtain ⟨rest, -, text, -, path, hpath, rfl⟩ := h
  obtain ⟨names, hnames⟩ := exists_spells_of_readPath? hpath
  refine ⟨names, hnames.ne_nil, hnames.isName, ?_⟩
  rw [nameOf, String.toList_ofList, hnames.normalize_eq hsyn]

/-! ### Reading a path back -/

/-- A segment is read up to where its name ends. -/
theorem readSegment?_append (hsyn : syn.Separates) {gap gap' name rest : Line}
    (hgap : isBlankLine gap = true) (hgap' : isBlankLine gap' = true) (hname : IsName name)
    (hrest : ∀ c ∈ rest.head?, isWord c = false) :
    syn.readSegment? (gap ++ syn.separator ++ gap' ++ name ++ rest)
      = some (gap ++ syn.separator ++ gap' ++ name, rest) := by
  obtain ⟨c, separator, hsep, -, hc⟩ := hsyn
  have hread := readName?_append_stop hname hrest
  obtain ⟨d, word, rfl, hd, -⟩ := hname
  have hd : isBlank d = false := isBlank_eq_false_of_isWord (isWord_of_startsName hd)
  have hassoc : gap ++ syn.separator ++ gap' ++ d :: word ++ rest
      = gap ++ (c :: (separator ++ (gap' ++ (d :: (word ++ rest))))) := by simp [hsep]
  have hafter : after? syn.separator (c :: (separator ++ (gap' ++ (d :: (word ++ rest)))))
      = some (gap' ++ (d :: (word ++ rest))) := by
    rw [after?_eq_some_iff, hsep]
    rfl
  rw [readSegment?, hassoc, trimStart_append hgap, trimStart_of_head hc, hafter]
  simp only [Option.bind_eq_bind, Option.bind_some, trimStart_append hgap', trimStart_of_head hd,
    takeWhile_isBlank_append hgap hc, takeWhile_isBlank_append hgap' hd]
  rw [← List.cons_append, hread]
  rfl

/-- A text goes on no path that stands before it: it begins with neither a character of a word nor a
    segment. -/
def Ends (syn : ModuleSyntax) (tail : Line) : Prop :=
  (∀ c ∈ tail.head?, isWord c = false) ∧ syn.readSegment? tail = none

theorem ends_of_isBlankLine (hsyn : syn.Separates) {tail : Line} (h : isBlankLine tail = true) :
    syn.Ends tail := by
  obtain ⟨c, separator, hsep, -⟩ := hsyn
  refine ⟨fun d hd => isWord_eq_false_of_isBlank ?_, ?_⟩
  · exact List.all_eq_true.mp h d (List.mem_of_mem_head? hd)
  · have htrim : trimStart tail = [] := by
      have hnil := trimStart_append h []
      rwa [List.append_nil] at hnil
    rw [readSegment?, htrim, hsep]
    rfl

/-- A path begins with a name, and what follows are segments. -/
theorem Spells.exists_segments {names : List Line} {path : Line} (h : syn.Spells names path)
    (hsyn : syn.Separates) :
    ∃ name segments, path = name ++ segments ∧ IsName name ∧ ∀ tail, syn.Ends tail →
      (∀ c ∈ (segments ++ tail).head?, isWord c = false)
        ∧ syn.readSegments (segments ++ tail) = segments := by
  induction h with
  | @one name hname =>
    refine ⟨name, [], by simp, hname, fun tail htail => ⟨htail.1, ?_⟩⟩
    exact readSegments_of_none htail.2
  | @more name gap gap' rest names hname hgap hgap' hrest ih =>
    obtain ⟨next, segments, rfl, hnext, hends⟩ := ih
    refine ⟨name, gap ++ syn.separator ++ gap' ++ next ++ segments, by simp, hname,
      fun tail htail => ?_⟩
    obtain ⟨hstop, hsegments⟩ := hends tail htail
    refine ⟨?_, ?_⟩
    · -- a blank or the separator ends the name
      obtain ⟨c, separator, hsep, hword, -⟩ := hsyn
      intro d hd
      cases gap with
      | nil =>
        obtain rfl : c = d := by simpa [hsep] using hd
        exact hword
      | cons b gap =>
        obtain rfl : b = d := by simpa using hd
        exact isWord_eq_false_of_isBlank (List.all_eq_true.mp hgap b List.mem_cons_self)
    · rw [List.append_assoc _ segments tail,
        readSegments_of_some (readSegment?_append hsyn hgap hgap' hnext hstop), hsegments]

/-- A path is read up to where it ends. -/
theorem Spells.readPath?_append {names : List Line} {path tail : Line} (h : syn.Spells names path)
    (hsyn : syn.Separates) (htail : syn.Ends tail) : syn.readPath? (path ++ tail) = some path := by
  obtain ⟨name, segments, rfl, hname, hends⟩ := h.exists_segments hsyn
  obtain ⟨hstop, hsegments⟩ := hends tail htail
  rw [readPath?, List.append_assoc, readName?_append_stop hname hstop]
  simp [hsegments]

/-- **A statement is read** from any line that begins with its keyword and a path, with blanks
    around them. -/
theorem Spells.statement?_eq {names : List Line} {path : Line} (h : syn.Spells names path)
    (hsyn : syn.Separates) {lead keyword gap tail : Line} (hlead : isBlankLine lead = true)
    (hkeyword : ∃ c word, keyword = c :: word ∧ isBlank c = false) (hne : gap ≠ [])
    (hgap : isBlankLine gap = true) (htail : syn.Ends tail) :
    syn.statement? keyword (lead ++ keyword ++ gap ++ path ++ tail)
      = some ⟨lead ++ keyword ++ gap, path⟩ := by
  have hread := h.readPath?_append hsyn htail
  obtain ⟨name, segments, rfl, ⟨c, word, rfl, hc, -⟩, -⟩ := h.exists_segments hsyn
  have hblank : isBlank c = false := isBlank_eq_false_of_isWord (isWord_of_startsName hc)
  obtain ⟨k, keys, rfl, hk⟩ := hkeyword
  -- the rest of the line behind the keyword and behind the blanks after it
  have hline : lead ++ k :: keys ++ gap ++ (c :: word ++ segments) ++ tail
      = lead ++ (k :: (keys ++ (gap ++ (c :: (word ++ segments ++ tail))))) := by simp
  have hpath : c :: word ++ segments ++ tail = c :: (word ++ segments ++ tail) := by simp
  have hafter : after? (k :: keys) (k :: (keys ++ (gap ++ (c :: (word ++ segments ++ tail)))))
      = some (gap ++ (c :: (word ++ segments ++ tail))) := by
    rw [after?_eq_some_iff]
    rfl
  rw [hpath] at hread
  rw [statement?, hline, trimStart_append hlead, trimStart_of_head hk, hafter]
  simp only [Option.bind_eq_bind, Option.bind_some, skipBlanks?_append hne hgap hblank, hread,
    takeWhile_isBlank_append hlead hk, takeWhile_isBlank_append hgap hblank]
  rfl

/-- **Every module path is read back** from its `use` line. -/
theorem imported?_use (hsyn : syn.Separates) {path : String} (h : syn.IsModulePath path) :
    syn.imported? ("use " ++ path).toList = some path := by
  obtain ⟨names, hne, hnames, hpath⟩ := h
  have hspells : syn.Spells names (syn.separator.intercalate names) :=
    spells_intercalate hne hnames
  have hline : ("use " ++ path).toList
      = [] ++ ['u', 's', 'e'] ++ [' '] ++ syn.separator.intercalate names ++ [] := by
    simp [hpath]
  have hnone : isBlankLine [] = true := rfl
  have hstatement := hspells.statement?_eq hsyn hnone ⟨'u', ['s', 'e'], rfl, by decide⟩
    (List.cons_ne_nil ' ' []) (by decide) (ends_of_isBlankLine hsyn hnone)
  rw [imported?, useStatement?, hline, hstatement, Option.map_some, nameOf,
    hspells.normalize_eq hsyn, ← hpath, String.ofList_toList]

/-! ### Paths are plain code -/

theorem mem_intercalate {separator : Line} {names : List Line} {c : Char}
    (h : c ∈ separator.intercalate names) : c ∈ separator ∨ ∃ name ∈ names, c ∈ name := by
  induction names with
  | nil => cases h
  | cons name names ih =>
    cases names with
    | nil =>
      rw [List.intercalate_singleton] at h
      exact .inr ⟨name, List.mem_cons_self, h⟩
    | cons next names =>
      rw [List.intercalate_cons_cons, List.mem_append, List.mem_append] at h
      rcases h with (h | h) | h
      · exact .inr ⟨name, List.mem_cons_self, h⟩
      · exact .inl h
      · exact (ih h).imp_right fun ⟨other, hother, hc⟩ => ⟨other, List.mem_cons_of_mem _ hother, hc⟩

/-- The `use` line of a module path has neither comments nor strings. -/
theorem isPlain_use {path : String} (h : standard.IsModulePath path) :
    ∀ c ∈ ("use " ++ path).toList, IsPlain c := by
  obtain ⟨names, -, hnames, hpath⟩ := h
  have hkeyword : ['u', 's', 'e', ' '].all (IsPlain ·) = true := by decide
  have hseparator : standard.separator.all (IsPlain ·) = true := by decide
  intro c hc
  rw [String.toList_append, List.mem_append, hpath] at hc
  rcases hc with hc | hc
  · exact of_decide_eq_true (List.all_eq_true.mp hkeyword c hc)
  · rcases mem_intercalate hc with hc | ⟨name, hname, hc⟩
    · exact of_decide_eq_true (List.all_eq_true.mp hseparator c hc)
    · exact (hnames name hname).isPlain c hc

/-! ### The module line and the imports of some lines -/

/-- The number of the line that declares the module. -/
def moduleLineIn (syn : ModuleSyntax) (code : List Line) : Option Nat :=
  (firstCodeLine? 0 code).bind fun first => (syn.moduleStatement? first.2).map fun _ => first.1

theorem map_snd_importsFrom (number : Nat) (code : List Line) :
    (syn.importsFrom number code).map (·.2) = code.filterMap syn.imported? := by
  induction code generalizing number with
  | nil => rfl
  | cons line rest ih =>
    rw [importsFrom, List.filterMap_cons]
    cases syn.imported? line with
    | none => exact ih (number + 1)
    | some name => exact congrArg (name :: ·) (ih (number + 1))

theorem statement?_of_isBlankLine {line : Line} (h : isBlankLine line = true) {keyword : Line}
    (hkeyword : keyword ≠ []) : syn.statement? keyword line = none := by
  have htrim : trimStart line = [] := by
    have hnil := trimStart_append h []
    rwa [List.append_nil] at hnil
  obtain ⟨c, rest, rfl⟩ := List.exists_cons_of_ne_nil hkeyword
  rw [statement?, htrim]
  rfl

theorem imported?_of_isBlankLine {line : Line} (h : isBlankLine line = true) :
    syn.imported? line = none := by
  rw [imported?, useStatement?, statement?_of_isBlankLine h (by simp)]
  rfl

/-- The first line of code is found behind the blank ones. -/
theorem firstCodeLine?_append {blanks : List Line}
    (hblanks : ∀ blank ∈ blanks, isBlankLine blank = true) {line : Line}
    (hline : isBlankLine line = false) (rest : List Line) (number : Nat) :
    firstCodeLine? number (blanks ++ line :: rest) = some (number + blanks.length, line) := by
  induction blanks generalizing number with
  | nil => simp [firstCodeLine?, hline]
  | cons blank blanks ih =>
    obtain ⟨hblank, hblanks⟩ := List.forall_mem_cons.mp hblanks
    rw [List.cons_append, firstCodeLine?, if_pos hblank, ih hblanks, List.length_cons]
    congr 2
    omega

theorem exists_of_firstCodeLine? {number : Nat} {code : List Line} {first : Nat × Line}
    (h : firstCodeLine? number code = some first) :
    ∃ blanks rest, code = blanks ++ first.2 :: rest ∧ (∀ blank ∈ blanks, isBlankLine blank = true)
      ∧ first.1 = number + blanks.length := by
  induction code generalizing number with
  | nil => cases h
  | cons line code ih =>
    rw [firstCodeLine?] at h
    split at h
    · next hblank =>
      obtain ⟨blanks, rest, rfl, hblanks, hnumber⟩ := ih h
      refine ⟨line :: blanks, rest, rfl, List.forall_mem_cons.mpr ⟨hblank, hblanks⟩, ?_⟩
      rw [hnumber, List.length_cons]
      omega
    · cases h
      exact ⟨[], code, rfl, by simp, rfl⟩

/-- **Where the module line stands.**  Only blank lines are above it. -/
theorem exists_of_moduleLineIn {code : List Line} {number : Nat}
    (h : syn.moduleLineIn code = some number) :
    ∃ blanks line rest statement, code = blanks ++ line :: rest
      ∧ (∀ blank ∈ blanks, isBlankLine blank = true) ∧ blanks.length = number
      ∧ syn.moduleStatement? line = some statement := by
  obtain ⟨first, hfirst, hline⟩ := Option.bind_eq_some_iff.mp h
  obtain ⟨statement, hstatement, rfl⟩ := Option.map_eq_some_iff.mp hline
  obtain ⟨blanks, rest, hcode, hblanks, hnumber⟩ := exists_of_firstCodeLine? hfirst
  exact ⟨blanks, first.2, rest, statement, hcode, hblanks, by omega, hstatement⟩

/-- What is declared depends on nothing below the module line. -/
theorem declaredIn_append {blanks : List Line}
    (hblanks : ∀ blank ∈ blanks, isBlankLine blank = true) {line : Line} {statement : Statement}
    (h : syn.moduleStatement? line = some statement) (rest : List Line) :
    syn.declaredIn (blanks ++ line :: rest) = some (syn.nameOf statement) := by
  have hline : isBlankLine line = false := by
    cases hblank : isBlankLine line with
    | false => rfl
    | true =>
      rw [moduleStatement?, statement?_of_isBlankLine hblank (by simp)] at h
      cases h
  rw [declaredIn, firstCodeLine?_append hblanks hline, Option.bind_some, h]
  rfl

theorem declaredIn_eq_none_iff {code : List Line} :
    syn.declaredIn code = none ↔ syn.moduleLineIn code = none := by
  unfold declaredIn moduleLineIn
  cases firstCodeLine? 0 code with
  | none => simp
  | some first => simp

/-- A `use` line that comes first leaves no room for a module line. -/
theorem declaredIn_use {path name : String} (h : syn.imported? ("use " ++ path).toList = some name)
    (rest : List Line) : syn.declaredIn (("use " ++ path).toList :: rest) = none := by
  have hline : isBlankLine ("use " ++ path).toList = false := by
    cases hblank : isBlankLine ("use " ++ path).toList with
    | false => rfl
    | true =>
      rw [imported?_of_isBlankLine hblank] at h
      cases h
  have hfirst : firstCodeLine? 0 (("use " ++ path).toList :: rest)
      = some (0, ("use " ++ path).toList) := by
    rw [firstCodeLine?, hline]
    rfl
  have hkeyword : ("use " ++ path).toList = 'u' :: ("se " ++ path).toList := by simp
  rw [declaredIn, hfirst, Option.bind_some, moduleStatement?, statement?, hkeyword,
    trimStart_of_head (by decide)]
  rfl

/-- Only blank lines above the module line, and no imports in them or in it. -/
theorem mem_filterMap_imported? {blanks : List Line}
    (hblanks : ∀ blank ∈ blanks, isBlankLine blank = true) {line : Line}
    (hline : syn.imported? line = none) (rest : List Line) (path : String) :
    path ∈ (blanks ++ line :: rest).filterMap syn.imported?
      ↔ path ∈ rest.filterMap syn.imported? := by
  have hnone : blanks.filterMap syn.imported? = [] := by
    rw [List.filterMap_eq_nil_iff]
    exact fun blank hblank => imported?_of_isBlankLine (hblanks blank hblank)
  rw [List.filterMap_append, hnone, List.nil_append, List.filterMap_cons, hline]

/-- The module line imports nothing, and goes on importing nothing when it gets longer. -/
theorem imported?_of_moduleStatement? {line : Line} {statement : Statement}
    (h : syn.moduleStatement? line = some statement) (more : Line) :
    syn.imported? (line ++ more) = none := by
  simp only [moduleStatement?, statement?, Option.bind_eq_bind, Option.bind_eq_some_iff] at h
  obtain ⟨rest, hrest, -⟩ := h
  rw [after?_eq_some_iff] at hrest
  have hline : line ++ more
      = line.takeWhile isBlank ++ (['m', 'o', 'd', 'u', 'l', 'e'] ++ rest ++ more) := by
    rw [← hrest, ← List.append_assoc, takeWhile_append_trimStart]
  rw [imported?, useStatement?, statement?, hline, trimStart_append (isBlankLine_takeWhile line)]
  rfl

end ModuleSyntax

namespace Outline

/-- The lines of code of a text. -/
def codeOf (text : List Char) : List Line := splitAtChar '\n' (maskText .code none text)

/-- The symbol table of a text takes what it says about modules from the lines of code. -/
theorem table_modules (syn : ModuleSyntax) (uri : Uri) (text : String) :
    (table syn uri text).declaredModule = syn.declaredIn (codeOf text.toList)
      ∧ (table syn uri text).moduleLine = syn.moduleLineIn (codeOf text.toList)
      ∧ (table syn uri text).usedModules = (codeOf text.toList).filterMap syn.imported? := by
  have htable : table syn uri text
      = tableOf (Page.ofText uri text) (findings syn (maskCode (splitLines text))) := rfl
  obtain ⟨hdeclared, -, hused⟩ :=
    tableOf_modules (Page.ofText uri text) syn (maskCode (splitLines text))
  rw [codeOf, ← maskCode_splitLines, ← ModuleSyntax.map_snd_importsFrom 0]
  refine ⟨hdeclared, ?_, hused⟩
  rw [htable, tableOf]
  generalize maskCode (splitLines text) = code
  dsimp only [findings, moduleFinding?, ModuleSyntax.moduleLineIn]
  cases ModuleSyntax.firstCodeLine? 0 code with
  | none =>
    simp only [Option.bind_eq_bind, Option.bind_none, Option.toList_none, List.nil_append,
      declared?_bodyFindings, Option.map_none]
  | some first =>
    cases hstatement : syn.moduleStatement? first.2 with
    | none =>
      simp only [Option.bind_eq_bind, Option.bind_some, hstatement, Option.bind_none,
        Option.toList_none, List.nil_append, declared?_bodyFindings, Option.map_none]
    | some statement =>
      simp only [Option.bind_eq_bind, Option.bind_some, hstatement]
      rfl

end Outline

end ScriptServer
