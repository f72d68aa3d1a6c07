import ScriptServer.Library.Index
import ScriptServer.Proofs.Library.Register
import ScriptServer.Proofs.ModulePath

namespace ScriptServer

/-!
# One form for each module path

However a path is written in a `use` or a `module` line, it is read as its names joined by the
separator.  So a `use` line means a script exactly when it has the names of its `module` line.

* `exists_maskComments_cons` — a line without slashes stays as it is when comments are blanked.
* `ModuleSyntax.IsClean` — what a separator may hold so that it can be told from names, blanks,
  strings and comments.
* `ModuleSyntax.Writes` — a line with a keyword and a path, blanks anywhere around its parts.
* `ModuleSyntax.Writes.imported?_eq`, `ModuleSyntax.Writes.declared?_eq` — what is read from it.
* `ModuleSyntax.module_paths_canonical` — what is read has one form, which is read as itself, and
  scripts are found by it.
-/

open Text Declaration Library

namespace Text

/-! ### The first line of a text -/

/-- Without a slash no comment begins. -/
theorem render_markLine_of_not_mem {zone : Zone} {line : Line} (hzone : zone ≠ .comment)
    (h : '/' ∉ line) : render (· == .comment) (markLine zone line).chars = line := by
  have hcons : ∀ {c : Char} {mark : Mark} {marked : Marked} {rest : Line}, mark ≠ .comment →
      render (· == .comment) marked.chars = rest →
      render (· == .comment) (marked.cons c mark).chars = c :: rest := by
    intro c mark marked rest hmark hrest
    rw [Marked.cons, render_cons, hrest, if_neg (by simpa using hmark)]
    rfl
  fun_induction markLine zone line with
  | case1 => exact absurd rfl hzone
  | case2 => rfl
  | case3 quote => rfl
  | case4 => exact absurd rfl hzone
  | case5 => exact absurd rfl hzone
  | case6 quote escaped rest ih =>
    have hrest : '/' ∉ rest := by simp_all
    exact hcons (by simp) (hcons (by simp) (ih hzone hrest))
  | case7 c rest _ ih => exact hcons (by simp) (ih (by simp) (List.not_mem_of_not_mem_cons h))
  | case8 quote c rest _ _ ih => exact hcons (by simp) (ih hzone (List.not_mem_of_not_mem_cons h))
  | case9 rest => simp at h
  | case10 rest => simp at h
  | case11 c rest _ _ _ ih => exact hcons (by simp) (ih (by simp) (List.not_mem_of_not_mem_cons h))
  | case12 c rest _ _ _ ih => exact hcons (by simp) (ih hzone (List.not_mem_of_not_mem_cons h))

theorem exists_maskComments_cons {line : Line} (h : '/' ∉ line) (lines : List Line) :
    ∃ others, maskComments (line :: lines) = line :: others := by
  have hline : render (· == .comment) (markLine .code line).chars = line :=
    render_markLine_of_not_mem (by simp) h
  exact ⟨_, congrArg (· :: _) hline⟩

/-- What comes behind a line: nothing, or a line break. -/
def BreaksLine (rest : List Char) : Prop := rest = [] ∨ ∃ more, rest = '\n' :: more

theorem exists_splitLines_cons {line rest : List Char} (hline : '\n' ∉ line)
    (hrest : BreaksLine rest) :
    ∃ others, splitLines (String.ofList (line ++ rest)) = dropReturn line :: others := by
  unfold splitLines
  rw [String.toList_ofList]
  rcases hrest with rfl | ⟨more, rfl⟩
  · exact ⟨[], by rw [List.append_nil, splitAtChar_of_not_mem hline, List.map_singleton]⟩
  · exact ⟨_, by rw [splitAtChar_append, splitAtChar_of_not_mem hline]; rfl⟩

end Text

namespace ModuleSyntax

variable {syn : ModuleSyntax} {names : List Line}

/-! ### Separators -/

/-- A character can be told from those of names, blanks, strings and comments. -/
def IsClean (c : Char) : Prop :=
  isWord c = false ∧ isBlank c = false ∧ isQuote c = false ∧ c ≠ '/'

instance (c : Char) : Decidable (IsClean c) := inferInstanceAs (Decidable (_ ∧ _))

/-- A separator of clean characters is used as it is, and without one there is the standard one. -/
theorem separator_ofSeparator {separator : String} (h : ∀ c ∈ separator.toList, IsClean c) :
    (ofSeparator separator).separator = (if separator = "" then "::" else separator).toList := by
  have hblank : ∀ c ∈ separator.toList, isBlank c = false := fun c hc => (h c hc).2.1
  have htrim : trim separator.toList = separator.toList := by
    have hend := trimEnd_append hblank (rfl : isBlankLine [] = true)
    rw [List.append_nil] at hend
    rw [trim]
    cases htext : separator.toList with
    | nil => rfl
    | cons c rest =>
      rw [htext] at hend hblank
      rw [trimStart_of_head (hblank c List.mem_cons_self), hend]
  by_cases hempty : separator = ""
  · subst hempty
    rfl
  · rw [if_neg hempty, ofSeparator, htrim]
    cases htext : separator.toList with
    | nil => exact absurd (String.toList_eq_nil_iff.mp htext) hempty
    | cons c rest => rfl

/-- The separator is not empty, and all its characters are clean. -/
def HasCleanSeparator (syn : ModuleSyntax) : Prop :=
  syn.separator ≠ [] ∧ ∀ c ∈ syn.separator, IsClean c

theorem hasCleanSeparator_ofSeparator {separator : String}
    (h : ∀ c ∈ separator.toList, IsClean c) : (ofSeparator separator).HasCleanSeparator := by
  have hstandard : "::".toList.all (IsClean ·) = true := by decide
  unfold HasCleanSeparator
  rw [separator_ofSeparator h]
  split
  · exact ⟨by decide, fun c hc => of_decide_eq_true (List.all_eq_true.mp hstandard c hc)⟩
  · next hne => exact ⟨fun hnil => hne (String.toList_eq_nil_iff.mp hnil), h⟩

theorem HasCleanSeparator.separates (h : syn.HasCleanSeparator) : syn.Separates := by
  obtain ⟨c, rest, hsep⟩ := List.exists_cons_of_ne_nil h.1
  obtain ⟨hword, hblank, -⟩ := h.2 c (by rw [hsep]; exact List.mem_cons_self)
  exact ⟨c, rest, hsep, hword, hblank⟩

/-! ### Paths -/

/-- The names of a path, joined. -/
def joined (syn : ModuleSyntax) (names : List Line) : String :=
  String.ofList (syn.separator.intercalate names)

/-- Different names are never joined to the same path. -/
theorem joined_inj (hsyn : syn.Separates) {names' : List Line} {path path' : Line}
    (h : syn.Spells names path) (h' : syn.Spells names' path') :
    syn.joined names = syn.joined names' ↔ names = names' := by
  refine ⟨fun heq => ?_, congrArg syn.joined⟩
  have hlist := String.ofList_injective heq
  have hback : ∀ {names path}, syn.Spells names path →
      (splitAtPattern syn.separator (syn.separator.intercalate names)).map trim = names :=
    fun h => (spells_intercalate h.ne_nil h.isName).map_trim hsyn (rfl : isBlankLine [] = true)
  rw [← hback h, hlist, hback h']

/-- What a path is made of. -/
theorem Spells.mem {path : Line} (h : syn.Spells names path) {c : Char} (hc : c ∈ path) :
    isWord c = true ∨ isBlank c = true ∨ c ∈ syn.separator := by
  induction h with
  | one hname => exact .inl (hname.isWord c hc)
  | more hname hgap hgap' _ ih =>
    simp only [List.mem_append] at hc
    rcases hc with (((hc | hc) | hc) | hc) | hc
    · exact .inl (hname.isWord c hc)
    · exact .inr (.inl (List.all_eq_true.mp hgap c hc))
    · exact .inr (.inr hc)
    · exact .inr (.inl (List.all_eq_true.mp hgap' c hc))
    · exact ih hc

/-- A path ends with a name. -/
theorem Spells.exists_last {path : Line} (h : syn.Spells names path) :
    ∃ before c, path = before ++ [c] ∧ isWord c = true := by
  induction h with
  | @one name hname =>
    have hlast := List.dropLast_concat_getLast hname.ne_nil
    exact ⟨_, _, hlast.symm, hname.isWord _ (List.getLast_mem _)⟩
  | more _ _ _ _ ih =>
    obtain ⟨before, c, rfl, hc⟩ := ih
    exact ⟨_, c, (List.append_assoc _ _ _).symm, hc⟩

/-! ### Lines -/

/-- A line with a keyword and the path of some names behind it, with blanks anywhere around the
    keyword, the names and the separators. -/
inductive Writes (syn : ModuleSyntax) (keyword : Line) (names : List Line) : Line → Prop where
  | line {lead gap path tail : Line} (hlead : isBlankLine lead = true) (hne : gap ≠ [])
      (hgap : isBlankLine gap = true) (hpath : syn.Spells names path)
      (htail : isBlankLine tail = true) :
      Writes syn keyword names (lead ++ keyword ++ gap ++ path ++ tail)

theorem Writes.exists_statement {keyword line : Line} (h : syn.Writes keyword names line)
    (hsyn : syn.Separates) (hkeyword : ∃ c word, keyword = c :: word ∧ isBlank c = false) :
    ∃ statement, syn.statement? keyword line = some statement
      ∧ syn.nameOf statement = syn.joined names := by
  obtain ⟨hlead, hne, hgap, hpath, htail⟩ := h
  refine ⟨_, hpath.statement?_eq hsyn hlead hkeyword hne hgap (ends_of_isBlankLine hsyn htail), ?_⟩
  rw [nameOf, hpath.normalize_eq hsyn, joined]

/-- **What a `use` line imports** are its names, joined. -/
theorem Writes.imported?_eq {line : Line} (h : syn.Writes ['u', 's', 'e'] names line)
    (hsyn : syn.Separates) : syn.imported? line = some (syn.joined names) := by
  obtain ⟨statement, hstatement, hname⟩ := h.exists_statement hsyn ⟨'u', _, rfl, by decide⟩
  rw [imported?, useStatement?, hstatement, Option.map_some, hname]

/-- A carriage return at the end belongs to the blanks there. -/
theorem Writes.dropReturn {keyword line : Line} (h : syn.Writes keyword names line) :
    syn.Writes keyword names (dropReturn line) := by
  rcases dropReturn_eq line with heq | heq
  · rwa [heq]
  · obtain @⟨lead, gap, path, tail, hlead, hne, hgap, hpath, htail⟩ := h
    cases tail using List.reverseRecOn with
    | nil =>
      -- without blanks the line ends with a name
      obtain ⟨before, c, rfl, hc⟩ := hpath.exists_last
      rw [List.append_nil, ← List.append_assoc] at heq
      obtain rfl : c = '\r' := by simpa using (List.append_inj' heq rfl).2
      exact absurd hc (by decide)
    | append_singleton tail c =>
      rw [← List.append_assoc] at heq ⊢
      rw [← (List.append_inj' heq rfl).1]
      refine .line hlead hne hgap hpath ?_
      rw [isBlankLine, List.all_append, Bool.and_eq_true] at htail
      exact htail.1

/-- A line that names a module has no comments. -/
theorem Writes.not_mem_slash {keyword line : Line} (h : syn.Writes keyword names line)
    (hsyn : syn.HasCleanSeparator) (hkeyword : '/' ∉ keyword) : '/' ∉ line := by
  obtain ⟨hlead, -, hgap, hpath, htail⟩ := h
  have hblank : ∀ {gap : Line}, isBlankLine gap = true → '/' ∉ gap :=
    fun hgap => not_mem_of_isBlankLine hgap (by decide)
  have hspelled : '/' ∉ _ := fun hmem => by
    rcases hpath.mem hmem with hword | hgap | hsep
    · exact absurd hword (by decide)
    · exact absurd hgap (by decide)
    · exact (hsyn.2 _ hsep).2.2.2 rfl
  simp only [List.mem_append, not_or]
  exact ⟨⟨⟨⟨hblank hlead, hkeyword⟩, hblank hgap⟩, hspelled⟩, hblank htail⟩

/-- **What a script declares** on its first line are the names there, joined. -/
theorem Writes.declared?_eq {line rest : Line}
    (h : syn.Writes ['m', 'o', 'd', 'u', 'l', 'e'] names line) (hsyn : syn.HasCleanSeparator)
    (hline : '\n' ∉ line) (hrest : BreaksLine rest) :
    syn.declared? (String.ofList (line ++ rest)) = some (syn.joined names) := by
  obtain ⟨lines, hlines⟩ := exists_splitLines_cons hline hrest
  have hwrites := h.dropReturn
  generalize Text.dropReturn line = first at hwrites hlines
  obtain ⟨others, hcode⟩ := exists_maskComments_cons (hwrites.not_mem_slash hsyn (by decide)) lines
  obtain ⟨statement, hstatement, hname⟩ :=
    hwrites.exists_statement hsyn.separates ⟨'m', _, rfl, by decide⟩
  have hdeclared := declaredIn_append (List.forall_mem_nil _) hstatement others
  rw [List.nil_append, hname] at hdeclared
  rw [ModuleSyntax.declared?_eq, hlines, hcode, hdeclared]

/-! ### The canonical form -/

theorem isModulePath_of_imported? (hsyn : syn.Separates) {line : Line} {path : String}
    (h : syn.imported? line = some path) : syn.IsModulePath path := by
  obtain ⟨statement, hstatement, rfl⟩ := Option.map_eq_some_iff.mp h
  exact isModulePath_of_statement? hsyn hstatement

/-- A module path has no blanks. -/
theorem IsModulePath.isBlank_eq_false {path : String} (h : syn.IsModulePath path)
    (hsyn : syn.HasCleanSeparator) : ∀ c ∈ path.toList, isBlank c = false := by
  obtain ⟨names, -, hnames, hpath⟩ := h
  intro c hc
  rw [hpath] at hc
  rcases mem_intercalate hc with hc | ⟨name, hname, hc⟩
  · exact (hsyn.2 c hc).2.1
  · exact isBlank_eq_false_of_isWord ((hnames name hname).isWord c hc)

/-- **Every module path is read back** from its `module` line. -/
theorem declared?_module {path : String} (h : syn.IsModulePath path)
    (hsyn : syn.HasCleanSeparator) : syn.declared? ("module " ++ path) = some path := by
  have hblank := h.isBlank_eq_false hsyn
  obtain ⟨names, hne, hnames, hpath⟩ := h
  have hwrites : syn.Writes ['m', 'o', 'd', 'u', 'l', 'e'] names ("module " ++ path).toList := by
    have hline : syn.Writes ['m', 'o', 'd', 'u', 'l', 'e'] names
        ([] ++ ['m', 'o', 'd', 'u', 'l', 'e'] ++ [' '] ++ syn.separator.intercalate names ++ []) :=
      .line rfl (by simp) (by decide) (spells_intercalate hne hnames) rfl
    simpa [hpath] using hline
  have hbreak : '\n' ∉ ("module " ++ path).toList := by
    rw [String.toList_append, List.mem_append, not_or]
    exact ⟨by decide, fun hmem => absurd (hblank _ hmem) (by decide)⟩
  have hdeclared := hwrites.declared?_eq hsyn hbreak (.inl rfl)
  rwa [List.append_nil, String.ofList_toList, joined, ← hpath, String.ofList_toList] at hdeclared

/-- The name in its module line is the name of a script in the library. -/
theorem name_of_declared? {disk : Disk} {root path : Path} {entry : Entry} {text name : String}
    (hentry : Entry.ofFile? disk syn root path = some entry) (hread : disk.read path = .ok text)
    (h : syn.declared? text = some name) : entry.name = name := by
  obtain ⟨derived, -, heq⟩ := Option.bind_eq_some_iff.mp hentry
  obtain rfl := Option.some.inj heq
  rw [Entry.name, Entry.declaredIn, hread]
  exact congrArg (·.getD derived) h

/-- **Module paths have one form.**  With a separator of clean characters, what a `use` line imports
    is a row of names joined by it, without blanks, and is read as itself from its own `use` and
    `module` lines.  A row of names is read as that form however blanks stand around its parts.  So
    a `use` line finds a script in the library exactly when it has the names of its module line. -/
theorem module_paths_canonical (separator : String) (hclean : ∀ c ∈ separator.toList, IsClean c) :
    let syn := ofSeparator separator
    syn.separator = (if separator = "" then "::" else separator).toList
      ∧ (∀ line path, syn.imported? line = some path →
          syn.IsModulePath path ∧ (∀ c ∈ path.toList, isBlank c = false)
            ∧ syn.imported? ("use " ++ path).toList = some path
            ∧ syn.declared? ("module " ++ path) = some path)
      ∧ (∀ names line, syn.Writes ['u', 's', 'e'] names line →
          syn.imported? line = some (syn.joined names))
      ∧ (∀ names line rest, syn.Writes ['m', 'o', 'd', 'u', 'l', 'e'] names line → '\n' ∉ line →
          BreaksLine rest → syn.declared? (String.ofList (line ++ rest)) = some (syn.joined names))
      ∧ ∀ (disk : Disk) (root file : Path) (entry : Entry) (index : Index)
          (names names' : List Line) (line line' rest : Line),
          disk.read file = .ok (String.ofList (line ++ rest)) → '\n' ∉ line → BreaksLine rest →
          syn.Writes ['m', 'o', 'd', 'u', 'l', 'e'] names line →
          Entry.ofFile? disk syn root file = some entry → entry ∈ index.entries →
          syn.Writes ['u', 's', 'e'] names' line' →
          ∃ name, syn.imported? line' = some name ∧ (entry ∈ index.find name ↔ names = names') := by
  intro syn
  have hsyn : syn.HasCleanSeparator := hasCleanSeparator_ofSeparator hclean
  refine ⟨separator_ofSeparator hclean, fun line path himport => ?_,
    fun names line hline => hline.imported?_eq hsyn.separates,
    fun names line rest hline hbreak hrest => hline.declared?_eq hsyn hbreak hrest, ?_⟩
  · have hpath : syn.IsModulePath path := isModulePath_of_imported? hsyn.separates himport
    exact ⟨hpath, hpath.isBlank_eq_false hsyn, imported?_use hsyn.separates hpath,
      declared?_module hpath hsyn⟩
  · intro disk root file entry index names names' line line' rest hread hbreak hrest hmodule hentry
      hmem huse
    refine ⟨syn.joined names', huse.imported?_eq hsyn.separates, ?_⟩
    have hname : entry.name = syn.joined names :=
      name_of_declared? hentry hread (hmodule.declared?_eq hsyn hbreak hrest)
    rw [Index.find_eq, List.mem_filter, hname, beq_iff_eq, and_iff_right hmem]
    obtain ⟨-, -, -, hpath, -⟩ := hmodule
    obtain ⟨-, -, -, hpath', -⟩ := huse
    exact joined_inj hsyn.separates hpath hpath'

/-- Paths with arrows: blanks around an arrow do not count. -/
theorem module_paths_canonical_arrow :
    (ofSeparator "->").imported? " use a -> b1".toList = some "a->b1"
      ∧ (ofSeparator "->").declared? "module a->b1" = some "a->b1" := by
  have hall : "->".toList.all (IsClean ·) = true := by decide
  have hclean : ∀ c ∈ "->".toList, IsClean c :=
    fun c hc => of_decide_eq_true (List.all_eq_true.mp hall c hc)
  have ha : IsName ['a'] := by decide
  have hb : IsName ['b', '1'] := by decide
  have hwrites : (ofSeparator "->").Writes ['u', 's', 'e'] [['a'], ['b', '1']]
      ([' '] ++ ['u', 's', 'e'] ++ [' '] ++ (['a'] ++ [' '] ++ ['-', '>'] ++ [' '] ++ ['b', '1'])
        ++ []) :=
    .line (by decide) (by simp) (by decide) (.more ha (by decide) (by decide) (.one hb)) rfl
  have himport := (module_paths_canonical "->" hclean).2.2.1 _ _ hwrites
  exact ⟨himport, ((module_paths_canonical "->" hclean).2.1 _ _ himport).2.2.2⟩

end ModuleSyntax

end ScriptServer
