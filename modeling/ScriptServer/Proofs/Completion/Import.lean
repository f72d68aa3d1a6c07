import ScriptServer.Proofs.ModulePath
import ScriptServer.Proofs.Text.Comment
import ScriptServer.Proofs.Text.LineStart
import ScriptServer.Workspace.Completion

namespace ScriptServer

/-!
# Completions that import

A function of a module that is not imported yet comes with an edit, which inserts the `use` line of
this module below the module line, or at the top.

* `LineEdit.apply` — a text with an edit made.
* `Text.exists_code_insert` — the code of a text with a line inserted: all lines of code stay, and
  the new one is blank when it stands in a block comment.
* `Text.exists_code_append` — the code of a text with a line appended to its last line.
* `Outline.HasRoom` — a line follows the module line, and does not begin in a block comment.
* `Workspace.accepting_adds_import` — the edit imports the module exactly then.
-/

open Text Declaration Library

/-- A text with an edit made.  A line past the end of the text means its end. -/
def LineEdit.apply (edit : LineEdit) (text : String) : String :=
  match cutAtLine? edit.line text.toList with
  | some (above, below) => String.ofList (above ++ edit.text.toList ++ below)
  | none => text ++ edit.text

namespace Text

/-! ### Lines in a block comment -/

/-- A line without a slash is blank in a block comment, and does not end it. -/
theorem maskText_inComment {region : Region} (hregion : region.inComment = true) {line : Line}
    (hline : '/' ∉ line) (next : Option Char) :
    isBlankLine (maskText region next line) = true ∧ (region.after line).inComment = true := by
  induction line generalizing region with
  | nil => exact ⟨rfl, hregion⟩
  | cons c line ih =>
    obtain ⟨hc, hline⟩ := not_or.mp (mt List.mem_cons.mpr hline)
    have hstep : (region.step c).inComment = true :=
      Region.inComment_step_iff.mpr (.inr ⟨hregion, fun h => hc h.2.symm⟩)
    have hmark : ∀ next, region.mark c next ≠ .code := by
      intro next
      cases region <;> simp_all [Region.inComment, Region.mark]
    obtain ⟨hblank, hafter⟩ := ih hstep hline
    exact ⟨isBlankLine_append (isBlankLine_glyph (.inr (hmark _))) hblank, hafter⟩

theorem Region.newLine_of_inComment {region : Region} (h : region.inComment = true) :
    region.step '\n' = .comment := by
  cases region <;> first | rfl | cases h

/-! ### A line inserted, and a line appended -/

section Insert

variable {number : Nat} {text above below line : List Char}

/-- **The code of a text with a line inserted.**  The lines of code above and below stay as they
    are.  The new line is code, unless the line it replaces begins in a block comment. -/
theorem exists_code_insert (hcut : cutAtLine? number text = some (above, below))
    (hline : ∀ c ∈ line, IsPlain c) :
    ∃ (front back : List Line) (new : Line), front.length = number
      ∧ splitAtChar '\n' (maskText .code none text) = front ++ back
      ∧ splitAtChar '\n' (maskText .code none (above ++ (line ++ ['\n']) ++ below))
        = front ++ new :: back
      ∧ (InBlock above → isBlankLine new = true) ∧ (¬ InBlock above → new = line) := by
  have hplain : ∀ c ∈ ['/', '\n'], c ∉ line := by
    intro c hc hmem
    have hnone : ['/', '\n'].all (¬ IsPlain ·) = true := by decide
    exact of_decide_eq_true (List.all_eq_true.mp hnone c hc) (hline c hmem)
  obtain ⟨front, hlength, hfront⟩ := splitAtChar_maskText_cut hcut .code
  have htext : text = above ++ below := eq_append_of_cutAtLine? hcut
  have hassoc : above ++ (line ++ ['\n']) ++ below = above ++ (line ++ '\n' :: below) := by simp
  -- the new line is read from where the text above has led, and leads back there
  have hsplit : ∀ region : Region, (region.after line).step '\n' = region →
      splitAtChar '\n' (maskText region none (line ++ '\n' :: below))
        = maskText region (some '\n') line :: splitAtChar '\n' (maskText region none below) := by
    intro region hregion
    rw [maskText_append, maskText, glyph_lineBreak, List.singleton_append, splitAtChar_append,
      splitAtChar_of_not_mem (not_mem_maskText (hplain '\n' (by simp)) _ _), hregion]
    rfl
  rw [inBlock_iff, htext, hassoc]
  simp only [hfront]
  -- a line begins in code or in a block comment
  rcases after_cut hcut with hregion | hregion
  · obtain ⟨hmask, hafter⟩ := maskText_of_isPlain hline (some '\n')
    refine ⟨front, _, line, hlength, rfl, ?_, ?_⟩
    · rw [hregion, hsplit .code (by rw [hafter]; rfl), hmask]
    · rw [hregion]
      exact ⟨fun h => absurd h (by decide), fun _ => rfl⟩
  · obtain ⟨hblank, hafter⟩ :=
      maskText_inComment (rfl : Region.comment.inComment = true) (hplain '/' (by simp)) (some '\n')
    refine ⟨front, _, maskText .comment (some '\n') line, hlength, rfl, ?_, ?_⟩
    · rw [hregion, hsplit .comment (Region.newLine_of_inComment hafter)]
    · rw [hregion]
      exact ⟨fun _ => hblank, fun h => absurd rfl h⟩

/-- What follows a text adds to its code, when it begins with no character that would open or close
    a comment. -/
theorem exists_maskText_some (region : Region) (text : List Char) {c : Char} (hslash : c ≠ '/')
    (hstar : c ≠ '*') :
    ∃ more, maskText region (some c) text = maskText region none text ++ more := by
  induction text generalizing region with
  | nil => exact ⟨[], rfl⟩
  | cons d rest ih =>
    cases rest with
    | cons e rest =>
      obtain ⟨more, hmore⟩ := ih (region.step d)
      have hcons : ∀ next, maskText region next (d :: e :: rest)
          = glyph region d (some e) ++ maskText (region.step d) next (e :: rest) := fun _ => rfl
      exact ⟨more, by rw [hcons, hcons, hmore, List.append_assoc]⟩
    | nil =>
      have hlast : ∀ next, maskText region next [d] = glyph region d next := by
        intro next
        simp [maskText]
      have hmark : region.mark d (some c) = region.mark d none :=
        region.mark_congr d (.inr fun e he => by
          rcases he with rfl | rfl <;> simp [hslash, hstar])
      rw [hlast, hlast]
      by_cases hreturn : d = '\r'
      · -- only a carriage return that is no longer the last character is new
        exact ⟨glyph region d (some c), by simp [hreturn, glyph]⟩
      · exact ⟨[], by simp [glyph, hreturn, hmark]⟩

/-- **The code of a text with a line appended.**  The last line of code goes on, and an empty one
    follows. -/
theorem exists_code_append (hcut : cutAtLine? number text = some (above, below))
    (hlast : '\n' ∉ below) {c : Char} (hslash : c ≠ '/') (hstar : c ≠ '*')
    (hline : '\n' ∉ c :: line) :
    ∃ (front : List Line) (last more : Line), front.length = number
      ∧ splitAtChar '\n' (maskText .code none text) = front ++ [last]
      ∧ splitAtChar '\n' (maskText .code none (text ++ (c :: line ++ ['\n'])))
        = front ++ [last ++ more, []] := by
  obtain ⟨front, hlength, hfront⟩ := splitAtChar_maskText_cut hcut .code
  generalize Region.after .code above = region at hfront
  obtain ⟨more, hmore⟩ := exists_maskText_some region below hslash hstar
  have hlong : maskText region (some '\n') (below ++ c :: line)
      = maskText region none below
        ++ (more ++ maskText (region.after below) (some '\n') (c :: line)) := by
    rw [maskText_append, ← List.append_assoc, ← hmore]
    rfl
  have hbreak : '\n' ∉ maskText region (some '\n') (below ++ c :: line) :=
    not_mem_maskText (fun h => (List.mem_append.mp h).elim hlast hline) _ _
  refine ⟨front, maskText region none below,
    more ++ maskText (region.after below) (some '\n') (c :: line), hlength, ?_, ?_⟩
  · rw [eq_append_of_cutAtLine? hcut, hfront, splitAtChar_of_not_mem (not_mem_maskText hlast _ _)]
  · have hassoc : above ++ below ++ (c :: line ++ ['\n'])
        = above ++ ((below ++ c :: line) ++ '\n' :: []) := by simp
    rw [eq_append_of_cutAtLine? hcut, hassoc, hfront, maskText_append, maskText, glyph_lineBreak,
      List.singleton_append, splitAtChar_append]
    show front ++ (splitAtChar '\n' (maskText region (some '\n') (below ++ c :: line)) ++ [[]]) = _
    rw [splitAtChar_of_not_mem hbreak, hlong]
    rfl

end Insert

end Text

namespace Outline

/-- There is room for an import below the module line: a line follows it, and this line does not
    begin in a block comment. -/
def HasRoom (syn : ModuleSyntax) (text : String) : Prop :=
  ∀ number, syn.moduleLineIn (codeOf text.toList) = some number →
    ∃ above below, cutAtLine? (number + 1) text.toList = some (above, below) ∧ ¬ InBlock above

section Accept

variable {text : String} {edit : LineEdit} {path : String} {number : Nat}

theorem toList_apply_of_some {above below : List Char}
    (h : cutAtLine? edit.line text.toList = some (above, below)) :
    (edit.apply text).toList = above ++ edit.text.toList ++ below := by
  rw [LineEdit.apply, h]
  exact String.toList_ofList

theorem toList_apply_of_none (h : cutAtLine? edit.line text.toList = none) :
    (edit.apply text).toList = text.toList ++ edit.text.toList := by
  rw [LineEdit.apply, h]
  exact String.toList_append

theorem toList_use (path : String) :
    ("use " ++ path ++ "\n").toList = ("use " ++ path).toList ++ ['\n'] := by simp

/-- Without a module line, the `use` line becomes the first line of code. -/
theorem code_apply_top (hpath : ModuleSyntax.standard.IsModulePath path) :
    codeOf ((⟨0, "use " ++ path ++ "\n"⟩ : LineEdit).apply text).toList
      = ("use " ++ path).toList :: codeOf text.toList := by
  have hcut : cutAtLine? 0 text.toList = some ([], text.toList) := rfl
  obtain ⟨front, back, new, hlength, hcode, hcode', -, hnew⟩ :=
    exists_code_insert hcut (ModuleSyntax.isPlain_use hpath)
  have houtside : ¬ InBlock [] := by
    rw [inBlock_iff]
    decide
  obtain rfl : front = [] := List.eq_nil_of_length_eq_zero hlength
  rw [toList_apply_of_some hcut, toList_use, codeOf, hcode', codeOf, hcode, hnew houtside]
  rfl

/-- Below the module line, a new line of code is inserted, which is blank in a block comment. -/
theorem exists_code_apply_below (hpath : ModuleSyntax.standard.IsModulePath path)
    {above below : List Char} (hcut : cutAtLine? (number + 1) text.toList = some (above, below))
    {blanks rest : List Line} {line : Line} (hcode : codeOf text.toList = blanks ++ line :: rest)
    (hnumber : blanks.length = number) :
    ∃ new, codeOf ((⟨number + 1, "use " ++ path ++ "\n"⟩ : LineEdit).apply text).toList
        = blanks ++ line :: new :: rest
      ∧ (InBlock above → isBlankLine new = true)
      ∧ (¬ InBlock above → new = ("use " ++ path).toList) := by
  obtain ⟨front, back, new, hlength, hold, hnew, hnew'⟩ :=
    exists_code_insert hcut (ModuleSyntax.isPlain_use hpath)
  have hsplit : front ++ back = (blanks ++ [line]) ++ rest := by
    rw [← hold, List.append_assoc]
    exact hcode
  obtain ⟨rfl, rfl⟩ := List.append_inj hsplit (by simp [hlength, hnumber])
  refine ⟨new, ?_, hnew'⟩
  rw [toList_apply_of_some hcut, toList_use, codeOf, hnew]
  simp

/-- Where no line follows the module line, it goes on. -/
theorem exists_code_apply_last (hpath : ModuleSyntax.standard.IsModulePath path)
    (hnone : cutAtLine? (number + 1) text.toList = none) {blanks rest : List Line} {line : Line}
    (hcode : codeOf text.toList = blanks ++ line :: rest) (hnumber : blanks.length = number) :
    ∃ more, codeOf ((⟨number + 1, "use " ++ path ++ "\n"⟩ : LineEdit).apply text).toList
      = blanks ++ [line ++ more, []] := by
  have hlines : (splitAtChar '\n' text.toList).length = (codeOf text.toList).length := by
    rw [codeOf, ← maskCode_splitLines, length_maskCode, splitLines, List.length_map]
  obtain ⟨⟨above, below⟩, hcut⟩ : ∃ parts, cutAtLine? number text.toList = some parts := by
    rw [← Option.isSome_iff_exists, Option.isSome_iff_ne_none, ne_eq, cutAtLine?_eq_none_iff,
      hlines, hcode]
    simp [hnumber]
  have hbreak : '\n' ∉ 'u' :: ("se " ++ path).toList := by
    intro hmem
    have hplain := ModuleSyntax.isPlain_use hpath '\n' (by simpa using hmem)
    exact absurd hplain (by decide)
  obtain ⟨front, last, more, hlength, hold, hnew⟩ :=
    exists_code_append hcut (not_mem_of_cutAtLine?_succ_eq_none hcut hnone) (by decide) (by decide)
      hbreak
  have hsplit : front ++ [last] = blanks ++ line :: rest := by
    rw [← hold]
    exact hcode
  obtain ⟨rfl, htail⟩ := List.append_inj hsplit (by rw [hlength, hnumber])
  obtain ⟨rfl, -⟩ := List.cons.inj htail
  have huse : ("use " ++ path).toList = 'u' :: ("se " ++ path).toList := by simp
  exact ⟨more, by rw [toList_apply_of_none hnone, toList_use, huse, codeOf, hnew]⟩

end Accept

end Outline

namespace Workspace

/-- The functions of another module are among the candidates. -/
theorem mem_generalCandidates {workspace : Workspace} {uri other : Uri} {entry : Entry}
    {candidate : Candidate} (hentry : entry ∈ workspace.index.entries)
    (hother : entry.uri? = some other) (hne : other ≠ uri)
    (h : candidate ∈ workspace.foreignCandidates (workspace.table? uri) entry.name other)
    (point : Position) : candidate ∈ workspace.generalCandidates uri point := by
  -- the names offered before have no say in the functions
  have hmodule : ∀ (entries : List Entry) (seen : List String), entry ∈ entries →
      candidate ∈ workspace.moduleCandidates uri seen entries := by
    intro entries
    induction entries with
    | nil => exact fun seen hmem => absurd hmem List.not_mem_nil
    | cons first rest ih =>
      intro seen hmem
      unfold moduleCandidates
      rcases List.mem_cons.mp hmem with rfl | hmem
      · rw [hother]
        simp only [if_neg hne]
        exact List.mem_append_left _ (List.mem_append_right _ h)
      · split
        · exact ih seen hmem
        · split
          · exact ih seen hmem
          · exact List.mem_append_right _ (ih _ hmem)
  exact List.mem_append_right _ (hmodule _ [] hentry)

/-- A function of a module that is not imported comes with the edit that inserts its `use` line. -/
theorem edit_of_mem_foreignCandidates {workspace : Workspace} {table : SymbolTable}
    {module : String} {other : Uri} {candidate : Candidate} (hnew : module ∉ table.usedModules)
    (h : candidate ∈ workspace.foreignCandidates (some table) module other) :
    candidate.edit = some ⟨importLine (some table), "use " ++ module ++ "\n"⟩ := by
  unfold foreignCandidates at h
  split at h
  · cases h
  · obtain ⟨symbol, -, rfl⟩ := List.mem_map.mp h
    have himports : table.imports module = false := by simpa [SymbolTable.imports] using hnew
    simp [Candidate.ofForeign, himports]

section Import

variable {uri : Uri} {text path : String}

/-- **The import that a completion adds.**  The edit makes the text import the module and keeps what
    it declares exactly when there is room below the module line. -/
theorem imports_after_edit_iff (hpath : ModuleSyntax.standard.IsModulePath path)
    (hnew : path ∉ (Outline.table .standard uri text).usedModules) {edit : LineEdit}
    (hedit : edit
      = ⟨importLine (some (Outline.table .standard uri text)), "use " ++ path ++ "\n"⟩) :
    (path ∈ (Outline.table .standard uri (edit.apply text)).usedModules
        ∧ (Outline.table .standard uri (edit.apply text)).declaredModule
          = (Outline.table .standard uri text).declaredModule)
      ↔ Outline.HasRoom .standard text := by
  obtain ⟨hdeclared, hline, hused⟩ := Outline.table_modules .standard uri text
  obtain ⟨hdeclared', -, hused'⟩ := Outline.table_modules .standard uri (edit.apply text)
  have hread := ModuleSyntax.imported?_use ModuleSyntax.separates_standard hpath
  rw [hused] at hnew
  rw [hdeclared, hdeclared', hused']
  cases hmodule : ModuleSyntax.standard.moduleLineIn (Outline.codeOf text.toList) with
  | none =>
    -- the new line comes first, and there is no module line that it could hide
    have hzero : importLine (some (Outline.table .standard uri text)) = 0 := by
      simp [importLine, hline, hmodule]
    rw [hzero] at hedit
    have hroom : Outline.HasRoom .standard text := fun number h => by simp [hmodule] at h
    refine iff_of_true ⟨?_, ?_⟩ hroom
    · rw [hedit, Outline.code_apply_top hpath, List.filterMap_cons, hread]
      exact List.mem_cons_self
    · rw [hedit, Outline.code_apply_top hpath, ModuleSyntax.declaredIn_use hread,
        ModuleSyntax.declaredIn_eq_none_iff.mpr hmodule]
  | some number =>
    have hbelow : importLine (some (Outline.table .standard uri text)) = number + 1 := by
      simp [importLine, hline, hmodule]
    rw [hbelow] at hedit
    obtain ⟨blanks, line, rest, statement, hcode, hblanks, hnumber, hstatement⟩ :=
      ModuleSyntax.exists_of_moduleLineIn hmodule
    have hquiet : ∀ more, ModuleSyntax.standard.imported? (line ++ more) = none :=
      ModuleSyntax.imported?_of_moduleStatement? hstatement
    have hquiet' : ModuleSyntax.standard.imported? line = none := by simpa using hquiet []
    cases hcut : cutAtLine? (number + 1) text.toList with
    | none =>
      -- the module line swallows the new one
      have hfull : ¬ Outline.HasRoom .standard text := by
        intro h
        obtain ⟨above, below, hsome, -⟩ := h number hmodule
        cases hcut.symm.trans hsome
      refine iff_of_false ?_ hfull
      rintro ⟨hmem, -⟩
      obtain ⟨more, hcode'⟩ := Outline.exists_code_apply_last hpath hcut hcode hnumber
      rw [hedit, hcode', ModuleSyntax.mem_filterMap_imported? hblanks (hquiet more)] at hmem
      cases hmem
    | some parts =>
      obtain ⟨above, below⟩ := parts
      have hroom : Outline.HasRoom .standard text ↔ ¬ InBlock above := by
        constructor
        · intro h
          obtain ⟨above', below', hsome, houtside⟩ := h number hmodule
          cases hcut.symm.trans hsome
          exact houtside
        · rintro houtside number' hnumber'
          cases hmodule.symm.trans hnumber'
          exact ⟨above, below, hcut, houtside⟩
      -- all other lines stay, so the module can only be imported on the new one
      obtain ⟨new, hcode', hinside, houtside⟩ :=
        Outline.exists_code_apply_below hpath hcut hcode hnumber
      rw [hcode, ModuleSyntax.mem_filterMap_imported? hblanks hquiet'] at hnew
      rw [hroom, hedit, hcode', hcode, ModuleSyntax.mem_filterMap_imported? hblanks hquiet',
        ModuleSyntax.declaredIn_append hblanks hstatement,
        ModuleSyntax.declaredIn_append hblanks hstatement, List.filterMap_cons]
      by_cases hblock : InBlock above
      · rw [ModuleSyntax.imported?_of_isBlankLine (hinside hblock)]
        exact iff_of_false (fun h => hnew h.1) (fun h => h hblock)
      · rw [houtside hblock, hread]
        exact iff_of_true ⟨List.mem_cons_self, rfl⟩ hblock

end Import

/-- **Accepting a completion imports the module.**  Let a document have the symbol table of its
    text, and let another module, named by a path, not be imported there.  Each function of this
    module is a candidate and comes with an edit.  With this edit the text imports the module, and
    declares what it declared before, exactly when there is room below the module line. -/
theorem accepting_adds_import {workspace : Workspace} {uri other : Uri} {text : String}
    {entry : Entry} {candidate : Candidate}
    (htable : workspace.table? uri = some (Outline.table .standard uri text))
    (hentry : entry ∈ workspace.index.entries) (hother : entry.uri? = some other)
    (hne : other ≠ uri) (hpath : ModuleSyntax.standard.IsModulePath entry.name)
    (hnew : entry.name ∉ (Outline.table .standard uri text).usedModules)
    (hcandidate :
      candidate ∈ workspace.foreignCandidates (workspace.table? uri) entry.name other) :
    (∀ point, candidate ∈ workspace.generalCandidates uri point)
      ∧ ∃ edit, candidate.edit = some edit
        ∧ ((entry.name ∈ (Outline.table .standard uri (edit.apply text)).usedModules
            ∧ (Outline.table .standard uri (edit.apply text)).declaredModule
              = (Outline.table .standard uri text).declaredModule)
          ↔ Outline.HasRoom .standard text) := by
  refine ⟨mem_generalCandidates hentry hother hne hcandidate, ?_⟩
  rw [htable] at hcandidate
  exact ⟨_, edit_of_mem_foreignCandidates hnew hcandidate, imports_after_edit_iff hpath hnew rfl⟩

/-- A workspace with a module `m`, which has a function `f`, and a document with a text. -/
def besideModule (text : String) : Workspace :=
  let scanned : Workspace :=
    { ofSettings {} with index := .build ⟨"/ws"⟩ [⟨"m", none, ⟨"/ws/m.dos"⟩⟩] [⟨"/ws"⟩] }
  (scanned.openDocument ⟨"file:///ws/m.dos"⟩ "def f() {}").openDocument ⟨"file:///ws/a.dos"⟩ text

/-- The candidate for this function, with an edit at a line. -/
def callOfModule (line : Nat) : Candidate where
  label := "f"
  kind := .func
  detail := some "def f()  (m)"
  insertion := .snippet "f()"
  edit := some ⟨line, "use m\n"⟩

/-- A module line behind a blank one, with a comment on it that ends there. -/
def commentedModule : String := "\nmodule a /* b */\nx = 1"

theorem accepting_below_comment :
    Outline.HasRoom .standard commentedModule
      ∧ callOfModule 2 ∈ (besideModule commentedModule).foreignCandidates
          ((besideModule commentedModule).table? ⟨"file:///ws/a.dos"⟩) "m" ⟨"file:///ws/m.dos"⟩
      ∧ (∀ point, callOfModule 2
          ∈ (besideModule commentedModule).generalCandidates ⟨"file:///ws/a.dos"⟩ point)
      ∧ ∃ edit, (callOfModule 2).edit = some edit
        ∧ "m" ∈ (Outline.table .standard ⟨"file:///ws/a.dos"⟩
            (edit.apply commentedModule)).usedModules
        ∧ (Outline.table .standard ⟨"file:///ws/a.dos"⟩
            (edit.apply commentedModule)).declaredModule = some "a" := by
  have hpath : ModuleSyntax.standard.IsModulePath "m" :=
    ⟨[['m']], by decide, by decide, by decide⟩
  have htable : (besideModule commentedModule).table? ⟨"file:///ws/a.dos"⟩
      = some (Outline.table .standard ⟨"file:///ws/a.dos"⟩ commentedModule) := by decide +kernel
  have hentry : (⟨"m", none, ⟨"/ws/m.dos"⟩⟩ : Entry)
      ∈ (besideModule commentedModule).index.entries := by decide +kernel
  have hother : (⟨"m", none, ⟨"/ws/m.dos"⟩⟩ : Entry).uri? = some ⟨"file:///ws/m.dos"⟩ := by
    decide +kernel
  have hcandidate : callOfModule 2 ∈ (besideModule commentedModule).foreignCandidates
      ((besideModule commentedModule).table? ⟨"file:///ws/a.dos"⟩) "m" ⟨"file:///ws/m.dos"⟩ := by
    decide +kernel
  have hroom : Outline.HasRoom .standard commentedModule := by
    intro number hnumber
    have hline : ModuleSyntax.standard.moduleLineIn (Outline.codeOf commentedModule.toList)
        = some 1 := by decide +kernel
    cases hline.symm.trans hnumber
    refine ⟨"\nmodule a /* b */\n".toList, "x = 1".toList, by decide +kernel, ?_⟩
    rw [inBlock_iff]
    decide +kernel
  obtain ⟨hgeneral, edit, hedit, hiff⟩ := accepting_adds_import htable hentry hother (by decide)
    hpath (by decide +kernel) hcandidate
  obtain ⟨hused, hdeclared⟩ := hiff.mpr hroom
  exact ⟨hroom, hcandidate, hgeneral, edit, hedit, hused, hdeclared.trans (by decide +kernel)⟩

/-- A module line that is the last line swallows the new one, and a block comment below a module
    line hides it. -/
theorem accepting_spoils_module_line :
    (callOfModule 1 ∈ (besideModule "module a").generalCandidates ⟨"file:///ws/a.dos"⟩ ⟨0, 0⟩
      ∧ (Outline.table .standard ⟨"file:///ws/a.dos"⟩
          (LineEdit.apply ⟨1, "use m\n"⟩ "module a")).usedModules = []
      ∧ (Outline.table .standard ⟨"file:///ws/a.dos"⟩
          (LineEdit.apply ⟨1, "use m\n"⟩ "module a")).declaredModule = some "ause")
    ∧ (callOfModule 1
        ∈ (besideModule "module a /*\n*/").generalCandidates ⟨"file:///ws/a.dos"⟩ ⟨0, 0⟩
      ∧ (Outline.table .standard ⟨"file:///ws/a.dos"⟩
          (LineEdit.apply ⟨1, "use m\n"⟩ "module a /*\n*/")).usedModules = []) := by
  decide +kernel

end Workspace

end ScriptServer
