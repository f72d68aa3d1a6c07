import ScriptServer.Outline
import ScriptServer.Proofs.MatchOffsets
import ScriptServer.Proofs.NameOrder
import ScriptServer.Proofs.Text.Adjacent

namespace ScriptServer

/-!
# Declared names and their places

Names are found in the code by line and byte, and published as ranges of columns.  No name is found
twice, and its range leads back to it.

* `Declaration.DeclaredOn.exists_name` — whatever a line declares, a name stands there.
* `Declaration.DeclaredOn.behind_module` — on the line that names the module, all else stands
  behind this name.
* `Declaration.pairwise_spot_findings` — all findings are in order, the script's module first.
* `Outline.pairwise_position` — so are the positions of their symbols.
* `Symbol.LocatedIn` — the name of a symbol stands where its range says, and it is code.
* `Outline.names_located_once` — the two together.
-/

open Text

/-! ### Names on their lines -/

namespace ModuleSyntax

/-- The path of a statement begins with a name. -/
theorem exists_name_of_statement? {syn : ModuleSyntax} {keyword line : Line} {statement : Statement}
    (h : syn.statement? keyword line = some statement) :
    ∃ name after, line = statement.before ++ name ++ after ∧ IsName name := by
  obtain ⟨_, _, after, hline, -, -, -, -, names, hnames⟩ := exists_of_statement? h
  obtain ⟨⟨first, rest, hfirst, hpath⟩, -⟩ := hnames.exists_ends
  exact ⟨first, rest ++ after, by rw [hline, hpath]; simp, hfirst⟩

end ModuleSyntax

namespace Declaration

open ModuleSyntax

variable {syn : ModuleSyntax} {line : Nat} {text : Line} {below : List Line} {found : Finding}

/-- The name of a function or a variable, and where it stands. -/
def Finding.label? : Finding → Option (String × Span)
  | .declares .. => none
  | .imports .. => none
  | .function header => some (header.name, header.span)
  | .assigns name span => some (name, span)

theorem Finding.spot_of_label? {name : String} {span : Span}
    (h : found.label? = some (name, span)) : found.spot = ⟨span.line, span.start⟩ := by
  cases found <;> cases h <;> rfl

/-- The name of a function or a variable stands on its line, between the bytes of its span. -/
theorem DeclaredOn.exists_label (h : DeclaredOn syn line text below found) {name : String}
    {span : Span} (hlabel : found.label? = some (name, span)) :
    ∃ before word after, text = before ++ word ++ after ∧ IsName word ∧ name = String.ofList word
      ∧ span = ⟨line, size before, size before + size word⟩ := by
  cases h with
  | imports => cases hlabel
  | @function head _ hhead hread =>
    obtain ⟨_, _, _, -, -, -, rfl⟩ := readHeader_eq_ok hread
    obtain ⟨before, gap, parenGap, htext, hname, -, hstart, -⟩ := exists_of_mem_headStarts hhead
    cases hlabel
    refine ⟨before ++ ['d', 'e', 'f'] ++ gap, head.name, parenGap ++ '(' :: head.rest, ?_, hname,
      rfl, by rw [hstart]⟩
    rw [htext]
    simp
  | @assigns assigned hassigned =>
    obtain ⟨before, after, htext, hname, hsize⟩ := exists_of_mem_assignments hassigned
    cases hlabel
    exact ⟨before, assigned.name, after, htext, hname, rfl, by rw [hsize]⟩

/-- **A name stands wherever something is declared.** -/
theorem DeclaredOn.exists_name (h : DeclaredOn syn line text below found) :
    ∃ before name after, text = before ++ name ++ after ∧ IsName name
      ∧ found.spot = ⟨line, size before⟩ := by
  -- functions and variables have their own names, an import has the first name of its path
  cases hlabel : found.label? with
  | some label =>
    obtain ⟨before, word, after, htext, hword, -, hspan⟩ := h.exists_label hlabel
    refine ⟨before, word, after, htext, hword, ?_⟩
    rw [Finding.spot_of_label? hlabel, hspan]
  | none =>
    cases h with
    | imports hstatement =>
      obtain ⟨name, after, htext, hname⟩ := exists_name_of_statement? hstatement
      exact ⟨_, name, after, htext, hname, rfl⟩
    | function => cases hlabel
    | assigns => cases hlabel

/-- So a blank line declares nothing. -/
theorem DeclaredOn.not_isBlankLine (h : DeclaredOn syn line text below found) :
    isBlankLine text ≠ true := by
  intro hblank
  obtain ⟨before, name, after, rfl, ⟨c, word, rfl, hc, -⟩, -⟩ := h.exists_name
  refine not_mem_of_isBlankLine hblank (isBlank_eq_false_of_isWord (isWord_of_startsName hc)) ?_
  simp

/-! ### The line that names the module -/

/-- The keyword of a module line is no function. -/
theorem behind_module_of_mem_headStarts {statement : Statement}
    (hmodule : syn.moduleStatement? text = some statement) {head : HeadStart}
    (h : head ∈ headStarts none 0 text) : size statement.before < head.nameStart := by
  obtain ⟨gap, gap', after, htext, hbefore, hgap, hgap', -⟩ := exists_of_statement? hmodule
  have hfront : 'd' ∉ gap ++ ['m', 'o'] := by
    rw [List.mem_append, not_or]
    exact ⟨not_mem_of_isBlankLine hgap (by decide), by decide⟩
  have hback : 'd' ∉ ['u', 'l', 'e'] ++ gap' := by
    rw [List.mem_append, not_or]
    exact ⟨by decide, not_mem_of_isBlankLine hgap' (by decide)⟩
  -- only one letter of the keyword could begin a header, and its neighbour is wrong
  have hcut : text = (gap ++ ['m', 'o'])
      ++ 'd' :: (['u', 'l', 'e'] ++ gap' ++ (statement.path ++ after)) := by
    rw [htext, hbefore]
    simp
  obtain ⟨previous, heq⟩ := exists_headStarts_append hfront none 0
    ('d' :: (['u', 'l', 'e'] ++ gap' ++ (statement.path ++ after)))
  have hnone : ∀ offset, headAt? offset
      ('d' :: (['u', 'l', 'e'] ++ gap' ++ (statement.path ++ after))) = none := fun _ => rfl
  rw [hcut, heq, headStarts, hnone] at h
  obtain ⟨previous', heq'⟩ := exists_headStarts_append hback (some 'd')
    (0 + size (gap ++ ['m', 'o']) + 'd'.utf8Size) (statement.path ++ after)
  have hmem : head ∈ headStarts previous' (0 + size (gap ++ ['m', 'o']) + 'd'.utf8Size
      + size (['u', 'l', 'e'] ++ gap')) (statement.path ++ after) := by
    rw [← heq']
    split at h <;> exact h
  obtain ⟨hle, hlt⟩ := keyword_of_mem_headStarts hmem
  have hsizes : size ['m', 'o'] = 2 ∧ 'd'.utf8Size = 1 ∧ size ['u', 'l', 'e'] = 3
      ∧ size ['m', 'o', 'd', 'u', 'l', 'e'] = 6 := by decide
  rw [hbefore]
  simp only [size_append] at hle ⊢
  omega

/-- A module line does not begin with an assignment: behind its keyword a name follows. -/
theorem assignmentAt?_of_moduleStatement? {statement : Statement}
    (hmodule : syn.moduleStatement? text = some statement) : assignmentAt? text = none := by
  obtain ⟨gap, gap', after, htext, hbefore, hgap, hgap', hne, names, hnames⟩ :=
    exists_of_statement? hmodule
  obtain ⟨⟨first, rest, hfirst, hpath⟩, -⟩ := hnames.exists_ends
  have hcut : text = gap ++ (['m', 'o', 'd', 'u', 'l', 'e']
      ++ (gap' ++ (first ++ (rest ++ after)))) := by
    rw [htext, hbefore, hpath]
    simp
  have hkeyword : IsName ['m', 'o', 'd', 'u', 'l', 'e'] :=
    ⟨'m', ['o', 'd', 'u', 'l', 'e'], rfl, by decide, List.all_eq_true.mp (by decide)⟩
  -- blanks end the keyword, so it is what would be assigned
  have hstop : ∀ c ∈ (gap' ++ (first ++ (rest ++ after))).head?, isWord c = false := by
    obtain ⟨c, gap', rfl⟩ := List.exists_cons_of_ne_nil hne
    rintro d hd
    obtain rfl := Option.some.inj hd
    by_contra hword
    rw [Bool.not_eq_false] at hword
    exact not_mem_of_isBlankLine hgap' (isBlank_eq_false_of_isWord hword) List.mem_cons_self
  have hequals : after? ['='] (first ++ (rest ++ after)) = none := by
    obtain ⟨c, word, rfl, hc, -⟩ := hfirst
    have hc' : '=' ≠ c := by
      rintro rfl
      exact absurd hc (by decide)
    simp [after?, hc']
  rw [assignmentAt?, hcut, trimStart_name hgap hkeyword, readName?_append_stop hkeyword hstop]
  simp only [Option.bind_eq_bind, Option.bind_some, trimStart_name hgap' hfirst, hequals,
    Option.bind_none]

/-- So what is assigned on a module line stands behind the beginning of the path. -/
theorem behind_module_of_mem_assignments {statement : Statement}
    (hmodule : syn.moduleStatement? text = some statement) {assigned : Assigned}
    (h : assigned ∈ assignments text) : size statement.before < assigned.offset := by
  obtain ⟨seen, hseen, heq⟩ := exists_seen text
  rw [heq] at h
  obtain ⟨b, hb, rfl⟩ := List.mem_map.mp h
  obtain ⟨hline, hassigns, -⟩ := (hseen.mem_iff b).mp hb
  obtain ⟨gap, gap', after, htext, hbefore, hgap, hgap', -⟩ := exists_of_statement? hmodule
  have hseparator : ∀ c, isBlank c = false → c ∉ ['m', 'o', 'd', 'u', 'l', 'e'] →
      c ∉ statement.before := by
    intro c hc hkeyword
    rw [hbefore, List.mem_append, List.mem_append, not_or, not_or]
    exact ⟨⟨not_mem_of_isBlankLine hgap hc, hkeyword⟩, not_mem_of_isBlankLine hgap' hc⟩
  rcases hassigns.begins with hnil | hlast
  · obtain ⟨assignment, hsome, -⟩ := hassigns.exists_assignmentAt? (by rw [hline, hnil]; rfl)
    rw [assignmentAt?_of_moduleStatement? hmodule] at hsome
    cases hsome
  · -- a separator stands before the statement, and none stands before the path
    obtain ⟨c, hc, hnot⟩ : ∃ c, c ∈ b.front ∧ c ∉ statement.before := by
      rcases hlast with hlast | hlast
      · exact ⟨';', List.mem_of_getLast? hlast, hseparator _ (by decide) (by decide)⟩
      · exact ⟨'{', List.mem_of_getLast? hlast, hseparator _ (by decide) (by decide)⟩
    show size statement.before < size (b.front ++ b.gap)
    by_contra hle
    rw [Nat.not_lt, size_append] at hle
    obtain ⟨more, hmore⟩ := exists_append_of_size_le (hline.symm.trans b.line_eq)
      (htext.trans (List.append_assoc _ _ _)) (by omega)
    exact hnot (hmore ▸ List.mem_append_left more hc)

/-- **On the line that names the module**, all else stands behind this name. -/
theorem DeclaredOn.behind_module {statement : Statement}
    (hmodule : syn.moduleStatement? text = some statement)
    (h : DeclaredOn syn line text below found) : size statement.before < found.spot.offset := by
  cases h with
  | imports huse =>
    have himported := imported?_of_moduleStatement? hmodule []
    rw [List.append_nil, imported?, huse] at himported
    cases himported
  | function hhead hread =>
    obtain ⟨_, _, _, -, -, -, rfl⟩ := readHeader_eq_ok hread
    exact behind_module_of_mem_headStarts hmodule hhead
  | assigns hassigned => exact behind_module_of_mem_assignments hmodule hassigned

/-! ### All findings in order -/

/-- The name of the module stands on the first line that is not blank. -/
theorem exists_line_of_moduleFinding? {code : List Line}
    (h : moduleFinding? syn code = some found) :
    ∃ blanks text rest statement, code = blanks ++ text :: rest
      ∧ (∀ blank ∈ blanks, isBlankLine blank = true) ∧ syn.moduleStatement? text = some statement
      ∧ found = .declares (syn.nameOf statement) (statementSpan blanks.length statement) := by
  simp only [moduleFinding?, Option.bind_eq_bind, Option.bind_eq_some_iff, Option.pure_def,
    Option.some.injEq] at h
  obtain ⟨first, hfirst, statement, hstatement, rfl⟩ := h
  obtain ⟨blanks, rest, hcode, hblanks, hnumber⟩ := exists_of_firstCodeLine? hfirst
  rw [Nat.zero_add] at hnumber
  exact ⟨blanks, first.2, rest, statement, hcode, hblanks, hstatement, by rw [hnumber]⟩

/-- **The module of the script stands before all that is declared in it.** -/
theorem spot_lt_of_moduleFinding? {code : List Line} (h : moduleFinding? syn code = some found)
    {later : Finding} (hlater : later ∈ bodyFindings syn 0 0 code) : found.spot < later.spot := by
  obtain ⟨blanks, text, rest, statement, hcode, hblanks, hmodule, rfl⟩ :=
    exists_line_of_moduleFinding? h
  obtain ⟨above, text', below, hcode', hdeclared⟩ := exists_line_of_mem_bodyFindings hlater
  rw [Nat.zero_add] at hdeclared
  have hline := hdeclared.line_eq
  have hhere : code[above.length]? = some text' := by
    rw [hcode']
    simp
  rcases Nat.lt_trichotomy above.length blanks.length with hlt | heq | hgt
  · -- the lines above are blank
    rw [hcode, List.getElem?_append_left hlt] at hhere
    exact absurd (hblanks text' (List.mem_of_getElem? hhere)) hdeclared.not_isBlankLine
  · -- the line of the module itself
    rw [hcode, heq] at hhere
    obtain rfl : text = text' := by simpa using hhere
    exact .inr ⟨by rw [hline, heq]; rfl, hdeclared.behind_module hmodule⟩
  · exact .inl (by rw [hline]; exact hgt)

/-- **Everything is found in order:** each finding stands behind the one before it. -/
theorem pairwise_spot_findings (syn : ModuleSyntax) (code : List Line) :
    (findings syn code).Pairwise fun a b => a.spot < b.spot := by
  refine List.pairwise_append.mpr ⟨?_, pairwise_bodyFindings syn 0 0 code, ?_⟩
  · cases moduleFinding? syn code with
    | none => exact .nil
    | some => exact List.pairwise_singleton _ _
  · intro found hfound later hlater
    exact spot_lt_of_moduleFinding? (Option.mem_toList.mp hfound) hlater

/-- **A name stands at every finding**, be it the module of the script or declared in it. -/
theorem exists_name_of_mem_findings {code : List Line} (h : found ∈ findings syn code) :
    ∃ above before name after below, code = above ++ (before ++ name ++ after) :: below
      ∧ IsName name ∧ found.spot = ⟨above.length, size before⟩ := by
  rcases List.mem_append.mp h with hmodule | hbody
  · obtain ⟨blanks, _, rest, statement, hcode, -, hstatement, rfl⟩ :=
      exists_line_of_moduleFinding? (Option.mem_toList.mp hmodule)
    obtain ⟨name, after, rfl, hname⟩ := exists_name_of_statement? hstatement
    exact ⟨blanks, statement.before, name, after, rest, hcode, hname, rfl⟩
  · obtain ⟨above, _, below, hcode, hdeclared⟩ := exists_line_of_mem_bodyFindings hbody
    rw [Nat.zero_add] at hdeclared
    obtain ⟨before, name, after, rfl, hname, hspot⟩ := hdeclared.exists_name
    exact ⟨above, before, name, after, below, hcode, hname, hspot⟩

/-- So the name of every finding begins at a visible spot. -/
theorem visible_name_of_mem_findings {source : Source} (h : found ∈ findings syn source.code) :
    source.Visible found.spot := by
  obtain ⟨above, before, name, after, below, hcode, ⟨c, word, rfl, hc, -⟩, hspot⟩ :=
    exists_name_of_mem_findings h
  refine ⟨c, Source.mem_stream.mpr ⟨before, word ++ after, ?_, by rw [hspot]⟩,
    ne_space_of_startsName hc⟩
  rw [hcode, hspot]
  simp

end Declaration

/-! ### Symbols -/

/-- The name of a symbol stands on one line, between the columns of its range, in the line as
    written as well as in the code.  Every character of it is code: none is part of a comment or a
    string. -/
def Symbol.LocatedIn (lines : List Line) (s : Symbol) : Prop :=
  s.range.first.line = s.range.last.line
    ∧ ∃ raw code chars start stop, lines[s.range.first.line]? = some raw
      ∧ (maskCode lines)[s.range.first.line]? = some code
      ∧ (markLines false lines)[s.range.first.line]? = some chars
      ∧ start = offsetAt raw s.range.first.column ∧ stop = offsetAt raw s.range.last.column
      ∧ slice? raw start stop = some s.name.toList
      ∧ slice? code start stop = some s.name.toList
      ∧ ∃ left right, chars = left ++ s.name.toList.map (·, Mark.code) ++ right
        ∧ size (left.map (·.1)) = start

namespace Outline

open Declaration

variable {syn : ModuleSyntax} {uri : Uri} {text : String}

/-- Each finding has one symbol that is no parameter, and it stands where the finding does. -/
theorem map_position_symbols (page : Page) (found : Finding) :
    ((symbols page found).filter fun s => s.kind ≠ .param).map Symbol.position
      = [page.source.position found.spot] := by
  cases found with
  | function header =>
    have hparameters : (header.parameters.map (parameterSymbol page header)).filter
        (fun s => s.kind ≠ .param) = [] := by
      rw [List.filter_eq_nil_iff]
      intro s hs
      obtain ⟨parameter, -, rfl⟩ := List.mem_map.mp hs
      simp [parameterSymbol, Symbol.kind]
    rw [symbols, List.filter_cons_of_pos (by rfl), hparameters]
    rfl
  | _ => rfl

theorem map_position_flatMap (page : Page) (found : List Finding) :
    ((found.flatMap (symbols page)).filter fun s => s.kind ≠ .param).map Symbol.position
      = found.map fun f => page.source.position f.spot := by
  induction found with
  | nil => rfl
  | cons found rest ih =>
    rw [List.flatMap_cons, List.filter_append, List.map_append, map_position_symbols, ih]
    rfl

/-- **The symbols of a text are in order**, parameters apart. -/
theorem pairwise_position (syn : ModuleSyntax) (uri : Uri) (text : String) :
    (((table syn uri text).symbols.filter fun s => s.kind ≠ .param).map Symbol.position).Pairwise
      (· < ·) := by
  have hmap := map_position_flatMap (.ofText uri text) (findings syn (Source.ofText text).code)
  rw [show (table syn uri text).symbols
    = (findings syn (Source.ofText text).code).flatMap (symbols (.ofText uri text)) from rfl, hmap,
    List.pairwise_map]
  refine (pairwise_spot_findings syn (Source.ofText text).code).imp_of_mem ?_
  intro a b ha hb hlt
  exact (Source.position_lt_iff (visible_name_of_mem_findings ha)
    (visible_name_of_mem_findings hb)).mpr hlt

/-- A function or a variable has the name and the range of what was found. -/
theorem exists_label_of_mem_symbols {page : Page} {found : Finding} {s : Symbol}
    (h : s ∈ symbols page found) (hkind : s.kind = .func ∨ s.kind = .var) :
    ∃ span, found.label? = some (s.name, span) ∧ s.range = page.source.range span := by
  cases found with
  | declares name span =>
    obtain rfl := List.mem_singleton.mp h
    rcases hkind with hkind | hkind <;> cases hkind
  | imports name span =>
    obtain rfl := List.mem_singleton.mp h
    rcases hkind with hkind | hkind <;> cases hkind
  | function header =>
    rcases List.mem_cons.mp h with rfl | hparameter
    · exact ⟨header.span, rfl, rfl⟩
    · obtain ⟨parameter, -, rfl⟩ := List.mem_map.mp hparameter
      rcases hkind with hkind | hkind <;> cases hkind
  | assigns name span =>
    obtain rfl := List.mem_singleton.mp h
    exact ⟨span, rfl, rfl⟩

/-- **A name of the code is found again by the columns of its range.** -/
theorem locatedIn_of_word {lines above below : List Line} {before word after : Line} {s : Symbol}
    (hcode : maskCode lines = above ++ (before ++ word ++ after) :: below) (hword : IsName word)
    (hname : s.name = String.ofList word)
    (hrange : s.range = Source.range ⟨lines, maskCode lines⟩
      ⟨above.length, size before, size before + size word⟩) : s.LocatedIn lines := by
  have hmasked : (maskCode lines)[above.length]? = some (before ++ word ++ after) := by
    rw [hcode]
    simp
  obtain ⟨chars, hchars, hrender⟩ : ∃ chars, (markLines false lines)[above.length]? = some chars
      ∧ render (· != .code) chars = before ++ word ++ after := by
    rwa [maskCode, List.getElem?_map, Option.map_eq_some_iff] at hmasked
  obtain ⟨left, right, rfl, hleft, hright⟩ :=
    exists_marks_of_render hword.ne_nil hword.ne_space hrender
  have hsize : size (left.map (·.1)) = size before := by
    rw [← hleft, (blanks_render _ left).size_eq]
  have hraw : lines[above.length]? = some (left.map (·.1) ++ word ++ right.map (·.1)) := by
    rw [← map_fst_markLines false lines, List.getElem?_map, hchars]
    simp [Function.comp_def]
  -- the columns count the units before the name and with it, so they lead back to its bytes
  have hfirst : s.range.first = ⟨above.length, width (left.map (·.1))⟩ := by
    rw [hrange, ← hsize]
    show Position.mk _ (columnAt (lines.getD above.length []) _) = _
    rw [List.getD_eq_getElem?_getD, hraw, Option.getD_some, List.append_assoc, columnAt_size]
  have hlast : s.range.last = ⟨above.length, width (left.map (·.1) ++ word)⟩ := by
    rw [hrange, ← hsize, ← size_append]
    show Position.mk _ (columnAt (lines.getD above.length []) _) = _
    rw [List.getD_eq_getElem?_getD, hraw, Option.getD_some, columnAt_size]
  rw [Symbol.LocatedIn, hfirst, hlast, hname, String.toList_ofList]
  refine ⟨rfl, _, _, _, size before, size (before ++ word), hraw, hmasked, hchars, ?_, ?_, ?_, ?_,
    left, right, rfl, hsize⟩
  · rw [List.append_assoc, offsetAt_width, hsize]
  · rw [offsetAt_width, size_append, size_append, hsize]
  · refine slice?_eq_some_iff.mpr ⟨left.map (·.1), right.map (·.1), rfl, hsize, ?_⟩
    rw [size_append, size_append, hsize]
  · exact slice?_eq_some_iff.mpr ⟨before, after, rfl, rfl, rfl⟩

/-- **Functions and variables stand where their ranges say.** -/
theorem locatedIn_of_mem_symbols {s : Symbol} (h : s ∈ (table syn uri text).symbols)
    (hkind : s.kind = .func ∨ s.kind = .var) : s.LocatedIn (splitLines text) := by
  obtain ⟨found, hfound, hs⟩ := List.mem_flatMap.mp h
  obtain ⟨span, hlabel, hrange⟩ := exists_label_of_mem_symbols hs hkind
  rcases exists_line_of_mem_findings hfound with
    ⟨_, _, rfl⟩ | ⟨above, line, below, hcode, hdeclared⟩
  · cases hlabel
  · obtain ⟨before, word, after, rfl, hword, hname, rfl⟩ := hdeclared.exists_label hlabel
    exact locatedIn_of_word hcode hword hname hrange

/-- **Declared names are located faithfully and once.**  In the order of the table, every module,
    function and variable stands behind the one before it, so that nothing is declared twice; each
    of them stands where its range begins; and the range of a function or a variable leads back to
    its name, in the line as written and in the code. -/
theorem names_located_once (syn : ModuleSyntax) (uri : Uri) (text : String) :
    (((table syn uri text).symbols.filter fun s => s.kind ≠ .param).map Symbol.position).Pairwise
        (· < ·)
      ∧ (∀ s ∈ (table syn uri text).symbols, s.kind ≠ .param → s.position = s.range.first)
      ∧ ∀ s ∈ (table syn uri text).symbols, s.kind = .func ∨ s.kind = .var →
          s.LocatedIn (splitLines text) :=
  ⟨pairwise_position syn uri text, fun _ _ _ => rfl, fun _ hs hkind =>
    locatedIn_of_mem_symbols hs hkind⟩

end Outline

end ScriptServer
