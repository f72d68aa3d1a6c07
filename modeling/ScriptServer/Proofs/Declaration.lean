import ScriptServer.Declaration.Finding
import ScriptServer.Proofs.Source
import ScriptServer.Proofs.Text.Trim

namespace ScriptServer

/-!
# Where declarations stand

What is found in code is found at visible characters: a keyword or the first letter of a name.

* `Text.readName?_eq_some`, `Text.skipBlanks?_eq_some` — what the small readers cut off.
* `Declaration.headAt?_eq_some`, `Declaration.assignmentAt?_eq_some` — the shape of a header and of
  an assignment.
* `Declaration.readHeader_eq_ok` — the steps of reading a header.
* `Declaration.exists_line_of_mem_findings` — every finding comes from one line of the code and the
  lines below it.
* `Declaration.mem_stream_of_mem_findings` — every function and every variable begins at a visible
  character of the code.
-/

namespace Text

/-- A name that is read stands in front of the rest and begins with a letter or an underscore. -/
theorem readName?_eq_some {text name rest : Line} (h : readName? text = some (name, rest)) :
    text = name ++ rest ∧ ∃ c word, name = c :: word ∧ startsName c := by
  cases text with
  | nil => cases h
  | cons c text =>
    simp only [readName?] at h
    split at h
    next hc =>
      cases h
      refine ⟨?_, c, _, rfl, hc⟩
      rw [List.cons_append, List.takeWhile_append_dropWhile]
    next => cases h

/-- What is skipped are the blanks in front of the rest. -/
theorem skipBlanks?_eq_some {text rest : Line} (h : skipBlanks? text = some rest) :
    text = text.takeWhile isBlank ++ rest := by
  cases text with
  | nil => cases h
  | cons c text =>
    simp only [skipBlanks?] at h
    split at h
    next hc =>
      cases h
      rw [List.takeWhile_cons, if_pos hc, trimStart, List.cons_append,
        List.takeWhile_append_dropWhile]
    next => cases h

/-- A text from which blanks can be skipped begins with one. -/
theorem takeWhile_ne_nil_of_skipBlanks? {text rest : Line} (h : skipBlanks? text = some rest) :
    text.takeWhile isBlank ≠ [] := by
  cases text with
  | nil => cases h
  | cons c text =>
    simp only [skipBlanks?] at h
    split at h
    next hc => simp [hc]
    next => cases h

/-- A declared name does not begin with a space. -/
theorem ne_space_of_startsName {c : Char} (h : startsName c) : c ≠ ' ' := by
  rintro rfl
  exact absurd h (by decide)

end Text

namespace Declaration

open Text

/-! ### Headers -/

/-- The beginning of a header: the keyword, blanks, the name, perhaps blanks, the parenthesis. -/
theorem headAt?_eq_some {offset : Nat} {text : Line} {head : HeadStart}
    (h : headAt? offset text = some head) :
    ∃ gap parenGap, text = ['d', 'e', 'f'] ++ gap ++ head.name ++ parenGap ++ '(' :: head.rest
      ∧ head.keyword = offset
      ∧ head.nameStart = offset + 3 + size gap
      ∧ head.paren = head.nameStart + size head.name + size parenGap
      ∧ gap ≠ [] ∧ isBlankLine gap = true ∧ isBlankLine parenGap = true := by
  simp only [headAt?, Option.bind_eq_bind, Option.bind_eq_some_iff, Option.pure_def,
    Option.some.injEq, Prod.exists] at h
  obtain ⟨rest, hkeyword, text', hgap, name, rest', hname, rest'', hparen, rfl⟩ := h
  refine ⟨rest.takeWhile isBlank, rest'.takeWhile isBlank, ?_, rfl, rfl, rfl,
    takeWhile_ne_nil_of_skipBlanks? hgap, isBlankLine_takeWhile rest, isBlankLine_takeWhile rest'⟩
  have hparen' : trimStart rest' = '(' :: rest'' := after?_eq_some_iff.mp hparen
  calc text = ['d', 'e', 'f'] ++ rest := after?_eq_some_iff.mp hkeyword
    _ = ['d', 'e', 'f'] ++ (rest.takeWhile isBlank ++ text') := by
      rw [← skipBlanks?_eq_some hgap]
    _ = ['d', 'e', 'f'] ++ (rest.takeWhile isBlank ++ (name ++ rest')) := by
      rw [(readName?_eq_some hname).1]
    _ = ['d', 'e', 'f'] ++ (rest.takeWhile isBlank
          ++ (name ++ (rest'.takeWhile isBlank ++ '(' :: rest''))) := by
      rw [← hparen', takeWhile_append_trimStart]
    _ = _ := by simp

/-- A header that begins in a line is read from somewhere in it. -/
theorem exists_headAt?_of_mem_headStarts {offset : Nat} {previous : Option Char} {line : Line}
    {head : HeadStart} (h : head ∈ headStarts previous offset line) :
    ∃ before text, line = before ++ text ∧ headAt? (offset + size before) text = some head := by
  induction line generalizing previous offset with
  | nil => cases h
  | cons c rest ih =>
    have hlater : head ∈ headStarts (some c) (offset + c.utf8Size) rest →
        ∃ before text, c :: rest = before ++ text
          ∧ headAt? (offset + size before) text = some head := by
      intro hmem
      obtain ⟨before, text, rfl, hhead⟩ := ih hmem
      refine ⟨c :: before, text, rfl, ?_⟩
      rw [size, ← Nat.add_assoc]
      exact hhead
    unfold headStarts at h
    dsimp only at h
    split at h
    · exact hlater h
    · split at h
      next found hfound =>
        rcases List.mem_cons.mp h with rfl | hmem
        · exact ⟨[], c :: rest, rfl, by simpa [size] using hfound⟩
        · exact hlater hmem
      next => exact hlater h

/-- A header begins with its keyword. -/
theorem mem_lineStream_of_mem_headStarts {number offset : Nat} {previous : Option Char}
    {line : Line} {head : HeadStart} (h : head ∈ headStarts previous offset line) :
    ('d', ⟨number, head.keyword⟩) ∈ lineStream number offset line := by
  obtain ⟨before, text, rfl, hhead⟩ := exists_headAt?_of_mem_headStarts h
  obtain ⟨gap, parenGap, rfl, hkeyword, -⟩ := headAt?_eq_some hhead
  refine mem_lineStream.mpr ⟨before, _, rfl, ?_⟩
  rw [hkeyword]

/-- **The steps of reading a header.**  Its parameters are read first, then the brace that opens its
    body is looked for, then the one that closes it. -/
theorem readHeader_eq_ok {line : Nat} {head : HeadStart} {below : List Line} {header : Header}
    (h : readHeader line head below = .ok header) :
    ∃ list body closes, readParameters 0 [] line (head.paren + 1) head.rest below = .ok list
      ∧ findBody list.cursor.line list.cursor.offset list.cursor.here list.cursor.below = .ok body
      ∧ body.partner? = some closes
      ∧ header =
        { keyword := ⟨line, head.keyword⟩
          name := String.ofList head.name
          span := ⟨line, head.nameStart, head.nameStart + size head.name⟩
          parameters := locateParameters list.segments (splitParameters list.text)
          opens := ⟨body.line, body.offset⟩
          closes
          lastLine := list.cursor.line } := by
  unfold readHeader at h
  cases hlist : readParameters 0 [] line (head.paren + 1) head.rest below with
  | error => rw [hlist] at h; cases h
  | ok list =>
    rw [hlist] at h
    change (findBody _ _ _ _ >>= _) = Except.ok header at h
    cases hbody : findBody list.cursor.line list.cursor.offset list.cursor.here
        list.cursor.below with
    | error => rw [hbody] at h; cases h
    | ok body =>
      simp only [hbody, bind, Except.bind] at h
      split at h
      · cases h
      next closes hcloses =>
        cases h
        exact ⟨list, body, closes, rfl, hbody, hcloses, rfl⟩

/-! ### Assignments -/

/-- A name that begins at a byte offset of a line and is followed by an equals sign. -/
def AssignedIn (line name : Line) (offset : Nat) : Prop :=
  ∃ before gap right, line = before ++ name ++ gap ++ '=' :: right ∧ size before = offset
    ∧ isBlankLine gap = true ∧ ∃ c word, name = c :: word ∧ startsName c

/-- Characters in front of a line move what is assigned in it. -/
theorem AssignedIn.append {line name : Line} {offset : Nat} (h : AssignedIn line name offset)
    (front : Line) : AssignedIn (front ++ line) name (size front + offset) := by
  obtain ⟨before, gap, right, rfl, rfl, hgap, hname⟩ := h
  exact ⟨front ++ before, gap, right, by simp, size_append _ _, hgap, hname⟩

/-- An assignment: perhaps blanks, then a name, perhaps blanks, then the equals sign. -/
theorem assignmentAt?_eq_some {text : Line} {found : Assignment}
    (h : assignmentAt? text = some found) : AssignedIn text found.name (size found.gap) := by
  simp only [assignmentAt?, Option.bind_eq_bind, Option.bind_eq_some_iff, Option.pure_def,
    Prod.exists] at h
  obtain ⟨name, rest, hname, right, hright, hfound⟩ := h
  have hshape : found.gap = text.takeWhile isBlank ∧ found.name = name := by
    split at hfound
    · cases hfound
      exact ⟨rfl, rfl⟩
    · split at hfound
      · cases hfound
      · cases hfound
        exact ⟨rfl, rfl⟩
  obtain ⟨htext, hword⟩ := readName?_eq_some hname
  have hright' : trimStart rest = '=' :: right := after?_eq_some_iff.mp hright
  refine ⟨found.gap, rest.takeWhile isBlank, right, ?_, rfl, isBlankLine_takeWhile rest, ?_⟩
  · calc text = text.takeWhile isBlank ++ (name ++ rest) := by
          rw [← htext, takeWhile_append_trimStart]
      _ = text.takeWhile isBlank ++ (name ++ (rest.takeWhile isBlank ++ '=' :: right)) := by
          rw [← hright', takeWhile_append_trimStart]
      _ = _ := by rw [hshape.1, hshape.2]; simp
  · rw [hshape.2]
    exact hword

theorem assignedIn_of_mem_assignmentsAfter {skip offset : Nat} {line : Line}
    {assigned : Assigned} (h : assigned ∈ assignmentsAfter skip offset line) :
    ∃ place, AssignedIn line assigned.name place ∧ assigned.offset = offset + place := by
  induction line generalizing skip offset with
  | nil =>
    cases skip <;> cases h
  | cons c rest ih =>
    have hrest : ∀ place, AssignedIn rest assigned.name place →
        assigned.offset = offset + c.utf8Size + place →
        ∃ place, AssignedIn (c :: rest) assigned.name place
          ∧ assigned.offset = offset + place := by
      intro place hin hoffset
      refine ⟨size [c] + place, hin.append [c], ?_⟩
      rw [hoffset, size, size, Nat.add_zero, Nat.add_assoc]
    have hlater : ∀ skip, assigned ∈ assignmentsAfter skip (offset + c.utf8Size) rest →
        ∃ place, AssignedIn (c :: rest) assigned.name place
          ∧ assigned.offset = offset + place := by
      intro skip hmem
      obtain ⟨place, hin, hoffset⟩ := ih hmem
      exact hrest place hin hoffset
    cases skip with
    | succ skip => exact hlater skip h
    | zero =>
      unfold assignmentsAfter at h
      dsimp only at h
      split at h
      · split at h
        next found hfound =>
          rcases List.mem_cons.mp h with rfl | hmem
          · exact hrest _ (assignmentAt?_eq_some hfound) rfl
          · exact hlater _ hmem
        next => exact hlater 0 h
      · exact hlater 0 h

/-- What a line assigns stands there, in front of an equals sign. -/
theorem assignedIn_of_mem_assignments {line : Line} {assigned : Assigned}
    (h : assigned ∈ assignments line) : AssignedIn line assigned.name assigned.offset := by
  have hafter : ∀ skip, assigned ∈ assignmentsAfter skip 0 line →
      AssignedIn line assigned.name assigned.offset := by
    intro skip hmem
    obtain ⟨place, hin, hoffset⟩ := assignedIn_of_mem_assignmentsAfter hmem
    rw [hoffset, Nat.zero_add]
    exact hin
  unfold assignments at h
  split at h
  next found hfound =>
    rcases List.mem_cons.mp h with rfl | hmem
    · exact assignmentAt?_eq_some hfound
    · exact hafter _ hmem
  next => exact hafter 0 h

/-! ### Findings -/

/-- Where the scope of a finding is looked for: at the keyword of a function, at the name of a
    variable.  Modules are known everywhere. -/
def Finding.start? : Finding → Option Spot
  | .declares .. => none
  | .imports .. => none
  | .function header => some header.keyword
  | .assigns _ span => some ⟨span.line, span.start⟩

/-- What a line of code declares, given the lines below it. -/
inductive DeclaredOn (syn : ModuleSyntax) (line : Nat) (text : Line) (below : List Line) :
    Finding → Prop where
  | imports {statement : ModuleSyntax.Statement} (h : syn.useStatement? text = some statement) :
      DeclaredOn syn line text below (.imports (syn.nameOf statement) (statementSpan line statement))
  | function {head : HeadStart} {header : Header} (hhead : head ∈ headStarts none 0 text)
      (hread : readHeader line head below = .ok header) :
      DeclaredOn syn line text below (.function header)
  | assigns {assigned : Assigned} (h : assigned ∈ assignments text) :
      DeclaredOn syn line text below (.assigns (String.ofList assigned.name)
        ⟨line, assigned.offset, assigned.offset + size assigned.name⟩)

/-- Every finding in lines of code comes from one of them and the lines below it. -/
theorem exists_line_of_mem_bodyFindings {syn : ModuleSyntax} {free line : Nat}
    {lines : List Line} {found : Finding} (h : found ∈ bodyFindings syn free line lines) :
    ∃ above text below, lines = above ++ text :: below
      ∧ DeclaredOn syn (line + above.length) text below found := by
  induction lines generalizing free line with
  | nil => cases h
  | cons text below ih =>
    have hhere : DeclaredOn syn line text below found →
        ∃ above text' below', text :: below = above ++ text' :: below'
          ∧ DeclaredOn syn (line + above.length) text' below' found :=
      fun hfound => ⟨[], text, below, rfl, hfound⟩
    have hbelow : ∀ free, found ∈ bodyFindings syn free (line + 1) below →
        ∃ above text' below', text :: below = above ++ text' :: below'
          ∧ DeclaredOn syn (line + above.length) text' below' found := by
      intro free hmem
      obtain ⟨above, text', below', rfl, hfound⟩ := ih hmem
      refine ⟨text :: above, text', below', rfl, ?_⟩
      rw [List.length_cons, Nat.add_comm above.length 1, ← Nat.add_assoc]
      exact hfound
    unfold bodyFindings at h
    split at h
    next statement hstatement =>
      rcases List.mem_cons.mp h with rfl | hmem
      · exact hhere (.imports hstatement)
      · exact hbelow _ hmem
    next =>
      dsimp only at h
      rw [List.mem_append, List.mem_append] at h
      rcases h with (hheader | hvariable) | hmem
      · -- a function: its header begins on this line
        obtain ⟨result, hresult, hfinding⟩ := List.mem_filterMap.mp hheader
        obtain ⟨head, hhead, rfl⟩ := List.mem_map.mp hresult
        cases hread : readHeader line head below with
        | error => rw [hread] at hfinding; cases hfinding
        | ok header =>
          rw [hread] at hfinding
          cases hfinding
          exact hhere (.function hhead hread)
      · -- a variable: it is assigned on this line
        split at hvariable
        · obtain ⟨assigned, hassigned, rfl⟩ := List.mem_map.mp hvariable
          exact hhere (.assigns hassigned)
        · cases hvariable
      · exact hbelow _ hmem

/-- **Where findings come from.**  A finding names the module of the script, or it comes from one
    line of the code and the lines below it. -/
theorem exists_line_of_mem_findings {syn : ModuleSyntax} {code : List Line} {found : Finding}
    (h : found ∈ findings syn code) :
    (∃ name span, found = .declares name span)
      ∨ ∃ above text below, code = above ++ text :: below
          ∧ DeclaredOn syn above.length text below found := by
  unfold findings at h
  rw [List.mem_append] at h
  rcases h with hmodule | hbody
  · rw [Option.mem_toList] at hmodule
    simp only [moduleFinding?, Option.bind_eq_bind, Option.bind_eq_some_iff, Option.pure_def,
      Option.some.injEq] at hmodule
    obtain ⟨_, -, _, -, rfl⟩ := hmodule
    exact .inl ⟨_, _, rfl⟩
  · obtain ⟨above, text, below, hcode, hfound⟩ := exists_line_of_mem_bodyFindings hbody
    rw [Nat.zero_add] at hfound
    exact .inr ⟨above, text, below, hcode, hfound⟩

/-- **Declarations are visible.**  Every function and every variable begins at a character of the
    code that is not blank. -/
theorem mem_stream_of_mem_findings {syn : ModuleSyntax} {code : List Line} {found : Finding}
    (h : found ∈ findings syn code) {spot : Spot} (hspot : found.start? = some spot) :
    ∃ c, c ≠ ' ' ∧ (c, spot) ∈ codeStream 0 code := by
  rcases exists_line_of_mem_findings h with ⟨name, span, rfl⟩ | ⟨above, text, below, rfl, hfound⟩
  · cases hspot
  have hline : ∀ c, (c, spot) ∈ lineStream above.length 0 text →
      (c, spot) ∈ codeStream 0 (above ++ text :: below) := by
    intro c hmem
    obtain ⟨before, after, rfl, rfl⟩ := mem_lineStream.mp hmem
    exact mem_codeStream.mpr ⟨Nat.zero_le _, before, after, by simp, by simp⟩
  cases hfound with
  | imports => cases hspot
  | function hhead hread =>
    obtain ⟨list, body, closes, -, -, -, rfl⟩ := readHeader_eq_ok hread
    cases hspot
    exact ⟨'d', by decide, hline _ (mem_lineStream_of_mem_headStarts hhead)⟩
  | assigns hassigned =>
    cases hspot
    obtain ⟨before, gap, right, hline', hoffset, -, c, word, hname, hc⟩ :=
      assignedIn_of_mem_assignments hassigned
    refine ⟨c, ne_space_of_startsName hc, hline c (mem_lineStream.mpr
      ⟨before, word ++ gap ++ '=' :: right, ?_, by rw [hoffset, Nat.zero_add]⟩)⟩
    rw [hline', hname]
    simp

end Declaration

end ScriptServer
