import ScriptServer.Proofs.Completion.Statement

namespace ScriptServer

/-!
# A statement over several lines

A statement may be written on one line or broken over several, and what is completed in it stays the
same: the lines around the cursor are put together with spaces, and the cursor moves with them.

* `Statement.IsPhrase` — a part of a statement that is a line of its own.
* `Passage` — a statement broken over lines, somewhere in a text.
* `Passage.context_eq` — its context is that of the statement put together.
* `Passage.line_breaks_keep_context` — so it does not depend on the line breaks, outside a block
  comment.
-/

open Text

namespace Statement

/-! ### Phrases -/

/-- A part of a statement that can be a line of its own: it has no blanks around it, no semicolon,
    and nothing that comments or strings are made of. -/
structure IsPhrase (line : Line) : Prop where
  trimmed : trim line = line
  ne_nil : line ≠ []
  plain : ∀ c ∈ line, c ∉ [';', '/', '"', '\x27', '\n']

instance (line : Line) : Decidable (IsPhrase line) :=
  decidable_of_iff
    (trim line = line ∧ line ≠ [] ∧ line.all (· ∉ [';', '/', '"', '\x27', '\n']) = true)
    ⟨fun h => ⟨h.1, h.2.1, by simpa using h.2.2⟩,
      fun h => ⟨h.trimmed, h.ne_nil, by simpa using h.plain⟩⟩

namespace IsPhrase

variable {line : Line}

theorem not_mem (h : IsPhrase line) {c : Char} (hc : c ∈ [';', '/', '"', '\x27', '\n']) :
    c ∉ line :=
  fun hmem => h.plain c hmem hc

theorem head (h : IsPhrase line) : ∀ c ∈ line.head?, isBlank c = false :=
  (trim_eq_self_iff.mp h.trimmed).1

theorem last (h : IsPhrase line) : ∀ c ∈ line.getLast?, isBlank c = false :=
  (trim_eq_self_iff.mp h.trimmed).2

/-- What stands before a cursor in a phrase begins with no blank either. -/
theorem head_of_append {front rest : Line} (h : IsPhrase line) (hline : line = front ++ rest) :
    ∀ c ∈ front.head?, isBlank c = false := by
  intro c hc
  apply h.head
  rw [hline, List.head?_append, hc]
  rfl

/-- Two phrases with a space between them are a phrase. -/
theorem append {next : Line} (h : IsPhrase line) (hnext : IsPhrase next) :
    IsPhrase (line ++ ' ' :: next) := by
  refine ⟨trim_eq_self_iff.mpr ⟨?_, ?_⟩, by simp, ?_⟩
  · rw [List.head?_append_of_ne_nil _ h.ne_nil]
    exact h.head
  · rw [List.getLast?_append_of_ne_nil _ (by simp), List.getLast?_cons_of_ne_nil hnext.ne_nil]
    exact hnext.last
  · intro c hc
    rcases List.mem_append.mp hc with hc | hc
    · exact h.plain c hc
    · rcases List.mem_cons.mp hc with rfl | hc
      · decide
      · exact hnext.plain c hc

theorem intercalate {rows : List Line} (hne : rows ≠ []) (h : ∀ row ∈ rows, IsPhrase row) :
    IsPhrase ([' '].intercalate rows) := by
  induction rows with
  | nil => exact absurd rfl hne
  | cons row rows ih =>
    obtain ⟨hrow, hrows⟩ := List.forall_mem_cons.mp h
    cases rows with
    | nil => simpa using hrow
    | cons next rows =>
      rw [List.intercalate_cons_cons, List.append_assoc]
      exact hrow.append (ih (by simp) hrows)

/-- A phrase belongs as a whole to where it begins, and leaves reading there. -/
theorem markLine_eq (h : IsPhrase line) (inComment : Bool) :
    markLine (if inComment then .comment else .code) line
      = ⟨line.map (·, if inComment then .comment else .code), inComment⟩ := by
  -- what follows the first character need not be trimmed, so only the characters are kept
  have hplain := h.plain
  clear h
  induction line with
  | nil => cases inComment <;> rfl
  | cons c rest ih =>
    obtain ⟨hc, hrest⟩ := List.forall_mem_cons.mp hplain
    have hslash : c ≠ '/' := fun h => hc (by simp [h])
    have hquote : ¬ (c = '"' ∨ c = '\x27') := fun h => hc (by rcases h with rfl | rfl <;> simp)
    have hnext : ∀ rest', rest ≠ '/' :: rest' := by
      rintro rest' rfl
      exact hrest '/' List.mem_cons_self (by simp)
    have ih := ih hrest
    cases inComment with
    | true => simp_all [markLine, Marked.cons]
    | false => simp_all [markLine, Marked.cons]

theorem markLines_eq {rows : List Line} (h : ∀ row ∈ rows, IsPhrase row) (inComment : Bool) :
    markLines inComment rows
        = rows.map (·.map (·, if inComment then .comment else .code))
      ∧ commentBelow inComment rows = inComment := by
  induction rows with
  | nil => exact ⟨rfl, rfl⟩
  | cons row rows ih =>
    obtain ⟨hrow, hrows⟩ := List.forall_mem_cons.mp h
    obtain ⟨hmarks, hbelow⟩ := ih hrows
    rw [markLines, commentBelow, hrow.markLine_eq, hmarks, hbelow]
    exact ⟨rfl, rfl⟩

theorem goesOn_eq_true (h : IsPhrase line) : goesOn line = true := by
  have hend : line.getLast? ≠ some ';' := fun hlast =>
    h.not_mem (by simp) (List.mem_of_getLast? hlast)
  simp [goesOn, h.trimmed, h.ne_nil, hend]

end IsPhrase

/-! ### Lines that are taken -/

theorem goesOn_of_isBlankLine {line : Line} (h : isBlankLine line = true) :
    goesOn line = false := by
  simp [goesOn, trim_of_isBlankLine h]

/-- Above the cursor the phrases directly above are taken, up to a blank line. -/
theorem earlier_eq {far near : List Line} (hlength : near.length ≤ reach)
    (hnear : ∀ row ∈ near, IsPhrase row)
    (hfar : ∀ row ∈ far.getLast?, isBlankLine row = true) : earlier (far ++ near) = near := by
  -- the reach may go on beyond the phrases, but there it meets the blank line first
  have hreach : (far ++ near).rtake reach = far.rtake (reach - near.length) ++ near := by
    have hdrop : (far ++ near).length - reach = far.length - (reach - near.length) := by
      rw [List.length_append]
      omega
    rw [List.rtake, List.rtake, hdrop, List.drop_append_of_le_length (by omega)]
  have hstop : (far.rtake (reach - near.length)).rtakeWhile goesOn = [] := by
    rw [List.rtakeWhile_eq_nil_iff]
    intro hne
    have hsuffix : far.rtake (reach - near.length) <:+ far := List.drop_suffix _ _
    have hfarNe : far ≠ [] := fun hnil => hne (by simp [hnil, List.rtake])
    have hlast := goesOn_of_isBlankLine (hfar _ (List.getLast?_eq_some_getLast hfarNe))
    rw [hsuffix.getLast hne, hlast]
    exact Bool.false_ne_true
  rw [earlier, hreach, rtakeWhile_append _ fun row hrow => (hnear row hrow).goesOn_eq_true, hstop,
    List.nil_append]

/-- Below the cursor the phrases directly below are taken, up to a blank line. -/
theorem linesBelow_eq {near far : List Line} {n : Nat} (hlength : near.length ≤ n)
    (hnear : ∀ row ∈ near, IsPhrase row)
    (hfar : ∀ row ∈ far.head?, isBlankLine row = true) : linesBelow n (near ++ far) = near := by
  induction near generalizing n with
  | nil =>
    cases n with
    | zero => simp [linesBelow]
    | succ n =>
      cases far with
      | nil => simp [linesBelow]
      | cons row far => simp [linesBelow, trim_of_isBlankLine (hfar row rfl)]
  | cons row near ih =>
    obtain ⟨hrow, hnear⟩ := List.forall_mem_cons.mp hnear
    cases n with
    | zero => simp at hlength
    | succ n =>
      have hrest := ih (Nat.le_of_succ_le_succ hlength) hnear
      have hsemicolon : ';' ∉ row := hrow.not_mem (by simp)
      simp [linesBelow, hrow.trimmed, hrow.ne_nil, hsemicolon, hrest]

end Statement

namespace Context

/-! ### Contexts outside comments -/

/-- The context of a cursor in code, from the texts of its statement. -/
def ofStatement (before after : Line) : Context :=
  (Clause.classify? before after).elim .general .sql

theorem ofPosition_eq_ofStatement {text : String} {point : Position} {line before after : Line}
    (hline : (splitLines text)[point.line]? = some line) (hbegins : beginsComment line = false)
    (hends : endsInComment line ((maskComments (splitLines text)).getD point.line [])
      (offsetAt line point.column) = false)
    (haround : Statement.around (maskComments (splitLines text)) point.line
      (offsetAt line point.column) = (before, after)) :
    ofPosition text point = ofStatement before after := by
  simp only [ofPosition, hline, hbegins, hends, haround, ofStatement]
  cases Clause.classify? before after <;> rfl

theorem beginsComment_of_not_mem {line : Line} (h : '/' ∉ line) : beginsComment line = false := by
  have hnone : ∀ c, after? ['/', c] (trimStart line) = none := by
    intro c
    have hstart : '/' ∉ trimStart line := fun hmem => h ((List.dropWhile_suffix _).subset hmem)
    cases hrest : trimStart line with
    | nil => rfl
    | cons d rest =>
      rw [hrest, List.mem_cons, not_or] at hstart
      simp [after?, hstart.1]
  simp [beginsComment, hnone]

theorem endsInComment_self (line : Line) (offset : Nat) :
    endsInComment line line offset = false := by
  simp [endsInComment]

/-- A line that begins with no blank is shortened when all of it is hidden. -/
theorem endsInComment_hidden {head tail : Line} (hne : head ≠ [])
    (hhead : ∀ c ∈ head.head?, isBlank c = false) :
    endsInComment (head ++ tail)
        (render (· == .comment) (head.map (·, Mark.comment))
          ++ render (· == .comment) (tail.map (·, Mark.comment))) (size head) = true := by
  have hsize : size (render (· == .comment) (head.map (·, Mark.comment))) = size head := by
    rw [size_render, List.map_map]
    simp [Function.comp_def]
  have hhidden : trimEnd (render (· == .comment) (head.map (·, Mark.comment))) = [] := by
    apply trimEnd_of_isBlankLine
    rw [render, isBlankLine, List.all_flatMap, List.all_map]
    exact List.all_eq_true.mpr fun c _ => isBlankLine_blank c
  have hkept : trimEnd head ≠ [] := by
    intro hnil
    obtain ⟨gap, hgap, hblank⟩ := exists_eq_trimEnd_append head
    rw [hnil, List.nil_append] at hgap
    subst hgap
    obtain ⟨c, rest, rfl⟩ := List.exists_cons_of_ne_nil hne
    simp [isBlankLine, hhead c rfl] at hblank
  have hpos := size_pos hkept
  rw [endsInComment, splitAtOffset_size]
  conv_lhs => rw [← hsize, splitAtOffset_size, hhidden]
  exact decide_eq_true hpos

end Context

/-! ### Statements broken over lines -/

/-- A statement broken over lines, somewhere in a text.  Blank lines stand around it, unless the
    text begins or ends with it. -/
structure Passage where
  /-- The text above, by lines. -/
  top : List Line
  /-- The lines of the statement above the cursor. -/
  above : List Line
  /-- The line of the cursor. -/
  line : Line
  /-- The lines of the statement below the cursor. -/
  below : List Line
  /-- The text below, by lines. -/
  bottom : List Line
  isPhrase : ∀ row ∈ above ++ line :: below, Statement.IsPhrase row
  length_above : above.length ≤ Statement.reach
  length_below : below.length ≤ Statement.reach
  unbroken : ∀ row ∈ top ++ bottom, '\n' ∉ row
  blank_above : ∀ row ∈ top.getLast?, isBlankLine row = true
  blank_below : ∀ row ∈ bottom.head?, isBlankLine row = true

namespace Passage

open Context Statement

/-- The lines of the statement. -/
def rows (passage : Passage) : List Line := passage.above ++ passage.line :: passage.below

/-- The whole text. -/
def text (passage : Passage) : String :=
  String.ofList (['\n'].intercalate (passage.top ++ passage.rows ++ passage.bottom))

/-- A column on the line of the cursor. -/
def point (passage : Passage) (column : Nat) : Position :=
  ⟨passage.top.length + passage.above.length, column⟩

/-- The text above the statement. -/
def lead (passage : Passage) : List Char := passage.top.flatMap (· ++ ['\n'])

/-- The statement on one line. -/
def joined (passage : Passage) : String := String.ofList ([' '].intercalate passage.rows)

/-- Where a column on the line of the cursor is then. -/
def joinedPoint (passage : Passage) (column : Nat) : Position :=
  ⟨0, width (passage.above.flatMap (· ++ [' '])) + column⟩

theorem isPhrase_line (passage : Passage) : IsPhrase passage.line :=
  passage.isPhrase _ (by simp)

/-- The lines of the text are the lines that it is made of. -/
theorem splitLines_text (passage : Passage) :
    splitLines passage.text
      = passage.top.map dropReturn ++ passage.rows ++ passage.bottom.map dropReturn := by
  have hbreak : ∀ row ∈ passage.top ++ passage.rows ++ passage.bottom, '\n' ∉ row := by
    intro row hrow
    rw [List.mem_append, List.mem_append] at hrow
    rcases hrow with (hrow | hrow) | hrow
    · exact passage.unbroken row (List.mem_append_left _ hrow)
    · exact (passage.isPhrase row hrow).not_mem (by simp)
    · exact passage.unbroken row (List.mem_append_right _ hrow)
  have hrows : passage.rows.map dropReturn = passage.rows := by
    conv_rhs => rw [← List.map_id passage.rows]
    exact List.map_congr_left fun row hrow =>
      dropReturn_of_getLast? (passage.isPhrase row hrow).last
  have hne : passage.top ++ passage.rows ++ passage.bottom ≠ [] := by simp [rows]
  obtain ⟨first, others, hlines⟩ := List.exists_cons_of_ne_nil hne
  rw [splitLines, text, String.toList_ofList, hlines]
  rw [hlines] at hbreak
  rw [splitAtChar_intercalate first others hbreak, ← hlines, List.map_append, List.map_append,
    hrows]

theorem getElem?_splitLines (passage : Passage) (column : Nat) :
    (splitLines passage.text)[(passage.point column).line]? = some passage.line := by
  rw [splitLines_text, rows, point]
  simp

/-- **The text without comments.**  The statement is blanked as a whole or not at all. -/
theorem maskComments_text (passage : Passage) :
    maskComments (splitLines passage.text)
      = maskComments (passage.top.map dropReturn)
        ++ passage.rows.map (fun row => render (· == .comment)
            (row.map (·, if commentBelow false (passage.top.map dropReturn) then .comment
              else .code)))
        ++ (markLines (commentBelow false (passage.top.map dropReturn))
            (passage.bottom.map dropReturn)).map (render (· == .comment)) := by
  obtain ⟨hmarks, hbelow⟩ := IsPhrase.markLines_eq passage.isPhrase
    (commentBelow false (passage.top.map dropReturn))
  rw [splitLines_text, maskComments, markLines_append, commentBelow_append, markLines_append, rows,
    hmarks, hbelow, List.map_append, List.map_append, List.map_map]
  rfl

theorem commentBelow_top (passage : Passage) :
    commentBelow false (passage.top.map dropReturn) = true ↔ InBlock passage.lead :=
  commentBelow_eq_true_iff fun row hrow => passage.unbroken row (List.mem_append_left _ hrow)

section Code

variable {passage : Passage} (hcode : ¬ InBlock passage.lead)

include hcode

/-- Outside a block comment the statement stays as it is. -/
theorem maskComments_code :
    maskComments (splitLines passage.text)
      = maskComments (passage.top.map dropReturn) ++ passage.rows
        ++ maskComments (passage.bottom.map dropReturn) := by
  have hfalse : commentBelow false (passage.top.map dropReturn) = false := by
    rw [← Bool.not_eq_true, commentBelow_top]
    exact hcode
  have hrender : ∀ row : Line, render (· == .comment) (row.map (·, Mark.code)) = row := by
    intro row
    simp [render, List.flatMap_map]
  rw [maskComments_text, hfalse]
  simp only [Bool.false_eq_true, if_false, hrender, List.map_id']
  rfl

/-- The texts of the statement around the cursor. -/
theorem around_text {head tail : Line} (hline : passage.line = head ++ tail) :
    around (maskComments (splitLines passage.text))
        (passage.top.length + passage.above.length) (size head)
      = (passage.above.flatMap (· ++ [' ']) ++ head,
          tail ++ passage.below.flatMap (' ' :: ·)) := by
  have hphrase := passage.isPhrase_line
  have hsemicolon : ';' ∉ head ++ tail := by
    rw [← hline]
    exact hphrase.not_mem (by simp)
  rw [List.mem_append, not_or] at hsemicolon
  have habove : earlier (maskComments (passage.top.map dropReturn) ++ passage.above)
      = passage.above := by
    apply earlier_eq passage.length_above
    · exact fun row hrow => passage.isPhrase row (List.mem_append_left _ hrow)
    · rw [List.getLast?_eq_getElem?, length_maskComments, List.length_map]
      apply isBlankLine_maskComments
      rw [← List.getLast?_eq_getElem?]
      exact passage.blank_above
  have hbelow : linesBelow reach (passage.below ++ maskComments (passage.bottom.map dropReturn))
      = passage.below := by
    apply linesBelow_eq passage.length_below
    · exact fun row hrow =>
        passage.isPhrase row (List.mem_append_right _ (List.mem_cons_of_mem _ hrow))
    · rw [List.head?_eq_getElem?]
      apply isBlankLine_maskComments
      rw [← List.head?_eq_getElem?]
      exact passage.blank_below
  have htrim : passage.above.map trim = passage.above := by
    conv_rhs => rw [← List.map_id passage.above]
    exact List.map_congr_left fun row hrow =>
      (passage.isPhrase row (List.mem_append_left _ hrow)).trimmed
  have hstart : trimStart head = head :=
    trimStart_eq_self_iff.mpr (hphrase.head_of_append hline)
  have hsplit : maskComments (splitLines passage.text)
      = (maskComments (passage.top.map dropReturn) ++ passage.above)
        ++ (head ++ tail) :: (passage.below ++ maskComments (passage.bottom.map dropReturn)) := by
    rw [maskComments_code hcode, rows, hline]
    simp
  have hnumber : passage.top.length + passage.above.length
      = (maskComments (passage.top.map dropReturn) ++ passage.above).length := by
    simp [length_maskComments]
  have hafter := intercalate_append_cons ' ' [] tail passage.below
  rw [hsplit, hnumber, around_eq, partsBefore, if_neg hsemicolon.1, habove, htrim, hstart,
    partsAfter, if_neg hsemicolon.2, hbelow, intercalate_append_cons]
  simpa using hafter

/-- **The context of a statement over lines** is told by the statement put together. -/
theorem context_eq {head tail : Line} {column : Nat} (hline : passage.line = head ++ tail)
    (hoffset : offsetAt passage.line column = size head) :
    ofPosition passage.text (passage.point column)
      = ofStatement (passage.above.flatMap (· ++ [' ']) ++ head)
          (tail ++ passage.below.flatMap (' ' :: ·)) := by
  apply ofPosition_eq_ofStatement (passage.getElem?_splitLines column)
  · exact beginsComment_of_not_mem (passage.isPhrase_line.not_mem (by simp))
  · have hmasked : (maskComments (splitLines passage.text)).getD
        (passage.point column).line [] = passage.line := by
      rw [maskComments_code hcode, rows, point]
      simp [length_maskComments]
    rw [hmasked]
    exact endsInComment_self _ _
  · show around _ _ (offsetAt passage.line column) = _
    rw [hoffset]
    exact around_text hcode hline

end Code

/-- Inside a block comment the statement is a comment from its first column on. -/
theorem context_of_inBlock {passage : Passage} (hblock : InBlock passage.lead) {column : Nat}
    (hcolumn : 0 < column) : ofPosition passage.text (passage.point column) = .comment := by
  obtain ⟨head, tail, hline, hoffset⟩ := exists_offsetAt_eq passage.line column
  have hphrase := passage.isPhrase_line
  have hne : head ≠ [] := by
    rintro rfl
    have hpos := offsetAt_pos hphrase.ne_nil hcolumn
    rw [hoffset, size] at hpos
    omega
  have hmasked : (maskComments (splitLines passage.text)).getD (passage.point column).line []
      = render (· == .comment) (head.map (·, Mark.comment))
        ++ render (· == .comment) (tail.map (·, Mark.comment)) := by
    rw [maskComments_text, passage.commentBelow_top.mpr hblock, rows, point, ← render_append,
      ← List.map_append, ← hline]
    simp [length_maskComments]
  rw [ofPosition_eq_comment_iff (passage.getElem?_splitLines column)]
  refine .inr ?_
  show endsInComment passage.line _ (offsetAt passage.line column) = true
  rw [hmasked, hoffset, hline]
  exact endsInComment_hidden hne (hphrase.head_of_append hline)

/-- The same statement on one line, alone. -/
def flat (passage : Passage) : Passage where
  top := []
  above := []
  line := [' '].intercalate passage.rows
  below := []
  bottom := []
  isPhrase := List.forall_mem_singleton.mpr
    (IsPhrase.intercalate (by simp [rows]) passage.isPhrase)
  length_above := Nat.zero_le _
  length_below := Nat.zero_le _
  unbroken := by simp
  blank_above := by simp
  blank_below := by simp

theorem text_flat (passage : Passage) : passage.flat.text = passage.joined := by
  simp [text, flat, rows, joined]

/-- **Line breaks do not matter.**  A statement over lines has the context that it has on one line,
    for each column on the line of the cursor.  Only inside a block comment it has not: there the
    context is a comment. -/
theorem line_breaks_keep_context (passage : Passage) {column : Nat}
    (hcolumn : column ≤ width passage.line) :
    (¬ InBlock passage.lead →
      ofPosition passage.text (passage.point column)
        = ofPosition passage.joined (passage.joinedPoint column))
      ∧ (InBlock passage.lead → 0 < column →
        ofPosition passage.text (passage.point column) = .comment) := by
  refine ⟨fun hcode => ?_, fun hblock hpos => context_of_inBlock hblock hpos⟩
  -- one line is a passage, too, and both passages have the same texts around the cursor
  obtain ⟨head, tail, hline, hoffset⟩ := exists_offsetAt_eq passage.line column
  have hflatCode : ¬ InBlock passage.flat.lead := by
    rw [inBlock_iff]
    exact Bool.false_ne_true
  have hflatLine : passage.flat.line
      = (passage.above.flatMap (· ++ [' ']) ++ head)
        ++ (tail ++ passage.below.flatMap (' ' :: ·)) := by
    show [' '].intercalate passage.rows = _
    rw [rows, intercalate_append_cons, hline]
    simp
  have hflatOffset : offsetAt passage.flat.line (passage.joinedPoint column).column
      = size (passage.above.flatMap (· ++ [' ']) ++ head) := by
    show offsetAt ([' '].intercalate passage.rows) _ = _
    rw [rows, intercalate_append_cons, List.append_assoc, joinedPoint, offsetAt_append,
      offsetAt_append_of_le hcolumn, hoffset, size_append]
  have hflat := context_eq hflatCode hflatLine hflatOffset
  rw [text_flat] at hflat
  rw [context_eq hcode hline hoffset]
  refine Eq.trans ?_ hflat.symm
  simp [flat]

/-- A statement over three lines below a comment that has ended. -/
theorem broken_select_keeps_context :
    ∃ passage : Passage,
      passage.text = "/* a\n*/\n\nselect x\nfrom d.e.f where y\norder by z\n\nb"
        ∧ passage.joined = "select x from d.e.f where y order by z"
        ∧ 17 ≤ width passage.line ∧ ¬ InBlock passage.lead
        ∧ ofPosition passage.text (passage.point 17)
          = ofPosition passage.joined (passage.joinedPoint 17) := by
  let passage : Passage :=
    { top := ["/* a".toList, "*/".toList, []]
      above := ["select x".toList]
      line := "from d.e.f where y".toList
      below := ["order by z".toList]
      bottom := [[], ['b']]
      isPhrase := by decide
      length_above := by decide
      length_below := by decide
      unbroken := by decide
      blank_above := by decide
      blank_below := by decide }
  have hcolumn : 17 ≤ width passage.line := by decide
  have hcode : ¬ InBlock passage.lead := by
    rw [inBlock_iff]
    decide
  exact ⟨passage, by decide, by decide, hcolumn, hcode,
    (line_breaks_keep_context passage hcolumn).1 hcode⟩

/-- Inside a block comment a statement over lines is a comment, between blank lines as elsewhere.
    On one line, alone, it is not. -/
theorem comment_around_lines :
    ∃ passage : Passage,
      passage.text = "/*\n\nselect x\nfrom d.e.f where y\n\n*/"
        ∧ passage.joined = "select x from d.e.f where y" ∧ 17 ≤ width passage.line
        ∧ ofPosition passage.text (passage.point 17) = .comment
        ∧ ofPosition passage.joined (passage.joinedPoint 17)
          = .sql (.columns (.catalog "d" "e" "f")) := by
  refine ⟨{ top := ["/*".toList, []]
            above := ["select x".toList]
            line := "from d.e.f where y".toList
            below := []
            bottom := [[], "*/".toList]
            isPhrase := by decide
            length_above := by decide
            length_below := by decide
            unbroken := by decide
            blank_above := by decide
            blank_below := by decide }, ?_⟩
  decide

end Passage

end ScriptServer
