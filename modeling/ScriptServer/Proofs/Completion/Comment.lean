import ScriptServer.Completion.Context
import ScriptServer.Proofs.Layout
import ScriptServer.Proofs.Text.Comment

namespace ScriptServer

/-!
# Completion inside comments

Whether the cursor is in a comment is told from lengths: blanking comments has to shorten the line
before the cursor, both trimmed at the end.  So it is the last character before the cursor that
decides, blanks apart, and not the cursor.

* `Context.endsInComment_eq` — the lengths differ exactly when this character belongs to a comment.
* `Context.comment_context_exact` — so the answer is right but where only blanks stand between the
  cursor and the beginning of a line inside a block comment, or the end of a block comment.
-/

open Text

namespace Context

/-- **What the lengths tell.**  Blanking comments shortens a line before an offset exactly when the
    last character before it that is no blank belongs to a comment. -/
theorem endsInComment_eq (region : Region) (before : Line) {c : Char} {gap : Line} (tail : Line)
    (hc : isBlank c = false) (hgap : isBlankLine gap = true) :
    endsInComment ((before ++ c :: gap) ++ tail)
        (render (· == .comment) (marks region ((before ++ c :: gap) ++ tail)))
        (size (before ++ c :: gap))
      = ((region.after before).mark c (gap ++ tail).head? == .comment) := by
  obtain ⟨front, back, hmarks, hfront, hback⟩ :=
    exists_marks_append region before c (gap ++ tail)
  obtain ⟨near, far, rfl, hnear, hfar⟩ := List.map_eq_append_iff.mp hback
  generalize (region.after before).mark c (gap ++ tail).head? = mark at *
  have hline : (before ++ c :: gap) ++ tail = before ++ c :: (gap ++ tail) := by simp
  have hsplit : render (· == .comment) (marks region ((before ++ c :: gap) ++ tail))
      = render (· == .comment) (front ++ (c, mark) :: near) ++ render (· == .comment) far := by
    rw [hline, hmarks, ← render_append]
    simp
  have hsize : size (before ++ c :: gap)
      = size (render (· == .comment) (front ++ (c, mark) :: near)) := by
    rw [size_render, List.map_append, List.map_cons, hfront, hnear]
  have hmasked : trimEnd (render (· == .comment) (front ++ (c, mark) :: near))
      = trimEnd (render (· == .comment) (front ++ [(c, mark)])) := by
    have hcons : front ++ (c, mark) :: near = (front ++ [(c, mark)]) ++ near := by simp
    have hblank : isBlankLine (render (· == .comment) near) = true :=
      isBlankLine_render _ (by rw [hnear]; exact hgap)
    rw [hcons, render_append, trimEnd_append_blank _ hblank]
  unfold endsInComment
  conv_lhs =>
    rw [splitAtOffset_size, trimEnd_last before hc hgap, hsplit, hsize, splitAtOffset_size, hmasked,
      render_append]
  have hfrontSize : size (render (· == .comment) front) = size before := by
    rw [size_render, hfront]
  -- what is blanked last is trimmed with the blanks behind it; anything else stays
  by_cases hmark : mark = .comment
  · have hlast : isBlankLine (render (· == .comment) [(c, mark)]) = true := by
      simpa [render, hmark] using isBlankLine_blank c
    have hle := size_trimEnd_le (render (· == .comment) front)
    have hpos := c.utf8Size_pos
    rw [trimEnd_append_blank _ hlast, size_append, size, size]
    simp only [hmark, beq_self_eq_true, decide_eq_true_eq]
    omega
  · have hlast : render (· == .comment) [(c, mark)] = [c] := by simp [render, hmark]
    rw [hlast, trimEnd_concat _ hc, size_append, size_append, hfrontSize]
    simp [hmark]

theorem endsInComment_of_isBlankLine {head : Line} (h : isBlankLine head = true)
    (tail masked : Line) : endsInComment (head ++ tail) masked (size head) = false := by
  simp [endsInComment, splitAtOffset_size, trimEnd_of_isBlankLine h, size]

/-- A position is in a comment for one of two reasons. -/
theorem ofPosition_eq_comment_iff {text : String} {point : Position} {line : Line}
    (hline : (splitLines text)[point.line]? = some line) :
    ofPosition text point = .comment
      ↔ beginsComment line = true
        ∨ endsInComment line ((maskComments (splitLines text)).getD point.line [])
            (offsetAt line point.column) = true := by
  simp only [ofPosition, hline]
  split
  · next h => simpa using h
  · next h =>
    rw [Bool.or_eq_true] at h
    split <;> exact iff_of_false (by simp) h

/-! ### The text around the cursor -/

/-- A text cut at a position. -/
structure View where
  /-- The lines above, with their line breaks. -/
  above : List Char
  /-- The line before the cursor. -/
  head : Line
  /-- The line from the cursor on. -/
  tail : Line
  deriving DecidableEq

namespace View

/-- The view from a position, if the text has its line. -/
def ofPosition? (text : String) (point : Position) : Option View := do
  let (above, below) ← cutAtLine? point.line text.toList
  let (head, tail) := splitAtOffset (firstLine below) (offsetAt (firstLine below) point.column)
  return ⟨above, head, tail⟩

/-- The cursor stands between the two characters that open a comment. -/
def InOpening (view : View) : Prop :=
  ∃ before, view.above ++ view.head = before ++ ['/'] ∧ Region.after .code before = .code
    ∧ (view.tail.head? = some '/' ∨ view.tail.head? = some '*')

/-- Only blanks stand between the cursor and the beginning of its line, inside a block comment, or
    between the cursor and the end of a block comment. -/
def Misleads (view : View) : Prop :=
  (isBlankLine view.head = true ∧ InBlock view.above)
    ∨ ∃ before gap, view.head = before ++ '*' :: '/' :: gap ∧ isBlankLine gap = true
        ∧ InBlock (view.above ++ before)

/-- The view from a position on a line. -/
theorem exists_of_getElem? {text : String} {point : Position} {line : Line}
    (hline : (splitLines text)[point.line]? = some line) :
    ∃ view below, ofPosition? text point = some view
      ∧ cutAtLine? point.line text.toList = some (view.above, below)
      ∧ line = firstLine below ∧ line = view.head ++ view.tail
      ∧ offsetAt line point.column = size view.head := by
  cases hcut : cutAtLine? point.line text.toList with
  | none =>
    have hlength := cutAtLine?_eq_none_iff.mp hcut
    have hnone : (splitLines text)[point.line]? = none := by
      rw [List.getElem?_eq_none_iff, splitLines, List.length_map]
      exact hlength
    cases hline.symm.trans hnone
  | some parts =>
    obtain ⟨above, below⟩ := parts
    have hfirst : line = firstLine below := Option.some.inj (hline.symm.trans (getElem?_cut hcut))
    obtain ⟨head, tail, hsplit, hoffset⟩ := exists_offsetAt_eq line point.column
    refine ⟨⟨above, head, tail⟩, below, ?_, rfl, hfirst, hsplit, hoffset⟩
    rw [ofPosition?, hcut]
    simp only [Option.bind_eq_bind, Option.bind_some, ← hfirst]
    rw [hoffset, hsplit, splitAtOffset_size]
    rfl

/-- Behind a line that is blank before the cursor, the cursor is in a comment exactly when the line
    begins in one. -/
theorem inComment_of_isBlankLine {view : View} {text below : List Char} {number : Nat}
    (hcut : cutAtLine? number text = some (view.above, below)) (hbreak : '\n' ∉ view.head)
    (hblank : isBlankLine view.head = true) :
    InComment (view.above ++ view.head) ↔ InBlock view.above := by
  obtain ⟨hremark, hcomment⟩ := (Region.after .code view.above).after_gap hblank hbreak
  rw [inComment_iff, inBlock_iff, Region.after_append, hremark, hcomment]
  rcases after_cut hcut with h | h <;> simp [h]

theorem misleads_iff_of_isBlankLine {view : View} (hblank : isBlankLine view.head = true) :
    view.Misleads ↔ InBlock view.above := by
  constructor
  · rintro (⟨-, hblock⟩ | ⟨before, gap, hhead, -, -⟩)
    · exact hblock
    · have hstar : '*' ∈ view.head := by simp [hhead]
      exact absurd hstar (not_mem_of_isBlankLine hblank (by decide))
  · exact fun hblock => .inl ⟨hblank, hblock⟩

/-- Behind a line that is not, what counts is where its last character leads. -/
theorem inComment_of_last {view : View} {before : Line} {c : Char} {gap : Line}
    (hhead : view.head = before ++ c :: gap) (hbreak : '\n' ∉ view.head)
    (hgap : isBlankLine gap = true) :
    InComment (view.above ++ view.head)
      ↔ (Region.after .code (view.above ++ before)).step c = .remark
        ∨ ((Region.after .code (view.above ++ before)).step c).inComment = true := by
  have hgapBreak : '\n' ∉ gap := fun h => hbreak (by rw [hhead]; simp [h])
  obtain ⟨hremark, hcomment⟩ :=
    ((Region.after .code (view.above ++ before)).step c).after_gap hgap hgapBreak
  rw [inComment_iff, hhead, ← List.append_assoc, Region.after_append, Region.after_cons, hremark,
    hcomment]

/-- A line that is not blank before the cursor misleads exactly when its last character closes a
    comment. -/
theorem misleads_iff_of_last {view : View} {text below : List Char} {number : Nat}
    (hcut : cutAtLine? number text = some (view.above, below)) {before : Line} {c : Char}
    {gap : Line} (hhead : view.head = before ++ c :: gap) (hc : isBlank c = false)
    (hgap : isBlankLine gap = true) :
    view.Misleads ↔ Region.after .code (view.above ++ before) = .star ∧ c = '/' := by
  have hnonblank : ¬ isBlankLine view.head = true := by
    rw [hhead]
    simp [isBlankLine, hc]
  constructor
  · rintro (⟨hblank, -⟩ | ⟨before', gap', hhead', hgap', hblock⟩)
    · exact absurd hblank hnonblank
    · have heq : before ++ c :: gap = (before' ++ ['*']) ++ '/' :: gap' := by
        rw [← hhead, hhead']
        simp
      obtain ⟨rfl, rfl, rfl⟩ := last_inj hc hgap (by decide) hgap' heq
      rw [← List.append_assoc, Region.after_concat, Region.step_eq_star_iff]
      exact ⟨⟨inBlock_iff.mp hblock, rfl⟩, rfl⟩
  · rintro ⟨hstar, rfl⟩
    -- the star stands on the line itself: no line begins behind one
    cases before using List.reverseRecOn with
    | nil =>
      rw [List.append_nil] at hstar
      rcases after_cut hcut with h | h <;> exact absurd (hstar.symm.trans h) (by simp)
    | append_singleton before d =>
      rw [← List.append_assoc, Region.after_concat, Region.step_eq_star_iff] at hstar
      obtain ⟨hblock, rfl⟩ := hstar
      exact .inr ⟨before, gap, by simpa using hhead, hgap, inBlock_iff.mpr hblock⟩

/-- The last character opens no comment unless the cursor stands behind it. -/
theorem not_opens_of_last {view : View} (hopening : ¬ view.InOpening) {before : Line} {c : Char}
    {gap : Line} (hhead : view.head = before ++ c :: gap) (hgap : isBlankLine gap = true) :
    ¬ (Region.after .code (view.above ++ before) = .code ∧ c = '/'
      ∧ ((gap ++ view.tail).head? = some '/' ∨ (gap ++ view.tail).head? = some '*')) := by
  rintro ⟨hcode, rfl, hnext⟩
  cases gap with
  | nil => exact hopening ⟨view.above ++ before, by rw [hhead]; simp, hcode, hnext⟩
  | cons d rest =>
    have hd : isBlank d = true := (by simpa [isBlankLine] using hgap : isBlank d = true ∧ _).1
    rcases hnext with h | h <;>
    · have hd' := Option.some.inj h
      rw [hd'] at hd
      exact absurd hd (by decide)

end View

/-- **Comment context.**  On a line that does not begin with a comment, with the cursor outside the
    markers that open one, the context is a comment exactly when the cursor is in a comment, but for
    the views that mislead: there it is wrong in every case. -/
theorem comment_context_exact {text : String} {point : Position} {line : Line}
    (hline : (splitLines text)[point.line]? = some line) (hbegins : beginsComment line = false) :
    ∃ view, View.ofPosition? text point = some view ∧ line = view.head ++ view.tail
      ∧ (¬ view.InOpening →
        ((ofPosition text point = .comment ↔ InComment (view.above ++ view.head))
          ↔ ¬ view.Misleads)) := by
  obtain ⟨view, below, hview, hcut, hfirst, hsplit, hoffset⟩ := View.exists_of_getElem? hline
  refine ⟨view, hview, hsplit, fun hopening => ?_⟩
  have hbreak : '\n' ∉ view.head := fun h =>
    not_mem_firstLine below (by rw [← hfirst, hsplit]; exact List.mem_append_left _ h)
  have hmasked : (maskComments (splitLines text)).getD point.line []
      = render (· == .comment) (marks (Region.after .code view.above) line) := by
    rw [List.getD_eq_getElem?_getD, maskComments, List.getElem?_map, splitLines, markLines_cut hcut,
      hfirst]
    rfl
  rw [ofPosition_eq_comment_iff hline, hbegins, hmasked, hoffset, hsplit]
  -- the lengths know the last character that is no blank, if there is one
  rcases isBlankLine_or_exists_last view.head with hblank | ⟨before, c, gap, hhead, hc, hgap⟩
  · rw [endsInComment_of_isBlankLine hblank, View.misleads_iff_of_isBlankLine hblank,
      View.inComment_of_isBlankLine hcut hbreak hblank]
    simp
  · have hends := endsInComment_eq (Region.after .code view.above) before view.tail hc hgap
    have hnewline : c ≠ '\n' := fun h => hbreak (by rw [hhead, h]; simp)
    rw [← hhead, ← Region.after_append] at hends
    rw [hends, beq_iff_eq, Region.mark_eq_comment_iff hnewline,
      View.misleads_iff_of_last hcut hhead hc hgap, View.inComment_of_last hhead hbreak hgap]
    have hopens := View.not_opens_of_last hopening hhead hgap
    simp only [Bool.false_eq_true, false_or, hopens]
    by_cases hcloses : Region.after .code (view.above ++ before) = .star ∧ c = '/'
    · -- a slash behind a star leads out of the comment it belongs to
      obtain ⟨hstar, rfl⟩ := hcloses
      rw [hstar]
      decide
    · simp only [hcloses, or_false, not_false_eq_true]

/-- Behind a comment marker in a string, on a line inside which a block comment has ended, the
    context is right. -/
theorem comment_context_behind_string :
    (splitLines "a /* b\n c */ \"/*\" d")[1]? = some " c */ \"/*\" d".toList
      ∧ beginsComment " c */ \"/*\" d".toList = false
      ∧ ∃ view : View, view = ⟨"a /* b\n".toList, " c */ \"/*\"".toList, " d".toList⟩
        ∧ View.ofPosition? "a /* b\n c */ \"/*\" d" ⟨1, 10⟩ = some view
        ∧ ¬ view.InOpening ∧ ¬ view.Misleads
        ∧ (ofPosition "a /* b\n c */ \"/*\" d" ⟨1, 10⟩ = .comment
          ↔ InComment (view.above ++ view.head)) := by
  have hline : (splitLines "a /* b\n c */ \"/*\" d")[1]? = some " c */ \"/*\" d".toList := by decide
  have hbegins : beginsComment " c */ \"/*\" d".toList = false := by decide
  obtain ⟨view, hview, -, hexact⟩ := @comment_context_exact _ ⟨1, 10⟩ _ hline hbegins
  obtain rfl : view = ⟨"a /* b\n".toList, " c */ \"/*\"".toList, " d".toList⟩ :=
    Option.some.inj (hview.symm.trans (by decide))
  have hopening : ¬ View.InOpening ⟨"a /* b\n".toList, " c */ \"/*\"".toList, " d".toList⟩ := by
    rintro ⟨-, -, -, hnext⟩
    exact absurd hnext (by decide)
  have hmisleads : ¬ View.Misleads ⟨"a /* b\n".toList, " c */ \"/*\"".toList, " d".toList⟩ := by
    have hcut : cutAtLine? 1 "a /* b\n c */ \"/*\" d".toList
        = some ("a /* b\n".toList, " c */ \"/*\" d".toList) := by decide
    have hhead : " c */ \"/*\"".toList = " c */ \"/*".toList ++ '"' :: [] := by decide
    rw [View.misleads_iff_of_last hcut hhead (by decide) (by decide)]
    rintro ⟨-, hslash⟩
    exact absurd hslash (by decide)
  exact ⟨hline, hbegins, _, rfl, hview, hopening, hmisleads, (hexact hopening).mpr hmisleads⟩

/-- A blank line inside a block comment is taken for code, and blanks behind a block comment are
    taken for a comment. -/
theorem blanks_mislead :
    (beginsComment [] = false ∧ View.ofPosition? "/*\n\n*/" ⟨1, 0⟩ = some ⟨"/*\n".toList, [], []⟩
      ∧ InComment "/*\n".toList ∧ ofPosition "/*\n\n*/" ⟨1, 0⟩ = .general)
    ∧ (beginsComment "x /* a */ ".toList = false
      ∧ View.ofPosition? "x /* a */ " ⟨0, 10⟩ = some ⟨[], "x /* a */ ".toList, []⟩
      ∧ ¬ InComment "x /* a */ ".toList ∧ ofPosition "x /* a */ " ⟨0, 10⟩ = .comment) := by
  rw [inComment_iff, inComment_iff]
  decide

end Context

end ScriptServer
