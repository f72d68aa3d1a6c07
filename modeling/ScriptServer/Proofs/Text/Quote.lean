import Mathlib.Data.List.Forall2
import ScriptServer.Proofs.Text.Mask
import ScriptServer.Text.Search

namespace ScriptServer.Text

/-!
# Reading up to a quote

Blanking comments alone and blanking the inside of strings as well make different lines of one
text, but the first quote of a line is the same in both, and so is all that stands before it.
What never reads past a quote cannot tell the two apart.

* `Alike` — two lines are the same up to the first quote.
* `alike_masks` — the two masks of a text are alike, line by line.
* `Alike.after?`, `Alike.readName?`, `Alike.skipBlanks?` — patterns without quotes, names and blanks
  are read alike from lines that are alike.
-/

/-- Whether a character opens a string. -/
def isQuote (c : Char) : Bool := c == '"' || c == '\x27'

/-- Two lines are the same up to the first quote, or to their end when there is none. -/
inductive Alike : Line → Line → Prop where
  | nil : Alike [] []
  | quote {c : Char} (h : isQuote c = true) (a b : Line) : Alike (c :: a) (c :: b)
  | cons (c : Char) {a b : Line} (h : Alike a b) : Alike (c :: a) (c :: b)

namespace Alike

theorem refl (line : Line) : Alike line line := by
  induction line with
  | nil => exact .nil
  | cons c rest ih => exact .cons c ih

theorem append (front : Line) {a b : Line} (h : Alike a b) : Alike (front ++ a) (front ++ b) := by
  induction front with
  | nil => exact h
  | cons c rest ih => exact .cons c ih

end Alike

/-! ### Quotes belong to no class of characters -/

theorem isQuote_iff {c : Char} : isQuote c = true ↔ c = '"' ∨ c = '\x27' := by
  simp [isQuote]

/-- A class of characters that has neither quote in it has no quote in it. -/
theorem eq_false_of_isQuote {p : Char → Bool} (hdouble : p '"' = false)
    (hsingle : p '\x27' = false) {c : Char} (h : isQuote c = true) : p c = false := by
  rcases isQuote_iff.mp h with rfl | rfl
  · exact hdouble
  · exact hsingle

theorem isBlank_eq_false_of_isQuote {c : Char} (h : isQuote c = true) : isBlank c = false :=
  eq_false_of_isQuote (by decide) (by decide) h

theorem isWord_eq_false_of_isQuote {c : Char} (h : isQuote c = true) : isWord c = false :=
  eq_false_of_isQuote (by decide) (by decide) h

theorem startsName_eq_false_of_isQuote {c : Char} (h : isQuote c = true) : startsName c = false :=
  eq_false_of_isQuote (by decide) (by decide) h

/-! ### The two masks of a text -/

theorem render_cons (hides : Mark → Bool) (c : Char) (mark : Mark) (rest : List (Char × Mark)) :
    render hides ((c, mark) :: rest)
      = (if hides mark then blank c else [c]) ++ render hides rest := by
  rw [render, List.flatMap_cons]
  rfl

/-- One more character of code in front. -/
theorem alike_render_code (c : Char) {rest : List (Char × Mark)}
    (h : Alike (render (· == .comment) rest) (render (· != .code) rest)) :
    Alike (render (· == .comment) ((c, .code) :: rest))
      (render (· != .code) ((c, .code) :: rest)) := by
  rw [render_cons, render_cons]
  exact h.append [c]

/-- One more character of a comment in front. -/
theorem alike_render_comment (c : Char) {rest : List (Char × Mark)}
    (h : Alike (render (· == .comment) rest) (render (· != .code) rest)) :
    Alike (render (· == .comment) ((c, .comment) :: rest))
      (render (· != .code) ((c, .comment) :: rest)) := by
  rw [render_cons, render_cons]
  exact h.append (blank c)

/-- **The two masks of a line are alike.**  The line does not begin inside a string, so a quote
    comes before the first character that only one of them blanks. -/
theorem alike_render_markLine {zone : Zone} (hzone : ∀ quote, zone ≠ .quoted quote) (line : Line) :
    Alike (render (· == .comment) (markLine zone line).chars)
      (render (· != .code) (markLine zone line).chars) := by
  fun_induction markLine zone line with
  | case1 => exact .nil
  | case2 => exact .nil
  | case3 quote => exact .nil
  | case4 rest ih =>
    exact alike_render_comment _ (alike_render_comment _ (ih (by simp)))
  | case5 c rest _ ih => exact alike_render_comment _ (ih (by simp))
  | case6 quote => exact absurd rfl (hzone quote)
  | case7 c => exact absurd rfl (hzone c)
  | case8 quote => exact absurd rfl (hzone quote)
  | case9 rest =>
    -- a comment to the end of the line
    generalize ('/' :: '/' :: rest) = hidden
    induction hidden with
    | nil => exact .nil
    | cons c hidden ih => exact alike_render_comment c ih
  | case10 rest ih =>
    exact alike_render_comment _ (alike_render_comment _ (ih (by simp)))
  | case11 c rest _ _ hquote ih =>
    -- a string begins: from here on the masks may differ
    rw [Marked.cons, render_cons, render_cons]
    exact .quote (isQuote_iff.mpr hquote) _ _
  | case12 c rest _ _ _ ih => exact alike_render_code c (ih (by simp))

/-- **The two masks of a text are alike**, line by line. -/
theorem alike_masks (lines : List Line) :
    List.Forall₂ Alike (maskComments lines) (maskCode lines) := by
  have hmarked : ∀ inComment, List.Forall₂ Alike
      ((markLines inComment lines).map (render (· == .comment)))
      ((markLines inComment lines).map (render (· != .code))) := by
    induction lines with
    | nil => exact fun _ => .nil
    | cons line rest ih =>
      intro inComment
      rw [markLines, List.map_cons, List.map_cons]
      refine .cons (alike_render_markLine ?_ line) (ih _)
      intro quote
      split <;> simp
  exact hmarked false

/-! ### Reading -/

/-- Readers that go on from related places in related ways end in related places. -/
theorem rel_bind {α β γ δ : Type} {r : α → β → Prop} {s : γ → δ → Prop} {x : Option α}
    {y : Option β} {f : α → Option γ} {g : β → Option δ} (h : Option.Rel r x y)
    (hnext : ∀ u v, r u v → Option.Rel s (f u) (g v)) : Option.Rel s (x.bind f) (y.bind g) := by
  cases h with
  | none => exact .none
  | some hr => exact hnext _ _ hr

theorem eq_of_rel_eq {α : Type} {x y : Option α} (h : Option.Rel Eq x y) : x = y := by
  cases h with
  | none => rfl
  | some heq => rw [heq]

/-- The same was read, and the rests are alike. -/
def AlikeRest (x y : Line × Line) : Prop := x.1 = y.1 ∧ Alike x.2 y.2

namespace Alike

variable {a b : Line}

/-- Characters of a class without quotes are read alike. -/
theorem takeWhile_eq (h : Alike a b) {p : Char → Bool}
    (hp : ∀ {c}, isQuote c = true → p c = false) : a.takeWhile p = b.takeWhile p := by
  induction h with
  | nil => rfl
  | quote hc a b => simp [hp hc]
  | cons c h ih => rw [List.takeWhile_cons, List.takeWhile_cons, ih]

theorem dropWhile (h : Alike a b) {p : Char → Bool}
    (hp : ∀ {c}, isQuote c = true → p c = false) :
    Alike (a.dropWhile p) (b.dropWhile p) := by
  induction h with
  | nil => exact .nil
  | quote hc a b =>
    simp only [List.dropWhile_cons, hp hc, Bool.false_eq_true, if_false]
    exact .quote hc a b
  | cons c h ih =>
    rw [List.dropWhile_cons, List.dropWhile_cons]
    split
    · exact ih
    · exact .cons c h

theorem trimStart (h : Alike a b) : Alike (trimStart a) (trimStart b) :=
  h.dropWhile isBlank_eq_false_of_isQuote

theorem isBlankLine_eq (h : Alike a b) : isBlankLine a = isBlankLine b := by
  unfold isBlankLine
  induction h with
  | nil => rfl
  | quote hc a b => simp [isBlank_eq_false_of_isQuote hc]
  | cons c h ih => rw [List.all_cons, List.all_cons, ih]

/-- A pattern without quotes is found in both or in none. -/
theorem after? {pattern : Line} (h : Alike a b) (hpattern : pattern.any isQuote = false) :
    Option.Rel Alike (after? pattern a) (after? pattern b) := by
  induction pattern generalizing a b with
  | nil => exact .some h
  | cons p pattern ih =>
    obtain ⟨hp, hrest⟩ := Bool.or_eq_false_iff.mp (List.any_cons ▸ hpattern)
    cases h with
    | nil => exact .none
    | @quote c hc a b =>
      have hne : p ≠ c := by
        rintro rfl
        rw [hp] at hc
        cases hc
      simp only [Text.after?, if_neg hne]
      exact .none
    | cons c h =>
      simp only [Text.after?]
      split
      · exact ih h hrest
      · exact .none

theorem readName? (h : Alike a b) : Option.Rel AlikeRest (readName? a) (readName? b) := by
  cases h with
  | nil => exact .none
  | quote hc a b =>
    simp only [Text.readName?, startsName_eq_false_of_isQuote hc, Bool.false_eq_true, if_false]
    exact .none
  | cons c h =>
    simp only [Text.readName?]
    split
    · exact .some ⟨by rw [h.takeWhile_eq isWord_eq_false_of_isQuote],
        h.dropWhile isWord_eq_false_of_isQuote⟩
    · exact .none

theorem skipBlanks? (h : Alike a b) : Option.Rel Alike (skipBlanks? a) (skipBlanks? b) := by
  cases h with
  | nil => exact .none
  | quote hc a b =>
    simp only [Text.skipBlanks?, isBlank_eq_false_of_isQuote hc, Bool.false_eq_true, if_false]
    exact .none
  | cons c h =>
    simp only [Text.skipBlanks?]
    split
    · exact .some h.trimStart
    · exact .none

end Alike

end ScriptServer.Text
