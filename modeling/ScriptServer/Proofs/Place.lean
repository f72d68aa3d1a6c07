import Mathlib.Data.List.Induction
import ScriptServer.Proofs.Block
import ScriptServer.Proofs.Text.Region

namespace ScriptServer

/-!
# Places in a text

A text that is not cut into lines can be put together from parts.  A place in it is told by what
stands before it.

* `Spot.after`, `Position.after` — the spot and the position behind a text.
* `exists_cut` — what stands before a place decides its line and what is cut off with it.
* `Spot.after_maskText` — spots are the same in a text and in its mask.
* `Source.position_after` — the position of a spot is the position behind what stands before it.
* `bracesAfter` — the braces of a text that begins at a spot.
-/

open Text

/-- The spot behind a character. -/
def Spot.step (spot : Spot) (c : Char) : Spot :=
  if c = '\n' then ⟨spot.line + 1, 0⟩ else ⟨spot.line, spot.offset + c.utf8Size⟩

/-- The spot behind a text that begins at a spot. -/
def Spot.after (spot : Spot) (text : List Char) : Spot := text.foldl Spot.step spot

/-- The position behind a character. -/
def Position.step (p : Position) (c : Char) : Position :=
  if c = '\n' then ⟨p.line + 1, 0⟩ else ⟨p.line, p.column + units c⟩

/-- The position behind a text that begins at a position. -/
def Position.after (p : Position) (text : List Char) : Position := text.foldl Position.step p

/-- Where code begins. -/
def Spot.origin : Spot := ⟨0, 0⟩

theorem Spot.after_cons (spot : Spot) (c : Char) (rest : List Char) :
    spot.after (c :: rest) = (spot.step c).after rest := rfl

theorem Spot.after_append (spot : Spot) (a b : List Char) :
    spot.after (a ++ b) = (spot.after a).after b := List.foldl_append

theorem Position.after_append (p : Position) (a b : List Char) :
    p.after (a ++ b) = (p.after a).after b := List.foldl_append

/-- On one line a text moves a spot by its bytes. -/
theorem Spot.after_of_not_mem (spot : Spot) {text : List Char} (h : '\n' ∉ text) :
    spot.after text = ⟨spot.line, spot.offset + size text⟩ := by
  induction text generalizing spot with
  | nil => rfl
  | cons c rest ih =>
    rw [List.mem_cons, not_or] at h
    have hc : c ≠ '\n' := fun hc => h.1 hc.symm
    show (spot.step c).after rest = _
    rw [ih _ h.2, Spot.step, if_neg hc, size, Nat.add_assoc]

/-- What is longer reaches further. -/
theorem Spot.lt_after (spot : Spot) {text : List Char} (h : text ≠ []) : spot < spot.after text := by
  have hstep : ∀ (spot : Spot) c, spot < spot.step c := by
    intro spot c
    rw [Spot.step, Spot.lt_def]
    have hpos := Char.utf8Size_pos c
    split
    · exact .inl (Nat.lt_succ_self _)
    · exact .inr ⟨rfl, Nat.lt_add_of_pos_right hpos⟩
  induction text generalizing spot with
  | nil => exact absurd rfl h
  | cons c text ih =>
    rw [Spot.after_cons]
    cases text with
    | nil => exact hstep spot c
    | cons d text =>
      have hfirst := hstep spot c
      have hrest := ih (spot.step c) (by simp)
      rw [Spot.lt_def] at hfirst hrest ⊢
      omega

theorem Spot.after_lines {lines : List Line} (h : ∀ line ∈ lines, '\n' ∉ line) (number : Nat) :
    Spot.after ⟨number, 0⟩ (lines.flatMap (· ++ ['\n'])) = ⟨number + lines.length, 0⟩ := by
  induction lines generalizing number with
  | nil => rfl
  | cons line lines ih =>
    obtain ⟨hline, hlines⟩ := List.forall_mem_cons.mp h
    rw [List.flatMap_cons, Spot.after_append, Spot.after_append, Spot.after_of_not_mem _ hline]
    show Spot.after ⟨number + 1, 0⟩ _ = _
    rw [ih hlines, List.length_cons, Nat.add_right_comm, Nat.add_assoc]

/-- **What stands before a place** ends with the beginning of its line, and the lines above are cut
    off with it.  Line and offset of the place count both. -/
theorem exists_cut (before : List Char) :
    ∃ above last, '\n' ∉ last
      ∧ (∀ {text first others}, splitAtChar '\n' text = first :: others →
          splitAtChar '\n' (before ++ text) = above ++ (last ++ first) :: others)
      ∧ Spot.origin.after before = ⟨above.length, size last⟩
      ∧ Position.origin.after before = ⟨above.length, width last⟩ := by
  induction before using List.reverseRecOn with
  | nil => exact ⟨[], [], List.not_mem_nil, fun htext => htext, rfl, rfl⟩
  | append_singleton before c ih =>
    obtain ⟨above, last, hlast, hsplit, hspot, hposition⟩ := ih
    rw [Spot.after_append, Position.after_append, hspot, hposition]
    by_cases hc : c = '\n'
    · -- a line break begins a new line
      refine ⟨above ++ [last], [], List.not_mem_nil, fun {text first others} htext => ?_, ?_, ?_⟩
      · have hbreak : splitAtChar '\n' (c :: text) = [] :: first :: others := by
          rw [splitAtChar, if_pos hc, htext]
        rw [List.append_assoc, List.singleton_append, hsplit hbreak]
        simp
      · simp [Spot.after, Spot.step, hc, size]
      · simp [Position.after, Position.step, hc, width]
    · refine ⟨above, last ++ [c], ?_, fun {text first others} htext => ?_, ?_, ?_⟩
      · simp only [List.mem_append, List.mem_singleton, not_or]
        exact ⟨hlast, fun hn => hc hn.symm⟩
      · have hnext : splitAtChar '\n' (c :: text) = (c :: first) :: others := by
          rw [splitAtChar, if_neg hc, htext]
        rw [List.append_assoc, List.singleton_append, hsplit hnext]
        simp
      · simp [Spot.after, Spot.step, hc, size]
      · simp [Position.after, Position.step, hc, width]

/-! ### Masks -/

/-- What is left of a character takes up as many bytes, unless it is a carriage return before a line
    break. -/
theorem Spot.after_glyph (spot : Spot) (region : Region) {c : Char} {next : Option Char}
    (hkept : ¬ (c = '\r' ∧ (next = none ∨ next = some '\n'))) :
    spot.after (glyph region c next) = spot.step c := by
  by_cases hc : c = '\n'
  · rw [glyph, if_pos hc, hc]
    rfl
  · have hblank : '\n' ∉ blank c := not_mem_blank (by decide)
    rw [glyph, if_neg hc, if_neg hkept]
    split
    · rw [Spot.after_of_not_mem spot hblank, size_blank, Spot.step, if_neg hc]
    · rfl

/-- **A mask keeps spots.**  Carriage returns are dropped only before line breaks, and what follows
    the text is none. -/
theorem Spot.after_maskText (spot : Spot) (region : Region) {next : Char} (hnext : next ≠ '\n')
    (text : List Char) : spot.after (maskText region (some next) text) = spot.after text := by
  induction text generalizing spot region with
  | nil => rfl
  | cons c rest ih =>
    rw [maskText, Spot.after_append]
    show _ = (spot.step c).after rest
    by_cases hdropped :
        c = '\r' ∧ (rest.head?.or (some next) = none ∨ rest.head?.or (some next) = some '\n')
    · -- the line break comes next and sets the offset back
      obtain ⟨rfl, hbreak⟩ := hdropped
      cases rest with
      | nil => simp_all
      | cons d rest =>
        obtain rfl : d = '\n' := by simpa using hbreak
        rw [ih, glyph, if_neg (by decide), if_pos ⟨rfl, by simp⟩]
        rfl
    · rw [Spot.after_glyph spot region hdropped, ih]

namespace Source

/-- **The position of a spot** is the position behind what stands before it. -/
theorem position_after {text : String} {before rest : List Char} {c : Char}
    (htext : text.toList = before ++ c :: rest) (hc : c ≠ '\n') :
    (ofText text).position (Spot.origin.after before) = Position.origin.after before := by
  obtain ⟨above, last, -, hsplit, hspot, hposition⟩ := exists_cut before
  obtain ⟨first, others, hrest⟩ := List.exists_cons_of_ne_nil (splitAtChar_ne_nil '\n' rest)
  have hnext : splitAtChar '\n' (c :: rest) = (c :: first) :: others := by
    rw [splitAtChar, if_neg hc, hrest]
  -- only the end of a line may be dropped, and the character is not
  have hdrop : ∀ line : Line,
      dropReturn (line ++ c :: first) = line ++ dropReturn (c :: first) := by
    intro line
    induction line with
    | nil => rfl
    | cons d line ih =>
      rw [List.cons_append, dropReturn, ih, List.cons_append]
      intro hd hnil
      simp at hnil
  have hlines : (ofText text).lines.getD above.length [] = last ++ dropReturn (c :: first) := by
    show ((splitAtChar '\n' text.toList).map dropReturn).getD above.length [] = _
    rw [htext, hsplit hnext, List.map_append, List.map_cons, hdrop]
    simp
  rw [hspot, hposition, position, hlines, columnAt_size]

/-- A character of the code has its place behind the code before it. -/
theorem mem_stream_after {text : String} {front rest : List Char} {c : Char} (hc : c ≠ '\n')
    (h : maskText .code none text.toList = front ++ c :: rest) :
    (c, Spot.origin.after front) ∈ (ofText text).stream := by
  obtain ⟨above, last, -, hcut, hspot, -⟩ := exists_cut front
  obtain ⟨first, others, hrest⟩ := List.exists_cons_of_ne_nil (splitAtChar_ne_nil '\n' rest)
  have hnext : splitAtChar '\n' (c :: rest) = (c :: first) :: others := by
    rw [splitAtChar, if_neg hc, hrest]
  have hcode : (ofText text).code = above ++ (last ++ c :: first) :: others := by
    show maskCode (splitLines text) = _
    rw [maskCode_splitLines, h, hcut hnext]
  rw [mem_stream, hspot, hcode]
  exact ⟨last, first, by simp, rfl⟩

end Source

/-! ### Braces -/

/-- The braces of a text that begins at a spot. -/
def bracesAfter : Spot → List Char → List Brace
  | _, [] => []
  | spot, c :: rest => (brace? (c, spot)).toList ++ bracesAfter (spot.step c) rest

theorem bracesAfter_append (spot : Spot) (a b : List Char) :
    bracesAfter spot (a ++ b) = bracesAfter spot a ++ bracesAfter (spot.after a) b := by
  induction a generalizing spot with
  | nil => rfl
  | cons c rest ih =>
    rw [List.cons_append, bracesAfter, bracesAfter, ih, List.append_assoc]
    rfl

/-- Cutting a text into lines keeps its braces. -/
theorem bracesAfter_eq {text : List Char} {first : Line} {others : List Line} (spot : Spot)
    (h : splitAtChar '\n' text = first :: others) :
    bracesAfter spot text
      = bracesInLine spot.line spot.offset first ++ braces (spot.line + 1) others := by
  induction text generalizing spot first others with
  | nil =>
    obtain ⟨rfl, rfl⟩ : first = [] ∧ others = [] := by simpa [splitAtChar, eq_comm] using h
    rfl
  | cons c rest ih =>
    obtain ⟨next, below, hrest⟩ := List.exists_cons_of_ne_nil (splitAtChar_ne_nil '\n' rest)
    rw [bracesAfter, ih _ hrest]
    by_cases hc : c = '\n'
    · rw [splitAtChar, if_pos hc, hrest] at h
      obtain ⟨rfl, rfl⟩ : [] = first ∧ next :: below = others := by simpa using h
      rw [Spot.step, if_pos hc, hc]
      rfl
    · rw [splitAtChar, if_neg hc, hrest] at h
      obtain ⟨rfl, rfl⟩ : c :: next = first ∧ below = others := by simpa using h
      rw [Spot.step, if_neg hc, bracesInLine_eq, bracesInLine_eq, lineStream, List.filterMap_cons]
      cases brace? (c, spot) <;> rfl

/-- The word of the braces does not depend on where the text begins. -/
theorem map_opens_bracesAfter (spot : Spot) (text : List Char) :
    (bracesAfter spot text).map (·.opens) = text.filterMap nesting? := by
  induction text generalizing spot with
  | nil => rfl
  | cons c rest ih =>
    rw [bracesAfter, List.map_append, ih, List.filterMap_cons]
    cases hc : nesting? c <;> simp [brace?, hc]

end ScriptServer
