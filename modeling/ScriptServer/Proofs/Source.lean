import ScriptServer.Proofs.Text.Mask
import ScriptServer.Source

namespace ScriptServer

/-!
# Spots and positions

Code is searched by line and byte, and answered in lines and columns.  The two agree where code
is visible: blanked characters may share a column, what is left of the code does not.

* `Source.stream` — the characters of the code in order, each with its spot.
* `Source.Visible` — a spot where a character of the code stands that is not blank.
* `Source.exists_position_of_mem_stream` — the column of a visible spot counts the characters before
  it on the line as written.
* `Source.position_lt_iff`, `Source.position_le_iff` — visible spots and their positions are in the
  same order.
-/

open Text

theorem Position.lt_def {p q : Position} :
    p < q ↔ p.line < q.line ∨ p.line = q.line ∧ p.column < q.column := Iff.rfl

theorem Position.le_def {p q : Position} :
    p ≤ q ↔ p.line < q.line ∨ p.line = q.line ∧ p.column ≤ q.column := Iff.rfl

theorem Position.lt_irrefl {p : Position} : ¬ p < p := by
  rw [Position.lt_def]
  omega

theorem Position.lt_trans {p q r : Position} (hpq : p < q) (hqr : q < r) : p < r := by
  rw [Position.lt_def] at *
  omega

theorem Position.not_le {p q : Position} : ¬ p ≤ q ↔ q < p := by
  rw [Position.le_def, Position.lt_def]
  omega

theorem Position.le_refl (p : Position) : p ≤ p := by
  rw [Position.le_def]
  omega

theorem Position.le_trans {p q r : Position} (hpq : p ≤ q) (hqr : q ≤ r) : p ≤ r := by
  rw [Position.le_def] at *
  omega

theorem Position.le_of_lt {p q : Position} (h : p < q) : p ≤ q := by
  rw [Position.lt_def] at h
  rw [Position.le_def]
  omega

theorem Position.lt_of_lt_of_le {p q r : Position} (hpq : p < q) (hqr : q ≤ r) : p < r := by
  rw [Position.lt_def] at *
  rw [Position.le_def] at hqr
  omega

theorem Position.le_antisymm {p q : Position} (hpq : p ≤ q) (hqp : q ≤ p) : p = q := by
  obtain ⟨line, column⟩ := p
  obtain ⟨line', column'⟩ := q
  rw [Position.le_def] at hpq hqp
  obtain ⟨hline, hcolumn⟩ : line = line' ∧ column = column' := by
    simp only at hpq hqp
    omega
  rw [hline, hcolumn]

theorem Position.origin_le (p : Position) : Position.origin ≤ p := by
  rw [Position.le_def]
  show 0 < p.line ∨ 0 = p.line ∧ 0 ≤ p.column
  omega

namespace Spot

/-- Earlier in the code, or the same spot. -/
protected def le (a b : Spot) : Prop :=
  a.line < b.line ∨ (a.line = b.line ∧ a.offset ≤ b.offset)

/-- Strictly earlier in the code. -/
protected def lt (a b : Spot) : Prop :=
  a.line < b.line ∨ (a.line = b.line ∧ a.offset < b.offset)

instance : LE Spot := ⟨Spot.le⟩

instance : LT Spot := ⟨Spot.lt⟩

instance (a b : Spot) : Decidable (a ≤ b) :=
  inferInstanceAs (Decidable (a.line < b.line ∨ (a.line = b.line ∧ a.offset ≤ b.offset)))

theorem lt_def {a b : Spot} :
    a < b ↔ a.line < b.line ∨ a.line = b.line ∧ a.offset < b.offset := Iff.rfl

theorem le_def {a b : Spot} :
    a ≤ b ↔ a.line < b.line ∨ a.line = b.line ∧ a.offset ≤ b.offset := Iff.rfl

end Spot

/-! ### The characters of code -/

/-- The characters of the rest of a line that begins at a byte offset, each with its spot. -/
def lineStream (number : Nat) : Nat → Line → List (Char × Spot)
  | _, [] => []
  | offset, c :: rest => (c, ⟨number, offset⟩) :: lineStream number (offset + c.utf8Size) rest

/-- The characters of lines of code, the first of which has this number, each with its spot. -/
def codeStream : Nat → List Line → List (Char × Spot)
  | _, [] => []
  | number, line :: rest => lineStream number 0 line ++ codeStream (number + 1) rest

theorem mem_lineStream {number offset : Nat} {line : Line} {c : Char} {spot : Spot} :
    (c, spot) ∈ lineStream number offset line
      ↔ ∃ before after, line = before ++ c :: after ∧ spot = ⟨number, offset + size before⟩ := by
  induction line generalizing offset with
  | nil => simp [lineStream]
  | cons d rest ih =>
    rw [lineStream, List.mem_cons, ih]
    constructor
    · rintro (heq | ⟨before, after, rfl, rfl⟩)
      · cases heq
        exact ⟨[], rest, rfl, by simp [size]⟩
      · refine ⟨d :: before, after, rfl, ?_⟩
        rw [size, Nat.add_assoc]
    · rintro ⟨before, after, hline, rfl⟩
      cases before with
      | nil =>
        obtain ⟨rfl, rfl⟩ : d = c ∧ rest = after := by simpa using hline
        exact .inl (by simp [size])
      | cons e before =>
        obtain ⟨rfl, hrest⟩ : d = e ∧ rest = before ++ c :: after := by simpa using hline
        exact .inr ⟨before, after, hrest, by rw [size, Nat.add_assoc]⟩

theorem mem_codeStream {number : Nat} {lines : List Line} {c : Char} {spot : Spot} :
    (c, spot) ∈ codeStream number lines
      ↔ number ≤ spot.line ∧ ∃ before after,
          lines.getD (spot.line - number) [] = before ++ c :: after ∧ size before = spot.offset := by
  induction lines generalizing number with
  | nil => simp [codeStream]
  | cons line rest ih =>
    rw [codeStream, List.mem_append, mem_lineStream, ih]
    constructor
    · rintro (⟨before, after, rfl, rfl⟩ | ⟨hle, before, after, hline, hsize⟩)
      · exact ⟨Nat.le_refl _, before, after, by simp, by simp⟩
      · refine ⟨by omega, before, after, ?_, hsize⟩
        rw [show spot.line - number = spot.line - (number + 1) + 1 by omega, List.getD_cons_succ]
        exact hline
    · rintro ⟨hle, before, after, hline, hsize⟩
      rcases Nat.lt_or_eq_of_le hle with hlt | heq
      · refine .inr ⟨hlt, before, after, ?_, hsize⟩
        rw [show spot.line - number = spot.line - (number + 1) + 1 by omega,
          List.getD_cons_succ] at hline
        exact hline
      · subst heq
        refine .inl ⟨before, after, by simpa using hline, ?_⟩
        rw [hsize, Nat.zero_add]

/-- The characters of a line come one after the other. -/
theorem pairwise_lineStream (number offset : Nat) (line : Line) :
    (lineStream number offset line).Pairwise (fun a b => a.2 < b.2) := by
  induction line generalizing offset with
  | nil => exact .nil
  | cons c rest ih =>
    rw [lineStream, List.pairwise_cons]
    refine ⟨?_, ih _⟩
    rintro ⟨d, spot⟩ hmem
    obtain ⟨before, after, -, rfl⟩ := mem_lineStream.mp hmem
    have hc := c.utf8Size_pos
    refine .inr ⟨rfl, ?_⟩
    show offset < offset + c.utf8Size + size before
    omega

/-- The characters of code come one after the other, so no spot comes twice. -/
theorem pairwise_codeStream (number : Nat) (lines : List Line) :
    (codeStream number lines).Pairwise (fun a b => a.2 < b.2) := by
  induction lines generalizing number with
  | nil => exact .nil
  | cons line rest ih =>
    rw [codeStream, List.pairwise_append]
    refine ⟨pairwise_lineStream number 0 line, ih (number + 1), ?_⟩
    rintro ⟨c, a⟩ ha ⟨d, b⟩ hb
    obtain ⟨-, -, -, rfl⟩ := mem_lineStream.mp ha
    have hle := (mem_codeStream.mp hb).1
    exact .inl hle

namespace Source

/-- The characters of the code in order, each with its spot. -/
def stream (source : Source) : List (Char × Spot) := codeStream 0 source.code

/-- Whether a character of the code stands at a spot that is not blank. -/
def Visible (source : Source) (spot : Spot) : Prop :=
  ∃ c, (c, spot) ∈ source.stream ∧ c ≠ ' '

theorem mem_stream {source : Source} {c : Char} {spot : Spot} :
    (c, spot) ∈ source.stream ↔ ∃ before after,
      source.code.getD spot.line [] = before ++ c :: after ∧ size before = spot.offset := by
  rw [stream, mem_codeStream]
  simp

/-! ### Positions of visible spots -/

/-- **Where an editor shows a character of the code.**  The character stands in the line as written
    too, and the column counts the code units before it. -/
theorem exists_position_of_mem_stream {text : String} {c : Char} {spot : Spot}
    (h : (c, spot) ∈ (ofText text).stream) (hc : c ≠ ' ') :
    ∃ left right, (ofText text).lines.getD spot.line [] = left ++ c :: right
      ∧ size left = spot.offset
      ∧ (ofText text).position spot = ⟨spot.line, width left⟩ := by
  obtain ⟨before, after, hcode, hsize⟩ := mem_stream.mp h
  have hblanks := blanks_maskCode (splitLines text) spot.line
  rw [show (maskCode (splitLines text)).getD spot.line [] = before ++ c :: after from hcode]
    at hblanks
  obtain ⟨left, right, hline, hleft, -⟩ := hblanks.exists_of_visible hc
  have hoffset : size left = spot.offset := by rw [← hleft.size_eq, hsize]
  refine ⟨left, right, hline, hoffset, ?_⟩
  rw [position, ← hoffset, show (ofText text).lines.getD spot.line [] = left ++ c :: right from hline,
    columnAt_size]

theorem isBoundary_of_visible {text : String} {spot : Spot} (h : (ofText text).Visible spot) :
    IsBoundary ((ofText text).lines.getD spot.line []) spot.offset := by
  obtain ⟨c, hmem, hc⟩ := h
  obtain ⟨left, right, hline, hoffset, -⟩ := exists_position_of_mem_stream hmem hc
  exact ⟨left, c :: right, hline, hoffset⟩

/-- Visible spots are ordered as their positions are. -/
theorem position_lt_iff {text : String} {a b : Spot} (ha : (ofText text).Visible a)
    (hb : (ofText text).Visible b) :
    (ofText text).position a < (ofText text).position b ↔ a < b := by
  rw [Position.lt_def, Spot.lt_def]
  show a.line < b.line ∨ a.line = b.line ∧ _ ↔ _
  by_cases hline : a.line = b.line
  · have hbound := isBoundary_of_visible ha
    have hbound' := isBoundary_of_visible hb
    rw [← hline] at hbound'
    have hiff := columnAt_lt_columnAt_iff hbound hbound'
    show _ ∨ _ ∧ columnAt _ a.offset < columnAt ((ofText text).lines.getD b.line []) b.offset ↔ _
    rw [← hline, hiff]
  · simp [hline]

theorem position_le_iff {text : String} {a b : Spot} (ha : (ofText text).Visible a)
    (hb : (ofText text).Visible b) :
    (ofText text).position a ≤ (ofText text).position b ↔ a ≤ b := by
  have hlt := position_lt_iff hb ha
  rw [Position.lt_def, Spot.lt_def] at hlt
  rw [Position.le_def, Spot.le_def]
  omega

end Source

end ScriptServer
