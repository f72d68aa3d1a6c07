import Mathlib.Data.Nat.Basic
import Mathlib.Order.Bounds.Defs
import Mathlib.Order.Monotone.Defs
import ScriptServer.Proofs.Text.Column

namespace ScriptServer.Text

/-!
# From offsets to columns and back

An offset that lies inside a character is rounded down to a boundary before its column is taken, a
column that lies inside a character is rounded up.  On boundaries nothing is rounded, and there the
two ways undo each other.

* `isBoundary_cons` — the boundaries of a line behind its first character.
* `exists_floor` — the column of an offset is the column of the greatest boundary not above it.
* `offsetAt_of_width_lt` — a column past the end leads to the end.
* `exists_ceiling` — a column leads to the boundary with the least column that reaches it.
* `columns_round_trip` — all of it together.
-/

/-- The beginning of a line is a boundary. -/
theorem isBoundary_zero (line : Line) : IsBoundary line 0 := ⟨[], line, rfl, rfl⟩

/-- Every boundary but the first lies behind the first character. -/
theorem isBoundary_cons {c : Char} {rest : Line} {offset : Nat} :
    IsBoundary (c :: rest) offset
      ↔ offset = 0 ∨ ∃ behind, IsBoundary rest behind ∧ offset = c.utf8Size + behind := by
  constructor
  · rintro ⟨_ | ⟨d, before⟩, after, hline, rfl⟩
    · exact .inl rfl
    · obtain ⟨rfl, rfl⟩ : c = d ∧ rest = before ++ after := by simpa using hline
      exact .inr ⟨size before, ⟨before, after, rfl, rfl⟩, rfl⟩
  · rintro (rfl | ⟨_, ⟨before, after, rfl, rfl⟩, rfl⟩)
    · exact isBoundary_zero _
    · exact ⟨c :: before, after, rfl, rfl⟩

/-- No column lies past the end of the line. -/
theorem columnAt_le_width (line : Line) (offset : Nat) : columnAt line offset ≤ width line := by
  induction line generalizing offset with
  | nil => exact Nat.le_refl 0
  | cons c rest ih =>
    have hrest := ih (offset - c.utf8Size)
    rw [columnAt, width]
    split <;> omega

/-- **Offsets are rounded down.**  The column of an offset, which may lie inside a character or past
    the end, is the column of the greatest boundary that is not above it. -/
theorem exists_floor (line : Line) (offset : Nat) :
    ∃ floor, IsGreatest {b | IsBoundary line b ∧ b ≤ offset} floor
      ∧ columnAt line offset = columnAt line floor := by
  induction line generalizing offset with
  | nil =>
    refine ⟨0, ⟨⟨isBoundary_zero [], Nat.zero_le _⟩, ?_⟩, rfl⟩
    rintro _ ⟨⟨before, after, hline, rfl⟩, -⟩
    obtain ⟨rfl, -⟩ := List.append_eq_nil_iff.mp hline.symm
    exact Nat.le_refl 0
  | cons c rest ih =>
    by_cases hle : c.utf8Size ≤ offset
    · -- the first character lies before the offset, the rest is rounded
      obtain ⟨floor, ⟨⟨hboundary, hfloor⟩, hgreatest⟩, hcolumn⟩ := ih (offset - c.utf8Size)
      refine ⟨c.utf8Size + floor,
        ⟨⟨isBoundary_cons.mpr (.inr ⟨floor, hboundary, rfl⟩), by omega⟩, ?_⟩, ?_⟩
      · rintro b ⟨hb, hbelow⟩
        rcases isBoundary_cons.mp hb with rfl | ⟨behind, hbehind, rfl⟩
        · exact Nat.zero_le _
        · have hmost : behind ≤ floor := hgreatest ⟨hbehind, by omega⟩
          omega
      · rw [columnAt, columnAt, if_pos hle, if_pos (Nat.le_add_right _ _), hcolumn,
          Nat.add_sub_cancel_left]
    · -- the offset lies before the end of the first character
      refine ⟨0, ⟨⟨isBoundary_zero _, Nat.zero_le _⟩, ?_⟩, ?_⟩
      · rintro b ⟨hb, hbelow⟩
        rcases isBoundary_cons.mp hb with rfl | ⟨behind, -, rfl⟩
        · exact Nat.le_refl 0
        · omega
      · rw [columnAt_zero, columnAt, if_neg hle]

/-- The column of a boundary leads back to it. -/
theorem offsetAt_columnAt {line : Line} {offset : Nat} (h : IsBoundary line offset) :
    offsetAt line (columnAt line offset) = offset := by
  obtain ⟨before, after, rfl, rfl⟩ := h
  rw [columnAt_size, offsetAt_width]

/-- A column past the end leads to the end. -/
theorem offsetAt_of_width_lt {line : Line} {column : Nat} (h : width line < column) :
    offsetAt line column = size line := by
  induction line generalizing column with
  | nil => rfl
  | cons c rest ih =>
    rw [width] at h
    rw [offsetAt, if_neg (by omega), ih (by omega), size]

/-- **Columns are rounded up.**  A column that the line reaches leads to a boundary, and the column
    of this boundary is the least one that is not below the given column. -/
theorem exists_ceiling {line : Line} {column : Nat} (h : column ≤ width line) :
    IsLeast {k | column ≤ k ∧ ∃ b, IsBoundary line b ∧ columnAt line b = k}
      (columnAt line (offsetAt line column)) := by
  obtain ⟨head, tail, rfl, hoffset, hshortest⟩ := exists_offsetAt_shortest h
  have hcolumn : columnAt (head ++ tail) (size head) = width head := columnAt_size head tail
  rw [hoffset]
  refine ⟨⟨?_, size head, ⟨head, tail, rfl, rfl⟩, rfl⟩, ?_⟩
  · rw [hcolumn]
    exact (hshortest head (List.prefix_append head tail)).mpr (List.prefix_refl head)
  · rintro _ ⟨hreaches, _, ⟨front, rest, hline, rfl⟩, rfl⟩
    have hfront : columnAt (head ++ tail) (size front) = width front := by
      rw [hline]
      exact columnAt_size front rest
    rw [hfront] at hreaches
    have hbegins : head <+: front := (hshortest front ⟨rest, hline.symm⟩).mp hreaches
    rw [hcolumn, hfront]
    exact width_le_width hbegins

/-- **Columns and offsets of a line.**  On boundaries they undo each other and are in the same
    order; an offset that is no boundary has the column of the greatest boundary below it; a column
    leads to the boundary with the least column that reaches it, or to the end of the line when no
    boundary does.  No count exceeds the code units of the line. -/
theorem columns_round_trip (line : Line) :
    (∀ b, IsBoundary line b → offsetAt line (columnAt line b) = b)
      ∧ (∀ b, ∃ floor, IsGreatest {x | IsBoundary line x ∧ x ≤ b} floor
          ∧ columnAt line b = columnAt line floor)
      ∧ StrictMonoOn (columnAt line) {b | IsBoundary line b}
      ∧ (∀ c, IsBoundary line (offsetAt line c)
          ∧ (IsLeast {k | c ≤ k ∧ ∃ b, IsBoundary line b ∧ columnAt line b = k}
                (columnAt line (offsetAt line c))
              ∨ (∀ b, IsBoundary line b → columnAt line b < c) ∧ offsetAt line c = size line))
      ∧ ∀ b, columnAt line b ≤ width line := by
  refine ⟨fun b hb => offsetAt_columnAt hb, exists_floor line, ?_, ?_, columnAt_le_width line⟩
  · intro a ha b hb hlt
    exact columnAt_lt_columnAt ha hb hlt
  · intro c
    obtain ⟨head, tail, hline, hoffset⟩ := exists_offsetAt_eq line c
    refine ⟨⟨head, tail, hline, hoffset.symm⟩, ?_⟩
    rcases Nat.lt_or_ge (width line) c with hpast | hreached
    · refine .inr ⟨fun b _ => ?_, offsetAt_of_width_lt hpast⟩
      exact Nat.lt_of_le_of_lt (columnAt_le_width line b) hpast
    · exact .inl (exists_ceiling hreached)

-- the second character takes four bytes and two code units
example : columnAt ['a', '😀', 'b'] 3 = 1 ∧ offsetAt ['a', '😀', 'b'] 2 = 5
    ∧ columnAt ['a', '😀', 'b'] 5 = 3 ∧ offsetAt ['a', '😀', 'b'] 3 = 5 := by decide

end ScriptServer.Text
