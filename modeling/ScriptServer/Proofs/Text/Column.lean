import Mathlib.Tactic.ByContra
import ScriptServer.Text.Line

namespace ScriptServer.Text

/-!
# Offsets and columns

Offsets count bytes and columns count code units, and a line relates the two.

* `IsBoundary` — an offset between two characters of a line, or at one of its ends.
* `columnAt_size` — the column of a boundary is the width of what stands before it.
* `columnAt_lt_columnAt_iff` — on boundaries columns are ordered as offsets are.
* `splitAtOffset_size`, `exists_offsetAt_eq` — lines are cut at boundaries, and every column leads
  to one.
* `offsetAt_append`, `offsetAt_append_of_le`, `offsetAt_around` — columns on a part of a line.
* `exists_offsetAt_shortest` — a column leads to the end of the shortest part of the line that
  reaches it.
-/

theorem units_pos (c : Char) : 0 < units c := by
  unfold units
  split <;> omega

@[simp] theorem size_append (a b : Line) : size (a ++ b) = size a + size b := by
  induction a with
  | nil => simp [size]
  | cons c rest ih =>
    rw [List.cons_append, size, size, ih]
    omega

@[simp] theorem width_append (a b : Line) : width (a ++ b) = width a + width b := by
  induction a with
  | nil => simp [width]
  | cons c rest ih =>
    rw [List.cons_append, width, width, ih]
    omega

theorem size_pos {line : Line} (h : line ≠ []) : 0 < size line := by
  cases line with
  | nil => exact absurd rfl h
  | cons c rest =>
    have hc := c.utf8Size_pos
    rw [size]
    omega

theorem width_pos {line : Line} (h : line ≠ []) : 0 < width line := by
  cases line with
  | nil => exact absurd rfl h
  | cons c rest =>
    have hc := units_pos c
    rw [width]
    omega

theorem width_le_width {front line : Line} (h : front <+: line) : width front ≤ width line := by
  obtain ⟨rest, rfl⟩ := h
  rw [width_append]
  exact Nat.le_add_right _ _

theorem width_eq_add_one {line : Line} (hne : line ≠ [])
    (hlast : ∀ c ∈ line.getLast?, units c = 1) : width line = width line.dropLast + 1 := by
  obtain ⟨most, last, rfl⟩ := (List.eq_nil_or_concat line).resolve_left hne
  rw [List.concat_eq_append] at hlast ⊢
  rw [List.dropLast_concat, width_append, width, hlast last List.getLast?_concat, width]

/-- An offset before or after a character of a line. -/
def IsBoundary (line : Line) (offset : Nat) : Prop :=
  ∃ before after, line = before ++ after ∧ size before = offset

/-- The column of an offset behind some characters is counted from them on. -/
theorem columnAt_append (before after : Line) (offset : Nat) :
    columnAt (before ++ after) (size before + offset) = width before + columnAt after offset := by
  induction before with
  | nil => simp [size, width]
  | cons c rest ih =>
    have hle : c.utf8Size ≤ size (c :: rest) + offset := by
      rw [size]
      omega
    have hsub : size (c :: rest) + offset - c.utf8Size = size rest + offset := by
      rw [size]
      omega
    rw [List.cons_append, columnAt, if_pos hle, hsub, ih, width]
    omega

@[simp] theorem columnAt_zero (line : Line) : columnAt line 0 = 0 := by
  cases line with
  | nil => rfl
  | cons c rest =>
    have hc := c.utf8Size_pos
    rw [columnAt, if_neg (by omega)]

/-- The column of a boundary is the width of the characters before it. -/
theorem columnAt_size (before after : Line) :
    columnAt (before ++ after) (size before) = width before := by
  have h := columnAt_append before after 0
  rw [columnAt_zero] at h
  simpa using h

/-- Of two beginnings of a line the one with fewer bytes is a beginning of the other. -/
theorem exists_append_of_size_le {line a b x y : Line} (ha : line = a ++ x)
    (hb : line = b ++ y) (hle : size a ≤ size b) : ∃ gap, b = a ++ gap := by
  have hprefix : a <+: b ∨ b <+: a :=
    List.prefix_or_prefix_of_prefix ⟨x, ha.symm⟩ ⟨y, hb.symm⟩
  rcases hprefix with ⟨gap, hgap⟩ | ⟨gap, hgap⟩
  · exact ⟨gap, hgap.symm⟩
  · have hnil : gap = [] := by
      by_contra hne
      have hpos := size_pos hne
      rw [← hgap, size_append] at hle
      omega
    refine ⟨[], ?_⟩
    rw [← hgap, hnil, List.append_nil, List.append_nil]

/-- **Columns follow offsets.**  On the boundaries of a line columns grow with offsets. -/
theorem columnAt_lt_columnAt {line : Line} {offset other : Nat} (h : IsBoundary line offset)
    (hother : IsBoundary line other) (hlt : offset < other) :
    columnAt line offset < columnAt line other := by
  obtain ⟨a, x, ha, rfl⟩ := h
  obtain ⟨b, y, hb, rfl⟩ := hother
  obtain ⟨gap, rfl⟩ := exists_append_of_size_le ha hb (Nat.le_of_lt hlt)
  have hgap : gap ≠ [] := by
    rintro rfl
    simp at hlt
  have hpos := width_pos hgap
  have hcolumn : columnAt line (size a) = width a := by rw [ha]; exact columnAt_size a x
  have hcolumn' : columnAt line (size (a ++ gap)) = width (a ++ gap) := by
    rw [hb]
    exact columnAt_size _ y
  rw [hcolumn, hcolumn', width_append]
  omega

theorem columnAt_lt_columnAt_iff {line : Line} {offset other : Nat}
    (h : IsBoundary line offset) (hother : IsBoundary line other) :
    columnAt line offset < columnAt line other ↔ offset < other := by
  constructor
  · intro hlt
    by_contra hnot
    rcases Nat.lt_or_eq_of_le (Nat.le_of_not_lt hnot) with hgt | heq
    · have := columnAt_lt_columnAt hother h hgt
      omega
    · rw [heq] at hlt
      omega
  · exact columnAt_lt_columnAt h hother

/-! ### Cutting a line at an offset -/

theorem splitAtOffset_size (a b : Line) : splitAtOffset (a ++ b) (size a) = (a, b) := by
  induction a with
  | nil =>
    cases b with
    | nil => rfl
    | cons c rest =>
      have hc := c.utf8Size_pos
      rw [List.nil_append, size, splitAtOffset, if_neg (by omega)]
  | cons c rest ih =>
    have hsub : size (c :: rest) - c.utf8Size = size rest := by
      rw [size]
      omega
    rw [List.cons_append, splitAtOffset, if_pos (by rw [size]; omega), hsub, ih]

/-- The offset of a column lies between two characters. -/
theorem exists_offsetAt_eq (line : Line) (column : Nat) :
    ∃ head tail, line = head ++ tail ∧ offsetAt line column = size head := by
  induction line generalizing column with
  | nil => exact ⟨[], [], rfl, rfl⟩
  | cons c rest ih =>
    rw [offsetAt]
    split
    · exact ⟨[], c :: rest, rfl, rfl⟩
    · obtain ⟨head, tail, hrest, hoffset⟩ := ih (column - units c)
      exact ⟨c :: head, tail, by rw [List.cons_append, ← hrest], by rw [size, hoffset]⟩

theorem offsetAt_pos {line : Line} {column : Nat} (hline : line ≠ []) (hcolumn : 0 < column) :
    0 < offsetAt line column := by
  obtain ⟨c, rest, rfl⟩ := List.exists_cons_of_ne_nil hline
  have hc := c.utf8Size_pos
  rw [offsetAt, if_neg (by omega)]
  omega

/-- Columns behind some characters are counted from them on. -/
theorem offsetAt_append (before after : Line) (column : Nat) :
    offsetAt (before ++ after) (width before + column) = size before + offsetAt after column := by
  induction before with
  | nil => simp [size, width]
  | cons c rest ih =>
    have hpos := units_pos c
    have hne : width (c :: rest) + column ≠ 0 := by
      rw [width]
      omega
    have hsub : width (c :: rest) + column - units c = width rest + column := by
      rw [width]
      omega
    rw [List.cons_append, offsetAt, if_neg hne, hsub, ih, size]
    omega

/-- The column of a place leads back to its offset. -/
theorem offsetAt_width (left right : Line) : offsetAt (left ++ right) (width left) = size left := by
  have h := offsetAt_append left right 0
  have hzero : offsetAt right 0 = 0 := by cases right <;> rfl
  rwa [hzero, Nat.add_zero, Nat.add_zero] at h

/-- What follows a line does not matter for the columns on it. -/
theorem offsetAt_append_of_le {line : Line} {column : Nat} (h : column ≤ width line)
    (rest : Line) : offsetAt (line ++ rest) column = offsetAt line column := by
  induction line generalizing column with
  | nil =>
    obtain rfl : column = 0 := by simpa [width] using h
    cases rest <;> rfl
  | cons c line ih =>
    have hle : column - units c ≤ width line := by
      rw [width] at h
      omega
    rw [List.cons_append, offsetAt, offsetAt, ih hle]

/-- **What a column leads to:** it cuts a line in two, and the part before the cut is the shortest
    one that reaches the column. -/
theorem exists_offsetAt_shortest {line : Line} {column : Nat} (h : column ≤ width line) :
    ∃ head tail, line = head ++ tail ∧ offsetAt line column = size head
      ∧ ∀ front, front <+: line → (column ≤ width front ↔ head <+: front) := by
  induction line generalizing column with
  | nil =>
    refine ⟨[], [], rfl, rfl, fun front _ => ⟨fun _ => List.nil_prefix, fun _ => ?_⟩⟩
    exact Nat.le_trans h (Nat.zero_le _)
  | cons c rest ih =>
    by_cases hzero : column = 0
    · subst hzero
      exact ⟨[], c :: rest, rfl, rfl,
        fun front _ => ⟨fun _ => List.nil_prefix, fun _ => Nat.zero_le _⟩⟩
    · -- the first character is taken whole, even if the column lies in the middle of it
      have hle : column - units c ≤ width rest := by
        rw [width] at h
        omega
      obtain ⟨head, tail, rfl, hoffset, hfront⟩ := ih hle
      refine ⟨c :: head, tail, rfl, by rw [offsetAt, if_neg hzero, hoffset, size], ?_⟩
      rintro (_ | ⟨d, front⟩) hstart
      · refine ⟨fun hcolumn => absurd (Nat.le_zero.mp hcolumn) hzero, fun hhead => ?_⟩
        exact absurd (List.prefix_nil.mp hhead) (by simp)
      · obtain ⟨rfl, hbelow⟩ := List.cons_prefix_cons.mp hstart
        rw [List.cons_prefix_cons, ← hfront front hbelow, width]
        simp only [true_and]
        omega

theorem offsetAt_around {middle : Line} {column : Nat} (h : column ≤ width middle)
    (before after : Line) : offsetAt (before ++ middle ++ after) (width before + column)
      = size before + offsetAt middle column := by
  rw [List.append_assoc, offsetAt_append, offsetAt_append_of_le h]

end ScriptServer.Text
