import Mathlib.Data.List.Induction
import Mathlib.Data.List.Infix
import ScriptServer.Proofs.Text.Region

namespace ScriptServer.Text

/-!
# Blank lines and trimming

* `isBlankLine_or_exists_last` — a line is blank, or it has a last character that is no blank.
* `trimEnd_last`, `last_inj` — trimming stops at this character, and the line tells which it is.
* `trim_append_cons` — what stands around a character that is no blank is trimmed on its own side.
* `exists_eq_append_trim`, `mem_trim` — trimming takes blanks, and nothing but blanks.
* `trim_eq_self_iff` — a line that trimming leaves alone, told from its two ends.
-/

/-! ### Blank lines -/

/-- A character that is no blank does not stand in a blank line. -/
theorem not_mem_of_isBlankLine {line : Line} (h : isBlankLine line = true) {c : Char}
    (hc : isBlank c = false) : c ∉ line := by
  intro hmem
  rw [List.all_eq_true.mp h c hmem] at hc
  cases hc

theorem isBlankLine_append {a b : Line} (ha : isBlankLine a = true) (hb : isBlankLine b = true) :
    isBlankLine (a ++ b) = true := by
  simp only [isBlankLine, List.all_append, Bool.and_eq_true] at ha hb ⊢
  exact ⟨ha, hb⟩

theorem isBlankLine_blank (c : Char) : isBlankLine (blank c) = true := by
  rw [isBlankLine, List.all_eq_true]
  intro d hd
  rw [List.eq_of_mem_replicate hd]
  decide

/-- Blanks are taken as long as they go. -/
theorem isBlankLine_takeWhile (text : Line) : isBlankLine (text.takeWhile isBlank) = true := by
  simp [isBlankLine]

theorem isBlankLine_dropReturn {line : Line} (h : isBlankLine line = true) :
    isBlankLine (dropReturn line) = true := by
  rcases dropReturn_eq line with heq | heq
  · rw [heq]
    exact h
  · rw [heq, isBlankLine, List.all_append, Bool.and_eq_true] at h
    exact h.1

/-- A line is blank, or it has a last character that is no blank. -/
theorem isBlankLine_or_exists_last (line : Line) :
    isBlankLine line = true ∨ ∃ before c gap, line = before ++ c :: gap ∧ isBlank c = false
      ∧ isBlankLine gap = true := by
  induction line with
  | nil => exact .inl rfl
  | cons c rest ih =>
    rcases ih with hblank | ⟨before, d, gap, rfl, hd, hgap⟩
    · by_cases hc : isBlank c = true
      · exact .inl (by simpa [isBlankLine, hc] using hblank)
      · exact .inr ⟨[], c, rest, rfl, by simpa using hc, hblank⟩
    · exact .inr ⟨c :: before, d, gap, rfl, hd, hgap⟩

/-! ### Trimming at the front -/

theorem takeWhile_append_trimStart (text : Line) :
    text.takeWhile isBlank ++ trimStart text = text :=
  List.takeWhile_append_dropWhile

theorem trimStart_append {gap : Line} (h : isBlankLine gap = true) (line : Line) :
    trimStart (gap ++ line) = trimStart line := by
  induction gap with
  | nil => rfl
  | cons c rest ih =>
    obtain ⟨hc, hrest⟩ : isBlank c = true ∧ isBlankLine rest = true := by
      simpa [isBlankLine] using h
    rw [List.cons_append, trimStart, List.dropWhile_cons_of_pos hc]
    exact ih hrest

theorem trimStart_of_head {c : Char} (hc : isBlank c = false) (rest : Line) :
    trimStart (c :: rest) = c :: rest :=
  List.dropWhile_cons_of_neg (by simp [hc])

theorem trimStart_append_cons (before : Line) {c : Char} (hc : isBlank c = false) (after : Line) :
    trimStart (before ++ c :: after) = trimStart before ++ c :: after := by
  induction before with
  | nil => exact trimStart_of_head hc after
  | cons d before ih =>
    cases hd : isBlank d with
    | true =>
      have hgap : isBlankLine [d] = true := by simp [isBlankLine, hd]
      have hfront := trimStart_append hgap before
      have hline := trimStart_append hgap (before ++ c :: after)
      rw [List.singleton_append] at hfront hline
      rw [hfront, List.cons_append, hline, ih]
    | false => rw [List.cons_append, trimStart_of_head hd, trimStart_of_head hd, List.cons_append]

theorem trimStart_eq_self_iff {line : Line} :
    trimStart line = line ↔ ∀ c ∈ line.head?, isBlank c = false := by
  cases line with
  | nil => simp [trimStart]
  | cons c rest => simp [trimStart]

/-! ### Trimming at the end -/

/-- Trimming takes blanks from the end. -/
theorem exists_eq_trimEnd_append (line : Line) :
    ∃ gap, line = trimEnd line ++ gap ∧ isBlankLine gap = true := by
  induction line with
  | nil => exact ⟨[], rfl, rfl⟩
  | cons c rest ih =>
    obtain ⟨gap, hrest, hgap⟩ := ih
    rw [trimEnd]
    split
    · rename_i hnil
      rw [hnil, List.nil_append] at hrest
      subst hrest
      by_cases hc : isBlank c = true
      · refine ⟨c :: rest, by simp [hc], ?_⟩
        simp only [isBlankLine, List.all_cons, hc, Bool.true_and]
        exact hgap
      · exact ⟨rest, by simp [hc], hgap⟩
    · exact ⟨gap, by rw [List.cons_append, ← hrest], hgap⟩

theorem size_trimEnd_le (line : Line) : size (trimEnd line) ≤ size line := by
  obtain ⟨gap, hline, -⟩ := exists_eq_trimEnd_append line
  conv_rhs => rw [hline, size_append]
  omega

theorem trimEnd_of_isBlankLine {gap : Line} (h : isBlankLine gap = true) : trimEnd gap = [] := by
  induction gap with
  | nil => rfl
  | cons c rest ih =>
    obtain ⟨hc, hrest⟩ : isBlank c = true ∧ isBlankLine rest = true := by
      simpa [isBlankLine] using h
    simp [trimEnd, ih hrest, hc]

theorem trimEnd_append_blank (line : Line) {gap : Line} (h : isBlankLine gap = true) :
    trimEnd (line ++ gap) = trimEnd line := by
  induction line with
  | nil => exact trimEnd_of_isBlankLine h
  | cons c rest ih => rw [List.cons_append, trimEnd, trimEnd, ih]

/-- Blanks behind a word are trimmed, and nothing else. -/
theorem trimEnd_append {word gap : Line} (hword : ∀ c ∈ word, isBlank c = false)
    (hgap : isBlankLine gap = true) : trimEnd (word ++ gap) = word := by
  induction word with
  | nil => exact trimEnd_of_isBlankLine hgap
  | cons c rest ih =>
    obtain ⟨hc, hrest⟩ := List.forall_mem_cons.mp hword
    rw [List.cons_append, trimEnd, ih hrest]
    cases rest <;> simp [hc]

theorem trimEnd_append_of_ne_nil (front : Line) {line : Line} (h : trimEnd line ≠ []) :
    trimEnd (front ++ line) = front ++ trimEnd line := by
  induction front with
  | nil => rfl
  | cons c front ih =>
    rw [List.cons_append, trimEnd, ih]
    split
    next hnil => exact absurd (List.append_eq_nil_iff.mp hnil).2 h
    next => rfl

theorem trimEnd_concat (line : Line) {c : Char} (h : isBlank c = false) :
    trimEnd (line ++ [c]) = line ++ [c] := by
  induction line with
  | nil => simp [trimEnd, h]
  | cons d rest ih =>
    rw [List.cons_append, trimEnd, ih]
    cases rest <;> simp

/-- Trimming stops at the last character that is no blank. -/
theorem trimEnd_last (before : Line) {c : Char} {gap : Line} (hc : isBlank c = false)
    (hgap : isBlankLine gap = true) : trimEnd (before ++ c :: gap) = before ++ [c] := by
  have hcons : before ++ c :: gap = (before ++ [c]) ++ gap := by simp
  rw [hcons, trimEnd_append_blank _ hgap, trimEnd_concat _ hc]

/-- This character is told by the line. -/
theorem last_inj {before before' gap gap' : Line} {c c' : Char} (hc : isBlank c = false)
    (hgap : isBlankLine gap = true) (hc' : isBlank c' = false) (hgap' : isBlankLine gap' = true)
    (h : before ++ c :: gap = before' ++ c' :: gap') :
    before = before' ∧ c = c' ∧ gap = gap' := by
  have hfront : before ++ [c] = before' ++ [c'] := by
    rw [← trimEnd_last before hc hgap, h, trimEnd_last before' hc' hgap']
  obtain ⟨rfl, hlast⟩ := List.append_inj' hfront rfl
  obtain ⟨rfl, -⟩ := List.cons.inj hlast
  exact ⟨rfl, rfl, (List.cons.inj (List.append_cancel_left h)).2⟩

theorem trimEnd_append_cons (before : Line) {c : Char} (hc : isBlank c = false) (after : Line) :
    trimEnd (before ++ c :: after) = before ++ c :: trimEnd after := by
  rcases isBlankLine_or_exists_last after with hblank | ⟨front, d, rest, rfl, hd, hrest⟩
  · rw [trimEnd_last before hc hblank, trimEnd_of_isBlankLine hblank]
  · have hline := trimEnd_last (before ++ c :: front) hd hrest
    rw [trimEnd_last front hd hrest]
    simpa using hline

theorem trimEnd_eq_self_iff {line : Line} :
    trimEnd line = line ↔ ∀ c ∈ line.getLast?, isBlank c = false := by
  constructor
  · intro htrim c hc
    rcases isBlankLine_or_exists_last line with hblank | ⟨before, d, gap, rfl, hd, hgap⟩
    · rw [trimEnd_of_isBlankLine hblank] at htrim
      simp [← htrim] at hc
    · rw [trimEnd_last before hd hgap] at htrim
      obtain rfl : [] = gap := (List.cons.inj (List.append_cancel_left htrim)).2
      obtain rfl : d = c := by simpa using hc
      exact hd
  · intro hlast
    cases line using List.reverseRecOn with
    | nil => rfl
    | append_singleton front c => exact trimEnd_concat front (hlast c (by simp))

theorem dropReturn_of_getLast? {line : Line} (h : ∀ c ∈ line.getLast?, isBlank c = false) :
    dropReturn line = line := by
  rcases dropReturn_eq line with heq | heq
  · exact heq
  · have hreturn : isBlank '\r' = false := h '\r' (by rw [heq]; simp)
    exact absurd hreturn (by decide)

/-! ### Trimming at both ends -/

/-- Trimming takes blanks from both ends. -/
theorem exists_eq_append_trim (line : Line) :
    ∃ lead tail, line = lead ++ trim line ++ tail ∧ isBlankLine lead = true
      ∧ isBlankLine tail = true := by
  obtain ⟨tail, htail, hblank⟩ := exists_eq_trimEnd_append (trimStart line)
  refine ⟨line.takeWhile isBlank, tail, ?_, isBlankLine_takeWhile line, hblank⟩
  rw [List.append_assoc, trim, ← htail, trimStart, List.takeWhile_append_dropWhile]

theorem mem_trim {line : Line} {c : Char} (hc : isBlank c = false) : c ∈ trim line ↔ c ∈ line := by
  obtain ⟨lead, tail, hline, hlead, htail⟩ := exists_eq_append_trim line
  conv_rhs => rw [hline]
  simp [not_mem_of_isBlankLine hlead hc, not_mem_of_isBlankLine htail hc]

/-- What stands around a character is trimmed on its own side. -/
theorem trim_append_cons (before : Line) {c : Char} (hc : isBlank c = false) (after : Line) :
    trim (before ++ c :: after) = trimStart before ++ c :: trimEnd after := by
  rw [trim, trimStart_append_cons before hc, trimEnd_append_cons _ hc]

theorem isBlankLine_trim (line : Line) : isBlankLine (trim line) = isBlankLine line := by
  obtain ⟨lead, tail, hline, hlead, htail⟩ := exists_eq_append_trim line
  conv_rhs => rw [hline]
  simp only [isBlankLine, List.all_append] at hlead htail ⊢
  rw [hlead, htail, Bool.true_and, Bool.and_true]

theorem trim_of_isBlankLine {line : Line} (h : isBlankLine line = true) : trim line = [] := by
  have hstart : trimStart line = [] := by
    rw [← List.append_nil line, trimStart_append h]
    rfl
  rw [trim, hstart]
  rfl

theorem trim_eq_nil_iff {line : Line} : trim line = [] ↔ isBlankLine line = true := by
  refine ⟨fun hnil => ?_, trim_of_isBlankLine⟩
  rw [← isBlankLine_trim, hnil]
  rfl

/-- Trimming leaves a line alone when it neither begins nor ends with a blank. -/
theorem trim_eq_self_iff {line : Line} :
    trim line = line
      ↔ (∀ c ∈ line.head?, isBlank c = false) ∧ ∀ c ∈ line.getLast?, isBlank c = false := by
  rw [← trimStart_eq_self_iff, ← trimEnd_eq_self_iff, trim]
  constructor
  · intro htrim
    -- the first trimming takes nothing, or the line would come out shorter
    have hstart : trimStart line = line := by
      obtain ⟨gap, hgap, -⟩ := exists_eq_trimEnd_append (trimStart line)
      have hsuffix : trimStart line <:+ line := List.dropWhile_suffix _
      apply hsuffix.eq_of_length_le
      rw [hgap, htrim, List.length_append]
      omega
    rw [hstart] at htrim
    exact ⟨hstart, htrim⟩
  · rintro ⟨hstart, hend⟩
    rw [hstart, hend]

/-- Two characters that are no blanks stand in a line next to each other exactly when they do in
    the trimmed line. -/
theorem isInfix_trim_iff {a b : Char} (ha : isBlank a = false) (hb : isBlank b = false)
    {line : Line} : [a, b] <:+: trim line ↔ [a, b] <:+: line := by
  constructor
  · rintro ⟨before, after, heq⟩
    obtain ⟨lead, tail, hline, -, -⟩ := exists_eq_append_trim line
    exact ⟨lead ++ before, after ++ tail, by rw [hline, ← heq]; simp⟩
  · rintro ⟨before, after, rfl⟩
    refine ⟨trimStart before, trimEnd after, ?_⟩
    have hline : before ++ [a, b] ++ after = (before ++ [a]) ++ b :: after := by simp
    rw [hline, trim_append_cons _ hb, trimStart_append_cons before ha, trimStart]
    simp

end ScriptServer.Text
