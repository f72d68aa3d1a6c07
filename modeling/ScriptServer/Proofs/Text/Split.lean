import Mathlib.Data.List.DropRight
import ScriptServer.Text.Search

namespace ScriptServer.Text

/-!
# Cutting texts at a character

* `splitAtChar_append` — what stands on the two sides of a separator is cut apart on its own.
* `splitAtChar_append_of_not_mem` — characters in front that are no separators belong to the first
  piece.
* `splitAtChar_intercalate` — pieces that are put together and taken apart again are the same.
* `splitAtChar_flatMap_cons` — so are pieces with a separator in front of each.
* `intercalate_around`, `intercalate_append` — what a text is put together from, seen from one of
  its pieces or from a gap between two.
* `cut_intercalate` — a cut goes through a piece or through a separator.
* `intercalate_splitAtChar`, `length_splitAtChar` — the pieces of a text give the text, and there is
  one more of them than there are separators.
* `rtakeWhile_append`, `rtakeWhile_append_cons` — what a text ends with.
* `CutsAtLast`, `cutLast?_eq_some_iff`, `cutLast?_eq_none_iff` — a text is cut where a pattern
  stands last, if it does.
-/

theorem splitAtChar_ne_nil (separator : Char) (text : Line) : splitAtChar separator text ≠ [] := by
  cases text with
  | nil => simp [splitAtChar]
  | cons c rest =>
    simp only [splitAtChar]
    split
    · simp
    · split <;> simp

theorem splitAtChar_append (separator : Char) (left right : Line) :
    splitAtChar separator (left ++ separator :: right)
      = splitAtChar separator left ++ splitAtChar separator right := by
  induction left with
  | nil => simp [splitAtChar]
  | cons c left ih =>
    by_cases hc : c = separator
    · simp [splitAtChar, hc, ih]
    · obtain ⟨first, others, hsplit⟩ :=
        List.exists_cons_of_ne_nil (splitAtChar_ne_nil separator left)
      simp [splitAtChar, hc, ih, hsplit]

theorem splitAtChar_of_not_mem {separator : Char} {piece : Line} (h : separator ∉ piece) :
    splitAtChar separator piece = [piece] := by
  induction piece with
  | nil => rfl
  | cons c rest ih =>
    rw [List.mem_cons, not_or] at h
    have hc : ¬ c = separator := fun hc => h.1 hc.symm
    simp [splitAtChar, hc, ih h.2]

theorem not_mem_of_mem_splitAtChar {separator : Char} {text piece : Line}
    (h : piece ∈ splitAtChar separator text) : separator ∉ piece := by
  induction text generalizing piece with
  | nil =>
    rw [splitAtChar, List.mem_singleton] at h
    rw [h]
    exact List.not_mem_nil
  | cons c rest ih =>
    by_cases hc : c = separator
    · simp only [splitAtChar, if_pos hc, List.mem_cons] at h
      rcases h with rfl | h
      · exact List.not_mem_nil
      · exact ih h
    · obtain ⟨first, others, hsplit⟩ :=
        List.exists_cons_of_ne_nil (splitAtChar_ne_nil separator rest)
      simp only [splitAtChar, if_neg hc, hsplit, List.mem_cons] at h
      rw [hsplit] at ih
      rcases h with rfl | h
      · rw [List.mem_cons, not_or]
        exact ⟨fun hs => hc hs.symm, ih List.mem_cons_self⟩
      · exact ih (List.mem_cons_of_mem _ h)

/-- Characters in front that are no separators belong to the first piece. -/
theorem splitAtChar_append_of_not_mem {separator : Char} {front text first : Line}
    {others : List Line} (h : separator ∉ front)
    (htext : splitAtChar separator text = first :: others) :
    splitAtChar separator (front ++ text) = (front ++ first) :: others := by
  induction front with
  | nil => exact htext
  | cons c rest ih =>
    rw [List.mem_cons, not_or] at h
    have hc : ¬ c = separator := fun hc => h.1 hc.symm
    rw [List.cons_append, splitAtChar, if_neg hc, ih h.2, List.cons_append]

/-- Pieces that are put together and taken apart again are the same pieces. -/
theorem splitAtChar_intercalate {separator : Char} (first : Line) (others : List Line)
    (h : ∀ piece ∈ first :: others, separator ∉ piece) :
    splitAtChar separator ([separator].intercalate (first :: others)) = first :: others := by
  induction others generalizing first with
  | nil =>
    rw [List.intercalate_singleton]
    exact splitAtChar_of_not_mem (h first List.mem_cons_self)
  | cons second others ih =>
    rw [List.intercalate_cons_cons, List.append_assoc, List.singleton_append, splitAtChar_append,
      splitAtChar_of_not_mem (h first List.mem_cons_self),
      ih second fun piece hpiece => h piece (List.mem_cons_of_mem _ hpiece)]
    rfl

/-- Pieces with a separator in front of each are taken apart after an empty one. -/
theorem splitAtChar_flatMap_cons {separator : Char} {pieces : List Line}
    (h : ∀ piece ∈ pieces, separator ∉ piece) :
    splitAtChar separator (pieces.flatMap fun piece => separator :: piece) = [] :: pieces := by
  induction pieces with
  | nil => rfl
  | cons piece pieces ih =>
    have hpieces := List.forall_mem_cons.mp h
    rw [List.flatMap_cons, List.cons_append, splitAtChar, if_pos rfl,
      splitAtChar_append_of_not_mem hpieces.1 (ih hpieces.2), List.append_nil]

/-- Pieces that are put together, seen from one of them. -/
theorem intercalate_around (separator : Line) (before : List Line) (piece : Line)
    (behind : List Line) :
    separator.intercalate (before ++ piece :: behind)
      = before.flatMap (· ++ separator) ++ piece ++ behind.flatMap (separator ++ ·) := by
  induction before with
  | nil =>
    rw [List.nil_append, List.flatMap_nil, List.nil_append]
    induction behind generalizing piece with
    | nil => simp
    | cons next behind ih =>
      rw [List.intercalate_cons_cons, ih, List.flatMap_cons]
      simp
  | cons first before ih =>
    rw [List.cons_append, List.intercalate_cons_of_ne_nil (by simp), ih, List.flatMap_cons]
    simp

theorem intercalate_append_cons (separator : Char) (before : List Line) (piece : Line)
    (behind : List Line) :
    [separator].intercalate (before ++ piece :: behind)
      = before.flatMap (· ++ [separator]) ++ piece ++ behind.flatMap (separator :: ·) :=
  intercalate_around [separator] before piece behind

theorem intercalate_append {front back : List Line} (hfront : front ≠ []) (hback : back ≠ [])
    (separator : Line) : separator.intercalate (front ++ back)
      = separator.intercalate front ++ separator ++ separator.intercalate back := by
  induction front with
  | nil => exact absurd rfl hfront
  | cons first rest ih =>
    cases rest with
    | nil =>
      rw [List.singleton_append, List.intercalate_cons_of_ne_nil hback, List.intercalate_singleton]
    | cons second rest =>
      rw [List.cons_append, List.intercalate_cons_of_ne_nil (by simp),
        ih (List.cons_ne_nil second rest), List.intercalate_cons_cons]
      simp

/-- A cut of a text that is put together from pieces goes through a piece or through a separator. -/
theorem cut_intercalate {separator left right : Line} {pieces : List Line} (hne : pieces ≠ [])
    (h : separator.intercalate pieces = left ++ right) :
    (∃ front a b back, pieces = front ++ (a ++ b) :: back
        ∧ left = front.flatMap (· ++ separator) ++ a)
      ∨ ∃ front back a b, front ≠ [] ∧ back ≠ [] ∧ pieces = front ++ back ∧ a ≠ [] ∧ b ≠ []
        ∧ separator = a ++ b ∧ left = separator.intercalate front ++ a := by
  induction pieces generalizing left with
  | nil => exact absurd rfl hne
  | cons first rest ih =>
    cases rest with
    | nil =>
      rw [List.intercalate_singleton] at h
      exact .inl ⟨[], left, right, [], by rw [h]; rfl, rfl⟩
    | cons second rest =>
      rw [List.intercalate_cons_cons, List.append_assoc, List.append_eq_append_iff] at h
      rcases h with ⟨more, rfl, hmore⟩ | ⟨more, rfl, -⟩
      · rw [List.append_eq_append_iff] at hmore
        rcases hmore with ⟨later, rfl, hlater⟩ | ⟨b, hseparator, -⟩
        · -- the cut lies behind the separator, in the pieces that follow it
          rcases ih (List.cons_ne_nil second rest) hlater with
            ⟨front, a, b, back, hpieces, rfl⟩ |
            ⟨front, back, a, b, hfront, hback, hpieces, ha, hb, hab, rfl⟩
          · refine .inl ⟨first :: front, a, b, back, by rw [hpieces]; rfl, ?_⟩
            rw [List.flatMap_cons]
            simp
          · refine .inr ⟨first :: front, back, a, b, List.cons_ne_nil first front, hback,
              by rw [hpieces]; rfl, ha, hb, hab, ?_⟩
            rw [List.intercalate_cons_of_ne_nil hfront]
            simp
        · by_cases hmore : more = []
          · subst hmore
            exact .inl ⟨[], first, [], second :: rest, by simp, by simp⟩
          · by_cases hb : b = []
            · subst hb
              rw [List.append_nil] at hseparator
              subst hseparator
              exact .inl ⟨[first], [], second, rest, rfl, by simp⟩
            · exact .inr ⟨[first], second :: rest, more, b, by simp, by simp, rfl, hmore, hb,
                hseparator, by simp⟩
      · exact .inl ⟨[], left, more, second :: rest, rfl, rfl⟩

/-- The pieces of a text, put together again, are the text. -/
theorem intercalate_splitAtChar (separator : Char) (text : Line) :
    [separator].intercalate (splitAtChar separator text) = text := by
  induction text with
  | nil => rfl
  | cons c rest ih =>
    obtain ⟨first, others, hsplit⟩ :=
      List.exists_cons_of_ne_nil (splitAtChar_ne_nil separator rest)
    by_cases hc : c = separator
    · rw [splitAtChar, if_pos hc, hsplit, List.intercalate_cons_cons, ← hsplit, ih, hc]
      rfl
    · rw [hsplit] at ih
      simp only [splitAtChar, if_neg hc, hsplit]
      cases others with
      | nil => simpa using ih
      | cons second others =>
        rw [List.intercalate_cons_cons] at ih ⊢
        rw [← ih]
        rfl

theorem length_splitAtChar (separator : Char) (text : Line) :
    (splitAtChar separator text).length = text.count separator + 1 := by
  induction text with
  | nil => rfl
  | cons c rest ih =>
    obtain ⟨first, others, hsplit⟩ :=
      List.exists_cons_of_ne_nil (splitAtChar_ne_nil separator rest)
    by_cases hc : c = separator
    · rw [splitAtChar, if_pos hc, List.length_cons, ih, hc, List.count_cons_self]
    · rw [hsplit] at ih
      simp only [splitAtChar, if_neg hc, hsplit]
      rw [List.count_cons_of_ne hc, ← ih]
      rfl

/-! ### What a text ends with -/

section End

variable {α : Type} {p : α → Bool}

theorem rtakeWhile_append (front : List α) {run : List α} (h : ∀ c ∈ run, p c = true) :
    (front ++ run).rtakeWhile p = front.rtakeWhile p ++ run := by
  rw [List.rtakeWhile, List.reverse_append, List.takeWhile_append_of_pos (by simpa using h),
    List.reverse_append, List.reverse_reverse]
  rfl

/-- A run goes back to the last element that does not belong to it. -/
theorem rtakeWhile_append_cons (front : List α) {gap : α} {run : List α} (hgap : p gap = false)
    (hrun : ∀ c ∈ run, p c = true) : (front ++ gap :: run).rtakeWhile p = run := by
  rw [List.append_cons, rtakeWhile_append _ hrun,
    List.rtakeWhile_concat_neg _ _ _ (by simp [hgap]), List.nil_append]

end End

/-! ### Where a pattern stands last -/

/-- Whether a text is cut at the last place where a pattern stands. -/
def CutsAtLast (pattern text front rest : Line) : Prop :=
  text = front ++ pattern ++ rest
    ∧ ∀ front' rest', text = front' ++ pattern ++ rest' → front'.length ≤ front.length

section Last

variable {pattern text front rest : Line}

theorem cutLast?_eq_none_iff (hpattern : pattern ≠ []) :
    cutLast? pattern text = none ↔ ∀ front rest, text ≠ front ++ pattern ++ rest := by
  induction text with
  | nil => simp [cutLast?, hpattern]
  | cons c text ih =>
    rw [cutLast?]
    cases hcut : cutLast? pattern text with
    | some parts =>
      -- what stands in the rest stands in the whole
      have hsome : ¬ ∀ front rest, text ≠ front ++ pattern ++ rest := by
        rw [← ih, hcut]
        exact Option.some_ne_none parts
      push Not at hsome
      obtain ⟨front, rest, rfl⟩ := hsome
      simp only [reduceCtorEq, false_iff]
      exact fun hnone => hnone (c :: front) rest rfl
    | none =>
      rw [Option.map_eq_none_iff]
      constructor
      · rintro hafter (_ | ⟨d, front⟩) rest heq
        · rw [List.nil_append, ← after?_eq_some_iff, hafter] at heq
          cases heq
        · exact ih.mp hcut front rest (List.cons.inj heq).2
      · intro hnone
        cases hafter : after? pattern (c :: text) with
        | none => rfl
        | some rest => exact absurd (after?_eq_some_iff.mp hafter) (hnone [] rest)

theorem cutsAtLast_of_cutLast? (hpattern : pattern ≠ [])
    (h : cutLast? pattern text = some (front, rest)) : CutsAtLast pattern text front rest := by
  induction text generalizing front with
  | nil => cases h
  | cons c text ih =>
    rw [cutLast?] at h
    cases hcut : cutLast? pattern text with
    | some parts =>
      rw [hcut] at h
      obtain ⟨rfl, rfl⟩ := Prod.mk.inj (Option.some.inj h)
      obtain ⟨heq, hlast⟩ := ih hcut
      refine ⟨by rw [heq]; rfl, ?_⟩
      rintro (_ | ⟨d, front'⟩) rest' heq'
      · exact Nat.zero_le _
      · exact Nat.succ_le_succ (hlast front' rest' (List.cons.inj heq').2)
    | none =>
      rw [hcut] at h
      obtain ⟨after, hafter, hparts⟩ := Option.map_eq_some_iff.mp h
      obtain ⟨rfl, rfl⟩ := Prod.mk.inj hparts
      refine ⟨after?_eq_some_iff.mp hafter, ?_⟩
      -- the pattern stands nowhere behind the first character
      rintro (_ | ⟨d, front'⟩) rest' heq'
      · exact Nat.le_refl _
      · exact absurd (List.cons.inj heq').2 ((cutLast?_eq_none_iff hpattern).mp hcut front' rest')

theorem cutLast?_eq_some_iff (hpattern : pattern ≠ []) :
    cutLast? pattern text = some (front, rest) ↔ CutsAtLast pattern text front rest := by
  refine ⟨cutsAtLast_of_cutLast? hpattern, fun h => ?_⟩
  cases hcut : cutLast? pattern text with
  | none => exact absurd h.1 ((cutLast?_eq_none_iff hpattern).mp hcut front rest)
  | some parts =>
    have hparts := cutsAtLast_of_cutLast? hpattern hcut
    have hlength := Nat.le_antisymm (h.2 _ _ hparts.1) (hparts.2 _ _ h.1)
    have heq := hparts.1.symm.trans h.1
    rw [List.append_assoc, List.append_assoc] at heq
    obtain ⟨hfront, hrest⟩ := List.append_inj heq hlength
    rw [← hfront, ← List.append_cancel_left hrest]

end Last

theorem cutLast?_eq_none {c : Char} {text : Line} (h : cutLast? [c] text = none) : c ∉ text := by
  intro hmem
  obtain ⟨front, rest, rfl⟩ := List.append_of_mem hmem
  exact (cutLast?_eq_none_iff (by simp)).mp h front rest (by simp)

/-- The last occurrence of a character has none behind it. -/
theorem cutLast?_eq_some {c : Char} {text front rest : Line}
    (h : cutLast? [c] text = some (front, rest)) : text = front ++ c :: rest ∧ c ∉ rest := by
  obtain ⟨rfl, hlast⟩ := cutsAtLast_of_cutLast? (by simp) h
  refine ⟨by simp, fun hmem => ?_⟩
  obtain ⟨near, far, rfl⟩ := List.append_of_mem hmem
  have hle := hlast (front ++ c :: near) far (by simp)
  rw [List.length_append, List.length_cons] at hle
  omega

theorem exists_last_of_mem {c : Char} {text : Line} (h : c ∈ text) :
    ∃ front rest, text = front ++ c :: rest ∧ c ∉ rest := by
  cases hcut : cutLast? [c] text with
  | none => exact absurd h (cutLast?_eq_none hcut)
  | some parts => exact ⟨parts.1, parts.2, cutLast?_eq_some hcut⟩

end ScriptServer.Text
