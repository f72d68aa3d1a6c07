import Mathlib.Data.List.TakeWhile
import ScriptServer.Proofs.Text.Region
import ScriptServer.Text.Search

namespace ScriptServer.Text

/-!
# Cutting a text at the beginning of a line

* `cutAtLine?` — the text above a line, and the text from it on.
* `cutAtLine?_eq_none_iff` — it fails exactly when there is no such line.
* `splitLines_cut` — the lines of the two parts are the lines of the text.
* `splitAtChar_maskText_cut` — the code of the two parts: what follows is read from where the text
  above has led, and has no part in the code above.
* `markLines_cut` — the marks of a line, from where the text above has led.
-/

/-- The text above the line with a number, and the text from this line on. -/
def cutAtLine? : Nat → List Char → Option (List Char × List Char)
  | 0, text => some ([], text)
  | number + 1, text => do
    let (first, rest) ← cutFirst? ['\n'] text
    let (above, below) ← cutAtLine? number rest
    return (first ++ '\n' :: above, below)

/-! ### The first line -/

theorem cutFirst?_eq_some {c : Char} {text first rest : Line}
    (h : cutFirst? [c] text = some (first, rest)) : text = first ++ c :: rest ∧ c ∉ first := by
  induction text generalizing first with
  | nil => cases h
  | cons d text ih =>
    by_cases hd : c = d
    · subst hd
      simp only [cutFirst?, after?, if_true, Option.some.injEq, Prod.mk.injEq] at h
      obtain ⟨rfl, rfl⟩ := h
      exact ⟨rfl, List.not_mem_nil⟩
    · simp only [cutFirst?, after?, if_neg hd, Option.map_eq_some_iff, Prod.mk.injEq,
        Prod.exists] at h
      obtain ⟨before, after, hcut, rfl, rfl⟩ := h
      obtain ⟨rfl, hbefore⟩ := ih hcut
      exact ⟨rfl, List.not_mem_cons_of_ne_of_not_mem hd hbefore⟩

theorem not_mem_of_cutFirst?_eq_none {c : Char} {text : Line} (h : cutFirst? [c] text = none) :
    c ∉ text := by
  induction text with
  | nil => exact List.not_mem_nil
  | cons d text ih =>
    by_cases hd : c = d
    · simp [cutFirst?, after?, hd] at h
    · simp only [cutFirst?, after?, if_neg hd, Option.map_eq_none_iff] at h
      exact List.not_mem_cons_of_ne_of_not_mem hd (ih h)

/-! ### All lines above -/

section Cut

variable {number : Nat} {text above below : List Char}

/-- A line below the first one is cut off behind the first line break. -/
theorem exists_of_cutAtLine?_succ (h : cutAtLine? (number + 1) text = some (above, below)) :
    ∃ first rest above', text = first ++ '\n' :: rest ∧ '\n' ∉ first
      ∧ cutAtLine? number rest = some (above', below) ∧ above = first ++ '\n' :: above' := by
  simp only [cutAtLine?, Option.bind_eq_bind, Option.bind_eq_some_iff, Option.pure_def,
    Option.some.injEq, Prod.mk.injEq, Prod.exists] at h
  obtain ⟨first, rest, hfirst, above', below', hrest, rfl, rfl⟩ := h
  obtain ⟨htext, hbreak⟩ := cutFirst?_eq_some hfirst
  exact ⟨first, rest, above', htext, hbreak, hrest, rfl⟩

/-- Nothing is lost. -/
theorem eq_append_of_cutAtLine? (h : cutAtLine? number text = some (above, below)) :
    text = above ++ below := by
  induction number generalizing text above with
  | zero =>
    cases h
    rfl
  | succ number ih =>
    obtain ⟨first, rest, above', rfl, -, hrest, rfl⟩ := exists_of_cutAtLine?_succ h
    rw [ih hrest, List.append_assoc, List.cons_append]

/-- There is no such line exactly when the text has too few. -/
theorem cutAtLine?_eq_none_iff :
    cutAtLine? number text = none ↔ (splitAtChar '\n' text).length ≤ number := by
  induction number generalizing text with
  | zero =>
    have hpos := List.length_pos_iff.mpr (splitAtChar_ne_nil '\n' text)
    simp only [cutAtLine?, reduceCtorEq, false_iff]
    omega
  | succ number ih =>
    cases hfirst : cutFirst? ['\n'] text with
    | none =>
      rw [splitAtChar_of_not_mem (not_mem_of_cutFirst?_eq_none hfirst)]
      simp [cutAtLine?, hfirst]
    | some parts =>
      obtain ⟨rfl, hbreak⟩ := cutFirst?_eq_some hfirst
      rw [splitAtChar_append, splitAtChar_of_not_mem hbreak]
      have hnone : cutAtLine? (number + 1) (parts.1 ++ '\n' :: parts.2) = none
          ↔ cutAtLine? number parts.2 = none := by
        simp only [cutAtLine?, hfirst, Option.bind_eq_bind, Option.bind_some]
        cases cutAtLine? number parts.2 <;> simp
      rw [hnone, ih]
      simp only [List.singleton_append, List.length_cons]
      omega

/-- The line is the last one when none comes after it. -/
theorem not_mem_of_cutAtLine?_succ_eq_none (h : cutAtLine? number text = some (above, below))
    (hnone : cutAtLine? (number + 1) text = none) : '\n' ∉ below := by
  induction number generalizing text above with
  | zero =>
    cases h
    cases hfirst : cutFirst? ['\n'] below with
    | none => exact not_mem_of_cutFirst?_eq_none hfirst
    | some parts => simp [cutAtLine?, hfirst] at hnone
  | succ number ih =>
    simp only [cutAtLine?, Option.bind_eq_bind, Option.bind_eq_some_iff, Option.pure_def,
      Option.some.injEq, Prod.mk.injEq, Prod.exists] at h
    obtain ⟨first, rest, hfirst, above', below', hrest, -, rfl⟩ := h
    refine ih hrest ?_
    rw [cutAtLine?, hfirst] at hnone
    cases hsucc : cutAtLine? (number + 1) rest with
    | none => rfl
    | some parts => simp [hsucc] at hnone

/-- **The lines of the two parts.**  Whatever follows, the lines above are the same. -/
theorem splitLines_cut (h : cutAtLine? number text = some (above, below)) :
    ∃ lines : List Line, lines.length = number ∧ ∀ rest,
      splitAtChar '\n' (above ++ rest) = lines ++ splitAtChar '\n' rest := by
  induction number generalizing text above with
  | zero =>
    cases h
    exact ⟨[], rfl, fun rest => rfl⟩
  | succ number ih =>
    obtain ⟨first, rest, above', -, hbreak, hrest, rfl⟩ := exists_of_cutAtLine?_succ h
    obtain ⟨lines, hlength, hlines⟩ := ih hrest
    refine ⟨first :: lines, by rw [List.length_cons, hlength], fun rest => ?_⟩
    rw [List.append_assoc, List.cons_append, splitAtChar_append, splitAtChar_of_not_mem hbreak,
      hlines]
    rfl

theorem glyph_lineBreak (region : Region) (next : Option Char) : glyph region '\n' next = ['\n'] :=
  if_pos rfl

/-- **The code of the two parts.**  What follows is read from where the text above has led, and the
    code above is the same whatever follows. -/
theorem splitAtChar_maskText_cut (h : cutAtLine? number text = some (above, below))
    (region : Region) :
    ∃ code : List Line, code.length = number ∧ ∀ rest,
      splitAtChar '\n' (maskText region none (above ++ rest))
        = code ++ splitAtChar '\n' (maskText (region.after above) none rest) := by
  induction number generalizing text above region with
  | zero =>
    cases h
    exact ⟨[], rfl, fun rest => rfl⟩
  | succ number ih =>
    obtain ⟨first, rest, above', -, hbreak, hrest, rfl⟩ := exists_of_cutAtLine?_succ h
    obtain ⟨code, hlength, hcode⟩ := ih hrest ((region.after first).step '\n')
    refine ⟨maskText region (some '\n') first :: code, by rw [List.length_cons, hlength],
      fun rest => ?_⟩
    rw [List.append_assoc, List.cons_append, maskText_append, maskText, glyph_lineBreak,
      List.singleton_append, splitAtChar_append,
      splitAtChar_of_not_mem (not_mem_maskText hbreak _ _), hcode, Region.after_append,
      Region.after_cons]
    rfl

/-! ### Marks -/

/-- A line begins in code or in a block comment. -/
theorem after_cut (h : cutAtLine? number text = some (above, below)) :
    Region.after .code above = .code ∨ Region.after .code above = .comment := by
  have hany : ∀ region : Region, region = .code ∨ region = .comment →
      region.after above = .code ∨ region.after above = .comment := by
    induction number generalizing text above with
    | zero =>
      cases h
      exact fun region hregion => hregion
    | succ number ih =>
      obtain ⟨first, rest, above', -, -, hrest, rfl⟩ := exists_of_cutAtLine?_succ h
      intro region _
      rw [Region.after_append, Region.after_cons]
      refine ih hrest _ ?_
      show (region.after first).newLine = .code ∨ (region.after first).newLine = .comment
      cases region.after first <;> simp [Region.newLine]
  exact hany .code (.inl rfl)

theorem splitAtChar_eq_takeWhile (separator : Char) (text : Line) :
    ∃ others, splitAtChar separator text = text.takeWhile (· != separator) :: others := by
  induction text with
  | nil => exact ⟨[], rfl⟩
  | cons c rest ih =>
    obtain ⟨others, hrest⟩ := ih
    by_cases hc : c = separator
    · exact ⟨splitAtChar separator rest, by simp [splitAtChar, hc]⟩
    · exact ⟨others, by simp [splitAtChar, hc, hrest]⟩

theorem not_mem_dropReturn {c : Char} {line : Line} (h : c ∉ line) : c ∉ dropReturn line := by
  rcases dropReturn_eq line with heq | heq
  · rw [heq]
    exact h
  · intro hmem
    rw [heq] at h
    exact h (List.mem_append_left _ hmem)

/-- The first line of a text, without its line break. -/
def firstLine (text : List Char) : Line := dropReturn (text.takeWhile (· != '\n'))

theorem not_mem_firstLine (text : List Char) : '\n' ∉ firstLine text := by
  apply not_mem_dropReturn
  intro hmem
  have hne := List.mem_takeWhile_imp hmem
  simp at hne

/-- The line with the number is the first one of the second part. -/
theorem getElem?_cut (h : cutAtLine? number text = some (above, below)) :
    ((splitAtChar '\n' text).map dropReturn)[number]? = some (firstLine below) := by
  obtain ⟨lines, hlength, hlines⟩ := splitLines_cut h
  obtain ⟨others, hsplit⟩ := splitAtChar_eq_takeWhile '\n' below
  rw [eq_append_of_cutAtLine? h, hlines, hsplit, List.map_append,
    List.getElem?_append_right (by simp [hlength])]
  simp [hlength, firstLine]

/-- **The marks of a line** follow from where the text above has led. -/
theorem markLines_cut (h : cutAtLine? number text = some (above, below)) :
    (markLines false ((splitAtChar '\n' text).map dropReturn))[number]?
      = some (marks (Region.after .code above) (firstLine below)) := by
  have hany : ∀ inComment : Bool,
      (markLines inComment ((splitAtChar '\n' text).map dropReturn))[number]?
        = some (marks ((Region.ofZone (if inComment then .comment else .code)).after above)
            (firstLine below)) := by
    induction number generalizing text above with
    | zero =>
      cases h
      intro inComment
      obtain ⟨others, hsplit⟩ := splitAtChar_eq_takeWhile '\n' below
      have hzone : (if inComment then Zone.comment else .code) ≠ .quoted '\\' := by
        split <;> simp
      rw [hsplit, List.map_cons, markLines, List.getElem?_cons_zero]
      exact congrArg some (markLine_eq (not_mem_firstLine below) hzone).1
    | succ number ih =>
      obtain ⟨first, rest, above', rfl, hbreak, hrest, rfl⟩ := exists_of_cutAtLine?_succ h
      intro inComment
      have hzone : (if inComment then Zone.comment else .code) ≠ .quoted '\\' := by
        split <;> simp
      rw [splitAtChar_append, splitAtChar_of_not_mem hbreak, List.singleton_append, List.map_cons,
        markLines, List.getElem?_cons_succ, ih hrest, Region.after_append, Region.after_cons,
        (markLine_eq (not_mem_dropReturn hbreak) hzone).2, Region.inComment_after_dropReturn,
        ← Region.newLine_eq]
      rfl
  exact hany false

end Cut

end ScriptServer.Text
