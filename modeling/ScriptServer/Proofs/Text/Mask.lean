import Mathlib.Data.List.GetD
import ScriptServer.Proofs.Text.Column
import ScriptServer.Text.Mask

namespace ScriptServer.Text

/-!
# What a mask keeps

* `Blanks` — a line is another one with some of its characters blanked.
* `blanks_maskCode` — the lines of a mask are the given lines with characters blanked.
* `Blanks.exists_of_visible` — what is not blank in a mask stands at the same offset in the line as
  it is written.
-/

/-- The second line is the first one with some of its characters blanked. -/
inductive Blanks : Line → Line → Prop where
  | nil : Blanks [] []
  | keep (c : Char) {raw masked : Line} (h : Blanks raw masked) : Blanks (c :: raw) (c :: masked)
  | hide (c : Char) {raw masked : Line} (h : Blanks raw masked) :
      Blanks (c :: raw) (blank c ++ masked)

@[simp] theorem size_blank (c : Char) : size (blank c) = c.utf8Size := by
  have hsize : ∀ n, size (List.replicate n ' ') = n := by
    intro n
    induction n with
    | zero => rfl
    | succ n ih =>
      rw [List.replicate_succ, size, ih, show ' '.utf8Size = 1 from rfl]
      omega
  exact hsize c.utf8Size

/-- Blanking keeps the number of bytes. -/
theorem Blanks.size_eq {raw masked : Line} (h : Blanks raw masked) : size masked = size raw := by
  induction h with
  | nil => rfl
  | keep c h ih => rw [size, size, ih]
  | hide c h ih => rw [size_append, size_blank, size, ih]

/-- A space is all there is in a blank. -/
theorem not_mem_blank {c d : Char} (h : d ≠ ' ') : d ∉ blank c := by
  intro hmem
  exact h (List.eq_of_mem_replicate hmem)

/-- **What is visible is as written.**  A character of the mask that is no space stands in the line
    as well, between the same bytes. -/
theorem Blanks.exists_of_visible {raw before after : Line} {c : Char}
    (h : Blanks raw (before ++ c :: after)) (hc : c ≠ ' ') :
    ∃ left right, raw = left ++ c :: right ∧ Blanks left before ∧ Blanks right after := by
  generalize hmasked : before ++ c :: after = masked at h
  induction h generalizing before with
  | nil => simp at hmasked
  | @keep d raw masked h ih =>
    cases before with
    | nil =>
      obtain ⟨rfl, rfl⟩ : c = d ∧ after = masked := by simpa using hmasked
      exact ⟨[], raw, rfl, .nil, h⟩
    | cons e rest =>
      obtain ⟨rfl, hrest⟩ : e = d ∧ rest ++ c :: after = masked := by simpa using hmasked
      obtain ⟨left, right, hraw, hleft, hright⟩ := ih hrest
      exact ⟨e :: left, right, by rw [hraw, List.cons_append], .keep e hleft, hright⟩
  | @hide d raw masked h ih =>
    -- the character cannot lie in the blank, so the blank lies before it
    rcases List.append_eq_append_iff.mp hmasked with ⟨gap, hgap, hrest⟩ | ⟨gap, hgap, hrest⟩
    · have hnil : gap = [] := by
        cases gap with
        | nil => rfl
        | cons e gap =>
          have hmem : c ∈ blank d := by
            rw [hgap, (List.cons.inj hrest).1]
            simp
          exact absurd hmem (not_mem_blank hc)
      rw [hnil, List.nil_append] at hrest
      rw [hnil, List.append_nil] at hgap
      obtain ⟨left, right, hraw, hleft, hright⟩ := ih (show [] ++ c :: after = masked from hrest)
      refine ⟨d :: left, right, by rw [hraw, List.cons_append], ?_, hright⟩
      have hblank := Blanks.hide d hleft
      rw [List.append_nil, hgap] at hblank
      exact hblank
    · obtain ⟨left, right, hraw, hleft, hright⟩ := ih hrest.symm
      refine ⟨d :: left, right, by rw [hraw, List.cons_append], ?_, hright⟩
      rw [hgap]
      exact .hide d hleft

/-! ### Masks -/

/-- The cases of marking a line exclude a pair of characters by the rest of the line; what is
    asked for is the first character of this rest. -/
theorem head?_ne_of_not_pair {c d e : Char} {rest : Line}
    (h : ∀ rest', c = d → rest = e :: rest' → False) (hc : c = d) : rest.head? ≠ some e := by
  intro hfirst
  obtain ⟨rest', rfl⟩ := List.head?_eq_some_iff.mp hfirst
  exact h rest' hc rfl

/-- Marking adds marks and changes nothing else. -/
theorem map_fst_markLine (zone : Zone) (line : Line) :
    (markLine zone line).chars.map (·.1) = line := by
  fun_induction markLine zone line with
  | case9 rest => simp [Function.comp_def]
  | _ => simp_all [Marked.cons]

/-- Marking adds marks and changes nothing else. -/
theorem map_fst_markLines (inComment : Bool) (lines : List Line) :
    (markLines inComment lines).map (·.map (·.1)) = lines := by
  induction lines generalizing inComment with
  | nil => rfl
  | cons line rest ih =>
    rw [markLines, List.map_cons, map_fst_markLine, ih]

theorem blanks_render (hides : Mark → Bool) (chars : List (Char × Mark)) :
    Blanks (chars.map (·.1)) (render hides chars) := by
  induction chars with
  | nil => exact .nil
  | cons marked rest ih =>
    rw [render, List.flatMap_cons, List.map_cons]
    split
    · exact .hide marked.1 ih
    · exact .keep marked.1 ih

/-- A mask has as many lines as it is given. -/
@[simp] theorem length_maskCode (lines : List Line) : (maskCode lines).length = lines.length := by
  have h := congrArg List.length (map_fst_markLines false lines)
  rw [List.length_map] at h
  rw [maskCode, List.length_map, h]

/-- Each line of the code is the line as written with characters blanked. -/
theorem blanks_maskCode (lines : List Line) (n : Nat) :
    Blanks (lines.getD n []) ((maskCode lines).getD n []) := by
  have hraw : lines.getD n [] = ((markLines false lines).getD n []).map (·.1) := by
    conv_lhs => rw [← map_fst_markLines false lines]
    exact List.getD_map (markLines false lines) [] (List.map (·.1))
  have hmasked : (maskCode lines).getD n []
      = render (· != .code) ((markLines false lines).getD n []) :=
    List.getD_map (markLines false lines) [] (render (· != .code))
  rw [hraw, hmasked]
  exact blanks_render _ _

end ScriptServer.Text
