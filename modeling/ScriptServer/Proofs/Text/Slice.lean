import Mathlib.Data.List.Forall2
import ScriptServer.Proofs.Text.Bytes
import ScriptServer.Proofs.Text.RoundTrip

namespace ScriptServer.Text

/-!
# Pieces of a line and of its mask

A line and its mask have the same bytes apart from the blanked ones, so an offset found in one of
them can be used in the other.

* `slice?` — the piece of a line between two byte offsets, if both lie between characters.
* `isSome_slice?_iff` — which pieces there are.
* `KeepsShape` — what a mask keeps of a line: bytes, boundaries, and the visible characters.
* `Blanks.keepsShape`, `forall₂_blanks` — every mask keeps it, line by line.
-/

/-! ### Pieces -/

/-- The characters of a line between two byte offsets.  There is no such piece when an offset lies
    inside a character or past the end, or when the second one comes before the first. -/
def slice? (line : Line) (start stop : Nat) : Option Line :=
  let front := (splitAtOffset line stop).1
  let parts := splitAtOffset front start
  if size front = stop ∧ size parts.1 = start then some parts.2 else none

theorem splitAtOffset_append (line : Line) (offset : Nat) :
    (splitAtOffset line offset).1 ++ (splitAtOffset line offset).2 = line := by
  induction line generalizing offset with
  | nil => rfl
  | cons c rest ih =>
    rw [splitAtOffset]
    split
    · exact congrArg (c :: ·) (ih _)
    · rfl

/-- A piece stands between its offsets. -/
theorem slice?_eq_some_iff {line piece : Line} {start stop : Nat} :
    slice? line start stop = some piece ↔ ∃ before after, line = before ++ piece ++ after
      ∧ size before = start ∧ size (before ++ piece) = stop := by
  constructor
  · intro h
    simp only [slice?] at h
    split at h
    next hsizes =>
      obtain rfl := Option.some.inj h
      refine ⟨_, (splitAtOffset line stop).2, ?_, hsizes.2, ?_⟩
      · rw [splitAtOffset_append, splitAtOffset_append]
      · rw [splitAtOffset_append, hsizes.1]
    next => cases h
  · rintro ⟨before, after, rfl, rfl, rfl⟩
    simp only [slice?, splitAtOffset_size, and_self, if_true]

/-- **Which pieces there are:** those between two boundaries that are in order. -/
theorem isSome_slice?_iff {line : Line} {start stop : Nat} :
    (slice? line start stop).isSome = true
      ↔ start ≤ stop ∧ IsBoundary line start ∧ IsBoundary line stop := by
  rw [Option.isSome_iff_exists]
  constructor
  · rintro ⟨piece, hpiece⟩
    obtain ⟨before, after, rfl, rfl, rfl⟩ := slice?_eq_some_iff.mp hpiece
    refine ⟨?_, ⟨before, piece ++ after, List.append_assoc _ _ _, rfl⟩,
      ⟨before ++ piece, after, rfl, rfl⟩⟩
    rw [size_append]
    exact Nat.le_add_right _ _
  · -- the shorter of the two beginnings is a beginning of the longer one
    rintro ⟨hle, ⟨before, rest, hline, rfl⟩, ⟨front, after, hline', rfl⟩⟩
    obtain ⟨piece, rfl⟩ := exists_append_of_size_le hline hline' hle
    exact ⟨piece, slice?_eq_some_iff.mpr ⟨before, after, hline', rfl, rfl⟩⟩

/-- The parts before and behind a boundary are pieces. -/
theorem slice?_of_isBoundary {line : Line} {offset : Nat} (h : IsBoundary line offset) :
    slice? line 0 offset = some (splitAtOffset line offset).1
      ∧ slice? line offset (size line) = some (splitAtOffset line offset).2 := by
  obtain ⟨before, after, rfl, rfl⟩ := h
  rw [splitAtOffset_size]
  exact ⟨slice?_eq_some_iff.mpr ⟨[], after, rfl, rfl, rfl⟩,
    slice?_eq_some_iff.mpr ⟨before, [], (List.append_nil _).symm, rfl, rfl⟩⟩

/-! ### What a mask keeps -/

/-- A character that stands at a byte offset of a line. -/
def StandsAt (line : Line) (offset : Nat) (c : Char) : Prop :=
  ∃ before after, line = before ++ c :: after ∧ size before = offset

/-- A mask has the bytes of a line, each as it is or blanked.  It has all the boundaries of the
    line, and no visible character but those of the line, each at its place. -/
structure KeepsShape (raw masked : Line) : Prop where
  size_eq : size masked = size raw
  byte : ∀ n : Nat, (bytes masked)[n]? = (bytes raw)[n]? ∨ (bytes masked)[n]? = some ' '.toNat
  isBoundary : ∀ offset, IsBoundary raw offset → IsBoundary masked offset
  visible : ∀ offset c, StandsAt masked offset c → c ≠ ' ' → StandsAt raw offset c

/-- Behind some characters the boundaries are those of the rest. -/
theorem IsBoundary.append {line : Line} {offset : Nat} (h : IsBoundary line offset) (front : Line) :
    IsBoundary (front ++ line) (size front + offset) := by
  obtain ⟨before, after, rfl, rfl⟩ := h
  exact ⟨front ++ before, after, (List.append_assoc _ _ _).symm, size_append _ _⟩

namespace Blanks

variable {raw masked : Line}

theorem isBoundary (h : Blanks raw masked) {offset : Nat} (hoffset : IsBoundary raw offset) :
    IsBoundary masked offset := by
  induction h generalizing offset with
  | nil => exact hoffset
  | keep c h ih =>
    rcases isBoundary_cons.mp hoffset with rfl | ⟨behind, hbehind, rfl⟩
    · exact isBoundary_zero _
    · exact isBoundary_cons.mpr (.inr ⟨behind, ih hbehind, rfl⟩)
  | hide c h ih =>
    rcases isBoundary_cons.mp hoffset with rfl | ⟨behind, hbehind, rfl⟩
    · exact isBoundary_zero _
    · have hblank := (ih hbehind).append (blank c)
      rwa [size_blank] at hblank

theorem byte (h : Blanks raw masked) (n : Nat) :
    (bytes masked)[n]? = (bytes raw)[n]? ∨ (bytes masked)[n]? = some ' '.toNat := by
  induction h generalizing n with
  | nil => exact .inl rfl
  | keep c h ih =>
    rw [bytes_cons, bytes_cons, List.getElem?_append, List.getElem?_append]
    split
    · exact .inl rfl
    · exact ih _
  | hide c h ih =>
    have hlength : (bytes (blank c)).length = (Uri.bytesOf c).length := by
      rw [bytes_blank, List.length_replicate, length_bytesOf]
    rw [bytes_append, bytes_cons, List.getElem?_append, List.getElem?_append, hlength]
    split
    next hlt =>
      rw [length_bytesOf] at hlt
      rw [bytes_blank, List.getElem?_replicate, if_pos hlt]
      exact .inr rfl
    next => exact ih _

/-- **Every mask keeps the shape of a line.** -/
theorem keepsShape (h : Blanks raw masked) : KeepsShape raw masked where
  size_eq := h.size_eq
  byte := h.byte
  isBoundary _ := h.isBoundary
  visible := by
    rintro offset c ⟨before, after, rfl, rfl⟩ hc
    obtain ⟨left, right, hraw, hleft, -⟩ := h.exists_of_visible hc
    exact ⟨left, right, hraw, hleft.size_eq.symm⟩

end Blanks

/-- The lines of a mask are the given lines with characters blanked, one by one. -/
theorem forall₂_blanks (hides : Mark → Bool) (inComment : Bool) (lines : List Line) :
    List.Forall₂ Blanks lines ((markLines inComment lines).map (render hides)) := by
  induction lines generalizing inComment with
  | nil => exact .nil
  | cons line rest ih =>
    rw [markLines, List.map_cons]
    refine .cons ?_ (ih _)
    have hblanks := blanks_render hides
      (markLine (if inComment then .comment else .code) line).chars
    rwa [map_fst_markLine] at hblanks

end ScriptServer.Text
