import Mathlib.Data.List.Basic
import ScriptServer.Proofs.Visibility

namespace ScriptServer

/-!
# Counting finds the blocks of the stack

A body is searched by counting braces from its opening one on, blocks are found with a stack from
the beginning of the file on.  What stands before the opening brace has no influence on its partner,
be it braces that close nothing or blocks that are still open.

* `Source.cursorAt` — a spot of the code with all that follows it.
* `Source.partner?` — the brace that counting finds for the one at a spot.
* `Source.partner?_eq_some_iff` — it is the brace that is matched with it.
* `Outline.body_search_agrees_with_blocks` — so counting finds exactly the blocks, and bodies are
  blocks.
-/

open Text

namespace Source

open Declaration

/-- A spot of the code with all that follows it. -/
def cursorAt (source : Source) (spot : Spot) : Cursor :=
  ⟨spot.line, spot.offset, (splitAtOffset (source.code.getD spot.line []) spot.offset).2,
    source.code.drop (spot.line + 1)⟩

/-- The brace that closes what the brace at a spot opens, by counting from there on. -/
def partner? (source : Source) (opens : Spot) : Option Spot :=
  (source.cursorAt opens).partner?

/-- An opening brace of the code stands at the cursor of its spot. -/
theorem isIn_cursorAt {source : Source} {opens : Spot} (h : ('{', opens) ∈ source.stream) :
    (source.cursorAt opens).IsIn source.code
      ∧ ∃ rest, (source.cursorAt opens).here = '{' :: rest := by
  obtain ⟨before, after, hline, hsize⟩ := mem_stream.mp h
  have hlt : opens.line < source.code.length := by
    by_contra hout
    rw [List.getD_eq_default _ _ (Nat.le_of_not_lt hout)] at hline
    simp at hline
  have hhere : (source.cursorAt opens).here = '{' :: after := by
    simp only [cursorAt, hline, ← hsize, splitAtOffset_size]
  refine ⟨⟨source.code.take opens.line, before, ?_, ?_, hsize⟩, after, hhere⟩
  · rw [hhere, ← hline, List.getD_eq_getElem _ _ hlt]
    simp [cursorAt]
  · exact List.length_take_of_le (Nat.le_of_lt hlt)

/-- The braces of the code, cut at an opening one. -/
theorem exists_braces_eq {source : Source} {opens : Spot} (h : ('{', opens) ∈ source.stream) :
    ∃ earlier, braces 0 source.code
      = earlier ++ ⟨true, opens⟩ :: (source.cursorAt opens).braces.tail := by
  obtain ⟨hin, rest, hhere⟩ := isIn_cursorAt h
  obtain ⟨earlier, hearlier⟩ := hin.exists_braces
  have hbraces : (source.cursorAt opens).braces
      = ⟨true, opens⟩ :: (source.cursorAt opens).braces.tail := by
    rw [Cursor.braces, hhere]
    rfl
  exact ⟨earlier, by rw [hearlier, ← hbraces]⟩

/-- **Counting and matching agree.**  For an opening brace of the code, counting finds exactly the
    brace that is matched with it. -/
theorem partner?_eq_some_iff {source : Source} {opens closes : Spot}
    (h : ('{', opens) ∈ source.stream) :
    source.partner? opens = some closes ↔ source.Matched opens closes := by
  obtain ⟨hin, rest, hhere⟩ := isIn_cursorAt h
  constructor
  · intro hpartner
    exact hin.matched hhere hpartner
  · intro hmatched
    obtain ⟨before, between, after, hsplit, hbalanced⟩ := matchedIn_braces_iff.mpr hmatched
    obtain ⟨earlier, hearlier⟩ := exists_braces_eq h
    -- no spot comes twice, so both cuts are at the same brace
    have hsorted := pairwise_braces 0 source.code
    rw [hearlier, List.pairwise_append, List.pairwise_cons] at hsorted
    have hcut : earlier ++ ⟨true, opens⟩ :: (source.cursorAt opens).braces.tail
        = before ++ ⟨true, opens⟩ :: (between ++ ⟨false, closes⟩ :: after) := by
      rw [← hearlier, hsplit]
      simp
    have hirrefl : ¬ opens < opens := by
      rw [Spot.lt_def]
      omega
    have htail := ((List.append_cons_inj_of_notMem
      (fun hmem => hirrefl (hsorted.2.2 _ hmem _ List.mem_cons_self))
      (fun hmem => hirrefl (hsorted.2.1.1 _ hmem))).mp hcut).2.2
    rw [partner?, Cursor.partner?, htail,
      matchingClose?_append_of_balanced hbalanced between _ 0 rfl, matchingClose?_found rfl]

theorem Matched.mem_stream {source : Source} {opens closes : Spot}
    (h : source.Matched opens closes) : ('{', opens) ∈ source.stream := by
  obtain ⟨before, between, after, hstream, -⟩ := h
  rw [hstream]
  simp

/-- Visible spots at one position are the same. -/
theorem eq_of_position_eq {text : String} {a b : Spot} (ha : (ofText text).Visible a)
    (hb : (ofText text).Visible b) (h : (ofText text).position a = (ofText text).position b) :
    a = b := by
  have hab := (position_le_iff ha hb).mp (by rw [h]; exact Position.le_refl _)
  have hba := (position_le_iff hb ha).mp (by rw [h]; exact Position.le_refl _)
  obtain ⟨line, offset⟩ := a
  obtain ⟨line', offset'⟩ := b
  rw [Spot.le_def] at hab hba
  simp only at hab hba
  obtain ⟨rfl, rfl⟩ : line = line' ∧ offset = offset' := by omega
  rfl

/-- The blocks that begin at an opening brace are those that end at its partner. -/
theorem mem_blocks_iff_partner? {text : String} {opens : Spot}
    (h : ('{', opens) ∈ (ofText text).stream) (last : Position) :
    ⟨(ofText text).position opens, last⟩ ∈ (ofText text).blocks
      ↔ ((ofText text).partner? opens).map (ofText text).position = some last := by
  rw [mem_blocks_iff, Option.map_eq_some_iff]
  constructor
  · rintro ⟨opens', closes, hmatched, heq⟩
    obtain ⟨hfirst, rfl⟩ := Range.mk.inj heq
    have hsame : opens = opens' :=
      eq_of_position_eq ⟨'{', h, by decide⟩ hmatched.visible.1 hfirst
    subst hsame
    exact ⟨closes, (partner?_eq_some_iff h).mpr hmatched, rfl⟩
  · rintro ⟨closes, hpartner, rfl⟩
    exact ⟨opens, closes, (partner?_eq_some_iff h).mp hpartner, rfl⟩

theorem partner?_eq_none_iff {text : String} {opens : Spot}
    (h : ('{', opens) ∈ (ofText text).stream) :
    (ofText text).partner? opens = none
      ↔ ∀ block ∈ (ofText text).blocks, block.first ≠ (ofText text).position opens := by
  constructor
  · rintro hnone ⟨first, last⟩ hblock rfl
    have hsome := (mem_blocks_iff_partner? h last).mp hblock
    rw [hnone] at hsome
    cases hsome
  · intro hblocks
    cases hpartner : (ofText text).partner? opens with
    | none => rfl
    | some closes =>
      have hblock := (mem_blocks_iff_partner? h ((ofText text).position closes)).mpr
        (by rw [hpartner]; rfl)
      exact absurd rfl (hblocks _ hblock)

end Source

namespace Outline

open Declaration

/-- The body of a function is a block, and so is the scope of a parameter. -/
theorem body_mem_blocks {syn : ModuleSyntax} {uri : Uri} {text : String} {s : Symbol}
    (hs : s ∈ (table syn uri text).symbols) :
    (∀ params doc scope body topLevel, s.role = .func params doc scope body topLevel →
        body ∈ (Source.ofText text).blocks)
      ∧ ∀ owner scope, s.role = .param owner scope → scope ∈ (Source.ofText text).blocks := by
  obtain ⟨found, hfound, hmem⟩ := exists_finding_of_mem_table hs
  cases found with
  | declares name span =>
    cases List.mem_singleton.mp hmem
    exact ⟨nofun, nofun⟩
  | imports name span =>
    cases List.mem_singleton.mp hmem
    exact ⟨nofun, nofun⟩
  | assigns name span =>
    cases List.mem_singleton.mp hmem
    exact ⟨nofun, nofun⟩
  | function header =>
    have hbody := Source.mem_blocks_iff.mpr ⟨_, _, matched_of_mem_findings hfound, rfl⟩
    rcases List.mem_cons.mp hmem with rfl | hparameter
    · refine ⟨?_, nofun⟩
      rintro _ _ _ _ _ ⟨⟩
      exact hbody
    · obtain ⟨parameter, -, rfl⟩ := List.mem_map.mp hparameter
      refine ⟨nofun, ?_⟩
      rintro _ _ ⟨⟩
      exact hbody

/-- **Body search and blocks agree.**  For every opening brace of the code, counting finds a brace
    at a position exactly when the range up to there is a block, and finds none exactly when no
    block begins there.  Headers are read with this search, so the body of every function and the
    scope of every parameter is a block. -/
theorem body_search_agrees_with_blocks (syn : ModuleSyntax) (uri : Uri) (text : String) :
    (∀ opens, ('{', opens) ∈ (Source.ofText text).stream →
        (∀ last, ((Source.ofText text).partner? opens).map (Source.ofText text).position = some last
            ↔ ⟨(Source.ofText text).position opens, last⟩ ∈ (Source.ofText text).blocks)
          ∧ ((Source.ofText text).partner? opens = none
            ↔ ∀ block ∈ (Source.ofText text).blocks,
                block.first ≠ (Source.ofText text).position opens))
      ∧ (∀ header, .function header ∈ findings syn (Source.ofText text).code →
          ('{', header.opens) ∈ (Source.ofText text).stream
            ∧ (Source.ofText text).partner? header.opens = some header.closes)
      ∧ ∀ s ∈ (table syn uri text).symbols,
          (∀ params doc scope body topLevel, s.role = .func params doc scope body topLevel →
              body ∈ (Source.ofText text).blocks)
            ∧ ∀ owner scope, s.role = .param owner scope →
                scope ∈ (Source.ofText text).blocks := by
  refine ⟨fun opens hopens => ⟨fun last => ?_, Source.partner?_eq_none_iff hopens⟩,
    fun header hheader => ?_, fun s hs => body_mem_blocks hs⟩
  · exact (Source.mem_blocks_iff_partner? hopens last).symm
  · have hmatched := matched_of_mem_findings hheader
    exact ⟨hmatched.mem_stream, (Source.partner?_eq_some_iff hmatched.mem_stream).mpr hmatched⟩

end Outline

end ScriptServer
