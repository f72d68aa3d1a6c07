import ScriptServer.Proofs.Block

namespace ScriptServer

/-!
# The innermost block

Of the blocks around a position the one that begins last is taken.  Since blocks are nested or
apart and no two begin together, that is the smallest one, in whatever order they come.  For a spot
where code is visible it can be told from spots alone, so that the columns of the lines as written
have no part in it.

* `innermostPair?` — the pair of spots around a spot that opens last.
* `Source.innermost_eq` — the innermost block around a visible spot is the range of that pair.
* `Source.SmallestBlock` — the block around a position that lies inside every other one around it.
* `Source.innermost_cases_of_mem_iff`, `Source.innermost_eq_of_mem_iff` — the innermost block is the
  smallest, whatever the order of the blocks.
* `Source.innermost_smallest_in_any_order` — both together, for every permutation of the blocks.
* `Source.Surrounds`, `Source.Smallest` — matched braces around a spot, and the smallest of them.
* `Source.innermost_cases` — the innermost block around a visible spot belongs to the smallest pair.
-/

/-- Of two pairs the one that opens later. -/
def laterOpening : Option (Spot × Spot) → Spot × Spot → Option (Spot × Spot)
  | none, pair => some pair
  | some best, pair => if best.1 ≤ pair.1 then some pair else some best

/-- Whether a spot lies from the first spot of a pair to the second. -/
def isAround (spot : Spot) (pair : Spot × Spot) : Bool :=
  decide (pair.1 ≤ spot) && decide (spot ≤ pair.2)

/-- The pair around a spot that opens last. -/
def innermostPair? (pairs : List (Spot × Spot)) (spot : Spot) : Option (Spot × Spot) :=
  (pairs.filter (isAround spot)).foldl laterOpening none

namespace Source

/-- The pairs of matched braces of the code. -/
def pairs (source : Source) : List (Spot × Spot) := pairBraces [] (braces 0 source.code)

theorem blocks_eq (source : Source) : source.blocks = source.pairs.map source.rangeOf := rfl

theorem visible_of_mem_pairs {source : Source} {pair : Spot × Spot} (h : pair ∈ source.pairs) :
    source.Visible pair.1 ∧ source.Visible pair.2 :=
  (matched_of_mem_pairBraces h).visible

/-- Whether a block is around a visible spot can be told from spots. -/
theorem contains_rangeOf {text : String} {spot : Spot} {pair : Spot × Spot}
    (hspot : (ofText text).Visible spot) (hpair : pair ∈ (ofText text).pairs) :
    ((ofText text).rangeOf pair).contains ((ofText text).position spot) = isAround spot pair := by
  obtain ⟨hopens, hcloses⟩ := visible_of_mem_pairs hpair
  have hfirst := position_le_iff hopens hspot
  have hlast := position_le_iff hspot hcloses
  simp [Range.contains, rangeOf, isAround, hfirst, hlast]

/-- Going through the blocks by their beginnings is going through the pairs by theirs. -/
theorem foldl_laterStart (text : String) (pairs : List (Spot × Spot))
    (hpairs : ∀ pair ∈ pairs, pair ∈ (ofText text).pairs) (best : Option (Spot × Spot))
    (hbest : ∀ pair ∈ best, pair ∈ (ofText text).pairs) :
    (pairs.map (ofText text).rangeOf).foldl laterStart (best.map (ofText text).rangeOf)
      = (pairs.foldl laterOpening best).map (ofText text).rangeOf := by
  induction pairs generalizing best with
  | nil => rfl
  | cons pair rest ih =>
    have hpair : pair ∈ (ofText text).pairs := hpairs pair (List.mem_cons_self ..)
    have hrest : ∀ other ∈ rest, other ∈ (ofText text).pairs :=
      fun other hother => hpairs other (List.mem_cons_of_mem _ hother)
    rw [List.map_cons, List.foldl_cons, List.foldl_cons]
    cases best with
    | none => exact ih hrest (some pair) (by simpa using hpair)
    | some top =>
      have htop : top ∈ (ofText text).pairs := hbest top rfl
      have hiff := position_le_iff (visible_of_mem_pairs htop).1 (visible_of_mem_pairs hpair).1
      by_cases hle : top.1 ≤ pair.1
      · have hstep : laterStart (some ((ofText text).rangeOf top)) ((ofText text).rangeOf pair)
            = some ((ofText text).rangeOf pair) := if_pos (hiff.mpr hle)
        rw [Option.map_some, hstep, laterOpening, if_pos hle]
        exact ih hrest (some pair) (by simpa using hpair)
      · have hstep : laterStart (some ((ofText text).rangeOf top)) ((ofText text).rangeOf pair)
            = some ((ofText text).rangeOf top) := if_neg fun h => hle (hiff.mp h)
        rw [Option.map_some, hstep, laterOpening, if_neg hle]
        exact ih hrest (some top) (by simpa using htop)

/-- **The innermost block of a visible spot** is the range of the pair of braces around it that
    opens last. -/
theorem innermost_eq {text : String} {spot : Spot} (h : (ofText text).Visible spot)
    (fallback : Range) :
    innermost (ofText text).blocks ((ofText text).position spot) fallback
      = ((innermostPair? (ofText text).pairs spot).map (ofText text).rangeOf).getD fallback := by
  have haround : (ofText text).blocks.filter (·.contains ((ofText text).position spot))
      = ((ofText text).pairs.filter (isAround spot)).map (ofText text).rangeOf := by
    rw [blocks_eq, List.filter_map]
    congr 1
    exact List.filter_congr fun pair hpair => contains_rangeOf h hpair
  have hfold := foldl_laterStart text ((ofText text).pairs.filter (isAround spot))
    (fun pair hpair => (List.mem_filter.mp hpair).1) none (by simp)
  rw [innermost, haround, innermostPair?, ← hfold, Option.map_none]

/-- Whether any block is around a visible spot can be told from spots. -/
theorem any_contains_eq {text : String} {spot : Spot} (h : (ofText text).Visible spot) :
    (ofText text).blocks.any (·.contains ((ofText text).position spot))
      = (ofText text).pairs.any (isAround spot) := by
  rw [blocks_eq, List.any_map, Bool.eq_iff_iff, List.any_eq_true, List.any_eq_true]
  refine exists_congr fun pair => and_congr_right fun hpair => ?_
  rw [Function.comp_apply, contains_rangeOf h hpair]

end Source

/-! ### The smallest block -/

theorem Range.contains_iff {r : Range} {p : Position} :
    r.contains p = true ↔ r.first ≤ p ∧ p ≤ r.last := by
  simp [Range.contains]

theorem Range.encloses_iff {r other : Range} :
    r.encloses other = true ↔ r.first ≤ other.first ∧ other.last ≤ r.last := by
  simp [Range.encloses]

theorem Range.encloses_antisymm {a b : Range} (h : a.encloses b = true) (h' : b.encloses a = true) :
    a = b := by
  obtain ⟨hfirst, hlast⟩ := Range.encloses_iff.mp h
  obtain ⟨hfirst', hlast'⟩ := Range.encloses_iff.mp h'
  cases a
  cases b
  congr
  · exact Position.le_antisymm hfirst hfirst'
  · exact Position.le_antisymm hlast' hlast

/-- Going through ranges keeps one that begins as late as any. -/
theorem exists_foldl_laterStart (ranges : List Range) (best : Range) :
    ∃ r, ranges.foldl laterStart (some best) = some r ∧ (r = best ∨ r ∈ ranges)
      ∧ best.first ≤ r.first ∧ ∀ other ∈ ranges, other.first ≤ r.first := by
  induction ranges generalizing best with
  | nil => exact ⟨best, rfl, .inl rfl, Position.le_refl _, by simp⟩
  | cons range rest ih =>
    rw [List.foldl_cons]
    by_cases hle : best.first ≤ range.first
    · obtain ⟨r, hfold, hmem, hbest, hrest⟩ := ih range
      refine ⟨r, by rw [laterStart, if_pos hle, hfold], ?_, Position.le_trans hle hbest, ?_⟩
      · rcases hmem with rfl | hmem
        · exact .inr (List.mem_cons_self ..)
        · exact .inr (List.mem_cons_of_mem _ hmem)
      · exact List.forall_mem_cons.mpr ⟨hbest, hrest⟩
    · obtain ⟨r, hfold, hmem, hbest, hrest⟩ := ih best
      refine ⟨r, by rw [laterStart, if_neg hle, hfold], ?_, hbest, ?_⟩
      · exact hmem.imp_right (List.mem_cons_of_mem _)
      · have hrange := Position.le_trans (Position.le_of_lt (Position.not_le.mp hle)) hbest
        exact List.forall_mem_cons.mpr ⟨hrange, hrest⟩

/-- The innermost range around a position begins as late as any other around it. -/
theorem exists_innermost (blocks : List Range) (point : Position) (fallback : Range) :
    (∃ r ∈ blocks, r.contains point ∧ innermost blocks point fallback = r
        ∧ ∀ other ∈ blocks, other.contains point → other.first ≤ r.first)
      ∨ (∀ r ∈ blocks, ¬ r.contains point) ∧ innermost blocks point fallback = fallback := by
  unfold innermost
  cases hfilter : blocks.filter (·.contains point) with
  | nil =>
    refine .inr ⟨fun r hr hcontains => ?_, rfl⟩
    have hmem : r ∈ blocks.filter (·.contains point) := List.mem_filter.mpr ⟨hr, hcontains⟩
    rw [hfilter] at hmem
    cases hmem
  | cons first rest =>
    obtain ⟨r, hfold, hmem, hfirst, hrest⟩ := exists_foldl_laterStart rest first
    have hr : r ∈ blocks.filter (·.contains point) := by
      rw [hfilter]
      exact List.mem_cons.mpr hmem
    obtain ⟨hblock, hcontains⟩ := List.mem_filter.mp hr
    refine .inl ⟨r, hblock, hcontains, ?_, fun other hother haround => ?_⟩
    · show ((rest.foldl laterStart (some first)).getD fallback) = r
      rw [hfold]
      rfl
    · have hother' : other ∈ first :: rest := by
        rw [← hfilter]
        exact List.mem_filter.mpr ⟨hother, haround⟩
      rcases List.mem_cons.mp hother' with rfl | hin
      · exact hfirst
      · exact hrest other hin

namespace Source

/-- Of two blocks around a position the one that begins no later lies around the other. -/
theorem encloses_of_first_le {text : String} {a b : Range} {point : Position}
    (ha : a ∈ (ofText text).blocks) (hb : b ∈ (ofText text).blocks) (hpoint : a.contains point)
    (hpoint' : b.contains point) (hle : a.first ≤ b.first) : a.encloses b := by
  rw [Range.encloses_iff]
  by_cases heq : a = b
  · rw [heq]
    exact ⟨Position.le_refl _, Position.le_refl _⟩
  · rw [Range.contains_iff] at hpoint hpoint'
    have hoverlaps : a.overlaps b = true := by
      simp [Range.overlaps, Position.le_trans hpoint.1 hpoint'.2,
        Position.le_trans hpoint'.1 hpoint.2]
    rcases nested_or_apart ha hb heq with hapart | ⟨-, hlast⟩ | ⟨hfirst, -⟩
    · rw [hapart] at hoverlaps
      cases hoverlaps
    · exact ⟨hle, Position.le_of_lt hlast⟩
    · exact absurd hle (Position.not_le.mpr hfirst)

/-- The smallest block around a position: it is around it, and every block around the position
    lies around it too. -/
structure SmallestBlock (source : Source) (point : Position) (r : Range) : Prop where
  mem : r ∈ source.blocks
  around : r.contains point = true
  least : ∀ other ∈ source.blocks, other.contains point = true → other.encloses r = true

theorem SmallestBlock.unique {source : Source} {point : Position} {r r' : Range}
    (h : source.SmallestBlock point r) (h' : source.SmallestBlock point r') : r = r' :=
  Range.encloses_antisymm (h'.least r h.mem h.around) (h.least r' h'.mem h'.around)

/-- **The innermost block is the smallest,** in whatever order the blocks are gone through. -/
theorem innermost_cases_of_mem_iff {text : String} {order : List Range}
    (horder : ∀ r, r ∈ order ↔ r ∈ (ofText text).blocks) (point : Position) (fallback : Range) :
    (ofText text).SmallestBlock point (innermost order point fallback)
      ∨ (∀ r ∈ (ofText text).blocks, ¬ r.contains point)
        ∧ innermost order point fallback = fallback := by
  rcases exists_innermost order point fallback with ⟨r, hr, hpoint, heq, hfirst⟩ | ⟨hnone, heq⟩
  · have hmem := (horder r).mp hr
    rw [heq]
    refine .inl ⟨hmem, hpoint, fun other hother hpoint' => ?_⟩
    have hle := hfirst other ((horder other).mpr hother) hpoint'
    exact encloses_of_first_le hother hmem hpoint' hpoint hle
  · exact .inr ⟨fun r hr => hnone r ((horder r).mpr hr), heq⟩

theorem innermost_blocks_cases (text : String) (point : Position) (fallback : Range) :
    (∃ r ∈ (ofText text).blocks, r.contains point
        ∧ innermost (ofText text).blocks point fallback = r
        ∧ ∀ other ∈ (ofText text).blocks, other.contains point → other.encloses r)
      ∨ (∀ r ∈ (ofText text).blocks, ¬ r.contains point)
        ∧ innermost (ofText text).blocks point fallback = fallback := by
  rcases innermost_cases_of_mem_iff (fun _ => Iff.rfl) point fallback with hsmallest | hnone
  · exact .inl ⟨_, hsmallest.mem, hsmallest.around, rfl, hsmallest.least⟩
  · exact .inr hnone

/-- The order of the blocks does not count.  Of ranges that begin together the last in the list would
    be taken, but no two blocks do. -/
theorem innermost_eq_of_mem_iff {text : String} {order : List Range}
    (horder : ∀ r, r ∈ order ↔ r ∈ (ofText text).blocks) (point : Position) (fallback : Range) :
    innermost order point fallback = innermost (ofText text).blocks point fallback := by
  rcases innermost_cases_of_mem_iff horder point fallback with hsmallest | ⟨hnone, heq⟩
  · rcases innermost_cases_of_mem_iff (fun _ => Iff.rfl) point fallback with hsmallest' | ⟨hnone, -⟩
    · exact hsmallest.unique hsmallest'
    · exact absurd hsmallest.around (hnone _ hsmallest.mem)
  · rcases innermost_cases_of_mem_iff (fun _ => Iff.rfl) point fallback with hsmallest | ⟨-, heq'⟩
    · exact absurd hsmallest.around (hnone _ hsmallest.mem)
    · rw [heq, heq']

/-- **Innermost means smallest.**  Let the blocks of a text be given in any order.  When some block
    is around a position, the one that is found is around it and lies inside every other one around
    it; when none is, the range of the whole text is found.  So the order makes no difference. -/
theorem innermost_smallest_in_any_order {text : String} {order : List Range}
    (h : order.Perm (ofText text).blocks) (point : Position) :
    let source := ofText text
    ((∃ r ∈ source.blocks, r.contains point = true) →
        ∀ r, innermost order point source.whole = r ↔ source.SmallestBlock point r)
      ∧ ((∀ r ∈ source.blocks, r.contains point = false) →
        innermost order point source.whole = source.whole)
      ∧ innermost order point source.whole = innermost source.blocks point source.whole := by
  intro source
  have horder : ∀ r, r ∈ order ↔ r ∈ source.blocks := fun r => h.mem_iff
  refine ⟨?_, fun hnone => ?_, innermost_eq_of_mem_iff horder point source.whole⟩
  · rintro ⟨block, hblock, haround⟩ r
    rcases innermost_cases_of_mem_iff horder point source.whole with hsmallest | ⟨hnone, -⟩
    · constructor
      · rintro rfl
        exact hsmallest
      · exact hsmallest.unique
    · exact absurd haround (hnone block hblock)
  · rcases innermost_cases_of_mem_iff horder point source.whole with hsmallest | ⟨-, heq⟩
    · have haround := hsmallest.around
      rw [hnone _ hsmallest.mem] at haround
      cases haround
    · exact heq

/-- A block that begins in a block and ends right before its end. -/
def blockInBlock : String := "\x7b \x7b\n\x7d\x7d"

/-- At the brace that opens the inner block, the outer one is around too: also when that comes
    first, the inner one is found. -/
theorem innermost_smallest_outer_first :
    [⟨⟨0, 0⟩, ⟨1, 1⟩⟩, ⟨⟨0, 2⟩, ⟨1, 0⟩⟩].Perm (ofText blockInBlock).blocks
      ∧ (∃ r ∈ (ofText blockInBlock).blocks, r.contains ⟨0, 2⟩ = true)
      ∧ innermost [⟨⟨0, 0⟩, ⟨1, 1⟩⟩, ⟨⟨0, 2⟩, ⟨1, 0⟩⟩] ⟨0, 2⟩ (ofText blockInBlock).whole
        = ⟨⟨0, 2⟩, ⟨1, 0⟩⟩
      ∧ (ofText blockInBlock).SmallestBlock ⟨0, 2⟩ ⟨⟨0, 2⟩, ⟨1, 0⟩⟩ := by
  have hblocks : (ofText blockInBlock).blocks = [⟨⟨0, 2⟩, ⟨1, 0⟩⟩, ⟨⟨0, 0⟩, ⟨1, 1⟩⟩] := by
    decide +kernel
  have horder : [⟨⟨0, 0⟩, ⟨1, 1⟩⟩, ⟨⟨0, 2⟩, ⟨1, 0⟩⟩].Perm (ofText blockInBlock).blocks := by
    rw [hblocks]
    exact List.Perm.swap ..
  have hsome : ∃ r ∈ (ofText blockInBlock).blocks, r.contains ⟨0, 2⟩ = true := by
    rw [hblocks]
    exact ⟨_, List.mem_cons_self, by decide⟩
  have hfound : innermost [⟨⟨0, 0⟩, ⟨1, 1⟩⟩, ⟨⟨0, 2⟩, ⟨1, 0⟩⟩] ⟨0, 2⟩ (ofText blockInBlock).whole
      = ⟨⟨0, 2⟩, ⟨1, 0⟩⟩ := by decide
  exact ⟨horder, hsome, hfound,
    ((innermost_smallest_in_any_order horder ⟨0, 2⟩).1 hsome _).mp hfound⟩

/-- Matched braces of the code with a spot between them. -/
def Surrounds (source : Source) (pair : Spot × Spot) (spot : Spot) : Prop :=
  source.Matched pair.1 pair.2 ∧ pair.1 ≤ spot ∧ spot ≤ pair.2

/-- The smallest pair of matched braces around a spot: every other one is around it. -/
def Smallest (source : Source) (pair : Spot × Spot) (spot : Spot) : Prop :=
  source.Surrounds pair spot
    ∧ ∀ other, source.Surrounds other spot → other.1 ≤ pair.1 ∧ pair.2 ≤ other.2

/-- Whether a block is around a visible spot can be told from its braces. -/
theorem contains_rangeOf_iff {text : String} {spot : Spot}
    (hspot : (ofText text).Visible spot) (pair : Spot × Spot)
    (hpair : (ofText text).Matched pair.1 pair.2) :
    ((ofText text).rangeOf pair).contains ((ofText text).position spot)
      ↔ (ofText text).Surrounds pair spot := by
  rw [Range.contains_iff]
  have hopens := position_le_iff hpair.visible.1 hspot
  have hcloses := position_le_iff hspot hpair.visible.2
  simp [rangeOf, Surrounds, hpair, hopens, hcloses]

/-- **The block around a visible spot** belongs to the smallest pair of braces around it; without
    any pair around it there is none. -/
theorem innermost_cases {text : String} {spot : Spot} (h : (ofText text).Visible spot)
    (fallback : Range) :
    (∃ pair, (ofText text).Smallest pair spot
        ∧ innermost (ofText text).blocks ((ofText text).position spot) fallback
          = (ofText text).rangeOf pair)
      ∨ (∀ pair, ¬ (ofText text).Surrounds pair spot)
        ∧ innermost (ofText text).blocks ((ofText text).position spot) fallback = fallback := by
  rcases innermost_blocks_cases text ((ofText text).position spot) fallback with
    ⟨r, hr, hpoint, heq, hleast⟩ | ⟨hnone, heq⟩
  · obtain ⟨opens, closes, hmatched, rfl⟩ := mem_blocks_iff.mp hr
    refine .inl ⟨(opens, closes), ⟨?_, fun other hother => ?_⟩, heq⟩
    · exact (contains_rangeOf_iff h (opens, closes) hmatched).mp hpoint
    · have hblock : (ofText text).rangeOf other ∈ (ofText text).blocks :=
        mem_blocks_iff.mpr ⟨other.1, other.2, hother.1, rfl⟩
      have hencloses := hleast _ hblock ((contains_rangeOf_iff h other hother.1).mpr hother)
      rw [Range.encloses_iff] at hencloses
      exact ⟨(position_le_iff hother.1.visible.1 hmatched.visible.1).mp hencloses.1,
        (position_le_iff hmatched.visible.2 hother.1.visible.2).mp hencloses.2⟩
  · refine .inr ⟨fun pair hpair => ?_, heq⟩
    have hblock : (ofText text).rangeOf pair ∈ (ofText text).blocks :=
      mem_blocks_iff.mpr ⟨pair.1, pair.2, hpair.1, rfl⟩
    exact hnone _ hblock ((contains_rangeOf_iff h pair hpair.1).mpr hpair)

/-- Whether any block is around a visible spot can be told from the braces. -/
theorem any_contains_iff {text : String} {spot : Spot} (h : (ofText text).Visible spot) :
    (ofText text).blocks.any (·.contains ((ofText text).position spot)) = true
      ↔ ∃ pair, (ofText text).Surrounds pair spot := by
  rw [List.any_eq_true]
  constructor
  · rintro ⟨r, hr, hpoint⟩
    obtain ⟨opens, closes, hmatched, rfl⟩ := mem_blocks_iff.mp hr
    exact ⟨(opens, closes), (contains_rangeOf_iff h (opens, closes) hmatched).mp hpoint⟩
  · rintro ⟨pair, hpair⟩
    exact ⟨_, mem_blocks_iff.mpr ⟨pair.1, pair.2, hpair.1, rfl⟩,
      (contains_rangeOf_iff h pair hpair.1).mpr hpair⟩

end Source

end ScriptServer
