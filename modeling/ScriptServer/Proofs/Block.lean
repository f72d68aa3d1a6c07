import ScriptServer.Block
import ScriptServer.Proofs.Source

namespace ScriptServer

/-!
# Blocks are matched braces

The blocks of a script are found with a stack.  Here they are described without one.

* `Balanced` — words of opening and closing braces in which every brace has its partner.
* `Source.Matched` — an opening and a later closing brace of the code with a balanced word between
  them.
* `mem_pairBraces_iff` — the stack finds exactly the matched braces.
* `pairwise_pairBraces` — it finds them in the order in which they close, nested or apart.
* `Source.blocks_exactly_matched_braces` — both together, for the blocks of every text.
-/

open Text

/-- Words of braces, `true` for an opening one, in which every brace has its partner. -/
inductive Balanced : List Bool → Prop where
  | nil : Balanced []
  | block {inner rest : List Bool} (hinner : Balanced inner) (hrest : Balanced rest) :
      Balanced (true :: inner ++ false :: rest)

theorem Balanced.append {a b : List Bool} (ha : Balanced a) (hb : Balanced b) :
    Balanced (a ++ b) := by
  induction ha with
  | nil => exact hb
  | @block inner rest hinner _ _ ih =>
    have hblock := Balanced.block hinner ih
    simpa using hblock

/-! ### What the stack finds -/

section Steps

variable {brace : Brace} {rest : List Brace}

theorem pairBraces_opens (stack : List Spot) (h : brace.opens = true) :
    pairBraces stack (brace :: rest) = pairBraces (brace.spot :: stack) rest := by
  simp [pairBraces, h]

theorem pairBraces_stray (h : brace.opens = false) :
    pairBraces [] (brace :: rest) = pairBraces [] rest := by
  simp [pairBraces, h]

theorem pairBraces_closes (top : Spot) (stack : List Spot) (h : brace.opens = false) :
    pairBraces (top :: stack) (brace :: rest) = (top, brace.spot) :: pairBraces stack rest := by
  simp [pairBraces, h]

end Steps

/-- After some braces a stack is left: its top is followed by a balanced word, and what was there
    before the top left the rest of the stack. -/
inductive Leaves : List Brace → List Spot → Prop where
  | empty (done : List Brace) : Leaves done []
  | push {before between : List Brace} {stack : List Spot} (spot : Spot)
      (hbefore : Leaves before stack) (hbetween : Balanced (between.map (·.opens))) :
      Leaves (before ++ ⟨true, spot⟩ :: between) (spot :: stack)

/-- A balanced word leaves the stack as it was. -/
theorem Leaves.append {done word : List Brace} {stack : List Spot} (h : Leaves done stack)
    (hword : Balanced (word.map (·.opens))) : Leaves (done ++ word) stack := by
  cases h with
  | empty => exact .empty _
  | @push before between stack spot hbefore hbetween =>
    have hboth : Balanced ((between ++ word).map (·.opens)) := by
      rw [List.map_append]
      exact hbetween.append hword
    have hpush := Leaves.push spot hbefore hboth
    simpa using hpush

/-- An opening brace and a later closing one with a balanced word between them. -/
def MatchedIn (braces : List Brace) (opens closes : Spot) : Prop :=
  ∃ before between after,
    braces = before ++ ⟨true, opens⟩ :: between ++ ⟨false, closes⟩ :: after
      ∧ Balanced (between.map (·.opens))

/-- Every pair that the stack finds is matched.  The braces done so far have left the stack. -/
theorem matchedIn_of_mem_pairBraces {done rest : List Brace} {stack : List Spot}
    {opens closes : Spot} (hleaves : Leaves done stack)
    (h : (opens, closes) ∈ pairBraces stack rest) : MatchedIn (done ++ rest) opens closes := by
  induction rest generalizing done stack with
  | nil => cases h
  | cons brace rest ih =>
    obtain ⟨isOpening, spot⟩ := brace
    rw [List.append_cons]
    cases isOpening with
    | true => exact ih (.push spot hleaves .nil) h
    | false =>
      cases hleaves with
      | empty => exact ih (.empty _) h
      | @push before between stack top hbefore hbetween =>
        rcases List.mem_cons.mp h with heq | hlater
        · cases heq
          exact ⟨before, between, rest, by simp, hbetween⟩
        · refine ih ?_ hlater
          -- the top, the word after it and the closing brace are a balanced word
          have hblock : Balanced
              ((⟨true, top⟩ :: between ++ [⟨false, spot⟩] : List Brace).map (·.opens)) := by
            have := hbetween.block .nil
            simpa using this
          have hleft := hbefore.append hblock
          simpa using hleft

/-- Through a balanced word the stack is only looked at from above. -/
theorem pairBraces_append_of_balanced {word : List Bool} (hword : Balanced word) :
    ∀ (braces rest : List Brace) (stack : List Spot), braces.map (·.opens) = word →
      ∃ found, pairBraces stack (braces ++ rest) = found ++ pairBraces stack rest := by
  induction hword with
  | nil =>
    intro braces rest stack hbraces
    rw [List.map_eq_nil_iff.mp hbraces]
    exact ⟨[], rfl⟩
  | @block inner outer _ _ ihinner ihouter =>
    intro braces rest stack hbraces
    obtain ⟨head, tail, rfl, htail, hlast⟩ := List.map_eq_append_iff.mp hbraces
    obtain ⟨first, head, rfl, hfirst, hhead⟩ := List.map_eq_cons_iff.mp htail
    obtain ⟨last, tail, rfl, hlast, htail⟩ := List.map_eq_cons_iff.mp hlast
    obtain ⟨found, hfound⟩ :=
      ihinner head (last :: tail ++ rest) (first.spot :: stack) hhead
    obtain ⟨later, hlater⟩ := ihouter tail rest stack htail
    refine ⟨found ++ (first.spot, last.spot) :: later, ?_⟩
    have hopen : pairBraces stack (first :: head ++ last :: tail ++ rest)
        = pairBraces (first.spot :: stack) (head ++ (last :: tail ++ rest)) := by
      rw [List.append_assoc, List.cons_append, pairBraces_opens stack hfirst]
    have hclose : pairBraces (first.spot :: stack) (last :: tail ++ rest)
        = (first.spot, last.spot) :: pairBraces stack (tail ++ rest) := by
      rw [List.cons_append, pairBraces_closes _ stack hlast]
    rw [hopen, hfound, hclose, hlater, List.append_assoc, List.cons_append]

/-- Braces change the stack and find some pairs; what follows is found from the new stack on. -/
theorem exists_pairBraces_append (stack : List Spot) (before rest : List Brace) :
    ∃ found stack', pairBraces stack (before ++ rest) = found ++ pairBraces stack' rest := by
  induction before generalizing stack with
  | nil => exact ⟨[], stack, rfl⟩
  | cons brace before ih =>
    rw [List.cons_append]
    cases hopens : brace.opens with
    | true =>
      rw [pairBraces_opens stack hopens]
      exact ih _
    | false =>
      cases stack with
      | nil =>
        rw [pairBraces_stray hopens]
        exact ih []
      | cons top stack =>
        obtain ⟨found, stack', hfound⟩ := ih stack
        refine ⟨(top, brace.spot) :: found, stack', ?_⟩
        rw [pairBraces_closes top stack hopens, hfound, List.cons_append]

/-- **The stack finds exactly the matched braces.** -/
theorem mem_pairBraces_iff {braces : List Brace} {opens closes : Spot} :
    (opens, closes) ∈ pairBraces [] braces ↔ MatchedIn braces opens closes := by
  constructor
  · intro h
    exact matchedIn_of_mem_pairBraces (.empty []) h
  · rintro ⟨before, between, after, rfl, hbetween⟩
    obtain ⟨found, stack, hfound⟩ := exists_pairBraces_append [] before
      (⟨true, opens⟩ :: between ++ ⟨false, closes⟩ :: after)
    obtain ⟨inner, hinner⟩ := pairBraces_append_of_balanced hbetween between
      (⟨false, closes⟩ :: after) (opens :: stack) rfl
    have hopen : pairBraces stack (⟨true, opens⟩ :: between ++ ⟨false, closes⟩ :: after)
        = pairBraces (opens :: stack) (between ++ ⟨false, closes⟩ :: after) := by
      rw [List.cons_append, pairBraces_opens stack rfl]
    have hclose : pairBraces (opens :: stack) (⟨false, closes⟩ :: after)
        = (opens, closes) :: pairBraces stack after := by
      rw [pairBraces_closes opens stack rfl]
    rw [List.append_assoc, hfound, hopen, hinner, hclose]
    simp

/-! ### The order of what it finds -/

/-- What is found begins on the stack or at a later opening brace, and ends at a later closing
    one. -/
theorem mem_of_mem_pairBraces {stack : List Spot} {braces : List Brace} {opens closes : Spot}
    (h : (opens, closes) ∈ pairBraces stack braces) :
    (opens ∈ stack ∨ ⟨true, opens⟩ ∈ braces) ∧ ⟨false, closes⟩ ∈ braces := by
  induction braces generalizing stack with
  | nil => cases h
  | cons brace rest ih =>
    obtain ⟨isOpening, spot⟩ := brace
    cases isOpening with
    | true =>
      rw [pairBraces_opens stack rfl] at h
      obtain ⟨hopens, hcloses⟩ := ih h
      refine ⟨?_, List.mem_cons_of_mem _ hcloses⟩
      rcases hopens with hopens | hopens
      · rcases List.mem_cons.mp hopens with rfl | hopens
        · exact .inr (List.mem_cons_self ..)
        · exact .inl hopens
      · exact .inr (List.mem_cons_of_mem _ hopens)
    | false =>
      cases stack with
      | nil =>
        rw [pairBraces_stray rfl] at h
        obtain ⟨hopens, hcloses⟩ := ih h
        exact ⟨hopens.imp_right (List.mem_cons_of_mem _), List.mem_cons_of_mem _ hcloses⟩
      | cons top stack =>
        rw [pairBraces_closes top stack rfl] at h
        rcases List.mem_cons.mp h with heq | hlater
        · cases heq
          exact ⟨.inl (List.mem_cons_self ..), List.mem_cons_self ..⟩
        · obtain ⟨hopens, hcloses⟩ := ih hlater
          exact ⟨hopens.imp (List.mem_cons_of_mem _) (List.mem_cons_of_mem _),
            List.mem_cons_of_mem _ hcloses⟩

/-- **Nested or apart.**  Pairs are found in the order in which they close, and a later pair begins
    before an earlier one or after its end.  The stack holds earlier braces, the latest first. -/
theorem pairwise_pairBraces {stack : List Spot} {braces : List Brace}
    (hbraces : braces.Pairwise (fun a b => a.spot < b.spot))
    (hstack : stack.Pairwise (fun a b => b < a))
    (hearlier : ∀ spot ∈ stack, ∀ brace ∈ braces, spot < brace.spot) :
    (pairBraces stack braces).Pairwise
      (fun a b => a.2 < b.2 ∧ (b.1 < a.1 ∨ a.2 < b.1)) := by
  induction braces generalizing stack with
  | nil => exact .nil
  | cons brace rest ih =>
    obtain ⟨hfirst, hrest⟩ := List.pairwise_cons.mp hbraces
    have hbelow : ∀ spot ∈ stack, ∀ brace ∈ rest, spot < brace.spot :=
      fun spot hspot later hlater => hearlier spot hspot later (List.mem_cons_of_mem _ hlater)
    cases hopens : brace.opens with
    | true =>
      rw [pairBraces_opens stack hopens]
      refine ih hrest (List.pairwise_cons.mpr ⟨?_, hstack⟩) ?_
      · intro spot hspot
        exact hearlier spot hspot brace (List.mem_cons_self ..)
      · intro spot hspot later hlater
        rcases List.mem_cons.mp hspot with rfl | hspot
        · exact hfirst later hlater
        · exact hbelow spot hspot later hlater
    | false =>
      cases stack with
      | nil =>
        rw [pairBraces_stray hopens]
        exact ih hrest .nil hbelow
      | cons top stack =>
        obtain ⟨htop, hstack⟩ := List.pairwise_cons.mp hstack
        rw [pairBraces_closes top stack hopens, List.pairwise_cons]
        refine ⟨?_, ih hrest hstack fun spot hspot => hbelow spot (List.mem_cons_of_mem _ hspot)⟩
        rintro ⟨opens, closes⟩ hlater
        obtain ⟨hopens, hcloses⟩ := mem_of_mem_pairBraces hlater
        refine ⟨hfirst _ hcloses, ?_⟩
        -- a later pair begins below the top of the stack or behind the closing brace
        rcases hopens with hopens | hopens
        · exact .inl (htop opens hopens)
        · exact .inr (hfirst _ hopens)

/-! ### Braces as characters of the code -/

/-- What a character does to the nesting: `true` when it opens a block, `false` when it closes
    one. -/
def nesting? (c : Char) : Option Bool :=
  if c = '{' then some true else if c = '}' then some false else none

/-- The brace that a character of the code is, if it is one. -/
def brace? (char : Char × Spot) : Option Brace :=
  (nesting? char.1).map (⟨·, char.2⟩)

theorem brace?_eq_some {char : Char × Spot} {opens : Bool} {spot : Spot} :
    brace? char = some ⟨opens, spot⟩ ↔ char = (if opens then '{' else '}', spot) := by
  obtain ⟨c, other⟩ := char
  unfold brace? nesting?
  by_cases hopen : c = '{'
  · cases opens <;> simp [hopen]
  · by_cases hclose : c = '}'
    · cases opens <;> simp [hclose]
    · cases opens <;> simp [hopen, hclose]

theorem bracesInLine_eq (number offset : Nat) (line : Line) :
    bracesInLine number offset line = (lineStream number offset line).filterMap brace? := by
  induction line generalizing offset with
  | nil => rfl
  | cons c rest ih =>
    rw [bracesInLine, lineStream, List.filterMap_cons, ih]
    by_cases hopen : c = '{'
    · simp [hopen, brace?, nesting?]
    · by_cases hclose : c = '}'
      · simp [hclose, brace?, nesting?]
      · simp [hopen, hclose, brace?, nesting?]

theorem braces_eq (number : Nat) (lines : List Line) :
    braces number lines = (codeStream number lines).filterMap brace? := by
  induction lines generalizing number with
  | nil => rfl
  | cons line rest ih =>
    rw [braces, codeStream, List.filterMap_append, bracesInLine_eq, ih]

theorem pairwise_braces (number : Nat) (lines : List Line) :
    (braces number lines).Pairwise (fun a b => a.spot < b.spot) := by
  rw [braces_eq, List.pairwise_filterMap]
  refine (pairwise_codeStream number lines).imp ?_
  rintro ⟨c, a⟩ ⟨d, b⟩ hlt ⟨opens, spot⟩ hbrace ⟨opens', spot'⟩ hbrace'
  cases brace?_eq_some.mp hbrace
  cases brace?_eq_some.mp hbrace'
  exact hlt

namespace Source

/-- An opening brace of the code and a later closing one, with a balanced word of braces between
    them. -/
def Matched (source : Source) (opens closes : Spot) : Prop :=
  ∃ before between after,
    source.stream = before ++ ('{', opens) :: between ++ ('}', closes) :: after
      ∧ Balanced (between.filterMap fun char => nesting? char.1)

theorem map_opens_filterMap (chars : List (Char × Spot)) :
    (chars.filterMap brace?).map (·.opens) = chars.filterMap fun char => nesting? char.1 := by
  rw [List.map_filterMap]
  congr 1
  funext char
  simp [brace?, Function.comp_def]

/-- Matching looks at nothing but the braces. -/
theorem matchedIn_braces_iff {source : Source} {opens closes : Spot} :
    MatchedIn (braces 0 source.code) opens closes ↔ source.Matched opens closes := by
  rw [braces_eq]
  constructor
  · rintro ⟨before, between, after, hsplit, hbalanced⟩
    obtain ⟨chars, tail, hstream, hchars, htail⟩ := List.filterMap_eq_append_iff.mp hsplit
    obtain ⟨others, closing, rest, rfl, hothers, hclosing, -⟩ :=
      List.filterMap_eq_cons_iff.mp htail
    obtain ⟨front, middle, rfl, -, hmiddle⟩ := List.filterMap_eq_append_iff.mp hchars
    obtain ⟨others', opening, inner, rfl, -, hopening, hinner⟩ :=
      List.filterMap_eq_cons_iff.mp hmiddle
    cases brace?_eq_some.mp hopening
    cases brace?_eq_some.mp hclosing
    refine ⟨front ++ others', inner ++ others, rest, ?_, ?_⟩
    · rw [stream, hstream]
      simp
    · have hnone : others.filterMap (fun char => nesting? char.1) = [] := by
        rw [← map_opens_filterMap, List.filterMap_eq_nil_iff.mpr hothers, List.map_nil]
      rw [List.filterMap_append, hnone, List.append_nil, ← map_opens_filterMap, hinner]
      exact hbalanced
  · rintro ⟨before, between, after, hstream, hbalanced⟩
    refine ⟨before.filterMap brace?, between.filterMap brace?, after.filterMap brace?, ?_, ?_⟩
    · show (codeStream 0 source.code).filterMap brace? = _
      rw [show codeStream 0 source.code = source.stream from rfl, hstream]
      simp [brace?, nesting?]
    · rw [map_opens_filterMap]
      exact hbalanced

theorem Matched.visible {source : Source} {opens closes : Spot} (h : source.Matched opens closes) :
    source.Visible opens ∧ source.Visible closes := by
  obtain ⟨before, between, after, hstream, -⟩ := h
  refine ⟨⟨'{', ?_, by decide⟩, ⟨'}', ?_, by decide⟩⟩
  · rw [hstream]
    simp
  · rw [hstream]
    simp

theorem Matched.lt {source : Source} {opens closes : Spot} (h : source.Matched opens closes) :
    opens < closes := by
  obtain ⟨before, between, after, hstream, -⟩ := h
  have hsorted := pairwise_codeStream 0 source.code
  rw [show codeStream 0 source.code = source.stream from rfl, hstream, List.append_assoc,
    List.pairwise_append, List.cons_append, List.pairwise_cons] at hsorted
  exact hsorted.2.1.1 ('}', closes) (by simp)

/-! ### The blocks of a text -/

/-- The range of a pair of spots. -/
def rangeOf (source : Source) (pair : Spot × Spot) : Range :=
  ⟨source.position pair.1, source.position pair.2⟩

theorem matched_of_mem_pairBraces {source : Source} {pair : Spot × Spot}
    (h : pair ∈ pairBraces [] (braces 0 source.code)) : source.Matched pair.1 pair.2 :=
  matchedIn_braces_iff.mp (mem_pairBraces_iff.mp h)

theorem mem_blocks_iff {source : Source} {r : Range} :
    r ∈ source.blocks ↔ ∃ opens closes, source.Matched opens closes
      ∧ r = ⟨source.position opens, source.position closes⟩ := by
  rw [blocks, List.mem_map]
  constructor
  · rintro ⟨⟨opens, closes⟩, hmem, rfl⟩
    exact ⟨opens, closes, matched_of_mem_pairBraces hmem, rfl⟩
  · rintro ⟨opens, closes, hmatched, rfl⟩
    exact ⟨(opens, closes), mem_pairBraces_iff.mpr (matchedIn_braces_iff.mpr hmatched), rfl⟩

/-- Blocks are listed in the order in which they close; a later one begins before an earlier one or
    after its end. -/
theorem pairwise_blocks (text : String) :
    (ofText text).blocks.Pairwise
      (fun a b => a.last < b.last ∧ (b.first < a.first ∨ a.last < b.first)) := by
  have hpairs := pairwise_pairBraces (pairwise_braces 0 (ofText text).code) .nil
    (fun _ hspot => nomatch hspot)
  rw [blocks, List.pairwise_map]
  refine hpairs.imp_of_mem ?_
  intro a b ha hb hab
  obtain ⟨hopens, hcloses⟩ := (matched_of_mem_pairBraces ha).visible
  obtain ⟨hopens', hcloses'⟩ := (matched_of_mem_pairBraces hb).visible
  refine ⟨(position_lt_iff hcloses hcloses').mpr hab.1, hab.2.imp ?_ ?_⟩
  · exact (position_lt_iff hopens' hopens).mpr
  · exact (position_lt_iff hcloses hopens').mpr

theorem first_lt_last_of_mem_blocks {text : String} {r : Range} (h : r ∈ (ofText text).blocks) :
    r.first < r.last := by
  obtain ⟨opens, closes, hmatched, rfl⟩ := mem_blocks_iff.mp h
  exact (position_lt_iff hmatched.visible.1 hmatched.visible.2).mpr hmatched.lt

/-- A visible spot lies before the end of the text. -/
theorem position_lt_whole {text : String} {spot : Spot} (h : (ofText text).Visible spot) :
    (ofText text).position spot < (ofText text).whole.last := by
  obtain ⟨c, hmem, hc⟩ := h
  obtain ⟨left, right, hline, -, hposition⟩ := exists_position_of_mem_stream hmem hc
  have hin : spot.line < (ofText text).lines.length := by
    by_contra hout
    rw [List.getD_eq_default _ _ (Nat.le_of_not_lt hout)] at hline
    simp at hline
  rw [hposition, Position.lt_def, whole]
  rcases Nat.lt_or_eq_of_le (Nat.le_sub_one_of_lt hin) with hlt | heq
  · exact .inl hlt
  · -- on the last line the character itself still lies before the end
    refine .inr ⟨heq, ?_⟩
    have hpos := units_pos c
    show width left < width ((ofText text).lines.getLast?.getD [])
    rw [List.getLast?_eq_getElem?, ← heq, ← List.getD_eq_getElem?_getD, hline, width_append, width]
    omega

end Source

/-- Whether another range lies strictly inside: it begins later and ends earlier. -/
def Range.StrictlyEncloses (r other : Range) : Prop :=
  r.first < other.first ∧ other.last < r.last

namespace Source

/-- Of two blocks the one that closes first lies inside the other or ends before it begins. -/
theorem inside_or_before {text : String} {a b : Range} (ha : a ∈ (ofText text).blocks)
    (hb : b ∈ (ofText text).blocks) (hne : a ≠ b) :
    (a.last < b.last ∧ (b.first < a.first ∨ a.last < b.first))
      ∨ (b.last < a.last ∧ (a.first < b.first ∨ b.last < a.first)) := by
  have hblocks := pairwise_blocks text
  have hall := List.Pairwise.forall_of_forall_of_flip
    (R := fun a b : Range => a ≠ b →
      (a.last < b.last ∧ (b.first < a.first ∨ a.last < b.first))
        ∨ (b.last < a.last ∧ (a.first < b.first ∨ b.last < a.first)))
    (fun _ _ hself => absurd rfl hself) (hblocks.imp fun h _ => .inl h)
    (hblocks.imp fun h _ => .inr h)
  exact hall ha hb hne

/-- Two blocks are apart, or one lies strictly inside the other. -/
theorem nested_or_apart {text : String} {a b : Range} (ha : a ∈ (ofText text).blocks)
    (hb : b ∈ (ofText text).blocks) (hne : a ≠ b) :
    a.overlaps b = false ∨ a.StrictlyEncloses b ∨ b.StrictlyEncloses a := by
  rcases inside_or_before ha hb hne with ⟨hlast, hinside | hbefore⟩ | ⟨hlast, hinside | hbefore⟩
  · exact .inr (.inr ⟨hinside, hlast⟩)
  · exact .inl (by simp [Range.overlaps, Position.not_le.mpr hbefore])
  · exact .inr (.inl ⟨hinside, hlast⟩)
  · exact .inl (by simp [Range.overlaps, Position.not_le.mpr hbefore])

/-- **Blocks are exactly the matched braces.**  A range is a block of a text exactly when it leads
    from an opening brace of the code to a later closing one with a balanced word between them.
    Each is listed once, in the order of the ends.  So blocks are not empty, lie inside the text,
    share neither beginning nor end, and are nested or apart.  Positions are those at which an
    editor shows the braces. -/
theorem blocks_exactly_matched_braces (text : String) :
    (∀ r, r ∈ (ofText text).blocks ↔ ∃ opens closes, (ofText text).Matched opens closes
        ∧ r = ⟨(ofText text).position opens, (ofText text).position closes⟩)
      ∧ (ofText text).blocks.Pairwise (fun a b => a.last < b.last)
      ∧ (∀ r ∈ (ofText text).blocks, r.first < r.last ∧ (ofText text).whole.encloses r)
      ∧ ((ofText text).blocks.map (·.first)).Nodup
      ∧ ((ofText text).blocks.map (·.last)).Nodup
      ∧ (∀ a ∈ (ofText text).blocks, ∀ b ∈ (ofText text).blocks, a ≠ b →
          a.overlaps b = false ∨ a.StrictlyEncloses b ∨ b.StrictlyEncloses a)
      ∧ (∀ c spot, (c, spot) ∈ (ofText text).stream → c ≠ ' ' → ∃ left right,
          (ofText text).lines.getD spot.line [] = left ++ c :: right
            ∧ (ofText text).position spot = ⟨spot.line, width left⟩) := by
  have hblocks := pairwise_blocks text
  refine ⟨fun r => mem_blocks_iff, hblocks.imp And.left, ?_, ?_, ?_, ?_, ?_⟩
  · intro r hr
    refine ⟨first_lt_last_of_mem_blocks hr, ?_⟩
    obtain ⟨opens, closes, hmatched, rfl⟩ := mem_blocks_iff.mp hr
    have hlast := Position.le_of_lt (position_lt_whole hmatched.visible.2)
    have hfirst : (ofText text).whole.first ≤ (ofText text).position opens :=
      Position.origin_le _
    simp [Range.encloses, hfirst, hlast]
  · rw [List.Nodup, List.pairwise_map]
    refine hblocks.imp_of_mem ?_
    rintro a b ha - ⟨-, hinside | hbefore⟩ heq
    · rw [heq] at hinside
      exact Position.lt_irrefl hinside
    · have := first_lt_last_of_mem_blocks ha
      rw [heq] at this
      exact Position.lt_irrefl (Position.lt_trans hbefore this)
  · rw [List.Nodup, List.pairwise_map]
    refine hblocks.imp ?_
    rintro a b ⟨hlast, -⟩ heq
    rw [heq] at hlast
    exact Position.lt_irrefl hlast
  · intro a ha b hb hne
    exact nested_or_apart ha hb hne
  · intro c spot hmem hc
    obtain ⟨left, right, hline, -, hposition⟩ := exists_position_of_mem_stream hmem hc
    exact ⟨left, right, hline, hposition⟩

end Source

end ScriptServer
