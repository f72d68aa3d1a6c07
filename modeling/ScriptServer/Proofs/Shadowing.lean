import ScriptServer.Proofs.Visibility

namespace ScriptServer

/-!
# Nested declarations hide outer ones

Of several symbols with a name only those stay whose scope begins last.  Scopes begin at a brace, at
a name or at the beginning of the file, so that a later beginning means deeper nesting has to be
derived from the blocks.

* `Symbol.enclosing` — the block that a symbol is declared in.
* `Outline.Placed` — how the scope of a symbol lies in that block.
* `Outline.first_lt_of_nested` — the scope of a more deeply nested symbol begins later, unless both
  begin with the file.
* `Outline.nested_declaration_hides_outer` — so the outer symbol is hidden.
* `Outline.block_at_origin_hides_nothing` — a block that opens with the first character of the file
  begins where the file does, and a function in it hides no function of the file.
-/

/-- The block that a symbol is declared in: the scope of a function, the body for a parameter, the
    innermost block around the name of a variable, the whole file for a module. -/
def Symbol.enclosing (source : Source) (s : Symbol) : Range :=
  match s.role with
  | .func _ _ scope _ _ => scope
  | .var _ _ => innermost source.blocks s.position source.whole
  | .param _ scope => scope
  | .mod _ => source.whole

/-! ### The latest beginning of a name -/

theorem Position.le_latest_left (p q : Position) : p ≤ p.latest q := by
  unfold Position.latest
  split
  next h => exact h
  next => exact Position.le_refl p

theorem Position.le_latest_right (p q : Position) : q ≤ p.latest q := by
  unfold Position.latest
  split
  next => exact Position.le_refl q
  next h => exact Position.le_of_lt (Position.not_le.mp h)

/-- The latest beginning of a name is not before the beginning of any symbol with it. -/
theorem exists_latestStart? {symbols : List Symbol} {s : Symbol} (hs : s ∈ symbols) :
    ∃ best, latestStart? s.name symbols = some best ∧ s.scope.first ≤ best := by
  induction symbols with
  | nil => cases hs
  | cons first rest ih =>
    by_cases hname : first.name = s.name
    · cases hlater : latestStart? s.name rest with
      | none =>
        -- nothing with this name comes later, so it is the first one
        rcases List.mem_cons.mp hs with rfl | hrest
        · exact ⟨s.scope.first, by simp [latestStart?, hlater], Position.le_refl _⟩
        · obtain ⟨best, hbest, -⟩ := ih hrest
          rw [hbest] at hlater
          cases hlater
      | some best =>
        refine ⟨first.scope.first.latest best, by simp [latestStart?, hname, hlater], ?_⟩
        rcases List.mem_cons.mp hs with rfl | hrest
        · exact Position.le_latest_left _ _
        · obtain ⟨best', hbest, hle⟩ := ih hrest
          rw [hbest] at hlater
          cases hlater
          exact Position.le_trans hle (Position.le_latest_right _ _)
    · have hrest : s ∈ rest := by
        rcases List.mem_cons.mp hs with rfl | hrest
        · exact absurd rfl hname
        · exact hrest
      obtain ⟨best, hbest, hle⟩ := ih hrest
      exact ⟨best, by simp [latestStart?, hname, hbest], hle⟩

theorem mem_resolveShadowing {symbols : List Symbol} {point : Position} {s : Symbol} :
    s ∈ resolveShadowing symbols point ↔ s ∈ inScope symbols point
      ∧ latestStart? s.name (inScope symbols point) = some s.scope.first := by
  simp [resolveShadowing]

/-- A symbol is hidden by another one of its name whose scope begins later. -/
theorem not_mem_resolveShadowing {symbols : List Symbol} {point : Position} {s t : Symbol}
    (hs : s ∈ inScope symbols point) (hname : s.name = t.name)
    (hlt : t.scope.first < s.scope.first) : t ∉ resolveShadowing symbols point := by
  intro ht
  obtain ⟨-, hlatest⟩ := mem_resolveShadowing.mp ht
  obtain ⟨best, hbest, hle⟩ := exists_latestStart? hs
  rw [hname, hlatest] at hbest
  cases hbest
  exact absurd hle (Position.not_le.mpr hlt)

namespace Outline

open Declaration

/-! ### Scopes in their blocks -/

/-- How the scope of a symbol lies in the block that it is declared in.  The scope ends with the
    block.  It also begins with the block, or else at a name around which the block is innermost. -/
structure Placed (source : Source) (s : Symbol) : Prop where
  block : s.enclosing source ∈ source.blocks ∨ s.enclosing source = source.whole
  last : s.scope.last = (s.enclosing source).last
  first : s.scope.first = (s.enclosing source).first
    ∨ (s.enclosing source).first ≤ s.scope.first
      ∧ s.enclosing source = innermost source.blocks s.scope.first source.whole

/-- The innermost block around a position, or else the whole file, begins no later. -/
theorem innermost_mem_or_whole (text : String) (point : Position) :
    (innermost (Source.ofText text).blocks point (Source.ofText text).whole
        ∈ (Source.ofText text).blocks
      ∨ innermost (Source.ofText text).blocks point (Source.ofText text).whole
        = (Source.ofText text).whole)
      ∧ (innermost (Source.ofText text).blocks point (Source.ofText text).whole).first ≤ point := by
  rcases Source.innermost_blocks_cases text point (Source.ofText text).whole with
    ⟨r, hr, hpoint, heq, -⟩ | ⟨-, heq⟩
  · rw [heq]
    exact ⟨.inl hr, (Range.contains_iff.mp hpoint).1⟩
  · rw [heq]
    exact ⟨.inr rfl, Position.origin_le point⟩

/-- Every symbol of a text lies in its block. -/
theorem placed_of_mem_table {syn : ModuleSyntax} {uri : Uri} {text : String} {s : Symbol}
    (hs : s ∈ (table syn uri text).symbols) : Placed (Source.ofText text) s := by
  obtain ⟨found, hfound, hmem⟩ := exists_finding_of_mem_table hs
  cases found with
  | declares name span =>
    cases List.mem_singleton.mp hmem
    exact ⟨.inr rfl, rfl, .inl rfl⟩
  | imports name span =>
    cases List.mem_singleton.mp hmem
    exact ⟨.inr rfl, rfl, .inl rfl⟩
  | function header =>
    rcases List.mem_cons.mp hmem with rfl | hparameter
    · obtain ⟨hblock, -⟩ := innermost_mem_or_whole text
        ((Source.ofText text).position header.keyword)
      constructor <;> simp only [Symbol.enclosing, Symbol.scope, functionSymbol, Page.ofText]
      · exact hblock
      · exact .inl trivial
    · obtain ⟨parameter, -, rfl⟩ := List.mem_map.mp hparameter
      have hbody := Source.mem_blocks_iff.mpr ⟨_, _, matched_of_mem_findings hfound, rfl⟩
      exact ⟨.inl hbody, rfl, .inl rfl⟩
  | assigns name span =>
    cases List.mem_singleton.mp hmem
    obtain ⟨hblock, hfirst⟩ := innermost_mem_or_whole text
      ((Source.ofText text).range span).first
    constructor <;> simp only [Symbol.enclosing, Symbol.position, Symbol.scope, variableSymbol,
      Page.ofText]
    · exact hblock
    · exact .inr ⟨hfirst, trivial⟩

/-- The whole file lies in nothing but itself. -/
theorem eq_whole_of_encloses {text : String} {r : Range}
    (hr : r ∈ (Source.ofText text).blocks ∨ r = (Source.ofText text).whole)
    (h : r.encloses (Source.ofText text).whole) : r = (Source.ofText text).whole := by
  rcases hr with hblock | hwhole
  · obtain ⟨opens, closes, hmatched, rfl⟩ := Source.mem_blocks_iff.mp hblock
    have hlast := (Range.encloses_iff.mp h).2
    exact absurd hlast (Position.not_le.mpr (Source.position_lt_whole hmatched.visible.2))
  · exact hwhole

/-- A block inside another one begins later. -/
theorem first_lt_of_encloses {text : String} {outer inner : Range}
    (houter : outer ∈ (Source.ofText text).blocks) (hinner : inner ∈ (Source.ofText text).blocks)
    (h : outer.encloses inner) (hne : outer ≠ inner) : outer.first < inner.first := by
  obtain ⟨hfirst, hlast⟩ := Range.encloses_iff.mp h
  have hnonempty := Position.le_of_lt (Source.first_lt_last_of_mem_blocks hinner)
  rcases Source.nested_or_apart houter hinner hne with hapart | hnested | hnested
  · have hoverlaps : outer.overlaps inner = true := by
      simp [Range.overlaps, Position.le_trans hfirst hnonempty, Position.le_trans hnonempty hlast]
    rw [hapart] at hoverlaps
    cases hoverlaps
  · exact hnested.1
  · exact absurd hfirst (Position.not_le.mpr hnested.1)

/-- A block inside the innermost one around a position, and not that one, is not around it. -/
theorem not_contains_of_innermost_encloses {text : String} {inner : Range} {point : Position}
    (hinner : inner ∈ (Source.ofText text).blocks)
    (h : (innermost (Source.ofText text).blocks point (Source.ofText text).whole).encloses inner)
    (hne : inner ≠ innermost (Source.ofText text).blocks point (Source.ofText text).whole) :
    ¬ inner.contains point := by
  intro hpoint
  rcases Source.innermost_blocks_cases text point (Source.ofText text).whole with
    ⟨r, -, -, heq, hleast⟩ | ⟨hnone, -⟩
  · have hencloses := hleast inner hinner hpoint
    rw [heq] at h hne
    exact hne (Range.encloses_antisymm hencloses h)
  · exact hnone inner hinner hpoint

/-- **Deeper nesting begins later.**  Let two symbols be usable at a position, and let the block of
    the first lie inside the block of the second and be another one.  Then the scope of the first
    begins after that of the second, or both begin with the file. -/
theorem first_lt_of_nested {text : String} {s t : Symbol} {point : Position}
    (hs : Placed (Source.ofText text) s) (ht : Placed (Source.ofText text) t)
    (hpoint : s.scope.contains point) (hpoint' : t.scope.contains point)
    (hinside : (t.enclosing (Source.ofText text)).encloses (s.enclosing (Source.ofText text)))
    (hne : s.enclosing (Source.ofText text) ≠ t.enclosing (Source.ofText text)) :
    t.scope.first < s.scope.first ∨ s.scope.first = .origin ∧ t.scope.first = .origin := by
  rw [Range.contains_iff] at hpoint hpoint'
  have hsfirst : (s.enclosing (Source.ofText text)).first ≤ s.scope.first := by
    rcases hs.first with heq | ⟨hle, -⟩
    · rw [heq]
      exact Position.le_refl _
    · exact hle
  -- the inner block is not the whole file, so it belongs to braces
  have hblock : s.enclosing (Source.ofText text) ∈ (Source.ofText text).blocks := by
    rcases hs.block with hblock | hwhole
    · exact hblock
    · rw [hwhole] at hinside hne
      exact absurd (eq_whole_of_encloses ht.block hinside).symm hne
  rcases ht.first with hfirst | ⟨-, hinnermost⟩
  · rcases ht.block with hblock' | hwhole
    · -- two blocks, one inside the other
      have hlt := first_lt_of_encloses hblock' hblock hinside hne.symm
      rw [hfirst]
      exact .inl (Position.lt_of_lt_of_le hlt hsfirst)
    · -- the outer symbol belongs to the whole file
      have horigin : t.scope.first = .origin := by
        rw [hfirst, hwhole]
        rfl
      rw [horigin]
      by_cases hstart : s.scope.first = .origin
      · exact .inr ⟨hstart, rfl⟩
      · refine .inl (Position.not_le.mp fun hle => hstart ?_)
        exact Position.le_antisymm hle (Position.origin_le _)
  · -- a variable outside the inner block: the position is not before its name and not behind the
    -- block, so the name stands before the block
    rw [hinnermost] at hinside hne
    have hnot := not_contains_of_innermost_encloses hblock hinside hne
    refine .inl (Position.lt_of_lt_of_le (Position.not_le.mp fun hle => hnot ?_) hsfirst)
    rw [Range.contains_iff]
    refine ⟨hle, Position.le_trans hpoint'.1 ?_⟩
    rw [← hs.last]
    exact hpoint.2

/-- **Nested declarations hide outer ones.**  Let two symbols of a text have the same name and be
    usable at a position, and let the block of the first lie strictly inside the block of the
    second.  The second is hidden, unless the scope of the first begins with the file; then both
    begin there, and one is hidden exactly when the other is. -/
theorem nested_declaration_hides_outer (workspace : Workspace) (uri : Uri) (text : String)
    (point : Position) {s t : Symbol}
    (hs : s ∈ inScope (table workspace.syn uri text).symbols point)
    (ht : t ∈ inScope (table workspace.syn uri text).symbols point)
    (hname : s.name = t.name)
    (hinside : (t.enclosing (Source.ofText text)).encloses (s.enclosing (Source.ofText text)))
    (hne : s.enclosing (Source.ofText text) ≠ t.enclosing (Source.ofText text)) :
    (s.scope.first ≠ .origin →
        t ∉ resolveShadowing (table workspace.syn uri text).symbols point
          ∧ t ∉ (workspace.update uri text).visibleSymbols uri point)
      ∧ (s.scope.first = .origin → t.scope.first = .origin
          ∧ (t ∈ resolveShadowing (table workspace.syn uri text).symbols point
            ↔ s ∈ resolveShadowing (table workspace.syn uri text).symbols point)) := by
  obtain ⟨hmem, hpoint⟩ := List.mem_filter.mp hs
  obtain ⟨hmem', hpoint'⟩ := List.mem_filter.mp ht
  have hfirst := first_lt_of_nested (placed_of_mem_table hmem) (placed_of_mem_table hmem') hpoint
    hpoint' hinside hne
  constructor
  · intro hstart
    have hlt : t.scope.first < s.scope.first := by
      rcases hfirst with hlt | ⟨horigin, -⟩
      · exact hlt
      · exact absurd horigin hstart
    have hhidden := not_mem_resolveShadowing hs hname hlt
    refine ⟨hhidden, ?_⟩
    have hsymbols : (workspace.update uri text).visibleSymbols uri point
        = resolveShadowing (table workspace.syn uri text).symbols point := by
      simp [Workspace.visibleSymbols, Workspace.symbols, Workspace.table?, Workspace.update]
    rw [hsymbols]
    exact hhidden
  · intro hstart
    have horigin : t.scope.first = .origin := by
      rcases hfirst with hlt | ⟨-, horigin⟩
      · rw [hstart] at hlt
        exact absurd (Position.origin_le _) (Position.not_le.mpr hlt)
      · exact horigin
    refine ⟨horigin, ?_⟩
    rw [mem_resolveShadowing, mem_resolveShadowing, hname, hstart, horigin]
    simp [hs, ht]

/-- A parameter hides the variable of the file with its name. -/
theorem parameter_hides_variable :
    ∃ s t, s ∈ inScope (table (Workspace.ofSettings {}).syn ⟨"file:///f"⟩
          "x = 1\ndef f(x) \x7b y = x \x7d").symbols ⟨1, 14⟩
      ∧ t ∈ inScope (table (Workspace.ofSettings {}).syn ⟨"file:///f"⟩
          "x = 1\ndef f(x) \x7b y = x \x7d").symbols ⟨1, 14⟩
      ∧ s.name = t.name
      ∧ (t.enclosing (Source.ofText "x = 1\ndef f(x) \x7b y = x \x7d")).encloses
          (s.enclosing (Source.ofText "x = 1\ndef f(x) \x7b y = x \x7d"))
      ∧ s.enclosing (Source.ofText "x = 1\ndef f(x) \x7b y = x \x7d")
          ≠ t.enclosing (Source.ofText "x = 1\ndef f(x) \x7b y = x \x7d")
      ∧ t ∉ ((Workspace.ofSettings {}).update ⟨"file:///f"⟩
          "x = 1\ndef f(x) \x7b y = x \x7d").visibleSymbols ⟨"file:///f"⟩ ⟨1, 14⟩ := by
  have hs : ⟨"x", ⟨⟨1, 6⟩, ⟨1, 7⟩⟩, ⟨"file:///f"⟩, .param "f" ⟨⟨1, 9⟩, ⟨1, 17⟩⟩⟩
      ∈ inScope (table (Workspace.ofSettings {}).syn ⟨"file:///f"⟩
          "x = 1\ndef f(x) \x7b y = x \x7d").symbols ⟨1, 14⟩ := by decide
  have ht : ⟨"x", ⟨⟨0, 0⟩, ⟨0, 1⟩⟩, ⟨"file:///f"⟩, .var none ⟨⟨0, 0⟩, ⟨1, 18⟩⟩⟩
      ∈ inScope (table (Workspace.ofSettings {}).syn ⟨"file:///f"⟩
          "x = 1\ndef f(x) \x7b y = x \x7d").symbols ⟨1, 14⟩ := by decide
  refine ⟨_, _, hs, ht, rfl, by decide, by decide, ?_⟩
  exact ((nested_declaration_hides_outer _ _ _ _ hs ht rfl (by decide) (by decide)).1
    (by decide)).2

/-- **A block at the beginning of the file hides nothing.**  The first function is declared in a
    block that opens with the first character of the file, the second one in the file.  Both scopes
    begin there, so neither hides the other, although the first is nested more deeply. -/
theorem block_at_origin_hides_nothing :
    ∃ s t, s ∈ inScope (table .standard ⟨"file:///f"⟩
          "\x7bdef f()\x7b\x7d\x7ddef f()\x7b\x7d").symbols ⟨0, 1⟩
      ∧ t ∈ inScope (table .standard ⟨"file:///f"⟩
          "\x7bdef f()\x7b\x7d\x7ddef f()\x7b\x7d").symbols ⟨0, 1⟩
      ∧ s.name = t.name
      ∧ (t.enclosing (Source.ofText "\x7bdef f()\x7b\x7d\x7ddef f()\x7b\x7d")).encloses
          (s.enclosing (Source.ofText "\x7bdef f()\x7b\x7d\x7ddef f()\x7b\x7d"))
      ∧ s.enclosing (Source.ofText "\x7bdef f()\x7b\x7d\x7ddef f()\x7b\x7d")
          ≠ t.enclosing (Source.ofText "\x7bdef f()\x7b\x7d\x7ddef f()\x7b\x7d")
      ∧ t ∈ resolveShadowing (table .standard ⟨"file:///f"⟩
          "\x7bdef f()\x7b\x7d\x7ddef f()\x7b\x7d").symbols ⟨0, 1⟩ := by
  refine ⟨⟨"f", ⟨⟨0, 5⟩, ⟨0, 6⟩⟩, ⟨"file:///f"⟩,
      .func [] none ⟨⟨0, 0⟩, ⟨0, 10⟩⟩ ⟨⟨0, 8⟩, ⟨0, 9⟩⟩ false⟩,
    ⟨"f", ⟨⟨0, 15⟩, ⟨0, 16⟩⟩, ⟨"file:///f"⟩,
      .func [] none ⟨⟨0, 0⟩, ⟨0, 20⟩⟩ ⟨⟨0, 18⟩, ⟨0, 19⟩⟩ true⟩, ?_⟩
  decide

end Outline

end ScriptServer
