import ScriptServer.Proofs.Resolution

namespace ScriptServer

/-!
# The symbols that stay

Which symbols are hidden is found out with one pass over a list.  What the pass selects can be said
of the symbols alone, without their order.

* `Stays` — whether a symbol stays, said of the symbols that are known.
* `resolveShadowing_eq_filter` — resolving keeps the symbols that stay, in their order.
* `resolveShadowing_filter_name` — symbols of other names make no difference.
* `shadowing_selects_by_set` — so the order does not matter, nothing is lost, and looking up a name
  gives what is visible with this name.
-/

/-- Whether a symbol stays at a position: it can be used there, and no known symbol of its name that
    can be used there begins later. -/
def Stays (known : List Symbol) (point : Position) (s : Symbol) : Prop :=
  s.scope.contains point = true
    ∧ ∀ t ∈ known, t.name = s.name → t.scope.contains point = true → t.scope.first ≤ s.scope.first

instance (known : List Symbol) (point : Position) (s : Symbol) :
    Decidable (Stays known point s) :=
  inferInstanceAs (Decidable (_ ∧ ∀ t ∈ known, _ → _ → _))

variable {symbols others : List Symbol} {point : Position} {s t : Symbol}

theorem mem_inScope : s ∈ inScope symbols point ↔ s ∈ symbols ∧ s.scope.contains point = true :=
  List.mem_filter

/-- Fewer known symbols hide fewer. -/
theorem Stays.mono (h : Stays symbols point s) (hsubset : ∀ t ∈ others, t ∈ symbols) :
    Stays others point s :=
  ⟨h.1, fun t ht => h.2 t (hsubset t ht)⟩

/-- Only symbols of its own name can hide a symbol. -/
theorem stays_filter_name {name : String} (hname : s.name = name) :
    Stays (symbols.filter (·.name = name)) point s ↔ Stays symbols point s := by
  refine ⟨fun h => ⟨h.1, fun t ht hsame => ?_⟩,
    fun h => h.mono fun t ht => (List.mem_filter.mp ht).1⟩
  exact h.2 t (List.mem_filter.mpr ⟨ht, decide_eq_true (hsame.trans hname)⟩) hsame

/-- The latest beginning of a name is the one that no symbol of the name exceeds. -/
theorem latestStart?_eq_some_iff (hs : s ∈ symbols) :
    latestStart? s.name symbols = some s.scope.first
      ↔ ∀ t ∈ symbols, t.name = s.name → t.scope.first ≤ s.scope.first := by
  obtain ⟨best, hbest, hle⟩ := exists_latestStart? hs
  constructor
  · intro hlatest t ht hname
    obtain ⟨best', hbest', hle'⟩ := exists_latestStart? ht
    rw [hname, hlatest] at hbest'
    cases hbest'
    exact hle'
  · intro hgreatest
    obtain ⟨t, ht, hname, rfl⟩ := Outline.exists_of_latestStart? hbest
    rw [hbest, Position.le_antisymm (hgreatest t ht hname) hle]

/-- **Resolving keeps the symbols that stay,** in their order. -/
theorem resolveShadowing_eq_filter (symbols : List Symbol) (point : Position) :
    resolveShadowing symbols point = symbols.filter (Stays symbols point ·) := by
  rw [resolveShadowing, inScope, List.filter_filter]
  refine List.filter_congr fun s hs => ?_
  rw [Bool.eq_iff_iff, Bool.and_eq_true, decide_eq_true_eq, decide_eq_true_eq]
  constructor
  · rintro ⟨hlatest, hpoint⟩
    have hgreatest := (latestStart?_eq_some_iff (mem_inScope.mpr ⟨hs, hpoint⟩)).mp hlatest
    exact ⟨hpoint, fun t ht hname hcontains =>
      hgreatest t (mem_inScope.mpr ⟨ht, hcontains⟩) hname⟩
  · rintro ⟨hpoint, hgreatest⟩
    refine ⟨(latestStart?_eq_some_iff (mem_inScope.mpr ⟨hs, hpoint⟩)).mpr fun t ht hname => ?_,
      hpoint⟩
    exact hgreatest t (mem_inScope.mp ht).1 hname (mem_inScope.mp ht).2

theorem mem_resolveShadowing_iff :
    s ∈ resolveShadowing symbols point ↔ s ∈ symbols ∧ Stays symbols point s := by
  rw [resolveShadowing_eq_filter, List.mem_filter, decide_eq_true_eq]

/-- Lists of the same symbols are resolved by the same rule. -/
theorem resolveShadowing_eq_filter_of_mem_iff (h : ∀ t, t ∈ others ↔ t ∈ symbols) :
    resolveShadowing others point = others.filter (Stays symbols point ·) := by
  rw [resolveShadowing_eq_filter]
  refine List.filter_congr fun s _ => decide_eq_decide.mpr ⟨fun hs => ?_, fun hs => ?_⟩
  · exact hs.mono fun t ht => (h t).mpr ht
  · exact hs.mono fun t ht => (h t).mp ht

theorem resolveShadowing_perm (h : others.Perm symbols) :
    (resolveShadowing others point).Perm (resolveShadowing symbols point) := by
  rw [resolveShadowing_eq_filter_of_mem_iff fun t => h.mem_iff, resolveShadowing_eq_filter symbols]
  exact h.filter _

/-- What stays is not hidden by what stays. -/
theorem resolveShadowing_idem (symbols : List Symbol) (point : Position) :
    resolveShadowing (resolveShadowing symbols point) point = resolveShadowing symbols point := by
  rw [resolveShadowing_eq_filter (resolveShadowing symbols point), List.filter_eq_self]
  intro s hs
  have hstays := (mem_resolveShadowing_iff.mp hs).2
  exact decide_eq_true (hstays.mono fun t ht => (mem_resolveShadowing_iff.mp ht).1)

/-- A symbol that can be used hides the others of its name or is hidden by one that stays. -/
theorem exists_mem_resolveShadowing (hs : s ∈ inScope symbols point) :
    ∃ t ∈ resolveShadowing symbols point, t.name = s.name := by
  obtain ⟨best, hbest, -⟩ := exists_latestStart? hs
  obtain ⟨t, ht, hname, rfl⟩ := Outline.exists_of_latestStart? hbest
  exact ⟨t, mem_resolveShadowing.mpr ⟨ht, by rw [hname, hbest]⟩, hname⟩

/-- All symbols of a name that stay begin together. -/
theorem first_eq_of_mem_resolveShadowing (hs : s ∈ resolveShadowing symbols point)
    (ht : t ∈ resolveShadowing symbols point) (hname : s.name = t.name) :
    s.scope.first = t.scope.first := by
  have hlatest := (mem_resolveShadowing.mp hs).2
  rw [hname, (mem_resolveShadowing.mp ht).2] at hlatest
  exact (Option.some.inj hlatest).symm

/-- **Names do not interfere:** it makes no difference whether the symbols of a name are taken
    before resolving or after it. -/
theorem resolveShadowing_filter_name (symbols : List Symbol) (point : Position) (name : String) :
    resolveShadowing (symbols.filter (·.name = name)) point
      = (resolveShadowing symbols point).filter (·.name = name) := by
  rw [resolveShadowing_eq_filter, resolveShadowing_eq_filter, List.filter_filter,
    List.filter_filter]
  refine List.filter_congr fun s _ => ?_
  rw [Bool.eq_iff_iff, Bool.and_eq_true, Bool.and_eq_true]
  simp only [decide_eq_true_eq]
  constructor
  · exact fun ⟨hstays, hname⟩ => ⟨hname, (stays_filter_name hname).mp hstays⟩
  · exact fun ⟨hname, hstays⟩ => ⟨(stays_filter_name hname).mpr hstays, hname⟩

namespace Workspace

/-- A name that is visible means the visible symbols with this name. -/
theorem findSymbol_eq_visibleSymbols {workspace : Workspace} {uri : Uri} {name : String}
    (h : (workspace.visibleSymbols uri point).filter (·.name = name) ≠ []) :
    workspace.findSymbol uri name point (fun _ => true)
      = (workspace.visibleSymbols uri point).filter (·.name = name) := by
  have hown : resolveShadowing
        ((workspace.symbols uri).filter fun s => decide (s.name = name) && true) point
      = (workspace.visibleSymbols uri point).filter (·.name = name) := by
    simp only [Bool.and_true]
    exact resolveShadowing_filter_name (workspace.symbols uri) point name
  unfold findSymbol
  dsimp only
  rw [hown]
  split
  next hnil => exact absurd hnil h
  next => rfl

end Workspace

/-- **Resolving selects by a rule about the set of symbols.**  Every list of the same symbols is
    filtered by the same rule, so that a permutation of the list is resolved to the corresponding
    permutation.  Resolving twice changes nothing.  Of every name that can be used something stays,
    and all that stays of a name begins together.  Taking the symbols of a name commutes with
    resolving, so looking up a name that is visible gives the visible symbols with this name. -/
theorem shadowing_selects_by_set (symbols : List Symbol) (point : Position) :
    (∀ others, (∀ t, t ∈ others ↔ t ∈ symbols) →
        resolveShadowing others point = others.filter (Stays symbols point ·))
      ∧ (∀ others, others.Perm symbols →
        (resolveShadowing others point).Perm (resolveShadowing symbols point))
      ∧ resolveShadowing (resolveShadowing symbols point) point = resolveShadowing symbols point
      ∧ (∀ s ∈ inScope symbols point, ∃ t ∈ resolveShadowing symbols point, t.name = s.name)
      ∧ (∀ s ∈ resolveShadowing symbols point, ∀ t ∈ resolveShadowing symbols point,
        s.name = t.name → s.scope.first = t.scope.first)
      ∧ (∀ name, resolveShadowing (symbols.filter (·.name = name)) point
        = (resolveShadowing symbols point).filter (·.name = name))
      ∧ ∀ (workspace : Workspace) (uri : Uri) (name : String),
        (workspace.visibleSymbols uri point).filter (·.name = name) ≠ [] →
          workspace.findSymbol uri name point (fun _ => true)
            = (workspace.visibleSymbols uri point).filter (·.name = name) :=
  ⟨fun _ => resolveShadowing_eq_filter_of_mem_iff, fun _ => resolveShadowing_perm,
    resolveShadowing_idem symbols point, fun _ => exists_mem_resolveShadowing,
    fun _ hs _ ht => first_eq_of_mem_resolveShadowing hs ht,
    resolveShadowing_filter_name symbols point,
    fun _ _ _ => Workspace.findSymbol_eq_visibleSymbols⟩

/-- A document with a variable and a parameter of one name. -/
def twoNamesakes : Workspace :=
  (Workspace.ofSettings {}).update ⟨"file:///f"⟩ "x = 1\ndef f(x) \x7b y = x \x7d"

/-- In the body of the function the name means the parameter, in whatever order the symbols come. -/
theorem parameter_stays_in_any_order :
    ∃ p v, twoNamesakes.symbols ⟨"file:///f"⟩ ⊇ [v, p] ∧ p.kind = .param ∧ v.kind = .var
      ∧ p.name = v.name
      ∧ resolveShadowing [v, p] ⟨1, 14⟩ = [p] ∧ resolveShadowing [p, v] ⟨1, 14⟩ = [p]
      ∧ twoNamesakes.findSymbol ⟨"file:///f"⟩ v.name ⟨1, 14⟩ (fun _ => true) = [p] := by
  let p : Symbol := ⟨"x", ⟨⟨1, 6⟩, ⟨1, 7⟩⟩, ⟨"file:///f"⟩, .param "f" ⟨⟨1, 9⟩, ⟨1, 17⟩⟩⟩
  let v : Symbol := ⟨"x", ⟨⟨0, 0⟩, ⟨0, 1⟩⟩, ⟨"file:///f"⟩, .var none ⟨⟨0, 0⟩, ⟨1, 18⟩⟩⟩
  obtain ⟨hselects, -, -, -, -, -, hfind⟩ := shadowing_selects_by_set [v, p] ⟨1, 14⟩
  have hvisible : (twoNamesakes.visibleSymbols ⟨"file:///f"⟩ ⟨1, 14⟩).filter (·.name = v.name)
      = [p] := by
    decide
  refine ⟨p, v, by decide, rfl, rfl, rfl, ?_, ?_, ?_⟩
  · rw [hselects [v, p] fun _ => Iff.rfl]
    decide
  · rw [hselects [p, v] fun t => by simp [or_comm]]
    decide
  · rw [hfind twoNamesakes ⟨"file:///f"⟩ v.name (by rw [hvisible]; exact List.cons_ne_nil p []),
      hvisible]

end ScriptServer
