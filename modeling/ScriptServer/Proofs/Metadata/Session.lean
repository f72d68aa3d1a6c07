import ScriptServer.Metadata.Basic
import ScriptServer.Proofs.Metadata.SingleFlight

namespace ScriptServer.Metadata

/-!
# What the server does is one of the possible orders

The server answers calls that come together, and lets time pass.  Each of these comes down to steps
of single tasks in some order, so what holds in every order holds for the server.

* `Interleaved` — the slots of the caches and the fetches under way are those that some events lead
  to.
* `Reached` — the states that the caches of a server go through.
* `interleaved_of_reached` — every one of them is interleaved.
* `single_flight_and_throttle` — what callers can rely on in every order.
-/

/-- Whether a task at this stage waits for its fetch. -/
def Stage.isFetching {α : Type} : Stage α → Bool
  | .fetching _ => true
  | _ => false

/-- The caches are in the state of a system: the same time, the same slots, the same fetches under
    way. -/
structure Follows (metadata : Metadata) (underway : List Query) (system : System Query Listing) :
    Prop where
  now : system.now = metadata.now
  slot : ∀ query, (system.states query).history.slot = metadata.slot query
  fetching : ∀ query,
    (system.states query).tasks.countP (·.stage.isFetching) = underway.count query

/-- Some events lead to the state of the caches, with these fetches under way. -/
def Interleaved (metadata : Metadata) (underway : List Query) : Prop :=
  ∃ events, Follows metadata underway (System.after events)

@[simp] theorem slot_setSlot (metadata : Metadata) (query other : Query) (slot : Slot Listing) :
    (metadata.setSlot query slot).slot other
      = if other = query then slot else metadata.slot other := by
  unfold Metadata.slot setSlot
  rw [Store.get?_insert]
  split <;> rfl

/-- The fetch that starts when a caller is given a hand. -/
def begun (query : Query) : Hand Listing → List Query
  | .stale _ => [query]
  | .fetch => [query]
  | _ => []

theorem countP_isFetching_ask (number interval : Nat) (hand : Hand Listing) (query : Query) :
    (⟨interval, KeyState.stageOf number hand⟩ :: KeyState.beginsOf number interval hand).countP
        (fun task => task.stage.isFetching) = (begun query hand).count query := by
  cases hand <;> simp [KeyState.stageOf, KeyState.beginsOf, Stage.isFetching, begun]

namespace System

variable {κ α : Type} [DecidableEq κ]

theorem onKey_onKey (system : System κ α) (key : κ) (first second : KeyState α → KeyState α) :
    (system.onKey key first).onKey key second
      = system.onKey key fun state => second (first state) := by
  simp only [onKey, if_true]
  congr 1
  funext other
  split <;> rfl

theorem after_append (events more : List (Event κ α)) :
    after (events ++ more) = (after events).run more := by
  rw [after, run, List.foldl_append]
  rfl

/-- A call that nobody comes in between. -/
theorem exists_run_ask (system : System κ α) (key : κ) (interval : Nat) :
    ∃ events, system.run events = system.onKey key (·.ask system.now interval) := by
  refine ⟨.call key interval :: List.replicate 4 (.step key (system.states key).tasks.length), ?_⟩
  simp only [run, List.replicate, List.foldl_cons, List.foldl_nil, next, onKey_onKey]
  rfl

/-- The end of a fetch that nobody comes in between. -/
theorem exists_run_finish (system : System κ α) (key : κ) {before after : List (Task α)}
    {interval number : Nat}
    (htasks : (system.states key).tasks = before ++ ⟨interval, .fetching number⟩ :: after)
    (value : α) :
    ∃ events fetches, system.run events = system.onKey key fun state =>
      ⟨⟨state.history.slot.finish value, fetches⟩,
        before ++ ⟨interval, .returned value⟩ :: after⟩ := by
  refine ⟨[.land key before.length value, .step key before.length, .step key before.length],
    ((system.states key).history.complete number value).fetches, ?_⟩
  have hstate : system.states key
      = ⟨(system.states key).history, before ++ ⟨interval, .fetching number⟩ :: after⟩ := by
    rw [← htasks]
  have hfinish := KeyState.finish_uninterrupted (system.states key).history before after interval
    number system.now value
  rw [← hstate] at hfinish
  simp only [run, List.foldl_cons, List.foldl_nil, next, onKey_onKey]
  unfold onKey
  congr 1
  funext other
  by_cases heq : other = key
  · rw [if_pos heq, if_pos heq]
    exact hfinish
  · rw [if_neg heq, if_neg heq]

end System

/-! ### One caller, one fetch, some time -/

variable {metadata : Metadata} {underway : List Query}

namespace Interleaved

/-- A caller asks. -/
theorem ask (h : Interleaved metadata underway) (query : Query) (interval : Nat) :
    Interleaved (metadata.setSlot query ((metadata.slot query).ask metadata.now interval).1)
      (underway ++ begun query ((metadata.slot query).ask metadata.now interval).2) := by
  obtain ⟨events, hnow, hslot, hfetching⟩ := h
  obtain ⟨more, hrun⟩ := (System.after events).exists_run_ask query interval
  obtain ⟨hask, htasks⟩ :=
    KeyState.ask_uninterrupted ((System.after events).states query) metadata.now interval
  rw [hslot] at hask htasks
  refine ⟨events ++ more, ?_⟩
  rw [System.after_append, hrun, hnow]
  refine ⟨hnow, fun other => ?_, fun other => ?_⟩
  · rw [slot_setSlot]
    by_cases heq : other = query
    · simp only [System.onKey, if_pos heq]
      exact hask
    · simp only [System.onKey, if_neg heq]
      exact hslot other
  · rw [List.count_append, ← hfetching other]
    by_cases heq : other = query
    · subst heq
      simp only [System.onKey, if_true]
      rw [htasks, List.countP_append, countP_isFetching_ask]
    · have hnone : (begun query ((metadata.slot query).ask metadata.now interval).2).count other
          = 0 := by
        cases ((metadata.slot query).ask metadata.now interval).2 <;>
          simp [begun, Ne.symm heq]
      simp only [System.onKey, if_neg heq, hnone, Nat.add_zero]

/-- A fetch ends. -/
theorem finish (connection : Connection) {query : Query}
    (h : Interleaved metadata (query :: underway)) :
    Interleaved (metadata.finish connection query) underway := by
  obtain ⟨events, hnow, hslot, hfetching⟩ := h
  -- the fetch belongs to a task
  have hpos : 0 < ((System.after events).states query).tasks.countP (·.stage.isFetching) := by
    rw [hfetching query, List.count_cons_self]
    exact Nat.succ_pos _
  obtain ⟨⟨interval, stage⟩, hmem, hstage⟩ := List.countP_pos_iff.mp hpos
  obtain ⟨number, rfl⟩ : ∃ number, stage = .fetching number := by
    cases stage with
    | fetching number => exact ⟨number, rfl⟩
    | _ => cases hstage
  obtain ⟨before, after, htasks⟩ := List.append_of_mem hmem
  obtain ⟨more, fetches, hrun⟩ :=
    (System.after events).exists_run_finish query htasks (connection.listing query)
  refine ⟨events ++ more, ?_⟩
  rw [System.after_append, hrun]
  refine ⟨hnow, fun other => ?_, fun other => ?_⟩
  · rw [Metadata.finish, slot_setSlot]
    by_cases heq : other = query
    · simp only [System.onKey, if_pos heq, hslot]
    · simp only [System.onKey, if_neg heq]
      exact hslot other
  · have hcount := hfetching other
    by_cases heq : other = query
    · subst heq
      rw [List.count_cons_self, htasks, List.countP_append, List.countP_cons] at hcount
      simp only [System.onKey, if_true, List.countP_append, List.countP_cons]
      simp only [Stage.isFetching, if_true, Bool.false_eq_true, if_false] at hcount ⊢
      omega
    · rw [List.count_cons_of_ne (Ne.symm heq)] at hcount
      simp only [System.onKey, if_neg heq]
      exact hcount

/-- Time passes. -/
theorem tick (h : Interleaved metadata underway) (millis : Nat) :
    Interleaved { metadata with now := metadata.now + millis } underway := by
  obtain ⟨events, hnow, hslot, hfetching⟩ := h
  refine ⟨events ++ [.tick millis], ?_⟩
  rw [System.after_append]
  exact ⟨congrArg (· + millis) hnow, hslot, hfetching⟩

/-- Only the time and the slots matter. -/
theorem congr {other : Metadata} (h : Interleaved metadata underway)
    (hnow : other.now = metadata.now) (hlistings : other.listings = metadata.listings) :
    Interleaved other underway := by
  obtain ⟨events, hnow', hslot, hfetching⟩ := h
  refine ⟨events, hnow'.trans hnow.symm, fun query => ?_, hfetching⟩
  rw [hslot query, Metadata.slot, Metadata.slot, hlistings]

/-- The order of the fetches under way does not matter. -/
theorem perm {other : List Query} (h : Interleaved metadata underway)
    (hperm : underway.Perm other) : Interleaved metadata other := by
  obtain ⟨events, hnow, hslot, hfetching⟩ := h
  exact ⟨events, hnow, hslot, fun query => (hfetching query).trans (hperm.count_eq query)⟩

/-- Some fetches end one after the other. -/
theorem finishAll (connection : Connection) {queries : List Query}
    (h : Interleaved metadata (queries ++ underway)) :
    Interleaved (queries.foldl (fun metadata query => metadata.finish connection query) metadata)
      underway := by
  induction queries generalizing metadata with
  | nil => exact h
  | cons query queries ih => exact ih (h.finish connection)

end Interleaved

/-! ### Callers that ask together -/

theorem foldl_finish_pending (connection : Connection) (queries : List Query)
    (metadata : Metadata) :
    (queries.foldl (fun metadata query => metadata.finish connection query) metadata).pending
        = metadata.pending
      ∧ (queries.foldl (fun metadata query => metadata.finish connection query) metadata).now
        = metadata.now := by
  induction queries generalizing metadata with
  | nil => exact ⟨rfl, rfl⟩
  | cons query queries ih => exact ih (metadata.finish connection query)

/-- The fetches in the background whose time has come end. -/
theorem Interleaved.settle (connection : Connection)
    (h : Interleaved metadata (metadata.pending.map (·.2))) :
    Interleaved (metadata.settle connection) ((metadata.settle connection).pending.map (·.2)) := by
  unfold Metadata.settle
  rw [List.partition_eq_filter_filter]
  generalize hdone : metadata.pending.filter (fun fetch => decide (fetch.1 ≤ metadata.now)) = done
  generalize hwaiting : metadata.pending.filter
    (not ∘ fun fetch => decide (fetch.1 ≤ metadata.now)) = waiting
  have hperm : (metadata.pending.map (·.2)).Perm (done.map (·.2) ++ waiting.map (·.2)) := by
    rw [← List.map_append, ← hdone, ← hwaiting]
    exact ((List.filter_append_perm _ metadata.pending).map _).symm
  have hfold : ∀ start : Metadata,
      done.foldl (fun metadata fetch => metadata.finish connection fetch.2) start
        = (done.map (·.2)).foldl (fun metadata query => metadata.finish connection query) start :=
    fun start => (List.foldl_map ..).symm
  dsimp only
  rw [hfold, (foldl_finish_pending connection _ _).1]
  have hstart : Interleaved { metadata with pending := waiting }
      (done.map (·.2) ++ waiting.map (·.2)) := (h.perm hperm).congr rfl rfl
  exact hstart.finishAll connection

/-- What holds while callers ask: the fetches that have started are under way, besides those in the
    background from before. -/
structure Round.Interleaved (round : Round) (base : Metadata) : Prop where
  state : Metadata.Interleaved round.metadata
    (round.fetching ++ (round.background ++ base.pending.map (·.2)))
  pending : round.metadata.pending = base.pending
  now : round.metadata.now = base.now
  free : base.now ≤ round.free

namespace Round.Interleaved

variable {round : Round} {base : Metadata}

/-- A caller asks for a listing. -/
theorem askListing (h : round.Interleaved base) (connection : Connection) (query : Query) :
    (round.askListing connection query).Interleaved base := by
  have hask := h.state.ask query round.metadata.interval
  unfold Round.askListing
  dsimp only
  generalize (round.metadata.slot query).ask round.metadata.now round.metadata.interval = asked
    at hask ⊢
  obtain ⟨slot, hand⟩ := asked
  cases hand with
  | cached value =>
    simp only [begun, List.append_nil] at hask
    exact ⟨hask, h.pending, h.now, h.free⟩
  | stale value =>
    refine ⟨hask.perm (List.perm_iff_count.mpr fun other => ?_), h.pending, h.now, h.free⟩
    simp only [begun, conclude, List.count_append]
    omega
  | fetch =>
    dsimp only
    split
    · -- the answer is there at once
      have hfirst := hask.perm (List.perm_append_singleton query _)
      exact ⟨hfirst.finish connection, h.pending, h.now, h.free⟩
    · refine ⟨hask.perm (List.perm_iff_count.mpr fun other => ?_), h.pending, h.now, h.free⟩
      simp only [begun, conclude, List.count_append]
      omega
  | wait =>
    simp only [begun, List.append_nil] at hask
    exact ⟨hask, h.pending, h.now, h.free⟩

/-- A refresh of the overview leaves the listings alone. -/
theorem askRefresh (h : round.Interleaved base) (connection : Connection) :
    (round.askRefresh connection).1.Interleaved base := by
  unfold Round.askRefresh
  dsimp only
  generalize round.metadata.overview.ask round.free round.metadata.interval = asked
  obtain ⟨overview, turn⟩ := asked
  cases turn with
  | wait => exact h
  | fresh => exact h
  | fetch =>
    have hfree : ∀ latency, base.now ≤ round.free + latency :=
      fun latency => Nat.le_add_right_of_le h.free
    dsimp only
    by_cases hnow : round.free = round.metadata.now
    · rw [if_pos hnow]
      exact ⟨h.state.congr rfl rfl, h.pending, h.now, hfree _⟩
    · rw [if_neg hnow]
      exact ⟨h.state.congr rfl rfl, h.pending, h.now, hfree _⟩

/-- A caller asks. -/
theorem ask (h : round.Interleaved base) (connection : Connection) (call : Call) :
    (round.ask connection call).Interleaved base := by
  have hconclude : ∀ {round : Round} (outcome : Outcome), round.Interleaved base →
      (round.conclude outcome).Interleaved base :=
    fun outcome h => ⟨h.state, h.pending, h.now, h.free⟩
  cases call with
  | refresh => exact hconclude _ (h.askRefresh connection)
  | catalogs => exact hconclude _ (h.askRefresh connection)
  | databases => exact hconclude _ (h.askRefresh connection)
  | listing query => exact h.askListing connection query
  | cached query => exact hconclude _ h

/-- All callers ask. -/
theorem askAll (h : round.Interleaved base) (connection : Connection) (calls : List Call) :
    (calls.foldl (Round.ask connection) round).Interleaved base := by
  induction calls generalizing round with
  | nil => exact h
  | cons call calls ih => exact ih (h.ask connection call)

end Round.Interleaved

theorem Round.le_ends {round : Round} {base : Metadata} (h : round.Interleaved base)
    (connection : Connection) : base.now ≤ round.ends connection := by
  have hfree := h.free
  unfold ends
  split <;> omega

/-- Callers that ask together. -/
theorem Interleaved.perform (connection : Connection) (calls : List Call)
    (h : Interleaved metadata (metadata.pending.map (·.2))) :
    Interleaved (metadata.perform connection calls).1
      ((metadata.perform connection calls).1.pending.map (·.2)) := by
  have hround : (calls.foldl (Round.ask connection) { metadata, free := metadata.now }).Interleaved
      metadata := by
    exact Round.Interleaved.askAll ⟨h, rfl, rfl, Nat.le_refl _⟩ connection calls
  unfold Metadata.perform
  dsimp only
  generalize calls.foldl (Round.ask connection) { metadata, free := metadata.now } = round
    at hround ⊢
  -- the fetches that callers wait for end, then time passes
  have hfetched := hround.state.finishAll connection
  obtain ⟨hpending, hnow⟩ := foldl_finish_pending connection round.fetching round.metadata
  generalize round.fetching.foldl (fun metadata query => metadata.finish connection query)
    round.metadata = fetched at hfetched hpending hnow ⊢
  have hends : fetched.now ≤ round.ends connection := by
    rw [hnow, hround.now]
    exact Round.le_ends hround connection
  have htick := hfetched.tick (round.ends connection - fetched.now)
  have hafter : Interleaved
      { fetched with
        now := round.ends connection
        pending := fetched.pending
          ++ round.background.map fun query => (metadata.now + connection.latency, query) }
      (round.background ++ metadata.pending.map (·.2)) :=
    htick.congr (Nat.add_sub_cancel' hends).symm rfl
  refine Interleaved.settle connection (hafter.perm ?_)
  dsimp only
  rw [List.map_append, List.map_map, hpending, hround.pending]
  have hstarts : round.background.map
      ((·.2) ∘ fun query => (metadata.now + connection.latency, query)) = round.background :=
    List.map_id _
  rw [hstarts]
  exact List.perm_append_comm

/-! ### Whatever the server does -/

/-- The states that the caches of a server go through. -/
inductive Reached : Metadata → Prop where
  | ofInterval (millis : Nat) : Reached (.ofInterval millis)
  | setInterval {metadata : Metadata} (h : Reached metadata) (millis : Nat) :
      Reached (metadata.setInterval millis)
  | advance {metadata : Metadata} (h : Reached metadata) (connection : Connection) (millis : Nat) :
      Reached (metadata.advance connection millis)
  | perform {metadata : Metadata} (h : Reached metadata) (connection : Connection)
      (calls : List Call) : Reached (metadata.perform connection calls).1

/-- **What the server does is one of the possible orders.**  Some events lead to the slots of its
    caches, and the fetches in the background are those under way. -/
theorem interleaved_of_reached {metadata : Metadata} (h : Reached metadata) :
    Interleaved metadata (metadata.pending.map (·.2)) := by
  induction h with
  | ofInterval millis => exact ⟨[], rfl, fun _ => rfl, fun _ => rfl⟩
  | setInterval _ millis ih => exact ih.congr rfl rfl
  | advance _ connection millis ih =>
    exact Interleaved.settle connection (ih.tick millis)
  | perform _ connection calls ih => exact ih.perform connection calls

/-- **Single flight and throttle.**  Let callers ask for any keys with any intervals, and let their
    steps, the answers to their fetches, the fetches in the background and the clock come in any
    order.  Then for each key, at every moment: at most one fetch is under way; at most one fetch
    has started while there was no value; each fetch has started only when the interval of the call
    that started it had passed since every earlier one; a value is never lost, and it is that of the
    last started fetch that has ended; every call that has come to its end has a value that a fetch
    for its key has brought; and every call comes to its end.  What the server does is one of these
    orders. -/
theorem single_flight_and_throttle :
    (∀ {κ α : Type} [DecidableEq κ] (events : List (Event κ α)) (key : κ),
      (((System.after events).states key).tasks.countP (·.stage.inFlight) ≤ 1
        ∧ ((System.after events).states key).history.fetches.countP (·.result.isNone) ≤ 1)
      ∧ ((System.after events).states key).history.fetches.countP (·.first) ≤ 1
      ∧ ((System.after events).states key).history.fetches.Pairwise
          (fun earlier later => earlier.start + later.interval ≤ later.start)
      ∧ (((System.after events).states key).history.slot.value.isSome = true → ∀ more,
          ((System.after (events ++ more)).states key).history.slot.value.isSome = true)
      ∧ ((System.after events).states key).history.slot.value
          = ((System.after events).states key).history.results.getLast?
      ∧ (∀ task ∈ ((System.after events).states key).tasks, ∀ value,
          task.stage = .returned value → value ∈ ((System.after events).states key).history.results)
      ∧ ((System.after events).states key).Concludes (System.after events).now)
    ∧ ∀ metadata, Reached metadata → Interleaved metadata (metadata.pending.map (·.2)) := by
  refine ⟨fun events key => ?_, fun metadata hreached => interleaved_of_reached hreached⟩
  have hsound := System.sound_after events key
  refine ⟨⟨hsound.gate.countP_inFlight, hsound.history.countP_isNone⟩, hsound.history.countP_first,
    hsound.history.throttled, fun hsome more => ?_, hsound.history.value, ?_, hsound.concludes⟩
  · rw [System.after_append]
    exact System.isSome_run hsome more
  · intro task htask value hstage
    have hfits := hsound.fits task htask
    rwa [Task.Fits, hstage] at hfits

/-- Two callers share the first fetch: the second one waits until the first one leaves the gate. -/
example :
    ((System.after ([.call () 5, .call () 5] ++ List.replicate 4 (.step () 0)
        ++ [.step () 1, .step () 1, .land () 0 "t", .step () 0, .step () 0]
        ++ List.replicate 3 (.step () 1))
      : System Unit String).states ()).tasks.map (·.stage) = [.returned "t", .returned "t"] := by
  decide

end ScriptServer.Metadata
