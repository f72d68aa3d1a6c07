import ScriptServer.Proofs.Metadata.Conclusion
import ScriptServer.Proofs.Metadata.Session

namespace ScriptServer.Metadata

/-!
# The first of many callers refreshes

The server answers calls that come together, and lets time pass.  For the lists of catalogs and
databases, too, each of these comes down to steps of single callers in some order, so what holds in
every order holds for the server.

* `RefreshSystem.AtRest` — all callers have come to their end and have left the lists in this state.
* `Serves` — callers stand for calls of the server: the same replies, the same requests.
* `exists_run_perform` — calls that come together are those of callers in some order.
* `exists_atRest` — every state of the server is that of a system.
* `leading_edge_throttle` — what callers can rely on in every order.
* `interval_set_after_check` — a new interval comes too late for a refresh that has been found due.
-/

theorem Overview.ask_of_due {overview : Overview} {now interval : Nat}
    (hfree : overview.busy = false) (hdue : isDue overview.started now interval = true) :
    overview.ask now interval = ({ overview with started := some now, busy := true }, .fetch) := by
  simp [Overview.ask, Overview.enter?, Overview.start, hfree, hdue]

theorem Overview.ask_of_fresh {overview : Overview} {now interval : Nat}
    (hfree : overview.busy = false) (hdue : isDue overview.started now interval = false) :
    overview.ask now interval = (overview, .fresh) := by
  obtain ⟨catalogs, databases, started, busy⟩ := overview
  obtain rfl : busy = false := hfree
  simp [Overview.ask, Overview.enter?, Overview.leave, hdue]

/-- All callers have come to their end, and this is how they have left the overview. -/
structure RefreshSystem.AtRest (system : RefreshSystem) (overview : Overview)
    (now interval : Nat) : Prop where
  overview_eq : system.history.overview = overview
  now_eq : system.now = now
  interval_eq : system.interval = interval
  free : overview.busy = false
  returned : ∀ caller ∈ system.callers, caller.progress.isReturned = true

/-- Time passes. -/
theorem RefreshSystem.AtRest.tick {system : RefreshSystem} {overview : Overview}
    {now interval : Nat} (h : system.AtRest overview now interval) (millis : Nat) :
    (system.run [.tick millis]).AtRest overview (now + millis) interval :=
  { h with now_eq := congrArg (· + millis) h.now_eq }

/-- The names that the database answers with, unless the question fails or the answer cannot be
    read. -/
def answeredNames? (connection : Connection) (query : Query) : Option (List String) :=
  ((connection.answer query).bind query.listing?).map (·.toNames)

theorem getD_answeredNames? (connection : Connection) {query : Query}
    (h : query.nothing = .names []) :
    (answeredNames? connection query).getD [] = (connection.listing query).toNames := by
  unfold answeredNames? Connection.listing
  cases (connection.answer query).bind query.listing? with
  | none => rw [Option.getD_none, h]; rfl
  | some listing => rfl

/-- The wish of a call that concerns the overview. -/
def wishOf? : Call → Option Wish
  | .refresh => some .refresh
  | .catalogs => some .catalogs
  | .databases => some .databases
  | _ => none

/-- What a call that concerns the overview is told. -/
def tells? (call : Call) (reply : Reply) : Option (Wish × Reply) :=
  (wishOf? call).map fun wish => (wish, reply)

/-- What a caller that has come to its end is told. -/
def RefreshCaller.told? (caller : RefreshCaller) : Option (Wish × Reply) :=
  match caller.progress with
  | .returned _ reply => some (caller.wish, reply)
  | _ => none

/-! ### One caller -/

namespace Round

/-- The questions that have been asked so far. -/
def questions (round : Round) : List Query :=
  round.asked ++ round.background ++ round.askedLater

theorem askRefresh_of_fresh {round : Round} (hfree : round.metadata.overview.busy = false)
    (hdue : isDue round.metadata.overview.started round.free round.metadata.interval = false)
    (connection : Connection) : round.askRefresh connection = (round, false) := by
  simp only [askRefresh, Overview.ask_of_fresh hfree hdue]

theorem askRefresh_of_due {round : Round} (hfree : round.metadata.overview.busy = false)
    (hdue : isDue round.metadata.overview.started round.free round.metadata.interval = true)
    (connection : Connection) :
    (round.askRefresh connection).2 = true
      ∧ (round.askRefresh connection).1.metadata.overview
        = (round.metadata.overview.ask round.free round.metadata.interval).1.finish
          (connection.listing .catalogs).toNames (connection.listing .databases).toNames
      ∧ (round.askRefresh connection).1.metadata.interval = round.metadata.interval
      ∧ (round.askRefresh connection).1.free = round.free + connection.latency
      ∧ (round.askRefresh connection).1.outcomes = round.outcomes
      ∧ ∀ query, (round.askRefresh connection).1.questions.count query
        = round.questions.count query + [Query.catalogs, Query.databases].count query := by
  simp only [askRefresh, Overview.ask_of_due hfree hdue]
  by_cases hnow : round.free = round.metadata.now
  · simp only [if_pos hnow]
    refine ⟨trivial, trivial, trivial, trivial, trivial, fun query => ?_⟩
    simp only [questions, List.count_append]
    omega
  · simp only [if_neg hnow]
    refine ⟨trivial, trivial, trivial, trivial, trivial, fun query => ?_⟩
    simp only [questions, List.count_append]
    omega

/-- What the server does when a refresh is asked for is what a caller does that nobody comes in
    between. -/
theorem exists_run_askRefresh {round : Round} {system : RefreshSystem}
    (h : system.AtRest round.metadata.overview round.free round.metadata.interval)
    (connection : Connection) (wish : Wish) :
    ∃ events caller, (system.run events).callers = system.callers ++ [caller]
      ∧ caller.told? = some (wish, wish.reply (round.askRefresh connection).2
          (round.askRefresh connection).1.metadata.overview)
      ∧ (system.run events).AtRest (round.askRefresh connection).1.metadata.overview
          (round.askRefresh connection).1.free (round.askRefresh connection).1.metadata.interval
      ∧ (round.askRefresh connection).1.outcomes = round.outcomes
      ∧ ∀ query, (round.askRefresh connection).1.questions.count query
        = round.questions.count query + caller.requests.count query := by
  have hbusy : system.history.overview.busy = false := by rw [h.overview_eq, h.free]
  have hreturned : ∀ {caller : RefreshCaller}, caller.progress.isReturned = true →
      ∀ other ∈ system.callers ++ [caller], other.progress.isReturned = true := by
    intro caller hcaller other hother
    rw [List.mem_append, List.mem_singleton] at hother
    rcases hother with hin | rfl
    · exact h.returned other hin
    · exact hcaller
  cases hdue : isDue round.metadata.overview.started round.free round.metadata.interval with
  | false =>
    have hrun := RefreshSystem.run_wholeCall_fresh hbusy
      (by rw [h.overview_eq, h.now_eq, h.interval_eq, hdue]) wish none none
    rw [askRefresh_of_fresh h.free hdue]
    refine ⟨_, _, congrArg (·.callers) hrun, ?_, ?_, rfl, fun query => rfl⟩
    · rw [h.overview_eq]
      rfl
    · rw [hrun]
      exact { h with returned := hreturned rfl }
  | true =>
    obtain ⟨hstarted, hoverview, hinterval, hfree, houtcomes, hquestions⟩ :=
      askRefresh_of_due h.free hdue connection
    have hrun := RefreshSystem.run_wholeCall_due hbusy
      (by rw [h.overview_eq, h.now_eq, h.interval_eq, hdue]) wish connection.latency
      (answeredNames? connection .catalogs) (answeredNames? connection .databases) rfl
    rw [getD_answeredNames? connection rfl, getD_answeredNames? connection rfl, h.overview_eq,
      h.now_eq, h.interval_eq, ← hoverview] at hrun
    refine ⟨_, _, congrArg (·.callers) hrun, ?_, ?_, houtcomes, hquestions⟩
    · rw [hstarted]
      rfl
    · rw [hrun]
      exact ⟨rfl, hfree.symm, hinterval.symm, by rw [hoverview]; rfl, hreturned rfl⟩

/-- A call for a listing leaves the overview alone. -/
theorem askListing_frame (round : Round) (connection : Connection) (query : Query) :
    (round.askListing connection query).metadata.overview = round.metadata.overview
      ∧ (round.askListing connection query).metadata.interval = round.metadata.interval
      ∧ (round.askListing connection query).free = round.free
      ∧ (∃ outcome, (round.askListing connection query).outcomes = round.outcomes ++ [outcome])
      ∧ ∀ other, other ≠ query →
        (round.askListing connection query).questions.count other
          = round.questions.count other := by
  unfold askListing
  dsimp only
  generalize (round.metadata.slot query).ask round.metadata.now round.metadata.interval = asked
  obtain ⟨slot, hand⟩ := asked
  have hcount : ∀ other, other ≠ query → [query].count other = 0 := by
    intro other hne
    simp [Ne.symm hne]
  cases hand with
  | cached value => exact ⟨rfl, rfl, rfl, ⟨_, rfl⟩, fun _ _ => rfl⟩
  | stale value =>
    refine ⟨rfl, rfl, rfl, ⟨_, rfl⟩, fun other hne => ?_⟩
    simp only [questions, conclude, List.count_append, hcount other hne, Nat.add_zero]
  | wait => exact ⟨rfl, rfl, rfl, ⟨_, rfl⟩, fun _ _ => rfl⟩
  | fetch =>
    dsimp only
    split
    · refine ⟨rfl, rfl, rfl, ⟨_, rfl⟩, fun other hne => ?_⟩
      simp only [questions, conclude, List.count_append, hcount other hne, Nat.add_zero]
    · refine ⟨rfl, rfl, rfl, ⟨_, rfl⟩, fun other hne => ?_⟩
      simp only [questions, conclude, List.count_append, hcount other hne, Nat.add_zero]

/-- A call of the server and the callers that stand for it.  The call has an outcome, and the system
    is at rest again; `after` is the round after the call. -/
structure Stands (system system' : RefreshSystem) (round after : Round) (call : Call)
    (callers : List RefreshCaller) (outcome : Outcome) : Prop where
  callers_eq : system'.callers = system.callers ++ callers
  atRest : system'.AtRest after.metadata.overview after.free after.metadata.interval
  outcomes_eq : after.outcomes = round.outcomes ++ [outcome]
  told : ∀ metadata, callers.filterMap RefreshCaller.told?
    = (tells? call (reply metadata outcome)).toList
  asked : ∀ query, query = .catalogs ∨ query = .databases → call ≠ .listing query →
    after.questions.count query
      = round.questions.count query + (callers.flatMap (·.requests)).count query

/-- For a call that wants something of the overview stands a caller that nobody comes in between. -/
theorem exists_stands_of_wish {round : Round} {system : RefreshSystem}
    (h : system.AtRest round.metadata.overview round.free round.metadata.interval)
    (connection : Connection) {call : Call} {wish : Wish} (hwish : wishOf? call = some wish)
    (hask : round.ask connection call = (round.askRefresh connection).1.conclude
      (.done (wish.reply (round.askRefresh connection).2
        (round.askRefresh connection).1.metadata.overview))) :
    ∃ events callers outcome,
      Stands system (system.run events) round (round.ask connection call) call callers outcome := by
  obtain ⟨events, caller, hcallers, htold, hrest, houtcomes, hquestions⟩ :=
    exists_run_askRefresh h connection wish
  rw [hask]
  refine ⟨events, [caller], _, hcallers, hrest, congrArg (· ++ [_]) houtcomes, fun metadata => ?_,
    fun query _ _ => ?_⟩
  · simp [htold, tells?, hwish, reply]
  · rw [List.flatMap_singleton]
    exact hquestions query

/-- For a call stands a caller that nobody comes in between, or nobody if the call has nothing to do
    with the overview. -/
theorem exists_stands {round : Round} {system : RefreshSystem}
    (h : system.AtRest round.metadata.overview round.free round.metadata.interval)
    (connection : Connection) (call : Call) :
    ∃ events callers outcome,
      Stands system (system.run events) round (round.ask connection call) call callers outcome := by
  cases call with
  | refresh => exact exists_stands_of_wish h connection rfl rfl
  | catalogs => exact exists_stands_of_wish h connection rfl rfl
  | databases => exact exists_stands_of_wish h connection rfl rfl
  | listing query =>
    obtain ⟨hoverview, hinterval, hfree, ⟨outcome, houtcomes⟩, hquestions⟩ :=
      round.askListing_frame connection query
    refine ⟨[], [], outcome, (List.append_nil _).symm, ?_, houtcomes, fun _ => rfl,
      fun other _ hne => hquestions other fun heq => hne (congrArg _ heq.symm)⟩
    simp only [ask, hoverview, hinterval, hfree]
    exact h
  | cached query =>
    exact ⟨[], [], _, (List.append_nil _).symm, h, rfl, fun _ => rfl, fun _ _ _ => rfl⟩

/-- For calls one after the other stand callers in this order. -/
theorem exists_run_askAll (round : Round) {system : RefreshSystem}
    (h : system.AtRest round.metadata.overview round.free round.metadata.interval)
    (connection : Connection) (calls : List Call) :
    ∃ events callers outcomes, (system.run events).callers = system.callers ++ callers
      ∧ (system.run events).AtRest (calls.foldl (ask connection) round).metadata.overview
          (calls.foldl (ask connection) round).free
          (calls.foldl (ask connection) round).metadata.interval
      ∧ (calls.foldl (ask connection) round).outcomes = round.outcomes ++ outcomes
      ∧ (∀ metadata, callers.filterMap RefreshCaller.told?
          = (calls.zip (outcomes.map (reply metadata))).filterMap fun told => tells? told.1 told.2)
      ∧ ∀ query, query = .catalogs ∨ query = .databases → Call.listing query ∉ calls →
        (calls.foldl (ask connection) round).questions.count query
          = round.questions.count query + (callers.flatMap (·.requests)).count query := by
  induction calls generalizing round system with
  | nil =>
    exact ⟨[], [], [], (List.append_nil _).symm, h, (List.append_nil _).symm, fun _ => rfl,
      fun _ _ _ => rfl⟩
  | cons call calls ih =>
    obtain ⟨events, callers, outcome, hcallers, hrest, houtcome, htold, hquestions⟩ :=
      exists_stands h connection call
    obtain ⟨events', callers', outcomes, hcallers', hrest', houtcomes, htold', hquestions'⟩ :=
      ih _ hrest
    refine ⟨events ++ events', callers ++ callers', outcome :: outcomes, ?_, ?_, ?_, ?_, ?_⟩
    · rw [RefreshSystem.run_append, hcallers', hcallers, List.append_assoc]
    · rw [RefreshSystem.run_append]
      exact hrest'
    · rw [List.foldl_cons, houtcomes, houtcome, List.append_assoc]
      rfl
    · intro metadata
      rw [List.filterMap_append, htold metadata, htold' metadata, List.map_cons, List.zip_cons_cons,
        List.filterMap_cons]
      cases tells? call (reply metadata outcome) <;> rfl
    · intro query hquery hnot
      rw [List.mem_cons, not_or] at hnot
      rw [List.foldl_cons, hquestions' query hquery hnot.2,
        hquestions query hquery (Ne.symm hnot.1), List.flatMap_append, List.count_append]
      omega

end Round

/-! ### Calls that come together -/

/-- Callers have their answers when all refreshes have ended, or later. -/
theorem Round.free_le_ends (round : Round) (connection : Connection) :
    round.free ≤ round.ends connection := by
  unfold ends
  split <;> omega

/-- Callers stand for the calls that concern the overview: they are told the same, and the same
    requests for catalogs and databases go to the database. -/
structure Serves (callers : List RefreshCaller) (calls : List Call) (replies : List Reply)
    (questions : List Query) : Prop where
  told : callers.filterMap RefreshCaller.told?
    = (calls.zip replies).filterMap fun told => tells? told.1 told.2
  asked : ∀ query, query = .catalogs ∨ query = .databases → Call.listing query ∉ calls →
    questions.count query = (callers.flatMap (·.requests)).count query

/-- The end of fetches leaves the overview alone. -/
theorem foldl_finish_overview {α : Type} (connection : Connection) (query : α → Query)
    (fetches : List α) (metadata : Metadata) :
    (fetches.foldl (fun metadata fetch => metadata.finish connection (query fetch))
          metadata).overview = metadata.overview
      ∧ (fetches.foldl (fun metadata fetch => metadata.finish connection (query fetch))
          metadata).interval = metadata.interval
      ∧ (fetches.foldl (fun metadata fetch => metadata.finish connection (query fetch))
          metadata).now = metadata.now := by
  induction fetches generalizing metadata with
  | nil => exact ⟨rfl, rfl, rfl⟩
  | cons fetch fetches ih => exact ih (metadata.finish connection (query fetch))

theorem settle_overview (metadata : Metadata) (connection : Connection) :
    (metadata.settle connection).overview = metadata.overview
      ∧ (metadata.settle connection).interval = metadata.interval
      ∧ (metadata.settle connection).now = metadata.now := by
  unfold Metadata.settle
  exact foldl_finish_overview connection (fun fetch : Nat × Query => fetch.2) _ _

/-- **Calls that come together are those of callers in some order.** -/
theorem exists_run_perform {metadata : Metadata} {system : RefreshSystem}
    (h : system.AtRest metadata.overview metadata.now metadata.interval) (connection : Connection)
    (calls : List Call) :
    ∃ events callers, (system.run events).callers = system.callers ++ callers
      ∧ (system.run events).AtRest (metadata.perform connection calls).1.overview
          (metadata.perform connection calls).1.now
          (metadata.perform connection calls).1.interval
      ∧ Serves callers calls (metadata.perform connection calls).2.1
          (metadata.perform connection calls).2.2 := by
  obtain ⟨events, callers, outcomes, hcallers, hrest, houtcomes, htold, hquestions⟩ :=
    Round.exists_run_askAll { metadata, free := metadata.now } h connection calls
  unfold Metadata.perform
  dsimp only
  generalize calls.foldl (Round.ask connection) { metadata, free := metadata.now } = round
    at hrest houtcomes hquestions ⊢
  obtain ⟨hoverview, hinterval, hnow⟩ :=
    foldl_finish_overview connection (fun query => query) round.fetching round.metadata
  generalize round.fetching.foldl (fun metadata query => metadata.finish connection query)
    round.metadata = fetched at hoverview hinterval hnow ⊢
  have hends := round.free_le_ends connection
  refine ⟨events ++ [.tick (round.ends connection - round.free)], callers, ?_, ?_, ?_, ?_⟩
  · rw [RefreshSystem.run_append]
    exact hcallers
  · have hlater := hrest.tick (round.ends connection - round.free)
    rw [Nat.add_sub_cancel' hends, ← hoverview, ← hinterval] at hlater
    rw [RefreshSystem.run_append, (settle_overview _ connection).1,
      (settle_overview _ connection).2.1, (settle_overview _ connection).2.2]
    exact hlater
  · rw [houtcomes]
    exact htold fetched
  · intro query hquery hnot
    have hcount := hquestions query hquery hnot
    rwa [show ({ metadata, free := metadata.now } : Round).questions.count query = 0 from rfl,
      Nat.zero_add] at hcount

/-- **Every state of the server is that of a system.** -/
theorem exists_atRest {metadata : Metadata} (h : Reached metadata) :
    ∃ millis events, (RefreshSystem.after millis events).AtRest metadata.overview metadata.now
      metadata.interval := by
  induction h with
  | ofInterval millis => exact ⟨millis, [], rfl, rfl, rfl, rfl, nofun⟩
  | setInterval _ millis ih =>
    obtain ⟨start, events, hrest⟩ := ih
    refine ⟨start, events ++ [.setInterval millis], ?_⟩
    rw [RefreshSystem.after_append]
    exact { hrest with interval_eq := rfl }
  | @advance metadata _ connection millis ih =>
    obtain ⟨start, events, hrest⟩ := ih
    refine ⟨start, events ++ [.tick millis], ?_⟩
    obtain ⟨hoverview, hinterval, hnow⟩ :=
      settle_overview { metadata with now := metadata.now + millis } connection
    rw [RefreshSystem.after_append, Metadata.advance, hoverview, hinterval, hnow]
    exact hrest.tick millis
  | perform _ connection calls ih =>
    obtain ⟨start, events, hrest⟩ := ih
    obtain ⟨more, callers, -, hrest', -⟩ := exists_run_perform hrest connection calls
    refine ⟨start, events ++ more, ?_⟩
    rw [RefreshSystem.after_append]
    exact hrest'

/-- **Leading-edge throttle.**  Let callers ask for a refresh, for the catalogs or the databases,
    and let their steps, the answers to their requests or the failure to get one, new intervals and
    the clock come in any order.  Then at every moment: at most one refresh is under way; before
    each refresh its caller has found, while no further one had started, that the interval in force
    at that moment had passed since the start of every earlier one, so that at the start of the
    refresh the interval then in force has passed, unless a longer one has been set in between; a caller
    sends each of the two requests once at most, and a caller for a refresh is told that it has
    started one exactly if it has sent both, that it has not exactly if it has sent none; there are
    as many refreshes as callers that have started one; while no refresh is under way, both lists
    are what the last one has brought, where a request that fails gives the empty list; and every
    caller comes to its end.  What the server does is one of these orders, with the same replies and
    the same requests. -/
theorem leading_edge_throttle :
    (∀ (millis : Nat) (events : List RefreshSystem.Event) (system : RefreshSystem),
        system = RefreshSystem.after millis events →
      (system.callers.countP (·.progress.inFlight) ≤ 1
        ∧ system.history.refreshes.countP (fun refresh => !refresh.ended) ≤ 1)
      ∧ (∀ done refresh, done ++ [refresh] <+: system.history.refreshes →
          (∃ checked, checked <+: events
            ∧ (RefreshSystem.after millis checked).history.refreshes = done
            ∧ (RefreshSystem.after millis checked).now = refresh.check.moment
            ∧ (RefreshSystem.after millis checked).interval = refresh.check.interval
            ∧ ∃ caller ∈ (RefreshSystem.after millis checked).callers,
              caller.progress = .opening refresh.check)
          ∧ (∃ begun, begun <+: events
            ∧ (RefreshSystem.after millis begun).history.refreshes.length = done.length + 1
            ∧ (RefreshSystem.after millis begun).now = refresh.start
            ∧ (RefreshSystem.after millis begun).interval = refresh.interval)
          ∧ refresh.check.moment ≤ refresh.start
          ∧ (∀ earlier ∈ done, earlier.start + refresh.check.interval ≤ refresh.check.moment)
          ∧ (refresh.interval ≤ refresh.check.interval →
            ∀ earlier ∈ done, earlier.start + refresh.interval ≤ refresh.start))
      ∧ (∀ caller ∈ system.callers, caller.requests <+: [.catalogs, .databases])
      ∧ (∀ caller ∈ system.callers, ∀ started reply, caller.progress = .returned started reply →
          (started = true ↔ caller.requests = [.catalogs, .databases])
            ∧ (started = false ↔ caller.requests = [])
            ∧ (caller.wish = .refresh → reply = .refreshed started))
      ∧ system.callers.countP (·.progress.hasStarted) = system.history.refreshes.length
      ∧ ((∀ caller ∈ system.callers, caller.progress.inFlight = false) →
          ∀ last, system.history.refreshes.getLast? = some last →
            ∃ catalogs databases, last.catalogs = .answered catalogs
              ∧ last.databases = .answered databases
              ∧ system.history.overview.catalogs = catalogs.getD []
              ∧ system.history.overview.databases = databases.getD [])
      ∧ system.Concludes)
    ∧ (∀ metadata, Reached metadata → ∃ millis events,
        (RefreshSystem.after millis events).AtRest metadata.overview metadata.now metadata.interval)
    ∧ ∀ (metadata : Metadata) (system : RefreshSystem) (connection : Connection)
        (calls : List Call), system.AtRest metadata.overview metadata.now metadata.interval →
          ∃ events callers, (system.run events).callers = system.callers ++ callers
            ∧ (system.run events).AtRest (metadata.perform connection calls).1.overview
                (metadata.perform connection calls).1.now
                (metadata.perform connection calls).1.interval
            ∧ Serves callers calls (metadata.perform connection calls).2.1
                (metadata.perform connection calls).2.2 := by
  refine ⟨?_, fun metadata hreached => exists_atRest hreached,
    fun metadata system connection calls hrest => exists_run_perform hrest connection calls⟩
  rintro millis events system rfl
  have hsound := RefreshSystem.sound_after millis events
  refine ⟨⟨hsound.gate.countP_inFlight, hsound.history.countP_not_ended⟩,
    fun done refresh hinit => ?_,
    fun caller hcaller => (hsound.fits caller hcaller).requests_init,
    fun caller hcaller started reply hprogress => hsound.replied hcaller hprogress, hsound.counted,
    fun hnone last hlast => hsound.answers hnone hlast, RefreshSystem.concludes_after millis events⟩
  obtain ⟨⟨⟨_, ⟨checked, hchecked, rfl⟩, hfound⟩, hpassed, hle⟩, _, ⟨begun, hbegun, rfl⟩,
    hstarted⟩ := hsound.history.justified done refresh hinit
  refine ⟨⟨checked, hchecked, hfound⟩, ⟨begun, hbegun, hstarted⟩, hle, hpassed,
    fun hkept earlier hearlier => ?_⟩
  have hspace := hpassed earlier hearlier
  omega

/-- A refresh starts five milliseconds after another one, although the interval in force is a second
    then: it has been found due before that interval has been set. -/
theorem interval_set_after_check :
    ∃ refreshes, (RefreshSystem.after 5 (.call .refresh :: List.replicate 5 (.step 0)
          ++ [.land 0 .catalogs none, .land 0 .databases none] ++ List.replicate 5 (.step 0)
          ++ [.tick 5, .call .refresh, .step 1, .step 1, .step 1, .setInterval 1000,
            .step 1])).history.refreshes = refreshes
      ∧ refreshes.map (fun refresh => (refresh.start, refresh.interval)) = [(0, 5), (5, 1000)]
      ∧ ¬ refreshes.Pairwise fun earlier later => earlier.start + later.interval ≤ later.start :=
  ⟨_, rfl, by decide, by decide⟩

/-- Two callers ask for a refresh at once: the second one waits for the first one, and then has no
    need of another. -/
example :
    (RefreshSystem.after 5 ([.call .refresh, .call .refresh] ++ List.replicate 5 (.step 0)
        ++ [.step 1, .land 0 .catalogs none, .land 0 .databases (some ["d"])]
        ++ List.replicate 5 (.step 0) ++ List.replicate 5 (.step 1))).callers.map
          RefreshCaller.told?
      = [some (.refresh, .refreshed true), some (.refresh, .refreshed false)] := by
  decide

end ScriptServer.Metadata
