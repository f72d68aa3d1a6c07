import ScriptServer.Metadata.Basic
import ScriptServer.Proofs.Metadata.Gate

namespace ScriptServer.Metadata

/-!
# Refreshes side by side

`Overview.ask` and `Overview.finish` let a caller do all it can do at once.  In truth others may
come in between any two of its steps, and so may a new interval.  Here a caller takes one step at a
time, and each step touches the overview once.

* `Check` — when a caller has found a refresh due, and under which interval.
* `Refresh` — what has come of a refresh so far; `DatabaseRequest` is one of its two requests.
* `Progress`, `RefreshCaller` — how far a caller has come.
* `RefreshCaller.act` — the next step of a caller; `Moves` gives the same steps as rules.
* `RefreshSystem` — the overview, its callers, the interval and the clock.  A `RefreshSystem.Event`
  says what happens next.
* `RefreshSystem.run_wholeCall_due`, `RefreshSystem.run_wholeCall_fresh` — a call that nobody comes
  in between is `Overview.ask`, followed by `Overview.finish` when it fetches.
-/

/-- What a caller wants: a refresh, or one of the lists after it. -/
inductive Wish where
  | refresh
  | catalogs
  | databases
  deriving DecidableEq, Repr

/-- The reply to a caller, when the refresh is over or was not due. -/
def Wish.reply (wish : Wish) (started : Bool) (overview : Overview) : Reply :=
  match wish with
  | .refresh => .refreshed started
  | .catalogs => .listing (.names overview.catalogs)
  | .databases => .listing (.names overview.databases)

/-- One of the two requests of a refresh to the database. -/
inductive DatabaseRequest where
  | unasked
  | asked
  /-- The request has been answered, or it has failed. -/
  | answered (answer : Option (List String))
  deriving DecidableEq, Repr

namespace DatabaseRequest

/-- Whether the request has gone to the database. -/
def isAsked : DatabaseRequest → Bool
  | .unasked => false
  | _ => true

/-- The list that comes of the request.  A request that fails gives the empty list. -/
def names? : DatabaseRequest → Option (List String)
  | .answered answer => some (answer.getD [])
  | _ => none

/-- An answer comes in. -/
def receive (request : DatabaseRequest) (answer : Option (List String)) : DatabaseRequest :=
  match request with
  | .asked => .answered answer
  | other => other

end DatabaseRequest

/-- A caller has found that a refresh is due. -/
structure Check where
  moment : Nat
  /-- The interval in force at this moment. -/
  interval : Nat
  deriving DecidableEq, Repr

/-- A refresh that has started. -/
structure Refresh where
  start : Nat
  /-- The interval in force when it has started. -/
  interval : Nat
  /-- What its caller has found before it has started. -/
  check : Check
  catalogs : DatabaseRequest := .unasked
  databases : DatabaseRequest := .unasked
  /-- Whether both lists have been stored. -/
  ended : Bool := false
  deriving DecidableEq, Repr

/-- An answer to one of its requests comes in. -/
def Refresh.receive (refresh : Refresh) (query : Query) (answer : Option (List String)) : Refresh :=
  match query with
  | .catalogs => { refresh with catalogs := refresh.catalogs.receive answer }
  | .databases => { refresh with databases := refresh.databases.receive answer }
  | _ => refresh

/-- How far a caller has come. -/
inductive Progress where
  /-- The caller wants the gate. -/
  | waiting
  /-- It holds the gate. -/
  | admitted
  /-- The same, and it has seen how long ago the last refresh has started. -/
  | measured (elapsed : Nat)
  /-- The same, and it has found that a refresh is due. -/
  | opening (check : Check)
  /-- The refresh with this number has started. -/
  | fetching (number : Nat)
  /-- It has brought both lists. -/
  | storing (number : Nat) (catalogs databases : List String)
  /-- The catalogs are stored. -/
  | halfway (number : Nat) (databases : List String)
  /-- The refresh is over or was not due, and the caller still holds the gate. -/
  | leaving (started : Bool)
  /-- The caller has given the gate back. -/
  | left (started : Bool)
  /-- The caller has got a reply. -/
  | returned (started : Bool) (reply : Reply)
  deriving DecidableEq, Repr

namespace Progress

/-- Whether a caller that has come this far holds the gate. -/
def holds : Progress → Bool
  | .waiting | .left _ | .returned _ _ => false
  | _ => true

/-- Whether the refresh of a caller that has come this far is under way. -/
def inFlight : Progress → Bool
  | .fetching _ | .storing _ _ _ | .halfway _ _ => true
  | _ => false

/-- Whether a caller that has come this far has started a refresh. -/
def hasStarted : Progress → Bool
  | .fetching _ | .storing _ _ _ | .halfway _ _ => true
  | .leaving started | .left started | .returned started _ => started
  | _ => false

/-- Whether a caller that has come this far is at its end. -/
def isReturned : Progress → Bool
  | .returned _ _ => true
  | _ => false

end Progress

/-- Somebody who calls for a refresh, or for one of the lists. -/
structure RefreshCaller where
  wish : Wish
  progress : Progress := .waiting
  /-- What the caller has sent to the database. -/
  requests : List Query := []
  deriving DecidableEq, Repr

/-- What the callers share: the overview, and the record of its refreshes in the order in which they
    have started. -/
structure OverviewHistory where
  overview : Overview := {}
  refreshes : List Refresh := []
  deriving DecidableEq, Repr

namespace OverviewHistory

/-- A refresh starts. -/
def start (history : OverviewHistory) (now interval : Nat) (check : Check) : OverviewHistory where
  overview := history.overview.start now
  refreshes := history.refreshes ++ [{ start := now, interval, check }]

/-- Something happens to a refresh. -/
def alter (history : OverviewHistory) (number : Nat) (change : Refresh → Refresh) :
    OverviewHistory :=
  { history with refreshes := history.refreshes.modify number change }

/-- The databases are stored, which ends a refresh. -/
def complete (history : OverviewHistory) (number : Nat) (databases : List String) :
    OverviewHistory where
  overview := history.overview.storeDatabases databases
  refreshes := history.refreshes.modify number fun refresh => { refresh with ended := true }

end OverviewHistory

/-- What comes of a step: the history, how far the caller has come, and the requests that go out. -/
structure Move where
  history : OverviewHistory
  progress : Progress
  sends : List Query := []

/-- The next step of a caller; none if it has to wait or is at its end. -/
def RefreshCaller.act (caller : RefreshCaller) (now interval : Nat) (history : OverviewHistory) :
    Option Move :=
  match caller.progress with
  | .waiting =>
    match history.overview.enter? with
    | some overview => some { history := { history with overview }, progress := .admitted }
    | none => none
  | .admitted =>
    match history.overview.started with
    | none => some { history, progress := .opening ⟨now, interval⟩ }
    | some moment => some { history, progress := .measured (now - moment) }
  | .measured elapsed =>
    if elapsed < interval then some { history, progress := .leaving false }
    else some { history, progress := .opening ⟨now, interval⟩ }
  | .opening check =>
    some { history := history.start now interval check
           progress := .fetching history.refreshes.length }
  | .fetching number =>
    match history.refreshes[number]? with
    | none => none
    | some refresh =>
      match refresh.catalogs, refresh.databases with
      | .unasked, _ =>
        some { history := history.alter number fun refresh => { refresh with catalogs := .asked }
               progress := .fetching number
               sends := [.catalogs] }
      | _, .unasked =>
        some { history := history.alter number fun refresh => { refresh with databases := .asked }
               progress := .fetching number
               sends := [.databases] }
      | .answered catalogs, .answered databases =>
        some { history, progress := .storing number (catalogs.getD []) (databases.getD []) }
      | _, _ => none
  | .storing number catalogs databases =>
    some { history := { history with overview := history.overview.storeCatalogs catalogs }
           progress := .halfway number databases }
  | .halfway number databases =>
    some { history := history.complete number databases, progress := .leaving true }
  | .leaving started =>
    some { history := { history with overview := history.overview.leave }
           progress := .left started }
  | .left started =>
    some { history, progress := .returned started (caller.wish.reply started history.overview) }
  | .returned _ _ => none

/-- The same steps as rules: what has to be the case for each, and what comes of it. -/
inductive Moves (wish : Wish) (now interval : Nat) (history : OverviewHistory) :
    Progress → Move → Prop where
  | enters (h : history.overview.busy = false) :
      Moves wish now interval history .waiting
        { history := { history with overview := { history.overview with busy := true } }
          progress := .admitted }
  | opens (h : history.overview.started = none) :
      Moves wish now interval history .admitted { history, progress := .opening ⟨now, interval⟩ }
  | measures {moment : Nat} (h : history.overview.started = some moment) :
      Moves wish now interval history .admitted { history, progress := .measured (now - moment) }
  | keeps {elapsed : Nat} (h : elapsed < interval) :
      Moves wish now interval history (.measured elapsed) { history, progress := .leaving false }
  | renews {elapsed : Nat} (h : interval ≤ elapsed) :
      Moves wish now interval history (.measured elapsed)
        { history, progress := .opening ⟨now, interval⟩ }
  | starts {check : Check} :
      Moves wish now interval history (.opening check)
        { history := history.start now interval check
          progress := .fetching history.refreshes.length }
  | asksCatalogs {number : Nat} {refresh : Refresh}
      (hget : history.refreshes[number]? = some refresh) (h : refresh.catalogs = .unasked) :
      Moves wish now interval history (.fetching number)
        { history := history.alter number fun refresh => { refresh with catalogs := .asked }
          progress := .fetching number
          sends := [.catalogs] }
  | asksDatabases {number : Nat} {refresh : Refresh}
      (hget : history.refreshes[number]? = some refresh) (hcatalogs : refresh.catalogs ≠ .unasked)
      (h : refresh.databases = .unasked) :
      Moves wish now interval history (.fetching number)
        { history := history.alter number fun refresh => { refresh with databases := .asked }
          progress := .fetching number
          sends := [.databases] }
  | gathers {number : Nat} {refresh : Refresh} {catalogs databases : List String}
      (hget : history.refreshes[number]? = some refresh)
      (hcatalogs : refresh.catalogs.names? = some catalogs)
      (hdatabases : refresh.databases.names? = some databases) :
      Moves wish now interval history (.fetching number)
        { history, progress := .storing number catalogs databases }
  | storesCatalogs {number : Nat} {catalogs databases : List String} :
      Moves wish now interval history (.storing number catalogs databases)
        { history := { history with overview := history.overview.storeCatalogs catalogs }
          progress := .halfway number databases }
  | storesDatabases {number : Nat} {databases : List String} :
      Moves wish now interval history (.halfway number databases)
        { history := history.complete number databases, progress := .leaving true }
  | leaves {started : Bool} :
      Moves wish now interval history (.leaving started)
        { history := { history with overview := history.overview.leave }
          progress := .left started }
  | reads {started : Bool} :
      Moves wish now interval history (.left started)
        { history, progress := .returned started (wish.reply started history.overview) }

/-- A caller takes the steps of the rules and no others. -/
theorem RefreshCaller.moves_of_act {caller : RefreshCaller} {now interval : Nat}
    {history : OverviewHistory} {move : Move} (h : caller.act now interval history = some move) :
    Moves caller.wish now interval history caller.progress move := by
  obtain ⟨wish, progress, requests⟩ := caller
  cases progress with
  | waiting =>
    cases hbusy : history.overview.busy with
    | false =>
      simp [RefreshCaller.act, Overview.enter?, hbusy] at h
      cases h
      exact .enters hbusy
    | true => simp [RefreshCaller.act, Overview.enter?, hbusy] at h
  | admitted =>
    cases hstarted : history.overview.started with
    | none =>
      simp only [RefreshCaller.act, hstarted] at h
      cases h
      exact .opens hstarted
    | some moment =>
      simp only [RefreshCaller.act, hstarted] at h
      cases h
      exact .measures hstarted
  | measured elapsed =>
    by_cases hless : elapsed < interval
    · simp only [RefreshCaller.act, if_pos hless] at h
      cases h
      exact .keeps hless
    · simp only [RefreshCaller.act, if_neg hless] at h
      cases h
      exact .renews (Nat.le_of_not_lt hless)
  | opening check =>
    cases h
    exact .starts
  | fetching number =>
    cases hget : history.refreshes[number]? with
    | none => simp [RefreshCaller.act, hget] at h
    | some refresh =>
      cases hcatalogs : refresh.catalogs with
      | unasked =>
        simp only [RefreshCaller.act, hget, hcatalogs] at h
        cases h
        exact .asksCatalogs hget hcatalogs
      | asked =>
        cases hdatabases : refresh.databases with
        | unasked =>
          simp only [RefreshCaller.act, hget, hcatalogs, hdatabases] at h
          cases h
          exact .asksDatabases hget (by rw [hcatalogs]; nofun) hdatabases
        | asked => simp [RefreshCaller.act, hget, hcatalogs, hdatabases] at h
        | answered databases => simp [RefreshCaller.act, hget, hcatalogs, hdatabases] at h
      | answered catalogs =>
        cases hdatabases : refresh.databases with
        | unasked =>
          simp only [RefreshCaller.act, hget, hcatalogs, hdatabases] at h
          cases h
          exact .asksDatabases hget (by rw [hcatalogs]; nofun) hdatabases
        | asked => simp [RefreshCaller.act, hget, hcatalogs, hdatabases] at h
        | answered databases =>
          simp only [RefreshCaller.act, hget, hcatalogs, hdatabases] at h
          cases h
          exact .gathers hget (by rw [hcatalogs]; rfl) (by rw [hdatabases]; rfl)
  | storing number catalogs databases =>
    cases h
    exact .storesCatalogs
  | halfway number databases =>
    cases h
    exact .storesDatabases
  | leaving started =>
    cases h
    exact .leaves
  | left started =>
    cases h
    exact .reads
  | returned started reply => cases h

/-- A caller that takes no step waits for the gate or for an answer, or has come to its end. -/
theorem RefreshCaller.act_eq_none {caller : RefreshCaller} {now interval : Nat}
    {history : OverviewHistory} (h : caller.act now interval history = none) :
    (caller.progress = .waiting ∧ history.overview.busy = true)
      ∨ (∃ number, caller.progress = .fetching number
        ∧ ∀ refresh, history.refreshes[number]? = some refresh →
          refresh.catalogs = .asked ∨ refresh.databases = .asked)
      ∨ caller.progress.isReturned = true := by
  obtain ⟨wish, progress, requests⟩ := caller
  cases progress with
  | waiting =>
    cases hbusy : history.overview.busy with
    | false => simp [RefreshCaller.act, Overview.enter?, hbusy] at h
    | true => exact .inl ⟨rfl, rfl⟩
  | admitted =>
    cases hstarted : history.overview.started <;> simp [RefreshCaller.act, hstarted] at h
  | measured elapsed =>
    by_cases hless : elapsed < interval <;> simp [RefreshCaller.act, hless] at h
  | fetching number =>
    refine .inr (.inl ⟨number, rfl, fun refresh hget => ?_⟩)
    cases hcatalogs : refresh.catalogs with
    | unasked => simp [RefreshCaller.act, hget, hcatalogs] at h
    | asked => exact .inl rfl
    | answered catalogs =>
      cases hdatabases : refresh.databases with
      | unasked => simp [RefreshCaller.act, hget, hcatalogs, hdatabases] at h
      | asked => exact .inr rfl
      | answered databases => simp [RefreshCaller.act, hget, hcatalogs, hdatabases] at h
  | returned started reply => exact .inr (.inr rfl)
  | _ => cases h

/-- The overview, its callers, the interval and the clock. -/
structure RefreshSystem where
  now : Nat := 0
  interval : Nat
  history : OverviewHistory := {}
  callers : List RefreshCaller := []
  deriving DecidableEq, Repr

/-- Something happens. -/
inductive RefreshSystem.Event where
  /-- Somebody calls. -/
  | call (wish : Wish)
  /-- A caller takes its next step. -/
  | step (index : Nat)
  /-- An answer to a request of a caller comes in. -/
  | land (index : Nat) (query : Query) (answer : Option (List String))
  | setInterval (millis : Nat)
  /-- Time passes. -/
  | tick (millis : Nat)
  deriving DecidableEq, Repr

namespace RefreshSystem

/-- A caller takes its next step. -/
def step (system : RefreshSystem) (index : Nat) : RefreshSystem :=
  match system.callers[index]? with
  | none => system
  | some caller =>
    match caller.act system.now system.interval system.history with
    | none => system
    | some move =>
      { system with
        history := move.history
        callers := system.callers.set index
          { caller with progress := move.progress, requests := caller.requests ++ move.sends } }

/-- An answer to a request of a caller comes in. -/
def land (system : RefreshSystem) (index : Nat) (query : Query)
    (answer : Option (List String)) : RefreshSystem :=
  match system.callers[index]? with
  | some ⟨_, .fetching number, _⟩ =>
    { system with history := system.history.alter number (·.receive query answer) }
  | _ => system

/-- What an event leads to. -/
def next (system : RefreshSystem) : Event → RefreshSystem
  | .call wish => { system with callers := system.callers ++ [{ wish }] }
  | .step index => system.step index
  | .land index query answer => system.land index query answer
  | .setInterval millis => { system with interval := Word.low64 millis }
  | .tick millis => { system with now := system.now + millis }

/-- What events lead to, one after the other. -/
def run (system : RefreshSystem) (events : List Event) : RefreshSystem := events.foldl next system

/-- What events lead to from the beginning, when there is an interval and nobody has called. -/
def after (millis : Nat) (events : List Event) : RefreshSystem :=
  run { interval := Word.low64 millis } events

theorem run_append (system : RefreshSystem) (events more : List Event) :
    system.run (events ++ more) = (system.run events).run more := List.foldl_append ..

theorem after_append (millis : Nat) (events more : List Event) :
    after millis (events ++ more) = (after millis events).run more := run_append ..

/-! ### What one step can do -/

/-- A step changes nothing, or one caller moves: it comes further, and the history changes. -/
theorem step_cases (system : RefreshSystem) (index : Nat) :
    system.step index = system ∨ ∃ before caller after move,
      system.callers = before ++ caller :: after
      ∧ Moves caller.wish system.now system.interval system.history caller.progress move
      ∧ system.step index = { system with
          history := move.history
          callers := before
            ++ ⟨caller.wish, move.progress, caller.requests ++ move.sends⟩ :: after } := by
  unfold step
  split
  · exact .inl rfl
  · rename_i caller hget
    split
    · exact .inl rfl
    · rename_i move hact
      obtain ⟨hlt, rfl⟩ := List.getElem?_eq_some_iff.mp hget
      obtain ⟨before, after, hcallers, -, hset⟩ := @List.exists_of_set _ index
        { system.callers[index] with
          progress := move.progress, requests := system.callers[index].requests ++ move.sends }
        system.callers hlt
      exact .inr ⟨before, _, after, move, hcallers, RefreshCaller.moves_of_act hact, by rw [hset]⟩

/-- An answer comes to the one caller that waits for it, or nothing changes. -/
theorem land_cases (system : RefreshSystem) (index : Nat) (query : Query)
    (answer : Option (List String)) :
    system.land index query answer = system ∨ ∃ caller ∈ system.callers, ∃ number,
      caller.progress = .fetching number
      ∧ system.land index query answer
        = { system with history := system.history.alter number (·.receive query answer) } := by
  unfold land
  split
  · rename_i wish number requests hget
    exact .inr ⟨_, List.mem_of_getElem? hget, number, rfl, rfl⟩
  · exact .inl rfl

/-- A caller that can move takes its step when its turn comes. -/
theorem step_eq {system : RefreshSystem} {before after : List RefreshCaller}
    {caller : RefreshCaller} (hcallers : system.callers = before ++ caller :: after) {move : Move}
    (hact : caller.act system.now system.interval system.history = some move) :
    system.step before.length = { system with
      history := move.history
      callers := before
        ++ ⟨caller.wish, move.progress, caller.requests ++ move.sends⟩ :: after } := by
  simp [step, hcallers, hact]

/-! ### Calls that nobody comes in between -/

/-- A call, the steps of the caller, and the answers to its requests, which take some time. -/
def wholeCall (system : RefreshSystem) (wish : Wish) (latency : Nat)
    (catalogs databases : Option (List String)) : List Event :=
  .call wish :: List.replicate 6 (.step system.callers.length)
    ++ [.tick latency, .land system.callers.length .catalogs catalogs,
      .land system.callers.length .databases databases]
    ++ List.replicate 5 (.step system.callers.length)

/-- **A call that nobody comes in between, when a refresh is due, is `Overview.ask` followed by
    `Overview.finish`.** -/
theorem run_wholeCall_due {system : RefreshSystem} (hbusy : system.history.overview.busy = false)
    (hdue : isDue system.history.overview.started system.now system.interval = true) (wish : Wish)
    (latency : Nat) (catalogs databases : Option (List String)) {overview : Overview}
    (hoverview : overview = (system.history.overview.ask system.now system.interval).1.finish
      (catalogs.getD []) (databases.getD [])) :
    system.run (system.wholeCall wish latency catalogs databases)
      = { now := system.now + latency
          interval := system.interval
          history :=
            ⟨overview, system.history.refreshes
              ++ [{ start := system.now
                    interval := system.interval
                    check := ⟨system.now, system.interval⟩
                    catalogs := .answered catalogs
                    databases := .answered databases
                    ended := true }]⟩
          callers := system.callers
            ++ [⟨wish, .returned true (wish.reply true overview), [.catalogs, .databases]⟩] } := by
  subst hoverview
  obtain ⟨now, interval, ⟨⟨catalogs', databases', started, busy⟩, refreshes⟩, callers⟩ := system
  obtain rfl : busy = false := hbusy
  cases started with
  | none =>
    simp [run, wholeCall, next, step, land, RefreshCaller.act, Overview.enter?, Overview.ask,
      Overview.finish, Overview.start, Overview.storeCatalogs, Overview.storeDatabases,
      Overview.leave, OverviewHistory.start, OverviewHistory.alter, OverviewHistory.complete,
      Refresh.receive, DatabaseRequest.receive, isDue, List.replicate]
  | some moment =>
    have hpassed : ¬ now - moment < interval := by simpa [isDue] using hdue
    simp [run, wholeCall, next, step, land, RefreshCaller.act, Overview.enter?, Overview.ask,
      Overview.finish, Overview.start, Overview.storeCatalogs, Overview.storeDatabases,
      Overview.leave, OverviewHistory.start, OverviewHistory.alter, OverviewHistory.complete,
      Refresh.receive, DatabaseRequest.receive, isDue, List.replicate, hpassed,
      Nat.le_of_not_lt hpassed]

/-- **A call that nobody comes in between, when no refresh is due, is `Overview.ask`.** -/
theorem run_wholeCall_fresh {system : RefreshSystem} (hbusy : system.history.overview.busy = false)
    (hdue : isDue system.history.overview.started system.now system.interval = false) (wish : Wish)
    (catalogs databases : Option (List String)) :
    system.run (system.wholeCall wish 0 catalogs databases)
      = { system with
          callers := system.callers
            ++ [⟨wish, .returned false (wish.reply false system.history.overview), []⟩] } := by
  obtain ⟨now, interval, ⟨⟨catalogs', databases', started, busy⟩, refreshes⟩, callers⟩ := system
  obtain rfl : busy = false := hbusy
  cases started with
  | none => cases hdue
  | some moment =>
    have hpassed : now - moment < interval := by simpa [isDue] using hdue
    simp [run, wholeCall, next, step, land, RefreshCaller.act, Overview.enter?, Overview.leave,
      List.replicate, hpassed]

end RefreshSystem

end ScriptServer.Metadata
