import ScriptServer.Metadata.Slot

namespace ScriptServer.Metadata

/-!
# Callers side by side

`Slot.ask` lets a caller do all it can do at once.  In truth others may come in between any two of
its steps.  Here a call is a task that takes one step at a time, and each step touches the slot
once.

* `Stage`, `Task` — how far a call has come, or a fetch in the background.
* `Task.act` — the next step of a task; `Acts` gives the same steps as rules.
* `SlotHistory` — what the tasks of a key share: its slot, and the fetches so far.
* `KeyState` — the same with the tasks, which is all there is to one key.
* `KeyState.ask_uninterrupted`, `KeyState.finish_uninterrupted` — a call that nobody comes in
  between is `Slot.ask`, the end of a fetch is `Slot.finish`.
* `System` — all keys and the clock.  An `Event` says who takes the next step.
-/

/-- How far a task has come. -/
inductive Stage (α : Type) where
  /-- The call has begun. -/
  | asked
  /-- The call has seen a value. -/
  | offered (value : α)
  /-- The same, and it holds the gate. -/
  | probing (value : α)
  /-- The same, and the interval has passed since the last fetch. -/
  | renewing (value : α)
  /-- The call has seen no value and wants the gate. -/
  | waiting
  /-- The same, and it holds the gate. -/
  | admitted
  /-- The same, and there is still no value. -/
  | opening
  /-- The fetch with this number has started. -/
  | fetching (number : Nat)
  /-- It has brought a value. -/
  | storing (number : Nat) (value : α)
  /-- The task has its value and still holds the gate. -/
  | leaving (value : α)
  /-- The task has come to its end with a value. -/
  | returned (value : α)
  deriving DecidableEq, Repr

/-- Whether a task at this stage holds the gate. -/
def Stage.holds {α : Type} : Stage α → Bool
  | .probing _ | .renewing _ | .admitted | .opening => true
  | .fetching _ | .storing _ _ | .leaving _ => true
  | .asked | .offered _ | .waiting | .returned _ => false

/-- Whether a fetch of a task at this stage is under way. -/
def Stage.inFlight {α : Type} : Stage α → Bool
  | .fetching _ | .storing _ _ => true
  | _ => false

/-- A call, or a fetch in the background. -/
structure Task (α : Type) where
  /-- How old a value the caller accepts. -/
  interval : Nat
  stage : Stage α
  deriving DecidableEq, Repr

/-- A fetch that has started. -/
structure Fetch (α : Type) where
  start : Nat
  /-- The interval of the call that started it. -/
  interval : Nat
  /-- Whether there was no value when it started. -/
  first : Bool
  /-- The value that it has brought. -/
  result : Option α
  deriving DecidableEq, Repr

/-- What the tasks of a key share: its slot, and the record of its fetches in the order in which
    they have started. -/
structure SlotHistory (α : Type) where
  slot : Slot α := {}
  fetches : List (Fetch α) := []
  deriving DecidableEq, Repr

namespace SlotHistory

variable {α : Type}

/-- A fetch starts. -/
def start (history : SlotHistory α) (now interval : Nat) : SlotHistory α where
  slot := history.slot.start now
  fetches := history.fetches ++ [⟨now, interval, history.slot.value.isNone, none⟩]

/-- A fetch ends with a value. -/
def complete (history : SlotHistory α) (number : Nat) (value : α) : SlotHistory α where
  slot := history.slot.store value
  fetches := history.fetches.modify number fun fetch => { fetch with result := some value }

/-- The values that fetches have brought, in the order in which the fetches have started. -/
def results (history : SlotHistory α) : List α := history.fetches.filterMap (·.result)

end SlotHistory

/-- What comes of a step: the history, the stage of the task, and the tasks that begin with it. -/
structure Act (α : Type) where
  history : SlotHistory α
  stage : Stage α
  begins : List (Task α) := []

/-- The next step of a task at a moment; none if the task has to wait or is at its end. -/
def Task.act {α : Type} (task : Task α) (now : Nat) (history : SlotHistory α) : Option (Act α) :=
  match task.stage with
  | .asked =>
    match history.slot.value with
    | some value => some { history, stage := .offered value }
    | none => some { history, stage := .waiting }
  | .offered value =>
    match history.slot.enter? with
    | some slot => some { history := { history with slot }, stage := .probing value }
    | none => some { history, stage := .returned value }
  | .probing value =>
    if isDue history.slot.started now task.interval then some { history, stage := .renewing value }
    else some { history, stage := .leaving value }
  | .renewing value =>
    -- the gate goes over to the fetch in the background
    some { history := history.start now task.interval
           stage := .returned value
           begins := [⟨task.interval, .fetching history.fetches.length⟩] }
  | .waiting =>
    match history.slot.enter? with
    | some slot => some { history := { history with slot }, stage := .admitted }
    | none => none
  | .admitted =>
    match history.slot.value with
    | some value => some { history, stage := .leaving value }
    | none => some { history, stage := .opening }
  | .opening =>
    some { history := history.start now task.interval, stage := .fetching history.fetches.length }
  | .fetching _ => none
  | .storing number value =>
    some { history := history.complete number value, stage := .leaving value }
  | .leaving value =>
    some { history := { history with slot := history.slot.leave }, stage := .returned value }
  | .returned _ => none

/-- The same steps as rules: what has to be the case for each, and what comes of it. -/
inductive Acts {α : Type} (now interval : Nat) (history : SlotHistory α) :
    Stage α → Act α → Prop where
  | sees {value : α} (h : history.slot.value = some value) :
      Acts now interval history .asked { history, stage := .offered value }
  | misses (h : history.slot.value = none) :
      Acts now interval history .asked { history, stage := .waiting }
  | probes {value : α} (h : history.slot.busy = false) :
      Acts now interval history (.offered value)
        { history := { history with slot := { history.slot with busy := true } }
          stage := .probing value }
  | takes {value : α} (h : history.slot.busy = true) :
      Acts now interval history (.offered value) { history, stage := .returned value }
  | renews {value : α} (h : isDue history.slot.started now interval = true) :
      Acts now interval history (.probing value) { history, stage := .renewing value }
  | keeps {value : α} (h : isDue history.slot.started now interval = false) :
      Acts now interval history (.probing value) { history, stage := .leaving value }
  | spawns {value : α} :
      Acts now interval history (.renewing value)
        { history := history.start now interval
          stage := .returned value
          begins := [⟨interval, .fetching history.fetches.length⟩] }
  | enters (h : history.slot.busy = false) :
      Acts now interval history .waiting
        { history := { history with slot := { history.slot with busy := true } }
          stage := .admitted }
  | finds {value : α} (h : history.slot.value = some value) :
      Acts now interval history .admitted { history, stage := .leaving value }
  | opens (h : history.slot.value = none) :
      Acts now interval history .admitted { history, stage := .opening }
  | starts :
      Acts now interval history .opening
        { history := history.start now interval, stage := .fetching history.fetches.length }
  | stores {number : Nat} {value : α} :
      Acts now interval history (.storing number value)
        { history := history.complete number value, stage := .leaving value }
  | leaves {value : α} :
      Acts now interval history (.leaving value)
        { history := { history with slot := history.slot.leave }, stage := .returned value }

/-- A task takes the steps of the rules and no others. -/
theorem Task.acts_of_act {α : Type} {task : Task α} {now : Nat} {history : SlotHistory α}
    {act : Act α} (h : task.act now history = some act) :
    Acts now task.interval history task.stage act := by
  obtain ⟨interval, stage⟩ := task
  cases stage with
  | asked =>
    cases hvalue : history.slot.value with
    | none =>
      simp only [Task.act, hvalue] at h
      cases h
      exact .misses hvalue
    | some value =>
      simp only [Task.act, hvalue] at h
      cases h
      exact .sees hvalue
  | offered value =>
    cases hbusy : history.slot.busy with
    | false =>
      simp [Task.act, Slot.enter?, hbusy] at h
      cases h
      exact .probes hbusy
    | true =>
      simp [Task.act, Slot.enter?, hbusy] at h
      cases h
      exact .takes hbusy
  | probing value =>
    cases hdue : isDue history.slot.started now interval with
    | false =>
      simp [Task.act, hdue] at h
      cases h
      exact .keeps hdue
    | true =>
      simp [Task.act, hdue] at h
      cases h
      exact .renews hdue
  | renewing value =>
    cases h
    exact .spawns
  | waiting =>
    cases hbusy : history.slot.busy with
    | false =>
      simp [Task.act, Slot.enter?, hbusy] at h
      cases h
      exact .enters hbusy
    | true => simp [Task.act, Slot.enter?, hbusy] at h
  | admitted =>
    cases hvalue : history.slot.value with
    | none =>
      simp only [Task.act, hvalue] at h
      cases h
      exact .opens hvalue
    | some value =>
      simp only [Task.act, hvalue] at h
      cases h
      exact .finds hvalue
  | opening =>
    cases h
    exact .starts
  | fetching number => cases h
  | storing number value =>
    cases h
    exact .stores
  | leaving value =>
    cases h
    exact .leaves
  | returned value => cases h

/-- A task that takes no step waits for the gate or for its fetch, or has come to its end. -/
theorem Task.act_eq_none {α : Type} {task : Task α} {now : Nat} {history : SlotHistory α}
    (h : task.act now history = none) :
    (task.stage = .waiting ∧ history.slot.busy = true) ∨ (∃ number, task.stage = .fetching number)
      ∨ ∃ value, task.stage = .returned value := by
  obtain ⟨interval, stage⟩ := task
  cases stage with
  | waiting =>
    cases hbusy : history.slot.busy with
    | false => simp [Task.act, Slot.enter?, hbusy] at h
    | true => exact .inl ⟨rfl, rfl⟩
  | fetching number => exact .inr (.inl ⟨number, rfl⟩)
  | returned value => exact .inr (.inr ⟨value, rfl⟩)
  | asked => cases hvalue : history.slot.value <;> simp [Task.act, hvalue] at h
  | offered value => cases hbusy : history.slot.busy <;> simp [Task.act, Slot.enter?, hbusy] at h
  | probing value =>
    cases hdue : isDue history.slot.started now interval <;> simp [Task.act, hdue] at h
  | admitted => cases hvalue : history.slot.value <;> simp [Task.act, hvalue] at h
  | _ => cases h

/-- What happens to one key. -/
structure KeyState (α : Type) where
  history : SlotHistory α := {}
  tasks : List (Task α) := []
  deriving DecidableEq, Repr

namespace KeyState

variable {α : Type}

/-- A call begins. -/
def call (state : KeyState α) (interval : Nat) : KeyState α :=
  { state with tasks := state.tasks ++ [⟨interval, .asked⟩] }

/-- A task takes its next step. -/
def step (state : KeyState α) (now index : Nat) : KeyState α :=
  match state.tasks[index]? with
  | none => state
  | some task =>
    match task.act now state.history with
    | none => state
    | some act =>
      { history := act.history
        tasks := state.tasks.set index { task with stage := act.stage } ++ act.begins }

/-- The fetch of a task brings a value. -/
def land (state : KeyState α) (index : Nat) (value : α) : KeyState α :=
  match state.tasks[index]? with
  | some ⟨interval, .fetching number⟩ =>
    { state with tasks := state.tasks.set index ⟨interval, .storing number value⟩ }
  | _ => state

end KeyState

/-- Something happens. -/
inductive Event (κ α : Type) where
  /-- A call for a key begins. -/
  | call (key : κ) (interval : Nat)
  /-- A task of a key takes its next step. -/
  | step (key : κ) (index : Nat)
  /-- The fetch of a task of a key brings a value. -/
  | land (key : κ) (index : Nat) (value : α)
  /-- Time passes. -/
  | tick (millis : Nat)

/-- All keys and the clock. -/
structure System (κ α : Type) where
  now : Nat := 0
  states : κ → KeyState α := fun _ => {}

namespace System

variable {κ α : Type} [DecidableEq κ]

/-- Changes what happens to one key. -/
def onKey (system : System κ α) (key : κ) (change : KeyState α → KeyState α) : System κ α :=
  { system with
    states := fun other => if other = key then change (system.states key) else system.states other }

/-- What an event leads to. -/
def next (system : System κ α) : Event κ α → System κ α
  | .call key interval => system.onKey key (·.call interval)
  | .step key index => system.onKey key (·.step system.now index)
  | .land key index value => system.onKey key (·.land index value)
  | .tick millis => { system with now := system.now + millis }

/-- What events lead to, one after the other. -/
def run (system : System κ α) (events : List (Event κ α)) : System κ α := events.foldl next system

/-- What events lead to from the beginning, when nobody has asked for anything. -/
def after (events : List (Event κ α)) : System κ α := run {} events

end System

/-! ### What one step can do -/

namespace KeyState

variable {α : Type}

/-- A step changes nothing, or one task acts: its stage and the history change, and tasks may
    begin. -/
theorem step_cases (state : KeyState α) (now index : Nat) :
    state.step now index = state ∨ ∃ before task after act, state.tasks = before ++ task :: after
      ∧ Acts now task.interval state.history task.stage act
      ∧ state.step now index
        = ⟨act.history, before ++ ⟨task.interval, act.stage⟩ :: after ++ act.begins⟩ := by
  unfold step
  split
  · exact .inl rfl
  · rename_i task hget
    split
    · exact .inl rfl
    · rename_i act hact
      obtain ⟨hlt, rfl⟩ := List.getElem?_eq_some_iff.mp hget
      obtain ⟨before, after, htasks, -, hset⟩ :=
        @List.exists_of_set _ index ⟨state.tasks[index].interval, act.stage⟩ state.tasks hlt
      exact .inr ⟨before, _, after, act, htasks, Task.acts_of_act hact, by rw [hset]⟩

/-- A fetch brings a value to the one task that waits for it, or nothing changes. -/
theorem land_cases (state : KeyState α) (index : Nat) (value : α) :
    state.land index value = state ∨ ∃ before interval number after,
      state.tasks = before ++ ⟨interval, .fetching number⟩ :: after
      ∧ state.land index value
        = ⟨state.history, before ++ ⟨interval, .storing number value⟩ :: after⟩ := by
  unfold land
  split
  · rename_i interval number hget
    obtain ⟨hlt, htask⟩ := List.getElem?_eq_some_iff.mp hget
    obtain ⟨before, after, htasks, -, hset⟩ :=
      @List.exists_of_set _ index ⟨interval, .storing number value⟩ state.tasks hlt
    rw [htask] at htasks
    exact .inr ⟨before, interval, number, after, htasks, by rw [hset]⟩
  · exact .inl rfl

/-- A task that can act takes its step when its turn comes. -/
theorem step_eq {state : KeyState α} {before after : List (Task α)} {task : Task α} {now : Nat}
    (htasks : state.tasks = before ++ task :: after) {act : Act α}
    (hact : task.act now state.history = some act) :
    state.step now before.length
      = ⟨act.history, before ++ ⟨task.interval, act.stage⟩ :: after ++ act.begins⟩ := by
  simp [step, htasks, hact]

end KeyState

/-! ### Calls that nobody comes in between -/

namespace KeyState

variable {α : Type}

/-- The stage of a caller that is given a hand; `number` is that of the next fetch. -/
def stageOf (number : Nat) : Hand α → Stage α
  | .cached value => .returned value
  | .stale value => .returned value
  | .fetch => .fetching number
  | .wait => .waiting

/-- The tasks that begin with a call that is given a hand. -/
def beginsOf (number interval : Nat) : Hand α → List (Task α)
  | .stale _ => [⟨interval, .fetching number⟩]
  | _ => []

/-- A call with its first four steps, if nobody comes in between. -/
def ask (state : KeyState α) (now interval : Nat) : KeyState α :=
  ((((state.call interval).step now state.tasks.length).step now state.tasks.length).step now
    state.tasks.length).step now state.tasks.length

/-- **A call that nobody comes in between is `Slot.ask`.** -/
theorem ask_uninterrupted (state : KeyState α) (now interval : Nat) :
    (state.ask now interval).history.slot = (state.history.slot.ask now interval).1
      ∧ (state.ask now interval).tasks = state.tasks
        ++ ⟨interval, stageOf state.history.fetches.length (state.history.slot.ask now interval).2⟩
          :: beginsOf state.history.fetches.length interval
            (state.history.slot.ask now interval).2 := by
  obtain ⟨⟨⟨value, started, busy⟩, fetches⟩, tasks⟩ := state
  -- with a value or without, with the gate free or held, with the interval passed or not
  cases value <;> cases busy <;> cases hdue : isDue started now interval <;>
    simp [ask, call, step, Task.act, Slot.enter?, Slot.ask, Slot.start, Slot.leave,
      SlotHistory.start, stageOf, beginsOf, hdue]

/-- **The end of a fetch that nobody comes in between is `Slot.finish`.** -/
theorem finish_uninterrupted (history : SlotHistory α) (before after : List (Task α))
    (interval number now : Nat) (value : α) :
    ((land ⟨history, before ++ ⟨interval, .fetching number⟩ :: after⟩ before.length value).step now
        before.length).step now before.length
      = ⟨⟨history.slot.finish value, (history.complete number value).fetches⟩,
          before ++ ⟨interval, .returned value⟩ :: after⟩ := by
  simp [land, step, Task.act, Slot.finish, SlotHistory.complete]

end KeyState

namespace System

variable {κ α : Type} [DecidableEq κ]

/-- What an event does to a key: nothing, or a call begins, a task takes a step, a fetch brings a
    value.  The clock never goes back. -/
theorem next_cases (system : System κ α) (event : Event κ α) (key : κ) :
    system.now ≤ (system.next event).now
      ∧ ((system.next event).states key = system.states key
        ∨ (∃ interval, (system.next event).states key = (system.states key).call interval)
        ∨ (∃ index, (system.next event).states key = (system.states key).step system.now index)
        ∨ ∃ index value,
          (system.next event).states key = (system.states key).land index value) := by
  -- an event of one key leaves the others alone
  have hstate : ∀ (other : κ) (change : KeyState α → KeyState α),
      (system.onKey other change).states key = system.states key
        ∨ (system.onKey other change).states key = change (system.states key) := by
    intro other change
    by_cases heq : key = other
    · subst heq
      exact .inr (if_pos rfl)
    · exact .inl (if_neg heq)
  cases event with
  | call other interval =>
    refine ⟨Nat.le_refl _, (hstate other (·.call interval)).imp id fun heq => .inl ⟨interval, heq⟩⟩
  | step other index =>
    exact ⟨Nat.le_refl _, (hstate other (·.step system.now index)).imp id
      fun heq => .inr (.inl ⟨index, heq⟩)⟩
  | land other index value =>
    exact ⟨Nat.le_refl _, (hstate other (·.land index value)).imp id
      fun heq => .inr (.inr ⟨index, value, heq⟩)⟩
  | tick millis => exact ⟨Nat.le_add_right _ _, .inl rfl⟩

end System

end ScriptServer.Metadata
