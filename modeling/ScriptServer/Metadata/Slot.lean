namespace ScriptServer.Metadata

/-!
# One cached value

A slot holds the value of one key.  The first caller fetches it, and callers that come in the
meantime wait for the same fetch.  Later callers get the value at once; when it is old, the
first of them also starts a new fetch in the background.  A gate keeps fetches apart: whoever
starts one holds the gate until it has ended.

* `Slot.enter?`, `Slot.leave` — the gate is taken and given back.
* `Slot.ask` — what a caller gets, and what starts with the call.
* `Slot.finish` — a fetch ends.
-/

/-- One cached value. -/
structure Slot (α : Type) where
  value : Option α := none
  /-- When the last fetch started. -/
  started : Option Nat := none
  /-- Whether the gate is held, as it is while a fetch is under way. -/
  busy : Bool := false
  deriving DecidableEq, Repr

/-- What a caller gets. -/
inductive Hand (α : Type) where
  /-- The value. -/
  | cached (value : α)
  /-- The value, while a new fetch starts in the background. -/
  | stale (value : α)
  /-- Nothing yet: the caller starts the first fetch. -/
  | fetch
  /-- Nothing yet: the first fetch is under way. -/
  | wait
  deriving DecidableEq, Repr

/-- Whether an interval has passed since something started, if it ever did. -/
def isDue (started : Option Nat) (now interval : Nat) : Bool :=
  match started with
  | none => true
  | some moment => decide (interval ≤ now - moment)

namespace Slot

variable {α : Type}

/-- The slot with its gate held, if nobody else holds it. -/
def enter? (slot : Slot α) : Option (Slot α) :=
  if slot.busy then none else some { slot with busy := true }

/-- The gate is given back. -/
def leave (slot : Slot α) : Slot α := { slot with busy := false }

/-- A fetch starts. -/
def start (slot : Slot α) (now : Nat) : Slot α := { slot with started := some now }

/-- A value arrives. -/
def store (slot : Slot α) (value : α) : Slot α := { slot with value := some value }

/-- A caller asks for the value, which may be as old as the interval. -/
def ask (slot : Slot α) (now interval : Nat) : Slot α × Hand α :=
  match slot.value, slot.enter? with
  | some value, none => (slot, .cached value)
  | some value, some held =>
    if isDue held.started now interval then (held.start now, .stale value)
    else (held.leave, .cached value)
  | none, none => (slot, .wait)
  | none, some held => (held.start now, .fetch)

/-- The fetch that is under way ends with a value. -/
def finish (slot : Slot α) (value : α) : Slot α := (slot.store value).leave

end Slot

end ScriptServer.Metadata
