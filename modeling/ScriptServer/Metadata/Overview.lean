import ScriptServer.Metadata.Slot

namespace ScriptServer.Metadata

/-!
# Catalogs and databases

The lists of catalogs and of databases are fetched together, and not more often than once in an
interval.  A gate keeps refreshes apart: whoever starts one holds the gate until it has ended.

* `Overview.enter?`, `Overview.leave` — the gate is taken and given back.
* `Overview.ask` — whether a caller starts a refresh, has no need of one, or has to wait.
* `Overview.finish` — a refresh ends.
-/

/-- The lists of catalogs and of databases. -/
structure Overview where
  catalogs : List String := []
  databases : List String := []
  /-- When the last refresh started. -/
  started : Option Nat := none
  /-- Whether the gate is held, as it is while a refresh is under way. -/
  busy : Bool := false
  deriving DecidableEq, Repr

/-- What a caller of a refresh has to do. -/
inductive Turn where
  /-- Wait until the refresh under way has ended, and ask again. -/
  | wait
  /-- Nothing: the lists are fresh enough. -/
  | fresh
  /-- Fetch both lists. -/
  | fetch
  deriving DecidableEq, Repr

namespace Overview

/-- The overview with its gate held, if nobody else holds it. -/
def enter? (overview : Overview) : Option Overview :=
  if overview.busy then none else some { overview with busy := true }

/-- The gate is given back. -/
def leave (overview : Overview) : Overview := { overview with busy := false }

/-- A refresh starts. -/
def start (overview : Overview) (now : Nat) : Overview := { overview with started := some now }

/-- The list of catalogs arrives. -/
def storeCatalogs (overview : Overview) (catalogs : List String) : Overview :=
  { overview with catalogs }

/-- The list of databases arrives. -/
def storeDatabases (overview : Overview) (databases : List String) : Overview :=
  { overview with databases }

/-- A caller asks for a refresh. -/
def ask (overview : Overview) (now interval : Nat) : Overview × Turn :=
  match overview.enter? with
  | none => (overview, .wait)
  | some held =>
    if isDue held.started now interval then (held.start now, .fetch) else (held.leave, .fresh)

/-- The refresh that is under way ends with both lists. -/
def finish (overview : Overview) (catalogs databases : List String) : Overview :=
  ((overview.storeCatalogs catalogs).storeDatabases databases).leave

end Overview

end ScriptServer.Metadata
