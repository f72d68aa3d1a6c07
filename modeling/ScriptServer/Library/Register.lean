import ScriptServer.Library.Entry
import ScriptServer.Store

namespace ScriptServer.Library

/-!
# The register of modules

Modules stand in the order in which they were found.  Three tables lead from a path, a name and a
directory to places in this order, so that look-up need not go through all modules.

* `Register` — modules and the tables that lead to them.
* `Register.add` — enters a module, unless its path has one.
* `Register.ofEntries` — enters modules one after another.
* `Register.pick` — the modules at given places.
-/

/-- Modules in the order in which they were found, and where to find them.  Paths are keys by
    what they mean. -/
structure Register where
  entries : List Entry
  /-- The place of the module in a file. -/
  byPath : Store (List Part) Nat
  /-- The places of the modules with a name. -/
  byName : Store String (List Nat)
  /-- The places of the modules directly in a directory. -/
  byDirectory : Store (List Part) (List Nat)
  deriving DecidableEq, Repr

namespace Register

/-- A register without modules. -/
def empty : Register := ⟨[], .empty, .empty, .empty⟩

/-- Enters a module behind all others.  A module whose path has one already is left out. -/
def add (register : Register) (entry : Entry) : Register :=
  if register.byPath.contains entry.path.parts then register
  else
    let place := register.entries.length
    { entries := register.entries ++ [entry]
      byPath := register.byPath.insert entry.path.parts place
      byName := register.byName.push entry.name place
      byDirectory :=
        match entry.path.parent? with
        | some parent => register.byDirectory.push parent.parts place
        | none => register.byDirectory }

/-- Enters modules one after another. -/
def ofEntries (entries : List Entry) : Register := entries.foldl add empty

/-- The modules at given places. -/
def pick (register : Register) (places : List Nat) : List Entry :=
  places.filterMap (register.entries[·]?)

end Register

end ScriptServer.Library
