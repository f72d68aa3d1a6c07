import ScriptServer.Library.Register

namespace ScriptServer.Library

/-!
# The index of modules

* `Index` — the modules below a root, and the directories they were looked for in.
* `Index.build` — an index of given entries; of several entries for a path the first is kept.
* `Index.byPath?`, `Index.find`, `Index.inDirectory` — look-up by path, by name and by directory.
* `Change` — how an index differs from an earlier one.
* `Index.changesFrom` — all differences.
-/

/-- The modules below a root, with their register. -/
structure Index extends Register where
  /-- The directory that was scanned; before the first scan there is none. -/
  root : Option Path
  /-- The directories that were listed, in order. -/
  directories : List Path
  /-- All modules were entered one after another, so that the tables belong to them. -/
  entered : ∃ found, toRegister = .ofEntries found
  deriving DecidableEq, Repr

namespace Index

/-- The index before the first scan. -/
def empty : Index where
  toRegister := .empty
  root := none
  directories := []
  entered := ⟨[], rfl⟩

/-- The index of given entries and directories below a root. -/
def build (root : Path) (entries : List Entry) (directories : List Path) : Index where
  toRegister := .ofEntries entries
  root := some root
  directories := Path.sorted directories
  entered := ⟨entries, rfl⟩

/-- Whether a scan has taken place. -/
def isReady (index : Index) : Bool := index.root.isSome

/-- The module in a file. -/
def byPath? (index : Index) (path : Path) : Option Entry :=
  (index.byPath.get? path.parts).bind (index.entries[·]?)

/-- The modules with a name. -/
def find (index : Index) (name : String) : List Entry :=
  index.pick ((index.byName.get? name).getD [])

/-- Whether there is a module with a name. -/
def contains (index : Index) (name : String) : Bool := !(index.find name).isEmpty

/-- The modules directly in a directory. -/
def inDirectory (index : Index) (directory : Path) : List Entry :=
  index.pick ((index.byDirectory.get? directory.parts).getD [])

end Index

/-- How a module differs between two indexes. -/
inductive Change where
  | added (entry : Entry)
  | changed (entry : Entry)
  | removed (entry : Entry)
  deriving DecidableEq, Repr

/-- The module that a change is about. -/
def Change.entry : Change → Entry
  | .added entry => entry
  | .changed entry => entry
  | .removed entry => entry

namespace Index

/-- What became of an entry of the new index.  An entry directly in the touched directory counts
    as changed, since its file may have a new content. -/
def changeOf? (old : Index) (touched : Option Path) (entry : Entry) : Option Change :=
  match old.byPath? entry.path with
  | none => some (.added entry)
  | some previous =>
    if !previous.same entry || touched.any entry.isIn then some (.changed entry) else none

/-- The differences from an old index: additions and changes in the order of the new index, then
    removals in the order of the old one. -/
def changesFrom (new old : Index) (touched : Option Path) : List Change :=
  -- no path is both in the new index and removed, so no path is mentioned twice
  new.entries.filterMap (changeOf? old touched)
    ++ (old.entries.filter fun entry => (new.byPath? entry.path).isNone).map .removed

end Index

end ScriptServer.Library
