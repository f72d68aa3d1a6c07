import ScriptServer.Library.Index
import ScriptServer.Library.Walk

namespace ScriptServer.Library

/-!
# Scanning directories

* `Index.scan` — the index of everything below a root.
* `Index.rescan` — the index after one directory may have changed.

Both read the disk as it is at that moment.  Hidden directories are not entered.
-/

/-- Why a scan fails. -/
inductive ScanError where
  | notADirectory (root : Path)
  deriving DecidableEq, Repr

/-- The wording of a failure. -/
def ScanError.message : ScanError → String
  | .notADirectory root => "Configuration error: module root " ++ root.text ++ " is not a directory"

/-- What a scan found: the new index, how it differs from the old one, and the directories that
    have to be watched from now on. -/
structure Scanned where
  index : Index
  changes : List Change
  watch : List Path
  deriving DecidableEq, Repr

namespace Index

/-- The index of everything below a root, which lies at a place. -/
def ofDisk (disk : Disk) (layout : Layout) (root : Path) (place : Place) : Index :=
  let walk := walkFrom disk layout root root place
  build root walk.entries walk.visited

/-- Replaces an index by that of everything below a root. -/
def scan (old : Index) (disk : Disk) (layout : Layout) (root : Path) : Except ScanError Scanned :=
  match disk.find root with
  | .directory place =>
    let index := ofDisk disk layout root place
    .ok ⟨index, index.changesFrom old none, index.directories⟩
  | _ => .error (.notADirectory root)

/-! ### One directory -/

/-- The known directories at or below a directory that exist no longer. -/
def vanished (old : Index) (disk : Disk) (directory : Path) : List Path :=
  old.directories.filter fun known => known.isUnder directory && !disk.hasDirectory known

/-- The known directories that do not lie in a vanished one. -/
def keptDirectories (old : Index) (gone : List Path) : List Path :=
  old.directories.filter fun known => !gone.any known.isUnder

/-- The entries that neither lie directly in a directory nor in a vanished one. -/
def keptEntries (old : Index) (directory : Path) (gone : List Path) : List Entry :=
  old.entries.filter fun entry => !entry.isIn directory && !gone.any entry.path.isUnder

/-- What one directory adds to known directories: entries for the scripts in it and in new
    directories below it, and these directories. -/
def discover (disk : Disk) (layout : Layout) (root : Path) (known : List Path) (directory : Path) :
    List Entry × List Path :=
  match disk.find directory with
  | .directory place =>
    -- a directory may be named before any scan has met it
    let itself := if directory.memberOf known then [] else [directory]
    let listing := Listing.ofDirectory disk layout directory place
    let names := listing.directories.filter fun name =>
      !(directory.child name).memberOf (known ++ itself)
    let walks := names.map fun name =>
      walkFrom disk layout root (directory.child name) (place ++ [name])
    (listing.entries disk layout.syn root directory ++ walks.flatMap (·.entries),
      itself ++ walks.flatMap fun walk => Path.sorted walk.visited)
  | _ => ([], [])

/-- Lists one directory anew.  New directories in it are scanned, and what lay in vanished
    directories is dropped. -/
def relist (old : Index) (disk : Disk) (layout : Layout) (root directory : Path) : Scanned :=
  let gone := old.vanished disk directory
  let known := old.keptDirectories gone
  let (entries, found) := discover disk layout root known directory
  let index := build root (old.keptEntries directory gone ++ entries) (known ++ found)
  ⟨index, index.changesFrom old (some directory), found⟩

/-- Lists one directory anew, if it lies below the root that was scanned. -/
def rescan (old : Index) (disk : Disk) (layout : Layout) (directory : Path) : Scanned :=
  match old.root with
  | none => ⟨old, [], []⟩
  | some root =>
    if directory.isUnder root then old.relist disk layout root directory else ⟨old, [], []⟩

end Index

end ScriptServer.Library
