import ScriptServer.Disk.Basic
import ScriptServer.Settings
import ScriptServer.Uri.FilePath

namespace ScriptServer.Library

/-!
# Modules on disk

* `derivedName?` — the name of a module from where its file lies.
* `Entry` — a module that was found, with the name it declares for itself, if any.
-/

/-- The parts of a path without the extension of the last name. -/
def withoutExtension (parts : List Part) : List Part :=
  match parts.getLast? with
  | some (.name last) =>
    parts.dropLast ++ (Part.ofPiece? (splitExtension last.toList).1).toList
  | _ => parts

/-- The name of the module in a file: the names on the way from the root to it, without the
    extension, joined by the separator. -/
def derivedName? (root path : Path) (separator : String) : Option String := do
  let parts ← path.relativeTo? root
  match (withoutExtension parts).filterMap Part.name? with
  | [] => none
  | names => some (separator.intercalate names)

/-- A module that was found on disk. -/
structure Entry where
  /-- The name that follows from the path. -/
  derivedName : String
  /-- The name in the module line of the file, which wins. -/
  declaredName : Option String
  path : Path
  deriving DecidableEq, Repr

namespace Entry

/-- The name that imports have to use. -/
def name (entry : Entry) : String := entry.declaredName.getD entry.derivedName

/-- The identifier of the file. -/
def uri? (entry : Entry) : Option Uri := Uri.ofPath? entry.path

/-- Whether two entries say the same about the same file. -/
def same (a b : Entry) : Bool :=
  a.derivedName == b.derivedName && a.declaredName == b.declaredName && a.path.same b.path

/-- Whether a file lies directly in a directory. -/
def isIn (entry : Entry) (directory : Path) : Bool :=
  match entry.path.parent? with
  | some parent => parent.same directory
  | none => false

/-- The name that a file declares for itself.  A file that cannot be read declares none. -/
def declaredIn (disk : Disk) (syn : ModuleSyntax) (path : Path) : Option String :=
  match disk.read path with
  | .ok text => syn.declared? text
  | .error _ => none

/-- The entry for a file below a root. -/
def ofFile? (disk : Disk) (syn : ModuleSyntax) (root path : Path) : Option Entry := do
  let derivedName ← derivedName? root path (String.ofList syn.separator)
  return { derivedName, declaredName := declaredIn disk syn path, path }

end Entry

end ScriptServer.Library
