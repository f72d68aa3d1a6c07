import ScriptServer.Library.Scan
import ScriptServer.Metadata.Basic
import ScriptServer.Outline

namespace ScriptServer

/-!
# The workspace

* `Workspace` — everything that is known: settings, modules, symbol tables, database listings.
* `Workspace.openDocument`, `Workspace.changeDocument`, `Workspace.closeDocument` — what the
  editor does with documents.
* `Workspace.scan`, `Workspace.rescan` — modules on disk.
* `Workspace.configure` — new settings.

The table of a document that the editor has open comes from the editor's text, never from disk.
-/

open Library

/-- Everything that is known. -/
structure Workspace where
  settings : Settings
  index : Index
  /-- The symbol tables of the documents that are tracked. -/
  tables : Store Uri SymbolTable
  /-- The documents that the editor has open. -/
  opened : List Uri
  metadata : Metadata

/-- Why a file cannot be indexed. -/
inductive IndexError where
  /-- The path is not absolute. -/
  | notAFile (path : Path)
  | unreadable (reason : ReadError)
  deriving DecidableEq, Repr

namespace Workspace

/-- A workspace before anything was scanned or opened. -/
def ofSettings (settings : Settings) : Workspace where
  settings
  index := .empty
  tables := .empty
  opened := []
  metadata := .ofInterval settings.refreshMillis

/-- How module paths are written. -/
def syn (workspace : Workspace) : ModuleSyntax := workspace.settings.syn

/-- The symbol table of a document. -/
def table? (workspace : Workspace) (uri : Uri) : Option SymbolTable := workspace.tables.get? uri

/-- Whether the editor has a document open. -/
def isOpen (workspace : Workspace) (uri : Uri) : Bool := workspace.opened.contains uri

/-- Makes the symbol table of a document anew. -/
def update (workspace : Workspace) (uri : Uri) (text : String) : Workspace :=
  { workspace with tables := workspace.tables.insert uri (Outline.table workspace.syn uri text) }

/-- Drops the symbol table of a document. -/
def forget (workspace : Workspace) (uri : Uri) : Workspace :=
  { workspace with tables := workspace.tables.erase uri }

/-- New settings.  Tells whether modules have to be looked for anew. -/
def configure (workspace : Workspace) (settings : Settings) : Workspace × Bool :=
  ({ workspace with
      settings
      metadata := workspace.metadata.setInterval settings.refreshMillis },
    workspace.settings.needsScan settings)

/-! ### Files on disk -/

/-- Makes the symbol table of a file anew, unless the editor has it open. -/
def indexFile (workspace : Workspace) (disk : Disk) (path : Path) : Except IndexError Workspace :=
  match Uri.ofPath? path with
  | none => .error (.notAFile path)
  | some uri =>
    if workspace.isOpen uri then .ok workspace
    else match disk.read path with
      | .error reason => .error (.unreadable reason)
      | .ok text => .ok (workspace.update uri text)

/-- Makes the symbol table of a file anew; a file that cannot be indexed changes nothing. -/
def tryIndexFile (workspace : Workspace) (disk : Disk) (path : Path) : Workspace :=
  match workspace.indexFile disk path with
  | .ok workspace => workspace
  | .error _ => workspace

/-- Drops the symbol table of a file, unless the editor has it open. -/
def forgetFile (workspace : Workspace) (entry : Entry) : Workspace :=
  match entry.uri? with
  | some uri => if workspace.isOpen uri then workspace else workspace.forget uri
  | none => workspace

/-- Keeps the symbol tables in step with a change of the modules. -/
def applyChange (disk : Disk) (workspace : Workspace) : Change → Workspace
  | .added entry => workspace.tryIndexFile disk entry.path
  | .changed entry => workspace.tryIndexFile disk entry.path
  | .removed entry => workspace.forgetFile entry

/-- Keeps the symbol tables in step with changes of the modules. -/
def applyChanges (workspace : Workspace) (disk : Disk) (changes : List Change) : Workspace :=
  changes.foldl (applyChange disk) workspace

/-- Takes over what a scan found. -/
def adopt (workspace : Workspace) (disk : Disk) (scanned : Scanned) : Workspace :=
  { workspace with index := scanned.index }.applyChanges disk scanned.changes

/-- Looks for the modules below a root.  Also gives the directories to watch. -/
def scan (workspace : Workspace) (disk : Disk) (root : Path) :
    Except ScanError (Workspace × List Path) := do
  let scanned ← workspace.index.scan disk workspace.settings.layout root
  return (workspace.adopt disk scanned, scanned.watch)

/-- Lists one directory anew.  Also gives the new directories to watch. -/
def rescan (workspace : Workspace) (disk : Disk) (directory : Path) : Workspace × List Path :=
  let scanned := workspace.index.rescan disk workspace.settings.layout directory
  (workspace.adopt disk scanned, scanned.watch)

/-! ### Documents in the editor -/

/-- The editor opens a document. -/
def openDocument (workspace : Workspace) (uri : Uri) (text : String) : Workspace :=
  let opened :=
    if workspace.isOpen uri then workspace.opened else workspace.opened ++ [uri]
  { workspace with opened }.update uri text

/-- The editor changes a document. -/
def changeDocument (workspace : Workspace) (uri : Uri) (text : String) : Workspace :=
  workspace.update uri text

/-- The module in the file that a document is. -/
def entryOf? (workspace : Workspace) (uri : Uri) : Option Entry :=
  uri.path?.bind workspace.index.byPath?

/-- The editor closes a document.  A module falls back to its file on disk, so that others can
    still import it; any other document is no longer tracked. -/
def closeDocument (workspace : Workspace) (disk : Disk) (uri : Uri) : Workspace :=
  -- the file can be indexed only when it no longer counts as open
  let workspace := { workspace with opened := workspace.opened.filter (· ≠ uri) }
  match workspace.entryOf? uri with
  | some entry =>
    match workspace.indexFile disk entry.path with
    | .ok workspace => workspace
    | .error _ => workspace.forget uri
  | none => workspace.forget uri

end Workspace

end ScriptServer
