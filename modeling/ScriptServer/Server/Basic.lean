import ScriptServer.Protocol.Message
import ScriptServer.Workspace.Completion
import ScriptServer.Workspace.Diagnostics

namespace ScriptServer

/-!
# The server

* `Server` — the state: the texts of the open documents and the workspace.
* `Notice` — what the server tells or asks the editor on its own.
* `Server.handle` — what a message does, and the answer to it.
* `Server.directoriesChanged` — what a change on disk does.
-/

/-- How important a log line is. -/
inductive LogLevel where
  | warning
  | info
  deriving DecidableEq, Repr

/-- The number of a level in the protocol. -/
def LogLevel.code : LogLevel → Nat
  | .warning => 2
  | .info => 3

/-- What the server tells or asks the editor on its own. -/
inductive Notice where
  | log (level : LogLevel) (text : String)
  /-- The findings in a document, in place of earlier ones. -/
  | publish (uri : Uri) (found : List Diagnostic)
  /-- A question to the database. -/
  | ask (query : Query)
  deriving DecidableEq, Repr

/-- The answer to a request. -/
inductive Answer where
  /-- What the server can do. -/
  | capabilities
  /-- Candidates; none at all for a document that is not open. -/
  | candidates (found : Option (List Candidate))
  /-- What to show about a name, and its range. -/
  | hover (shown : Option (String × Range))
  | definitions (found : List Symbol)
  | nothing
  deriving DecidableEq, Repr

/-- The phases of a server's life. -/
inductive Phase where
  | uninitialized
  | running
  | shutDown
  | exited
  deriving DecidableEq, Repr

/-- The state of the server. -/
structure Server where
  phase : Phase
  /-- The root of the workspace. -/
  root : Option Path
  /-- The texts of the open documents. -/
  documents : Store Uri String
  workspace : Workspace

namespace Server

/-- A server that has heard of no editor yet. -/
def fresh : Server where
  phase := .uninitialized
  root := none
  documents := .empty
  workspace := .ofSettings {}

/-- Where modules are looked for.  Without a workspace only an absolute path will do. -/
def moduleRoot? (server : Server) : Option Path :=
  match server.root, server.workspace.settings.moduleRoot with
  | some root, _ => some (server.workspace.settings.moduleRootIn root)
  | none, some root => if root.isAbsolute then some root else none
  | none, none => none

/-- The findings in a document. -/
def publish (server : Server) (uri : Uri) (text : String) : Notice :=
  .publish uri (server.workspace.diagnostics text)

/-- The findings in all open documents. -/
def publishAll (server : Server) : List Notice :=
  server.documents.entries.map fun (uri, text) => server.publish uri text

/-! ### Modules -/

/-- Looks for modules.  Then the findings in open documents are published anew. -/
def indexModules (server : Server) (disk : Disk) : Server × List Notice :=
  match server.moduleRoot? with
  | none => (server, [])
  | some root =>
    match server.workspace.scan disk root with
    | .error error => (server, [.log .warning ("Module scan failed: " ++ error.message)])
    | .ok (workspace, _) =>
      let server := { server with workspace }
      let count := workspace.index.entries.length.repr
      (server, .log .info ("Indexed " ++ count ++ " modules under " ++ root.text)
        :: server.publishAll)

/-- Directories on disk have changed. -/
def directoriesChanged (server : Server) (disk : Disk) (directories : List Path) :
    Server × List Notice :=
  let workspace := directories.foldl
    (fun workspace directory => (workspace.rescan disk directory).1) server.workspace
  let server := { server with workspace }
  (server, server.publishAll)

/-- Time passes. -/
def advance (server : Server) (connection : Connection) (millis : Nat) : Server :=
  let metadata := server.workspace.metadata.advance connection millis
  { server with workspace := { server.workspace with metadata } }

/-! ### Documents -/

/-- Drops a document and everything that was derived from its text. -/
def forgetDocument (server : Server) (disk : Disk) (uri : Uri) : Server × List Notice :=
  ({ server with
      documents := server.documents.erase uri
      workspace := server.workspace.closeDocument disk uri },
    [.publish uri []])

/-- Takes over the text of a document.  A document that is too large is dropped instead. -/
def storeDocument (server : Server) (disk : Disk) (uri : Uri) (text : String) :
    Server × List Notice :=
  let size := text.utf8ByteSize
  if server.workspace.settings.maxDocumentSize < size then
    let (server, notices) := server.forgetDocument disk uri
    (server, .log .warning ("Document " ++ uri.text ++ " is too large (" ++ size.repr
      ++ " bytes), skipping") :: notices)
  else
    let server := { server with
      documents := server.documents.insert uri text
      workspace := server.workspace.openDocument uri text }
    (server, [server.publish uri text])

/-! ### Settings -/

/-- Takes over settings.  Settings that cannot be read change nothing.  Tells whether modules have
    to be looked for anew. -/
def applySettings (server : Server) (settings : Json) : Server × Bool :=
  match Settings.ofJson? settings with
  | none => (server, false)
  | some settings =>
    let (workspace, needsScan) := server.workspace.configure settings
    ({ server with workspace }, needsScan)

/-- Makes the symbol tables of all open documents anew. -/
def reindexDocuments (server : Server) : Server :=
  { server with
    workspace := server.documents.entries.foldl
      (fun workspace (uri, text) => workspace.changeDocument uri text) server.workspace }

/-- The settings change.  Before the first scan modules are not looked for yet. -/
def configure (server : Server) (disk : Disk) (settings : Json) : Server × List Notice :=
  let (server, needsScan) := server.applySettings settings
  if needsScan then
    -- open documents were read with the old separator
    let server := server.reindexDocuments
    if server.workspace.index.isReady then server.indexModules disk
    else (server, server.publishAll)
  else (server, server.publishAll)

/-! ### Messages -/

/-- The editor introduces itself. -/
def introduce (server : Server) (root : Option Path) (options : Option Json) : Server :=
  let server := { server with root }
  match options with
  | some options => (server.applySettings options).1
  | none => server

/-- The editor is ready: modules are looked for, and database listings are fetched. -/
def start (server : Server) (disk : Disk) (connection : Connection) : Server × List Notice :=
  let (server, notices) := server.indexModules disk
  let (metadata, _, asked) := server.workspace.metadata.perform connection [.refresh]
  ({ server with workspace := { server.workspace with metadata } },
    .log .info "DolphinDB language server initialized" :: notices ++ asked.map .ask)

/-- What a message does, and the answer to it. -/
def handle (server : Server) (disk : Disk) (connection : Connection) :
    Message → Server × Answer × List Notice
  | .introduce root options => (server.introduce root options, .capabilities, [])
  | .ready =>
    let (server, notices) := server.start disk connection
    (server, .nothing, notices)
  | .openDocument uri text =>
    let (server, notices) := server.storeDocument disk uri text
    (server, .nothing, notices)
  | .changeDocument _ none => (server, .nothing, [])
  | .changeDocument uri (some text) =>
    let (server, notices) := server.storeDocument disk uri text
    (server, .nothing, notices)
  | .closeDocument uri =>
    let (server, notices) := server.forgetDocument disk uri
    (server, .nothing, notices)
  | .configure settings =>
    let (server, notices) := server.configure disk settings
    (server, .nothing, notices)
  | .complete uri point =>
    match server.documents.get? uri with
    | none => (server, .candidates none, [])
    | some text =>
      let (workspace, found, asked) := server.workspace.complete connection uri text point
      ({ server with workspace }, .candidates (some found), asked.map .ask)
  | .hover uri point =>
    let shown := (server.documents.get? uri).bind fun text =>
      server.workspace.hover? uri text point
    (server, .hover shown, [])
  | .definition uri point =>
    let found := match server.documents.get? uri with
      | some text => server.workspace.definition uri text point
      | none => []
    (server, .definitions found, [])
  | .shutdown => ({ server with documents := .empty }, .nothing, [])

end Server

end ScriptServer
