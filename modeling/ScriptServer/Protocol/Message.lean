import ScriptServer.Json.Record
import ScriptServer.Position
import ScriptServer.Protocol.Capabilities
import ScriptServer.Protocol.Unserved
import ScriptServer.Uri.FilePath
import ScriptServer.Uri.Parser

namespace ScriptServer

/-!
# What editors send

* `Message` — a message that the server acts on.
* `Method` — what a message is about.
* `Method.message?` — the message with given parameters, if they can be read.
-/

/-- A message that the server acts on. -/
inductive Message where
  /-- The editor introduces itself, with the root of the workspace and settings. -/
  | introduce (root : Option Path) (options : Option Json)
  | ready
  | openDocument (uri : Uri) (text : String)
  /-- A change carries the whole text; of several the last counts. -/
  | changeDocument (uri : Uri) (text : Option String)
  | closeDocument (uri : Uri)
  | configure (settings : Json)
  | complete (uri : Uri) (point : Position)
  | hover (uri : Uri) (point : Position)
  | definition (uri : Uri) (point : Position)
  | shutdown

/-- What a message is about. -/
inductive Method where
  | introduce
  | ready
  | openDocument
  | changeDocument
  | closeDocument
  | configure
  | complete
  | hover
  | definition
  | shutdown
  | exit
  /-- A request of the protocol that the server has no answer for. -/
  | unserved
  /-- A notification of the protocol that the server does not need. -/
  | unheeded
  /-- Internals of the protocol. -/
  | internal
  | unknown
  deriving DecidableEq, Repr

namespace Method

/-- Notifications of the protocol that the server does not need. -/
def unheededNames : List String :=
  ["textDocument/willSave", "textDocument/didSave", "workspace/didChangeWorkspaceFolders",
   "workspace/didChangeWatchedFiles", "workspace/didCreateFiles", "workspace/didRenameFiles",
   "workspace/didDeleteFiles"]

/-- The method with a name. -/
def ofName (name : String) : Method :=
  match name with
  | "initialize" => .introduce
  | "initialized" => .ready
  | "textDocument/didOpen" => .openDocument
  | "textDocument/didChange" => .changeDocument
  | "textDocument/didClose" => .closeDocument
  | "workspace/didChangeConfiguration" => .configure
  | "textDocument/completion" => .complete
  | "textDocument/hover" => .hover
  | "textDocument/definition" => .definition
  | "shutdown" => .shutdown
  | "exit" => .exit
  | _ =>
    if (Protocol.unserved.lookup name).isSome then .unserved
    else if unheededNames.contains name then .unheeded
    else if "$/".toList.isPrefixOf name.toList then .internal
    else .unknown

/-- Whether a message of this method has no answer. -/
def isNotification : Method → Bool
  | .ready => true
  | .openDocument => true
  | .changeDocument => true
  | .closeDocument => true
  | .configure => true
  | .unheeded => true
  | _ => false

end Method

/-! ### Reading parameters -/

namespace Params

/-- An identifier. -/
def uri? (value : Json) : Option Uri := value.asString?.bind Uri.parse?

/-- A position. -/
def position? (value : Json) : Option Position := do
  let field ← value.record? ["line", "character"]
  let line ← (← field "line").asNatBelow? Word.limit32
  let column ← (← field "character").asNatBelow? Word.limit32
  return ⟨line, column⟩

/-- A range. -/
def range? (value : Json) : Option Range := do
  let field ← value.record? ["start", "end"]
  return ⟨← position? (← field "start"), ← position? (← field "end")⟩

/-- A document. -/
def document? (value : Json) : Option Uri := do
  uri? (← (← value.record? ["uri"]) "uri")

/-- The version of a document. -/
def version? (value : Json) : Option Int := value.asIntBetween? (-0x80000000) 0x80000000

/-- A document with its text. -/
def documentItem? (value : Json) : Option (Uri × String) := do
  let field ← value.record? ["uri", "languageId", "version", "text"]
  let uri ← uri? (← field "uri")
  let _ ← (← field "languageId").asString?
  let _ ← version? (← field "version")
  return (uri, ← (← field "text").asString?)

/-- A document with its version. -/
def versionedDocument? (value : Json) : Option Uri := do
  let field ← value.record? ["uri", "version"]
  let uri ← uri? (← field "uri")
  let _ ← version? (← field "version")
  return uri

/-- The new text in a change. -/
def changedText? (value : Json) : Option String := do
  let field ← value.record? ["range", "rangeLength", "text"]
  let _ ← Json.optional none (Json.nullable range?) (field "range")
  let _ ← Json.optional none (Json.nullable (Json.asNatBelow? Word.limit32)) (field "rangeLength")
  (← field "text").asString?

/-- The members of an object. -/
def object? : Json → Option (String → Option Json)
  | .object fields => some fun name => Json.lastField? name fields
  | _ => none

/-- A position in a document. -/
def place? (params : Json) : Option (Uri × Position) := do
  let field ← object? params
  return (← document? (← field "textDocument"), ← position? (← field "position"))

/-- A position in a document, given with fields that only have to be well formed. -/
def placeWith? (fields : List Json.Field) (params : Json) : Option (Uri × Position) :=
  if Json.Shape.members fields params then place? params else none

/-- How a completion was asked for. -/
def completionContext : Json.Field :=
  .optional "context"
    (Json.Shape.record [.required "triggerKind" Json.Shape.code,
      .optional "triggerCharacter" Json.Shape.text])

/-- A folder of the workspace. -/
def folder? (value : Json) : Option Uri := do
  let field ← value.record? ["uri", "name"]
  let uri ← uri? (← field "uri")
  let _ ← (← field "name").asString?
  return uri

/-- Folders of the workspace. -/
def folders? (value : Json) : Option (List Uri) := do
  (← value.asArray?).mapM folder?

/-- The first folder of the workspace, or else the root, as a path. -/
def workspaceRoot (folders : Option (List Uri)) (root : Option Uri) : Option Path :=
  match folders.bind List.head? with
  | some folder => folder.path?
  | none => root.bind Uri.path?

/-- The fields of an introduction that the server does not use. -/
def introductionFields : List Json.Field :=
  [.optional "processId" Json.Shape.count,
   .optional "rootPath" Json.Shape.text,
   .required "capabilities" Protocol.editorCapabilities,
   .optional "trace" (Json.Shape.choice ["off", "messages", "verbose"]),
   .optional "clientInfo"
     (Json.Shape.record [.required "name" Json.Shape.text, .optional "version" Json.Shape.text]),
   .optional "locale" Json.Shape.text]

/-- The names of all fields of an introduction, in order. -/
def introductionNames : List String :=
  ["processId", "rootPath", "rootUri", "initializationOptions", "capabilities", "trace",
   "workspaceFolders", "clientInfo", "locale"]

/-- The introduction of an editor. -/
def introduction? (params : Json) : Option Message := do
  let field ← params.record? introductionNames
  if introductionFields.any fun expected => !expected.admits (field expected.name) then none
  let absent {α : Type} (decode : Json → Option α) (name : String) : Option (Option α) :=
    Json.optional none (Json.nullable decode) (field name)
  let root ← absent uri? "rootUri"
  let options ← absent some "initializationOptions"
  let folders ← absent folders? "workspaceFolders"
  return .introduce (workspaceRoot folders root) options

end Params

namespace Method

/-- The message of a method with given parameters. -/
def withParams? (method : Method) (params : Json) : Option Message :=
  match method with
  | .introduce => Params.introduction? params
  | .ready => (params.record? []).map fun _ => .ready
  | .openDocument => do
    let (uri, text) ← Params.documentItem? (← (← params.record? ["textDocument"]) "textDocument")
    return .openDocument uri text
  | .changeDocument => do
    let field ← params.record? ["textDocument", "contentChanges"]
    let uri ← Params.versionedDocument? (← field "textDocument")
    let texts ← (← (← field "contentChanges").asArray?).mapM Params.changedText?
    return .changeDocument uri texts.getLast?
  | .closeDocument => do
    return .closeDocument
      (← Params.document? (← (← params.record? ["textDocument"]) "textDocument"))
  | .configure => do
    return .configure (← (← params.record? ["settings"]) "settings")
  | .complete => do
    let (uri, point) ← Params.placeWith? (Params.completionContext :: Protocol.reports) params
    return .complete uri point
  | .hover => do
    let (uri, point) ← Params.placeWith? [Protocol.progress] params
    return .hover uri point
  | .definition => do
    let (uri, point) ← Params.placeWith? Protocol.reports params
    return .definition uri point
  | _ => none

/-- The message of a method, if its parameters can be read.  Only `shutdown` has none. -/
def message? (method : Method) (params : Option Json) : Option Message :=
  match method, params with
  | .shutdown, none => some .shutdown
  | method, some params => method.withParams? params
  | _, none => none

end Method

end ScriptServer
