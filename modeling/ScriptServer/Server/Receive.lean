import ScriptServer.Protocol.Results
import ScriptServer.Server.Basic

namespace ScriptServer

/-!
# The life of a server

Messages arrive with a method name and parameters; requests also have an identifier and want an
answer.  Which messages are accepted depends on the phase of the server.

* `Request` — a message as it arrives.
* `Response` — the answer as it leaves.
* `Server.receive` — the whole treatment of a message.
-/

/-- A message as it arrives. -/
structure Request where
  method : String
  /-- Whether an answer is wanted. -/
  wantsAnswer : Bool
  params : Option Json

/-- Why a request is refused. -/
inductive Refusal where
  | notInitialized
  | invalidRequest
  | unknownMethod
  | invalidParams
  deriving DecidableEq, Repr

/-- The number of a refusal in the protocol. -/
def Refusal.code : Refusal → Int
  | .notInitialized => -32002
  | .invalidRequest => -32600
  | .unknownMethod => -32601
  | .invalidParams => -32602

/-- The answer as it leaves. -/
inductive Response where
  | nothing
  | result (answer : Answer)
  | refused (reason : Refusal)
  /-- The server takes no messages any more. -/
  | gone
  deriving DecidableEq, Repr

/-- An answer as JSON. -/
def Answer.toJson : Answer → Json
  | .capabilities => ScriptServer.capabilities
  | .candidates found => .ofOption (fun list => .array (list.map (·.toJson))) found
  | .hover shown => .ofOption (fun (text, range) => hoverJson text range) shown
  | .definitions found => locationsJson found
  | .nothing => .null

namespace Server

/-- Why a message is refused in a phase other than the running one. -/
def refusalIn : Phase → Refusal
  | .uninitialized => .notInitialized
  | _ => .invalidRequest

/-- A refusal reaches only those who want an answer. -/
def refuse (request : Request) (reason : Refusal) : Response :=
  if request.wantsAnswer then .refused reason else .nothing

/-- Acts on a message whose method the server serves.  A request without an identifier is passed
    over, and a notification with one is refused. -/
def serve (server : Server) (disk : Disk) (connection : Connection) (method : Method)
    (request : Request) : Server × Response × List Notice :=
  if request.wantsAnswer = method.isNotification then
    (server, refuse request .invalidRequest, [])
  else match method.message? request.params with
    | none => (server, refuse request .invalidParams, [])
    | some message =>
      let (server, answer, notices) := server.handle disk connection message
      (server, if request.wantsAnswer then .result answer else .nothing, notices)

/-- The first message that is served: after it the server is running, if it was understood. -/
def receiveFirst (server : Server) (disk : Disk) (connection : Connection) (request : Request) :
    Server × Response × List Notice :=
  match server.serve disk connection .introduce request with
  | (server, .result answer, notices) =>
    ({ server with phase := .running }, .result answer, notices)
  | other => other

/-- The whole treatment of a message. -/
def receive (server : Server) (disk : Disk) (connection : Connection) (request : Request) :
    Server × Response × List Notice :=
  if server.phase = .exited then (server, .gone, [])
  else match Method.ofName request.method with
    | .exit => ({ server with phase := .exited }, .nothing, [])
    | .internal => (server, .nothing, [])
    | .unknown => (server, refuse request .unknownMethod, [])
    | .introduce =>
      if server.phase = .uninitialized then server.receiveFirst disk connection request
      else (server, refuse request .invalidRequest, [])
    | method =>
      if server.phase = .running then
        match method with
        -- the server shuts down even when the message is passed over
        | .shutdown =>
          { server with phase := .shutDown }.serve disk connection .shutdown request
        | .unserved =>
          let wellFormed := (Protocol.unserved.lookup request.method).any request.params.any
          let reason := if wellFormed then .unknownMethod else .invalidParams
          (server, refuse request reason, [])
        | .unheeded => (server, refuse request .invalidRequest, [])
        | method => server.serve disk connection method request
      else (server, refuse request (refusalIn server.phase), [])

end Server

end ScriptServer
