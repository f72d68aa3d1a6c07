import ScriptServer.Workspace.Basic

namespace ScriptServer

/-!
# Unknown modules

* `Diagnostic` — a line that imports a module which does not exist.
* `Workspace.diagnostics` — all of them in a text.
-/

/-- A finding in a text. -/
structure Diagnostic where
  range : Range
  severity : Severity
  message : String
  deriving DecidableEq, Repr

namespace Workspace

/-- The finding on a line whose import is unknown: it covers the whole line. -/
def unknownModule (workspace : Workspace) (number : Nat) (line : Text.Line) (module : String) :
    Diagnostic where
  range := ⟨⟨number, 0⟩, ⟨number, Text.width line⟩⟩
  severity := workspace.settings.unknownModuleSeverity
  message := "Module '" ++ module ++ "' not found"

/-- The findings in lines, each given as it is and without comments; the first one has the
    number `number`. -/
def diagnosticsIn (workspace : Workspace) :
    Nat → List Text.Line → List Text.Line → List Diagnostic
  | number, line :: lines, masked :: rest =>
    let later := workspace.diagnosticsIn (number + 1) lines rest
    match workspace.syn.imported? masked with
    | some module =>
      if workspace.index.contains module then later
      else workspace.unknownModule number line module :: later
    | none => later
  | _, _, _ => []

/-- The imports in a text that are unknown.  Before the first scan nothing is reported, since
    every import would be. -/
def diagnostics (workspace : Workspace) (text : String) : List Diagnostic :=
  if workspace.index.isReady then
    let lines := Text.splitLines text
    workspace.diagnosticsIn 0 lines (Text.maskComments lines)
  else []

end Workspace

end ScriptServer
