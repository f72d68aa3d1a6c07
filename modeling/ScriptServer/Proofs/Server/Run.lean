import ScriptServer.Server.Basic

namespace ScriptServer

/-!
# Runs of a server

A run is what a server goes through between the introduction of the editor and its shutdown.
Between two steps anything may happen to the files on disk, so every step brings the disk it
finds.

* `Event` — what can happen to a running server.
* `Server.step`, `Server.run` — what one event does, and what a row of events does.
* `Server.run_preserves` — what every step preserves, every run preserves.
-/

/-- Whether a message neither introduces the editor nor shuts the server down. -/
def Message.isOngoing : Message → Bool
  | .introduce .. => false
  | .shutdown => false
  | _ => true

/-- What can happen to a running server. -/
inductive Event where
  | message (message : Message) (ongoing : message.isOngoing)
  /-- Directories that are watched have changed. -/
  | directories (changed : List Path)
  | time (millis : Nat)

/-- An event with the disk and the database as they are when it happens. -/
structure Step where
  disk : Disk
  connection : Connection
  event : Event

namespace Server

/-- What an event does, with everything that it sets off in the background. -/
def step (server : Server) (step : Step) : Server × List Notice :=
  match step.event with
  | .message message _ =>
    let (server, _, notices) := server.handle step.disk step.connection message
    (server, notices)
  | .directories changed => server.directoriesChanged step.disk changed
  | .time millis => (server.advance step.connection millis, [])

/-- What a row of events does, one after the other. -/
def run (server : Server) : List Step → Server × List Notice
  | [] => (server, [])
  | first :: rest =>
    let (server, notices) := server.step first
    let (server, later) := server.run rest
    (server, notices ++ later)

/-- **What every step preserves, every run preserves.** -/
theorem run_preserves {P : Server → Prop}
    (hstep : ∀ server step, P server → P (server.step step).1)
    (server : Server) (steps : List Step) (h : P server) : P (server.run steps).1 := by
  induction steps generalizing server with
  | nil => exact h
  | cons first rest ih => exact ih (server.step first).1 (hstep server first h)

end Server

end ScriptServer
