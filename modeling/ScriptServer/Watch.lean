import ScriptServer.Path

namespace ScriptServer.Watch

/-!
# Watched directories

A notification about paths on disk says which directories have to be listed anew.

* `changedDirectories` — the directories around the paths of one notification.
* `batch?` — the directories that are waiting, each once.
-/

/-- What a notification is about. -/
inductive Notification where
  /-- Something was only looked at. -/
  | access
  /-- Something may have changed. -/
  | change
  deriving DecidableEq, Repr

/-- The directories whose listings a notification may have changed, in order.  A directory that is
    spelled in several ways keeps the last spelling. -/
def changedDirectories : Notification → List Path → List Path
  | .access, _ => []
  | .change, paths => Path.sorted (paths.filterMap Path.parent?).reverse

/-- The waiting directories in order, each once and in its first spelling; none when no directory
    waits. -/
def batch? : List Path → Option (List Path)
  | [] => none
  | queue => some (Path.sorted queue)

end ScriptServer.Watch
