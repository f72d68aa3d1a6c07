import ScriptServer.Symbol

namespace ScriptServer

/-!
# Shadowing

A name that is declared more than once means, at a position, the declaration whose scope begins
last among those in scope there.

* `inScope` — the symbols that can be used at a position.
* `latestStart?` — where the innermost scope of a name begins.
* `resolveShadowing` — the symbols that are not hidden by another one.
-/

/-- The symbols that can be used at a position. -/
def inScope (symbols : List Symbol) (point : Position) : List Symbol :=
  symbols.filter (·.scope.contains point)

/-- The latest beginning of a scope among the symbols of a name. -/
def latestStart? (name : String) : List Symbol → Option Position
  | [] => none
  | s :: rest =>
    let later := latestStart? name rest
    if s.name = name then
      match later with
      | none => some s.scope.first
      | some best => some (s.scope.first.latest best)
    else later

/-- The symbols in scope at a position, less those that a symbol of the same name hides whose
    scope begins later.  The order is kept, and symbols that begin together all stay. -/
def resolveShadowing (symbols : List Symbol) (point : Position) : List Symbol :=
  let usable := inScope symbols point
  usable.filter fun s => latestStart? s.name usable = some s.scope.first

end ScriptServer
