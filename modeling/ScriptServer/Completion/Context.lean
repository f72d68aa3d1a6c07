import ScriptServer.Position
import ScriptServer.Sql.Clause
import ScriptServer.Text.Mask

namespace ScriptServer

/-!
# What the text around the cursor asks for

* `Statement.around` — the statement that the cursor is in, split at the cursor.
* `Context.ofPosition` — whether the cursor is in a comment, in an SQL clause, or elsewhere.
-/

namespace Statement

open Text

/-- How many lines above and below the cursor are taken to a statement. -/
def reach : Nat := 20

/-- The lines of the statement above the cursor, given from the lowest up: a blank line or one
    that ends a statement stops it.  The result is from top to bottom. -/
def linesAbove : Nat → List Line → List Line
  | 0, _ => []
  | _, [] => []
  | n + 1, line :: rest =>
    let text := trim line
    if text.isEmpty || text.getLast? == some ';' then []
    else linesAbove n rest ++ [text]

/-- The lines of the statement below the cursor, up to where it ends. -/
def linesBelow : Nat → List Line → List Line
  | 0, _ => []
  | _, [] => []
  | n + 1, line :: rest =>
    let text := trim line
    if text.isEmpty then []
    else if ';' ∈ text then [text.takeWhile (· != ';')]
    else text :: linesBelow n rest

/-- The part of a line after its last semicolon, if there is one. -/
def afterSemicolon? (line : Line) : Option Line :=
  (cutLast? [';'] line).map (·.2)

/-- The texts of the statement before and after a byte offset on a line. -/
def around (lines : List Line) (number offset : Nat) : Line × Line :=
  let (head, tail) := splitAtOffset (lines.getD number []) offset
  let before := match afterSemicolon? head with
    | some rest => [trimStart rest]
    | none => linesAbove reach (lines.take number).reverse ++ [trimStart head]
  let after :=
    if ';' ∈ tail then [tail.takeWhile (· != ';')]
    else tail :: linesBelow reach (lines.drop (number + 1))
  ([' '].intercalate before, [' '].intercalate after)

end Statement

/-- What the text around the cursor asks for. -/
inductive Context where
  /-- Nothing: the cursor is in a comment. -/
  | comment
  /-- Database objects. -/
  | sql (clause : Clause)
  /-- Anything else. -/
  | general
  deriving DecidableEq, Repr

namespace Context

open Text

/-- Whether a line begins with a comment. -/
def beginsComment (line : Line) : Bool :=
  (after? ['/', '/'] (trimStart line)).isSome || (after? ['/', '*'] (trimStart line)).isSome

/-- Whether blanking comments has shortened the text of a line before a byte offset. -/
def endsInComment (line masked : Line) (offset : Nat) : Bool :=
  size (trimEnd (splitAtOffset masked offset).1) < size (trimEnd (splitAtOffset line offset).1)

/-- The context of a position in a text. -/
def ofPosition (text : String) (point : Position) : Context :=
  let lines := splitLines text
  match lines[point.line]? with
  | none => .general
  | some line =>
    let masked := maskComments lines
    let offset := offsetAt line point.column
    if beginsComment line || endsInComment line (masked.getD point.line []) offset then .comment
    else
      let (before, after) := Statement.around masked point.line offset
      match Clause.classify? before after with
      | some clause => .sql clause
      | none => .general

end Context

end ScriptServer
