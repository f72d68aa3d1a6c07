import ScriptServer.Text.Search

namespace ScriptServer.DocComment

/-!
# Documentation comments

The documentation of a declaration is the comment that stands directly above it: line comments
and block comments without a line of anything else, not even a blank one, between them.

* `DocComment.above?` — the documentation of the declaration on a line.
-/

open Text

/-- The text of a comment line: all slashes it begins with are dropped. -/
def cleanLine (afterMarker : Line) : Line :=
  trim (afterMarker.dropWhile (· == '/'))

/-- A text without a pattern it ends with. -/
def dropEnd (pattern text : Line) : Line :=
  match after? pattern.reverse text.reverse with
  | some rest => rest.reverse
  | none => text

/-- A text without a pattern it begins with. -/
def dropStart (pattern text : Line) : Line :=
  (after? pattern text).getD text

/-- The text of a line of a block comment, without markers and a leading star. -/
def cleanBlockLine (line : Line) : Line :=
  let body := match after? ['/', '*', '*'] line with
    | some rest => rest
    | none => dropStart ['/', '*'] line
  trim (dropStart ['*'] (trim (dropEnd ['*', '/'] body)))

/-- How reading upwards goes on after a line. -/
inductive Step where
  /-- The line belongs to the comment. -/
  | take (text : Line)
  /-- The line is the last one of a block comment that begins further up. -/
  | enter (text : Line)
  /-- The line does not belong to a comment. -/
  | stop
  deriving DecidableEq

/-- What a trimmed line means inside or at the end of a block comment, read upwards.  A comment
    that begins after code documents nothing. -/
def blockStep (line : Line) : Step :=
  match cutFirst? ['/', '*'] line with
  | some ([], _) => .take (cleanBlockLine line)
  | some (_ :: _, _) => .stop
  | none => .enter (cleanBlockLine line)

/-- What a trimmed line means outside of block comments, read upwards. -/
def lineStep (line : Line) : Step :=
  match after? ['/', '/'] line with
  | some rest => .take (cleanLine rest)
  | none =>
    if (after? ['/', '*'] line.reverse).isSome then blockStep line else .stop

/-- The texts of the comment that ends right below the lines, which are given from the lowest
    up.  The pending texts belong to a block comment whose beginning is still to come; without
    a beginning they do not count. -/
def collect : Option (List Line) → List Line → List Line
  | _, [] => []
  | none, line :: rest =>
    match lineStep (trim line) with
    | .take text => text :: collect none rest
    | .enter text => collect (some [text]) rest
    | .stop => []
  | some pending, line :: rest =>
    match blockStep (trim line) with
    | .take text => pending ++ text :: collect none rest
    | .enter text => collect (some (pending ++ [text])) rest
    | .stop => []

/-- The documentation of what stands on a line: the comment above it, if it holds any text. -/
def above? (lines : List Line) (number : Nat) : Option String :=
  let texts := collect none (lines.take number).reverse
  match trim (['\n'].intercalate texts.reverse) with
  | [] => none
  | doc => some (String.ofList doc)

end ScriptServer.DocComment
