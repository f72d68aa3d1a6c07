import ScriptServer.Text.Line

namespace ScriptServer.Text

/-!
# Blanking comments and strings

Scripts are searched line by line, so what looks like code inside a comment or a string has to
be hidden first.  Every character gets a mark that says what it belongs to; a mask then
replaces the hidden characters by spaces, one for each byte, so that byte offsets stay put.

* `markLine`, `markLines` — the marks.  A block comment goes on over line ends, a string ends
  with its line.
* `maskComments` — comments blanked, strings kept.
* `maskCode` — comments and the inside of strings blanked; the quotes themselves stay.
-/

/-- What a character of a script belongs to. -/
inductive Mark where
  /-- Code, the quotes around a string included. -/
  | code
  /-- The inside of a string. -/
  | literal
  /-- A comment, its markers included. -/
  | comment
  deriving DecidableEq, Repr

/-- Where reading stands between two characters. -/
inductive Zone where
  /-- In code. -/
  | code
  /-- Inside a string opened by this quote. -/
  | quoted (quote : Char)
  /-- Inside a block comment. -/
  | comment
  deriving DecidableEq, Repr

/-- A line with its marks, and whether it ends inside a block comment. -/
structure Marked where
  chars : List (Char × Mark)
  inComment : Bool

/-- The same with one more character in front. -/
def Marked.cons (c : Char) (mark : Mark) (line : Marked) : Marked :=
  { line with chars := (c, mark) :: line.chars }

/-- Marks the rest of a line.  A backslash in a string hides the character after it, so that an
    escaped quote closes nothing. -/
def markLine : Zone → Line → Marked
  | .comment, [] => ⟨[], true⟩
  | .code, [] => ⟨[], false⟩
  | .quoted _, [] => ⟨[], false⟩
  | .comment, '*' :: '/' :: rest =>
    (markLine .code rest).cons '/' .comment |>.cons '*' .comment
  | .comment, c :: rest => (markLine .comment rest).cons c .comment
  | .quoted quote, '\\' :: escaped :: rest =>
    (markLine (.quoted quote) rest).cons escaped .literal |>.cons '\\' .literal
  | .quoted quote, c :: rest =>
    if c = quote then (markLine .code rest).cons c .code
    else (markLine (.quoted quote) rest).cons c .literal
  | .code, '/' :: '/' :: rest =>
    ⟨('/' :: '/' :: rest).map fun c => (c, .comment), false⟩
  | .code, '/' :: '*' :: rest =>
    (markLine .comment rest).cons '*' .comment |>.cons '/' .comment
  | .code, c :: rest =>
    if c = '"' ∨ c = '\'' then (markLine (.quoted c) rest).cons c .code
    else (markLine .code rest).cons c .code

/-- Marks lines one after the other; the flag says whether the first begins inside a block
    comment. -/
def markLines : Bool → List Line → List (List (Char × Mark))
  | _, [] => []
  | inComment, line :: rest =>
    let marked := markLine (if inComment then .comment else .code) line
    marked.chars :: markLines marked.inComment rest

/-- As many spaces as a character has bytes. -/
def blank (c : Char) : Line :=
  List.replicate c.utf8Size ' '

/-- The characters with the hidden ones blanked. -/
def render (hides : Mark → Bool) (chars : List (Char × Mark)) : Line :=
  chars.flatMap fun marked => if hides marked.2 then blank marked.1 else [marked.1]

/-- Lines with their comments blanked.  Strings are left alone, so that an address in a string
    survives its two slashes. -/
def maskComments (lines : List Line) : List Line :=
  (markLines false lines).map (render (· == .comment))

/-- Lines with comments and the inside of strings blanked. -/
def maskCode (lines : List Line) : List Line :=
  (markLines false lines).map (render (· != .code))

end ScriptServer.Text
