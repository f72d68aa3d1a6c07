import ScriptServer.Block
import ScriptServer.Text.Search

namespace ScriptServer.Declaration

/-!
# Function headers

A function is declared by `def name(parameters) { body }`.  The parameter list may go over
several lines, and so may the gap before the body.  A header that breaks off makes no function;
reading reports the line where it gave up.

* `headStarts` — the places of a line where a header begins.
* `readParameters` — the text between the parentheses.
* `splitParameters` — the names in it.
* `locateParameters` — the places of the names.
* `readHeader` — all of it together, with the braces of the body.
-/

open Text

/-! ### The beginning of a header -/

/-- The beginning of a header up to its opening parenthesis: the byte offsets of keyword, name
    and parenthesis, the name, and what follows on the line. -/
structure HeadStart where
  keyword : Nat
  nameStart : Nat
  name : Line
  paren : Nat
  rest : Line

/-- The beginning of a header at the beginning of a text that stands at a byte offset. -/
def headAt? (offset : Nat) (text : Line) : Option HeadStart := do
  let rest ← after? ['d', 'e', 'f'] text
  let gap := rest.takeWhile isBlank
  let (name, rest) ← readName? (← skipBlanks? rest)
  let nameStart := offset + 3 + size gap
  let parenGap := rest.takeWhile isBlank
  let rest ← after? ['('] (trimStart rest)
  return ⟨offset, nameStart, name, nameStart + size name + size parenGap, rest⟩

/-- The headers that begin in the rest of a line.  The keyword does not begin inside a word, so
    the character before the rest matters. -/
def headStarts : Option Char → Nat → Line → List HeadStart
  | _, _, [] => []
  | previous, offset, c :: rest =>
    let later := headStarts (some c) (offset + c.utf8Size) rest
    if previous.any isWord then later
    else match headAt? offset (c :: rest) with
      | some head => head :: later
      | none => later

/-! ### The parameter list -/

/-- How a line ends the search for the parenthesis that closes a parameter list. -/
inductive ParenScan where
  /-- Found: the characters before it, and those after it. -/
  | closed (inside after : Line)
  /-- A brace or a semicolon came first. -/
  | broken
  /-- Not on this line, after which this many inner parentheses are open. -/
  | unclosed (depth : Nat)

/-- The same scan of a line with one more character in front. -/
def ParenScan.cons (c : Char) : ParenScan → ParenScan
  | .closed inside after => .closed (c :: inside) after
  | .broken => .broken
  | .unclosed depth => .unclosed depth

/-- Looks for the parenthesis that closes a list in which `depth` inner ones are open. -/
def scanParens : Nat → Line → ParenScan
  | depth, [] => .unclosed depth
  | depth, '(' :: rest => (scanParens (depth + 1) rest).cons '('
  | 0, ')' :: rest => .closed [] rest
  | depth + 1, ')' :: rest => (scanParens depth rest).cons ')'
  | depth, c :: rest =>
    if c = '{' ∨ c = ';' then .broken else (scanParens depth rest).cons c

/-- A piece of one line of code that is searched for names: its line, its byte offset, its
    characters. -/
structure Segment where
  line : Nat
  offset : Nat
  text : Line

/-- A place in the code together with all that follows it. -/
structure Cursor where
  line : Nat
  offset : Nat
  here : Line
  below : List Line

/-- A parameter list that was read to its end. -/
structure ParameterList where
  /-- The text between the parentheses, lines joined by single blanks. -/
  text : Line
  /-- The pieces of code that it comes from. -/
  segments : List Segment
  /-- The place after the closing parenthesis. -/
  cursor : Cursor

/-- A list that ends on a line: the text read before, the part of the line inside the list and
    the part after it. -/
def ParameterList.ending (captured : Line) (line offset : Nat) (inside after : Line)
    (below : List Line) : ParameterList where
  text := captured ++ inside
  segments := [⟨line, offset, inside ++ [')']⟩]
  cursor := ⟨line, offset + size inside + 1, after, below⟩

/-- The same list with one more segment in front. -/
def ParameterList.prepend (segment : Segment) (list : ParameterList) : ParameterList :=
  { list with segments := segment :: list.segments }

/-- The text of a list after a line that does not close it.  What follows is set off by a
    blank. -/
def capture (captured here : Line) : Line :=
  match captured ++ trimEnd here with
  | [] => []
  | text => text ++ [' ']

/-- Reads a parameter list from a place inside it, given the lines below.  `captured` is the
    text read so far; a line that follows is trimmed.  Failure gives the line where the list
    breaks off. -/
def readParameters (depth : Nat) (captured : Line) (line offset : Nat) (here : Line) :
    List Line → Except Nat ParameterList
  | [] =>
    match scanParens depth here with
    | .closed inside after => .ok (.ending captured line offset inside after [])
    | .broken => .error line
    | .unclosed _ => .error line
  | next :: below =>
    match scanParens depth here with
    | .closed inside after => .ok (.ending captured line offset inside after (next :: below))
    | .broken => .error line
    | .unclosed depth =>
      (readParameters depth (capture captured here) (line + 1) (size (next.takeWhile isBlank))
        (trimStart next) below).map (·.prepend ⟨line, offset, here⟩)

/-- The parameter name in a piece between commas: what stands before a default value, less the
    word that marks it as mutable. -/
def parameterName (piece : Line) : Line :=
  let name := trim (piece.takeWhile (· != '='))
  match after? ['m', 'u', 't', 'a', 'b', 'l', 'e', ' '] name with
  | some rest => trim rest
  | none => name

/-- The parameter names in the text of a list; empty pieces do not count. -/
def splitParameters (text : Line) : List Line :=
  ((splitAtChar ',' text).map parameterName).filter (!·.isEmpty)

/-! ### Where the parameters stand -/

/-- The first occurrence of a word, which is not empty, that is no part of a longer identifier:
    the characters before it and after it.  `skip` characters of an occurrence that was refused
    are still to be passed over. -/
def findWhole? (word : Line) : Nat → Option Char → Line → Option (Line × Line)
  | _, _, [] => none
  | skip + 1, _, c :: rest =>
    (findWhole? word skip (some c) rest).map fun parts => (c :: parts.1, parts.2)
  | 0, previous, c :: rest =>
    match after? word (c :: rest) with
    | some after =>
      if previous.any isIdent || after.head?.any isIdent then
        (findWhole? word (word.length - 1) (some c) rest).map fun parts => (c :: parts.1, parts.2)
      else some ([], after)
    | none => (findWhole? word 0 (some c) rest).map fun parts => (c :: parts.1, parts.2)

/-- The first place of a word in some segments, and the segments after it. -/
def locate? (word : Line) : List Segment → Option (Span × List Segment)
  | [] => none
  | segment :: rest =>
    match findWhole? word 0 none segment.text with
    | some (before, after) =>
      let start := segment.offset + size before
      let stop := start + size word
      some (⟨segment.line, start, stop⟩, ⟨segment.line, stop, after⟩ :: rest)
    | none => locate? word rest

/-- The names with their places.  Each is looked for after the one before it. -/
def locateParameters : List Segment → List Line → List (String × Option Span)
  | _, [] => []
  | segments, name :: names =>
    match locate? name segments with
    | some (span, rest) => (String.ofList name, some span) :: locateParameters rest names
    | none => (String.ofList name, none) :: locateParameters segments names

/-! ### The body -/

/-- The first opening brace of a line from a byte offset on. -/
def braceInLine? (line offset : Nat) (here : Line) (below : List Line) : Option Cursor :=
  match here.dropWhile (· != '{') with
  | [] => none
  | rest => some ⟨line, offset + size (here.takeWhile (· != '{')), rest, below⟩

/-- The first opening brace from a place on, given the lines below.  A line without one that
    holds a semicolon ends the search, which then gives that line. -/
def findBody (line offset : Nat) (here : Line) : List Line → Except Nat Cursor
  | [] =>
    match braceInLine? line offset here [] with
    | some cursor => .ok cursor
    | none => .error line
  | next :: below =>
    match braceInLine? line offset here (next :: below) with
    | some cursor => .ok cursor
    | none => if ';' ∈ here then .error line else findBody (line + 1) 0 next below

/-- The braces of the code from a cursor on. -/
def Cursor.braces (cursor : Cursor) : List Brace :=
  bracesInLine cursor.line cursor.offset cursor.here
    ++ ScriptServer.braces (cursor.line + 1) cursor.below

/-- The brace that closes what the brace at a cursor opens, by counting from there on. -/
def Cursor.partner? (cursor : Cursor) : Option Spot :=
  matchingClose? 0 cursor.braces.tail

/-- A function declaration found in code. -/
structure Header where
  /-- The place of the keyword. -/
  keyword : Spot
  name : String
  /-- The place of the name. -/
  span : Span
  /-- The parameters, with their places where they can be told. -/
  parameters : List (String × Option Span)
  /-- The braces of the body. -/
  opens : Spot
  closes : Spot
  /-- The line on which the parameter list closes. -/
  lastLine : Nat

/-- Reads the declaration that begins on a line of code, given the lines below it.  Failure
    gives the last line that was looked at. -/
def readHeader (line : Nat) (head : HeadStart) (below : List Line) : Except Nat Header := do
  let list ← readParameters 0 [] line (head.paren + 1) head.rest below
  let body ← findBody list.cursor.line list.cursor.offset list.cursor.here list.cursor.below
  match body.partner? with
  | none => .error body.line
  | some closes =>
    return {
      keyword := ⟨line, head.keyword⟩
      name := String.ofList head.name
      span := ⟨line, head.nameStart, head.nameStart + size head.name⟩
      parameters := locateParameters list.segments (splitParameters list.text)
      opens := ⟨body.line, body.offset⟩
      closes
      lastLine := list.cursor.line }

end ScriptServer.Declaration
