import ScriptServer.Text.CharClass

namespace ScriptServer.Text

/-!
# Lines, byte offsets and columns

A line is the list of its characters.  Two measures locate a character in it: the *offset*
counts the bytes of the UTF-8 form before it, the *column* counts the UTF-16 code units, as
editors do.  Offsets are what a line shares with its blanked form, columns are what a position
in a document is made of.

* `splitLines` — the lines of a text.
* `columnAt`, `offsetAt` — from an offset to a column and back.
* `splitAtOffset` — the part before an offset and the part from it on.
-/

/-- One line of a script, without its line break. -/
abbrev Line := List Char

/-- UTF-16 code units of one character: two outside the basic plane. -/
def units (c : Char) : Nat :=
  if c.toNat < 0x10000 then 1 else 2

/-- UTF-16 code units of a line. -/
def width : Line → Nat
  | [] => 0
  | c :: rest => units c + width rest

/-- Bytes of a line in UTF-8. -/
def size : Line → Nat
  | [] => 0
  | c :: rest => c.utf8Size + size rest

/-- A line without the carriage return that a two-character line break leaves behind. -/
def dropReturn : Line → Line
  | [] => []
  | ['\r'] => []
  | c :: rest => c :: dropReturn rest

/-- The pieces between the occurrences of a character; there is always at least one. -/
def splitAtChar (separator : Char) : List Char → List Line
  | [] => [[]]
  | c :: rest =>
    if c = separator then [] :: splitAtChar separator rest
    else match splitAtChar separator rest with
      | [] => [[c]]
      | first :: others => (c :: first) :: others

/-- The lines of a text.  A final line break yields a last empty line, so that the number of a
    line is the one an editor shows. -/
def splitLines (text : String) : List Line :=
  (splitAtChar '\n' text.toList).map dropReturn

/-- Column of a byte offset.  An offset inside a character counts as its first byte, one past
    the end as the end.  The count has no bound: a counter of 32 bits gives the same only on lines of
    fewer than `2 ^ 32` code units, and starts again from zero behind them. -/
def columnAt : Line → Nat → Nat
  | [], _ => 0
  | c :: rest, offset =>
    if c.utf8Size ≤ offset then units c + columnAt rest (offset - c.utf8Size) else 0

/-- Byte offset of a column.  A column inside a character counts as the next character's, one
    past the end as the end. -/
def offsetAt : Line → Nat → Nat
  | [], _ => 0
  | c :: rest, column =>
    if column = 0 then 0 else c.utf8Size + offsetAt rest (column - units c)

/-- The characters before a byte offset, and the others. -/
def splitAtOffset : Line → Nat → Line × Line
  | [], _ => ([], [])
  | c :: rest, offset =>
    if c.utf8Size ≤ offset then
      let parts := splitAtOffset rest (offset - c.utf8Size)
      (c :: parts.1, parts.2)
    else ([], c :: rest)

/-! ### Trimming -/

/-- A line without the blanks it begins with. -/
def trimStart (line : Line) : Line :=
  line.dropWhile isBlank

/-- A line without the blanks it ends with. -/
def trimEnd : Line → Line
  | [] => []
  | c :: rest =>
    match trimEnd rest with
    | [] => if isBlank c then [] else [c]
    | kept => c :: kept

/-- A line without the blanks at both ends. -/
def trim (line : Line) : Line :=
  trimEnd (trimStart line)

/-- Whether a line holds nothing but blanks. -/
def isBlankLine (line : Line) : Bool :=
  line.all isBlank

end ScriptServer.Text
