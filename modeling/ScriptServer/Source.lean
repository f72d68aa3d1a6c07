import ScriptServer.Position
import ScriptServer.Text.Mask

namespace ScriptServer

/-!
# A script prepared for reading

* `Source` — the lines of a script as they are written, and as code: with comments and the
  inside of strings blanked.  Both have the same bytes apart from the blanked ones.
* `Spot` — a place found in the code: a line number and a byte offset.
* `Source.position` — the position in the document that a spot stands for.
-/

/-- A place in code: line number and byte offset. -/
structure Spot where
  line : Nat
  offset : Nat
  deriving DecidableEq, Repr

/-- A piece of one line of code: line number, first byte, and the byte after the last. -/
structure Span where
  line : Nat
  start : Nat
  stop : Nat
  deriving DecidableEq, Repr

/-- A script as written and as code. -/
structure Source where
  lines : List Text.Line
  code : List Text.Line

namespace Source

/-- The script with this text. -/
def ofText (text : String) : Source :=
  let lines := Text.splitLines text
  ⟨lines, Text.maskCode lines⟩

/-- The position of a spot.  Columns are counted on the line as written, where a character may
    take more bytes than units. -/
def position (source : Source) (spot : Spot) : Position :=
  ⟨spot.line, Text.columnAt (source.lines.getD spot.line []) spot.offset⟩

/-- The range of a span. -/
def range (source : Source) (span : Span) : Range :=
  ⟨source.position ⟨span.line, span.start⟩, source.position ⟨span.line, span.stop⟩⟩

end Source

end ScriptServer
