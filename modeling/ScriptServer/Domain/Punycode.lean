namespace ScriptServer.Domain.Punycode

/-!
# Names in ASCII

A text of any characters is written with ASCII letters, digits and hyphens: first its ASCII
characters, then, behind a hyphen, where the others stand.  Each of the others is one number: how
many steps lie between it and the one before, where a step goes to the next place in the text, and
from the last place to the next code point.

* `encode` — the ASCII form of a text.
* `decode?` — the text with a given ASCII form.

Numbers are written in base 36, lowest digit first.  A digit below a threshold ends its number;
the thresholds adapt to the size of the numbers before.
-/

/-! ### Digits -/

/-- A digit in base 36: the letters, then the ten digits. -/
def digit (value : Nat) : Char :=
  if value < 26 then Char.ofNat ('a'.toNat + value) else Char.ofNat ('0'.toNat + (value - 26))

/-- The value of a digit. -/
def digitValue? (c : Char) : Option Nat :=
  if c.isLower then some (c.toNat - 'a'.toNat)
  else if c.isUpper then some (c.toNat - 'A'.toNat)
  else if c.isDigit then some (c.toNat - '0'.toNat + 26)
  else none

/-- Below this a digit ends its number; `place` is 36 for the first digit, 72 for the second, and
    so on. -/
def threshold (bias place : Nat) : Nat := min 26 (max 1 (place - bias))

/-- Every number ends: some digit is below the threshold. -/
theorem threshold_pos (bias place : Nat) : 0 < threshold bias place := by
  unfold threshold; omega

/-! ### Thresholds -/

/-- The bias for numbers of a size; `sum` is the bias from the digits before. -/
def biasFor (sum size : Nat) : Nat :=
  if 455 < size then biasFor (sum + 36) (size / 35) else sum + 36 * size / (size + 38)
termination_by size
decreasing_by omega

/-- The bias after a number; `length` counts the characters that are known by then.  The first
    number is often much larger than the others. -/
def adapt (isFirst : Bool) (number length : Nat) : Nat :=
  let size := if isFirst then number / 700 else number / 2
  biasFor 0 (size + size / length)

/-! ### Writing -/

/-- The digits of a number from a place on. -/
def digits (bias place number : Nat) : List Char :=
  let least := threshold bias place
  if number < least then [digit number]
  else
    let above := number - least
    digit (least + above % (36 - least)) :: digits bias (place + 36) (above / (36 - least))
termination_by number
decreasing_by
  have pos := threshold_pos bias place
  have := Nat.div_le_self (number - threshold bias place) (36 - threshold bias place)
  omega

/-- What has been written, and where the writer stands. -/
structure Writer where
  written : List Char
  /-- Steps since the last character that was written. -/
  steps : Nat := 0
  bias : Nat := 72
  /-- How many characters the reader knows. -/
  known : Nat
  isFirst : Bool := true

namespace Writer

/-- Passes a place of the text when the code point `wanted` is due. -/
def pass (wanted : Nat) (writer : Writer) (c : Char) : Writer :=
  if c.toNat < wanted then { writer with steps := writer.steps + 1 }
  else if c.toNat = wanted then
    { written := writer.written ++ digits writer.bias 36 writer.steps
      steps := 0
      bias := adapt writer.isFirst writer.steps (writer.known + 1)
      known := writer.known + 1
      isFirst := false }
  else writer

/-- Writes all places of some code points, in increasing order; `due` is the code point that the
    writer has come to. -/
def writeAll (text : List Char) (due : Nat) (writer : Writer) : List Nat → List Char
  | [] => writer.written
  | wanted :: later =>
    let jump := { writer with steps := writer.steps + (wanted - due) * (writer.known + 1) }
    let after := text.foldl (pass wanted) jump
    writeAll text (wanted + 1) { after with steps := after.steps + 1 } later

end Writer

/-- Whether a character lies in ASCII. -/
def isAscii (c : Char) : Bool := c.toNat < 0x80

/-- The ASCII form of a text. -/
def encode (text : List Char) : List Char :=
  let plain := text.filter isAscii
  let others := ((text.filter (!isAscii ·)).map Char.toNat).mergeSort.eraseDups
  let start := if plain.isEmpty then [] else plain ++ ['-']
  Writer.writeAll text 0x80 { written := start, known := plain.length } others

/-! ### Reading -/

/-- What has been read, and where the reader stands. -/
structure Reader where
  text : List Char
  code : Nat := 0x80
  /-- The place in the text that the reader has come to. -/
  place : Nat := 0
  bias : Nat := 72
  isFirst : Bool := true
  /-- The number that is being read. -/
  number : Nat := 0
  weight : Nat := 1
  digitPlace : Nat := 36

namespace Reader

/-- Puts in the character that a number leads to. -/
def place? (reader : Reader) (number : Nat) : Option Reader :=
  let length := reader.text.length + 1
  let way := reader.place + number
  let code := reader.code + way / length
  if code.isValidChar then
    some {
      text := reader.text.insertIdx (way % length) (Char.ofNat code)
      code
      place := way % length + 1
      bias := adapt reader.isFirst number length
      isFirst := false }
  else none

/-- Reads a digit. -/
def read? (reader : Reader) (c : Char) : Option Reader := do
  let value ← digitValue? c
  let least := threshold reader.bias reader.digitPlace
  let number := reader.number + value * reader.weight
  if value < least then reader.place? number
  else return { reader with
    number
    weight := reader.weight * (36 - least)
    digitPlace := reader.digitPlace + 36 }

end Reader

/-- The text with a given ASCII form.  A hyphen stands only behind other characters. -/
def decode? (form : List Char) : Option (List Char) := do
  let tail := (form.reverse.takeWhile (· != '-')).reverse
  let plain := form.take (form.length - tail.length - 1)
  if plain.any (!isAscii ·) || (plain.isEmpty && form.contains '-') then none
  let reader ← tail.foldlM Reader.read? { text := plain }
  if reader.digitPlace = 36 then return reader.text else none

end ScriptServer.Domain.Punycode
