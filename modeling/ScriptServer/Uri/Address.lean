import ScriptServer.Text.CharClass
import ScriptServer.Text.Search

namespace ScriptServer.Uri

/-!
# Numeric addresses

* `parseV4?`, `textOfV4` — addresses of four numbers, which may be written with fewer and in other
  bases.
* `parseV6?`, `textOfV6` — addresses of eight pieces, of which a row of zeros may be left out.
-/

open Text

/-! ### Numbers -/

/-- The value of digits in a base. -/
def numberInBase? (base : Nat) (digits : List Char) : Option Nat :=
  digits.foldlM (fun value c => do
    let digit ← hexValue? c
    if digit < base then return value * base + digit else none) 0

/-- A number in one of three bases: after `0x` sixteen, after another zero eight, else ten. -/
def number? (text : List Char) : Option Nat :=
  match text with
  | [] => none
  | '0' :: 'x' :: digits => numberInBase? 16 digits
  | '0' :: 'X' :: digits => numberInBase? 16 digits
  | '0' :: c :: digits => numberInBase? 8 (c :: digits)
  | digits => numberInBase? 10 digits

/-! ### Four numbers -/

/-- The parts of a name between dots; a dot at the end makes no difference. -/
def dottedParts (name : List Char) : List (List Char) :=
  match (splitAtChar '.' name).reverse with
  | [] :: first :: rest => (first :: rest).reverse
  | parts => parts.reverse

/-- Whether a name can only be meant as an address: its last part is a number. -/
def endsInNumber (name : List Char) : Bool :=
  match (dottedParts name).getLast? with
  | some last => (!last.isEmpty && last.all Char.isDigit) || (number? last).isSome
  | none => false

/-- What a number counts for in front of some places. -/
def placeValue : Nat → Nat
  | 0 => 1
  | places + 1 => 256 * placeValue places

/-- An address, from its numbers.  The last number fills all places that are left. -/
def addressOf? (numbers : List Nat) : Option Nat :=
  match numbers.reverse with
  | [] => none
  | last :: before =>
    let unit := placeValue (4 - before.length)
    if before.length < 4 ∧ before.all (· < 256) ∧ last < unit then
      some (before.reverse.foldl (fun value number => value * 256 + number) 0 * unit + last)
    else none

/-- The address that a name stands for. -/
def parseV4? (name : List Char) : Option Nat := do
  addressOf? (← (dottedParts name).mapM number?)

/-- An address as four numbers. -/
def textOfV4 (address : Nat) : List Char :=
  ['.'].intercalate ([3, 2, 1, 0].map fun place => (address / placeValue place % 256).repr.toList)

/-! ### Eight pieces -/

/-- A piece of one to four hexadecimal digits. -/
def piece? (text : List Char) : Option Nat :=
  if text.isEmpty || 4 < text.length then none else numberInBase? 16 text

/-- A decimal number below 256 without zeros in front. -/
def smallNumber? (text : List Char) : Option Nat := do
  let value ← numberInBase? 10 text
  if value < 256 ∧ text = value.repr.toList then some value else none

/-- The two pieces that four numbers at the end of an address stand for. -/
def lastPieces? (text : List Char) : Option (List Nat) := do
  match ← (splitAtChar '.' text).mapM smallNumber? with
  | [a, b, c, d] => some [a * 256 + b, c * 256 + d]
  | _ => none

/-- The pieces between colons.  The last ones may be written as four numbers. -/
def pieces? : List (List Char) → Option (List Nat)
  | [] => some []
  | [last] => if last.contains '.' then lastPieces? last else (piece? last).map ([·])
  | first :: rest => do return (← piece? first) :: (← pieces? rest)

/-- The pieces of a text, which may be empty. -/
def piecesOf? (text : List Char) : Option (List Nat) :=
  if text.isEmpty then some [] else pieces? (splitAtChar ':' text)

/-- An address of eight pieces.  Two colons in a row stand for at least one zero. -/
def parseV6? (text : List Char) : Option (List Nat) :=
  match cutFirst? [':', ':'] text with
  | some (before, after) => do
    let first ← piecesOf? before
    let last ← piecesOf? after
    let known := first.length + last.length
    if before.contains '.' || 8 ≤ known then none
    else return first ++ List.replicate (8 - known) 0 ++ last
  | none => do
    let pieces ← pieces? (splitAtChar ':' text)
    if pieces.length = 8 then return pieces else none

/-- How many zeros the pieces begin with. -/
def zerosAhead (pieces : List Nat) : Nat := (pieces.takeWhile (· = 0)).length

/-- The place of the longest row of zeros, the first of those, and its length. -/
def longestZeros : List Nat → Nat × Nat
  | [] => (0, 0)
  | piece :: rest =>
    let here := zerosAhead (piece :: rest)
    let (place, length) := longestZeros rest
    if 0 < here ∧ length ≤ here then (0, here) else (place + 1, length)

/-- Pieces with colons between. -/
def textOfPieces (pieces : List Nat) : List Char :=
  [':'].intercalate (pieces.map fun piece => Nat.toDigits 16 piece)

/-- An address of eight pieces.  The longest row of at least two zeros is left out. -/
def textOfV6 (pieces : List Nat) : List Char :=
  let (place, length) := longestZeros pieces
  if length < 2 then textOfPieces pieces
  else textOfPieces (pieces.take place) ++ [':', ':']
    ++ textOfPieces (pieces.drop (place + length))

end ScriptServer.Uri
