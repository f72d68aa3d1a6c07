import ScriptServer.Json.Basic
import ScriptServer.Text.CharClass

namespace ScriptServer.Json

/-!
# Reading JSON

* `Json.parse?` — the value a text denotes, or nothing when it is not JSON.

Every value takes up at least one character, so reading with as many steps as the text has
characters never runs out of them.
-/

/-- The rest of a text after white space. -/
def skipSpace : List Char → List Char
  | [] => []
  | c :: rest =>
    if c = ' ' ∨ c = '\t' ∨ c = '\n' ∨ c = '\r' then skipSpace rest else c :: rest

/-- Four hexadecimal digits as one code unit, and the rest. -/
def readUnit? : List Char → Option (Nat × List Char)
  | a :: b :: c :: d :: rest => do
    let a ← Text.hexValue? a
    let b ← Text.hexValue? b
    let c ← Text.hexValue? c
    let d ← Text.hexValue? d
    return (((a * 16 + b) * 16 + c) * 16 + d, rest)
  | _ => none

/-- The character that a short escape stands for. -/
def escaped? : Char → Option Char
  | '"' => some '"'
  | '\\' => some '\\'
  | '/' => some '/'
  | 'b' => some '\x08'
  | 'f' => some '\x0c'
  | 'n' => some '\n'
  | 'r' => some '\r'
  | 't' => some '\t'
  | _ => none

/-- A character given by its code units: one, or two that form a surrogate pair. -/
def readCodePoint? (text : List Char) : Option (Char × List Char) := do
  let (unit, rest) ← readUnit? text
  if 0xD800 ≤ unit ∧ unit < 0xDC00 then
    match rest with
    | '\\' :: 'u' :: rest => do
      let (low, rest) ← readUnit? rest
      if 0xDC00 ≤ low ∧ low < 0xE000 then
        return (Char.ofNat (0x10000 + (unit - 0xD800) * 0x400 + (low - 0xDC00)), rest)
      else none
    | _ => none
  else if 0xDC00 ≤ unit ∧ unit < 0xE000 then none
  else return (Char.ofNat unit, rest)

/-- The characters of a string up to its closing quote, and the rest. -/
def readChars? : Nat → List Char → Option (List Char × List Char)
  | 0, _ => none
  | _ + 1, [] => none
  | _ + 1, '"' :: rest => some ([], rest)
  | steps + 1, '\\' :: 'u' :: rest => do
    let (c, rest) ← readCodePoint? rest
    let (chars, rest) ← readChars? steps rest
    return (c :: chars, rest)
  | steps + 1, '\\' :: c :: rest => do
    let c ← escaped? c
    let (chars, rest) ← readChars? steps rest
    return (c :: chars, rest)
  | steps + 1, c :: rest =>
    if c.toNat < 0x20 then none
    else do
      let (chars, rest) ← readChars? steps rest
      return (c :: chars, rest)

/-- The number that decimal digits denote. -/
def digitsValue (digits : List Char) : Nat :=
  digits.foldl (fun n c => n * 10 + (c.toNat - '0'.toNat)) 0

/-- A run of digits, which must not be empty, and the rest. -/
def readDigits? (text : List Char) : Option (List Char × List Char) :=
  match text.takeWhile Char.isDigit with
  | [] => none
  | digits => some (digits, text.dropWhile Char.isDigit)

/-- The fraction of a number as it is written, if there is one. -/
def readFraction? : List Char → Option (List Char × List Char)
  | '.' :: rest => do
    let (digits, rest) ← readDigits? rest
    return ('.' :: digits, rest)
  | text => some ([], text)

/-- The exponent of a number as it is written, if there is one. -/
def readExponent? : List Char → Option (List Char × List Char)
  | c :: rest =>
    if c = 'e' ∨ c = 'E' then do
      let (sign, rest) := match rest with
        | '+' :: rest => (['+'], rest)
        | '-' :: rest => (['-'], rest)
        | rest => ([], rest)
      let (digits, rest) ← readDigits? rest
      return (c :: sign ++ digits, rest)
    else some ([], c :: rest)
  | [] => some ([], [])

/-- A number and the rest.  Zeros may not lead, and minus zero is no whole number. -/
def readNumber? (text : List Char) : Option (Json × List Char) := do
  let (negative, unsigned) := match text with
    | '-' :: rest => (true, rest)
    | rest => (false, rest)
  let (digits, rest) ← readDigits? unsigned
  if digits.head? = some '0' ∧ digits.length ≠ 1 then none
  let (fraction, rest) ← readFraction? rest
  let (exponent, rest) ← readExponent? rest
  let value := digitsValue digits
  if fraction.isEmpty ∧ exponent.isEmpty ∧ ¬(negative ∧ value = 0) then
    return (.integer (if negative then -value else value), rest)
  else
    let sign := if negative then ['-'] else []
    return (.decimal (String.ofList (sign ++ digits ++ fraction ++ exponent)), rest)

mutual

/-- A value and the rest of the text. -/
def readValue? : Nat → List Char → Option (Json × List Char)
  | 0, _ => none
  | steps + 1, text =>
    match skipSpace text with
    | 'n' :: 'u' :: 'l' :: 'l' :: rest => some (.null, rest)
    | 't' :: 'r' :: 'u' :: 'e' :: rest => some (.bool true, rest)
    | 'f' :: 'a' :: 'l' :: 's' :: 'e' :: rest => some (.bool false, rest)
    | '"' :: rest => do
      let (chars, rest) ← readChars? (rest.length + 1) rest
      return (.string (String.ofList chars), rest)
    | '[' :: rest =>
      match skipSpace rest with
      | ']' :: rest => some (.array [], rest)
      | rest => do
        let (items, rest) ← readItems? steps rest
        return (.array items, rest)
    | '\x7b' :: rest =>
      match skipSpace rest with
      | '\x7d' :: rest => some (.object [], rest)
      | rest => do
        let (fields, rest) ← readFields? steps rest
        return (.object fields, rest)
    | rest => readNumber? rest

/-- The items of an array up to its closing bracket, and the rest. -/
def readItems? : Nat → List Char → Option (List Json × List Char)
  | 0, _ => none
  | steps + 1, text => do
    let (item, rest) ← readValue? steps text
    match skipSpace rest with
    | ',' :: rest =>
      let (items, rest) ← readItems? steps rest
      return (item :: items, rest)
    | ']' :: rest => return ([item], rest)
    | _ => none

/-- The fields of an object up to its closing brace, and the rest. -/
def readFields? : Nat → List Char → Option (List (String × Json) × List Char)
  | 0, _ => none
  | steps + 1, text =>
    match skipSpace text with
    | '"' :: rest => do
      let (key, rest) ← readChars? (rest.length + 1) rest
      match skipSpace rest with
      | ':' :: rest =>
        let (value, rest) ← readValue? steps rest
        match skipSpace rest with
        | ',' :: rest =>
          let (fields, rest) ← readFields? steps rest
          return ((String.ofList key, value) :: fields, rest)
        | '\x7d' :: rest => return ([(String.ofList key, value)], rest)
        | _ => none
      | _ => none
    | _ => none

end

/-- The value that a text denotes. -/
def parse? (text : String) : Option Json :=
  let chars := text.toList
  match readValue? (chars.length + 1) chars with
  | some (value, rest) => if (skipSpace rest).isEmpty then some value else none
  | none => none

end ScriptServer.Json
