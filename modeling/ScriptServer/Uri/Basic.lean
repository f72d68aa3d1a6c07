import ScriptServer.Text.CharClass

namespace ScriptServer

/-!
# Uniform resource identifiers

* `Uri` — the identifier of a document, in normal form.  Two identifiers denote the same
  document for the server exactly when their texts are equal.
* `Uri.escape` — a text with the bytes of some characters written as a percent sign and two
  hexadecimal digits.
* `Uri.unescape` — the bytes that a text with escapes stands for.
-/

/-- The identifier of a document. -/
structure Uri where
  text : String
  deriving DecidableEq, Repr

namespace Uri

/-- The bytes of a character in UTF-8. -/
def bytesOf (c : Char) : List Nat :=
  let n := c.toNat
  if n < 0x80 then [n]
  else if n < 0x800 then [0xC0 + n / 0x40, 0x80 + n % 0x40]
  else if n < 0x10000 then [0xE0 + n / 0x1000, 0x80 + n / 0x40 % 0x40, 0x80 + n % 0x40]
  else [0xF0 + n / 0x40000, 0x80 + n / 0x1000 % 0x40, 0x80 + n / 0x40 % 0x40, 0x80 + n % 0x40]

/-- A byte as an escape. -/
def escapeByte (byte : Nat) : List Char :=
  ['%', Text.hexDigit 'A' (byte / 16), Text.hexDigit 'A' (byte % 16)]

/-- Whether a character is a control character or lies outside ASCII; those are escaped
    everywhere. -/
def isControl (c : Char) : Bool := decide (c.toNat < 0x20) || decide (0x7F ≤ c.toNat)

/-- A text in which the characters of a set, and all control characters, are escaped. -/
def escape (inSet : Char → Bool) (text : List Char) : List Char :=
  text.flatMap fun c => if isControl c || inSet c then (bytesOf c).flatMap escapeByte else [c]

/-- What is escaped in a fragment. -/
def inFragmentSet (c : Char) : Bool := [' ', '"', '<', '>', '\x60'].contains c

/-- What is escaped in a query. -/
def inQuerySet (c : Char) : Bool := [' ', '"', '#', '<', '>'].contains c

/-- What is escaped in a path. -/
def inPathSet (c : Char) : Bool :=
  inFragmentSet c || ['#', '?', '\x7b', '\x7d'].contains c

/-- What is escaped in a file name that becomes part of a path. -/
def inNameSet (c : Char) : Bool := inPathSet c || ['/', '%', '\\'].contains c

/-- The bytes that a text stands for.  A percent sign without two digits after it stands for
    itself. -/
def unescape : List Char → List Nat
  | [] => []
  | '%' :: a :: b :: rest =>
    match Text.hexValue? a, Text.hexValue? b with
    | some high, some low => (high * 16 + low) :: unescape rest
    | _, _ => 0x25 :: unescape (a :: b :: rest)
  | c :: rest => bytesOf c ++ unescape rest

/-- The text whose bytes in UTF-8 are given; bytes that are no UTF-8 have none. -/
def textOfBytes? (bytes : List Nat) : Option String :=
  String.fromUTF8? ⟨(bytes.map (·.toUInt8)).toArray⟩

end Uri

end ScriptServer
