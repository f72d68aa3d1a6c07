import ScriptServer.Text.CharClass.Alphabetic
import ScriptServer.Text.CharClass.Mark
import ScriptServer.Text.CharClass.Number

namespace ScriptServer.Text

/-!
# Classes of characters

The classes that scripts are read with.  They follow the Unicode properties, so a name may
hold letters of any script; the tables stand in the modules below this one.

* `isBlank` — white space, the line breaks among it.
* `isWord` — what continues a declared name: letters, marks, digits, connectors, joiners.
* `isIdent` — what continues the identifier under a cursor: letters, numbers, underscore.
* `startsName` — what a declared name begins with: an ASCII letter or an underscore.
* `hexValue?`, `hexDigit` — from a hexadecimal digit to its value and back.

`isWord` and `isIdent` differ on purpose: a combining accent is a word character but no
identifier character, and a fraction such as `½` is the other way round, as are the letters of the
latest edition of Unicode.
-/

/-- Whether one of the inclusive ranges holds the character. -/
def CharClass.covers (table : List (Nat × Nat)) (c : Char) : Bool :=
  table.any fun range => decide (range.1 ≤ c.toNat) && decide (c.toNat ≤ range.2)

/-- The code points with the Unicode property *White Space*. -/
def CharClass.whiteSpace : List (Nat × Nat) :=
  [(0x0009, 0x000D), (0x0020, 0x0020), (0x0085, 0x0085), (0x00A0, 0x00A0), (0x1680, 0x1680),
   (0x2000, 0x200A), (0x2028, 0x2029), (0x202F, 0x202F), (0x205F, 0x205F), (0x3000, 0x3000)]

/-- The letters, vowel signs and numbers that the latest edition of Unicode has added.  The
    identifier under a cursor may hold them, and declared names may not yet. -/
def CharClass.recent : List (Nat × Nat) :=
  [(0x088F, 0x088F), (0x0C5C, 0x0C5C), (0x0CDC, 0x0CDC), (0xA7CE, 0xA7CF), (0xA7D2, 0xA7D2),
   (0xA7D4, 0xA7D4), (0xA7F1, 0xA7F1), (0x10940, 0x10959), (0x10EC5, 0x10EC7), (0x10EFA, 0x10EFB),
   (0x11B60, 0x11B67), (0x11DB0, 0x11DDB), (0x11DE0, 0x11DE9), (0x16EA0, 0x16EB8),
   (0x16EBB, 0x16ED3), (0x16FF2, 0x16FF6), (0x187F8, 0x187FF), (0x18D09, 0x18D1E),
   (0x18D80, 0x18DF2), (0x1E6C0, 0x1E6DE), (0x1E6E0, 0x1E6F5), (0x1E6FE, 0x1E6FF),
   (0x2B73A, 0x2B73F), (0x2CEA2, 0x2CEAD), (0x323B0, 0x33479)]

/-- White space. -/
def isBlank (c : Char) : Bool :=
  CharClass.covers CharClass.whiteSpace c

/-- A letter of any script; the tables are only consulted outside ASCII. -/
def isLetter (c : Char) : Bool :=
  if c.toNat < 0x80 then c.isAlpha else CharClass.covers CharClass.alphabetic c

/-- A decimal digit of any script. -/
def isDigit (c : Char) : Bool :=
  if c.toNat < 0x80 then c.isDigit else CharClass.covers CharClass.decimalDigit c

/-- A combining mark. -/
def isMark (c : Char) : Bool :=
  CharClass.covers CharClass.nonspacingMark c || CharClass.covers CharClass.spacingMark c

/-- A combining mark, a connector or one of the two joiners: no letter, yet part of a word. -/
def joinsWord (c : Char) : Bool :=
  if c.toNat < 0x80 then c == '_'
  else isMark c || CharClass.covers CharClass.connector c
    || c.toNat == 0x200C || c.toNat == 0x200D

/-- What continues a declared name. -/
def isWord (c : Char) : Bool :=
  isLetter c || isDigit c || joinsWord c

/-- What continues the identifier under a cursor. -/
def isIdent (c : Char) : Bool :=
  isLetter c || isDigit c || c == '_'
    || (decide (0x80 ≤ c.toNat)
      && (CharClass.covers CharClass.otherNumber c || CharClass.covers CharClass.recent c))

/-- What a declared name begins with. -/
def startsName (c : Char) : Bool :=
  c.isAlpha || c == '_'

/-- The value of a hexadecimal digit, in upper or lower case. -/
def hexValue? (c : Char) : Option Nat :=
  if '0' ≤ c ∧ c ≤ '9' then some (c.toNat - '0'.toNat)
  else if 'a' ≤ c ∧ c ≤ 'f' then some (c.toNat - 'a'.toNat + 10)
  else if 'A' ≤ c ∧ c ≤ 'F' then some (c.toNat - 'A'.toNat + 10)
  else none

/-- The digit for a value below sixteen; `ten` is the digit for ten, which sets the case. -/
def hexDigit (ten : Char) (n : Nat) : Char :=
  if n < 10 then Char.ofNat ('0'.toNat + n) else Char.ofNat (ten.toNat + (n - 10))

end ScriptServer.Text
