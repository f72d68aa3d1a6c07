import ScriptServer.Domain.Composition
import ScriptServer.Domain.MarkClass

namespace ScriptServer.Domain

/-!
# Normal form

One text may be written in several ways: with letters and marks apart or as one character, and
with marks of different classes in any order.

* `apart` — a text with letters and marks apart, the marks by class.
* `joined` — such a text with as many letters and marks as one character as can be.
* `normalForm` — the way of writing that names are compared in.
-/

/-! ### Syllables

Korean syllables are formed by rule: a lead, a vowel and perhaps a tail. -/

/-- The code point of the first syllable. -/
def firstSyllable : Nat := 0xAC00

/-- The number of a syllable. -/
def syllableNumber? (c : Char) : Option Nat :=
  if firstSyllable ≤ c.toNat ∧ c.toNat < firstSyllable + 19 * 21 * 28 then
    some (c.toNat - firstSyllable)
  else none

/-- The two characters that form a syllable. -/
def syllableParts (number : Nat) : Char × Char :=
  if number % 28 = 0 then
    (Char.ofNat (0x1100 + number / 28 / 21), Char.ofNat (0x1161 + number / 28 % 21))
  else
    (Char.ofNat (firstSyllable + number / 28 * 28), Char.ofNat (0x11A7 + number % 28))

/-- The syllable that two characters form. -/
def syllable? (a b : Char) : Option Char :=
  if 0x1100 ≤ a.toNat ∧ a.toNat < 0x1113 ∧ 0x1161 ≤ b.toNat ∧ b.toNat < 0x1176 then
    some (Char.ofNat (firstSyllable + ((a.toNat - 0x1100) * 21 + (b.toNat - 0x1161)) * 28))
  else match syllableNumber? a with
    | some number =>
      if number % 28 = 0 ∧ 0x11A7 < b.toNat ∧ b.toNat < 0x11C3 then
        some (Char.ofNat (a.toNat + (b.toNat - 0x11A7)))
      else none
    | none => none

/-! ### Pairs -/

/-- The second of the pair whose first is given. -/
def partner? (c : Char) (pairs : List (Char × Char)) : Option Char := pairs.lookup c

/-- The letter and the mark that form a character. -/
def parts? (c : Char) : Option (Char × Char) :=
  match syllableNumber? c with
  | some number => some (syllableParts number)
  | none =>
    let found := composites.findSome? fun (mark, letters, forms) =>
      (partner? c (forms.toList.zip letters.toList)).map fun letter => (letter, Char.ofNat mark)
    found.or ((rareComposites.find? fun (_, _, form) => form = c.toNat).map
      fun (first, second, _) => (Char.ofNat first, Char.ofNat second))

/-- The character that a letter and a mark form. -/
def composite? (letter mark : Char) : Option Char :=
  match syllable? letter mark with
  | some syllable => some syllable
  | none =>
    let found := composites.findSome? fun (other, letters, forms) =>
      if other = mark.toNat then partner? letter (letters.toList.zip forms.toList) else none
    found.or ((rareComposites.find? fun (first, second, _) =>
        first = letter.toNat && second = mark.toNat).map fun (_, _, form) => Char.ofNat form)

/-! ### Letters and marks apart -/

/-- A text in which every character is replaced by its parts. -/
def split (text : List Char) : List Char :=
  text.flatMap fun c => match parts? c with
    | some (letter, mark) => [letter, mark]
    | none => [c]

/-- A character in front of a text, behind the marks of lower class. -/
def insertByClass (c : Char) : List Char → List Char
  | [] => [c]
  | d :: rest =>
    if 0 < markClass d ∧ markClass d < markClass c then d :: insertByClass c rest
    else c :: d :: rest

/-- A text with letters and marks apart, the marks by class.  No character has more than three
    marks. -/
def apart (text : List Char) : List Char :=
  (split (split (split text))).foldr insertByClass []

/-! ### Letters and marks together -/

/-- The rest of a text after a letter; `marks` stand between the letter and the rest, and cannot
    be joined with it. -/
def joinedAfter (letter : Char) (marks : List Char) : List Char → List Char
  | [] => letter :: marks
  | c :: rest =>
    let isBlocked := marks.getLast?.any fun mark => markClass c ≤ markClass mark
    match if isBlocked then none else composite? letter c with
    | some form => joinedAfter form marks rest
    | none =>
      if markClass c = 0 then letter :: marks ++ joinedAfter c [] rest
      else joinedAfter letter (marks ++ [c]) rest

/-- A text with as many letters and marks as one character as can be. -/
def joined : List Char → List Char
  | [] => []
  | c :: rest => joinedAfter c [] rest

/-- The way of writing that names are compared in. -/
def normalForm (text : List Char) : List Char :=
  if text.all fun c => c.toNat < 0x300 then text else joined (apart text)

end ScriptServer.Domain
