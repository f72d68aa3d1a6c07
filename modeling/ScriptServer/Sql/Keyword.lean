import ScriptServer.Text.Search

namespace ScriptServer.Sql

/-!
# Keywords

Keywords are found where a word begins, in upper or lower case.

* `readKeyword?`, `readPhrase?` — a keyword, or several with blanks between them.
* `atWordStarts` — the first place where a word begins and something can be read.
-/

open Text

/-- Whether a character is a form of a lower-case letter.  Two letters have a form outside
    ASCII: the long s and the Kelvin sign. -/
def isFormOf (letter c : Char) : Bool :=
  c.toLower == letter || (letter == 's' && c.toNat == 0x017F)
    || (letter == 'k' && c.toNat == 0x212A)

/-- The rest of a text that begins with a keyword, which is given in lower case. -/
def readKeyword? : Line → Line → Option Line
  | [], text => some text
  | _ :: _, [] => none
  | letter :: keyword, c :: text =>
    if isFormOf letter c then readKeyword? keyword text else none

/-- The rest of a text that begins with keywords and blanks between them. -/
def readPhrase? : List Line → Line → Option Line
  | [], text => some text
  | [keyword], text => readKeyword? keyword text
  | keyword :: phrase, text => do
    readPhrase? phrase (← skipBlanks? (← readKeyword? keyword text))

/-- The rest of a text after a phrase and the blanks that have to follow it. -/
def afterPhrase? (phrase : List Line) (text : Line) : Option Line := do
  skipBlanks? (← readPhrase? phrase text)

/-- The first result of reading where a word begins; the character before the text tells
    whether one begins there. -/
def atWordStarts {α : Type} (read : Line → Option α) : Option Char → Line → Option α
  | _, [] => none
  | previous, c :: rest =>
    match if previous.any isWord then none else read (c :: rest) with
    | some result => some result
    | none => atWordStarts read (some c) rest

/-- The first result of reading at the beginning of a word. -/
def search {α : Type} (read : Line → Option α) (text : Line) : Option α :=
  atWordStarts read none text

end ScriptServer.Sql
