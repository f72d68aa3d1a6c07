import ScriptServer.Domain.Allowed
import ScriptServer.Domain.Direction
import ScriptServer.Domain.Joining
import ScriptServer.Domain.Mapping
import ScriptServer.Domain.NormalForm
import ScriptServer.Domain.Punycode
import ScriptServer.Text.Search

namespace ScriptServer.Domain

/-!
# Names of hosts

A name is a row of labels with dots between.  Names that a reader takes for the same have one
ASCII form.

* `spell?` — a text in plain spelling.
* `isLabel` — whether a text can be a label.
* `asciiForm?` — the ASCII form of a name.
-/

open Text

/-! ### Plain spelling -/

/-- The distance at which the spelling of a code point lies. -/
def shiftOf? (code : Nat) : Option Int :=
  (shifts.find? fun shift =>
    shift.first ≤ code && code ≤ shift.last && (code - shift.first) % shift.step == 0).map
    (·.distance)

/-- The spelling of a code point in the rows of replacements. -/
def replacementOf? (code : Nat) : Option (List Char) := do
  let (first, row) ← (replacements.takeWhile fun row => row.1 ≤ code).getLast?
  (splitAtChar ' ' row.toList)[code - first]?

/-- The plain spelling of a character, if names may hold it. -/
def spelling? (c : Char) : Option (List Char) :=
  let code := c.toNat
  if code < 0x80 then some [c.toLower]
  else if CharClass.covers ignored c then some []
  else if !CharClass.covers allowed c then none
  else match shiftOf? code with
    | some distance => some [Char.ofNat (code + distance).toNat]
    | none => some ((replacementOf? code).getD [c])

/-- A text in plain spelling and normal form. -/
def spell? (text : List Char) : Option (List Char) :=
  (text.mapM spelling?).map fun spelled => normalForm spelled.flatten

/-! ### Labels -/

/-- What the ASCII form of a label with other characters begins with. -/
def marker : List Char := ['x', 'n', '-', '-']

/-- Whether a text in plain spelling can be a label. -/
def isLabel (text : List Char) : Bool := !text.head?.any isMark && joinersFit text

/-- A label, from its plain spelling, which may already be an ASCII form. -/
def readLabel? (label : List Char) : Option (List Char) :=
  match after? marker label with
  | some form => do
    let text ← Punycode.decode? form
    if text.all Punycode.isAscii || spell? text ≠ some text then none
    if isLabel text then some text else none
  | none => if isLabel label then some label else none

/-- The ASCII form of a label. -/
def labelForm (label : List Char) : List Char :=
  if label.all Punycode.isAscii then label else marker ++ Punycode.encode label

/-- The ASCII form of a name. -/
def asciiForm? (name : List Char) : Option (List Char) := do
  let labels ← (splitAtChar '.' (← spell? name)).mapM readLabel?
  if labels.any isMixed && !labels.all runsClearly then none
  return ['.'].intercalate (labels.map labelForm)

end ScriptServer.Domain
