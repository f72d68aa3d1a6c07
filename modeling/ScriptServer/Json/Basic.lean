namespace ScriptServer

/-!
# JSON values

Settings, messages and database listings arrive and leave as JSON.

* `Json` — a value.  A whole number keeps its value; any other number keeps its spelling, since
  nothing here computes with fractions and a reader of whole numbers has to refuse them.
* `Json.get?` — a member of an object; of members with one name the last counts.
* `Word.limit32`, `Word.limit64`, `Word.low64` — the widths in which whole numbers are kept.
-/

namespace Word

/-- The first number that does not fit in 32 bits. -/
def limit32 : Nat := 0x100000000

/-- The first number that does not fit in 64 bits. -/
def limit64 : Nat := 0x10000000000000000

/-- What is left of a number in 64 bits. -/
def low64 (n : Nat) : Nat := n % limit64

end Word

/-- A JSON value. -/
inductive Json where
  | null
  | bool (value : Bool)
  /-- A number written without fraction and exponent. -/
  | integer (value : Int)
  /-- Any other number, as it was written. -/
  | decimal (spelling : String)
  | string (value : String)
  | array (items : List Json)
  | object (fields : List (String × Json))
  deriving Inhabited

namespace Json

/-- A natural number as a JSON value. -/
def ofNat (n : Nat) : Json := .integer n

/-- A list of texts as a JSON array. -/
def ofStrings (texts : List String) : Json := .array (texts.map .string)

/-- An optional value, missing ones as `null`. -/
def ofOption {α : Type} (encode : α → Json) : Option α → Json
  | none => .null
  | some a => encode a

/-- Whether a value is `null`. -/
def isNull : Json → Bool
  | .null => true
  | _ => false

/-- The value of the last field with this name. -/
def lastField? (name : String) : List (String × Json) → Option Json
  | [] => none
  | (key, value) :: rest =>
    match lastField? name rest with
    | some later => some later
    | none => if key = name then some value else none

/-- The member of an object with this name. -/
def get? (name : String) : Json → Option Json
  | .object fields => lastField? name fields
  | _ => none

/-- A text. -/
def asString? : Json → Option String
  | .string value => some value
  | _ => none

/-- A truth value. -/
def asBool? : Json → Option Bool
  | .bool value => some value
  | _ => none

/-- A whole number from 0 up to but not including `bound`. -/
def asNatBelow? (bound : Nat) : Json → Option Nat
  | .integer (.ofNat n) => if n < bound then some n else none
  | _ => none

/-- A whole number between two bounds, the upper one not included. -/
def asIntBetween? (low high : Int) : Json → Option Int
  | .integer n => if low ≤ n ∧ n < high then some n else none
  | _ => none

/-- A list. -/
def asArray? : Json → Option (List Json)
  | .array items => some items
  | _ => none

/-- A list of texts. -/
def asStrings? (value : Json) : Option (List String) := do
  (← value.asArray?).mapM asString?

end Json

end ScriptServer
