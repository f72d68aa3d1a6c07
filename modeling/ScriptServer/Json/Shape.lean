import ScriptServer.Json.Basic

namespace ScriptServer.Json

/-!
# Shapes of values

A message may hold much that the server does not need and still has to find well formed.  A shape
tests a value without taking anything from it.

* `Shape` — a test on values.
* `Shape.record` — values with named fields, as an object or as an array of all fields in order.
* `Shape.members` — the same as an object only.
* `Shape.either` — values of one of two shapes.
-/

/-- A test on values. -/
abbrev Shape := Json → Bool

/-- What a missing field means. -/
inductive Presence where
  /-- The record is malformed. -/
  | required
  /-- Nothing in an object; an array has to say `null`. -/
  | optional
  /-- Nothing, and arrays may end before it. -/
  | defaulted
  deriving DecidableEq, Repr

/-- A named field of a record. -/
structure Field where
  name : String
  presence : Presence
  shape : Shape

namespace Shape

/-- Any value. -/
def any : Shape := fun _ => true

/-- A truth value. -/
def flag : Shape
  | .bool _ => true
  | _ => false

/-- A text. -/
def text : Shape
  | .string _ => true
  | _ => false

/-- A number of any kind. -/
def number : Shape
  | .integer _ => true
  | .decimal _ => true
  | _ => false

/-- A whole number between two bounds, the upper one not included. -/
def whole (low high : Int) : Shape := fun value => (value.asIntBetween? low high).isSome

/-- A natural number that fits in 32 bits. -/
def count : Shape := whole 0 0x100000000

/-- A whole number that fits in 32 bits with its sign. -/
def code : Shape := whole (-0x80000000) 0x80000000

/-- One of some names.  A name may also be written as the only key of an object, over `null`. -/
def choice (names : List String) : Shape
  | .string name => names.contains name
  | .object [(name, .null)] => names.contains name
  | _ => false

/-- A value or `null`. -/
def nullable (shape : Shape) : Shape
  | .null => true
  | value => shape value

/-- A list of values. -/
def list (item : Shape) : Shape
  | .array items => items.all item
  | _ => false

/-- Values by keys. -/
def table (key : String → Bool) (shape : Shape) : Shape
  | .object fields => fields.all fun field => key field.1 && shape field.2
  | _ => false

/-- A value of one of two shapes. -/
def either (first second : Shape) : Shape := fun value => first value || second value

end Shape

namespace Field

/-- A field that has to be there. -/
def required (name : String) (shape : Shape) : Field := ⟨name, .required, shape⟩

/-- A field that may be missing or `null`. -/
def optional (name : String) (shape : Shape) : Field := ⟨name, .optional, Shape.nullable shape⟩

/-- A field that may be missing. -/
def defaulted (name : String) (shape : Shape) : Field := ⟨name, .defaulted, shape⟩

/-- Whether the field may have a value, or may do without. -/
def admits (field : Field) : Option Json → Bool
  | some value => field.shape value
  | none => field.presence != .required

/-- Whether a row of values lists all fields in order. -/
def listedIn : List Field → List Json → Bool
  | [], items => items.isEmpty
  | field :: fields, item :: items => field.shape item && listedIn fields items
  | fields, [] => fields.all fun field => field.presence == .defaulted

end Field

namespace Shape

/-- An object with some fields, and perhaps others. -/
def members (fields : List Field) : Shape
  | .object present => fields.all fun field => field.admits (lastField? field.name present)
  | _ => false

/-- A record with some fields. -/
def record (fields : List Field) : Shape
  | .array items => Field.listedIn fields items
  | value => members fields value

/-- An object with some fields, in which all other members have one shape. -/
def membersAnd (fields : List Field) (others : Shape) : Shape
  | .object present =>
    members fields (.object present) && present.all fun member =>
      fields.any (fun field => field.name == member.1) || others member.2
  | _ => false

end Shape

end ScriptServer.Json
