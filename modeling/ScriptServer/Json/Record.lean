import ScriptServer.Json.Basic

namespace ScriptServer.Json

/-!
# Records

A record with named fields is an object, or an array that lists its fields in a fixed order.

* `Json.record?` — the fields of a record by name; an array lists all of them.
* `Json.partialRecord?` — the same, where an array may leave out fields at its end.
* `Json.optional` — reads a field that may be left out.
-/

/-- The values by name, from a list of values in the order of the names. -/
def fieldOf (names : List String) (items : List Json) (name : String) : Option Json :=
  (names.zip items).lookup name

/-- The fields of a record.  An object may have further members; an array may leave out fields
    at its end, but has no room for more. -/
def partialRecord? (names : List String) (value : Json) : Option (String → Option Json) :=
  match value with
  | .object fields => some fun name => lastField? name fields
  | .array items => if items.length ≤ names.length then some (fieldOf names items) else none
  | _ => none

/-- The fields of a record.  An object may have further members; an array has exactly the
    fields. -/
def record? (names : List String) (value : Json) : Option (String → Option Json) :=
  match value with
  | .array items => if items.length = names.length then some (fieldOf names items) else none
  | value => value.partialRecord? names

/-- The value of a field, or a default where it is left out; a field that is there must be
    readable. -/
def optional {α : Type} (default : α) (decode : Json → Option α) : Option Json → Option α
  | none => some default
  | some value => decode value

/-- Reads a value that may be `null`. -/
def nullable {α : Type} (decode : Json → Option α) : Json → Option (Option α)
  | .null => some none
  | value => (decode value).map some

end ScriptServer.Json
