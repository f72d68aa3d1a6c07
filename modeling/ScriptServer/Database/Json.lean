import ScriptServer.Database.Table
import ScriptServer.Json.Record

namespace ScriptServer

/-!
# Tables and columns as JSON

* `TableHandle.ofJson?`, `TableHandle.toJson` — addresses of tables.
* `Column.ofJson?`, `Column.listOfJson?` — columns and lists of them.
-/

namespace TableHandle

/-- The fields of an address through catalog and schema. -/
def catalogNames : List String := ["kind", "catalog", "schema", "table"]

/-- The fields of an address by the path of the database. -/
def databaseNames : List String := ["kind", "database", "table"]

/-- An address through catalog and schema, from its fields. -/
def catalogOf? (field : String → Option Json) : Option TableHandle := do
  return .catalog (← (← field "catalog").asString?) (← (← field "schema").asString?)
    (← (← field "table").asString?)

/-- An address by the path of the database, from its fields. -/
def databaseOf? (field : String → Option Json) : Option TableHandle := do
  return .database (← (← field "database").asString?) (← (← field "table").asString?)

/-- Reads an address: a record whose first field `kind` tells the form. -/
def ofJson? (value : Json) : Option TableHandle := do
  let kind ← (← (← value.partialRecord? catalogNames) "kind").asString?
  match kind with
  | "catalog" => catalogOf? (← value.partialRecord? catalogNames)
  | "database" => databaseOf? (← value.partialRecord? databaseNames)
  | _ => none

/-- An address as JSON. -/
def toJson : TableHandle → Json
  | .catalog c s t =>
    .object [("kind", .string "catalog"), ("catalog", .string c), ("schema", .string s),
      ("table", .string t)]
  | .database d t =>
    .object [("kind", .string "database"), ("database", .string d), ("table", .string t)]

end TableHandle

namespace Column

/-- Reads a column.  Only its name is required. -/
def ofJson? (value : Json) : Option Column := do
  let field ← value.partialRecord? ["name", "type", "comment"]
  let name ← (← field "name").asString?
  let dataType ← Json.optional "" Json.asString? (field "type")
  let comment ← Json.optional none (Json.nullable Json.asString?) (field "comment")
  return { name, dataType, comment }

/-- Reads a list of columns. -/
def listOfJson? (value : Json) : Option (List Column) := do
  (← value.asArray?).mapM ofJson?

end Column

end ScriptServer
