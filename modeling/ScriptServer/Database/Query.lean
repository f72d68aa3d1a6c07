import ScriptServer.Database.Json

namespace ScriptServer

/-!
# Questions to the database

The server has no connection of its own.  It asks the editor, which answers with JSON.

* `Query` — a question.
* `Listing` — an answer.
* `Connection` — the one who answers.
* `Connection.listing` — the listing for a question, which is empty when the answer is of no use.
-/

/-- A question that the database can answer. -/
inductive Query where
  | catalogs
  | databases
  | tables (database : String)
  | schemas (catalog : String)
  | tablesIn (catalog schema : String)
  | columns (table : TableHandle)
  deriving DecidableEq, Repr

/-- What the database lists. -/
inductive Listing where
  | names (items : List String)
  | columns (items : List Column)
  deriving DecidableEq, Repr

namespace Listing

/-- The names in a listing of names. -/
def toNames : Listing → List String
  | .names items => items
  | .columns _ => []

/-- The columns in a listing of columns. -/
def toColumns : Listing → List Column
  | .names _ => []
  | .columns items => items

end Listing

namespace Query

/-- The name of the method that asks the question. -/
def method : Query → String
  | .catalogs => "listCatalogs"
  | .databases => "listDatabases"
  | .tables _ => "listTables"
  | .schemas _ => "getSchemasByCatalog"
  | .tablesIn _ _ => "getTablesByCatalogAndSchema"
  | .columns _ => "getSchema"

/-- What the question is about, on one line; a listing of everything is about nothing. -/
def subject? : Query → Option String
  | .catalogs => none
  | .databases => none
  | .tables database => some database
  | .schemas catalog => some catalog
  | .tablesIn catalog schema => some (catalog ++ "." ++ schema)
  | .columns (.catalog c s t) => some (c ++ "." ++ s ++ "." ++ t)
  | .columns (.database d t) => some (d ++ "#" ++ t)

/-- The parameters of the question. -/
def params : Query → Json
  | .catalogs => .null
  | .databases => .null
  | .tables database => .object [("database", .string database)]
  | .schemas catalog => .object [("catalog", .string catalog)]
  | .tablesIn catalog schema => .object [("catalog", .string catalog), ("schema", .string schema)]
  | .columns table => .object [("table", table.toJson)]

/-- The listing without items. -/
def nothing : Query → Listing
  | .columns _ => .columns []
  | _ => .names []

/-- Reads an answer to the question. -/
def listing? (query : Query) (answer : Json) : Option Listing :=
  match query with
  | .columns _ => (Column.listOfJson? answer).map .columns
  | _ => answer.asStrings?.map .names

end Query

/-- The one who answers. -/
structure Connection where
  /-- How many milliseconds an answer takes. -/
  latency : Nat
  /-- The answers; a question may fail. -/
  answer : Query → Option Json

namespace Connection

/-- Answers every question at once with an empty list. -/
def silent : Connection := ⟨0, fun _ => some (.array [])⟩

/-- The listing for a question.  It is empty when the question fails or the answer cannot be
    read. -/
def listing (connection : Connection) (query : Query) : Listing :=
  ((connection.answer query).bind query.listing?).getD query.nothing

end Connection

end ScriptServer
