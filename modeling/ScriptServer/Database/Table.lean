namespace ScriptServer

/-!
# Tables and columns of a database

* `TableHandle` — how a table is addressed: through catalog and schema, or by the path of its
  database.
* `Column` — a column of a table.
-/

/-- The address of a table. -/
inductive TableHandle where
  | catalog (catalog schema table : String)
  | database (database table : String)
  deriving DecidableEq, Repr

/-- The name of the table itself. -/
def TableHandle.table : TableHandle → String
  | .catalog _ _ table => table
  | .database _ table => table

/-- A column of a table. -/
structure Column where
  name : String
  dataType : String
  comment : Option String
  deriving DecidableEq, Repr

end ScriptServer
