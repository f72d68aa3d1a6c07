import ScriptServer.Database.Table
import ScriptServer.Sql.Keyword

namespace ScriptServer

/-!
# SQL clauses around the cursor

A statement is given by its text before the cursor and its text after it.  The clause says which
kind of database object is being typed, and which table it belongs to.

* `Clause` — the kinds of clauses.
* `Sql.fromTarget?` — the table that a statement selects from, if it can be addressed.
* `Clause.classify?` — the clause that the cursor is in.
-/

/-- A clause in which database objects are typed. -/
inductive Clause where
  /-- A table after `from`, with the complete parts of the dotted path typed so far. -/
  | source (segments : List String)
  /-- The database in `loadTable("…`. -/
  | loadDatabase
  /-- The table in `loadTable("database", …`. -/
  | loadTable (database : String)
  /-- The target of a statement that changes a table or creates one. -/
  | target (segments : List String) (creating : Bool)
  /-- Columns in a select list, a filter or a grouping. -/
  | columns (table : TableHandle)
  /-- Columns to sort by. -/
  | orderBy (table : TableHandle)
  deriving DecidableEq, Repr

namespace Sql

open Text

/-! ### Words of the language -/

/-- The name of the function that loads a table, with its parenthesis. -/
def loadTableWord : Line := ['l', 'o', 'a', 'd', 't', 'a', 'b', 'l', 'e', '(']

/-- The word before the table of a query. -/
def fromWord : Line := ['f', 'r', 'o', 'm']

/-- The word `by`. -/
def byWord : Line := ['b', 'y']

/-- The word `table`. -/
def tableWord : Line := ['t', 'a', 'b', 'l', 'e']

/-- The phrase that begins a statement which creates a table. -/
def createPhrase : List Line := [['c', 'r', 'e', 'a', 't', 'e'], tableWord]

/-- The other phrases before the table that a statement changes. -/
def changePhrases : List (List Line) :=
  [[['u', 'p', 'd', 'a', 't', 'e']], [['d', 'e', 'l', 'e', 't', 'e'], fromWord],
   [['a', 'l', 't', 'e', 'r'], tableWord], [['d', 'r', 'o', 'p'], tableWord]]

/-- The phrases that begin a filter or a grouping. -/
def filterPhrases : List (List Line) :=
  [[['w', 'h', 'e', 'r', 'e']], [['g', 'r', 'o', 'u', 'p'], byWord],
   [['c', 'o', 'n', 't', 'e', 'x', 't'], byWord], [['p', 'i', 'v', 'o', 't'], byWord],
   [['h', 'a', 'v', 'i', 'n', 'g']]]

/-- The words that begin a select list. -/
def selectPhrases : List (List Line) :=
  [[['s', 'e', 'l', 'e', 'c', 't']], [['e', 'x', 'e', 'c']]]

/-- The phrase before columns to sort by. -/
def orderPhrase : List Line := [['o', 'r', 'd', 'e', 'r'], byWord]

/-! ### Reading parts of clauses -/

/-- A text in double quotes that is not empty, and the rest. -/
def readQuoted? (text : Line) : Option (Line × Line) := do
  let inside ← after? ['"'] text
  let rest ← after? ['"'] (inside.dropWhile (· != '"'))
  match inside.takeWhile (· != '"') with
  | [] => none
  | content => return (content, rest)

/-- The arguments of a call that loads a table, from its opening parenthesis on. -/
def loadArguments? (text : Line) : Option Line :=
  (readKeyword? loadTableWord text).map trimStart

/-- Whether the cursor stands in the database argument, which is still open. -/
def openDatabase? (text : Line) : Option Unit := do
  let inside ← after? ['"'] (← loadArguments? text)
  if '"' ∈ inside then none else some ()

/-- The database, when the cursor stands in the table argument, which may be in quotes. -/
def openTable? (text : Line) : Option Line := do
  let (database, rest) ← readQuoted? (← loadArguments? text)
  let rest ← after? [','] (trimStart rest)
  let rest := trimStart rest
  if ((after? ['"'] rest).getD rest).all isWord then some database else none

/-- A dotted path that goes on to the end of the text. -/
def pathToEnd? (text : Line) : Option Line :=
  if text.all fun c => isWord c || c == '.' then some text else none

/-- The path after a phrase, when the text ends with it. -/
def pathAfter? (phrase : List Line) (text : Line) : Option Line := do
  pathToEnd? (← afterPhrase? phrase text)

/-- The path of the table to be changed or created, and whether it is created. -/
def changeTarget? (text : Line) : Option (Line × Bool) :=
  match changePhrases.findSome? (pathAfter? · text) with
  | some path => some (path, false)
  | none => (pathAfter? createPhrase text).map fun path => (path, true)

/-- Whether one of some phrases begins a text in which no statement ends. -/
def openPhrase? (phrases : List (List Line)) (text : Line) : Option Line :=
  phrases.findSome? fun phrase => do
    let rest ← afterPhrase? phrase text
    if ';' ∈ rest then none else some text

/-- Whether a sort clause goes on to the end of the text. -/
def openOrder? (text : Line) : Option Unit := do
  let rest ← afterPhrase? orderPhrase text
  if rest.all fun c => isWord c || isBlank c || c == ',' then some () else none

/-- The word before the table of a query, on its own. -/
def fromAlone? (text : Line) : Option Unit := do
  let rest ← readKeyword? fromWord text
  if rest.head?.any isWord then none else some ()

/-- A table that is loaded from a database. -/
def loadedTable? (text : Line) : Option TableHandle := do
  let (database, rest) ← readQuoted? (← loadArguments? text)
  let rest ← after? [','] (trimStart rest)
  let (table, rest) ← readQuoted? (trimStart rest)
  let _ ← after? [')'] (trimStart rest)
  return .database (String.ofList database) (String.ofList table)

/-- A table with its catalog and schema. -/
def dottedTable? (text : Line) : Option TableHandle := do
  let (catalog, rest) ← readWord? text
  let (schema, rest) ← readWord? (← after? ['.'] rest)
  let (table, _) ← readWord? (← after? ['.'] rest)
  return .catalog (String.ofList catalog) (String.ofList schema) (String.ofList table)

/-- The table after `from`. -/
def tableAfterFrom? (text : Line) : Option TableHandle := do
  let rest ← afterPhrase? [fromWord] text
  match loadedTable? rest with
  | some table => some table
  | none => dottedTable? rest

/-- The first table in a statement that follows `from` and can be addressed. -/
def fromTarget? (statement : Line) : Option TableHandle :=
  search tableAfterFrom? statement

/-- The complete parts of a dotted path that is being typed: all but the last. -/
def completeSegments (path : Line) : List String :=
  (splitAtChar '.' path).dropLast.map String.ofList

end Sql

namespace Clause

open Sql

/-- How strongly candidates for this clause push others aside. -/
def priority : Clause → Nat
  | .source _ => 3
  | .loadDatabase => 3
  | .loadTable _ => 3
  | .target _ _ => 3
  | .orderBy _ => 2
  | .columns _ => 1

/-- The clause of a select list that is still open: the table follows the cursor. -/
def ofSelect? (before after : Text.Line) : Option Clause := do
  let list ← search (openPhrase? selectPhrases) before
  match search fromAlone? list with
  | some _ => none
  | none => (fromTarget? after).map .columns

/-- The clause of columns before the cursor: sorting, filtering or selecting.  A sort clause
    without a table that can be addressed is none, a filter without one may still stand in a
    select list. -/
def ofColumns? (before after : Text.Line) : Option Clause :=
  match search openOrder? before with
  | some _ => (fromTarget? before).map .orderBy
  | none =>
    match search (openPhrase? filterPhrases) before, fromTarget? before with
    | some _, some table => some (.columns table)
    | _, _ => ofSelect? before after

/-- The clause that the cursor is in, from the text of the statement before and after it. -/
def classify? (before after : Text.Line) : Option Clause :=
  match search openDatabase? before with
  | some _ => some .loadDatabase
  | none =>
    match search openTable? before with
    | some database => some (.loadTable (String.ofList database))
    | none =>
      match search changeTarget? before with
      | some (path, creating) => some (.target (completeSegments path) creating)
      | none =>
        match search (pathAfter? [fromWord]) before with
        | some path => some (.source (completeSegments path))
        | none => ofColumns? before after

end Clause

end ScriptServer
