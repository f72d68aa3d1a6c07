import ScriptServer.Completion.Context
import ScriptServer.Metadata.Basic
import ScriptServer.Symbol

namespace ScriptServer

/-!
# Completion candidates

* `Candidate` — something that can be completed to.
* `Candidate.collapse` — when candidates have a priority, only those with the highest one stay.
* `Candidate.snippets`, `Candidate.keywords` — the candidates that are always there.
* `Candidate.ofSymbol?`, `Candidate.ofModule`, `Candidate.ofForeign` — candidates for what
  scripts declare.
* `Clause.call?`, `Clause.candidates` — the listing that a clause needs, and the candidates made
  of it.
-/

/-- The kinds of candidates. -/
inductive CandidateKind where
  | func
  | field
  | var
  | mod
  | keyword
  | snippet
  | folder
  | struct
  deriving DecidableEq, Repr

/-- The number of a kind in the protocol of editors. -/
def CandidateKind.code : CandidateKind → Nat
  | .func => 3
  | .field => 5
  | .var => 6
  | .mod => 9
  | .keyword => 14
  | .snippet => 15
  | .folder => 19
  | .struct => 22

/-- What is inserted for a candidate. -/
inductive Insertion where
  /-- Its label. -/
  | label
  /-- A text. -/
  | plain (text : String)
  /-- A text with places to fill in. -/
  | snippet (text : String)
  deriving DecidableEq, Repr

/-- A text to insert at the beginning of a line. -/
structure LineEdit where
  line : Nat
  text : String
  deriving DecidableEq, Repr

/-- Something that can be completed to. -/
structure Candidate where
  label : String
  kind : CandidateKind
  detail : Option String := none
  documentation : Option String := none
  insertion : Insertion := .label
  /-- What is inserted elsewhere at the same time. -/
  edit : Option LineEdit := none
  /-- Candidates of a recognised clause have a priority. -/
  priority : Option Nat := none
  deriving DecidableEq, Repr

namespace Candidate

/-- The highest priority among candidates. -/
def topPriority? (candidates : List Candidate) : Option Nat :=
  (candidates.filterMap (·.priority)).max?

/-- When candidates have a priority, only those with the highest one stay. -/
def collapse (candidates : List Candidate) : List Candidate :=
  match topPriority? candidates with
  | some top => candidates.filter fun c => c.priority == some top
  | none => candidates

/-! ### Fixed candidates -/

/-- The snippets: label, text and explanation. -/
def snippetTexts : List (String × String × String) :=
  [("def", "def $\x7b1:name\x7d($\x7b2:params\x7d) \x7b\n\t$0\n\x7d", "Function definition"),
   ("if", "if ($\x7b1:condition\x7d) \x7b\n\t$0\n\x7d", "Conditional statement"),
   ("ifelse", "if ($\x7b1:condition\x7d) \x7b\n\t$2\n\x7d else \x7b\n\t$0\n\x7d",
    "If/else statement"),
   ("for", "for ($\x7b1:i\x7d in $\x7b2:0:10\x7d) \x7b\n\t$0\n\x7d", "For loop"),
   ("do", "do \x7b\n\t$0\n\x7d while ($\x7b1:condition\x7d)", "Do/while loop"),
   ("try", "try \x7b\n\t$1\n\x7d catch ($\x7b2:ex\x7d) \x7b\n\t$0\n\x7d", "Try/catch block"),
   ("select", "select $\x7b1:*\x7d from $\x7b2:table\x7d where $\x7b0:condition\x7d", "SQL select"),
   ("module", "module $\x7b0:name\x7d", "Module declaration"),
   ("use", "use $\x7b0:module\x7d", "Module import")]

/-- The keywords with their explanations. -/
def keywordTexts : List (String × String) :=
  [("def", "Function definition"), ("if", "Conditional statement"), ("else", "Else branch"),
   ("for", "For loop"), ("do", "Do/while loop"), ("while", "While loop"),
   ("break", "Break out of loop"), ("continue", "Continue to next loop iteration"),
   ("return", "Return from function"), ("try", "Guarded block"), ("catch", "Exception handler"),
   ("throw", "Raise an exception"), ("share", "Share a table across sessions"),
   ("undef", "Release a variable"), ("module", "Module declaration"), ("use", "Module import"),
   ("select", "SQL query"), ("exec", "SQL query returning a vector or scalar"),
   ("update", "SQL update"), ("delete", "SQL delete"), ("from", "SQL source table"),
   ("where", "SQL filter")]

/-- The snippets. -/
def snippets : List Candidate :=
  snippetTexts.map fun (label, text, detail) =>
    { label, kind := .snippet, detail := some detail, insertion := .snippet text }

/-- The keywords. -/
def keywords : List Candidate :=
  keywordTexts.map fun (label, detail) => { label, kind := .keyword, detail := some detail }

/-! ### What scripts declare -/

/-- The places to fill in for parameters, numbered from `number` on. -/
def stops : Nat → List String → List String
  | _, [] => []
  | number, param :: rest =>
    ("$\x7b" ++ number.repr ++ ":" ++ param ++ "\x7d") :: stops (number + 1) rest

/-- A call with a place to fill in for each parameter. -/
def callSnippet (name : String) (params : List String) : String :=
  name ++ "(" ++ String.intercalate ", " (stops 1 params) ++ ")"

/-- The candidate for a function. -/
def ofFunction (s : Symbol) (detail : String) : Candidate :=
  { label := s.name, kind := .func, detail := some detail, documentation := s.doc?,
    insertion := .snippet (callSnippet s.name s.params) }

/-- The candidate for a symbol of the same script.  Modules are no candidates. -/
def ofSymbol? (s : Symbol) : Option Candidate :=
  match s.kind with
  | .func => some (ofFunction s s.signature)
  | .var =>
    some { label := s.name, kind := .var, detail := some "variable", documentation := s.doc? }
  | .param => some { label := s.name, kind := .var, detail := some "parameter" }
  | .mod => none

/-- The candidate for the import of a module. -/
def ofModule (module : String) : Candidate :=
  { label := "use " ++ module, kind := .mod, detail := some "import module",
    insertion := .plain ("use " ++ module) }

/-- The candidate for a function of another module.  Where the module is not imported yet, its
    `use` line is inserted as well. -/
def ofForeign (module : String) (importLine : Option Nat) (s : Symbol) : Candidate :=
  { ofFunction s (s.signature ++ "  (" ++ module ++ ")") with
    edit := importLine.map fun line => ⟨line, "use " ++ module ++ "\n"⟩ }

end Candidate

/-! ### Database objects -/

namespace Clause

/-- The listing for a dotted path: catalogs, then schemas, then tables.  The name of a table that
    is being created is not listed. -/
def pathCall? (creating : Bool) : List String → Option Call
  | [] => some .catalogs
  | [catalog] => some (.listing (.schemas catalog))
  | [catalog, schema] => if creating then none else some (.listing (.tablesIn catalog schema))
  | _ => none

/-- The listing that a clause needs. -/
def call? : Clause → Option Call
  | .source segments => pathCall? false segments
  | .target segments creating => pathCall? creating segments
  | .loadDatabase => some .databases
  | .loadTable database => some (.listing (.tables database))
  | .columns table => some (.listing (.columns table))
  | .orderBy table => some (.listing (.columns table))

/-- The kind of the objects on a level of a dotted path, and what they are called. -/
def levelKind : List String → CandidateKind × String
  | [] => (.mod, "catalog")
  | [_] => (.folder, "schema")
  | _ => (.struct, "table")

/-- The candidates for names. -/
def named (clause : Clause) (kind : CandidateKind × String) (names : List String) :
    List Candidate :=
  names.map fun label =>
    { label, kind := kind.1, detail := some kind.2, priority := some clause.priority }

/-- The candidates for the columns of a table. -/
def ofColumns (clause : Clause) (table : TableHandle) (columns : List Column) : List Candidate :=
  columns.map fun column =>
    { label := column.name, kind := .field,
      detail := some (column.dataType ++ " (" ++ table.table ++ ")"),
      documentation := column.comment, priority := some clause.priority }

/-- The candidates that a clause makes of a listing. -/
def candidates (clause : Clause) (listing : Listing) : List Candidate :=
  match clause with
  | .source segments => clause.named (levelKind segments) listing.toNames
  | .target segments _ => clause.named (levelKind segments) listing.toNames
  | .loadDatabase => clause.named (.mod, "database") listing.toNames
  | .loadTable _ => clause.named (.struct, "table") listing.toNames
  | .columns table => clause.ofColumns table listing.toColumns
  | .orderBy table => clause.ofColumns table listing.toColumns

end Clause

end ScriptServer
