import ScriptServer.Position
import ScriptServer.Uri.Basic

namespace ScriptServer

/-!
# Symbols and symbol tables

* `Symbol` — a declared name with its place and what it stands for.
* `SymbolTable` — everything that one document declares.
-/

/-- What a declared name stands for.  Every kind knows the range in which it can be used. -/
inductive Role where
  /-- A function.  It can be used in the block around its declaration; `body` is the range
      between its own braces, and `topLevel` says that no block is around it. -/
  | func (params : List String) (doc : Option String) (scope body : Range) (topLevel : Bool)
  /-- A variable, from its assignment to the end of the block around it. -/
  | var (doc : Option String) (scope : Range)
  /-- A parameter of the function with this name, in the body of that function. -/
  | param (owner : String) (scope : Range)
  /-- A module, declared or imported. -/
  | mod (scope : Range)
  deriving DecidableEq, Repr

/-- The kinds of symbols. -/
inductive SymbolKind where
  | func
  | var
  | param
  | mod
  deriving DecidableEq, Repr

/-- A declared name. -/
structure Symbol where
  name : String
  /-- The range of the name itself. -/
  range : Range
  uri : Uri
  role : Role
  deriving DecidableEq, Repr

namespace Symbol

/-- Where the name begins. -/
def position (s : Symbol) : Position := s.range.first

/-- The kind of the symbol. -/
def kind (s : Symbol) : SymbolKind :=
  match s.role with
  | .func .. => .func
  | .var .. => .var
  | .param .. => .param
  | .mod .. => .mod

/-- The range in which the symbol can be used. -/
def scope (s : Symbol) : Range :=
  match s.role with
  | .func _ _ scope _ _ => scope
  | .var _ scope => scope
  | .param _ scope => scope
  | .mod scope => scope

/-- Whether the symbol is a function that no block is around; only such functions can be used
    from other modules. -/
def isTopLevelFunction (s : Symbol) : Bool :=
  match s.role with
  | .func _ _ _ _ topLevel => topLevel
  | _ => false

/-- The parameters of a function; other symbols have none. -/
def params (s : Symbol) : List String :=
  match s.role with
  | .func params _ _ _ _ => params
  | _ => []

/-- The documentation of the symbol. -/
def doc? (s : Symbol) : Option String :=
  match s.role with
  | .func _ doc _ _ _ => doc
  | .var doc _ => doc
  | _ => none

/-- How a function is written down: its name with its parameters. -/
def signature (s : Symbol) : String :=
  "def " ++ s.name ++ "(" ++ String.intercalate ", " s.params ++ ")"

/-- A text followed by documentation, if there is any. -/
def withDoc (text : String) : Option String → String
  | none => text
  | some doc => text ++ "\n---\n" ++ doc

/-- What an editor shows about the symbol. -/
def describe (s : Symbol) : String :=
  match s.role with
  | .func _ doc _ _ _ => withDoc ("```dolphindb\n" ++ s.signature ++ "\n```") doc
  | .var doc _ => withDoc ("(variable) " ++ s.name) doc
  | .param owner _ => "(parameter) " ++ s.name ++ " of function " ++ owner
  | .mod _ => "(module) " ++ s.name

end Symbol

/-- Everything that one document declares. -/
structure SymbolTable where
  /-- The name that the document declares for itself. -/
  declaredModule : Option String
  /-- The line of that declaration. -/
  moduleLine : Option Nat
  /-- The modules that the document imports, in order. -/
  usedModules : List String
  symbols : List Symbol
  deriving DecidableEq, Repr

namespace SymbolTable

/-- The functions of a document. -/
def functions (table : SymbolTable) : List Symbol :=
  table.symbols.filter fun s => s.kind = .func

/-- The functions that other documents can use. -/
def exported (table : SymbolTable) : List Symbol :=
  table.symbols.filter (·.isTopLevelFunction)

/-- Whether the document imports a module. -/
def imports (table : SymbolTable) (module : String) : Bool :=
  table.usedModules.contains module

end SymbolTable

end ScriptServer
