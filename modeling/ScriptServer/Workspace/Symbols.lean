import ScriptServer.Lookup
import ScriptServer.Token
import ScriptServer.Workspace.Basic

namespace ScriptServer.Workspace

/-!
# Looking up names

* `visibleSymbols` — what a name can mean at a position of a document.
* `findAcrossImports` — the functions of other modules with a name.
* `findSymbol` — what a name means: a symbol of the document, or else of an imported module.
* `resolve?` — what the token under the cursor means.
* `hover?`, `definition` — what an editor shows and jumps to.
-/

open Library

/-- The symbols of a document. -/
def symbols (workspace : Workspace) (uri : Uri) : List Symbol :=
  match workspace.table? uri with
  | some table => table.symbols
  | none => []

/-- The symbols that can be used at a position. -/
def symbolsInScope (workspace : Workspace) (uri : Uri) (point : Position) : List Symbol :=
  inScope (workspace.symbols uri) point

/-- The symbols that can be used at a position and are not hidden there. -/
def visibleSymbols (workspace : Workspace) (uri : Uri) (point : Position) : List Symbol :=
  resolveShadowing (workspace.symbols uri) point

/-- The modules that a document imports. -/
def usedModules (workspace : Workspace) (uri : Uri) : List String :=
  match workspace.table? uri with
  | some table => table.usedModules
  | none => []

/-- The symbol tables of the files that have a module name. -/
def moduleTables (workspace : Workspace) (module : String) : List SymbolTable :=
  (workspace.index.find module).filterMap fun entry => entry.uri?.bind workspace.table?

/-- The functions that a module offers to others. -/
def moduleFunctions (workspace : Workspace) (module : String) : List Symbol :=
  (workspace.moduleTables module).flatMap (·.exported)

/-- The functions of other modules with a name.  A qualified name is looked up in its module, a
    plain name in every module that the document imports. -/
def findAcrossImports (workspace : Workspace) (uri : Uri) (name : String) : List Symbol :=
  match workspace.syn.splitQualified? name.toList with
  | some (module, member) =>
    (workspace.moduleFunctions (String.ofList module)).filter fun s =>
      s.name = String.ofList member
  | none =>
    ((workspace.usedModules uri).flatMap workspace.moduleFunctions).filter fun s => s.name = name

/-- What a name means at a position, among the symbols that are accepted: symbols of the document
    that are not hidden, or else functions of other modules. -/
def findSymbol (workspace : Workspace) (uri : Uri) (name : String) (point : Position)
    (accept : Symbol → Bool) : List Symbol :=
  let own := (workspace.symbols uri).filter fun s => s.name = name && accept s
  match resolveShadowing own point with
  | [] => (workspace.findAcrossImports uri name).filter accept
  | found => found

/-! ### The token under the cursor -/

/-- Whether a symbol fits a token: functions are called, variables and parameters are not. -/
def fits (token : Token) (s : Symbol) : Bool :=
  match s.kind with
  | .mod => false
  | .func => token.isCall
  | _ => !token.isCall

/-- The module line of a table. -/
def moduleLine? (table : SymbolTable) : Option Symbol :=
  table.symbols.find? fun s => s.kind = .mod && some s.name == table.declaredModule

/-- What a module name leads to: the module line of its file, or the beginning of the file. -/
def moduleTarget? (workspace : Workspace) (entry : Entry) : Option Symbol := do
  let uri ← entry.uri?
  match (workspace.table? uri).bind moduleLine? with
  | some s => return s
  | none => return ⟨entry.name, .origin, uri, .mod .origin⟩

/-- What a module name leads to, one symbol for each file. -/
def moduleTargets (workspace : Workspace) (name : String) : List Symbol :=
  (workspace.index.find name).filterMap workspace.moduleTarget?

/-- The token at a position and what it means.  A name that is not called may be that of a
    module. -/
def resolve? (workspace : Workspace) (uri : Uri) (text : String) (point : Position) :
    Option (Token × List Symbol) := do
  let token ← Token.at? (Text.splitLines text) point workspace.syn.separator
  let name := String.ofList token.text
  match workspace.findSymbol uri name point (fits token) with
  -- a module is never called
  | [] => return (token, if token.isCall then [] else workspace.moduleTargets name)
  | found => return (token, found)

/-- The symbols that the token at a position stands for. -/
def definition (workspace : Workspace) (uri : Uri) (text : String) (point : Position) :
    List Symbol :=
  match workspace.resolve? uri text point with
  | some (_, found) => found
  | none => []

/-- What an editor shows about the token at a position, and the range of the token. -/
def hover? (workspace : Workspace) (uri : Uri) (text : String) (point : Position) :
    Option (String × Range) := do
  let (token, found) ← workspace.resolve? uri text point
  match found with
  | [] => none
  | found => return (String.intercalate "\n\n" (found.map (·.describe)), token.range)

end ScriptServer.Workspace
