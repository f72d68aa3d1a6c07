import ScriptServer.Completion.Candidate
import ScriptServer.Workspace.Symbols

namespace ScriptServer.Workspace

/-!
# Completion

* `generalCandidates` — snippets, keywords, visible symbols, imports and functions of other
  modules.
* `clauseCandidates` — the database objects for a clause.
* `complete` — all candidates at a position.
-/

open Library

/-- The line at which an import is inserted: below the module line, or at the top. -/
def importLine (table : Option SymbolTable) : Nat :=
  match table.bind (·.moduleLine) with
  | some line => line + 1
  | none => 0

/-- The functions that a module offers, as candidates for a document with a given table. -/
def foreignCandidates (workspace : Workspace) (table : Option SymbolTable) (module : String)
    (uri : Uri) : List Candidate :=
  match workspace.table? uri with
  | none => []
  | some other =>
    let imported := table.any (·.imports module)
    let line := if imported then none else some (importLine table)
    other.exported.map (Candidate.ofForeign module line)

/-- The candidates for the other modules: each name is offered for import once, and each file
    adds its functions.  `seen` are the names offered before. -/
def moduleCandidates (workspace : Workspace) (uri : Uri) (seen : List String) :
    List Entry → List Candidate
  | [] => []
  | entry :: rest =>
    match entry.uri? with
    | none => workspace.moduleCandidates uri seen rest
    | some other =>
      if other = uri then workspace.moduleCandidates uri seen rest
      else
        let module := entry.name
        let offer := if seen.contains module then [] else [Candidate.ofModule module]
        offer ++ workspace.foreignCandidates (workspace.table? uri) module other
          ++ workspace.moduleCandidates uri (module :: seen) rest

/-- The candidates that do not need the database. -/
def generalCandidates (workspace : Workspace) (uri : Uri) (point : Position) : List Candidate :=
  Candidate.snippets ++ Candidate.keywords
    ++ (workspace.visibleSymbols uri point).filterMap Candidate.ofSymbol?
    ++ workspace.moduleCandidates uri [] workspace.index.entries

/-- The database objects for a clause, and the questions that went to the database. -/
def clauseCandidates (workspace : Workspace) (connection : Connection) (clause : Clause) :
    Workspace × List Candidate × List Query :=
  match clause.call? with
  | none => (workspace, [], [])
  | some call =>
    let (metadata, replies, asked) := workspace.metadata.perform connection [call]
    ({ workspace with metadata },
      replies.flatMap fun reply => clause.candidates reply.toListing, asked)

/-- The candidates at a position, and the questions that went to the database.  A document that is
    not tracked has none, and neither has a comment. -/
def complete (workspace : Workspace) (connection : Connection) (uri : Uri) (text : String)
    (point : Position) : Workspace × List Candidate × List Query :=
  if (workspace.table? uri).isNone then (workspace, [], [])
  else match Context.ofPosition text point with
    | .comment => (workspace, [], [])
    | .general => (workspace, Candidate.collapse (workspace.generalCandidates uri point), [])
    | .sql clause =>
      let (workspace, candidates, asked) := workspace.clauseCandidates connection clause
      (workspace, Candidate.collapse (candidates ++ workspace.generalCandidates uri point), asked)

end ScriptServer.Workspace
