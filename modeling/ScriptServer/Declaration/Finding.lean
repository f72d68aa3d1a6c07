import ScriptServer.Declaration.Assignment
import ScriptServer.Declaration.Header
import ScriptServer.ModuleSyntax

namespace ScriptServer.Declaration

/-!
# What code declares

* `Finding` — a module line, an import, a function or a variable, located in the code by byte
  offsets.
* `findings` — everything that lines of code declare, in order.

Findings depend on nothing but the code: what stands in comments and strings has no part in
them.
-/

open Text

/-- A declaration found in code. -/
inductive Finding where
  /-- The name that the script declares for itself. -/
  | declares (name : String) (span : Span)
  /-- The name of a module that the script imports. -/
  | imports (name : String) (span : Span)
  /-- A function. -/
  | function (header : Header)
  /-- A variable that is assigned. -/
  | assigns (name : String) (span : Span)

/-- The place of the path in a statement on a line. -/
def statementSpan (line : Nat) (statement : ModuleSyntax.Statement) : Span :=
  ⟨line, size statement.before, statement.stop⟩

/-- The module that the first line of code declares. -/
def moduleFinding? (syn : ModuleSyntax) (code : List Line) : Option Finding := do
  let (line, text) ← ModuleSyntax.firstCodeLine? 0 code
  let statement ← syn.moduleStatement? text
  return .declares (syn.nameOf statement) (statementSpan line statement)

/-- The first line after those a header takes up, whether it was read to its end or not. -/
def lineAfter : Except Nat Header → Nat
  | .ok header => header.lastLine + 1
  | .error line => line + 1

/-- The function that a header declares, if it was read to its end. -/
def functionFinding? : Except Nat Header → Option Finding
  | .ok header => some (.function header)
  | .error _ => none

/-- The variables that a line of code assigns. -/
def variableFindings (line : Nat) (text : Line) : List Finding :=
  (assignments text).map fun found =>
    .assigns (String.ofList found.name)
      ⟨line, found.offset, found.offset + size found.name⟩

/-- Imports, functions and variables of lines of code, the first of which has number `line`.
    The lines before `free` belong to a header and hold no assignments. -/
def bodyFindings (syn : ModuleSyntax) : Nat → Nat → List Line → List Finding
  | _, _, [] => []
  | free, line, text :: below =>
    match syn.useStatement? text with
    | some statement =>
      .imports (syn.nameOf statement) (statementSpan line statement)
        :: bodyFindings syn free (line + 1) below
    | none =>
      let heads := headStarts none 0 text
      let headers := heads.map fun head => readHeader line head below
      let free := headers.foldl (fun free header => max free (lineAfter header)) free
      let assigned :=
        if heads.isEmpty ∧ free ≤ line then variableFindings line text else []
      headers.filterMap functionFinding? ++ assigned
        ++ bodyFindings syn free (line + 1) below

/-- Everything that code declares. -/
def findings (syn : ModuleSyntax) (code : List Line) : List Finding :=
  (moduleFinding? syn code).toList ++ bodyFindings syn 0 0 code

end ScriptServer.Declaration
