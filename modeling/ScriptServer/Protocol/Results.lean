import ScriptServer.Completion.Candidate
import ScriptServer.Workspace.Diagnostics

namespace ScriptServer

/-!
# What editors receive

* `Position.toJson`, `Range.toJson`, `Symbol.location` — places.
* `Candidate.toJson` — a completion item.
* `Diagnostic.toJson` — a finding.
* `hoverJson`, `locationsJson` — what is shown about a name, and where it is declared.
* `capabilities` — what the server can do.
-/

/-- A position. -/
def Position.toJson (p : Position) : Json :=
  .object [("line", .ofNat p.line), ("character", .ofNat p.column)]

/-- A range. -/
def Range.toJson (r : Range) : Json :=
  .object [("start", r.first.toJson), ("end", r.last.toJson)]

/-- Where a symbol is declared. -/
def Symbol.location (s : Symbol) : Json :=
  .object [("uri", .string s.uri.text), ("range", s.range.toJson)]

/-- A field that is left out when it has no value. -/
def optionalField {α : Type} (name : String) (encode : α → Json) : Option α → List (String × Json)
  | none => []
  | some value => [(name, encode value)]

namespace Candidate

/-- The text to insert, where it is not the label. -/
def insertText? (c : Candidate) : Option String :=
  match c.insertion with
  | .label => none
  | .plain text => some text
  | .snippet text => some text

/-- Whether the text to insert is plain (1) or a snippet (2). -/
def insertFormat (c : Candidate) : Nat :=
  match c.insertion with
  | .snippet _ => 2
  | _ => 1

/-- An insertion elsewhere. -/
def editJson (edit : LineEdit) : Json :=
  let start : Position := ⟨edit.line, 0⟩
  .object [("range", (Range.mk start start).toJson), ("newText", .string edit.text)]

/-- A completion item. -/
def toJson (c : Candidate) : Json :=
  .object ([("label", .string c.label), ("kind", .ofNat c.kind.code)]
    ++ optionalField "detail" .string c.detail
    ++ optionalField "documentation" .string c.documentation
    ++ optionalField "insertText" .string c.insertText?
    ++ [("insertTextFormat", .ofNat c.insertFormat)]
    ++ optionalField "additionalTextEdits" (fun edit => .array [editJson edit]) c.edit)

end Candidate

/-- A finding. -/
def Diagnostic.toJson (d : Diagnostic) : Json :=
  .object [("range", d.range.toJson), ("severity", .ofNat d.severity.code),
    ("code", .string "unknown-module"), ("source", .string "dos"), ("message", .string d.message)]

/-- What is shown about the name in a range. -/
def hoverJson (text : String) (range : Range) : Json :=
  .object [("contents", .object [("kind", .string "markdown"), ("value", .string text)]),
    ("range", range.toJson)]

/-- The places where something is declared: none, one, or a list. -/
def locationsJson : List Symbol → Json
  | [] => .null
  | [s] => s.location
  | symbols => .array (symbols.map (·.location))

/-- What the server can do. -/
def capabilities : Json :=
  .object [
    ("capabilities", .object [
      ("textDocumentSync", .ofNat 1),
      ("completionProvider", .object [
        ("resolveProvider", .bool false),
        ("triggerCharacters", .ofStrings [".", ":", "\""])]),
      ("hoverProvider", .bool true),
      ("definitionProvider", .bool true)]),
    ("serverInfo", .object [("name", .string "dos-lsp"), ("version", .string "0.1.0")])]

end ScriptServer
