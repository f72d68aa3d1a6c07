import ScriptServer.Protocol.Shapes

namespace ScriptServer.Protocol

/-!
# Requests without an answer

The server serves a part of the protocol.  It refuses all other requests, and tells those whose
parameters are malformed from those that it cannot serve.

* `unserved` — the requests, each with the shape of its parameters.
-/

open Json

/-! ### Parts of the requests -/

/-- A symbol with its place, as editors send it back; `tags` is the shape of its tags. -/
def hierarchyItem (tags : Shape) : Shape :=
  Shape.record [
    .required "name" Shape.text,
    .required "kind" Shape.code,
    .optional "tags" tags,
    .optional "detail" Shape.text,
    .required "uri" uri,
    .required "range" range,
    .required "selectionRange" range,
    .optional "data" Shape.any]

/-- A link in a document. -/
def documentLink : Shape :=
  Shape.record [.required "range" range, .optional "target" uri, .optional "tooltip" Shape.text,
    .optional "data" Shape.any]

/-- A command that is shown in a document. -/
def codeLens : Shape :=
  Shape.record [.required "range" range, .optional "command" command,
    .optional "data" Shape.any]

/-- A part of the label of an inlay hint. -/
def hintLabelPart : Shape :=
  Shape.record [.required "value" Shape.text, .optional "tooltip" documentation,
    .optional "location" location, .optional "command" command]

/-- An inlay hint. -/
def inlayHint : Shape :=
  Shape.record [
    .required "position" position,
    .required "label" (Shape.either Shape.text (Shape.list hintLabelPart)),
    .optional "kind" Shape.code,
    .optional "textEdits" (Shape.list textEdit),
    .optional "tooltip" documentation,
    .optional "paddingLeft" Shape.flag,
    .optional "paddingRight" Shape.flag,
    .optional "data" Shape.any]

/-- The label of a parameter: a text, or where it stands in the label of the signature. -/
def parameterLabel : Shape
  | .array [first, last] => Shape.count first && Shape.count last
  | value => Shape.text value

/-- A signature. -/
def signature : Shape :=
  Shape.record [
    .required "label" Shape.text,
    .optional "documentation" documentation,
    .optional "parameters"
      (Shape.list
        (Shape.record [.required "label" parameterLabel,
          .optional "documentation" documentation])),
    .optional "activeParameter" Shape.count]

/-- How signatures were asked for. -/
def signatureContext : Shape :=
  Shape.record [
    .required "triggerKind" Shape.code,
    .optional "triggerCharacter" Shape.text,
    .required "isRetrigger" Shape.flag,
    .optional "activeSignatureHelp"
      (Shape.record [.required "signatures" (Shape.list signature),
        .optional "activeSignature" Shape.count, .optional "activeParameter" Shape.count])]

/-- How code actions were asked for. -/
def actionContext : Shape :=
  Shape.record [
    .required "diagnostics" (Shape.list diagnostic),
    .optional "only" (Shape.list Shape.text),
    .optional "triggerKind" Shape.code]

/-- A code action. -/
def codeAction : Shape :=
  Shape.record [
    .required "title" Shape.text,
    .optional "kind" Shape.text,
    .optional "diagnostics" (Shape.list diagnostic),
    .optional "edit" workspaceEdit,
    .optional "command" command,
    .optional "isPreferred" Shape.flag,
    .optional "disabled" (Shape.record [.required "reason" Shape.text]),
    .optional "data" Shape.any]

/-- A color. -/
def color : Shape :=
  Shape.record (["red", "green", "blue", "alpha"].map fun name => .required name Shape.number)

/-- How to format; members that are not named here have simple values. -/
def formattingOptions : Shape :=
  Shape.membersAnd
    [.required "tabSize" Shape.count, .required "insertSpaces" Shape.flag,
     .optional "trimTrailingWhitespace" Shape.flag, .optional "insertFinalNewline" Shape.flag,
     .optional "trimFinalNewlines" Shape.flag]
    (Shape.either Shape.flag (Shape.either Shape.code Shape.text))

/-- A symbol of the workspace. -/
def workspaceSymbol : Shape :=
  Shape.record [
    .required "name" Shape.text,
    .required "kind" Shape.code,
    .optional "tags" (Shape.list Shape.code),
    .optional "containerName" Shape.text,
    .required "location" (Shape.either location document),
    .optional "data" Shape.any]

/-- Files that are about to change; `fields` name each of them. -/
def files (fields : List String) : Shape :=
  Shape.record [.required "files"
    (Shape.list (Shape.record (fields.map fun name => .required name Shape.text)))]

/-! ### The requests -/

/-- Parameters that name a document. -/
def onDocument (fields : List Field) : Shape := Shape.members (inDocument :: fields)

/-- Parameters that name a position in a document. -/
def atPlace (fields : List Field) : Shape := Shape.members (place ++ fields)

/-- Requests about a document. -/
def documentRequests : List (String × Shape) :=
  [("textDocument/willSaveWaitUntil",
      Shape.record [inDocument, .required "reason" Shape.code]),
   ("textDocument/documentLink", onDocument reports),
   ("textDocument/codeLens", onDocument reports),
   ("textDocument/foldingRange", onDocument reports),
   ("textDocument/documentSymbol", onDocument reports),
   ("textDocument/documentColor", onDocument reports),
   ("textDocument/selectionRange",
      onDocument (.required "positions" (Shape.list position) :: reports)),
   ("textDocument/semanticTokens/full", onDocument reports),
   ("textDocument/semanticTokens/full/delta",
      onDocument (.required "previousResultId" Shape.text :: reports)),
   ("textDocument/semanticTokens/range", onDocument (.required "range" range :: reports)),
   ("textDocument/inlineValue",
      onDocument [.required "range" range,
        .required "context"
          (Shape.record [.required "frameId" Shape.code, .required "stoppedLocation" range]),
        progress]),
   ("textDocument/inlayHint", onDocument [.required "range" range, progress]),
   ("textDocument/diagnostic",
      onDocument (.optional "identifier" Shape.text :: .optional "previousResultId" Shape.text
        :: reports)),
   ("textDocument/codeAction",
      onDocument (.required "range" range :: .required "context" actionContext :: reports)),
   ("textDocument/colorPresentation",
      onDocument (.required "color" color :: .required "range" range :: reports)),
   ("textDocument/formatting", onDocument [.required "options" formattingOptions, progress]),
   ("textDocument/rangeFormatting",
      onDocument [.required "range" range, .required "options" formattingOptions, progress])]

/-- Requests about a position in a document. -/
def placeRequests : List (String × Shape) :=
  [("textDocument/declaration", atPlace reports),
   ("textDocument/typeDefinition", atPlace reports),
   ("textDocument/implementation", atPlace reports),
   ("textDocument/references",
      atPlace (.required "context"
        (Shape.record [.required "includeDeclaration" Shape.flag]) :: reports)),
   ("textDocument/prepareCallHierarchy", atPlace [progress]),
   ("textDocument/prepareTypeHierarchy", atPlace [progress]),
   ("textDocument/documentHighlight", atPlace reports),
   ("textDocument/moniker", atPlace reports),
   ("textDocument/signatureHelp", atPlace [.optional "context" signatureContext, progress]),
   ("textDocument/onTypeFormatting",
      atPlace [.required "ch" Shape.text, .required "options" formattingOptions]),
   ("textDocument/rename", atPlace [.required "newName" Shape.text, progress]),
   ("textDocument/prepareRename", Shape.record place),
   ("textDocument/linkedEditingRange", atPlace [progress])]

/-- Requests about something that the server would have found before. -/
def itemRequests : List (String × Shape) :=
  let call := Shape.members (.required "item" (hierarchyItem (Shape.list Shape.code)) :: reports)
  let type := Shape.members (.required "item" (hierarchyItem Shape.code) :: reports)
  [("callHierarchy/incomingCalls", call),
   ("callHierarchy/outgoingCalls", call),
   ("typeHierarchy/supertypes", type),
   ("typeHierarchy/subtypes", type),
   ("documentLink/resolve", documentLink),
   ("codeLens/resolve", codeLens),
   ("inlayHint/resolve", inlayHint),
   ("completionItem/resolve", completionItem),
   ("codeAction/resolve", codeAction),
   ("workspaceSymbol/resolve", workspaceSymbol)]

/-- Requests about the workspace. -/
def workspaceRequests : List (String × Shape) :=
  [("workspace/diagnostic",
      Shape.members (.optional "identifier" Shape.text
        :: .required "previousResultIds"
          (Shape.list (Shape.record [.required "uri" uri, .required "value" Shape.text]))
        :: reports)),
   ("workspace/symbol", Shape.members (.required "query" Shape.text :: reports)),
   ("workspace/willCreateFiles", files ["uri"]),
   ("workspace/willRenameFiles", files ["oldUri", "newUri"]),
   ("workspace/willDeleteFiles", files ["uri"]),
   ("workspace/executeCommand",
      Shape.members [.required "command" Shape.text,
        .defaulted "arguments" (Shape.list Shape.any), progress])]

/-- The requests that are not served, each with the shape of its parameters. -/
def unserved : List (String × Shape) :=
  documentRequests ++ placeRequests ++ itemRequests ++ workspaceRequests

end ScriptServer.Protocol
