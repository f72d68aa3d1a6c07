import ScriptServer.Json.Shape
import ScriptServer.Uri.Parser

namespace ScriptServer.Protocol

/-!
# Shapes of what messages are made of

The parts that requests of the language server protocol share: places in documents, edits,
diagnostics, texts with markup.

* `place`, `progress`, `partialResult` — the fields that most requests have in common.
* `diagnostic`, `workspaceEdit`, `completionItem` — the larger values that editors send back.
-/

open Json

/-- The identifier of a document. -/
def uri : Shape
  | .string text => (Uri.parse? text).isSome
  | _ => false

/-! ### Places -/

/-- A position. -/
def position : Shape :=
  Shape.record [.required "line" Shape.count, .required "character" Shape.count]

/-- A range. -/
def range : Shape := Shape.record [.required "start" position, .required "end" position]

/-- A range in a document. -/
def location : Shape := Shape.record [.required "uri" uri, .required "range" range]

/-- A document. -/
def document : Shape := Shape.record [.required "uri" uri]

/-- The field that names a document. -/
def inDocument : Field := .required "textDocument" document

/-- The fields that name a position in a document. -/
def place : List Field := [inDocument, .required "position" position]

/-! ### Progress -/

/-- The name of a row of reports. -/
def token : Shape := Shape.either Shape.code Shape.text

/-- Where to report how far the work is. -/
def progress : Field := .optional "workDoneToken" token

/-- Where to report what has been found so far. -/
def partialResult : Field := .optional "partialResultToken" token

/-- Both kinds of reports. -/
def reports : List Field := [progress, partialResult]

/-! ### Texts -/

/-- How a text is marked up. -/
def markup : Shape := Shape.choice ["plaintext", "markdown"]

/-- A text, or one with markup. -/
def documentation : Shape :=
  Shape.either Shape.text
    (Shape.record [.required "kind" markup, .required "value" Shape.text])

/-- A command that the editor may run. -/
def command : Shape :=
  Shape.record [.required "title" Shape.text, .required "command" Shape.text,
    .optional "arguments" (Shape.list Shape.any)]

/-! ### Edits -/

/-- A range and what to put there. -/
def textEdit : Shape := Shape.record [.required "range" range, .required "newText" Shape.text]

/-- An edit with the name of a note on it. -/
def annotatedEdit : Shape :=
  Shape.members [.required "range" range, .required "newText" Shape.text,
    .required "annotationId" Shape.text]

/-- Edits of one document. -/
def documentEdit : Shape :=
  Shape.record [
    .required "textDocument"
      (Shape.record [.required "uri" uri, .optional "version" Shape.code]),
    .required "edits" (Shape.list (Shape.either textEdit annotatedEdit))]

/-- Options when a file is made or renamed. -/
def placementOptions : Shape :=
  Shape.record [.optional "overwrite" Shape.flag, .optional "ignoreIfExists" Shape.flag]

/-- Options when a file is deleted. -/
def deletionOptions : Shape :=
  Shape.record [.optional "recursive" Shape.flag, .optional "ignoreIfNotExists" Shape.flag,
    .optional "annotationId" Shape.text]

/-- What is done to a file, by the kind of operation. -/
def operationFields : List (String × List Field) :=
  [("create", [.required "uri" uri, .optional "options" placementOptions,
      .optional "annotationId" Shape.text]),
   ("rename", [.required "oldUri" uri, .required "newUri" uri,
      .optional "options" placementOptions, .optional "annotationId" Shape.text]),
   ("delete", [.required "uri" uri, .optional "options" deletionOptions])]

/-- An operation on a file: an object that names its kind, or an array that begins with it. -/
def fileOperation : Shape
  | .array (.string kind :: items) =>
    (operationFields.lookup kind).any fun fields => Shape.record fields (.array items)
  | .object fields =>
    match lastField? "kind" fields with
    | some (.string kind) =>
      (operationFields.lookup kind).any fun expected => Shape.members expected (.object fields)
    | _ => false
  | _ => false

/-- Edits of several documents and files. -/
def workspaceEdit : Shape :=
  Shape.record [
    .defaulted "changes"
      (Shape.nullable (Shape.table (fun key => (Uri.parse? key).isSome) (Shape.list textEdit))),
    .optional "documentChanges"
      (Shape.either (Shape.list documentEdit)
        (Shape.list (Shape.either fileOperation documentEdit))),
    .optional "changeAnnotations"
      (Shape.table (fun _ => true)
        (Shape.record [.required "label" Shape.text, .optional "needsConfirmation" Shape.flag,
          .optional "description" Shape.text]))]

/-! ### What editors send back -/

/-- A diagnostic. -/
def diagnostic : Shape :=
  Shape.record [
    .required "range" range,
    .optional "severity" Shape.code,
    .optional "code" token,
    .optional "codeDescription" (Shape.record [.required "href" uri]),
    .optional "source" Shape.text,
    .required "message" Shape.text,
    .optional "relatedInformation"
      (Shape.list
        (Shape.record [.required "location" location, .required "message" Shape.text])),
    .optional "tags" (Shape.list Shape.code),
    .optional "data" Shape.any]

/-- A completion candidate. -/
def completionItem : Shape :=
  Shape.record [
    .required "label" Shape.text,
    .optional "labelDetails"
      (Shape.record [.optional "detail" Shape.text, .optional "description" Shape.text]),
    .optional "kind" Shape.code,
    .optional "detail" Shape.text,
    .optional "documentation" documentation,
    .optional "deprecated" Shape.flag,
    .optional "preselect" Shape.flag,
    .optional "sortText" Shape.text,
    .optional "filterText" Shape.text,
    .optional "insertText" Shape.text,
    .optional "insertTextFormat" Shape.code,
    .optional "insertTextMode" Shape.code,
    .optional "textEdit"
      (Shape.either textEdit
        (Shape.record [.required "newText" Shape.text, .required "insert" range,
          .required "replace" range])),
    .optional "additionalTextEdits" (Shape.list textEdit),
    .optional "command" command,
    .optional "commitCharacters" (Shape.list Shape.text),
    .optional "data" Shape.any,
    .optional "tags" (Shape.list Shape.code)]

end ScriptServer.Protocol
