import ScriptServer.Json.Shape

namespace ScriptServer.Protocol

/-!
# What an editor can do

An editor introduces itself with a tree of its abilities.  The server uses none of them, but an
introduction with a malformed tree is refused.

* `editorCapabilities` — the shape of the tree.
-/

open Json

/-- Abilities that are all optional truth values. -/
def flags (names : List String) : Shape :=
  Shape.record (names.map fun name => .optional name Shape.flag)

/-- Whether the editor lets the server register itself later. -/
def registration : Field := .optional "dynamicRegistration" Shape.flag

/-- An ability with nothing but that. -/
def registrable : Shape := Shape.record [registration]

/-- Names of properties that can be looked up later. -/
def properties : Shape := Shape.record [.required "properties" (Shape.list Shape.text)]

/-- The kinds of symbols or candidates that the editor knows. -/
def kinds (kind : Shape) : Shape := Shape.record [.optional "valueSet" (Shape.list kind)]

/-- The kinds of markup that the editor shows. -/
def markupKinds : Shape := Shape.list (Shape.choice ["plaintext", "markdown"])

/-- The tags that the editor knows; some editors only say whether they know any. -/
def tagSupport : Field :=
  .defaulted "tagSupport"
    (Shape.nullable
      (Shape.either Shape.flag
        (Shape.record [.required "valueSet" (Shape.list Shape.code)])))

/-! ### The workspace -/

/-- Whether views can be refreshed. -/
def refreshable : Shape := flags ["refreshSupport"]

/-- Abilities around edits. -/
def editCapabilities : Shape :=
  Shape.record [
    .optional "documentChanges" Shape.flag,
    .optional "resourceOperations" (Shape.list (Shape.choice ["create", "rename", "delete"])),
    .optional "failureHandling"
      (Shape.choice ["abort", "transactional", "textOnlyTransactional", "undo"]),
    .optional "normalizesLineEndings" Shape.flag,
    .optional "changeAnnotationSupport" (flags ["groupsOnLabel"])]

/-- Abilities around the workspace. -/
def workspaceCapabilities : Shape :=
  Shape.record [
    .optional "applyEdit" Shape.flag,
    .optional "workspaceEdit" editCapabilities,
    .optional "didChangeConfiguration" registrable,
    .optional "didChangeWatchedFiles" (flags ["dynamicRegistration", "relativePatternSupport"]),
    .optional "symbol"
      (Shape.record [registration, .optional "symbolKind" (kinds Shape.code), tagSupport,
        .optional "resolveSupport" properties]),
    .optional "executeCommand" registrable,
    .optional "workspaceFolders" Shape.flag,
    .optional "configuration" Shape.flag,
    .optional "semanticTokens" refreshable,
    .optional "codeLens" refreshable,
    .optional "fileOperations"
      (flags ["dynamicRegistration", "didCreate", "willCreate", "didRename", "willRename",
        "didDelete", "willDelete"]),
    .optional "inlineValue" refreshable,
    .optional "inlayHint" refreshable,
    .optional "diagnostic" refreshable]

/-! ### Documents -/

/-- Abilities around a completion candidate. -/
def candidateCapabilities : Shape :=
  Shape.record [
    .optional "snippetSupport" Shape.flag,
    .optional "commitCharactersSupport" Shape.flag,
    .optional "documentationFormat" markupKinds,
    .optional "deprecatedSupport" Shape.flag,
    .optional "preselectSupport" Shape.flag,
    tagSupport,
    .optional "insertReplaceSupport" Shape.flag,
    .optional "resolveSupport" properties,
    .optional "insertTextModeSupport"
      (Shape.record [.required "valueSet" (Shape.list Shape.code)]),
    .optional "labelDetailsSupport" Shape.flag]

/-- Abilities around completion. -/
def completionCapabilities : Shape :=
  Shape.record [
    registration,
    .optional "completionItem" candidateCapabilities,
    .optional "completionItemKind" (kinds Shape.code),
    .optional "contextSupport" Shape.flag,
    .optional "insertTextMode" Shape.code,
    .optional "completionList"
      (Shape.record [.optional "itemDefaults" (Shape.list Shape.text)])]

/-- Abilities around signatures. -/
def signatureCapabilities : Shape :=
  Shape.record [
    registration,
    .optional "signatureInformation"
      (Shape.record [
        .optional "documentationFormat" markupKinds,
        .optional "parameterInformation" (flags ["labelOffsetSupport"]),
        .optional "activeParameterSupport" Shape.flag]),
    .optional "contextSupport" Shape.flag]

/-- Abilities around code actions. -/
def actionCapabilities : Shape :=
  Shape.record [
    registration,
    .optional "codeActionLiteralSupport"
      (Shape.record [.required "codeActionKind"
        (Shape.record [.required "valueSet" (Shape.list Shape.text)])]),
    .optional "isPreferredSupport" Shape.flag,
    .optional "disabledSupport" Shape.flag,
    .optional "dataSupport" Shape.flag,
    .optional "resolveSupport" properties,
    .optional "honorsChangeAnnotations" Shape.flag]

/-- Abilities around folding. -/
def foldingCapabilities : Shape :=
  Shape.record [
    registration,
    .optional "rangeLimit" Shape.count,
    .optional "lineFoldingOnly" Shape.flag,
    .optional "foldingRangeKind" (kinds (Shape.choice ["comment", "imports", "region"])),
    .optional "foldingRange" (flags ["collapsedText"])]

/-- Abilities around semantic tokens. -/
def semanticCapabilities : Shape :=
  Shape.record [
    registration,
    .required "requests"
      (Shape.record [
        .optional "range" Shape.flag,
        .optional "full"
          (Shape.either Shape.flag (Shape.members [.optional "delta" Shape.flag]))]),
    .required "tokenTypes" (Shape.list Shape.text),
    .required "tokenModifiers" (Shape.list Shape.text),
    .required "formats" (Shape.list (Shape.choice ["relative"])),
    .optional "overlappingTokenSupport" Shape.flag,
    .optional "multilineTokenSupport" Shape.flag,
    .optional "serverCancelSupport" Shape.flag,
    .optional "augmentsSyntaxTokens" Shape.flag]

/-- Abilities around places that a name leads to. -/
def linkCapabilities : Shape := flags ["dynamicRegistration", "linkSupport"]

/-- Abilities around documents. -/
def documentCapabilities : Shape :=
  Shape.record [
    .optional "synchronization"
      (flags ["dynamicRegistration", "willSave", "willSaveWaitUntil", "didSave"]),
    .optional "completion" completionCapabilities,
    .optional "hover" (Shape.record [registration, .optional "contentFormat" markupKinds]),
    .optional "signatureHelp" signatureCapabilities,
    .optional "references" registrable,
    .optional "documentHighlight" registrable,
    .optional "documentSymbol"
      (Shape.record [registration, .optional "symbolKind" (kinds Shape.code),
        .optional "hierarchicalDocumentSymbolSupport" Shape.flag, tagSupport]),
    .optional "formatting" registrable,
    .optional "rangeFormatting" registrable,
    .optional "onTypeFormatting" registrable,
    .optional "declaration" linkCapabilities,
    .optional "definition" linkCapabilities,
    .optional "typeDefinition" linkCapabilities,
    .optional "implementation" linkCapabilities,
    .optional "codeAction" actionCapabilities,
    .optional "codeLens" registrable,
    .optional "documentLink" (flags ["dynamicRegistration", "tooltipSupport"]),
    .optional "colorProvider" registrable,
    .optional "rename"
      (Shape.record [registration, .optional "prepareSupport" Shape.flag,
        .optional "prepareSupportDefaultBehavior" Shape.code,
        .optional "honorsChangeAnnotations" Shape.flag]),
    .optional "publishDiagnostics"
      (Shape.record [.optional "relatedInformation" Shape.flag, tagSupport,
        .optional "versionSupport" Shape.flag, .optional "codeDescriptionSupport" Shape.flag,
        .optional "dataSupport" Shape.flag]),
    .optional "foldingRange" foldingCapabilities,
    .optional "selectionRange" registrable,
    .optional "linkedEditingRange" registrable,
    .optional "callHierarchy" registrable,
    .optional "semanticTokens" semanticCapabilities,
    .optional "moniker" registrable,
    .optional "typeHierarchy" registrable,
    .optional "inlineValue" registrable,
    .optional "inlayHint" (Shape.record [registration, .optional "resolveSupport" properties]),
    .optional "diagnostic" (flags ["dynamicRegistration", "relatedDocumentSupport"])]

/-! ### Windows, and the rest -/

/-- Abilities around windows. -/
def windowCapabilities : Shape :=
  Shape.record [
    .optional "workDoneProgress" Shape.flag,
    .optional "showMessage"
      (Shape.record [.optional "messageActionItem" (flags ["additionalPropertiesSupport"])]),
    .optional "showDocument" (Shape.record [.required "support" Shape.flag])]

/-- Abilities of no particular kind. -/
def generalCapabilities : Shape :=
  Shape.record [
    .optional "regularExpressions"
      (Shape.record [.required "engine" Shape.text, .optional "version" Shape.text]),
    .optional "markdown"
      (Shape.record [.required "parser" Shape.text, .optional "version" Shape.text,
        .optional "allowedTags" (Shape.list Shape.text)]),
    .optional "staleRequestSupport"
      (Shape.record [.required "cancel" Shape.flag,
        .required "retryOnContentModified" (Shape.list Shape.text)]),
    .optional "positionEncodings" (Shape.list Shape.text)]

/-- The abilities of an editor. -/
def editorCapabilities : Shape :=
  Shape.record [
    .optional "workspace" workspaceCapabilities,
    .optional "textDocument" documentCapabilities,
    .optional "window" windowCapabilities,
    .optional "general" generalCapabilities,
    .optional "experimental" Shape.any]

end ScriptServer.Protocol
