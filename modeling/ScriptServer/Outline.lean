import ScriptServer.Declaration.Finding
import ScriptServer.DocComment
import ScriptServer.Symbol

namespace ScriptServer

/-!
# The symbol table of a document

Findings in the code become symbols: byte offsets become positions, and each symbol gets the
range in which it can be used and its documentation.

* `Outline.symbols` — the symbols of one finding.
* `Outline.table` — the symbol table of a text.
-/

namespace Outline

open Declaration

/-- What the symbols of a document are made with. -/
structure Page where
  uri : Uri
  source : Source
  blocks : List Range
  whole : Range

/-- The page of a text. -/
def Page.ofText (uri : Uri) (text : String) : Page :=
  let source := Source.ofText text
  ⟨uri, source, source.blocks, source.whole⟩

/-- The symbol of a module that is named on a page. -/
def moduleSymbol (page : Page) (name : String) (span : Span) : Symbol :=
  ⟨name, page.source.range span, page.uri, .mod page.whole⟩

/-- The symbol of a variable.  It can be used from its assignment on, to the end of the
    innermost block. -/
def variableSymbol (page : Page) (name : String) (span : Span) : Symbol :=
  let range := page.source.range span
  let block := innermost page.blocks range.first page.whole
  ⟨name, range, page.uri,
    .var (DocComment.above? page.source.lines span.line) ⟨range.first, block.last⟩⟩

/-- The symbol of a function. -/
def functionSymbol (page : Page) (header : Header) : Symbol :=
  let keyword := page.source.position header.keyword
  let body := ⟨page.source.position header.opens, page.source.position header.closes⟩
  ⟨header.name, page.source.range header.span, page.uri,
    .func (header.parameters.map (·.1)) (DocComment.above? page.source.lines header.span.line)
      (innermost page.blocks keyword page.whole) body
      (!page.blocks.any (·.contains keyword))⟩

/-- The symbol of a parameter.  One that has no place of its own stands at the function's
    name. -/
def parameterSymbol (page : Page) (header : Header) (parameter : String × Option Span) : Symbol :=
  ⟨parameter.1, page.source.range (parameter.2.getD header.span), page.uri,
    .param header.name ⟨page.source.position header.opens, page.source.position header.closes⟩⟩

/-- The symbols of a finding: a function is followed by its parameters. -/
def symbols (page : Page) : Finding → List Symbol
  | .declares name span => [moduleSymbol page name span]
  | .imports name span => [moduleSymbol page name span]
  | .function header =>
    functionSymbol page header :: header.parameters.map (parameterSymbol page header)
  | .assigns name span => [variableSymbol page name span]

/-- The name in the module line, with its line. -/
def declared? : List Finding → Option (String × Nat)
  | .declares name span :: _ => some (name, span.line)
  | _ => none

/-- The modules that are imported, in order. -/
def used (found : List Finding) : List String :=
  found.filterMap fun
    | .imports name _ => some name
    | _ => none

/-- The symbol table of a text, with module paths in the given syntax. -/
def table (syn : ModuleSyntax) (uri : Uri) (text : String) : SymbolTable :=
  let page := Page.ofText uri text
  let found := findings syn page.source.code
  { declaredModule := (declared? found).map (·.1)
    moduleLine := (declared? found).map (·.2)
    usedModules := used found
    symbols := found.flatMap (symbols page) }

end Outline

end ScriptServer
