import ScriptServer.Json.Record
import ScriptServer.ModuleSyntax
import ScriptServer.Path

namespace ScriptServer

/-!
# Settings

What an editor can configure.

* `Settings` — all settings.
* `Settings.ofJson?` — reads settings; the section `dos` may be around them.
* `Layout` — the settings that decide which files are modules and what they are called.
-/

/-- How bad an import of an unknown module is. -/
inductive Severity where
  | warning
  | error
  deriving DecidableEq, Repr

namespace Severity

/-- The name of a severity. -/
def name : Severity → String
  | .warning => "warning"
  | .error => "error"

/-- The number of a severity in diagnostics. -/
def code : Severity → Nat
  | .error => 1
  | .warning => 2

/-- The severity with this name. -/
def ofName? : String → Option Severity
  | "warning" => some .warning
  | "error" => some .error
  | _ => none

/-- A severity is a name, or an object whose only member has that name and is `null`. -/
def ofJson? : Json → Option Severity
  | .string name => ofName? name
  | .object [(name, .null)] => ofName? name
  | _ => none

end Severity

/-- Which files are modules and what they are called. -/
structure Layout where
  /-- The extension of script files, without a dot in front. -/
  extension : String
  /-- What stands between the names of a module path. -/
  separator : String
  deriving DecidableEq, Repr

/-- How module paths are written in a layout. -/
def Layout.syn (layout : Layout) : ModuleSyntax := .ofSeparator layout.separator

/-- What an editor can configure. -/
structure Settings where
  /-- Where modules are looked for, from the workspace on; by default the workspace itself. -/
  moduleRoot : Option Path := none
  extension : String := "dos"
  moduleSeparator : String := "::"
  /-- How many seconds database listings stay fresh. -/
  metadataRefreshSecs : Nat := 30
  /-- How many bytes a document may have. -/
  maxDocumentSize : Nat := 10 * 1024 * 1024
  unknownModuleSeverity : Severity := .warning
  deriving DecidableEq, Repr

namespace Settings

/-- The names of the settings, in their order. -/
def names : List String :=
  ["moduleRoot", "extension", "moduleSeparator", "metadataRefreshSecs", "maxDocumentSize",
    "unknownModuleSeverity"]

/-- A path is a text. -/
def pathOfJson? (value : Json) : Option Path := value.asString?.map Path.mk

/-- A count fits in 64 bits. -/
def countOfJson? (value : Json) : Option Nat := value.asNatBelow? Word.limit64

/-- Reads a record of settings.  What is left out keeps its default. -/
def ofRecord? (value : Json) : Option Settings := do
  let field ← value.partialRecord? names
  let moduleRoot ← Json.optional none (Json.nullable pathOfJson?) (field "moduleRoot")
  let extension ← Json.optional "dos" Json.asString? (field "extension")
  let moduleSeparator ← Json.optional "::" Json.asString? (field "moduleSeparator")
  let metadataRefreshSecs ← Json.optional 30 countOfJson? (field "metadataRefreshSecs")
  let maxDocumentSize ← Json.optional (10 * 1024 * 1024) countOfJson? (field "maxDocumentSize")
  let unknownModuleSeverity ←
    Json.optional .warning Severity.ofJson? (field "unknownModuleSeverity")
  return { moduleRoot, extension, moduleSeparator, metadataRefreshSecs, maxDocumentSize,
           unknownModuleSeverity }

/-- Reads settings.  They may stand in a section of their own, and `null` means the defaults. -/
def ofJson? (value : Json) : Option Settings :=
  let value := (value.get? "dos").getD value
  if value.isNull then some {} else ofRecord? value

/-- Where modules are looked for in a workspace. -/
def moduleRootIn (settings : Settings) (workspace : Path) : Path :=
  match settings.moduleRoot with
  | some root => workspace.join root
  | none => workspace

/-- The layout of the modules. -/
def layout (settings : Settings) : Layout where
  extension := String.ofList (settings.extension.toList.dropWhile (· == '.'))
  separator := settings.moduleSeparator

/-- How module paths are written. -/
def syn (settings : Settings) : ModuleSyntax := settings.layout.syn

/-- How many milliseconds database listings stay fresh. -/
def refreshMillis (settings : Settings) : Nat := settings.metadataRefreshSecs * 1000

/-- Whether two optional module roots mean the same. -/
def sameRoot : Option Path → Option Path → Bool
  | none, none => true
  | some p, some q => p.same q
  | _, _ => false

/-- Whether modules have to be looked for anew when settings replace other ones. -/
def needsScan (old new : Settings) : Bool :=
  old.layout ≠ new.layout || !sameRoot old.moduleRoot new.moduleRoot

end Settings

end ScriptServer
