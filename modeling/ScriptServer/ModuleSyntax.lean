import ScriptServer.Text.Search
import ScriptServer.Text.Mask

namespace ScriptServer

/-!
# Module paths

A module path is a row of names joined by a separator that can be configured.  Blanks around
the separators do not count.

* `ModuleSyntax` — how paths are written.
* `ModuleSyntax.normalize` — a path without the blanks around its separators.
* `ModuleSyntax.statement?` — a `module` or `use` statement at the beginning of a line.
* `ModuleSyntax.declared?` — the name that a script declares for itself.
-/

/-- How module paths are written: what stands between two names. -/
structure ModuleSyntax where
  separator : Text.Line
  deriving DecidableEq

namespace ModuleSyntax

/-- Paths written with two colons. -/
def standard : ModuleSyntax := ⟨[':', ':']⟩

/-- Paths written with this separator, less the blanks around it; a blank separator means the
    standard one.  The same would go for a separator so long that no pattern can be built for it,
    which is a matter of megabytes and left out here: any other separator can be used. -/
def ofSeparator (text : String) : ModuleSyntax :=
  match Text.trim text.toList with
  | [] => standard
  | separator => ⟨separator⟩

/-- A path without the blanks around its separators. -/
def normalize (syn : ModuleSyntax) (path : Text.Line) : Text.Line :=
  syn.separator.intercalate ((Text.splitAtPattern syn.separator path).map Text.trim)

/-- The parts of a qualified name: the module before the last separator, the member after. -/
def splitQualified? (syn : ModuleSyntax) (name : Text.Line) : Option (Text.Line × Text.Line) :=
  Text.cutLast? syn.separator name

/-! ### Reading paths -/

/-- A separator and a name at the beginning of a text, blanks before each of them allowed: the
    characters they take up, and the rest. -/
def readSegment? (syn : ModuleSyntax) (text : Text.Line) : Option (Text.Line × Text.Line) := do
  let afterSeparator ← Text.after? syn.separator (Text.trimStart text)
  let (name, rest) ← Text.readName? (Text.trimStart afterSeparator)
  return (text.takeWhile Text.isBlank ++ syn.separator
    ++ afterSeparator.takeWhile Text.isBlank ++ name, rest)

/-- Reading a segment leaves fewer characters. -/
theorem length_lt_of_readSegment? {syn : ModuleSyntax} {text taken rest : Text.Line}
    (h : syn.readSegment? text = some (taken, rest)) : rest.length < text.length := by
  have dropWhile_le : ∀ (p : Char → Bool) (l : List Char), (l.dropWhile p).length ≤ l.length :=
    fun p l => (List.dropWhile_suffix p).length_le
  simp only [readSegment?, Option.bind_eq_bind, Option.bind_eq_some_iff, Option.pure_def,
    Option.some.injEq, Prod.mk.injEq, Prod.exists] at h
  obtain ⟨afterSeparator, hsep, name, rest', hname, -, rfl⟩ := h
  have hlen : afterSeparator.length ≤ text.length := by
    have htrim := congrArg List.length (Text.after?_eq_some_iff.mp hsep)
    have hle := dropWhile_le Text.isBlank text
    simp only [Text.trimStart, List.length_append] at htrim
    omega
  unfold Text.readName? at hname
  split at hname
  · simp at hname
  · rename_i c cs heq
    split at hname
    · simp only [Option.some.injEq, Prod.mk.injEq] at hname
      obtain ⟨-, rfl⟩ := hname
      have h1 := dropWhile_le Text.isWord cs
      have h2 := dropWhile_le Text.isBlank afterSeparator
      have h3 := congrArg List.length heq
      simp only [Text.trimStart, List.length_cons] at h3
      omega
    · simp at hname

/-- The longest row of segments at the beginning of a text. -/
def readSegments (syn : ModuleSyntax) (text : Text.Line) : Text.Line :=
  match _h : syn.readSegment? text with
  | none => []
  | some (taken, rest) => taken ++ syn.readSegments rest
termination_by text.length
decreasing_by exact length_lt_of_readSegment? _h

/-- The longest path at the beginning of a text, as it is written. -/
def readPath? (syn : ModuleSyntax) (text : Text.Line) : Option Text.Line := do
  let (name, rest) ← Text.readName? text
  return name ++ syn.readSegments rest

/-! ### Statements -/

/-- A statement that names a module: what stands before the path, and the path as written. -/
structure Statement where
  before : Text.Line
  path : Text.Line

/-- The byte after the last one of the path. -/
def Statement.stop (statement : Statement) : Nat :=
  Text.size statement.before + Text.size statement.path

/-- The statement that a line begins with, if it is the keyword followed by a path. -/
def statement? (syn : ModuleSyntax) (keyword line : Text.Line) : Option Statement := do
  let rest ← Text.after? keyword (Text.trimStart line)
  let text ← Text.skipBlanks? rest
  let path ← syn.readPath? text
  return ⟨line.takeWhile Text.isBlank ++ keyword ++ rest.takeWhile Text.isBlank, path⟩

/-- The statement that declares the module of a script. -/
def moduleStatement? (syn : ModuleSyntax) (line : Text.Line) : Option Statement :=
  syn.statement? ['m', 'o', 'd', 'u', 'l', 'e'] line

/-- The statement that imports a module. -/
def useStatement? (syn : ModuleSyntax) (line : Text.Line) : Option Statement :=
  syn.statement? ['u', 's', 'e'] line

/-- The name in a statement. -/
def nameOf (syn : ModuleSyntax) (statement : Statement) : String :=
  String.ofList (syn.normalize statement.path)

/-- The module that a line without comments imports. -/
def imported? (syn : ModuleSyntax) (line : Text.Line) : Option String :=
  (syn.useStatement? line).map syn.nameOf

/-- The first line that is not blank, with its number; the given lines begin at `number`. -/
def firstCodeLine? : Nat → List Text.Line → Option (Nat × Text.Line)
  | _, [] => none
  | number, line :: rest =>
    if Text.isBlankLine line then firstCodeLine? (number + 1) rest else some (number, line)

/-- The module that a script declares on its first line of code. -/
def declared? (syn : ModuleSyntax) (text : String) : Option String := do
  let (_, line) ← firstCodeLine? 0 (Text.maskComments (Text.splitLines text))
  return syn.nameOf (← syn.moduleStatement? line)

end ModuleSyntax

end ScriptServer
