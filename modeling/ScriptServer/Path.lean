import ScriptServer.Text.Search

namespace ScriptServer

/-!
# Paths

A path keeps the way it is written, since messages and answers show it.  What it means is the
row of its parts: repeated slashes, a slash at the end and single dots make no difference.

* `Path.parts` — the parts.  Paths are compared, ordered and looked up by them.
* `Path.parent?`, `Path.join`, `Path.child` — the directory around a path, and paths below one.
* `Path.relativeTo?` — the parts of a path below another one.
* `Path.insert` — adds a path to an ordered list without repetition.
* `splitExtension` — a file name without its extension, and the extension.
-/

/-- A part of a path. -/
inductive Part where
  /-- The root directory. -/
  | root
  /-- A dot in front of a relative path. -/
  | here
  /-- Two dots: the directory above. -/
  | up
  /-- A name. -/
  | name (text : String)
  deriving DecidableEq, Repr

namespace Part

/-- The order of the kinds of parts. -/
def rank : Part → Nat
  | .root => 0
  | .here => 1
  | .up => 2
  | .name _ => 3

/-- Earlier in the order of parts; names are ordered by their characters. -/
def before : Part → Part → Bool
  | .name a, .name b => decide (a < b)
  | a, b => decide (a.rank < b.rank)

/-- The part that a piece between slashes stands for, if any. -/
def ofPiece? : Text.Line → Option Part
  | [] => none
  | ['.'] => none
  | ['.', '.'] => some .up
  | piece => some (.name (String.ofList piece))

/-- The name, if the part is one. -/
def name? : Part → Option String
  | .name text => some text
  | _ => none

/-- The order of rows of parts: the first difference decides, and a shorter row comes first. -/
def rowLe : List Part → List Part → Bool
  | [], _ => true
  | _ :: _, [] => false
  | a :: as, b :: bs => if a = b then rowLe as bs else a.before b

end Part

/-- A path, as it is written. -/
structure Path where
  text : String
  deriving DecidableEq, Repr

namespace Path

/-- The pieces between the slashes. -/
def pieces (p : Path) : List Text.Line :=
  Text.splitAtChar '/' p.text.toList

/-- What a path means. -/
def parts (p : Path) : List Part :=
  match p.pieces with
  | [] => []
  | [[]] => []
  | [] :: rest => .root :: rest.filterMap Part.ofPiece?
  | ['.'] :: rest => .here :: rest.filterMap Part.ofPiece?
  | all => all.filterMap Part.ofPiece?

/-- Whether two paths mean the same. -/
def same (p q : Path) : Bool := p.parts = q.parts

/-- Whether a path begins at the root directory. -/
def isAbsolute (p : Path) : Bool := p.text.toList.head? == some '/'

/-- Whether a path is written so that it can only mean a directory: with a slash, or a slash
    and a dot, at its end. -/
def endsInSlash (p : Path) : Bool :=
  match p.pieces.reverse with
  | [] => false
  | [_] => false
  | last :: _ => last = [] || last = ['.']

/-- The row of parts below a directory, when the path lies in it. -/
def rowAfter? : List Part → List Part → Option (List Part)
  | [], row => some row
  | _ :: _, [] => none
  | a :: as, b :: bs => if a = b then rowAfter? as bs else none

/-- The parts of a path below a directory, when it lies in it. -/
def relativeTo? (p dir : Path) : Option (List Part) :=
  rowAfter? dir.parts p.parts

/-- Whether a path is a directory or lies somewhere below it. -/
def isUnder (p dir : Path) : Bool := (p.relativeTo? dir).isSome

/-- Whether a piece adds nothing to a path. -/
def isVoid (piece : Text.Line) : Bool := piece = [] || piece = ['.']

/-- The directory around a path, with its spelling kept.  The root directory and the empty path
    have none. -/
def parent? (p : Path) : Option Path :=
  match p.parts.getLast?, p.pieces with
  | none, _ => none
  | some .root, _ => none
  | some _, [] => none
  | some _, first :: rest =>
    match rest.reverse.dropWhile isVoid with
    | [] => some ⟨""⟩
    | _ :: above =>
      match above.dropWhile isVoid with
      | [] => some ⟨if first = [] then "/" else String.ofList first⟩
      | kept => some ⟨String.ofList (['/'].intercalate (first :: kept.reverse))⟩

/-- A path taken from a directory; an absolute path stands for itself. -/
def join (dir p : Path) : Path :=
  if p.isAbsolute then p
  else if dir.text.isEmpty || dir.text.toList.getLast? == some '/' then ⟨dir.text ++ p.text⟩
  else ⟨dir.text ++ "/" ++ p.text⟩

/-- The path of a name in a directory. -/
def child (dir : Path) (name : String) : Path := dir.join ⟨name⟩

/-- The path of a row of names below a directory. -/
def descend (dir : Path) (names : List String) : Path := names.foldl child dir

/-! ### Ordered lists of paths -/

/-- Adds a path to an ordered list, unless the list holds one that means the same. -/
def insert (p : Path) : List Path → List Path
  | [] => [p]
  | q :: rest =>
    if p.same q then q :: rest
    else if Part.rowLe p.parts q.parts then p :: q :: rest
    else q :: insert p rest

/-- The paths of a list in order, each meaning once. -/
def sorted (paths : List Path) : List Path :=
  paths.foldl (fun set p => insert p set) []

/-- Whether a list holds a path that means the same. -/
def memberOf (p : Path) (paths : List Path) : Bool := paths.any p.same

end Path

/-! ### File names -/

/-- A file name up to its last dot, and the extension after it.  A dot in front of the name
    begins no extension. -/
def splitExtension (name : Text.Line) : Text.Line × Option Text.Line :=
  match Text.cutLast? ['.'] name with
  | none => (name, none)
  | some ([], _) => (name, none)
  | some (stem, extension) => (stem, some extension)

end ScriptServer
