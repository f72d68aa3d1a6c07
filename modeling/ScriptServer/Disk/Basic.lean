import ScriptServer.Path

namespace ScriptServer

/-!
# The files on disk

* `Disk` — the directories and files that exist.
* `Disk.find` — what a path leads to.
* `Disk.read` — the text of a file, or the reason why there is none.
* `Disk.write`, `Disk.makeDirectory`, `Disk.remove` — changes.
* `Disk.fileNames`, `Disk.directoryNames` — the files and directories directly in a directory.
-/

/-- A place on disk: the names from the root directory down. -/
abbrev Place := List String

/-- What a file holds. -/
inductive Content where
  /-- Text in UTF-8. -/
  | text (value : String)
  /-- Bytes that are no UTF-8. -/
  | binary
  deriving DecidableEq, Repr

/-- The directories and files that exist.  The root directory always does. -/
structure Disk where
  directories : List Place
  files : List (Place × Content)
  deriving DecidableEq, Repr

/-- Why a file cannot be read as text. -/
inductive ReadError where
  | notFound
  | notADirectory
  | isADirectory
  | invalidData
  /-- A path with a character that no name can have. -/
  | invalidPath
  /-- A name or a path that is longer than any on disk. -/
  | tooLong
  deriving DecidableEq, Repr

/-- What a path leads to. -/
inductive Found where
  | directory (place : Place)
  | file (place : Place) (content : Content)
  | missing (reason : ReadError)
  deriving DecidableEq, Repr

namespace Disk

/-- A disk without files and directories. -/
def empty : Disk := ⟨[], []⟩

/-- Whether there is a directory at a place. -/
def isDirectory (disk : Disk) (place : Place) : Bool :=
  place.isEmpty || disk.directories.contains place

/-- The content of the file at a place. -/
def contentAt? (disk : Disk) (place : Place) : Option Content :=
  (disk.files.find? fun file => file.1 = place).map (·.2)

/-- What there is at a place. -/
def lookAt (disk : Disk) (place : Place) : Found :=
  if disk.isDirectory place then .directory place
  else match disk.contentAt? place with
    | some content => .file place content
    | none => .missing .notFound

/-- The longest name of a file or directory, in bytes. -/
def nameLimit : Nat := 255

/-- The longest path, in bytes. -/
def pathLimit : Nat := 4095

/-- Whether a path is short enough to lead anywhere. -/
def fits (path : Path) : Bool := path.text.utf8ByteSize ≤ pathLimit

/-- One step of a path from where it has led so far. -/
def follow (disk : Disk) : Found → Part → Found
  | .missing reason, _ => .missing reason
  | .file .., _ => .missing .notADirectory
  | .directory place, .name text =>
    if nameLimit < text.utf8ByteSize then .missing .tooLong else disk.lookAt (place ++ [text])
  | .directory place, .up => .directory place.dropLast
  | .directory place, .here => .directory place
  | .directory _, .root => .directory []

/-- What a path leads to.  Relative paths lead nowhere, and a path that ends in a slash leads
    to no file. -/
def find (disk : Disk) (path : Path) : Found :=
  if path.text.toList.contains '\x00' then .missing .invalidPath
  else if !fits path then .missing .tooLong
  else if path.isAbsolute then
    match path.parts.foldl disk.follow (.directory []) with
    | .file place content =>
      -- a slash at the end asks for a directory
      if path.endsInSlash then .missing .notADirectory else .file place content
    | found => found
  else .missing .notFound

/-- Whether a path leads to a directory. -/
def hasDirectory (disk : Disk) (path : Path) : Bool :=
  match disk.find path with
  | .directory _ => true
  | _ => false

/-- The text of the file that a path leads to. -/
def read (disk : Disk) (path : Path) : Except ReadError String :=
  match disk.find path with
  | .file _ (.text value) => .ok value
  | .file _ .binary => .error .invalidData
  | .directory _ => .error .isADirectory
  | .missing reason => .error reason

/-! ### Changes -/

/-- The places on the way to a place, itself included. -/
def wayTo : Place → List Place
  | [] => []
  | name :: rest => [name] :: (wayTo rest).map (name :: ·)

/-- The disk with a directory and all directories above it. -/
def makeDirectory (disk : Disk) (place : Place) : Disk :=
  { disk with
    directories := disk.directories
      ++ (wayTo place).filter fun way => !disk.directories.contains way }

/-- The disk with a file, and all directories above it. -/
def write (disk : Disk) (place : Place) (content : Content) : Disk :=
  let disk := disk.makeDirectory place.dropLast
  { disk with files := (disk.files.filter fun file => file.1 ≠ place) ++ [(place, content)] }

/-- The disk without what there is at a place and below it. -/
def remove (disk : Disk) (place : Place) : Disk where
  directories := disk.directories.filter fun other => !place.isPrefixOf other
  files := disk.files.filter fun file => !place.isPrefixOf file.1

/-! ### Listings -/

/-- The name of a place directly in a directory. -/
def nameIn? (directory place : Place) : Option String :=
  match place.getLast? with
  | some name => if place.dropLast = directory then some name else none
  | none => none

theorem nameIn?_eq_some {directory place : Place} {name : String} :
    nameIn? directory place = some name ↔ place = directory ++ [name] := by
  unfold nameIn?
  rcases List.eq_nil_or_concat place with rfl | ⟨above, last, rfl⟩
  · simp
  · rw [List.concat_eq_append, List.getLast?_concat, List.dropLast_concat]
    by_cases habove : above = directory
    · simp [habove]
    · simp only [habove, if_false]
      refine ⟨fun hnone => (nomatch hnone), fun h => ?_⟩
      exact absurd (List.append_inj_left' h rfl) habove

/-- Whether a name stands before another one in a listing. -/
def nameLe (a b : String) : Bool := decide (a ≤ b)

/-- The files directly in a directory, by name. -/
def fileNames (disk : Disk) (directory : Place) : List String :=
  (disk.files.filterMap fun file => nameIn? directory file.1).mergeSort nameLe

/-- The directories directly in a directory, by name. -/
def directoryNames (disk : Disk) (directory : Place) : List String :=
  (disk.directories.filterMap (nameIn? directory)).mergeSort nameLe

/-- Whether a name is hidden: it begins with a dot. -/
def isHidden (name : String) : Bool := name.toList.head? == some '.'

/-- The names from a directory down to a place below it. -/
def namesBelow? (directory place : Place) : Option (List String) :=
  if directory.isPrefixOf place then some (place.drop directory.length) else none

theorem namesBelow?_eq_some {directory place : Place} {names : List String} :
    namesBelow? directory place = some names ↔ place = directory ++ names := by
  unfold namesBelow?
  split
  · rename_i habove
    obtain ⟨below, rfl⟩ := List.isPrefixOf_iff_prefix.mp habove
    rw [List.drop_left, Option.some.injEq, List.append_cancel_left_eq]
  · rename_i habove
    rw [List.isPrefixOf_iff_prefix] at habove
    refine ⟨fun hnone => (nomatch hnone), ?_⟩
    rintro rfl
    exact absurd (List.prefix_append directory names) habove

end Disk

end ScriptServer
