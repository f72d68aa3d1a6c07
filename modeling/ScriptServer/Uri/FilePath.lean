import ScriptServer.Path
import ScriptServer.Text.Search
import ScriptServer.Uri.Basic

namespace ScriptServer.Uri

/-!
# Identifiers of files

* `Uri.ofPath?` — the identifier of the file with an absolute path.
* `Uri.path?` — the path that an identifier stands for, if it has one on this machine.

A file has one identifier, but a path may be spelled by several: `a%62` and `ab` are the same
name.
-/

open Text

/-- A part of a path as a segment. -/
def segmentOf : Part → List Char
  | .root => []
  | .here => ['.']
  | .up => ['.', '.']
  | .name text => escape inNameSet text.toList

/-- The identifier of the file with an absolute path. -/
def ofPath? (path : Path) : Option Uri :=
  if path.isAbsolute then
    match path.parts.tail with
    | [] => some ⟨"file:///"⟩
    | parts =>
      let segments := parts.flatMap fun part => '/' :: segmentOf part
      some ⟨String.ofList ("file://".toList ++ segments)⟩
  else none

/-- The part of an identifier after its scheme. -/
def afterScheme (uri : Uri) : List Char := (uri.text.toList.dropWhile (· != ':')).drop 1

/-- Whether what stands between the two slashes and the path means this machine. -/
def isLocal (authority : List Char) : Bool :=
  let server := match cutLast? ['@'] authority with
    | some (_, server) => server
    | none => authority
  let host := server.takeWhile (· != ':')
  host.isEmpty || host == "localhost".toList

/-- Whether a character ends what stands between the two slashes and the path. -/
def endsAuthority (c : Char) : Bool := c == '/' || c == '?' || c == '#'

/-- The path of an identifier on this machine, still with its escapes. -/
def rawPath? (uri : Uri) : Option (List Char) :=
  let (authority, rest) := match uri.afterScheme with
    | '/' :: '/' :: rest => (rest.takeWhile (!endsAuthority ·), rest.dropWhile (!endsAuthority ·))
    -- a dot keeps two slashes at the start of a path apart from those in front of a host
    | '/' :: '.' :: '/' :: '/' :: rest => ([], '/' :: '/' :: rest)
    | rest => ([], rest)
  match rest.takeWhile fun c => c != '?' && c != '#' with
  | '/' :: path => if isLocal authority then some ('/' :: path) else none
  | _ => none

/-- A path whose last name is a letter and a colon, which may name a drive, ends in a slash. -/
def closeDrive (path : String) : String :=
  match path.toList.reverse with
  | mark :: letter :: _ :: _ =>
    if (mark == ':' || mark == '|') && letter.isAlpha then path ++ "/" else path
  | _ => path

/-- The path that an identifier stands for. -/
def path? (uri : Uri) : Option Path := do
  let raw ← uri.rawPath?
  return ⟨closeDrive (← textOfBytes? (unescape raw))⟩

end ScriptServer.Uri
