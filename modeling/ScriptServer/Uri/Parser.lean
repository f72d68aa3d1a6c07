import ScriptServer.Uri.Basic
import ScriptServer.Uri.Host
import ScriptServer.Uri.Segment

namespace ScriptServer.Uri

/-!
# Reading identifiers

Editors may write one identifier in several ways.  Reading brings it into normal form: the scheme
in lower case, dots in the path resolved, the host in its ASCII form, what may not stand as it is
escaped.

* `Uri.parse?` — the identifier that a text denotes.

The identifiers of files and the addresses of the web (`http` and a few more) always have a path
that begins with a slash, and take backslashes for slashes.  Other schemes may have a path without
structure, as in `untitled:Untitled-1`.
-/

open Text

/-! ### Schemes -/

/-- The schemes of the web with their standard ports. -/
def webSchemes : List (String × Nat) :=
  [("http", 80), ("https", 443), ("ws", 80), ("wss", 443), ("ftp", 21)]

/-- Whether a character may stand in a scheme after its first letter. -/
def isSchemeChar (c : Char) : Bool := c.isAlphanum || c == '+' || c == '-' || c == '.'

/-- A text without control characters and blanks at its ends. -/
def trimmed (text : List Char) : List Char :=
  let isEdge := fun c : Char => decide (c.toNat ≤ 0x20)
  (text.dropWhile isEdge).reverse.dropWhile isEdge |>.reverse

/-- The scheme in lower case, and the rest after its colon. -/
def readScheme? (text : List Char) : Option (String × List Char) :=
  match cutFirst? [':'] text with
  | some (start, rest) =>
    match withoutBreaks start with
    | c :: others =>
      if c.isAlpha && others.all isSchemeChar then
        some (String.ofList ((c :: others).map Char.toLower), rest)
      else none
    | [] => none
  | none => none

/-! ### Queries and fragments -/

/-- A text up to one of the characters that end it, and the rest. -/
def cutAt (ends : List Char) (text : List Char) : List Char × List Char :=
  (text.takeWhile (!ends.contains ·), text.dropWhile (!ends.contains ·))

/-- What is escaped in the query of a web address or a file. -/
def inWebQuerySet (c : Char) : Bool := inQuerySet c || c == '\x27'

/-- Query and fragment in normal form; `inSet` is escaped in the query. -/
def normalTail (inSet : Char → Bool) (text : List Char) : List Char :=
  match text with
  | '?' :: rest =>
    let (query, fragment) := cutAt ['#'] rest
    let fragment := match fragment with
      | '#' :: rest => '#' :: escape inFragmentSet rest
      | other => other
    '?' :: escape inSet query ++ fragment
  | '#' :: rest => '#' :: escape inFragmentSet rest
  | other => other

/-- Slashes in place of backslashes, up to where the path ends. -/
def unifySlashes (text : List Char) : List Char :=
  let (path, tail) := cutAt ['?', '#'] text
  path.map (fun c => if c == '\\' then '/' else c) ++ tail

/-! ### Users and ports -/

/-- What is escaped in the name of a user and in a password. -/
def inUserSet (c : Char) : Bool :=
  inPathSet c || ['/', ':', ';', '=', '@', '[', '\\', ']', '^', '|'].contains c

/-- A user, perhaps with a password, up to and with the `@`.  An empty password leaves no colon,
    and when both are empty nothing is left. -/
def normalUser (text : List Char) : List Char :=
  let (name, password) := match cutFirst? [':'] text with
    | some (name, password) => (name, password)
    | none => (text, [])
  let written := escape inUserSet name
    ++ (if password.isEmpty then [] else ':' :: escape inUserSet password)
  if written.isEmpty then [] else written ++ ['@']

/-- The port in front of a path, which is left out where it is the standard one. -/
def normalPort? (standard : Option Nat) (port : List Char) : Option (List Char) :=
  if port.isEmpty then some []
  else do
    let value ← if port.all Char.isDigit then numberInBase? 10 port else none
    if 65536 ≤ value then none
    else if some value = standard then some []
    else some (':' :: value.repr.toList)

/-- The text of a host and of a port.  A colon in brackets belongs to the host. -/
def cutPort (text : List Char) : List Char × Option (List Char) :=
  go false text
where
  go (inBrackets : Bool) : List Char → List Char × Option (List Char)
    | [] => ([], none)
    | c :: rest =>
      if c == ':' && !inBrackets then ([], some rest)
      else
        let (host, port) := go (c == '[' || (inBrackets && c != ']')) rest
        (c :: host, port)

/-- The user, if one is given, and the host with its port. -/
def cutUser (text : List Char) : Option (List Char) × List Char :=
  match cutLast? ['@'] text with
  | some (user, server) => (some user, server)
  | none => (none, text)

/-- User, host and port; `isLast` tells whether the text ends with them.  A host may only be
    missing where nothing else is given. -/
def normalAuthority? (parseHost? : List Char → Option Host) (standard : Option Nat)
    (isLast : Bool) (text : List Char) : Option (List Char) := do
  if text = ['@'] ∧ !isLast then none
  let (user, server) := cutUser text
  let user := normalUser (user.getD [])
  let (hostText, port) := cutPort server
  let host ← parseHost? hostText
  if host.isEmpty && (!user.isEmpty || port.isSome) then none
  return user ++ host.text ++ (← normalPort? standard (port.getD []))

/-! ### The kinds of schemes -/

/-- The text after a slash. -/
def afterSlash? (text : List Char) : Option (List Char) :=
  match text.dropWhile isBreak with
  | '/' :: rest => some rest
  | _ => none

/-- A file identifier after its scheme.  The host may be left out, and the local one is; so is the
    host in front of a drive. -/
def parseFile? (text : List Char) : Option (List Char) := do
  let (start, tail) := cutAt ['?', '#'] (unifySlashes text)
  let single := (afterSlash? start).getD start
  let (host, path) ← match (afterSlash? start).bind afterSlash? with
    | none => some ([], single)
    | some rest =>
      let (hostText, path) := cutAt ['/'] rest
      let hostText := withoutBreaks hostText
      if Segment.isDrive hostText then some ([], rest)
      else if hostText.isEmpty then some ([], path.drop 1)
      else (Host.parse? hostText).map fun host =>
        (if host = .thisMachine then [] else host.text, path.drop 1)
  let (path, hasDrive) := filePath path
  return "file://".toList ++ (if hasDrive then [] else host) ++ path
    ++ normalTail inWebQuerySet (withoutBreaks tail)

/-- A web address after its scheme. -/
def parseWeb? (scheme : String) (standard : Nat) (text : List Char) : Option (List Char) := do
  let (start, tail) := cutAt ['?', '#'] ((unifySlashes text).dropWhile (· == '/'))
  let (authority, path) := cutAt ['/'] start
  let authority ← normalAuthority? Host.parse? standard false authority
  return scheme.toList ++ "://".toList ++ authority ++ normalPath (path.drop 1)
    ++ normalTail inWebQuerySet tail

/-- What stands behind a port.  A backslash ends it, though it is no slash. -/
def afterPort (authority : List Char) : List Char :=
  ((cutPort (cutUser authority).2).2.getD []).dropWhile (· != '\\')

/-- What stands after two slashes in an identifier of any other scheme; `isLast` tells whether the
    text ends with it. -/
def otherHost? (isLast : Bool) (text : List Char) : Option (List Char) := do
  let (authority, path) := cutAt ['/'] text
  let extra := afterPort authority
  let written ← normalAuthority? Host.parseOpaque? none (isLast && path.isEmpty)
    (authority.take (authority.length - extra.length))
  let path :=
    if !extra.isEmpty then normalPath (extra ++ path)
    else if path.isEmpty then []
    else normalPath (path.drop 1)
  return '/' :: '/' :: written ++ path

/-- A path after one slash.  Two slashes at its start would be taken for those in front of a host,
    so a dot keeps them apart. -/
def otherPath (text : List Char) : List Char :=
  let path := normalPath text
  if ['/', '/'].isPrefixOf path then '/' :: '.' :: path else path

/-- An identifier of any other scheme after its scheme. -/
def parseOther? (scheme : String) (text : List Char) : Option (List Char) := do
  let (start, tail) := cutAt ['?', '#'] text
  let written ← match start with
    | '/' :: '/' :: rest => otherHost? tail.isEmpty rest
    | '/' :: rest => some (otherPath rest)
    | path => some (escape (fun _ => false) path)
  return scheme.toList ++ ':' :: written ++ normalTail inQuerySet tail

/-- The identifier that a text denotes. -/
def parse? (text : String) : Option Uri := do
  let (scheme, rest) ← readScheme? (trimmed text.toList)
  let normal ←
    if scheme = "file" then parseFile? rest
    else match webSchemes.lookup scheme with
      | some port => parseWeb? scheme port (withoutBreaks rest)
      | none => parseOther? scheme (withoutBreaks rest)
  return ⟨String.ofList normal⟩

end ScriptServer.Uri
