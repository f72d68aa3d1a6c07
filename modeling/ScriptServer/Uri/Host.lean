import ScriptServer.Domain.Name
import ScriptServer.Uri.Address
import ScriptServer.Uri.Basic

namespace ScriptServer.Uri

/-!
# Hosts

* `Host` — who is meant by an identifier: a name, or a numeric address.
* `Host.parse?` — the host of a file or a web address, whose names follow the rules for names on
  the net.
* `Host.parseOpaque?` — the host of any other identifier, whose names may be anything.
-/

/-- Who is meant by an identifier. -/
inductive Host where
  | name (text : List Char)
  /-- An address of four numbers, as one number. -/
  | v4 (address : Nat)
  /-- An address of eight pieces. -/
  | v6 (pieces : List Nat)
  deriving DecidableEq, Repr

namespace Host

/-- A host as it is written. -/
def text : Host → List Char
  | .name text => text
  | .v4 address => textOfV4 address
  | .v6 pieces => '[' :: textOfV6 pieces ++ [']']

/-- Whether no one is named. -/
def isEmpty (host : Host) : Bool := host = .name []

/-- This machine. -/
def thisMachine : Host := .name "localhost".toList

/-- Whether a character may not stand in a name that may be anything. -/
def isReserved (c : Char) : Bool :=
  ['\x00', '\t', '\n', '\r', ' ', '#', '/', ':', '<', '>', '?', '@', '[', '\\', ']', '^',
    '|'].contains c

/-- Whether a character may not stand in a name on the net. -/
def isForbidden (c : Char) : Bool := isControl c || isReserved c || c == '%'

/-- An address in brackets. -/
def parseBracketed? (text : List Char) : Option Host :=
  match text.reverse with
  | ']' :: inner => (parseV6? inner.reverse).map .v6
  | _ => none

/-- A name on the net, which may have escapes; a name that ends in a number is an address. -/
def parseName? (text : List Char) : Option Host := do
  let plain ← textOfBytes? (unescape text)
  let name ← Domain.asciiForm? plain.toList
  if name.isEmpty || name.any isForbidden then none
  else if endsInNumber name then (parseV4? name).map .v4
  else some (.name name)

/-- The host of a file or a web address. -/
def parse? : List Char → Option Host
  | '[' :: rest => parseBracketed? rest
  | text => parseName? text

/-- The host of any other identifier. -/
def parseOpaque? : List Char → Option Host
  | '[' :: rest => parseBracketed? rest
  | text => if text.any isReserved then none else some (.name (escape (fun _ => false) text))

end Host

end ScriptServer.Uri
