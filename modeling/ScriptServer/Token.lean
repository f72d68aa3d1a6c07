import ScriptServer.Position
import ScriptServer.Text.Search

namespace ScriptServer

/-!
# The token under the cursor

A token is an identifier, or several identifiers joined by the separator of module paths.  The
cursor may stand anywhere in it, at its beginning and at its end as well.

* `Token.at?` — the token that a position touches.
-/

/-- A token of a document. -/
structure Token where
  /-- The identifiers and the separators between them. -/
  text : Text.Line
  range : Range
  /-- Whether an opening parenthesis follows at once. -/
  isCall : Bool
  deriving DecidableEq

namespace Token

open Text

/-- A separator followed by an identifier at the beginning of a text, and the rest. -/
def readMember? (separator text : Line) : Option (Line × Line) :=
  match after? separator text with
  | none => none
  | some rest =>
    match rest.takeWhile isIdent with
    | [] => none
    | c :: run => some (separator ++ c :: run, rest.dropWhile isIdent)

/-- Reading a member leaves fewer characters. -/
theorem length_lt_of_readMember? {separator text taken rest : Line}
    (h : readMember? separator text = some (taken, rest)) : rest.length < text.length := by
  unfold readMember? at h
  split at h
  · simp at h
  · rename_i middle hmiddle
    have hlen := congrArg List.length (after?_eq_some_iff.mp hmiddle)
    have hsplit :=
      congrArg List.length (List.takeWhile_append_dropWhile (p := isIdent) (l := middle))
    split at h
    · simp at h
    · rename_i c run hrun
      simp only [Option.some.injEq, Prod.mk.injEq] at h
      obtain ⟨-, rfl⟩ := h
      simp only [hrun, List.length_append, List.length_cons] at hlen hsplit
      omega

/-- The longest row of members at the beginning of a text. -/
def readMembers (separator text : Line) : Line :=
  match _h : readMember? separator text with
  | none => []
  | some (taken, rest) => taken ++ readMembers separator rest
termination_by text.length
decreasing_by exact length_lt_of_readMember? _h

/-- How far a token goes into a text that begins at the cursor: the identifier it begins with,
    and the members after that. -/
def reach (separator text : Line) : Line :=
  text.takeWhile isIdent ++ readMembers separator (text.dropWhile isIdent)

/-- The token that touches a byte offset of a line.  Read backwards, the part before the cursor
    looks like the part after it, with the separator reversed. -/
def inLine? (number : Nat) (line : Line) (offset : Nat) (separator : Line) : Option Token :=
  let (before, after) := splitAtOffset line offset
  if before.reverse.head?.any isIdent || after.head?.any isIdent then
    let left := (reach separator.reverse before.reverse).reverse
    let right := reach separator after
    let start := size before - size left
    let stop := size before + size right
    some
      { text := left ++ right
        range := ⟨⟨number, columnAt line start⟩, ⟨number, columnAt line stop⟩⟩
        isCall := (after.drop right.length).head? == some '(' }
  else none

/-- The token that touches a position. -/
def at? (lines : List Line) (point : Position) (separator : Line) : Option Token := do
  let line ← lines[point.line]?
  inLine? point.line line (offsetAt line point.column) separator

end Token

end ScriptServer
