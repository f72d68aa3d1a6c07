import ScriptServer.Text.Search

namespace ScriptServer.Declaration

/-!
# Assignments

A variable is declared by its assignment: a name at the beginning of a statement, followed by
an equals sign that is not the first of two.

* `assignmentAt?` — an assignment at the beginning of a text.
* `assignments` — the assignments of a line of code, from left to right without overlap.
-/

open Text

/-- An assignment: the blanks before the name, the name, and how many characters it takes up
    including the one after the equals sign. -/
structure Assignment where
  gap : Line
  name : Line
  length : Nat

/-- The assignment at the beginning of a text.  The character after the equals sign belongs to
    it, so a statement that begins with that character is not seen. -/
def assignmentAt? (text : Line) : Option Assignment := do
  let gap := text.takeWhile isBlank
  let (name, rest) ← readName? (trimStart text)
  let right ← after? ['='] (trimStart rest)
  let length := gap.length + name.length + (rest.takeWhile isBlank).length + 1
  match right with
  | [] => return ⟨gap, name, length⟩
  | c :: _ => if c = '=' then none else return ⟨gap, name, length + 1⟩

/-- An assigned name in a line of code, with its byte offset. -/
structure Assigned where
  name : Line
  offset : Nat

/-- The assignments after a semicolon or an opening brace in the rest of a line that begins at
    a byte offset; `skip` characters of the last assignment are still to be passed over. -/
def assignmentsAfter : Nat → Nat → Line → List Assigned
  | _, _, [] => []
  | skip + 1, offset, c :: rest => assignmentsAfter skip (offset + c.utf8Size) rest
  | 0, offset, c :: rest =>
    let next := offset + c.utf8Size
    if c = ';' ∨ c = '{' then
      match assignmentAt? rest with
      | some found =>
        ⟨found.name, next + size found.gap⟩ :: assignmentsAfter found.length next rest
      | none => assignmentsAfter 0 next rest
    else assignmentsAfter 0 next rest

/-- The assignments of a line of code. -/
def assignments (line : Line) : List Assigned :=
  match assignmentAt? line with
  | some found => ⟨found.name, size found.gap⟩ :: assignmentsAfter found.length 0 line
  | none => assignmentsAfter 0 0 line

end ScriptServer.Declaration
