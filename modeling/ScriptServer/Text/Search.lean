import ScriptServer.Text.Line

namespace ScriptServer.Text

/-!
# Searching a line for a piece of text

* `after?` — the rest of a text that begins with a pattern.
* `cutFirst?`, `cutLast?` — what stands before and after an occurrence of a pattern.
* `splitAtPattern` — the pieces between the occurrences, found from left to right without
  overlap.
* `readName?` — a declared name at the beginning of a line.
* `skipBlanks?` — the rest after at least one blank.
-/

/-- The rest of a text that begins with a pattern. -/
def after? : Line → Line → Option Line
  | [], text => some text
  | _ :: _, [] => none
  | p :: pattern, c :: text => if p = c then after? pattern text else none

/-- Something comes after a pattern exactly when the pattern stands in front of it. -/
theorem after?_eq_some_iff {pattern text rest : Line} :
    after? pattern text = some rest ↔ text = pattern ++ rest := by
  induction pattern generalizing text with
  | nil => simp [after?]
  | cons p pattern ih =>
    cases text with
    | nil => simp [after?]
    | cons c text =>
      by_cases h : p = c
      · simp [after?, h, ih]
      · simp [after?, h, Ne.symm h]

/-- The parts before and after the first occurrence of a pattern. -/
def cutFirst? (pattern : Line) : Line → Option (Line × Line)
  | [] => if pattern.isEmpty then some ([], []) else none
  | c :: rest =>
    match after? pattern (c :: rest) with
    | some after => some ([], after)
    | none => (cutFirst? pattern rest).map fun parts => (c :: parts.1, parts.2)

/-- The parts before and after the last occurrence of a pattern that is not empty. -/
def cutLast? (pattern : Line) : Line → Option (Line × Line)
  | [] => none
  | c :: rest =>
    match cutLast? pattern rest with
    | some parts => some (c :: parts.1, parts.2)
    | none => (after? pattern (c :: rest)).map fun after => ([], after)

/-- The pieces between the occurrences of a pattern; `skip` characters of the occurrence just
    met are still to be passed over. -/
def splitAtPatternFrom (pattern : Line) : Nat → Line → List Line
  | _, [] => [[]]
  | skip + 1, _ :: rest => splitAtPatternFrom pattern skip rest
  | 0, c :: rest =>
    if (after? pattern (c :: rest)).isSome then
      [] :: splitAtPatternFrom pattern (pattern.length - 1) rest
    else match splitAtPatternFrom pattern 0 rest with
      | [] => [[c]]
      | first :: others => (c :: first) :: others

/-- The pieces between the occurrences of a pattern that is not empty. -/
def splitAtPattern (pattern line : Line) : List Line :=
  splitAtPatternFrom pattern 0 line

/-- A declared name at the beginning of a line, and the rest.  The name is as long as word
    characters go. -/
def readName? : Line → Option (Line × Line)
  | [] => none
  | c :: rest =>
    if startsName c then some (c :: rest.takeWhile isWord, rest.dropWhile isWord) else none

/-- The rest of a line after all its leading blanks, of which there must be one. -/
def skipBlanks? : Line → Option Line
  | [] => none
  | c :: rest => if isBlank c then some (trimStart rest) else none

/-- A word as long as word characters go, which must not be empty, and the rest. -/
def readWord? (line : Line) : Option (Line × Line) :=
  match line.takeWhile isWord with
  | [] => none
  | word => some (word, line.dropWhile isWord)

end ScriptServer.Text
