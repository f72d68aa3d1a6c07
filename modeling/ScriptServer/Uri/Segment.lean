import ScriptServer.Text.Search
import ScriptServer.Uri.Basic

namespace ScriptServer.Uri

/-!
# Paths in identifiers

A path is a row of segments with slashes between.  Dots are resolved: one stands for nothing, two
take back the segment before.  A segment that may name a drive, such as `C:`, is never taken back.

* `Way` — where the segments so far have led.
* `normalPath` — a path in normal form.
* `filePath` — the same for the path of a file, which may begin with a drive.
-/

open Text

/-- The text between two slashes. -/
abbrev Segment := List Char

namespace Segment

/-- Whether a segment is a dot, which may be escaped. -/
def isDot (segment : Segment) : Bool :=
  [".", "%2e"].contains (String.ofList (segment.map Char.toLower))

/-- Whether a segment is two dots, each of which may be escaped. -/
def isDotDot (segment : Segment) : Bool :=
  ["..", ".%2e", "%2e.", "%2e%2e"].contains (String.ofList (segment.map Char.toLower))

/-- Whether a segment may name a drive: a letter and a colon or a bar. -/
def isDrive : Segment → Bool
  | [letter, mark] => letter.isAlpha && (mark == ':' || mark == '|')
  | _ => false

/-- Whether a segment is a drive, up to a backslash. -/
def startsWithDrive (segment : Segment) : Bool := isDrive (segment.takeWhile (· != '\\'))

end Segment

/-! ### Tabs and line breaks -/

/-- Whether a character is a tab or a line break, which do not count in identifiers. -/
def isBreak (c : Char) : Bool := c == '\t' || c == '\n' || c == '\r'

/-- A text without tabs and line breaks. -/
def withoutBreaks (text : List Char) : List Char := text.filter (!isBreak ·)

/-- A text with a tab or a line break right behind a drive, as the drive and what follows. -/
def cutDrive? (text : List Char) : Option (Segment × Segment) :=
  match text.dropWhile isBreak with
  | letter :: rest =>
    match rest.dropWhile isBreak with
    | ':' :: c :: rest =>
      let after := withoutBreaks (c :: rest)
      if letter.isAlpha && isBreak c && !after.isEmpty then some ([letter, ':'], after) else none
    | _ => none
  | [] => none

/-! ### Following a path -/

/-- Where the segments so far have led. -/
structure Way where
  /-- The segments that are left, the last first. -/
  kept : List Segment := []
  /-- Whether the first of them was read as a drive. -/
  hasDrive : Bool := false

namespace Way

/-- One segment more. -/
def enter (way : Way) (text : List Char) : Way :=
  let segment := withoutBreaks text
  if Segment.isDotDot segment then
    match way.kept with
    | last :: before =>
      if Segment.startsWithDrive last then way else { way with kept := before }
    | [] => way
  else if Segment.isDot segment then way
  else { way with kept := segment :: way.kept }

/-- One segment more in the path of a file.  A drive at the start is written with a colon, and a
    tab or a line break ends it like a slash. -/
def enterFile (way : Way) (text : List Char) : Way :=
  let segment := withoutBreaks text
  if way.kept.isEmpty then
    match cutDrive? text with
    | some (drive, after) => { way with kept := [after, drive] }
    | none =>
      if Segment.isDrive segment then { kept := [segment.take 1 ++ [':']], hasDrive := true }
      else way.enter text
  else way.enter text

/-- Behind dots at the end of a path there is an empty segment. -/
def finish (way : Way) (last : List Char) : Way :=
  let segment := withoutBreaks last
  if Segment.isDotDot segment || Segment.isDot segment then { way with kept := [] :: way.kept }
  else way

/-- Follows a row of segments. -/
def follow (enter : Way → List Char → Way) (segments : List (List Char)) : Way :=
  (segments.foldl enter {}).finish (segments.getLast?.getD [])

end Way

/-! ### Paths -/

/-- Segments as they are written. -/
def pathText (segments : List Segment) : List Char :=
  segments.flatMap fun segment => '/' :: escape inPathSet segment

/-- A path from the text after its first slash. -/
def normalPath (text : List Char) : List Char :=
  pathText (Way.follow Way.enter (splitAtChar '/' text)).kept.reverse

/-- The path of a file from the text after its first slash, and whether it begins with a drive.
    Empty segments at the start are left out. -/
def filePath (text : List Char) : List Char × Bool :=
  let way := Way.follow Way.enterFile (splitAtChar '/' text)
  match way.kept.reverse.dropWhile (·.isEmpty) with
  | [] => (['/'], way.hasDrive)
  | segments => (pathText segments, way.hasDrive)

end ScriptServer.Uri
