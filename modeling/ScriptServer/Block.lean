import ScriptServer.Source

namespace ScriptServer

/-!
# Blocks

A block is the range from an opening brace to the closing brace that matches it.  Pairing never
fails: an opening brace that is never closed makes no block, and a closing brace that closes
nothing is passed over.

* `braces` — the braces of code, in order.
* `pairBraces` — every closing brace with the latest opening brace still open.
* `matchingClose?` — the same for one opening brace, by counting.
* `Source.blocks`, `Source.whole` — the blocks of a script, and the range of all of it.
* `innermost` — the smallest block around a position.
-/

/-- A brace of the code. -/
structure Brace where
  /-- Whether it opens a block or closes one. -/
  opens : Bool
  spot : Spot
  deriving DecidableEq, Repr

/-- The braces of the rest of a line that begins at a byte offset. -/
def bracesInLine (number : Nat) : Nat → Text.Line → List Brace
  | _, [] => []
  | offset, c :: rest =>
    let later := bracesInLine number (offset + c.utf8Size) rest
    if c = '{' then ⟨true, ⟨number, offset⟩⟩ :: later
    else if c = '}' then ⟨false, ⟨number, offset⟩⟩ :: later
    else later

/-- The braces of lines of code, the first of which has this number. -/
def braces : Nat → List Text.Line → List Brace
  | _, [] => []
  | number, line :: rest => bracesInLine number 0 line ++ braces (number + 1) rest

/-- The matched pairs, in the order of their closing braces; `unclosed` holds the opening
    braces met so far, the latest first. -/
def pairBraces : List Spot → List Brace → List (Spot × Spot)
  | _, [] => []
  | unclosed, brace :: rest =>
    if brace.opens then pairBraces (brace.spot :: unclosed) rest
    else match unclosed with
      | [] => pairBraces [] rest
      | first :: others => (first, brace.spot) :: pairBraces others rest

/-- The brace that closes a block, from the braces after the one that opens it; `depth` inner
    blocks are open as well. -/
def matchingClose? : Nat → List Brace → Option Spot
  | _, [] => none
  | depth, brace :: rest =>
    if brace.opens then matchingClose? (depth + 1) rest
    else match depth with
      | 0 => some brace.spot
      | inner + 1 => matchingClose? inner rest

namespace Source

/-- The blocks of a script, in the order in which they close. -/
def blocks (source : Source) : List Range :=
  (pairBraces [] (braces 0 source.code)).map fun pair =>
    ⟨source.position pair.1, source.position pair.2⟩

/-- The range of the whole script. -/
def whole (source : Source) : Range :=
  ⟨.origin, ⟨source.lines.length - 1, Text.width (source.lines.getLast?.getD [])⟩⟩

end Source

/-- Of two ranges the one that begins later; of two that begin together, the second. -/
def laterStart : Option Range → Range → Option Range
  | none, block => some block
  | some best, block => if best.first ≤ block.first then some block else some best

/-- The block around a position that begins last, or the fallback when none is around it.
    Since blocks are nested or apart, that is the smallest one. -/
def innermost (blocks : List Range) (point : Position) (fallback : Range) : Range :=
  ((blocks.filter (·.contains point)).foldl laterStart none).getD fallback

end ScriptServer
