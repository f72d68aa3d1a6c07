namespace ScriptServer

/-!
# Positions and ranges

* `Position` — a place in a document: line and column, both from zero, columns in UTF-16 code
  units.  Positions are ordered first by line, then by column.  Both counts have no bound; kept in
  32 bits they are the same for documents of fewer than `2 ^ 32` lines, each of fewer than `2 ^ 32`
  code units.
* `Range` — all positions from a first to a last one, both included.
-/

/-- A place in a document. -/
structure Position where
  line : Nat
  column : Nat
  deriving DecidableEq, Repr

namespace Position

/-- The place where a document begins. -/
def origin : Position := ⟨0, 0⟩

/-- Earlier in the document, or the same place. -/
protected def le (p q : Position) : Prop :=
  p.line < q.line ∨ (p.line = q.line ∧ p.column ≤ q.column)

/-- Strictly earlier in the document. -/
protected def lt (p q : Position) : Prop :=
  p.line < q.line ∨ (p.line = q.line ∧ p.column < q.column)

instance : LE Position := ⟨Position.le⟩

instance : LT Position := ⟨Position.lt⟩

instance (p q : Position) : Decidable (p ≤ q) :=
  inferInstanceAs (Decidable (p.line < q.line ∨ (p.line = q.line ∧ p.column ≤ q.column)))

instance (p q : Position) : Decidable (p < q) :=
  inferInstanceAs (Decidable (p.line < q.line ∨ (p.line = q.line ∧ p.column < q.column)))

/-- The later of two places. -/
def latest (p q : Position) : Position :=
  if p ≤ q then q else p

end Position

/-- All positions from `first` to `last`, both included. -/
structure Range where
  first : Position
  last : Position
  deriving DecidableEq, Repr

namespace Range

/-- The range that holds only the beginning of a document. -/
def origin : Range := ⟨.origin, .origin⟩

/-- Whether a position lies in the range. -/
def contains (r : Range) (p : Position) : Bool :=
  decide (r.first ≤ p) && decide (p ≤ r.last)

/-- Whether another range lies entirely inside. -/
def encloses (r other : Range) : Bool :=
  decide (r.first ≤ other.first) && decide (other.last ≤ r.last)

/-- Whether the two ranges share a position. -/
def overlaps (r other : Range) : Bool :=
  decide (r.first ≤ other.last) && decide (other.first ≤ r.last)

end Range

end ScriptServer
