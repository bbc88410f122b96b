/-!
# Positions in a source text

A span is the pair of offsets that a parser attached to a node.  Nothing checks
that the offsets are in order, so a span whose `stop` does not lie behind its
`start` counts as empty: it marks no text, and a message that carries it points
nowhere.
-/

namespace ShapeFlow

/-- The part of a source text between two offsets. -/
structure Span where
  start : Nat := 0
  stop : Nat := 0
deriving DecidableEq, Repr, Inhabited

namespace Span

/-- The number of positions covered; zero when the offsets are not in order. -/
def length (span : Span) : Nat := span.stop - span.start

/-- Whether the span covers no text. -/
def isEmpty (span : Span) : Bool := span.length == 0

/-- The text to point at, as an offset and a length; an empty span points nowhere. -/
def range? (span : Span) : Option (Nat × Nat) :=
  if span.isEmpty then none else some (span.start, span.length)

/-- A span is empty exactly when it does not end behind its start. -/
theorem isEmpty_iff (span : Span) : span.isEmpty = true ↔ span.stop ≤ span.start := by
  simp [isEmpty, length, Nat.sub_eq_zero_iff_le]

/-- A span that ends behind its start points at the text from its start on. -/
theorem range?_eq_some_iff (span : Span) (offset length : Nat) :
    span.range? = some (offset, length) ↔
      span.start < span.stop ∧ offset = span.start ∧ length = span.stop - span.start := by
  unfold range?
  split
  · rename_i hempty
    have hle := (isEmpty_iff span).mp hempty
    simp only [reduceCtorEq, false_iff, not_and]
    omega
  · rename_i hempty
    have hlt : span.start < span.stop := by
      rw [isEmpty_iff] at hempty
      omega
    simp only [Option.some.injEq, Prod.mk.injEq, Span.length, hlt, true_and]
    constructor <;> rintro ⟨rfl, rfl⟩ <;> exact ⟨rfl, rfl⟩

end Span

end ShapeFlow
