import ShapeFlow.TypeGraph.PairTable

/-!
# Equality of types

Two types have the same shape when nothing can be observed that tells them apart:
whatever chain of selectors can be followed from one can be followed from the
other, and leads to nodes of the same class with the same bound parts.  Neither
the index of a node nor the order in which parts were bound is observed.

On a graph with cycles this is a greatest fixed point.  It is decided by walking
through the pairs of types that one chain of selectors reaches from the two sides.
`pairParts?` refuses a pair whose nodes already differ by themselves, and answers the
pairs that their parts form otherwise; the types have the same shape exactly when no
pair is refused.
-/

namespace ShapeFlow

namespace TypeGraph

/-- Pair the parts of one type with the parts of another one, if all of them are bound
there.  A type paired with itself is left out, as it needs no comparison. -/
def zipParts? : List (Selector × TypeId) → Fields → Option (List (TypeId × TypeId))
  | [], _ => some []
  | entry :: rest, fields =>
    match fields.get? entry.1 with
    | none => none
    | some right =>
      match zipParts? rest fields with
      | none => none
      | some pairs => if entry.2 = right then some pairs else some ((entry.2, right) :: pairs)

variable (graph : TypeGraph)

/-- The pairs that the parts of two types form, if the types agree as far as they can be
compared without following their parts: both primitive, or of one class and with the
same bound parts. -/
def pairParts? (pair : TypeId × TypeId) : Option (List (TypeId × TypeId)) :=
  match graph.node? pair.1, graph.node? pair.2 with
  | some .scalar, some .scalar => some []
  | some (.object leftClass leftFields), some (.object rightClass rightFields) =>
    if leftClass = rightClass ∧ leftFields.size = rightFields.size then
      zipParts? leftFields.entries rightFields
    else none
  | _, _ => none

/-- Whether two types cannot be told apart by following selectors. -/
def sameShape (left right : TypeId) : Bool :=
  left == right ||
    allReachable graph.pairParts? (graph.size * graph.size) (Ledger.blank : PairTable)
      [(left, right)]

/-- Whether two lists of types agree position by position. -/
def sameShapes : List TypeId → List TypeId → Bool
  | [], [] => true
  | left :: lefts, right :: rights => graph.sameShape left right && sameShapes lefts rights
  | _, _ => false

/-- A type cannot be told apart from itself. -/
@[simp] theorem sameShape_self (type : TypeId) : graph.sameShape type type = true := by
  simp [sameShape]

/-- A list of types agrees with itself. -/
@[simp] theorem sameShapes_self (types : List TypeId) : graph.sameShapes types types = true := by
  induction types with
  | nil => rfl
  | cons type rest ih => simp [sameShapes, ih]

/-- Lists that agree are of one length. -/
theorem length_eq_of_sameShapes {lefts rights : List TypeId}
    (hsame : graph.sameShapes lefts rights = true) : lefts.length = rights.length := by
  induction lefts generalizing rights with
  | nil => cases rights <;> simp_all [sameShapes]
  | cons left lefts ih =>
    cases rights with
    | nil => simp [sameShapes] at hsame
    | cons right rights =>
      rw [sameShapes, Bool.and_eq_true] at hsame
      simp [ih hsame.2]

end TypeGraph

end ShapeFlow
