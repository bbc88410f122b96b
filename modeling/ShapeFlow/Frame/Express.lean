import ShapeFlow.Frame.Assign

/-!
# Telling operands to the callers

Callers know the slots of a call and nothing of the objects that its body allocates.
An operand is told to them by its type or by its place (`Frame.express`).  The object
that a body returns is new to the callers, and they learn besides which places it
holds: each counts as a write to a part of the result (`Frame.expressResult`).
-/

namespace ShapeFlow

namespace Frame

variable (declarations : Declarations) (span : Span)

/-- The type of an operand in the frame as it is. -/
def currentType (operand : Operand) : Framed TypeId := do
  (← getThe Frame).typeOf declarations span operand

/-- An operand as it is told to the callers. -/
def express (operand : Operand) : Framed Value := do
  match ← inspect fun _ frame => frame.resolve operand with
  | .type type => pure (.type type)
  | .path place => pure (.path place)
  | .fresh id => do pure (.type (← (← getThe Frame).reify declarations span id))

/-- The last operand of a body as it is told to the callers.  If it is an allocated
object, every place that it holds is recorded as a write to a part of the result. -/
def expressResult (operand : Operand) : Framed Value := do
  match ← inspect fun _ frame => frame.resolve operand with
  | .fresh id =>
    let type ← (← getThe Frame).reify declarations span id
    let frame ← (← getThe Frame).place false id ⟨AccessPath.resultSlot, []⟩
    set frame
    pure (.type type)
  | operand => express declarations span operand

end Frame

end ShapeFlow
