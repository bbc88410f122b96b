import ShapeFlow.Frame.Vacate

/-!
# Writing parts

A part may be written if the class of the object declares it.  A write to a part of a
place changes what callers see: the place is vacated, the type of the slot is rebuilt
with the new type of the part, and the write is recorded.  Its value is the place
from then on.  A write to a part of an allocated object changes the object alone.
-/

namespace ShapeFlow

namespace Frame

variable (declarations : Declarations) (span : Span)

/-- The type found at a place below a slot becomes `part`. -/
def setPlaceType (target : AccessPath) (selector : Selector) (part : TypeId) : Framed Unit := do
  let current ← inspect fun _ frame => frame.slotType target.root
  match (← getThe TypeGraph).bindAt? current target.selectors part with
  | some (updated, graph) =>
    set graph
    modifyThe Frame fun frame => { frame with slots := frame.slots.set (target.root - 1) updated }
  | none => reject (.notAnObject selector.render span)

/-- Write one part of an operand. -/
def write (base : Operand) (selector : Selector) (value : Operand) : Framed Operand := do
  let base ← inspect fun _ frame => frame.resolve base
  let value ← inspect fun _ frame => frame.resolve value
  match ← inspect fun graph frame => frame.classOf? declarations graph span base with
  | none => reject (.notAnObject selector.render span)
  | some className =>
    if declarations.declares className selector then
      match base with
      | .path place =>
        let target := place.child selector
        -- The value is rebound before its type is taken, as it may stand at the target itself.
        let value ← vacate declarations span target value
        let part ← (← getThe Frame).typeOf declarations span value
        setPlaceType span target selector part
        recordOperand declarations span target value
        pure (.path target)
      | .fresh id =>
        reading fun _ => setPart id selector value
        pure value
      | .type _ => pure value
    else reject (.unknownField className selector.render span)

/-- Write the part at the end of a chain of selectors.  An empty chain names no part,
and nothing is written. -/
def writeAlong (base : Operand) (selectors : List Selector) (value : Operand) : Framed Unit := do
  match selectors.getLast? with
  | none => pure ()
  | some last =>
    let object ← reading fun graph =>
      readAlong declarations span graph base selectors.dropLast
    let _ ← write declarations span object last value

end Frame

end ShapeFlow
