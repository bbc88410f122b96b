import ShapeFlow.Frame.Step

/-!
# The types of places

The type of a place is found in the current type of its slot by following its
selectors.  Where a part is missing, the declarations tell whether the class could
have it: a declared part that is missing has not been assigned to yet.
-/

namespace ShapeFlow

/-- Why an object of a class lacks a part. -/
def Declarations.missingPart (declarations : Declarations) (span : Span) (className : String)
    (selector : Selector) : Cause :=
  if declarations.declares className selector then
    .unboundField className selector.render span
  else .unknownField className selector.render span

/-- The type of one part of an object of the given type. -/
def TypeGraph.partType (graph : TypeGraph) (declarations : Declarations) (span : Span)
    (type : TypeId) (selector : Selector) : Checked TypeId := do
  match ← graph.node type with
  | .scalar => reject (.notAnObject selector.render span)
  | .object className fields =>
    match fields.get? selector with
    | some part => pure part
    | none => reject (declarations.missingPart span className selector)

namespace Frame

/-- The type currently found at a place. -/
def placeType (frame : Frame) (declarations : Declarations) (graph : TypeGraph) (span : Span)
    (place : AccessPath) : Checked TypeId := do
  let type ← frame.slotType place.root
  place.selectors.foldlM (graph.partType declarations span) type

/-- The class of the object that an operand stands for; a primitive value has none. -/
def classOf? (frame : Frame) (declarations : Declarations) (graph : TypeGraph) (span : Span) :
    Operand → Checked (Option String)
  | .type type => do pure (← graph.node type).className?
  | .path place => do
    let type ← frame.placeType declarations graph span place
    pure (← graph.node type).className?
  | .fresh id => do pure (some (← frame.allocation id).className)

/-- What a parameter or the running object stands for at the start of an expression:
a primitive value is known by its type alone, an object by its place. -/
def slotOperand (frame : Frame) (graph : TypeGraph) (slot : Nat) : Checked Operand := do
  let type ← frame.slotType slot
  match ← graph.node type with
  | .scalar => pure (.type type)
  | .object .. => pure (.path ⟨slot, []⟩)

end Frame

end ShapeFlow
