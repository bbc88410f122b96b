import ShapeFlow.Exploration
import ShapeFlow.Frame.Typing
import ShapeFlow.TypeGraph.Interning

/-!
# The type of an allocated object

The type of an object that a frame has allocated is read off the graph that the
allocated objects form through their parts.  Most objects lead to no circle, and
their types are shared.  An object from which a chain of parts leads back to itself
(`Frame.isOnCircle`) needs a type that refers back to itself, so its node is
reserved before the types of its parts are built, and filled afterwards.  An object
that has a home has the type that is found there.

A visit remembers the objects around it.  Meeting one of them again would mean that
the circle was not seen, and is reported as broken.  The room of a visit is the
number of objects that are not around it, so no room is left only when every object
is around.
-/

namespace ShapeFlow

namespace Frame

/-- Whether an object exists and has no home. -/
def isLocal (frame : Frame) (id : AllocId) : Bool :=
  match frame.allocations[id.index]? with
  | some allocation => allocation.home?.isNone
  | none => false

/-- The objects without a home that an object holds as parts. -/
def localParts (frame : Frame) (id : AllocId) : List AllocId :=
  match frame.allocations[id.index]? with
  | some allocation => allocation.fields.values.filterMap fun
    | .fresh child => if frame.isLocal child then some child else none
    | .type _ | .path _ => none
  | none => []

/-- Whether a chain of parts without homes leads from an object back to it. -/
def isOnCircle (frame : Frame) (id : AllocId) : Bool :=
  !allReachable (fun met => if met = id then none else some (frame.localParts met))
    frame.allocations.size ([] : List AllocId) (frame.localParts id)

/-- The types that a visit has given to objects so far. -/
abbrev Reified := OrderedMap AllocId TypeId

/-- The type of what a part holds, where `visit` answers for allocated objects. -/
def heldType (frame : Frame) (declarations : Declarations) (span : Span)
    (visit : AllocId → StateT Reified Building TypeId) :
    Operand → StateT Reified Building TypeId
  | .type type => pure type
  | .path place => do frame.placeType declarations (← getThe TypeGraph) span place
  | .fresh id => visit id

/-- The types of all parts of an object. -/
def heldTypes (frame : Frame) (declarations : Declarations) (span : Span)
    (visit : AllocId → StateT Reified Building TypeId)
    (fields : OrderedMap Selector Operand) : StateT Reified Building Fields := do
  let types ← fields.entries.mapM fun entry => do
    pure (entry.1, ← frame.heldType declarations span visit entry.2)
  pure (.ofList types)

/-- The type of an object, met inside the objects listed in `around`. -/
def reifyWithin (frame : Frame) (declarations : Declarations) (span : Span) :
    Nat → List AllocId → AllocId → StateT Reified Building TypeId
  | room, around, id => do
    match (← getThe Reified).get? id with
    | some type => pure type
    | none =>
      let object ← frame.allocation id
      match object.home? with
      | some home => frame.placeType declarations (← getThe TypeGraph) span home
      | none =>
        if object.fields.isEmpty then
          modifyGetThe TypeGraph (TypeGraph.plainObject object.className)
        else
          match room with
          | 0 => broken (.visit id)
          | room + 1 =>
            if around.contains id then broken (.visit id)
            else if frame.isOnCircle id then
              -- The parts may lead back here, so the node is known before they are visited.
              let type ← modifyGetThe TypeGraph (TypeGraph.reserve object.className)
              modifyThe Reified fun reified => reified.insert id type
              let fields ← frame.heldTypes declarations span
                (reifyWithin frame declarations span room (id :: around)) object.fields
              modifyThe TypeGraph (TypeGraph.fill type fields)
              pure type
            else
              let fields ← frame.heldTypes declarations span
                (reifyWithin frame declarations span room (id :: around)) object.fields
              let type ← modifyGetThe TypeGraph (TypeGraph.intern object.className fields)
              modifyThe Reified fun reified => reified.insert id type
              pure type

/-- The type of an allocated object. -/
def reify (frame : Frame) (declarations : Declarations) (span : Span) (id : AllocId) :
    Building TypeId :=
  (frame.reifyWithin declarations span frame.allocations.size [] id).run' ∅

/-- The type of an operand. -/
def typeOf (frame : Frame) (declarations : Declarations) (span : Span) (operand : Operand) :
    Building TypeId := do
  match ← frame.resolve operand with
  | .type type => pure type
  | .path place => frame.placeType declarations (← getThe TypeGraph) span place
  | .fresh id => frame.reify declarations span id

end Frame

end ShapeFlow
