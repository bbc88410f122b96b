import ShapeFlow.Frame.Reify

/-!
# Reading parts

Reading a part of a place yields the place of the part, or its type alone where it
is primitive.  Reading a part of an allocated object yields what the part holds.  If
that is an object known by its type alone, it becomes an allocated object of its own
first, so that a later write to what was read is seen by everyone who reads the part
again.

Reading changes nothing but this: no type is added and nothing is recorded.
-/

namespace ShapeFlow

namespace Frame

/-- Allocate an object with the class and the parts of an object type.  A primitive
value is no object and stays what it is. -/
def expand? (graph : TypeGraph) (type : TypeId) : StateT Frame Checked (Option AllocId) := do
  match ← graph.node type with
  | .scalar => pure none
  | .object className fields =>
    let id ← modifyGet (allocate { className, fields := fields.mapValues .type })
    pure (some id)

/-- Bind a part of an allocated object. -/
def setPart (id : AllocId) (selector : Selector) (operand : Operand) :
    StateT Frame Checked Unit := do
  let _ ← (← get).allocation id
  modify (update id fun object => { object with fields := object.fields.insert selector operand })

/-- Read one part of an operand. -/
def read (declarations : Declarations) (span : Span) (graph : TypeGraph) (base : Operand)
    (selector : Selector) : StateT Frame Checked Operand := do
  let frame ← get
  match ← frame.resolve base with
  | .path place =>
    let object ← frame.placeType declarations graph span place
    let part ← graph.partType declarations span object selector
    match ← graph.node part with
    | .scalar => pure (.type part)
    | .object .. => pure (.path (place.child selector))
  | .type object => do pure (.type (← graph.partType declarations span object selector))
  | .fresh id =>
    let object ← frame.allocation id
    match object.fields.get? selector with
    | some (.type part) =>
      match ← expand? graph part with
      | some child =>
        setPart id selector (.fresh child)
        pure (.fresh child)
      | none => pure (.type part)
    | some operand => frame.resolve operand
    | none => reject (declarations.missingPart span object.className selector)

/-- Read along a chain of selectors. -/
def readAlong (declarations : Declarations) (span : Span) (graph : TypeGraph) (base : Operand)
    (selectors : List Selector) : StateT Frame Checked Operand :=
  selectors.foldlM (read declarations span graph) base

end Frame

end ShapeFlow
