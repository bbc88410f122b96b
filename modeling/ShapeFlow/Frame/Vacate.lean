import ShapeFlow.Frame.Placement

/-!
# Vacating a place

Once a part of a place receives another value, the object that stood there is no
longer found there.  Allocated objects that had their homes at or below the place
lose them, and everything in the frame that was told by such a place is rebound to a
copy of what stood there.

The copy is made while the types of the slots still describe the old contents
(`Frame.copy`).  It consists of the objects that lose their homes, each with its
parts brought up to date, and of new objects between them where a place above a home
had no allocated object.  What a part held before its object got a home is kept if
it still has the type that the part has now; it may have been overwritten since.
-/

namespace ShapeFlow

namespace Frame

variable (declarations : Declarations) (span : Span)

/-- Whether what a part held before its object got a home still has the type that the
part has now.  A place that is being vacated does not count. -/
def isCurrent (base : AccessPath) (operand : Operand) (part : TypeId) : Framed Bool := do
  if (operand.placeWithin? base).isSome then pure false
  else
    let held ← (← getThe Frame).typeOf declarations span operand
    pure ((← getThe TypeGraph).sameShape held part)

/-- The operand for a part under which no object loses its home: what the object held
there before, if that is still right, or the type of the part. -/
def keptPart (base : AccessPath) (existing? : Option AllocId) (selector : Selector)
    (part : TypeId) : Framed Operand := do
  let previous? ← inspect fun _ frame =>
    match existing? with
    | some id => do pure ((← frame.allocation id).fields.get? selector)
    | none => pure none
  match previous? with
  | some previous =>
    if ← isCurrent declarations span base previous part then pure previous
    else pure (.type part)
  | none => pure (.type part)

/-- The parts of the copy of the object found at `place`.  Parts above or at the home of
an object that loses it are copied by `copy`. -/
def copyParts (base : AccessPath) (leaving : List (AllocId × AccessPath))
    (copy : AccessPath → Framed Operand) (existing? : Option AllocId) (place : AccessPath) :
    Framed (OrderedMap Selector Operand) := do
  let type ← inspect fun graph frame => frame.placeType declarations graph span place
  let node ← inspect fun graph _ => graph.node type
  let parts ← node.fields.entries.mapM fun entry => do
    let inner := place.child entry.1
    if leaving.any fun resident => resident.2.liesWithin inner then
      pure (entry.1, ← copy inner)
    else
      pure (entry.1, ← keptPart declarations span base existing? entry.1 entry.2)
  pure (.ofList parts)

/-- The copy of what is found at `place`: the object that loses its home there, or a new
object with copied parts, or the type of a primitive value.  `inner` answers for the places
one selector further on. -/
def copyAt (base : AccessPath) (leaving : List (AllocId × AccessPath))
    (inner : AccessPath → Framed Operand) (place : AccessPath) : Framed Operand := do
  match leaving.find? fun resident => resident.2 = place with
  | some (id, _) => pure (.fresh id)
  | none =>
    let type ← inspect fun graph frame => frame.placeType declarations graph span place
    match ← inspect fun graph _ => graph.node type with
    | .scalar => pure (.type type)
    | .object className _ =>
      let fields ← copyParts declarations span base leaving inner none place
      let id ← modifyGetThe Frame (allocate { className, fields })
      pure (.fresh id)

/-- The copy of what is found at a place and below.  The room is the number of selectors
that the longest home of a leaving object has beyond the place. -/
def copy (base : AccessPath) (leaving : List (AllocId × AccessPath)) :
    Nat → AccessPath → Framed Operand
  | 0, place =>
    copyAt declarations span base leaving (fun inner => broken (.place inner place)) place
  | room + 1, place => copyAt declarations span base leaving (copy base leaving room) place

/-- Follow a place at or below the vacated one through the copy. -/
def retrace (root : Operand) (base place : AccessPath) : Framed Operand := do
  match place.below? base with
  | some selectors =>
    reading fun graph => readAlong declarations span graph root selectors
  | none => broken (.place place base)

/-- An object loses its home and has the given parts from then on. -/
def release (id : AllocId) (fields : OrderedMap Selector Operand) (frame : Frame) : Frame :=
  frame.update id fun object => { object with fields, home? := none }

/-- Vacate a place.  Nothing in the frame is told by the place, or by one below it,
afterwards; the answer is the given value, rebound in the same way. -/
def vacate (base : AccessPath) (value : Operand) : Framed Operand := do
  let frame ← getThe Frame
  let leaving := frame.residents base
  let locals := frame.localsWithin base
  let value? := value.placeWithin? base
  if leaving.isEmpty && locals.isEmpty && value?.isNone && (frame.partsWithin base).isEmpty then
    pure value
  else
    -- All of the copy is made first: it reads places that the objects give up below.
    let room := (leaving.map fun resident => resident.2.selectors.length).foldl max 0
    let rebuilt ← leaving.mapM fun resident => do
      let fields ← copyParts declarations span base leaving
        (copy declarations span base leaving room) (some resident.1) resident.2
      pure (resident.1, fields)
    let root ← copy declarations span base leaving room base
    rebuilt.forM fun object => modifyThe Frame (release object.1 object.2)
    locals.forM fun binding => do
      let operand ← retrace declarations span root base binding.2
      modifyThe Frame (setLocal binding.1 operand)
    -- Listed only now: the parts of the released objects have just been replaced.
    ((← getThe Frame).partsWithin base).forM fun part => do
      let operand ← retrace declarations span root base part.2.2
      reading fun _ => setPart part.1 part.2.1 operand
    match value? with
    | some place => retrace declarations span root base place
    | none => pure value

end Frame

end ShapeFlow
