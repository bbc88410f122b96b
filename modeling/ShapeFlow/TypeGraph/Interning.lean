import ShapeFlow.TypeGraph.Equality
import ShapeFlow.TypeGraph.Sketch

/-!
# Building types

Every operation here answers a type together with the graph that has it.  The
graph only grows: no operation takes a node away, and only `fill` changes one,
namely a node that `reserve` made for a type that refers back to itself.

Object types are shared where they can be.  A type without bound parts exists
once per class (`plainObject`).  A type with bound parts is looked up among the
shared ones before it is added (`intern`); the search compares only with types
of the same sketch, which loses nothing, and compares those by shape.
-/

namespace ShapeFlow

namespace TypeGraph

/-- The object type of a class without any bound part. -/
def plainObject (className : String) (graph : TypeGraph) : TypeId × TypeGraph :=
  match graph.bare.get? className with
  | some type => (type, graph)
  | none =>
    let (type, grown) := graph.push (.object className ∅)
    (type, { grown with bare := grown.bare.insert className type })

/-- Whether a type has the shape that an object node of this class with these
parts would have. -/
def hasShape (graph : TypeGraph) (className : String) (fields : Fields) (type : TypeId) : Bool :=
  match graph.node? type with
  | some (.object otherClass otherFields) =>
    className == otherClass && fields.size == otherFields.size &&
      fields.entries.all fun entry =>
        match otherFields.get? entry.1 with
        | some other => graph.sameShape entry.2 other
        | none => false
  | _ => false

/-- The shared type of this class with these parts. -/
def findInterned? (graph : TypeGraph) (className : String) (fields : Fields) : Option TypeId :=
  let sketch := graph.sketchNode (.object className fields)
  (graph.interned.find? fun entry =>
    entry.1 == sketch && graph.hasShape className fields entry.2).map Prod.snd

/-- The shared object type of this class with these parts, added if there is none. -/
def intern (className : String) (fields : Fields) (graph : TypeGraph) : TypeId × TypeGraph :=
  if fields.isEmpty then graph.plainObject className
  else
    match graph.findInterned? className fields with
    | some type => (type, graph)
    | none =>
      let node := TypeNode.object className fields
      let sketch := graph.sketchNode node
      let (type, grown) := graph.push node
      (type, { grown with interned := (sketch, type) :: grown.interned })

/-- The type with one part bound to another type.  Only object types have parts. -/
def bindField? (graph : TypeGraph) (type : TypeId) (selector : Selector) (part : TypeId) :
    Option (TypeId × TypeGraph) :=
  match graph.node? type with
  | some (.object className fields) => some (graph.intern className (fields.insert selector part))
  | _ => none

/-- The type with the part at the end of a chain of selectors bound to another
type, every object on the way being rebuilt.  All selectors but the last must
lead somewhere, and the last must be bound in an object type. -/
def bindAt? (graph : TypeGraph) (type : TypeId) (selectors : List Selector) (part : TypeId) :
    Option (TypeId × TypeGraph) :=
  match selectors with
  | [] => some (part, graph)
  | [selector] => graph.bindField? type selector part
  | selector :: rest => do
    let inner ← graph.field? type selector
    let (rebuilt, grown) ← graph.bindAt? inner rest part
    grown.bindField? type selector rebuilt

/-! ## Types that refer back to themselves -/

/-- A new object node whose parts are to be filled in, so that one of them can lead
back to it. -/
def reserve (className : String) (graph : TypeGraph) : TypeId × TypeGraph :=
  graph.push (.object className ∅)

/-- Give a reserved node its parts. -/
def fill (type : TypeId) (fields : Fields) (graph : TypeGraph) : TypeGraph :=
  match graph.node? type with
  | some (.object className _) =>
    { graph with nodes := graph.nodes.setIfInBounds type.index (.object className fields) }
  | _ => graph

end TypeGraph

end ShapeFlow
