import ShapeFlow.OrderedMap
import ShapeFlow.Syntax.Selector

/-!
# The graph of types

A type is either the one primitive type or an object type: the name of a class
together with the parts that are known to be bound, each with its type.  Objects
may refer back to themselves, so the types of a run are the nodes of one finite
graph and are named by their index in it.

Two indices may name types that look the same from outside;
`ShapeFlow.TypeGraph.sameShape` compares types by what can be reached from them.
The graph also records which of its nodes were built as canonical ones: the
object type without bound parts of each class (`bare`), and the nodes that
`ShapeFlow.TypeGraph.intern` shares, with the sketch each had when it was added
(`interned`).
-/

namespace ShapeFlow

/-- The name of a type: its index in the graph. -/
structure TypeId where
  index : Nat
deriving DecidableEq, Repr, Inhabited

/-- The bound parts of an object type, in the order in which they were bound. -/
abbrev Fields := OrderedMap Selector TypeId

/-- A node of the graph. -/
inductive TypeNode where
  /-- The primitive type. -/
  | scalar
  /-- The objects of a class of which just these parts are known to be bound. -/
  | object (className : String) (fields : Fields)
deriving DecidableEq, Inhabited

namespace TypeNode

/-- The class of an object type. -/
def className? : TypeNode → Option String
  | scalar => none
  | object className _ => some className

/-- The bound parts; the primitive type has none. -/
def fields : TypeNode → Fields
  | scalar => ∅
  | object _ fields => fields

end TypeNode

/-- What a node shows of itself without following its parts: its class, if it is
an object type, and the number of its bound parts. -/
structure Outline where
  className? : Option String
  size : Nat
deriving DecidableEq, Repr, Inhabited

/-- The outline of a node. -/
def TypeNode.outline (node : TypeNode) : Outline where
  className? := node.className?
  size := node.fields.size

/-- What can be told of a type by looking one step ahead: its own outline and, for
each bound part in the order of selectors, the outline of that part's type. -/
structure Sketch where
  outline : Outline
  parts : List (Selector × Option Outline)
deriving DecidableEq, Inhabited

/-- The types of a run. -/
structure TypeGraph where
  /-- The nodes; the first one is the primitive type. -/
  nodes : Array TypeNode := #[.scalar]
  /-- The object type without bound parts of each class that needed one. -/
  bare : OrderedMap String TypeId := ∅
  /-- The shared object types, newest first, each with its sketch when it was added. -/
  interned : List (Sketch × TypeId) := []

instance : Inhabited TypeGraph := ⟨{}⟩

namespace TypeGraph

/-- The primitive type. -/
def scalar : TypeId := ⟨0⟩

/-- The number of nodes. -/
def size (graph : TypeGraph) : Nat := graph.nodes.size

/-- The node that a type names, if the graph has it. -/
@[inline]
def node? (graph : TypeGraph) (type : TypeId) : Option TypeNode := graph.nodes[type.index]?

/-- Whether the graph has a node for this type. -/
def Has (graph : TypeGraph) (type : TypeId) : Prop := type.index < graph.size

instance (graph : TypeGraph) (type : TypeId) : Decidable (graph.Has type) :=
  inferInstanceAs (Decidable (type.index < graph.size))

/-- Whether a type is the primitive one. -/
def isScalar (graph : TypeGraph) (type : TypeId) : Bool := graph.node? type == some .scalar

/-- The class of an object type. -/
def className? (graph : TypeGraph) (type : TypeId) : Option String :=
  (graph.node? type).bind TypeNode.className?

/-- The bound parts of a type. -/
def fields (graph : TypeGraph) (type : TypeId) : Fields :=
  ((graph.node? type).map TypeNode.fields).getD ∅

/-- The type of one part, if it is bound. -/
def field? (graph : TypeGraph) (type : TypeId) (selector : Selector) : Option TypeId :=
  (graph.fields type).get? selector

/-- The type found by following the selectors one after the other. -/
def follow? (graph : TypeGraph) (type : TypeId) (selectors : List Selector) : Option TypeId :=
  selectors.foldlM graph.field? type

/-- Add a node at the end. -/
def push (graph : TypeGraph) (node : TypeNode) : TypeId × TypeGraph :=
  (⟨graph.size⟩, { graph with nodes := graph.nodes.push node })

/-- A type has a node exactly when its index lies in the graph. -/
theorem node?_isSome_iff (graph : TypeGraph) (type : TypeId) :
    (graph.node? type).isSome = true ↔ graph.Has type := by
  simp [node?, Has, size]

@[simp] theorem follow?_nil (graph : TypeGraph) (type : TypeId) :
    graph.follow? type [] = some type := rfl

/-- Following a chain is following its first selector and then the rest. -/
theorem follow?_cons (graph : TypeGraph) (type : TypeId) (selector : Selector)
    (rest : List Selector) :
    graph.follow? type (selector :: rest) =
      (graph.field? type selector).bind fun inner => graph.follow? inner rest := rfl

/-- Following a chain in two stretches is following it at once. -/
theorem follow?_append (graph : TypeGraph) (type : TypeId) (first second : List Selector) :
    graph.follow? type (first ++ second) =
      (graph.follow? type first).bind fun inner => graph.follow? inner second := by
  simp [follow?, List.foldlM_append, bind]

/-- Adding a node leaves the nodes that were there as they were. -/
theorem node?_push_of_has (graph : TypeGraph) (node : TypeNode) {type : TypeId}
    (hhas : graph.Has type) : (graph.push node).2.node? type = graph.node? type := by
  unfold Has size at hhas
  simp only [node?, push, Array.getElem?_push]
  rw [if_neg (by omega)]

/-- The new node is found under the name that `push` answers. -/
theorem node?_push_self (graph : TypeGraph) (node : TypeNode) :
    (graph.push node).2.node? (graph.push node).1 = some node := by
  simp [node?, push, size]

end TypeGraph

end ShapeFlow
