import ShapeFlow.TypeGraph.Basic

/-!
# Sketches

A sketch is what one look ahead tells of a type.  Types of the same shape have
the same sketch, whatever the order in which their parts were bound, since a
sketch lists the parts in the order of selectors.  The converse fails: a sketch
narrows a search down and does not replace the comparison.
-/

namespace ShapeFlow

namespace Sketch

/-- Put an entry in front of the first one whose selector does not precede it. -/
def place {α : Type} (entry : Selector × α) : List (Selector × α) → List (Selector × α)
  | [] => [entry]
  | first :: rest => if first.1.precedes entry.1 then first :: place entry rest
    else entry :: first :: rest

/-- The entries in the order of their selectors. -/
def arrange {α : Type} (entries : List (Selector × α)) : List (Selector × α) :=
  entries.foldr place []

end Sketch

namespace TypeGraph

/-- The sketch that a node has in this graph, whether or not it belongs to it. -/
def sketchNode (graph : TypeGraph) (node : TypeNode) : Sketch where
  outline := node.outline
  parts := Sketch.arrange <| node.fields.entries.map fun entry =>
    (entry.1, (graph.node? entry.2).map TypeNode.outline)

/-- The sketch of a type, if the graph has it. -/
def sketch? (graph : TypeGraph) (type : TypeId) : Option Sketch :=
  (graph.node? type).map graph.sketchNode

end TypeGraph

end ShapeFlow
