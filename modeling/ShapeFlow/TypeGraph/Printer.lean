import ShapeFlow.TypeGraph.Basic

/-!
# The written form of types

An object type is written as its class followed by its bound parts in braces, in
the order in which they were bound.  A type that has no bound parts, or whose
parts are already being written further out, is written as its class alone, so
types that refer back to themselves have a finite written form.
-/

namespace ShapeFlow

namespace TypeGraph

/-- Write a type inside the types listed in `around`.  The room counts the nodes
that are not around yet: where none is left, every node is being written further
out. -/
def renderWithin (graph : TypeGraph) : Nat → List TypeId → TypeId → String
  | room, around, type =>
    match graph.node? type with
    | none => ""
    | some .scalar => "Scalar"
    | some (.object className fields) =>
      if fields.isEmpty || around.contains type then className
      else
        match room with
        | 0 => className
        | room + 1 =>
          let parts := fields.entries.map fun entry =>
            entry.1.render ++ ": " ++ graph.renderWithin room (type :: around) entry.2
          className ++ "\x7b" ++ String.intercalate ", " parts ++ "\x7d"

/-- The written form of a type. -/
def render (graph : TypeGraph) (type : TypeId) : String :=
  graph.renderWithin graph.size [] type

end TypeGraph

end ShapeFlow
