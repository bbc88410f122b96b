import ShapeFlow.AccessPath
import ShapeFlow.Declarations
import ShapeFlow.TypeGraph.Equality
import ShapeFlow.TypeGraph.Printer

/-!
# Summaries

A summary is what the analysis of one definition under given argument types says
to its callers: what the call returns, which places it writes, and which calls it
makes.  Everything in it is told in terms of the slots of the call, so a caller
can put its own values in their place.

Summaries are numbered in the order in which they are finished and are referred
to by number, so two calls that share an analysis refer to the same summary.
-/

namespace ShapeFlow

/-- What can be said of a value outside the body that computes it. -/
inductive Value where
  /-- The value is new to the caller and has this type. -/
  | type (id : TypeId)
  /-- The value is the one found at this place. -/
  | path (place : AccessPath)
deriving DecidableEq, Inhabited

namespace Value

/-- The place of a value that is told by its place. -/
def path? : Value → Option AccessPath
  | type _ => none
  | path place => some place

/-- The type of a value that is told by its type. -/
def type? : Value → Option TypeId
  | type id => some id
  | path _ => none

/-- The written form. -/
def render (graph : TypeGraph) : Value → String
  | type id => graph.render id
  | path place => place.render

end Value

/-- A place receives a value. -/
structure Write where
  target : AccessPath
  value : Value
deriving DecidableEq, Inhabited

/-- A definition together with the types of the arguments it is called with. -/
structure Signature where
  name : String
  arguments : List TypeId
deriving DecidableEq, Inhabited

/-- The written form of a signature. -/
def Signature.render (graph : TypeGraph) (signature : Signature) : String :=
  signature.name ++ "(" ++ String.intercalate ", " (signature.arguments.map graph.render) ++ ")"

/-- The number of a summary. -/
structure SummaryId where
  index : Nat
deriving DecidableEq, Repr, Inhabited

/-- One call made by a body. -/
structure CallRecord where
  /-- The name under which the callee was called. -/
  method : String
  target : DefId
  signature : Signature
  /-- What the analysis of the callee says, in terms of the callee's slots. -/
  summary : SummaryId
  /-- The value of the call, in terms of the caller's slots. -/
  value : Value
  span : Span
deriving DecidableEq, Inhabited

/-- What the analysis of one definition under one signature says. -/
structure Summary where
  signature : Signature
  /-- What the call returns. -/
  result : Value
  /-- The writes, in the order in which they happen.  A write to a part of the
  result slot says that the returned object holds something of the caller's. -/
  writes : List Write
  /-- The calls, in the order in which they are made. -/
  calls : List CallRecord
deriving Inhabited

namespace TypeGraph

/-- Two values agree if they are the same place or types of the same shape. -/
def sameValue (graph : TypeGraph) : Value → Value → Bool
  | .type left, .type right => graph.sameShape left right
  | .path left, .path right => left == right
  | _, _ => false

/-- Two lists of writes agree if, position by position, the same place receives
values that agree. -/
def sameWrites (graph : TypeGraph) : List Write → List Write → Bool
  | [], [] => true
  | left :: lefts, right :: rights =>
    left.target == right.target && graph.sameValue left.value right.value &&
      graph.sameWrites lefts rights
  | _, _ => false

/-- Two signatures agree if they name the same definition with argument types of the
same shapes. -/
def sameSignature (graph : TypeGraph) (left right : Signature) : Bool :=
  left.name == right.name && graph.sameShapes left.arguments right.arguments

end TypeGraph

end ShapeFlow
