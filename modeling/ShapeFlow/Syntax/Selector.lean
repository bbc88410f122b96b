/-!
# Selectors

A selector names one part of an object: a field under its source spelling
(`@value`), or the elements of an indexed collection, which share one selector.
The order of selectors puts named fields first, by name, and the shared element
last; it serves to list the parts of an object independently of the order in
which they were bound.
-/

namespace ShapeFlow

/-- A step from an object to one of its parts. -/
inductive Selector where
  /-- The field with this name. -/
  | field (name : String)
  /-- The elements of an indexed collection. -/
  | element
deriving DecidableEq, Repr, Inhabited

namespace Selector

/-- Whether this is the selector of a collection's elements. -/
def isElement : Selector → Bool
  | field _ => false
  | element => true

/-- The spelling of a selector.  A field that is itself named `element` is spelled
like the elements of a collection. -/
def render : Selector → String
  | field name => name
  | element => "element"

/-- Named fields stand before the element selector and are ordered by name. -/
def order : Selector → Selector → Ordering
  | field left, field right => compare left right
  | field _, element => .lt
  | element, field _ => .gt
  | element, element => .eq

/-- Whether a selector stands before another one in `Selector.order`. -/
def precedes (left right : Selector) : Bool := left.order right == .lt

end Selector

end ShapeFlow
