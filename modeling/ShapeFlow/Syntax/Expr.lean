import ShapeFlow.Syntax.Selector
import ShapeFlow.Syntax.Span

/-!
# Expressions

The expressions of a method body.  Every node carries its span; two expressions
that differ in spans alone mean the same and are reported at different places.

The last section has the written forms that are not nodes of their own:
`@value` may be given without its `@`, and reading or writing an element of a
collection is a message to the collection.
-/

namespace ShapeFlow

/-- An expression of a method body. -/
inductive Expr where
  /-- An integer. -/
  | integer (span : Span) (value : Int)
  /-- A local or a parameter, by name. -/
  | name (span : Span) (name : String)
  /-- The object whose method is running. -/
  | this (span : Span)
  /-- A field of that object, by name. -/
  | ownField (span : Span) (name : String)
  /-- One part of an object. -/
  | read (span : Span) (object : Expr) (selector : Selector)
  /-- A new object, set up by the `initialize` method of its class if there is one. -/
  | create (span : Span) (className : String) (arguments : List Expr)
  /-- A new object that is not set up. -/
  | allocate (span : Span) (className : String)
  /-- A collection with the given elements. -/
  | array (span : Span) (elements : List Expr)
  /-- A local receives a value. -/
  | bind (span : Span) (name : String) (value : Expr)
  /-- One part of an object receives a value. -/
  | write (span : Span) (object : Expr) (selector : Selector) (value : Expr)
  /-- A message to an object. -/
  | send (span : Span) (object : Expr) (method : String) (arguments : List Expr)
  /-- A call without a receiver: of a method of the running object if its class has
  it, of a top-level function otherwise. -/
  | apply (span : Span) (name : String) (arguments : List Expr)
deriving Inhabited

namespace Expr

/-- Where the expression stands in the source text. -/
def span : Expr → Span
  | integer span _ | name span _ | this span | ownField span _ | read span _ _
  | create span _ _ | allocate span _ | array span _ | bind span _ _ | write span _ _ _
  | send span _ _ _ | apply span _ _ => span

/-- The same expression at another place.  The parts keep their own places. -/
def withSpan (expr : Expr) (span : Span) : Expr :=
  match expr with
  | integer _ value => integer span value
  | name _ label => name span label
  | this _ => this span
  | ownField _ field => ownField span field
  | read _ object selector => read span object selector
  | create _ className arguments => create span className arguments
  | allocate _ className => allocate span className
  | array _ elements => array span elements
  | bind _ label value => bind span label value
  | write _ object selector value => write span object selector value
  | send _ object method arguments => send span object method arguments
  | apply _ function arguments => apply span function arguments

@[simp] theorem span_withSpan (expr : Expr) (span : Span) : (expr.withSpan span).span = span := by
  cases expr <;> rfl

/-! ## Written forms without a node of their own -/

/-- The name of an object's own field, which starts with `@` whether or not it was
written that way. -/
def ownFieldName (name : String) : String :=
  if name.toList.head? = some '@' then name else "@" ++ name

/-- A write to a field of the object whose method is running. -/
def writeOwn (span : Span) (name : String) (value : Expr) : Expr :=
  write span (this {}) (.field (ownFieldName name)) value

/-- The method that reads an element of a collection. -/
def elementReader : String := "[]"

/-- The method that writes an element of a collection. -/
def elementWriter : String := "[]="

/-- `object[position]`. -/
def elementAt (span : Span) (object position : Expr) : Expr :=
  send span object elementReader [position]

/-- `object[position] = value`. -/
def writeElementAt (span : Span) (object position value : Expr) : Expr :=
  send span object elementWriter [position, value]

end Expr

end ShapeFlow
