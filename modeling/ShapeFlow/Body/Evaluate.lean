import ShapeFlow.Body.Call

/-!
# Evaluating expressions

The rules of this module say what an expression does to the frame of the body it
stands in, and which operand it evaluates to.  Receivers are evaluated before
arguments, and arguments from left to right.  Which method a message means is decided
from its receiver before the arguments are evaluated.

The analysis of callees is a parameter of the rules, so they are structurally
recursive on the expression.
-/

namespace ShapeFlow

/-- What does not change while a body is analyzed. -/
structure Scope where
  declarations : Declarations
  /-- The definition whose body it is. -/
  definition : Definition
  /-- Who analyzes the callees. -/
  analyst : Analyst

/-- The method that sets up a new object. -/
def setUpName : String := "initialize"

/-- What a receiver without a class is called in a message. -/
def scalarName : String := "Scalar"

/-- What stands for a receiver in the message about a call outside every class. -/
def topLevelName : String := "main"

namespace Scope

variable (scope : Scope)

/-- The running object. -/
def this (span : Span) : Framed Operand :=
  if scope.definition.isMethod then inspect fun graph frame => frame.slotOperand graph 1
  else reject (.thisOutsideMethod span)

/-- What a name stands for: a local if there is one of that name, else a parameter. -/
def name (span : Span) (name : String) : Framed Operand := do
  match (← getThe Frame).locals.get? name with
  | some operand => inspect fun _ frame => frame.resolve operand
  | none =>
    match scope.definition.slotOf? name with
    | some slot => inspect fun graph frame => frame.slotOperand graph slot
    | none => reject (.undefinedVariable name span)

/-- Read one part of an operand. -/
def read (span : Span) (base : Operand) (selector : Selector) : Framed Operand :=
  reading fun graph => Frame.read scope.declarations span graph base selector

/-- Write one part of an operand. -/
def write (span : Span) (base : Operand) (selector : Selector) (value : Operand) :
    Framed Operand :=
  Frame.write scope.declarations span base selector value

/-- Call a definition. -/
def call (span : Span) (method : String) (target : DefId) (arguments : List Operand) :
    Body Operand :=
  ShapeFlow.call scope.analyst scope.declarations span method target arguments

/-- The method that a message to an operand means. -/
def dispatch (span : Span) (receiver : Operand) (method : String) : Framed DefId := do
  match ← inspect fun graph frame => frame.classOf? scope.declarations graph span receiver with
  | none => reject (.undefinedMethod scalarName method span)
  | some className =>
    match scope.declarations.method? className method with
    | some target => pure target
    | none => reject (.undefinedMethod className method span)

/-- What a call without a receiver means: a method of the running object, which is then
the receiver, or else a function. -/
def resolveCall (span : Span) (name : String) : Framed (List Operand × DefId) := do
  match scope.definition.owner?.bind fun owner => scope.declarations.method? owner name with
  | some target => pure ([← scope.this span], target)
  | none =>
    match scope.declarations.function? name with
    | some target => pure ([], target)
    | none =>
      reject (.undefinedMethod (scope.definition.owner?.getD topLevelName) name span)

/-- A new object of a declared class, and the method that sets up objects of the class
if there is one. -/
def allocate (span : Span) (className : String) : Framed (AllocId × Option DefId) := do
  match scope.declarations.class? className with
  | none => reject (.undefinedClass className span)
  | some info =>
    let id ← modifyGetThe Frame (Frame.allocate { className })
    pure (id, info.methods.get? setUpName)

/-- The new element of an array agrees with the elements before it; the first one
becomes the element that the array holds. -/
def addElement (span : Span) (array : AllocId) (expected? : Option TypeId) (value : Operand) :
    Framed TypeId := do
  let type ← Frame.currentType scope.declarations span value
  match expected? with
  | none =>
    reading fun _ => Frame.setPart array .element value
    pure type
  | some expected =>
    let graph ← getThe TypeGraph
    if graph.sameShape expected type then pure expected
    else reject (.mixedArray (graph.render expected) (graph.render type) span)

mutual

/-- The operand that an expression evaluates to. -/
def evaluate : Expr → Body Operand
  | .integer _ _ => pure (.type TypeGraph.scalar)
  | .name span name => scope.name span name
  | .this span => scope.this span
  | .ownField span name => do
    let object ← scope.this span
    scope.read span object (.field name)
  | .read span object selector => do
    let object ← evaluate object
    scope.read span object selector
  | .create span className arguments => do
    let (id, setUp?) ← scope.allocate span className
    -- The object exists before its arguments are evaluated.
    match setUp? with
    | some setUp =>
      let arguments ← evaluateAll arguments
      let _ ← scope.call span setUpName setUp (.fresh id :: arguments)
    | none =>
      if arguments.isEmpty then pure ()
      else
        reject (.arityMismatch (className ++ "#" ++ setUpName) 1 (arguments.length + 1))
    (inspect fun _ frame => frame.resolve (.fresh id) : Framed Operand)
  | .allocate span className => do
    let (id, _) ← scope.allocate span className
    pure (.fresh id)
  | .array _ elements => do
    let id ← modifyGetThe Frame (Frame.allocate { className := Declarations.arrayName })
    evaluateElements id none elements
    pure (.fresh id)
  | .bind _ name value => do
    let value ← evaluate value
    modifyThe Frame (Frame.setLocal name value)
    pure value
  | .write span object selector value => do
    let object ← evaluate object
    let value ← evaluate value
    scope.write span object selector value
  | .send span object method arguments => do
    let receiver ← evaluate object
    let target ← scope.dispatch span receiver method
    let arguments ← evaluateAll arguments
    scope.call span method target (receiver :: arguments)
  | .apply span name arguments => do
    let (receiver, target) ← scope.resolveCall span name
    let arguments ← evaluateAll arguments
    scope.call span name target (receiver ++ arguments)

/-- The operands that expressions evaluate to, from left to right. -/
def evaluateAll : List Expr → Body (List Operand)
  | [] => pure []
  | expr :: rest => do
    let operand ← evaluate expr
    let operands ← evaluateAll rest
    pure (operand :: operands)

/-- Evaluate the elements of an array, of which those before had the given type. -/
def evaluateElements (array : AllocId) : Option TypeId → List Expr → Body Unit
  | _, [] => pure ()
  | expected?, expr :: rest => do
    let operand ← evaluate expr
    let expected ← scope.addElement expr.span array expected? operand
    evaluateElements array (some expected) rest

end

/-- The operand that a body evaluates to: that of its last expression, or a primitive
value for a body without expressions. -/
def evaluateBody (body : List Expr) : Body Operand :=
  body.foldlM (fun _ expr => scope.evaluate expr) (.type TypeGraph.scalar)

end Scope

end ShapeFlow
