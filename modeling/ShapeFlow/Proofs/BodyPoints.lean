import ShapeFlow.Proofs.Stores

/-!
# The points of a body

What the evaluation of a body does, it does at *points*: an expression is evaluated to an operand,
a part of an operand is read or written, arguments are passed to a callee.  `Scope.points` lists
the points along the rules of evaluation, each with the frame and the types as they are there.  The
reads and writes that a call repeats from the summary of its callee are points of the caller.

The list ends where the evaluation does, also when it fails; so what is proved of all points is
proved of every frame that the rules of evaluation lead to.
-/

namespace ShapeFlow

/-- What a body does at a point. -/
inductive Act where
  /-- The body begins. -/
  | begins
  /-- An expression has been evaluated. -/
  | yields (operand : Operand)
  /-- A part of an operand is about to be read. -/
  | reads (base : Operand) (selector : Selector)
  /-- A part of an operand is about to be written. -/
  | writes (base : Operand) (selector : Selector) (value : Operand)
  /-- Arguments are about to be passed to a callee. -/
  | passes (arguments : List Operand)
deriving DecidableEq

/-- The operands that are at hand, but for what is written. -/
def Act.operands : Act → List Operand
  | begins => []
  | yields operand => [operand]
  | reads base _ | writes base _ _ => [base]
  | passes arguments => arguments

/-- What is written. -/
def Act.value? : Act → Option Operand
  | writes _ _ value => some value
  | begins | yields _ | reads _ _ | passes _ => none

/-- A point of a body. -/
structure Point where
  frame : Frame
  graph : TypeGraph
  act : Act

section Lists

variable {τ α : Type}

/-- The points of a step and of the steps after it. -/
def pointsThen (step : StateT Frame (EStateM Failure τ) α) (own : Frame → τ → List Point)
    (next : α → Frame → τ → List Point) : Frame → τ → List Point := fun frame state =>
  own frame state ++
    match step frame state with
    | .ok (value, later) final => next value later final
    | .error _ _ => []

def noPoints : Frame → τ → List Point := fun _ _ => []

/-- The points of the steps after one that has none of its own. -/
def pointsAfter (step : StateT Frame (EStateM Failure τ) α)
    (next : α → Frame → τ → List Point) : Frame → τ → List Point :=
  pointsThen step noPoints next

/-- The points of a step, if it begins at one. -/
def pointsFrom [Typed τ] (act : Act) (own : Frame → τ → List Point) : Frame → τ → List Point :=
  fun frame state => ⟨frame, Typed.graph state, act⟩ :: own frame state

/-- The point at which something is done. -/
def pointOf [Typed τ] (act : Act) : Frame → τ → List Point := pointsFrom act noPoints

end Lists

namespace Frame

variable (declarations : Declarations) (span : Span)

/-- The points of reading along a chain of selectors. -/
def pointsAlong (base : Operand) : List Selector → Frame → TypeGraph → List Point
  | [] => noPoints
  | selector :: rest => pointsFrom (.reads base selector)
      (pointsAfter (reading fun graph => read declarations span graph base selector)
        fun operand => pointsAlong operand rest)

/-- The points of a write to the part at the end of a chain of selectors. -/
def pointsToWrite (base : Operand) (selectors : List Selector) (value : Operand) :
    Frame → TypeGraph → List Point :=
  match selectors.getLast? with
  | none => noPoints
  | some last =>
    pointsThen (reading fun graph =>
      readAlong declarations span graph base selectors.dropLast)
      (pointsAlong declarations span base selectors.dropLast) fun object =>
        pointOf (.writes object last value)

end Frame

namespace Binding

variable (binding : Binding)

/-- The points of finding what a value of the callee stands for. -/
def valuePoints : Value → Frame → TypeGraph → List Point
  | .type _ => noPoints
  | .path place => pointsAfter (binding.slot place.root) fun base =>
      Frame.pointsAlong binding.declarations binding.span base place.selectors

/-- The points of repeating a write of the callee. -/
def writePoints (write : Write) : Frame → TypeGraph → List Point :=
  pointsAfter (binding.slot write.target.root) fun base =>
    pointsThen (binding.value write.value) (binding.valuePoints write.value) fun value =>
      Frame.pointsToWrite binding.declarations binding.span base write.target.selectors value

/-- The points of repeating one write of the callee after the other. -/
def writesPoints : List Write → Frame → TypeGraph → List Point
  | [] => noPoints
  | write :: rest => pointsThen (binding.write write) (binding.writePoints write) fun _ =>
    writesPoints rest

/-- The points of reading off the value of the call. -/
def resultPoints (result : Value) : Frame → TypeGraph → List Point :=
  match binding.result? with
  | some _ => noPoints
  | none => binding.valuePoints result

/-- The points of repeating what a summary says. -/
def replayPoints (summary : Summary) : Frame → TypeGraph → List Point :=
  pointsThen (summary.writes.forM binding.write) (binding.writesPoints summary.writes) fun _ =>
    binding.resultPoints summary.result

end Binding

namespace Scope

variable (scope : Scope)

/-- The points of a call. -/
def callPoints (span : Span) (method : String) (target : DefId) (arguments : List Operand) :
    Frame → Knowledge → List Point :=
  pointsAfter (arguments.mapM fun argument =>
      (inspect fun _ frame => frame.resolve argument : Framed Operand) : Body (List Operand))
    fun arguments => pointsFrom (.passes arguments) <|
  pointsAfter (arguments.mapM fun argument =>
      (Frame.currentType scope.declarations span argument : Framed TypeId) :
        Body (List TypeId)) fun types =>
  pointsAfter (scope.analyst target types : Body SummaryId) fun id =>
  pointsAfter (getThe Knowledge : Body Knowledge) fun knowledge =>
  pointsAfter (knowledge.summary id : Body Summary) fun summary =>
  pointsAfter ((match summary.result with
    | .type type => reading fun graph => Frame.expand? graph type
    | .path _ => pure none : Framed (Option AllocId)) : Body (Option AllocId))
    fun result? frame knowledge =>
      Binding.replayPoints ⟨scope.declarations, span, method, arguments, result?⟩ summary frame
        knowledge.graph

/-- The points of evaluating an expression, given those before its value is at hand. -/
def pointsTo (expr : Expr) (own : Frame → Knowledge → List Point) :
    Frame → Knowledge → List Point :=
  pointsThen (scope.evaluate expr) own fun operand => pointOf (.yields operand)

mutual

/-- The points of evaluating an expression. -/
def points : Expr → Frame → Knowledge → List Point
  | .integer span value => scope.pointsTo (.integer span value) noPoints
  | .name span name => scope.pointsTo (.name span name) noPoints
  | .this span => scope.pointsTo (.this span) noPoints
  | .ownField span name => scope.pointsTo (.ownField span name) <|
    pointsAfter (scope.this span : Body Operand) fun object => pointOf (.reads object (.field name))
  | .read span object selector => scope.pointsTo (.read span object selector) <|
    pointsThen (scope.evaluate object) (points object) fun base => pointOf (.reads base selector)
  | .create span className arguments => scope.pointsTo (.create span className arguments) <|
    pointsAfter (scope.allocate span className : Body (AllocId × Option DefId)) fun result =>
      match result.2 with
      | none => noPoints
      | some setUp =>
        pointsThen (scope.evaluateAll arguments) (pointsAll arguments) fun operands =>
          scope.callPoints span setUpName setUp (.fresh result.1 :: operands)
  | .allocate span className => scope.pointsTo (.allocate span className) noPoints
  | .array span elements => scope.pointsTo (.array span elements) <|
    pointsAfter (modifyGetThe Frame (Frame.allocate { className := Declarations.arrayName }) :
      Body AllocId) fun id => pointsElements id none elements
  | .bind span name value => scope.pointsTo (.bind span name value) (points value)
  | .write span object selector value => scope.pointsTo (.write span object selector value) <|
    pointsThen (scope.evaluate object) (points object) fun base =>
      pointsThen (scope.evaluate value) (points value) fun operand =>
        pointOf (.writes base selector operand)
  | .send span object method arguments => scope.pointsTo (.send span object method arguments) <|
    pointsThen (scope.evaluate object) (points object) fun receiver =>
      pointsAfter (scope.dispatch span receiver method : Body DefId) fun target =>
        pointsThen (scope.evaluateAll arguments) (pointsAll arguments) fun operands =>
          scope.callPoints span method target (receiver :: operands)
  | .apply span name arguments => scope.pointsTo (.apply span name arguments) <|
    pointsAfter (scope.resolveCall span name : Body (List Operand × DefId)) fun result =>
      pointsThen (scope.evaluateAll arguments) (pointsAll arguments) fun operands =>
        scope.callPoints span name result.2 (result.1 ++ operands)

/-- The points of evaluating expressions from left to right. -/
def pointsAll : List Expr → Frame → Knowledge → List Point
  | [] => noPoints
  | expr :: rest => pointsThen (scope.evaluate expr) (points expr) fun _ => pointsAll rest

/-- The points of evaluating the elements of an array. -/
def pointsElements (array : AllocId) : Option TypeId → List Expr → Frame → Knowledge → List Point
  | _, [] => noPoints
  | expected?, expr :: rest =>
    pointsThen (scope.evaluate expr) (points expr) fun operand =>
      pointsAfter (scope.addElement expr.span array expected? operand : Body TypeId)
        fun expected => pointsElements array (some expected) rest

end

/-- The points of a body. -/
def bodyPoints (body : List Expr) : Frame → Knowledge → List Point :=
  pointsFrom .begins (scope.pointsAll body)

end Scope

end ShapeFlow
