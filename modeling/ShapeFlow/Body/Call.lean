import ShapeFlow.Knowledge

/-!
# Calls

A summary speaks of the slots of the callee.  At a call the slots stand for operands
of the caller: the argument slots for the arguments, and the result slot for the
object that the call returns, if it returns a new one.  The caller repeats the writes
of the summary on these operands, in order, and then reads off the result.
-/

namespace ShapeFlow

/-- Who analyzes the callees of a body: for a definition and argument types, the
number of their summary. -/
abbrev Analyst := DefId → List TypeId → Knowing SummaryId

/-- A call, with what the slots of the callee stand for. -/
structure Binding where
  declarations : Declarations
  span : Span
  /-- The name under which the callee is called. -/
  method : String
  arguments : List Operand
  /-- The new object that the call returns, if there is one. -/
  result? : Option AllocId

namespace Binding

/-- What a slot of the callee stands for. -/
def slot? (binding : Binding) : Nat → Option Operand
  | 0 => binding.result?.map .fresh
  | slot + 1 => binding.arguments[slot]?

/-- What a slot of the callee stands for, or its home. -/
def slot (binding : Binding) (slot : Nat) : Framed Operand := do
  match binding.slot? slot with
  | some operand => inspect fun _ frame => frame.resolve operand
  | none => reject (.unboundSlot binding.method slot binding.span)

/-- What a place of the callee stands for. -/
def place (binding : Binding) (place : AccessPath) : Framed Operand := do
  let base ← binding.slot place.root
  reading fun graph =>
    Frame.readAlong binding.declarations binding.span graph base place.selectors

/-- What a value of the callee stands for. -/
def value (binding : Binding) : Value → Framed Operand
  | .type type => pure (.type type)
  | .path place => binding.place place

/-- Repeat a write of the callee. -/
def write (binding : Binding) (write : Write) : Framed Unit := do
  let base ← binding.slot write.target.root
  let value ← binding.value write.value
  Frame.writeAlong binding.declarations binding.span base write.target.selectors value

/-- The value of the call, once the writes have been repeated. -/
def result (binding : Binding) (result : Value) : Framed Operand :=
  match binding.result? with
  | some id => inspect fun _ frame => frame.resolve (.fresh id)
  | none => binding.value result

/-- Repeat what a summary says, and read off the value of the call. -/
def replay (binding : Binding) (summary : Summary) : Framed Operand := do
  summary.writes.forM binding.write
  binding.result summary.result

end Binding

/-- Call a definition under a name with the given arguments. -/
def call (analyst : Analyst) (declarations : Declarations) (span : Span) (method : String)
    (target : DefId) (arguments : List Operand) : Body Operand := do
  -- An argument may have got a home while later ones were evaluated.
  let arguments ← arguments.mapM fun argument =>
    (inspect fun _ frame => frame.resolve argument : Framed Operand)
  let types ← arguments.mapM fun argument =>
    (Frame.currentType declarations span argument : Framed TypeId)
  let id ← analyst target types
  let summary ← (← getThe Knowledge).summary id
  let result? ← (match summary.result with
    | .type type => reading fun graph => Frame.expand? graph type
    | .path _ => pure none : Framed (Option AllocId))
  let binding : Binding := { declarations, span, method, arguments, result? }
  let operand ← binding.replay summary
  let value ← Frame.express declarations span operand
  modifyThe Frame (Frame.recordCall
    { method, target, signature := summary.signature, summary := id, value, span })
  pure operand

end ShapeFlow
