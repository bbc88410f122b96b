import ShapeFlow.Diagnostic
import ShapeFlow.Frame.Basic

/-!
# Steps of an analysis and their failures

A step of an analysis fails in one of two ways.  It may *reject* the program, with
a diagnostic.  Or it may follow a reference that nothing stands behind: an argument
slot that the call does not have, a number beyond the objects, types, definitions
or summaries there are, a walk that comes back to where it started.  The second
kind says that the analysis itself is broken.  It is kept apart so that its absence
can be stated; no step hides it behind a default.

The steps are layered by what they can change.  A `Checked` step only reads.  A
`Building` step may add types.  A `Framed` step may also change the frame.  Types
that were added stay when a step fails, whereas a frame is of no further use then,
so the frame is given up and the graph is kept.
-/

namespace ShapeFlow

/-- A reference, as far as it can lead nowhere. -/
inductive Reference where
  | slot (slot : Nat)
  | allocation (id : AllocId)
  | type (id : TypeId)
  | definition (id : DefId)
  | summary (id : SummaryId)
  /-- A place that was taken to lie within another one. -/
  | place (place base : AccessPath)
  /-- An object met again while it is being visited. -/
  | visit (id : AllocId)
deriving DecidableEq, Inhabited

/-- How a step of an analysis fails. -/
inductive Failure where
  /-- The program is rejected. -/
  | rejected (diagnostic : Diagnostic)
  /-- A reference leads nowhere. -/
  | broken (reference : Reference)
deriving DecidableEq, Inhabited

/-- Attribute a rejection to a signature. -/
def Failure.within (signature : String) : Failure → Failure
  | .rejected diagnostic => .rejected (diagnostic.within signature)
  | .broken reference => .broken reference

/-- A step that only reads. -/
abbrev Checked := Except Failure

/-- A step that may add types. -/
abbrev Building := EStateM Failure TypeGraph

/-- A step that may change the frame and add types. -/
abbrev Framed := StateT Frame Building

/-- Reject the program. -/
def reject {α : Type} {m : Type → Type} [MonadExceptOf Failure m] (cause : Cause) : m α :=
  throwThe Failure (.rejected (.cause cause))

/-- Report a reference that leads nowhere. -/
def broken {α : Type} {m : Type → Type} [MonadExceptOf Failure m] (reference : Reference) : m α :=
  throwThe Failure (.broken reference)

/-- What a reference leads to, if it leads somewhere. -/
def found {α : Type} (reference : Reference) : Option α → Checked α
  | some value => .ok value
  | none => .error (.broken reference)

/-- A step that only reads is a step with any state. -/
def Checked.keep {α σ : Type} (step : Checked α) : EStateM Failure σ α := fun state =>
  match step with
  | .ok value => .ok value state
  | .error failure => .error failure state

instance {σ : Type} : MonadLift Checked (EStateM Failure σ) := ⟨Checked.keep⟩

/-- A step that reads the types and may change the frame is a step that may do more. -/
def reading {α : Type} (step : TypeGraph → StateT Frame Checked α) : Framed α := fun frame graph =>
  match step graph frame with
  | .ok (value, frame) => .ok (value, frame) graph
  | .error failure => .error failure graph

/-- Ask a question about the types and the frame, and change neither. -/
def inspect {α : Type} (question : TypeGraph → Frame → Checked α) : Framed α := fun frame graph =>
  match question graph frame with
  | .ok value => .ok (value, frame) graph
  | .error failure => .error failure graph

@[simp] theorem Checked.keep_ok {α σ : Type} (value : α) (state : σ) :
    Checked.keep (.ok value) state = .ok value state := rfl

@[simp] theorem Checked.keep_error {α σ : Type} (failure : Failure) (state : σ) :
    Checked.keep (.error failure : Checked α) state = .error failure state := rfl

/-- A question is answered exactly when it is answered about the frame and the types as
they are, and then both are left alone. -/
theorem inspect_eq_ok_iff {α : Type} {question : TypeGraph → Frame → Checked α}
    {frame later : Frame} {graph grown : TypeGraph} {value : α} :
    inspect question frame graph = .ok (value, later) grown ↔
      question graph frame = .ok value ∧ later = frame ∧ grown = graph := by
  unfold inspect
  split
  · rename_i answer hanswer
    simp [hanswer, eq_comm, and_assoc]
  · rename_i failure hfailure
    simp [hfailure]

/-- A step that reads the types succeeds exactly when it does so on its own, and then
the types are left alone. -/
theorem reading_eq_ok_iff {α : Type} {step : TypeGraph → StateT Frame Checked α}
    {frame later : Frame} {graph grown : TypeGraph} {value : α} :
    reading step frame graph = .ok (value, later) grown ↔
      step graph frame = .ok (value, later) ∧ grown = graph := by
  unfold reading
  split
  · rename_i answer changed hanswer
    simp [hanswer, eq_comm]
  · rename_i failure hfailure
    simp [hfailure]

/-- A look-up is answered exactly with what the reference leads to. -/
@[simp] theorem found_eq_ok_iff {α : Type} (reference : Reference) (option : Option α) (value : α) :
    found reference option = .ok value ↔ option = some value := by
  cases option <;> simp [found]

/-! ## Strict look-ups -/

/-- The node that a type names. -/
def TypeGraph.node (graph : TypeGraph) (type : TypeId) : Checked TypeNode :=
  found (.type type) (graph.node? type)

/-- The definition with a number. -/
def Declarations.definition (declarations : Declarations) (id : DefId) : Checked Definition :=
  found (.definition id) (declarations.definition? id)

namespace Frame

/-- The current type of an argument slot.  There is no type to ask for in slot 0. -/
def slotType (frame : Frame) : Nat → Checked TypeId
  | 0 => .error (.broken (.slot 0))
  | slot + 1 => found (.slot (slot + 1)) frame.slots[slot]?

/-- The allocated object with a number. -/
def allocation (frame : Frame) (id : AllocId) : Checked Allocation :=
  found (.allocation id) frame.allocations[id.index]?

/-- The operand itself or, for an object that has a home, the place of the home. -/
def resolve (frame : Frame) : Operand → Checked Operand
  | .fresh id => do
    match (← frame.allocation id).home? with
    | some home => pure (.path home)
    | none => pure (.fresh id)
  | operand => pure operand

end Frame

end ShapeFlow
