import ShapeFlow.Frame.Vacate
import ShapeFlow.Proofs.StepOutcomes

/-!
# Steps that overlook the locals

What the locals hold decides which of them are rebound when a place is vacated, but nothing before
that looks at them.  A step that overlooks the locals goes the same way in every frame with the same
slots and objects, and leaves the locals as they are (`OverlooksLocals`).  The copy of a place is
made by such steps.
-/

namespace ShapeFlow

variable {declarations : Declarations} {span : Span} {α β ι : Type}

/-- The frame with other locals. -/
def Frame.withLocals (frame : Frame) (locals : OrderedMap String Operand) : Frame :=
  { frame with locals }

/-! ## Types of operands -/

namespace Frame

variable (frame : Frame) (locals : OrderedMap String Operand)

theorem heldTypes_withLocals (visit : AllocId → StateT Reified Building TypeId) :
    (frame.withLocals locals).heldTypes declarations span visit =
      frame.heldTypes declarations span visit := by
  have hheld : (frame.withLocals locals).heldType declarations span visit =
      frame.heldType declarations span visit := by
    funext operand
    cases operand <;> rfl
  unfold heldTypes
  rw [hheld]

theorem reifyWithin_withLocals (room : Nat) :
    (frame.withLocals locals).reifyWithin declarations span room =
      frame.reifyWithin declarations span room := by
  induction room with
  | zero =>
    funext around id
    unfold reifyWithin
    rfl
  | succ room ih =>
    funext around id
    simp only [reifyWithin, heldTypes_withLocals, ih]
    rfl

theorem typeOf_withLocals : (frame.withLocals locals).typeOf declarations span =
    frame.typeOf declarations span := by
  funext operand
  have hreify : (frame.withLocals locals).reify declarations span =
      frame.reify declarations span := by
    funext id
    unfold reify
    rw [reifyWithin_withLocals]
    rfl
  unfold typeOf
  rw [hreify]
  rfl

end Frame

/-! ## Steps -/

/-- A step that succeeds goes the same way whatever the locals hold. -/
class OverlooksLocals (step : Framed α) : Prop where
  run : ∀ {frame graph value later final}, step frame graph = .ok (value, later) final →
    ∀ locals, step (frame.withLocals locals) graph = .ok (value, later.withLocals locals) final

namespace OverlooksLocals

instance pure (value : α) : OverlooksLocals (Pure.pure value : Framed α) where
  run hrun locals := by
    cases hrun
    rfl

instance bind (step : Framed α) (next : α → Framed β) [hstep : OverlooksLocals step]
    [hnext : ∀ value, OverlooksLocals (next value)] : OverlooksLocals (step >>= next) where
  run hrun locals := by
    obtain ⟨value, changed, middle, hfirst, hrest⟩ := exists_of_run_bind hrun
    rw [run_bind_of_ok (hstep.run hfirst locals)]
    exact (hnext value).run hrest locals

theorem seq {step : Framed α} {next : α → Framed β} (hstep : OverlooksLocals step)
    (hnext : ∀ value, OverlooksLocals (next value)) : OverlooksLocals (step >>= next) :=
  bind step next

/-- A step that goes on with the frame may look at what does not depend on the locals. -/
theorem get_bind {next : Frame → Framed β} (hnext : ∀ frame, OverlooksLocals (next frame))
    (hsame : ∀ frame locals, next (Frame.withLocals frame locals) = next frame) :
    OverlooksLocals (getThe Frame >>= next) where
  run {frame _ _ _ _} hrun locals := by
    have hrest := (hnext frame).run hrun locals
    rw [← hsame frame locals] at hrest
    exact hrest

instance lift (step : Building α) : OverlooksLocals (liftM step : Framed α) where
  run hrun locals := by
    obtain ⟨value, later, hstep, hpure⟩ := exists_of_bind hrun
    cases hpure
    exact lift_of_ok hstep

instance getBase : OverlooksLocals (getThe TypeGraph : Framed TypeGraph) where
  run hrun locals := by
    cases hrun
    rfl

instance broken (reference : Reference) :
    OverlooksLocals (ShapeFlow.broken reference : Framed α) where
  run hrun := nomatch hrun

/-- A question whose answer does not depend on the locals. -/
theorem inspect {question : TypeGraph → Frame → Checked α}
    (hsame : ∀ graph frame locals,
      question graph (Frame.withLocals frame locals) = question graph frame) :
    OverlooksLocals (ShapeFlow.inspect question) where
  run hrun locals := by
    obtain ⟨hanswer, rfl, rfl⟩ := inspect_eq_ok_iff.mp hrun
    exact inspect_of_ok ((hsame _ _ locals).trans hanswer)

instance allocate (object : Allocation) :
    OverlooksLocals (modifyGetThe Frame (Frame.allocate object) : Framed AllocId) where
  run hrun locals := by
    cases hrun
    rfl

instance release (id : AllocId) (fields : OrderedMap Selector Operand) :
    OverlooksLocals (modifyThe Frame (Frame.release id fields) : Framed PUnit) where
  run hrun locals := by
    cases hrun
    rfl

instance mapM (step : ι → Framed α) [hstep : ∀ item, OverlooksLocals (step item)]
    (items : List ι) : OverlooksLocals (items.mapM step) := by
  induction items with
  | nil => exact pure []
  | cons item rest ih =>
    rw [List.mapM_cons]
    infer_instance

instance forM (step : ι → Framed PUnit) [hstep : ∀ item, OverlooksLocals (step item)]
    (items : List ι) : OverlooksLocals (items.forM step) := by
  induction items with
  | nil => exact pure PUnit.unit
  | cons item rest ih =>
    exact inferInstanceAs (OverlooksLocals (step item >>= fun _ => rest.forM step))

/-- The locals are left as they are. -/
theorem locals_eq {step : Framed α} [hstep : OverlooksLocals step] {frame later : Frame}
    {graph final : TypeGraph} {value : α} (hrun : step frame graph = .ok (value, later) final) :
    later.locals = frame.locals := by
  have hagain := hrun.symm.trans (hstep.run hrun frame.locals)
  have hsame : later = later.withLocals frame.locals :=
    congrArg Prod.snd (EStateM.Result.ok.inj hagain).1
  exact (congrArg Frame.locals hsame).trans rfl

end OverlooksLocals

/-! ## Copies -/

namespace Frame

variable (base : AccessPath) (leaving : List (AllocId × AccessPath))

instance (operand : Operand) (part : TypeId) :
    OverlooksLocals (isCurrent declarations span base operand part) := by
  unfold isCurrent
  split
  · infer_instance
  · refine .get_bind (fun _ => inferInstance) fun frame locals => ?_
    rw [typeOf_withLocals]

instance (existing? : Option AllocId) (selector : Selector) (part : TypeId) :
    OverlooksLocals (keptPart declarations span base existing? selector part) := by
  unfold keptPart
  refine .seq (.inspect fun _ _ _ => rfl) fun previous? => ?_
  split
  · refine .seq inferInstance fun current => ?_
    split <;> infer_instance
  · infer_instance

instance (copy : AccessPath → Framed Operand) [∀ place, OverlooksLocals (copy place)]
    (existing? : Option AllocId) (place : AccessPath) :
    OverlooksLocals (copyParts declarations span base leaving copy existing? place) := by
  unfold copyParts
  refine .seq (.inspect fun _ _ _ => rfl) fun type => .seq (.inspect fun _ _ _ => rfl) fun node =>
    .seq (@OverlooksLocals.mapM _ _ _ (fun entry => ?_) _) fun parts => inferInstance
  dsimp only
  split <;> infer_instance

instance (inner : AccessPath → Framed Operand) [∀ place, OverlooksLocals (inner place)]
    (place : AccessPath) :
    OverlooksLocals (copyAt declarations span base leaving inner place) := by
  unfold copyAt
  split
  · infer_instance
  · refine .seq (.inspect fun _ _ _ => rfl) fun type =>
      .seq (.inspect fun _ _ _ => rfl) fun node => ?_
    split <;> infer_instance

instance (room : Nat) (place : AccessPath) :
    OverlooksLocals (copy declarations span base leaving room place) := by
  induction room generalizing place with
  | zero =>
    unfold copy
    infer_instance
  | succ room ih =>
    unfold copy
    infer_instance

end Frame

end ShapeFlow
