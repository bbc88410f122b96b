import ShapeFlow.Frame.Express
import ShapeFlow.Proofs.Growth

/-!
# Steps only add types

Whatever a step of an analysis is asked, in whatever state, and whether it succeeds or fails,
the graph behind it has everything that the graph before it had.  `Drifts` says so of a step
that carries a graph, or anything else that grows, and `RunDrifts` of a step that carries a
frame besides.

Both are classes, so that a step which is put together from others is seen to drift by putting
the instances of the others together.
-/

namespace ShapeFlow

/-- States that are compared by what they have grown to. -/
class Growing (τ : Type) where
  Grows : τ → τ → Prop
  refl : ∀ state, Grows state state
  trans : ∀ {first second third}, Grows first second → Grows second third → Grows first third

instance : Growing TypeGraph := ⟨TypeGraph.Grows, .refl, .trans⟩

/-- The state behind a step. -/
def endOf {τ α : Type} : EStateM.Result Failure τ α → τ
  | .ok _ state => state
  | .error _ state => state

variable {σ τ α β ι : Type} [Growing τ]

/-- The state behind the step has grown from the one before it. -/
class Drifts (step : EStateM Failure τ α) : Prop where
  grows : ∀ state, Growing.Grows state (endOf (step state))

/-- The step drifts whatever else it carries. -/
class RunDrifts (step : StateT σ (EStateM Failure τ) α) : Prop where
  run : ∀ frame, Drifts (step frame)

namespace Drifts

instance pure (value : α) : Drifts (Pure.pure value : EStateM Failure τ α) :=
  ⟨fun state => Growing.refl state⟩

instance bind (step : EStateM Failure τ α) (next : α → EStateM Failure τ β) [hstep : Drifts step]
    [hnext : ∀ value, Drifts (next value)] : Drifts (step >>= next) where
  grows state := by
    have hfirst := hstep.grows state
    simp only [Bind.bind, EStateM.bind]
    cases hresult : step state with
    | ok value later =>
      rw [hresult] at hfirst
      exact Growing.trans hfirst ((hnext value).grows later)
    | error failure later =>
      rw [hresult] at hfirst
      exact hfirst

theorem seq {step : EStateM Failure τ α} {next : α → EStateM Failure τ β}
    (hstep : Drifts step) (hnext : ∀ value, Drifts (next value)) : Drifts (step >>= next) :=
  bind step next

instance keep (step : Checked α) : Drifts (liftM step : EStateM Failure τ α) where
  grows state := by
    cases step <;> exact Growing.refl state

instance get : Drifts (getThe τ : EStateM Failure τ τ) := ⟨fun state => Growing.refl state⟩

instance reject (cause : Cause) : Drifts (ShapeFlow.reject cause : EStateM Failure τ α) :=
  ⟨fun state => Growing.refl state⟩

instance throw (failure : Failure) :
    Drifts (MonadExcept.throw failure : EStateM Failure τ α) :=
  ⟨fun state => Growing.refl state⟩

end Drifts

instance (step : StateT σ (EStateM Failure τ) α) [hstep : RunDrifts step] (frame : σ) :
    Drifts (step.run frame) := hstep.run frame

/-- The frame is given up at the end. -/
theorem Drifts.run' (step : StateT σ (EStateM Failure τ) α) [hstep : RunDrifts step] (frame : σ) :
    Drifts (step.run' frame) where
  grows state := by
    have hdrift := (hstep.run frame).grows state
    simp only [StateT.run', Functor.map, EStateM.map]
    cases hresult : step frame state <;> rw [hresult] at hdrift <;> exact hdrift

namespace RunDrifts

instance pure (value : α) : RunDrifts (Pure.pure value : StateT σ (EStateM Failure τ) α) :=
  ⟨fun _ => ⟨fun state => Growing.refl state⟩⟩

instance bind (step : StateT σ (EStateM Failure τ) α) (next : α → StateT σ (EStateM Failure τ) β)
    [hstep : RunDrifts step] [hnext : ∀ value, RunDrifts (next value)] :
    RunDrifts (step >>= next) where
  run frame :=
    have := hstep.run frame
    have := fun result : α × σ => (hnext result.1).run result.2
    inferInstanceAs (Drifts (step frame >>= fun result => next result.1 result.2))

theorem seq {step : StateT σ (EStateM Failure τ) α} {next : α → StateT σ (EStateM Failure τ) β}
    (hstep : RunDrifts step) (hnext : ∀ value, RunDrifts (next value)) :
    RunDrifts (step >>= next) := bind step next

instance lift (step : EStateM Failure τ α) [hstep : Drifts step] :
    RunDrifts (liftM step : StateT σ (EStateM Failure τ) α) where
  run frame := inferInstanceAs (Drifts (step >>= fun value => Pure.pure (value, frame)))

instance keep (step : Checked α) : RunDrifts (liftM step : StateT σ (EStateM Failure τ) α) where
  run frame := inferInstanceAs
    (Drifts ((liftM step : EStateM Failure τ α) >>= fun value => Pure.pure (value, frame)))

instance get : RunDrifts (getThe σ : StateT σ (EStateM Failure τ) σ) :=
  ⟨fun _ => ⟨fun state => Growing.refl state⟩⟩

instance getBase : RunDrifts (getThe τ : StateT σ (EStateM Failure τ) τ) :=
  ⟨fun _ => ⟨fun state => Growing.refl state⟩⟩

instance modify (change : σ → σ) :
    RunDrifts (modifyThe σ change : StateT σ (EStateM Failure τ) PUnit) :=
  ⟨fun _ => ⟨fun state => Growing.refl state⟩⟩

instance modifyGet (change : σ → α × σ) :
    RunDrifts (modifyGetThe σ change : StateT σ (EStateM Failure τ) α) :=
  ⟨fun _ => ⟨fun state => Growing.refl state⟩⟩

instance set (value : σ) :
    RunDrifts (MonadStateOf.set value : StateT σ (EStateM Failure τ) PUnit) :=
  ⟨fun _ => ⟨fun state => Growing.refl state⟩⟩

instance reject (cause : Cause) :
    RunDrifts (ShapeFlow.reject cause : StateT σ (EStateM Failure τ) α) :=
  ⟨fun _ => ⟨fun state => Growing.refl state⟩⟩

instance broken (reference : Reference) :
    RunDrifts (ShapeFlow.broken reference : StateT σ (EStateM Failure τ) α) :=
  ⟨fun _ => ⟨fun state => Growing.refl state⟩⟩

instance mapM (step : ι → StateT σ (EStateM Failure τ) α) [hstep : ∀ item, RunDrifts (step item)]
    (items : List ι) : RunDrifts (items.mapM step) := by
  induction items with
  | nil => exact pure []
  | cons item rest ih =>
    rw [List.mapM_cons]
    infer_instance

instance forM (step : ι → StateT σ (EStateM Failure τ) PUnit)
    [hstep : ∀ item, RunDrifts (step item)] (items : List ι) : RunDrifts (items.forM step) := by
  induction items with
  | nil => exact pure PUnit.unit
  | cons item rest ih => exact inferInstanceAs (RunDrifts (step item >>= fun _ => rest.forM step))

instance foldlM (step : β → ι → StateT σ (EStateM Failure τ) β)
    [hstep : ∀ value item, RunDrifts (step value item)] (items : List ι) (value : β) :
    RunDrifts (items.foldlM step value) := by
  induction items generalizing value with
  | nil => exact pure value
  | cons item rest ih =>
    rw [List.foldlM_cons]
    infer_instance

instance ite (condition : Prop) [Decidable condition]
    (first second : StateT σ (EStateM Failure τ) α) [RunDrifts first] [RunDrifts second] :
    RunDrifts (if condition then first else second) := by
  split <;> infer_instance

end RunDrifts

section States

omit [Growing τ]

variable (next : α → StateT σ (EStateM Failure τ) β) (frame : σ) (state : τ)

theorem getBase_bind_eq (next : τ → StateT σ (EStateM Failure τ) β) :
    ((getThe τ : StateT σ (EStateM Failure τ) τ) >>= next) frame state = next state frame state :=
  rfl

theorem modifyBase_bind_eq (change : τ → α × τ) :
    ((modifyGetThe τ change : StateT σ (EStateM Failure τ) α) >>= next) frame state =
      next (change state).1 frame (change state).2 := rfl

theorem modify_bind_eq (change : σ → σ) (next : PUnit → StateT σ (EStateM Failure τ) β) :
    ((modifyThe σ change : StateT σ (EStateM Failure τ) PUnit) >>= next) frame state =
      next ⟨⟩ (change frame) state := rfl

end States

/-! ## Steps on types and frames -/

instance (question : TypeGraph → Frame → Checked α) : RunDrifts (inspect question) where
  run frame := ⟨fun graph => by
    unfold inspect
    split <;> exact Growing.refl graph⟩

instance (step : TypeGraph → StateT Frame Checked α) : RunDrifts (reading step) where
  run frame := ⟨fun graph => by
    unfold reading
    split <;> exact Growing.refl graph⟩

namespace Frame

variable {frame : Frame} {declarations : Declarations} {span : Span}

instance (visit : AllocId → StateT Reified Building TypeId) [∀ id, RunDrifts (visit id)]
    (operand : Operand) : RunDrifts (frame.heldType declarations span visit operand) := by
  unfold heldType
  cases operand <;> infer_instance

instance (visit : AllocId → StateT Reified Building TypeId) [∀ id, RunDrifts (visit id)]
    (fields : OrderedMap Selector Operand) :
    RunDrifts (frame.heldTypes declarations span visit fields) := by
  unfold heldTypes
  infer_instance

theorem drifts_modifyGraph {change : TypeGraph → α × TypeGraph}
    (hgrows : ∀ graph : TypeGraph, graph.Grows (change graph).2) :
    RunDrifts (modifyGetThe TypeGraph change : StateT σ Building α) :=
  ⟨fun _ => ⟨fun graph => hgrows graph⟩⟩

/-- The node of an object on a circle is filled, but it was not there before. -/
theorem drifts_circle (className : String) (id : AllocId)
    (parts : StateT Reified Building Fields) [hparts : RunDrifts parts] :
    RunDrifts (do
      let type ← modifyGetThe TypeGraph (TypeGraph.reserve className)
      modifyThe Reified fun reified => reified.insert id type
      let fields ← parts
      modifyThe TypeGraph (TypeGraph.fill type fields)
      Pure.pure type : StateT Reified Building TypeId) where
  run reified := ⟨fun graph => by
    have hpush := TypeGraph.Grows.push graph (.object className ∅)
    have hnew := TypeGraph.not_has_push_fst graph (.object className ∅)
    have hdrift := (hparts.run (reified.insert id (graph.reserve className).1)).grows
      (graph.reserve className).2
    rw [modifyBase_bind_eq, modify_bind_eq]
    simp only [Bind.bind, StateT.bind, EStateM.bind]
    cases hresult : parts (reified.insert id (graph.reserve className).1)
      (graph.reserve className).2 with
    | ok result later =>
      rw [hresult] at hdrift
      exact (hpush.trans hdrift).fill hnew result.1
    | error failure later =>
      rw [hresult] at hdrift
      exact hpush.trans hdrift⟩

instance (room : Nat) (around : List AllocId) (id : AllocId) :
    RunDrifts (frame.reifyWithin declarations span room around id) := by
  induction room using Nat.strongRecOn generalizing around id with
  | ind room ih =>
    unfold reifyWithin
    refine .seq inferInstance fun reified => ?_
    split
    · infer_instance
    · refine .seq inferInstance fun object => ?_
      split
      · infer_instance
      · split
        · exact drifts_modifyGraph fun graph => .plainObject graph object.className
        · cases room with
          | zero => infer_instance
          | succ room =>
            -- The visits of the parts have less room.
            have (child : AllocId) :
                RunDrifts (frame.reifyWithin declarations span room (id :: around) child) :=
              ih room (Nat.lt_succ_self room) (id :: around) child
            dsimp only
            split
            · infer_instance
            · split
              · exact drifts_circle object.className id _
              · exact .seq inferInstance fun fields =>
                  .seq (drifts_modifyGraph fun graph => .intern graph object.className fields)
                    inferInstance

instance (id : AllocId) : Drifts (frame.reify declarations span id) :=
  .run' (frame.reifyWithin declarations span frame.allocations.size [] id) ∅

instance (operand : Operand) : Drifts (frame.typeOf declarations span operand) := by
  unfold typeOf
  refine .seq inferInstance fun resolved => ?_
  split <;> infer_instance

instance (base : AccessPath) (operand : Operand) (part : TypeId) :
    RunDrifts (isCurrent declarations span base operand part) := by
  unfold isCurrent
  infer_instance

instance (base : AccessPath) (existing? : Option AllocId) (selector : Selector) (part : TypeId) :
    RunDrifts (keptPart declarations span base existing? selector part) := by
  unfold keptPart
  refine .seq inferInstance fun previous? => ?_
  split <;> infer_instance

instance (base : AccessPath) (leaving : List (AllocId × AccessPath))
    (copy : AccessPath → Framed Operand) [∀ place, RunDrifts (copy place)]
    (existing? : Option AllocId) (place : AccessPath) :
    RunDrifts (copyParts declarations span base leaving copy existing? place) := by
  unfold copyParts
  infer_instance

instance (base : AccessPath) (leaving : List (AllocId × AccessPath))
    (inner : AccessPath → Framed Operand) [∀ place, RunDrifts (inner place)]
    (place : AccessPath) :
    RunDrifts (copyAt declarations span base leaving inner place) := by
  unfold copyAt
  split
  · infer_instance
  · refine .seq inferInstance fun type => .seq inferInstance fun node => ?_
    split <;> infer_instance

instance (base : AccessPath) (leaving : List (AllocId × AccessPath)) (room : Nat)
    (place : AccessPath) : RunDrifts (copy declarations span base leaving room place) := by
  induction room generalizing place with
  | zero =>
    unfold copy
    infer_instance
  | succ room ih =>
    unfold copy
    infer_instance

instance (root : Operand) (base place : AccessPath) :
    RunDrifts (retrace declarations span root base place) := by
  unfold retrace
  split <;> infer_instance

instance (base : AccessPath) (value : Operand) :
    RunDrifts (vacate declarations span base value) := by
  unfold vacate
  refine .seq inferInstance fun frame => ?_
  dsimp only
  split
  · infer_instance
  · refine .seq inferInstance fun rebuilt => .seq inferInstance fun root =>
      .seq inferInstance fun _ => .seq inferInstance fun _ => .seq inferInstance fun later =>
        .seq inferInstance fun _ => ?_
    split <;> infer_instance

instance (target : AccessPath) (selector : Selector) (part : TypeId) :
    RunDrifts (setPlaceType span target selector part) := by
  unfold setPlaceType
  refine .seq inferInstance fun current => ⟨fun frame => ⟨fun graph => ?_⟩⟩
  rw [getBase_bind_eq]
  cases hbind : graph.bindAt? current target.selectors part with
  | none => exact Growing.refl graph
  | some result => exact TypeGraph.Grows.bindAt? hbind

instance (target : AccessPath) (operand : Operand) :
    RunDrifts (recordOperand declarations span target operand) := by
  unfold recordOperand
  split <;> infer_instance

instance (base : Operand) (selector : Selector) (value : Operand) :
    RunDrifts (write declarations span base selector value) := by
  unfold write
  refine .seq inferInstance fun base => .seq inferInstance fun value =>
    .seq inferInstance fun className? => ?_
  split
  · infer_instance
  · split
    · split <;> infer_instance
    · infer_instance

instance (base : Operand) (selectors : List Selector) (value : Operand) :
    RunDrifts (writeAlong declarations span base selectors value) := by
  unfold writeAlong
  split <;> infer_instance

instance (operand : Operand) : RunDrifts (currentType declarations span operand) := by
  unfold currentType
  infer_instance

instance (operand : Operand) : RunDrifts (express declarations span operand) := by
  unfold express
  refine .seq inferInstance fun resolved => ?_
  split <;> infer_instance

instance (operand : Operand) : RunDrifts (expressResult declarations span operand) := by
  unfold expressResult
  refine .seq inferInstance fun resolved => ?_
  split <;> infer_instance

end Frame

end ShapeFlow
