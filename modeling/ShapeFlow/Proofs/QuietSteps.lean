import ShapeFlow.Proofs.BodyDrift

/-!
# Steps that callers do not see

Callers see the types of the slots and the writes that are recorded.  Most steps of a body change
neither: they read, they allocate, they bind locals and parts of allocated objects.  Nor do they
give an object a home, though an object may lose the one it has (`Frame.Quiet`).  Vacating a place
is such a step, so a write to a part of a place is loud only after the place has been vacated.

`RunsQuietly` says so of a step.  It is a class, so that a step which is put together from others
is seen to be quiet by putting the instances of the others together.
-/

namespace ShapeFlow

/-- What callers see of a frame has not changed, all objects are still there, and none has got a
home. -/
structure Frame.Quiet (frame later : Frame) : Prop where
  slots : later.slots = frame.slots
  writes : later.writes = frame.writes
  objects : ∀ (id : Nat) (object : Allocation), frame.allocations[id]? = some object →
    ∃ after, later.allocations[id]? = some after ∧ after.className = object.className
  homes : ∀ (id : Nat) (object : Allocation) (home : AccessPath),
    later.allocations[id]? = some object → object.home? = some home →
      ∃ before, frame.allocations[id]? = some before ∧ before.home? = some home

namespace Frame.Quiet

variable {frame later last : Frame}

/-- Nothing happens to the objects. -/
theorem of_allocations_eq (hslots : later.slots = frame.slots)
    (hwrites : later.writes = frame.writes) (hsame : later.allocations = frame.allocations) :
    frame.Quiet later where
  slots := hslots
  writes := hwrites
  objects id object hobject := ⟨object, by rw [hsame, hobject], rfl⟩
  homes id object home hobject hhome := ⟨object, by rw [← hsame, hobject], hhome⟩

theorem refl (frame : Frame) : frame.Quiet frame := .of_allocations_eq rfl rfl rfl

theorem trans (hfirst : frame.Quiet later) (hsecond : later.Quiet last) : frame.Quiet last where
  slots := hsecond.slots.trans hfirst.slots
  writes := hsecond.writes.trans hfirst.writes
  objects id object hobject := by
    obtain ⟨after, hafter, hclass⟩ := hfirst.objects id object hobject
    obtain ⟨final, hfinal, hclass'⟩ := hsecond.objects id after hafter
    exact ⟨final, hfinal, hclass'.trans hclass⟩
  homes id object home hobject hhome := by
    obtain ⟨middle, hmiddle, hhome'⟩ := hsecond.homes id object home hobject hhome
    exact hfirst.homes id middle home hmiddle hhome'

/-- An object without a home stays one. -/
theorem homeless (hquiet : frame.Quiet later) {id : Nat} {object after : Allocation}
    (hobject : frame.allocations[id]? = some object) (hafter : later.allocations[id]? = some after)
    (hnone : object.home? = none) : after.home? = none := by
  cases hhome : after.home? with
  | none => rfl
  | some home =>
    obtain ⟨before, hbefore, hsome⟩ := hquiet.homes id after home hafter hhome
    obtain rfl := Option.some.inj (hobject.symm.trans hbefore)
    exact nomatch hnone.symm.trans hsome

theorem setLocal (frame : Frame) (name : String) (operand : Operand) :
    frame.Quiet (frame.setLocal name operand) := .of_allocations_eq rfl rfl rfl

theorem recordCall (frame : Frame) (call : CallRecord) : frame.Quiet (frame.recordCall call) :=
  .of_allocations_eq rfl rfl rfl

/-- A new object has no home. -/
theorem allocate (frame : Frame) {object : Allocation} (hnone : object.home? = none) :
    frame.Quiet (frame.allocate object).2 := by
  refine ⟨rfl, rfl, fun id held hheld => ⟨held, ?_, rfl⟩, fun id held home hheld hhome => ?_⟩
  · have hlt := (Array.getElem?_eq_some_iff.mp hheld).1
    rw [Frame.allocate, Array.getElem?_push, if_neg (by omega), hheld]
  · rw [Frame.allocate, Array.getElem?_push] at hheld
    split at hheld
    · obtain rfl := Option.some.inj hheld
      cases hnone.symm.trans hhome
    · exact ⟨held, hheld, hhome⟩

/-- An object is changed that keeps its class, and its home if it does not lose it. -/
theorem update (frame : Frame) (id : AllocId) {change : Allocation → Allocation}
    (hclass : ∀ object, (change object).className = object.className)
    (hhome : ∀ object home, (change object).home? = some home → object.home? = some home) :
    frame.Quiet (frame.update id change) := by
  refine ⟨rfl, rfl, fun other object hobject => ?_, fun other object home hobject hsome => ?_⟩
  · rw [Frame.update, Array.getElem?_modify]
    split
    · exact ⟨change object, by rw [hobject]; rfl, hclass object⟩
    · exact ⟨object, hobject, rfl⟩
  · rw [Frame.update, Array.getElem?_modify] at hobject
    split at hobject
    · obtain ⟨before, hbefore, rfl⟩ := Option.map_eq_some_iff.mp hobject
      exact ⟨before, hbefore, hhome before home hsome⟩
    · exact ⟨object, hobject, hsome⟩

theorem release (frame : Frame) (id : AllocId) (fields : OrderedMap Selector Operand) :
    frame.Quiet (frame.release id fields) :=
  update frame id (fun _ => rfl) fun _ _ hsome => nomatch hsome

end Frame.Quiet

variable {τ α β ι : Type}

/-- Where the step succeeds, callers see no change. -/
class RunsQuietly (step : StateT Frame (EStateM Failure τ) α) : Prop where
  run : ∀ {frame : Frame} {state : τ} {value : α} {later : Frame} {final : τ},
    step frame state = .ok (value, later) final → frame.Quiet later

namespace RunsQuietly

/-- A step after which the frame is that of a quiet change. -/
theorem of_result {step : StateT Frame (EStateM Failure τ) α}
    (hstep : ∀ frame state, match step frame state with
      | .ok result _ => frame.Quiet result.2
      | .error _ _ => True) : RunsQuietly step where
  run {frame state value later final} hrun := by
    have hquiet := hstep frame state
    rw [hrun] at hquiet
    exact hquiet

instance pure (value : α) : RunsQuietly (Pure.pure value : StateT Frame (EStateM Failure τ) α) :=
  .of_result fun frame _ => .refl frame

instance bind (step : StateT Frame (EStateM Failure τ) α)
    (next : α → StateT Frame (EStateM Failure τ) β) [hstep : RunsQuietly step]
    [hnext : ∀ value, RunsQuietly (next value)] : RunsQuietly (step >>= next) where
  run {frame state value later final} hrun := by
    simp only [Bind.bind, StateT.bind, EStateM.bind] at hrun
    cases hfirst : step frame state with
    | ok result middle =>
      rw [hfirst] at hrun
      exact (hstep.run hfirst).trans ((hnext result.1).run hrun)
    | error failure middle =>
      rw [hfirst] at hrun
      exact nomatch hrun

theorem seq {step : StateT Frame (EStateM Failure τ) α}
    {next : α → StateT Frame (EStateM Failure τ) β} (hstep : RunsQuietly step)
    (hnext : ∀ value, RunsQuietly (next value)) : RunsQuietly (step >>= next) := bind step next

instance lift (step : EStateM Failure τ α) :
    RunsQuietly (liftM step : StateT Frame (EStateM Failure τ) α) where
  run {frame state value later final} hrun := by
    simp only [liftM, monadLift, MonadLift.monadLift, StateT.lift, Bind.bind, EStateM.bind] at hrun
    cases hstep : step state with
    | ok answer middle =>
      rw [hstep] at hrun
      cases hrun
      exact .refl frame
    | error failure middle =>
      rw [hstep] at hrun
      exact nomatch hrun

instance keep (step : Checked α) :
    RunsQuietly (liftM step : StateT Frame (EStateM Failure τ) α) :=
  inferInstanceAs (RunsQuietly (liftM (liftM step : EStateM Failure τ α) :
    StateT Frame (EStateM Failure τ) α))

instance get : RunsQuietly (getThe Frame : StateT Frame (EStateM Failure τ) Frame) :=
  .of_result fun frame _ => .refl frame

instance getBase : RunsQuietly (getThe τ : StateT Frame (EStateM Failure τ) τ) :=
  .of_result fun frame _ => .refl frame

instance reject (cause : Cause) :
    RunsQuietly (ShapeFlow.reject cause : StateT Frame (EStateM Failure τ) α) :=
  .of_result fun _ _ => trivial

instance broken (reference : Reference) :
    RunsQuietly (ShapeFlow.broken reference : StateT Frame (EStateM Failure τ) α) :=
  .of_result fun _ _ => trivial

theorem modify {change : Frame → Frame} (hchange : ∀ frame, Frame.Quiet frame (change frame)) :
    RunsQuietly (modifyThe Frame change : StateT Frame (EStateM Failure τ) PUnit) :=
  .of_result fun frame _ => hchange frame

instance setLocal (name : String) (operand : Operand) :
    RunsQuietly (modifyThe Frame (Frame.setLocal name operand) :
      StateT Frame (EStateM Failure τ) PUnit) :=
  modify fun frame => .setLocal frame name operand

instance recordCall (call : CallRecord) :
    RunsQuietly (modifyThe Frame (Frame.recordCall call) :
      StateT Frame (EStateM Failure τ) PUnit) :=
  modify fun frame => .recordCall frame call

instance release (id : AllocId) (fields : OrderedMap Selector Operand) :
    RunsQuietly (modifyThe Frame (Frame.release id fields) :
      StateT Frame (EStateM Failure τ) PUnit) :=
  modify fun frame => .release frame id fields

instance allocate (className : String) (fields : OrderedMap Selector Operand) :
    RunsQuietly (modifyGetThe Frame (Frame.allocate { className, fields }) :
      StateT Frame (EStateM Failure τ) AllocId) :=
  .of_result fun frame _ => .allocate frame rfl

instance mapM (step : ι → StateT Frame (EStateM Failure τ) α)
    [hstep : ∀ item, RunsQuietly (step item)] (items : List ι) :
    RunsQuietly (items.mapM step) := by
  induction items with
  | nil => exact pure []
  | cons item rest ih =>
    rw [List.mapM_cons]
    infer_instance

instance forM (step : ι → StateT Frame (EStateM Failure τ) PUnit)
    [hstep : ∀ item, RunsQuietly (step item)] (items : List ι) :
    RunsQuietly (items.forM step) := by
  induction items with
  | nil => exact pure PUnit.unit
  | cons item rest ih =>
    exact inferInstanceAs (RunsQuietly (step item >>= fun _ => rest.forM step))

instance ite (condition : Prop) [Decidable condition]
    (first second : StateT Frame (EStateM Failure τ) α) [RunsQuietly first]
    [RunsQuietly second] : RunsQuietly (if condition then first else second) := by
  split <;> infer_instance

end RunsQuietly

instance (question : TypeGraph → Frame → Checked α) : RunsQuietly (inspect question) where
  run {frame state value later final} hrun := by
    obtain ⟨-, rfl, -⟩ := inspect_eq_ok_iff.mp hrun
    exact .refl later

/-- Where a quiet step succeeds, callers see no change. -/
theorem lenient_ends (step : StateT Frame (EStateM Failure τ) α) [hstep : RunsQuietly step]
    (frame : Frame) (state : τ) :
    (lenient τ).Ends state (step frame state) fun result _ => frame.Quiet result.2 := by
  cases hrun : step frame state with
  | ok result final => exact ⟨trivial, hstep.run hrun⟩
  | error failure final => exact ⟨trivial, trivial, trivial⟩

/-! ## Reading -/

/-- A step that reads the types is quiet, where it succeeds. -/
abbrev Frame.ReadsQuietly (frame : Frame) (outcome : Checked (α × Frame)) : Prop :=
  Checked.Safe (fun _ => True) outcome fun result => frame.Quiet result.2

theorem RunsQuietly.reading {step : TypeGraph → StateT Frame Checked α}
    (hstep : ∀ graph frame, Frame.ReadsQuietly frame (step graph frame)) :
    RunsQuietly (ShapeFlow.reading step) where
  run {frame graph value later final} hrun := by
    have hquiet := hstep graph frame
    rw [(reading_eq_ok_iff.mp hrun).1] at hquiet
    exact hquiet

namespace Frame

variable {frame : Frame} {graph : TypeGraph} {declarations : Declarations} {span : Span}

theorem setPart_quiet (id : AllocId) (selector : Selector) (operand : Operand) (frame : Frame) :
    frame.ReadsQuietly (setPart id selector operand frame) := by
  unfold setPart
  refine Checked.Safe.get_bind
    (Checked.Safe.lift_bind (Checked.safe_true fun _ => trivial) fun _ _ => ?_)
  exact .update frame id (fun _ => rfl) fun _ _ hsome => hsome

/-- The operand is told as it is: it is no object that has a home. -/
def Settled (frame : Frame) (operand : Operand) : Prop := frame.resolve operand = .ok operand

/-- An object is told by its home, if it has one. -/
theorem resolve_fresh_eq_ok_iff {id : AllocId} {resolved : Operand} :
    frame.resolve (.fresh id) = .ok resolved ↔ ∃ object,
      frame.allocations[id.index]? = some object ∧
        (object.home?.map Operand.path).getD (.fresh id) = resolved := by
  simp only [resolve, allocation]
  cases frame.allocations[id.index]? with
  | none => simp [found, bind, Except.bind]
  | some object =>
    cases hhome : object.home? <;> simp [found, bind, Except.bind, hhome, pure, Except.pure]

theorem settled_fresh_iff {id : AllocId} : frame.Settled (.fresh id) ↔
    ∃ object, frame.allocations[id.index]? = some object ∧ object.home? = none := by
  refine resolve_fresh_eq_ok_iff.trans (exists_congr fun object => and_congr_right fun _ => ?_)
  cases object.home? <;> simp

theorem resolve_settled {operand resolved : Operand}
    (hresolve : frame.resolve operand = .ok resolved) : frame.Settled resolved := by
  cases operand with
  | type held => cases hresolve; rfl
  | path place => cases hresolve; rfl
  | fresh id =>
    obtain ⟨object, hobject, rfl⟩ := resolve_fresh_eq_ok_iff.mp hresolve
    cases hhome : object.home? with
    | some home => rfl
    | none => exact settled_fresh_iff.mpr ⟨object, hobject, hhome⟩

theorem Quiet.settled {later : Frame} (hquiet : frame.Quiet later) {operand : Operand}
    (hsettled : frame.Settled operand) : later.Settled operand := by
  cases operand with
  | type held => rfl
  | path place => rfl
  | fresh id =>
    obtain ⟨object, hobject, hhome⟩ := settled_fresh_iff.mp hsettled
    obtain ⟨after, hafter, -⟩ := hquiet.objects id.index object hobject
    exact settled_fresh_iff.mpr ⟨after, hafter, hquiet.homeless hobject hafter hhome⟩

theorem settled_allocate (frame : Frame) {object : Allocation} (hhome : object.home? = none) :
    (frame.allocate object).2.Settled (.fresh (frame.allocate object).1) :=
  settled_fresh_iff.mpr ⟨object, by simp [allocate], hhome⟩

/-- An object is expanded to an object without a home. -/
theorem expand?_settled (graph : TypeGraph) (type : TypeId) (frame : Frame) :
    Checked.Safe (fun _ => True) (expand? graph type frame) fun result =>
      frame.Quiet result.2 ∧ ∀ id, result.1 = some id → result.2.Settled (.fresh id) := by
  unfold expand?
  refine Checked.Safe.lift_bind (Checked.safe_true fun _ => trivial) fun node _ => ?_
  cases node with
  | scalar => exact ⟨.refl frame, fun id hsome => nomatch hsome⟩
  | object className fields =>
    refine ⟨.allocate frame rfl, fun id hsome => ?_⟩
    cases hsome
    exact frame.settled_allocate rfl

/-- What is read is told as it is. -/
theorem read_settled (base : Operand) (selector : Selector) (frame : Frame) :
    Checked.Safe (fun _ => True) (read declarations span graph base selector frame) fun result =>
      frame.Quiet result.2 ∧ result.2.Settled result.1 := by
  unfold read
  refine Checked.Safe.get_bind
    (Checked.Safe.lift_bind (Checked.safe_true fun _ => trivial) fun resolved _ => ?_)
  cases resolved with
  | path place =>
    refine Checked.Safe.lift_bind (Checked.safe_true fun _ => trivial) fun object _ => ?_
    refine Checked.Safe.lift_bind (Checked.safe_true fun _ => trivial) fun part _ => ?_
    refine Checked.Safe.lift_bind (Checked.safe_true fun _ => trivial) fun node _ => ?_
    cases node <;> exact ⟨.refl frame, rfl⟩
  | type object =>
    refine Checked.Safe.lift_bind (Checked.safe_true fun _ => trivial) fun part _ => ?_
    exact ⟨.refl frame, rfl⟩
  | fresh id =>
    refine Checked.Safe.lift_bind (Checked.safe_true fun _ => trivial) fun object _ => ?_
    cases object.fields.get? selector with
    | none => trivial
    | some operand =>
      have htold : Checked.Safe (fun _ => True)
          ((liftM (frame.resolve operand) : StateT Frame Checked Operand) frame) fun result =>
          frame.Quiet result.2 ∧ result.2.Settled result.1 := by
        cases hresolve : frame.resolve operand with
        | error failure => trivial
        | ok resolved => exact ⟨.refl frame, resolve_settled hresolve⟩
      cases operand with
      | type part =>
        refine (expand?_settled graph part frame).run_bind fun child? later hpost => ?_
        obtain ⟨hquiet, hsettled⟩ := hpost
        cases child? with
        | none => exact ⟨hquiet, rfl⟩
        | some child =>
          refine (setPart_quiet id selector (.fresh child) later).run_bind
            fun _ set hset => ?_
          exact ⟨hquiet.trans hset, Quiet.settled hset (hsettled child rfl)⟩
      | path place => exact htold
      | fresh child => exact htold

theorem readAlong_settled (base : Operand) (selectors : List Selector) (frame : Frame) :
    Checked.Safe (fun _ => True) (readAlong declarations span graph base selectors frame)
      fun result => frame.Quiet result.2 ∧
        (frame.Settled base → result.2.Settled result.1) := by
  unfold readAlong
  induction selectors generalizing base frame with
  | nil => exact ⟨.refl frame, id⟩
  | cons selector rest ih =>
    rw [List.foldlM_cons]
    refine (read_settled base selector frame).run_bind fun operand later hpost => ?_
    obtain ⟨hquiet, hsettled⟩ := hpost
    refine (ih operand later).mono fun result hpost => ?_
    exact ⟨hquiet.trans hpost.1, fun _ => hpost.2 hsettled⟩

instance (id : AllocId) (selector : Selector) (operand : Operand) :
    RunsQuietly (reading fun _ => setPart id selector operand) :=
  .reading fun _ frame => setPart_quiet id selector operand frame

instance (base : Operand) (selector : Selector) :
    RunsQuietly (reading fun graph => read declarations span graph base selector) :=
  .reading fun _ frame => (read_settled base selector frame).mono fun _ hpost => hpost.1

instance (base : Operand) (selectors : List Selector) :
    RunsQuietly (reading fun graph => readAlong declarations span graph base selectors) :=
  .reading fun _ frame => (readAlong_settled base selectors frame).mono fun _ hpost => hpost.1

instance (type : TypeId) : RunsQuietly (reading fun graph => expand? graph type) :=
  .reading fun graph frame => (expand?_settled graph type frame).mono fun _ hpost => hpost.1

/-! ## Vacating a place -/

instance (base : AccessPath) (operand : Operand) (part : TypeId) :
    RunsQuietly (isCurrent declarations span base operand part) := by
  unfold isCurrent
  infer_instance

instance (base : AccessPath) (existing? : Option AllocId) (selector : Selector) (part : TypeId) :
    RunsQuietly (keptPart declarations span base existing? selector part) := by
  unfold keptPart
  refine .seq inferInstance fun previous? => ?_
  split <;> infer_instance

instance (base : AccessPath) (leaving : List (AllocId × AccessPath))
    (copy : AccessPath → Framed Operand) [∀ place, RunsQuietly (copy place)]
    (existing? : Option AllocId) (place : AccessPath) :
    RunsQuietly (copyParts declarations span base leaving copy existing? place) := by
  unfold copyParts
  infer_instance

instance (base : AccessPath) (leaving : List (AllocId × AccessPath))
    (inner : AccessPath → Framed Operand) [∀ place, RunsQuietly (inner place)]
    (place : AccessPath) :
    RunsQuietly (copyAt declarations span base leaving inner place) := by
  unfold copyAt
  split
  · infer_instance
  · refine .seq inferInstance fun type => .seq inferInstance fun node => ?_
    split <;> infer_instance

instance (base : AccessPath) (leaving : List (AllocId × AccessPath)) (room : Nat)
    (place : AccessPath) : RunsQuietly (copy declarations span base leaving room place) := by
  induction room generalizing place with
  | zero =>
    unfold copy
    infer_instance
  | succ room ih =>
    unfold copy
    infer_instance

instance (root : Operand) (base place : AccessPath) :
    RunsQuietly (retrace declarations span root base place) := by
  unfold retrace
  split <;> infer_instance

instance (base : AccessPath) (value : Operand) :
    RunsQuietly (vacate declarations span base value) := by
  unfold vacate
  refine .seq inferInstance fun frame => ?_
  dsimp only
  split
  · infer_instance
  · refine .seq inferInstance fun rebuilt => .seq inferInstance fun root =>
      .seq inferInstance fun _ => .seq inferInstance fun _ => .seq inferInstance fun later =>
        .seq inferInstance fun _ => ?_
    split <;> infer_instance

instance (operand : Operand) : RunsQuietly (currentType declarations span operand) := by
  unfold currentType
  infer_instance

instance (operand : Operand) : RunsQuietly (express declarations span operand) := by
  unfold express
  refine .seq inferInstance fun resolved => ?_
  split <;> infer_instance

/-! ## The operand that is rebound -/

/-- The copy is an object that loses its home, or else it is told as it is. -/
theorem copyAt_settled (base : AccessPath) (leaving : List (AllocId × AccessPath))
    (inner : AccessPath → Framed Operand) (place : AccessPath) (frame : Frame)
    (graph : TypeGraph) :
    (lenient TypeGraph).Ends graph (copyAt declarations span base leaving inner place frame graph)
      fun result _ => (∃ resident ∈ leaving, result.1 = .fresh resident.1) ∨
        result.2.Settled result.1 := by
  unfold copyAt
  cases hfind : leaving.find? fun resident => resident.2 = place with
  | some resident =>
    exact .run_pure (Or.inl ⟨resident, List.mem_of_find?_eq_some hfind, rfl⟩)
  | none =>
    refine (lenient_any _ frame graph).run_bind fun type changed later _ _ => ?_
    refine (lenient_any _ changed later).run_bind fun node changed later _ _ => ?_
    cases node with
    | scalar => exact .run_pure (Or.inr rfl)
    | object className fields =>
      refine (lenient_any _ changed later).run_bind fun fields changed later _ _ => ?_
      exact ⟨trivial, Or.inr (changed.settled_allocate rfl)⟩

theorem copy_settled (base : AccessPath) (leaving : List (AllocId × AccessPath)) (room : Nat)
    (place : AccessPath) (frame : Frame) (graph : TypeGraph) :
    (lenient TypeGraph).Ends graph (copy declarations span base leaving room place frame graph)
      fun result _ => (∃ resident ∈ leaving, result.1 = .fresh resident.1) ∨
        result.2.Settled result.1 := by
  cases room <;> exact copyAt_settled base leaving _ place frame graph

/-- Every object that is released has no home afterwards. -/
theorem releaseAll_settled (rebuilt : List (AllocId × OrderedMap Selector Operand))
    (frame : Frame) (graph : TypeGraph) :
    (lenient TypeGraph).Ends graph
      ((rebuilt.forM fun object => modifyThe Frame (release object.1 object.2) : Framed PUnit)
        frame graph)
      fun result _ => frame.Quiet result.2 ∧ ∀ object ∈ rebuilt,
        (∃ held, frame.allocations[object.1.index]? = some held) →
          result.2.Settled (.fresh object.1) := by
  induction rebuilt generalizing frame with
  | nil => exact .run_pure ⟨.refl frame, by simp⟩
  | cons first rest ih =>
    have hquiet := Quiet.release frame first.1 first.2
    refine Discipline.Ends.modify_bind ((ih (frame.release first.1 first.2)).mono ?_)
    intro result later _ hpost
    obtain ⟨hlater, hrest⟩ := hpost
    refine ⟨hquiet.trans hlater, fun object hmem hheld => ?_⟩
    obtain ⟨held, hheld⟩ := hheld
    rcases List.mem_cons.mp hmem with rfl | hmem
    · refine hlater.settled (settled_fresh_iff.mpr ⟨{ held with fields := object.2, home? := none },
        ?_, rfl⟩)
      simp [release, update, Array.getElem?_modify, hheld]
    · obtain ⟨after, hafter, -⟩ := hquiet.objects _ held hheld
      exact hrest object hmem ⟨after, hafter⟩

/-- An object whose home lies within a place is one of the frame. -/
theorem exists_of_mem_residents {base : AccessPath} {resident : AllocId × AccessPath}
    (hmem : resident ∈ frame.residents base) :
    ∃ object, frame.allocations[resident.1.index]? = some object := by
  obtain ⟨entry, hentry, hresident⟩ := List.mem_filterMap.mp hmem
  have hat := List.mem_zipIdx_iff_getElem?.mp hentry
  rw [Array.getElem?_toList] at hat
  split at hresident
  · split at hresident
    · cases hresident
      exact ⟨entry.1, hat⟩
    · cases hresident
  · cases hresident

/-- All objects that lose their homes are rebuilt. -/
theorem rebuildAll_quiet (base : AccessPath) (leaving all : List (AllocId × AccessPath))
    (room : Nat) (frame : Frame) (graph : TypeGraph) :
    (lenient TypeGraph).Ends graph
      ((leaving.mapM fun resident => do
        let fields ← copyParts declarations span base all (copy declarations span base all room)
          (some resident.1) resident.2
        pure (resident.1, fields) : Framed _) frame graph)
      fun result _ => frame.Quiet result.2 ∧
        ∀ resident ∈ leaving, ∃ object ∈ result.1, object.1 = resident.1 := by
  induction leaving generalizing frame graph with
  | nil => exact .run_pure ⟨.refl frame, by simp⟩
  | cons first rest ih =>
    rw [List.mapM_cons, bind_assoc]
    refine (lenient_ends _ frame graph).run_bind fun fields changed later _ hchanged => ?_
    rw [pure_bind]
    refine (ih changed later).run_bind fun objects last final _ hpost => ?_
    obtain ⟨hlast, hobjects⟩ := hpost
    refine .run_pure ⟨hchanged.trans hlast, List.forall_mem_cons.mpr ⟨?_, ?_⟩⟩
    · exact ⟨_, List.mem_cons_self, rfl⟩
    · intro resident hmem
      obtain ⟨object, hobject, heq⟩ := hobjects resident hmem
      exact ⟨object, List.mem_cons_of_mem _ hobject, heq⟩

/-- When a place is vacated, an operand that is told as it is stays or is rebound to one that is
told as it is. -/
theorem vacate_settled (base : AccessPath) {value : Operand} (hvalue : frame.Settled value)
    (graph : TypeGraph) :
    (lenient TypeGraph).Ends graph (vacate declarations span base value frame graph)
      fun result _ => result.2.Settled result.1 := by
  unfold vacate
  refine .get_bind ?_
  dsimp only
  split
  · exact .run_pure hvalue
  · refine (rebuildAll_quiet base _ _ _ frame graph).run_bind ?_
    intro rebuilt changed₁ later₁ _ hpost
    obtain ⟨hquiet₁, hrebuilt⟩ := hpost
    refine ((lenient_ends _ changed₁ later₁).and (copy_settled base _ _ base changed₁
      later₁)).run_bind ?_
    intro root changed₂ later₂ _ hpost
    obtain ⟨hquiet₂, hroot⟩ := hpost
    refine (releaseAll_settled rebuilt changed₂ later₂).run_bind ?_
    intro _ changed₃ later₃ _ hpost
    obtain ⟨hquiet₃, hreleased⟩ := hpost
    -- If the copy is an object that was there, it has lost its home by now.
    have hsettled : changed₃.Settled root := by
      rcases hroot with hroot | hroot
      · obtain ⟨resident, hmem, rfl⟩ := hroot
        obtain ⟨object, hobject, heq⟩ := hrebuilt resident hmem
        obtain ⟨held, hheld⟩ := exists_of_mem_residents hmem
        obtain ⟨after, hafter, -⟩ := (hquiet₁.trans hquiet₂).objects _ held hheld
        rw [← heq] at hafter ⊢
        exact hreleased object hobject ⟨after, hafter⟩
      · exact hquiet₃.settled hroot
    refine (lenient_ends _ changed₃ later₃).run_bind fun _ changed₄ later₄ _ hquiet₄ => ?_
    refine .get_bind ((lenient_ends _ changed₄ later₄).run_bind
      fun _ changed₅ later₅ _ hquiet₅ => ?_)
    have hsettled' : changed₅.Settled root := hquiet₅.settled (hquiet₄.settled hsettled)
    cases value.placeWithin? base with
    | none =>
      have hquiet := (hquiet₁.trans hquiet₂).trans (hquiet₃.trans (hquiet₄.trans hquiet₅))
      exact .run_pure (hquiet.settled hvalue)
    | some place =>
      dsimp only [retrace]
      cases place.below? base with
      | none => exact lenient_any (broken (.place place base) : Framed Operand) changed₅ later₅
      | some selectors =>
        refine Discipline.Ends.mono (Discipline.Ends.reading trivial
          (readAlong_settled root selectors changed₅)) fun result later _ hpost => ?_
        exact hpost.2.2 hsettled'

end Frame

/-! ## Steps of bodies -/

instance (step : Framed α) [hstep : RunsQuietly step] : RunsQuietly (liftM step : Body α) where
  run {frame knowledge value later final} hrun := by
    change Building.within (step frame) knowledge = _ at hrun
    unfold Building.within at hrun
    split at hrun
    · rename_i result graph hresult
      cases hrun
      exact hstep.run hresult
    · exact nomatch hrun

instance (step : Checked α) : RunsQuietly (liftM step : Body α) :=
  inferInstanceAs (RunsQuietly (liftM (liftM step : Framed α) : Body α))

variable {declarations : Declarations} {span : Span}

namespace Binding

variable (binding : Binding)

instance (slot : Nat) : RunsQuietly (binding.slot slot) := by
  unfold Binding.slot
  split <;> infer_instance

instance (place : AccessPath) : RunsQuietly (binding.place place) := by
  unfold Binding.place
  infer_instance

instance (value : Value) : RunsQuietly (binding.value value) := by
  unfold Binding.value
  split <;> infer_instance

instance (result : Value) : RunsQuietly (binding.result result) := by
  unfold Binding.result
  split <;> infer_instance

end Binding

namespace Scope

variable (scope : Scope)

instance : RunsQuietly (scope.this span) := by
  unfold Scope.this
  infer_instance

instance (name : String) : RunsQuietly (scope.name span name) := by
  unfold Scope.name
  refine .seq inferInstance fun frame => ?_
  split
  · infer_instance
  · split <;> infer_instance

instance (base : Operand) (selector : Selector) :
    RunsQuietly (scope.read span base selector) := by
  unfold Scope.read
  infer_instance

instance (receiver : Operand) (method : String) :
    RunsQuietly (scope.dispatch span receiver method) := by
  unfold dispatch
  refine .seq inferInstance fun className? => ?_
  split
  · infer_instance
  · split <;> infer_instance

instance (name : String) : RunsQuietly (scope.resolveCall span name) := by
  unfold resolveCall
  split
  · infer_instance
  · split <;> infer_instance

instance (className : String) : RunsQuietly (scope.allocate span className) := by
  unfold Scope.allocate
  split <;> infer_instance

instance (array : AllocId) (expected? : Option TypeId) (value : Operand) :
    RunsQuietly (scope.addElement span array expected? value) := by
  unfold addElement
  refine .seq inferInstance fun type => ?_
  split
  · infer_instance
  · refine .seq inferInstance fun graph => ?_
    split <;> infer_instance

end Scope

end ShapeFlow
