import ShapeFlow.Proofs.BodyDrift

/-!
# Recorded calls tell of known summaries

A frame records a call only when the analysis of the callee has answered with a summary, and the
record repeats the signature of that summary.  No other step touches the records, and what is known
only grows, so each call recorded in a finished body, and in a finished summary, has the signature
of a summary that is known (`Knowledge.AllTold`).

`KeepsCalls` says of a step that it leaves the records alone, and `AlwaysTells` that what it adds
to them is told by a known summary.  Both are classes, and neither looks at what the step is given.
-/

namespace ShapeFlow

variable {σ τ α β ι : Type}

/-! ## Steps that record no call -/

/-- Where the step succeeds, the recorded calls are as before. -/
class LeavesCalls (step : StateT Frame Checked α) : Prop where
  run : ∀ {frame : Frame} {value : α} {later : Frame},
    step frame = .ok (value, later) → later.calls = frame.calls

namespace LeavesCalls

instance pure (value : α) : LeavesCalls (Pure.pure value : StateT Frame Checked α) where
  run hrun := by
    cases hrun
    rfl

instance bind (step : StateT Frame Checked α) (next : α → StateT Frame Checked β)
    [hstep : LeavesCalls step] [hnext : ∀ value, LeavesCalls (next value)] :
    LeavesCalls (step >>= next) where
  run {frame value later} hrun := by
    simp only [Bind.bind, StateT.bind, Except.bind] at hrun
    cases hfirst : step frame with
    | ok result =>
      rw [hfirst] at hrun
      exact ((hnext result.1).run hrun).trans (hstep.run hfirst)
    | error failure =>
      rw [hfirst] at hrun
      exact nomatch hrun

theorem seq {step : StateT Frame Checked α} {next : α → StateT Frame Checked β}
    (hstep : LeavesCalls step) (hnext : ∀ value, LeavesCalls (next value)) :
    LeavesCalls (step >>= next) := bind step next

instance lift (step : Checked α) : LeavesCalls (liftM step : StateT Frame Checked α) where
  run hrun := by
    cases step with
    | ok value =>
      cases hrun
      rfl
    | error failure => exact nomatch hrun

instance get : LeavesCalls (MonadState.get : StateT Frame Checked Frame) where
  run hrun := by
    cases hrun
    rfl

instance reject (cause : Cause) :
    LeavesCalls (ShapeFlow.reject cause : StateT Frame Checked α) where
  run hrun := nomatch hrun

instance update (id : AllocId) (change : Allocation → Allocation) :
    LeavesCalls (modify (Frame.update id change) : StateT Frame Checked PUnit) where
  run hrun := by
    cases hrun
    rfl

instance allocate (object : Allocation) :
    LeavesCalls (modifyGet (Frame.allocate object) : StateT Frame Checked AllocId) where
  run hrun := by
    cases hrun
    rfl

instance foldlM (step : β → ι → StateT Frame Checked β)
    [hstep : ∀ value item, LeavesCalls (step value item)] (items : List ι) (value : β) :
    LeavesCalls (items.foldlM step value) := by
  induction items generalizing value with
  | nil => exact pure value
  | cons item rest ih =>
    rw [List.foldlM_cons]
    infer_instance

end LeavesCalls

/-- Where the step succeeds, the recorded calls are as before. -/
class KeepsCalls (step : StateT Frame (EStateM Failure τ) α) : Prop where
  run : ∀ {frame : Frame} {state : τ} {value : α} {later : Frame} {final : τ},
    step frame state = .ok (value, later) final → later.calls = frame.calls

namespace KeepsCalls

/-- A step after which the frame has the calls that it had before. -/
theorem of_result {step : StateT Frame (EStateM Failure τ) α}
    (hstep : ∀ frame state, match step frame state with
      | .ok result _ => result.2.calls = frame.calls
      | .error _ _ => True) : KeepsCalls step where
  run {frame state value later final} hrun := by
    have hkept := hstep frame state
    rw [hrun] at hkept
    exact hkept

instance pure (value : α) : KeepsCalls (Pure.pure value : StateT Frame (EStateM Failure τ) α) :=
  .of_result fun _ _ => rfl

instance bind (step : StateT Frame (EStateM Failure τ) α)
    (next : α → StateT Frame (EStateM Failure τ) β) [hstep : KeepsCalls step]
    [hnext : ∀ value, KeepsCalls (next value)] : KeepsCalls (step >>= next) where
  run {frame state value later final} hrun := by
    simp only [Bind.bind, StateT.bind, EStateM.bind] at hrun
    cases hfirst : step frame state with
    | ok result middle =>
      rw [hfirst] at hrun
      exact ((hnext result.1).run hrun).trans (hstep.run hfirst)
    | error failure middle =>
      rw [hfirst] at hrun
      exact nomatch hrun

theorem seq {step : StateT Frame (EStateM Failure τ) α}
    {next : α → StateT Frame (EStateM Failure τ) β} (hstep : KeepsCalls step)
    (hnext : ∀ value, KeepsCalls (next value)) : KeepsCalls (step >>= next) := bind step next

instance lift (step : EStateM Failure τ α) :
    KeepsCalls (liftM step : StateT Frame (EStateM Failure τ) α) where
  run {frame state value later final} hrun := by
    simp only [liftM, monadLift, MonadLift.monadLift, StateT.lift, Bind.bind, EStateM.bind] at hrun
    cases hstep : step state with
    | ok answer middle =>
      rw [hstep] at hrun
      cases hrun
      rfl
    | error failure middle =>
      rw [hstep] at hrun
      exact nomatch hrun

instance keep (step : Checked α) :
    KeepsCalls (liftM step : StateT Frame (EStateM Failure τ) α) :=
  inferInstanceAs (KeepsCalls (liftM (liftM step : EStateM Failure τ α) :
    StateT Frame (EStateM Failure τ) α))

instance get : KeepsCalls (getThe Frame : StateT Frame (EStateM Failure τ) Frame) :=
  .of_result fun _ _ => rfl

instance getBase : KeepsCalls (getThe τ : StateT Frame (EStateM Failure τ) τ) :=
  .of_result fun _ _ => rfl

instance reject (cause : Cause) :
    KeepsCalls (ShapeFlow.reject cause : StateT Frame (EStateM Failure τ) α) :=
  .of_result fun _ _ => trivial

instance broken (reference : Reference) :
    KeepsCalls (ShapeFlow.broken reference : StateT Frame (EStateM Failure τ) α) :=
  .of_result fun _ _ => trivial

instance setLocal (name : String) (operand : Operand) :
    KeepsCalls (modifyThe Frame (Frame.setLocal name operand) :
      StateT Frame (EStateM Failure τ) PUnit) :=
  .of_result fun _ _ => rfl

instance record (target : AccessPath) (value : Value) :
    KeepsCalls (modifyThe Frame (Frame.record target value) :
      StateT Frame (EStateM Failure τ) PUnit) :=
  .of_result fun _ _ => rfl

instance release (id : AllocId) (fields : OrderedMap Selector Operand) :
    KeepsCalls (modifyThe Frame (Frame.release id fields) :
      StateT Frame (EStateM Failure τ) PUnit) :=
  .of_result fun _ _ => rfl

instance allocate (object : Allocation) :
    KeepsCalls (modifyGetThe Frame (Frame.allocate object) :
      StateT Frame (EStateM Failure τ) AllocId) :=
  .of_result fun _ _ => rfl

instance mapM (step : ι → StateT Frame (EStateM Failure τ) α)
    [hstep : ∀ item, KeepsCalls (step item)] (items : List ι) :
    KeepsCalls (items.mapM step) := by
  induction items with
  | nil => exact pure []
  | cons item rest ih =>
    rw [List.mapM_cons]
    infer_instance

instance forM (step : ι → StateT Frame (EStateM Failure τ) PUnit)
    [hstep : ∀ item, KeepsCalls (step item)] (items : List ι) :
    KeepsCalls (items.forM step) := by
  induction items with
  | nil => exact pure PUnit.unit
  | cons item rest ih =>
    exact inferInstanceAs (KeepsCalls (step item >>= fun _ => rest.forM step))

instance ite (condition : Prop) [Decidable condition]
    (first second : StateT Frame (EStateM Failure τ) α) [KeepsCalls first]
    [KeepsCalls second] : KeepsCalls (if condition then first else second) := by
  split <;> infer_instance

end KeepsCalls

instance (question : TypeGraph → Frame → Checked α) : KeepsCalls (inspect question) where
  run hrun := by rw [(inspect_eq_ok_iff.mp hrun).2.1]

instance (step : TypeGraph → StateT Frame Checked α) [hstep : ∀ graph, LeavesCalls (step graph)] :
    KeepsCalls (reading step) where
  run hrun := (hstep _).run (reading_eq_ok_iff.mp hrun).1

/-! ## Steps on frames -/

namespace Frame

variable {declarations : Declarations} {span : Span}

instance (graph : TypeGraph) (type : TypeId) : LeavesCalls (expand? graph type) := by
  unfold expand?
  refine .seq inferInstance fun node => ?_
  split <;> infer_instance

instance (id : AllocId) (selector : Selector) (operand : Operand) :
    LeavesCalls (setPart id selector operand) := by
  unfold setPart
  infer_instance

instance (graph : TypeGraph) (base : Operand) (selector : Selector) :
    LeavesCalls (read declarations span graph base selector) := by
  unfold read
  refine .seq inferInstance fun frame => .seq inferInstance fun resolved => ?_
  split
  · refine .seq inferInstance fun object => .seq inferInstance fun part =>
      .seq inferInstance fun node => ?_
    split <;> infer_instance
  · infer_instance
  · refine .seq inferInstance fun object => ?_
    split
    · refine .seq inferInstance fun child? => ?_
      split <;> infer_instance
    · infer_instance
    · infer_instance

instance (graph : TypeGraph) (base : Operand) (selectors : List Selector) :
    LeavesCalls (readAlong declarations span graph base selectors) := by
  unfold readAlong
  infer_instance

/-! ### Placing and vacating -/

theorem calls_visitPart {visit : Placement → AllocId → AccessPath → Checked Placement}
    (hvisit : ∀ walk id place, Checked.Safe (fun _ => True) (visit walk id place) fun later =>
      later.frame.calls = walk.frame.calls)
    (walk : Placement) (target : AccessPath) (operand : Operand) :
    Checked.Safe (fun _ => True) (Placement.visitPart visit walk target operand) fun later =>
      later.frame.calls = walk.frame.calls := by
  unfold Placement.visitPart
  refine (Checked.safe_true fun _ => trivial).bind fun resolved _ => ?_
  cases resolved with
  | type held => exact rfl
  | path source => exact rfl
  | fresh child => exact hvisit walk child target

theorem calls_visit (settling : Bool) (room : Nat) (walk : Placement) (id : AllocId)
    (place : AccessPath) :
    Checked.Safe (fun _ => True) (Placement.visit settling room walk id place) fun later =>
      later.frame.calls = walk.frame.calls := by
  induction room generalizing walk id place with
  | zero =>
    unfold Placement.visit
    split
    · exact rfl
    · exact (Checked.safe_true fun _ => trivial).bind fun _ _ => trivial
  | succ room ih =>
    unfold Placement.visit
    split
    · exact rfl
    · refine (Checked.safe_true fun _ => trivial).bind fun object _ => ?_
      refine Checked.Safe.bind (Checked.Safe.foldlM object.fields.entries (fun later =>
        later.frame.calls = walk.frame.calls) rfl fun entry _ later hlater => ?_)
        fun later hlater => ?_
      · exact (calls_visitPart ih later (place.child entry.1) entry.2).mono fun last hlast =>
          hlast.trans hlater
      · cases settling <;> exact hlater

theorem calls_place (settling : Bool) (id : AllocId) (target : AccessPath) (frame : Frame) :
    Checked.Safe (fun _ => True) (frame.place settling id target) fun later =>
      later.calls = frame.calls :=
  (calls_visit settling frame.allocations.size { frame } id target).bind fun _ hlater => hlater

/-- An object is placed in the frame as it is. -/
theorem keepsCalls_place (settling : Bool) (id : AllocId) (target : AccessPath) (next : Framed α)
    [hnext : KeepsCalls next] :
    KeepsCalls (do
      let frame ← (← getThe Frame).place settling id target
      set frame
      next : Framed α) where
  run {frame graph value later final} hrun := by
    have hplace := calls_place settling id target frame
    rw [getFrame_bind_eq] at hrun
    cases hresult : frame.place settling id target with
    | ok placed =>
      rw [hresult] at hplace hrun
      exact (hnext.run hrun).trans hplace
    | error failure =>
      rw [hresult] at hrun
      exact nomatch hrun

instance (base : AccessPath) (operand : Operand) (part : TypeId) :
    KeepsCalls (isCurrent declarations span base operand part) := by
  unfold isCurrent
  split <;> infer_instance

instance (base : AccessPath) (existing? : Option AllocId) (selector : Selector) (part : TypeId) :
    KeepsCalls (keptPart declarations span base existing? selector part) := by
  unfold keptPart
  refine .seq inferInstance fun previous? => ?_
  split <;> infer_instance

instance (base : AccessPath) (leaving : List (AllocId × AccessPath))
    (copy : AccessPath → Framed Operand) [∀ place, KeepsCalls (copy place)]
    (existing? : Option AllocId) (place : AccessPath) :
    KeepsCalls (copyParts declarations span base leaving copy existing? place) := by
  unfold copyParts
  infer_instance

instance (base : AccessPath) (leaving : List (AllocId × AccessPath))
    (inner : AccessPath → Framed Operand) [∀ place, KeepsCalls (inner place)]
    (place : AccessPath) : KeepsCalls (copyAt declarations span base leaving inner place) := by
  unfold copyAt
  split
  · infer_instance
  · refine .seq inferInstance fun type => .seq inferInstance fun node => ?_
    split <;> infer_instance

instance (base : AccessPath) (leaving : List (AllocId × AccessPath)) (room : Nat)
    (place : AccessPath) : KeepsCalls (copy declarations span base leaving room place) := by
  induction room generalizing place with
  | zero =>
    unfold copy
    infer_instance
  | succ room ih =>
    unfold copy
    infer_instance

instance (root : Operand) (base place : AccessPath) :
    KeepsCalls (retrace declarations span root base place) := by
  unfold retrace
  split <;> infer_instance

instance (base : AccessPath) (value : Operand) :
    KeepsCalls (vacate declarations span base value) := by
  unfold vacate
  refine .seq inferInstance fun frame => ?_
  dsimp only
  split
  · infer_instance
  · refine .seq inferInstance fun rebuilt => .seq inferInstance fun root =>
      .seq inferInstance fun _ => .seq inferInstance fun _ => .seq inferInstance fun later =>
        .seq inferInstance fun _ => ?_
    split <;> infer_instance

/-! ### Writing and telling -/

instance (target : AccessPath) (selector : Selector) (part : TypeId) :
    KeepsCalls (setPlaceType span target selector part) := by
  unfold setPlaceType
  refine .seq inferInstance fun current => .of_result fun frame graph => ?_
  rw [getBase_bind_eq]
  cases graph.bindAt? current target.selectors part with
  | none => trivial
  | some result => exact rfl

instance (target : AccessPath) (operand : Operand) :
    KeepsCalls (recordOperand declarations span target operand) := by
  unfold recordOperand
  split
  · infer_instance
  · infer_instance
  · exact .seq inferInstance fun frame => .seq inferInstance fun type => .seq inferInstance
      fun _ => keepsCalls_place true _ target (pure PUnit.unit)

instance (base : Operand) (selector : Selector) (value : Operand) :
    KeepsCalls (write declarations span base selector value) := by
  unfold write
  refine .seq inferInstance fun base => .seq inferInstance fun value =>
    .seq inferInstance fun className? => ?_
  split
  · infer_instance
  · split
    · split <;> infer_instance
    · infer_instance

instance (base : Operand) (selectors : List Selector) (value : Operand) :
    KeepsCalls (writeAlong declarations span base selectors value) := by
  unfold writeAlong
  split <;> infer_instance

instance (operand : Operand) : KeepsCalls (currentType declarations span operand) := by
  unfold currentType
  infer_instance

instance (operand : Operand) : KeepsCalls (express declarations span operand) := by
  unfold express
  refine .seq inferInstance fun resolved => ?_
  split <;> infer_instance

instance (operand : Operand) : KeepsCalls (expressResult declarations span operand) := by
  unfold expressResult
  refine .seq inferInstance fun resolved => ?_
  split
  · exact .seq inferInstance fun frame => .seq inferInstance fun type =>
      keepsCalls_place false _ _ (pure (Value.type type))
  · infer_instance

end Frame

namespace Binding

variable (binding : Binding)

instance (slot : Nat) : KeepsCalls (binding.slot slot) := by
  unfold Binding.slot
  split <;> infer_instance

instance (place : AccessPath) : KeepsCalls (binding.place place) := by
  unfold Binding.place
  infer_instance

instance (value : Value) : KeepsCalls (binding.value value) := by
  unfold Binding.value
  split <;> infer_instance

instance (write : Write) : KeepsCalls (binding.write write) := by
  unfold Binding.write
  infer_instance

instance (result : Value) : KeepsCalls (binding.result result) := by
  unfold Binding.result
  split <;> infer_instance

instance (summary : Summary) : KeepsCalls (binding.replay summary) := by
  unfold Binding.replay
  infer_instance

end Binding

/-! ## Records in bodies -/

namespace Knowledge

/-- The call tells of a known summary by its signature. -/
def Tells (knowledge : Knowledge) (call : CallRecord) : Prop :=
  ∃ summary : Summary, knowledge.summaries[call.summary.index]? = some summary ∧
    summary.signature = call.signature

/-- The calls in all summaries tell of known summaries. -/
def AllTold (knowledge : Knowledge) : Prop :=
  ∀ (id : Nat) (summary : Summary), knowledge.summaries[id]? = some summary →
    ∀ call ∈ summary.calls, knowledge.Tells call

variable {knowledge later : Knowledge}

theorem Tells.mono {call : CallRecord} (htells : knowledge.Tells call)
    (hgrows : knowledge.Grows later) : later.Tells call := by
  obtain ⟨summary, hsummary, hsame⟩ := htells
  exact ⟨summary, hgrows.summaries _ _ hsummary, hsame⟩

theorem Tells.of_summaries_eq {call : CallRecord} (htells : knowledge.Tells call)
    (hsame : later.summaries = knowledge.summaries) : later.Tells call := by
  unfold Tells at *
  rwa [hsame]

theorem AllTold.of_summaries_eq (htold : knowledge.AllTold)
    (hsame : later.summaries = knowledge.summaries) : later.AllTold := by
  intro id summary hsummary call hmem
  rw [hsame] at hsummary
  exact (htold id summary hsummary call hmem).of_summaries_eq hsame

theorem AllTold.addSummary (htold : knowledge.AllTold) {summary : Summary}
    (hcalls : ∀ call ∈ summary.calls, knowledge.Tells call) :
    (knowledge.addSummary summary).2.AllTold := by
  have hgrows := grows_addSummary knowledge summary
  intro id held hheld call hmem
  simp only [Knowledge.addSummary, Array.getElem?_push] at hheld
  split at hheld
  · obtain rfl := Option.some.inj hheld
    exact (hcalls call hmem).mono hgrows
  · exact (htold id held hheld call hmem).mono hgrows

end Knowledge

/-- All recorded calls, here and in the summaries, tell of known summaries. -/
structure Frame.Told (frame : Frame) (knowledge : Knowledge) : Prop where
  calls : ∀ call ∈ frame.calls, knowledge.Tells call
  summaries : knowledge.AllTold

/-- From a frame whose calls tell of known summaries the step leads to such a frame, if it
succeeds, and in any case the calls in the summaries do so. -/
def Telling (step : Body α) (frame : Frame) (knowledge : Knowledge) : Prop :=
  frame.Told knowledge →
    match step frame knowledge with
    | .ok (_, later) final => later.Told final
    | .error _ final => final.AllTold

/-- The step tells from wherever it starts. -/
class AlwaysTells (step : Body α) : Prop where
  telling : ∀ frame knowledge, Telling step frame knowledge

/-- An analysis keeps to summaries whose calls tell of known ones. -/
class KeepsTold (step : Knowing α) : Prop where
  told : ∀ knowledge : Knowledge, knowledge.AllTold → (endOf (step knowledge)).AllTold

namespace Telling

variable {frame : Frame} {knowledge : Knowledge}

theorem always {step : Body α} [hstep : AlwaysTells step] : Telling step frame knowledge :=
  hstep.telling frame knowledge

theorem bind {step : Body α} {next : α → Body β} (hstep : Telling step frame knowledge)
    (hnext : ∀ value later final, step frame knowledge = .ok (value, later) final →
      Telling (next value) later final) : Telling (step >>= next) frame knowledge := by
  intro htold
  have hfirst := hstep htold
  simp only [Bind.bind, StateT.bind, EStateM.bind]
  cases hresult : step frame knowledge with
  | ok result final =>
    rw [hresult] at hfirst
    exact hnext result.1 result.2 final hresult hfirst
  | error failure final =>
    rw [hresult] at hfirst
    exact hfirst

end Telling

/-- A step on types and frame leaves the summaries alone. -/
theorem summaries_framed (step : Framed α) (frame : Frame) (knowledge : Knowledge) :
    (endOf ((liftM step : Body α) frame knowledge)).summaries = knowledge.summaries := by
  change (endOf (Building.within (step frame) knowledge)).summaries = _
  unfold Building.within
  cases step frame knowledge.graph <;> rfl

theorem calls_framed {step : Framed α} [hstep : KeepsCalls step] {frame later : Frame}
    {knowledge final : Knowledge} {value : α}
    (hrun : (liftM step : Body α) frame knowledge = .ok (value, later) final) :
    later.calls = frame.calls := by
  change Building.within (step frame) knowledge = _ at hrun
  unfold Building.within at hrun
  cases hresult : step frame knowledge.graph with
  | ok result graph =>
    rw [hresult] at hrun
    cases hrun
    exact hstep.run hresult
  | error failure graph =>
    rw [hresult] at hrun
    exact nomatch hrun

theorem summaries_of_framed {step : Framed α} {frame later : Frame} {knowledge final : Knowledge}
    {value : α} (hrun : (liftM step : Body α) frame knowledge = .ok (value, later) final) :
    final.summaries = knowledge.summaries := by
  have hsummaries := summaries_framed step frame knowledge
  rwa [hrun] at hsummaries

theorem recordCall_telling {frame : Frame} {knowledge : Knowledge} {call : CallRecord}
    (htells : knowledge.Tells call) :
    Telling (modifyThe Frame (Frame.recordCall call) : Body PUnit) frame knowledge := by
  intro htold
  refine ⟨fun other hmem => ?_, htold.summaries⟩
  rcases List.mem_append.mp hmem with hmem | hmem
  · exact htold.calls other hmem
  · obtain rfl := List.mem_singleton.mp hmem
    exact htells

namespace AlwaysTells

instance pure (value : α) : AlwaysTells (Pure.pure value : Body α) := ⟨fun _ _ htold => htold⟩

instance bind (step : Body α) (next : α → Body β) [AlwaysTells step]
    [∀ value, AlwaysTells (next value)] : AlwaysTells (step >>= next) :=
  ⟨fun _ _ => Telling.always.bind fun _ _ _ _ => .always⟩

theorem seq {step : Body α} {next : α → Body β} (hstep : AlwaysTells step)
    (hnext : ∀ value, AlwaysTells (next value)) : AlwaysTells (step >>= next) := bind step next

instance get : AlwaysTells (getThe Knowledge : Body Knowledge) := ⟨fun _ _ htold => htold⟩

instance framed (step : Framed α) [hstep : KeepsCalls step] :
    AlwaysTells (liftM step : Body α) where
  telling frame knowledge htold := by
    have hsummaries := summaries_framed step frame knowledge
    cases hrun : (liftM step : Body α) frame knowledge with
    | ok result final =>
      rw [hrun] at hsummaries
      refine ⟨fun call hmem => ?_, htold.summaries.of_summaries_eq hsummaries⟩
      rw [calls_framed hrun] at hmem
      exact (htold.calls call hmem).of_summaries_eq hsummaries
    | error failure final =>
      rw [hrun] at hsummaries
      exact htold.summaries.of_summaries_eq hsummaries

instance checked (step : Checked α) : AlwaysTells (liftM step : Body α) :=
  inferInstanceAs (AlwaysTells (liftM (liftM step : Framed α) : Body α))

instance reject (cause : Cause) : AlwaysTells (ShapeFlow.reject cause : Body α) :=
  ⟨fun _ _ htold => htold.summaries⟩

instance setLocal (name : String) (operand : Operand) :
    AlwaysTells (modifyThe Frame (Frame.setLocal name operand) : Body PUnit) :=
  ⟨fun _ _ htold => ⟨htold.calls, htold.summaries⟩⟩

instance allocate (object : Allocation) :
    AlwaysTells (modifyGetThe Frame (Frame.allocate object) : Body AllocId) :=
  ⟨fun _ _ htold => ⟨htold.calls, htold.summaries⟩⟩

instance mapM (step : ι → Body α) [hstep : ∀ item, AlwaysTells (step item)] (items : List ι) :
    AlwaysTells (items.mapM step) := by
  induction items with
  | nil => exact pure []
  | cons item rest ih =>
    rw [List.mapM_cons]
    infer_instance

instance knowing (step : Knowing α) [hstep : KeepsTold step] [hdrifts : Drifts step] :
    AlwaysTells (liftM step : Body α) where
  telling frame knowledge htold := by
    have htold' := hstep.told knowledge htold.summaries
    have hgrows := hdrifts.grows knowledge
    simp only [liftM, monadLift, MonadLift.monadLift, StateT.lift, Bind.bind, EStateM.bind]
    cases hresult : step knowledge with
    | ok value later =>
      rw [hresult] at htold' hgrows
      exact ⟨fun call hmem => (htold.calls call hmem).mono hgrows, htold'⟩
    | error failure later =>
      rw [hresult] at htold'
      exact htold'

end AlwaysTells

/-! ## Bodies -/

section Calls

variable {declarations : Declarations} {span : Span}

/-- A call is recorded with the signature of the summary that answers it. -/
instance (analyst : Analyst) [∀ target types, KeepsTold (analyst target types)]
    [∀ target types, Drifts (analyst target types)] (method : String) (target : DefId)
    (arguments : List Operand) :
    AlwaysTells (call analyst declarations span method target arguments) := by
  unfold call
  refine .seq inferInstance fun arguments => .seq inferInstance fun types =>
    .seq inferInstance fun id => ⟨fun frame knowledge => ?_⟩
  refine Telling.always.bind fun known changed later hrun => ?_
  cases hrun
  refine Telling.always.bind fun summary changed later hrun => ?_
  have hsummary : later.summaries[id.index]? = some summary := by
    cases hheld : knowledge.summaries[id.index]? with
    | none =>
      rw [Knowledge.summary, hheld] at hrun
      exact nomatch hrun
    | some held =>
      rw [Knowledge.summary, hheld] at hrun
      cases hrun
      exact hheld
  have hframed : AlwaysTells (liftM (match summary.result with
      | .type type => reading fun graph => Frame.expand? graph type
      | .path _ => pure none : Framed (Option AllocId)) : Body (Option AllocId)) := by
    cases summary.result <;> infer_instance
  refine Telling.always.bind fun result? expanded later' hrun => ?_
  have hexpanded := summaries_of_framed hrun
  refine Telling.always.bind fun operand replayed later'' hrun => ?_
  have hreplayed := summaries_of_framed hrun
  refine Telling.always.bind fun value expressed final hrun => ?_
  have hexpressed := summaries_of_framed hrun
  refine (recordCall_telling ⟨summary, ?_, rfl⟩).bind fun _ _ _ _ => .always
  rw [hexpressed, hreplayed, hexpanded, hsummary]

end Calls

namespace Scope

variable {span : Span} (scope : Scope)

instance : KeepsCalls (scope.this span) := by
  unfold Scope.this
  infer_instance

instance (name : String) : KeepsCalls (scope.name span name) := by
  unfold Scope.name
  refine .seq inferInstance fun frame => ?_
  split
  · infer_instance
  · split <;> infer_instance

instance (base : Operand) (selector : Selector) : KeepsCalls (scope.read span base selector) := by
  unfold Scope.read
  infer_instance

instance (base : Operand) (selector : Selector) (value : Operand) :
    KeepsCalls (scope.write span base selector value) := by
  unfold Scope.write
  infer_instance

instance (receiver : Operand) (method : String) :
    KeepsCalls (scope.dispatch span receiver method) := by
  unfold dispatch
  refine .seq inferInstance fun className? => ?_
  split
  · infer_instance
  · split <;> infer_instance

instance (name : String) : KeepsCalls (scope.resolveCall span name) := by
  unfold resolveCall
  split
  · infer_instance
  · split <;> infer_instance

instance (className : String) : KeepsCalls (scope.allocate span className) := by
  unfold Scope.allocate
  split <;> infer_instance

instance (array : AllocId) (expected? : Option TypeId) (value : Operand) :
    KeepsCalls (scope.addElement span array expected? value) := by
  unfold addElement
  refine .seq inferInstance fun type => ?_
  split
  · infer_instance
  · refine .seq inferInstance fun graph => ?_
    split <;> infer_instance

instance [∀ target types, KeepsTold (scope.analyst target types)]
    [∀ target types, Drifts (scope.analyst target types)] (method : String) (target : DefId)
    (arguments : List Operand) :
    AlwaysTells (scope.call span method target arguments) := by
  unfold Scope.call
  infer_instance

variable [∀ target types, KeepsTold (scope.analyst target types)]
  [∀ target types, Drifts (scope.analyst target types)]

theorem tells_rules : Rules (fun _ : Unit => scope) fun step => AlwaysTells (step ()) where
  pure _ := inferInstance
  seq := .seq
  reject _ := inferInstance
  setLocal _ _ := inferInstance
  allocateArray := inferInstance
  resolve _ := inferInstance
  this _ := inferInstance
  name _ _ := inferInstance
  read _ _ _ := inferInstance
  write _ _ _ _ := inferInstance
  dispatch _ _ _ := inferInstance
  resolveCall _ _ := inferInstance
  allocate _ _ := inferInstance
  addElement _ _ _ _ := inferInstance
  call _ _ _ _ := inferInstance

instance (body : List Expr) : AlwaysTells (scope.evaluateBody body) :=
  scope.tells_rules.evaluateBody body

end Scope

/-! ## Analyses -/

namespace KeepsTold

instance pure (value : α) : KeepsTold (Pure.pure value : Knowing α) := ⟨fun _ htold => htold⟩

instance bind (step : Knowing α) (next : α → Knowing β) [hstep : KeepsTold step]
    [hnext : ∀ value, KeepsTold (next value)] : KeepsTold (step >>= next) where
  told knowledge htold := by
    have hfirst := hstep.told knowledge htold
    simp only [Bind.bind, EStateM.bind]
    cases hresult : step knowledge with
    | ok value later =>
      rw [hresult] at hfirst
      exact (hnext value).told later hfirst
    | error failure later =>
      rw [hresult] at hfirst
      exact hfirst

theorem seq {step : Knowing α} {next : α → Knowing β} (hstep : KeepsTold step)
    (hnext : ∀ value, KeepsTold (next value)) : KeepsTold (step >>= next) := bind step next

instance keep (step : Checked α) : KeepsTold (liftM step : Knowing α) where
  told knowledge htold := by cases step <;> exact htold

instance get : KeepsTold (MonadState.get : Knowing Knowledge) := ⟨fun _ htold => htold⟩

instance reject (cause : Cause) : KeepsTold (ShapeFlow.reject cause : Knowing α) :=
  ⟨fun _ htold => htold⟩

instance throw (failure : Failure) : KeepsTold (MonadExcept.throw failure : Knowing α) :=
  ⟨fun _ htold => htold⟩

/-- A change of a memo leaves the summaries alone. -/
instance withMemo (target : DefId)
    (change : TypeGraph → Memo SummaryId → α × Memo SummaryId) :
    KeepsTold (ShapeFlow.withMemo target change) where
  told knowledge htold := by
    cases hmemo : knowledge.memos[target.index]? with
    | none =>
      rw [withMemo_eq_error hmemo]
      exact htold
    | some memo =>
      rw [withMemo_eq hmemo]
      exact htold.of_summaries_eq rfl

end KeepsTold

section Analyses

variable {declarations : Declarations}

/-- The calls of a new summary tell of known ones. -/
theorem summarize_told (declarations : Declarations) (analyst : Analyst)
    [∀ target types, KeepsTold (analyst target types)]
    [∀ target types, Drifts (analyst target types)] (definition : Definition)
    (signature : Signature) {knowledge : Knowledge} (htold : knowledge.AllTold) :
    match summarize analyst declarations definition signature knowledge with
    | .ok summary later => later.AllTold ∧ ∀ call ∈ summary.calls, later.Tells call
    | .error _ later => later.AllTold := by
  let scope : Scope := ⟨declarations, definition, analyst⟩
  have hbody : AlwaysTells (scope.evaluateBody definition.decl.body >>= fun operand =>
      liftM (Frame.expressResult declarations definition.decl.span operand)) := inferInstance
  have hstart : Frame.Told { slots := signature.arguments } knowledge := ⟨nofun, htold⟩
  have htelling := hbody.telling _ _ hstart
  have hsummarize : summarize analyst declarations definition signature knowledge =
      ((scope.evaluateBody definition.decl.body >>= fun operand =>
        liftM (Frame.expressResult declarations definition.decl.span operand) : Body Value)
          { slots := signature.arguments } >>= fun result =>
        (pure ⟨signature, result.1, result.2.writes, result.2.calls⟩ : Knowing Summary))
          knowledge := rfl
  rw [hsummarize]
  simp only [Bind.bind, EStateM.bind] at htelling ⊢
  cases hrun : StateT.bind (scope.evaluateBody definition.decl.body) (fun operand =>
      liftM (Frame.expressResult declarations definition.decl.span operand))
      { slots := signature.arguments } knowledge with
  | ok result later =>
    rw [hrun] at htelling
    exact ⟨htelling.summaries, htelling.calls⟩
  | error failure later =>
    rw [hrun] at htelling
    exact htelling

/-- An analysis of a body whose summary is added if there is one. -/
theorem KeepsTold.of_summarize (analyst : Analyst)
    [∀ target types, KeepsTold (analyst target types)]
    [∀ target types, Drifts (analyst target types)] (definition : Definition)
    (signature : Signature) {next : Except Failure Summary → Knowing α}
    {rest : SummaryId → Knowing α} [hrest : ∀ id, KeepsTold (rest id)]
    (hok : ∀ summary, next (.ok summary) = modifyGet (Knowledge.addSummary summary) >>= rest)
    (herror : ∀ failure, KeepsTold (next (.error failure))) :
    KeepsTold (observe (summarize analyst declarations definition signature) >>= next) where
  told knowledge htold := by
    have hbody := summarize_told declarations analyst definition signature htold
    simp only [Bind.bind, EStateM.bind, observe]
    cases hresult : summarize analyst declarations definition signature knowledge with
    | ok summary later =>
      rw [hresult] at hbody
      simp only [hok]
      exact (hrest _).told _ (hbody.1.addSummary hbody.2)
    | error failure later =>
      rw [hresult] at hbody
      exact (herror failure).told later hbody

instance (limit room : Nat) (target : DefId) (arguments : List TypeId) :
    KeepsTold (analyze declarations limit room target arguments) := by
  induction room using Nat.strongRecOn generalizing target arguments with
  | ind room ih =>
    unfold analyze
    refine .seq inferInstance fun definition => ?_
    dsimp only
    split
    · infer_instance
    · refine .seq inferInstance fun progress? => ?_
      split
      · infer_instance
      · infer_instance
      · cases room with
        | zero => infer_instance
        | succ room =>
          have hcallees (target : DefId) (types : List TypeId) :
              KeepsTold (analyze declarations limit room target types) :=
            ih room (Nat.lt_succ_self room) target types
          exact .seq inferInstance fun _ =>
            .of_summarize _ _ _ (fun _ => rfl) fun _ => inferInstance

end Analyses

end ShapeFlow
