import ShapeFlow.Proofs.Blurring
import ShapeFlow.Proofs.Drift

/-!
# Steps that pass places on

A step of an analysis is given spans and never looks at them: they go into failures and into
recorded calls alone.  So the same step on a blurred state, with blurred declarations and an empty
span, comes to the same outcome, blurred (`RunBlurs`).

Besides, a step that fails by itself fails with a bare cause: only the end of an analysis attributes
a failure to a signature.  Which failures are excused is left open, as long as bare ones are
(`ExcusesBare`), since what a callee fails with may well be attributed.

The relations between the two steps are classes, so that two steps which are put together alike from
others are seen to be related by putting the instances of the others together.
-/

namespace ShapeFlow

/-- The failure is not attributed to a signature. -/
def Failure.Bare : Failure → Prop
  | .rejected (.cause _) => True
  | .rejected (.inSignature ..) => False
  | .broken _ => True

/-- Failures that are not attributed to a signature are excused. -/
class ExcusesBare (excused : Failure → Prop) : Prop where
  bare : ∀ failure, failure.Bare → excused failure

instance : ExcusesBare Failure.Bare := ⟨fun _ hbare => hbare⟩

instance : ExcusesBare fun _ => True := ⟨fun _ _ => trivial⟩

/-- States that may hold places. -/
class Blurry (τ : Type) where
  blurred : τ → τ

instance : Blurry TypeGraph := ⟨fun graph => graph⟩

instance : Blurry Frame.Reified := ⟨fun reified => reified⟩

instance : Blurry Frame := ⟨Frame.blur⟩

instance : Blurry Knowledge := ⟨Knowledge.blur⟩

open Blurry (blurred)

section Steps

variable {σ τ α β ι : Type} [Blurry σ] [Blurry τ] (excused : Failure → Prop)

/-- The outcome without places. -/
def blurOutcome (value : α → β) : EStateM.Result Failure τ α → EStateM.Result Failure τ β
  | .ok answer state => .ok (value answer) (blurred state)
  | .error failure state => .error failure.blur (blurred state)

/-- The second step that only reads is the first one without places. -/
class CheckBlurs (step step' : Checked α) : Prop where
  run : step' = step.mapError Failure.blur
  excuses : ∀ failure, step = .error failure → excused failure

/-- From a blurred state the second step comes to the blurred outcome of the first one. -/
class Blurs (step step' : EStateM Failure τ α) : Prop where
  run : ∀ state, step' (blurred state) = blurOutcome id (step state)
  excuses : ∀ state failure later, step state = .error failure later → excused failure

/-- The second step comes to the blurred outcome of the first one, whatever else it carries. -/
class RunBlurs (step step' : StateT σ (EStateM Failure τ) α) : Prop where
  run : ∀ frame state,
    step' (blurred frame) (blurred state) = blurOutcome (Prod.map id blurred) (step frame state)
  excuses : ∀ frame state failure later, step frame state = .error failure later → excused failure

/-- The second step reads from a blurred frame what the first one reads, and changes the frame in
the same way. -/
class ReadBlurs (step step' : StateT Frame Checked α) : Prop where
  run : ∀ frame,
    step' (blurred frame) = ((step frame).map (Prod.map id blurred)).mapError Failure.blur
  excuses : ∀ frame failure, step frame = .error failure → excused failure

variable {excused}

namespace CheckBlurs

instance pure (value : α) :
    CheckBlurs excused (Pure.pure value : Checked α) (Pure.pure value) where
  run := rfl
  excuses _ hfailed := nomatch hfailed

instance bind (step step' : Checked α) (next next' : α → Checked β)
    [hstep : CheckBlurs excused step step']
    [hnext : ∀ value, CheckBlurs excused (next value) (next' value)] :
    CheckBlurs excused (step >>= next) (step' >>= next') where
  run := by
    rw [hstep.run]
    cases step with
    | ok value => exact (hnext value).run
    | error failure => rfl
  excuses failure hfailed := by
    cases step with
    | ok value => exact (hnext value).excuses failure hfailed
    | error reason =>
      cases hfailed
      exact hstep.excuses _ rfl

instance reject (cause : Cause) [hbare : ExcusesBare excused] :
    CheckBlurs excused (ShapeFlow.reject cause : Checked α) (ShapeFlow.reject cause.blur) where
  run := rfl
  excuses failure hfailed := by
    cases hfailed
    exact hbare.bare _ trivial

instance broken (reference : Reference) [hbare : ExcusesBare excused] :
    CheckBlurs excused (ShapeFlow.broken reference : Checked α) (ShapeFlow.broken reference) where
  run := rfl
  excuses failure hfailed := by
    cases hfailed
    exact hbare.bare _ trivial

instance found (reference : Reference) (option : Option α) [ExcusesBare excused] :
    CheckBlurs excused (ShapeFlow.found reference option) (ShapeFlow.found reference option) := by
  cases option with
  | none => exact broken reference
  | some value => exact pure value

instance foldlM (step step' : β → ι → Checked β)
    [hstep : ∀ value item, CheckBlurs excused (step value item) (step' value item)]
    (items : List ι) (value : β) :
    CheckBlurs excused (items.foldlM step value) (items.foldlM step' value) := by
  induction items generalizing value with
  | nil => exact pure value
  | cons item rest ih =>
    rw [List.foldlM_cons, List.foldlM_cons]
    infer_instance

theorem seq {step step' : Checked α} {next next' : α → Checked β}
    (hstep : CheckBlurs excused step step')
    (hnext : ∀ value, CheckBlurs excused (next value) (next' value)) :
    CheckBlurs excused (step >>= next) (step' >>= next') := bind step step' next next'

end CheckBlurs

namespace ReadBlurs

instance pure (value : α) :
    ReadBlurs excused (Pure.pure value : StateT Frame Checked α) (Pure.pure value) where
  run _ := rfl
  excuses _ _ hfailed := nomatch hfailed

instance bind (step step' : StateT Frame Checked α) (next next' : α → StateT Frame Checked β)
    [hstep : ReadBlurs excused step step']
    [hnext : ∀ value, ReadBlurs excused (next value) (next' value)] :
    ReadBlurs excused (step >>= next) (step' >>= next') where
  run frame := by
    simp only [Bind.bind, StateT.bind, hstep.run]
    cases step frame with
    | ok result => exact (hnext result.1).run result.2
    | error failure => rfl
  excuses frame failure hfailed := by
    simp only [Bind.bind, StateT.bind] at hfailed
    cases hresult : step frame with
    | ok result =>
      rw [hresult] at hfailed
      exact (hnext result.1).excuses result.2 failure hfailed
    | error reason =>
      rw [hresult] at hfailed
      cases hfailed
      exact hstep.excuses frame _ hresult

theorem seq {step step' : StateT Frame Checked α} {next next' : α → StateT Frame Checked β}
    (hstep : ReadBlurs excused step step')
    (hnext : ∀ value, ReadBlurs excused (next value) (next' value)) :
    ReadBlurs excused (step >>= next) (step' >>= next') := bind step step' next next'

instance lift (step step' : Checked α) [hstep : CheckBlurs excused step step'] :
    ReadBlurs excused (liftM step : StateT Frame Checked α) (liftM step') where
  run frame := by
    obtain rfl := hstep.run
    cases step <;> rfl
  excuses frame failure hfailed := by
    cases step with
    | ok value => exact nomatch hfailed
    | error reason =>
      cases hfailed
      exact hstep.excuses _ rfl

instance getBind (next next' : Frame → StateT Frame Checked α)
    [hnext : ∀ frame, ReadBlurs excused (next frame) (next' (blurred frame))] :
    ReadBlurs excused (get >>= next) (get >>= next') where
  run frame := (hnext frame).run frame
  excuses frame := (hnext frame).excuses frame

instance reject (cause : Cause) [hbare : ExcusesBare excused] :
    ReadBlurs excused (ShapeFlow.reject cause : StateT Frame Checked α)
      (ShapeFlow.reject cause.blur) where
  run _ := rfl
  excuses _ _ hfailed := by
    cases hfailed
    exact hbare.bare _ trivial

instance update (id : AllocId) (change : Allocation → Allocation) :
    ReadBlurs excused (modify (Frame.update id change) : StateT Frame Checked PUnit)
      (modify (Frame.update id change)) where
  run _ := rfl
  excuses _ _ hfailed := nomatch hfailed

instance allocate (object : Allocation) :
    ReadBlurs excused (modifyGet (Frame.allocate object) : StateT Frame Checked AllocId)
      (modifyGet (Frame.allocate object)) where
  run _ := rfl
  excuses _ _ hfailed := nomatch hfailed

instance foldlM (step step' : β → ι → StateT Frame Checked β)
    [hstep : ∀ value item, ReadBlurs excused (step value item) (step' value item)]
    (items : List ι) (value : β) :
    ReadBlurs excused (items.foldlM step value) (items.foldlM step' value) := by
  induction items generalizing value with
  | nil => exact pure value
  | cons item rest ih =>
    rw [List.foldlM_cons, List.foldlM_cons]
    infer_instance

end ReadBlurs

namespace Blurs

instance pure (value : α) :
    Blurs excused (Pure.pure value : EStateM Failure τ α) (Pure.pure value) where
  run _ := rfl
  excuses _ _ _ hfailed := nomatch hfailed

instance bind (step step' : EStateM Failure τ α) (next next' : α → EStateM Failure τ β)
    [hstep : Blurs excused step step']
    [hnext : ∀ value, Blurs excused (next value) (next' value)] :
    Blurs excused (step >>= next) (step' >>= next') where
  run state := by
    simp only [Bind.bind, EStateM.bind, hstep.run]
    cases step state with
    | ok value later => exact (hnext value).run later
    | error failure later => rfl
  excuses state failure later hfailed := by
    simp only [Bind.bind, EStateM.bind] at hfailed
    cases hresult : step state with
    | ok value middle =>
      rw [hresult] at hfailed
      exact (hnext value).excuses middle failure later hfailed
    | error reason middle =>
      rw [hresult] at hfailed
      cases hfailed
      exact hstep.excuses state _ _ hresult

theorem seq {step step' : EStateM Failure τ α} {next next' : α → EStateM Failure τ β}
    (hstep : Blurs excused step step')
    (hnext : ∀ value, Blurs excused (next value) (next' value)) :
    Blurs excused (step >>= next) (step' >>= next') := bind step step' next next'

instance keep (step step' : Checked α) [hstep : CheckBlurs excused step step'] :
    Blurs excused (liftM step : EStateM Failure τ α) (liftM step') where
  run state := by
    obtain rfl := hstep.run
    cases step <;> rfl
  excuses state failure later hfailed := by
    cases step with
    | ok value => exact nomatch hfailed
    | error reason =>
      cases hfailed
      exact hstep.excuses _ rfl

/-- What is done with the state that is found is done with the blurred one as well. -/
instance getBind (next next' : τ → EStateM Failure τ α)
    [hnext : ∀ state, Blurs excused (next state) (next' (blurred state))] :
    Blurs excused (getThe τ >>= next) (getThe τ >>= next') where
  run state := (hnext state).run state
  excuses state := (hnext state).excuses state

end Blurs

namespace RunBlurs

instance pure (value : α) :
    RunBlurs excused (Pure.pure value : StateT σ (EStateM Failure τ) α) (Pure.pure value) where
  run _ _ := rfl
  excuses _ _ _ _ hfailed := nomatch hfailed

instance bind (step step' : StateT σ (EStateM Failure τ) α)
    (next next' : α → StateT σ (EStateM Failure τ) β) [hstep : RunBlurs excused step step']
    [hnext : ∀ value, RunBlurs excused (next value) (next' value)] :
    RunBlurs excused (step >>= next) (step' >>= next') where
  run frame state := by
    simp only [Bind.bind, StateT.bind, EStateM.bind, hstep.run]
    cases step frame state with
    | ok result later => exact (hnext result.1).run result.2 later
    | error failure later => rfl
  excuses frame state failure later hfailed := by
    simp only [Bind.bind, StateT.bind, EStateM.bind] at hfailed
    cases hresult : step frame state with
    | ok result middle =>
      rw [hresult] at hfailed
      exact (hnext result.1).excuses result.2 middle failure later hfailed
    | error reason middle =>
      rw [hresult] at hfailed
      cases hfailed
      exact hstep.excuses frame state _ _ hresult

theorem seq {step step' : StateT σ (EStateM Failure τ) α}
    {next next' : α → StateT σ (EStateM Failure τ) β} (hstep : RunBlurs excused step step')
    (hnext : ∀ value, RunBlurs excused (next value) (next' value)) :
    RunBlurs excused (step >>= next) (step' >>= next') := bind step step' next next'

instance lift (step step' : EStateM Failure τ α) [hstep : Blurs excused step step'] :
    RunBlurs excused (liftM step : StateT σ (EStateM Failure τ) α) (liftM step') where
  run frame state := by
    simp only [liftM, monadLift, MonadLift.monadLift, StateT.lift, Bind.bind, EStateM.bind,
      hstep.run]
    cases step state <;> rfl
  excuses frame state failure later hfailed := by
    simp only [liftM, monadLift, MonadLift.monadLift, StateT.lift, Bind.bind, EStateM.bind]
      at hfailed
    cases hresult : step state with
    | ok value middle =>
      rw [hresult] at hfailed
      exact nomatch hfailed
    | error reason middle =>
      rw [hresult] at hfailed
      cases hfailed
      exact hstep.excuses state _ _ hresult

instance keep (step step' : Checked α) [CheckBlurs excused step step'] :
    RunBlurs excused (liftM step : StateT σ (EStateM Failure τ) α) (liftM step') :=
  inferInstanceAs (RunBlurs excused
    (liftM (liftM step : EStateM Failure τ α) : StateT σ (EStateM Failure τ) α)
    (liftM (liftM step' : EStateM Failure τ α)))

/-- What is done with an answer that may hold places is done with the answer without them as
well. -/
theorem answerBind {step step' : Checked α} {next next' : α → StateT σ (EStateM Failure τ) β}
    (value : α → α) (hrun : step' = (step.map value).mapError Failure.blur)
    (hexcuses : ∀ failure, step = .error failure → excused failure)
    (hnext : ∀ answer, RunBlurs excused (next answer) (next' (value answer))) :
    RunBlurs excused (liftM step >>= next) (liftM step' >>= next') where
  run frame state := by
    rw [hrun]
    cases step with
    | ok answer => exact (hnext answer).run frame state
    | error failure => rfl
  excuses frame state failure later hfailed := by
    cases step with
    | ok answer => exact (hnext answer).excuses frame state failure later hfailed
    | error reason =>
      cases hfailed
      exact hexcuses _ rfl

/-- What is done with the frame that is found is done with the blurred one as well. -/
instance getBind (next next' : σ → StateT σ (EStateM Failure τ) α)
    [hnext : ∀ frame, RunBlurs excused (next frame) (next' (blurred frame))] :
    RunBlurs excused (getThe σ >>= next) (getThe σ >>= next') where
  run frame := (hnext frame).run frame
  excuses frame := (hnext frame).excuses frame

instance getBaseBind (next next' : τ → StateT σ (EStateM Failure τ) α)
    [hnext : ∀ state, RunBlurs excused (next state) (next' (blurred state))] :
    RunBlurs excused (getThe τ >>= next) (getThe τ >>= next') where
  run frame state := (hnext state).run frame state
  excuses frame state := (hnext state).excuses frame state

theorem modify {change change' : σ → σ}
    (hchange : ∀ frame, change' (blurred frame) = blurred (change frame)) :
    RunBlurs excused (modifyThe σ change : StateT σ (EStateM Failure τ) PUnit)
      (modifyThe σ change') where
  run frame state := by
    show EStateM.Result.ok (PUnit.unit, change' (blurred frame)) (blurred state) =
      .ok (PUnit.unit, blurred (change frame)) (blurred state)
    rw [hchange]
  excuses _ _ _ _ hfailed := nomatch hfailed

theorem modifyGet {change change' : σ → α × σ}
    (hchange : ∀ frame, change' (blurred frame) = ((change frame).1, blurred (change frame).2)) :
    RunBlurs excused (modifyGetThe σ change : StateT σ (EStateM Failure τ) α)
      (modifyGetThe σ change') where
  run frame state := by
    show EStateM.Result.ok (change' (blurred frame)) (blurred state) =
      .ok ((change frame).1, blurred (change frame).2) (blurred state)
    rw [hchange]
  excuses _ _ _ _ hfailed := nomatch hfailed

instance setFrame (frame : σ) :
    RunBlurs excused (MonadStateOf.set frame : StateT σ (EStateM Failure τ) PUnit)
      (MonadStateOf.set (blurred frame)) where
  run _ _ := rfl
  excuses _ _ _ _ hfailed := nomatch hfailed

instance reject (cause : Cause) [hbare : ExcusesBare excused] :
    RunBlurs excused (ShapeFlow.reject cause : StateT σ (EStateM Failure τ) α)
      (ShapeFlow.reject cause.blur) where
  run _ _ := rfl
  excuses _ _ _ _ hfailed := by
    cases hfailed
    exact hbare.bare _ trivial

instance broken (reference : Reference) [hbare : ExcusesBare excused] :
    RunBlurs excused (ShapeFlow.broken reference : StateT σ (EStateM Failure τ) α)
      (ShapeFlow.broken reference) where
  run _ _ := rfl
  excuses _ _ _ _ hfailed := by
    cases hfailed
    exact hbare.bare _ trivial

instance mapM (step step' : ι → StateT σ (EStateM Failure τ) α)
    [hstep : ∀ item, RunBlurs excused (step item) (step' item)] (items : List ι) :
    RunBlurs excused (items.mapM step) (items.mapM step') := by
  induction items with
  | nil => exact pure []
  | cons item rest ih =>
    rw [List.mapM_cons, List.mapM_cons]
    infer_instance

instance forM (step step' : ι → StateT σ (EStateM Failure τ) PUnit)
    [hstep : ∀ item, RunBlurs excused (step item) (step' item)] (items : List ι) :
    RunBlurs excused (items.forM step) (items.forM step') := by
  induction items with
  | nil => exact pure PUnit.unit
  | cons item rest ih =>
    exact inferInstanceAs (RunBlurs excused (step item >>= fun _ => rest.forM step)
      (step' item >>= fun _ => rest.forM step'))

end RunBlurs

/-- The visit gives up what it carries. -/
theorem Blurs.run' (step step' : StateT σ (EStateM Failure τ) α)
    [hstep : RunBlurs excused step step'] (frame : σ) :
    Blurs excused (step.run' frame) (step'.run' (blurred frame)) where
  run state := by
    simp only [StateT.run', Functor.map, EStateM.map, hstep.run]
    cases step frame state <;> rfl
  excuses state failure later hfailed := by
    simp only [StateT.run', Functor.map, EStateM.map] at hfailed
    cases hresult : step frame state with
    | ok result middle =>
      rw [hresult] at hfailed
      cases hfailed
    | error reason middle =>
      rw [hresult] at hfailed
      cases hfailed
      exact hstep.excuses frame state _ _ hresult

end Steps

/-! ## States without places -/

section States

variable {σ α : Type} [Blurry σ] {excused : Failure → Prop}

namespace RunBlurs

instance getGraphBind (next next' : TypeGraph → StateT σ Building α)
    [hnext : ∀ graph, RunBlurs excused (next graph) (next' graph)] :
    RunBlurs excused (getThe TypeGraph >>= next) (getThe TypeGraph >>= next') :=
  getBaseBind next next'

instance getReifiedBind (next next' : Frame.Reified → StateT Frame.Reified Building α)
    [hnext : ∀ reified, RunBlurs excused (next reified) (next' reified)] :
    RunBlurs excused (getThe Frame.Reified >>= next) (getThe Frame.Reified >>= next') :=
  getBind next next'

instance modifyReified (change : Frame.Reified → Frame.Reified) :
    RunBlurs excused (modifyThe Frame.Reified change : StateT Frame.Reified Building PUnit)
      (modifyThe Frame.Reified change) := modify fun _ => rfl

instance modifyGraph (change : TypeGraph → TypeGraph) :
    RunBlurs excused (modifyThe TypeGraph change : StateT σ Building PUnit)
      (modifyThe TypeGraph change) where
  run _ _ := rfl
  excuses _ _ _ _ hfailed := nomatch hfailed

instance modifyGetGraph (change : TypeGraph → α × TypeGraph) :
    RunBlurs excused (modifyGetThe TypeGraph change : StateT σ Building α)
      (modifyGetThe TypeGraph change) where
  run _ _ := rfl
  excuses _ _ _ _ hfailed := nomatch hfailed

instance setGraph (graph : TypeGraph) :
    RunBlurs excused (MonadStateOf.set graph : Framed PUnit) (MonadStateOf.set graph) where
  run _ _ := rfl
  excuses _ _ _ _ hfailed := nomatch hfailed

end RunBlurs

instance (next next' : TypeGraph → Building α)
    [hnext : ∀ graph, Blurs excused (next graph) (next' graph)] :
    Blurs excused (getThe TypeGraph >>= next) (getThe TypeGraph >>= next') :=
  Blurs.getBind next next'

end States

/-! ## Walks -/

/-- The walk without the places of the calls in its frame. -/
def Placement.blur (walk : Placement) : Placement := { walk with frame := walk.frame.blur }

section Walks

variable (excused : Failure → Prop)

/-- From a blurred walk the second step leads to the blurred walk behind the first one. -/
structure WalkBlurs (step step' : Placement → Checked Placement) : Prop where
  run : ∀ walk, step' walk.blur = ((step walk).map Placement.blur).mapError Failure.blur
  excuses : ∀ walk failure, step walk = .error failure → excused failure

variable {excused}

namespace WalkBlurs

variable {step step' next next' : Placement → Checked Placement}

theorem pure {change change' : Placement → Placement}
    (hchange : ∀ walk, change' walk.blur = (change walk).blur) :
    WalkBlurs excused (fun walk => Pure.pure (change walk))
      fun walk => Pure.pure (change' walk) where
  run walk := by
    rw [hchange]
    rfl
  excuses _ _ hfailed := nomatch hfailed

theorem bind (hstep : WalkBlurs excused step step') (hnext : WalkBlurs excused next next') :
    WalkBlurs excused (fun walk => step walk >>= next) fun walk => step' walk >>= next' where
  run walk := by
    rw [hstep.run]
    cases step walk with
    | ok later => exact hnext.run later
    | error failure => rfl
  excuses walk failure hfailed := by
    cases hresult : step walk with
    | ok later =>
      rw [hresult] at hfailed
      exact hnext.excuses later failure hfailed
    | error reason =>
      rw [hresult] at hfailed
      cases hfailed
      exact hstep.excuses walk _ hresult

theorem ite {condition : Placement → Bool}
    (hcondition : ∀ walk, condition walk.blur = condition walk)
    (hstep : WalkBlurs excused step step') (hnext : WalkBlurs excused next next') :
    WalkBlurs excused (fun walk => if condition walk then step walk else next walk)
      fun walk => if condition walk then step' walk else next' walk where
  run walk := by
    rw [hcondition]
    split
    · exact hstep.run walk
    · exact hnext.run walk
  excuses walk failure hfailed := by
    split at hfailed
    · exact hstep.excuses walk failure hfailed
    · exact hnext.excuses walk failure hfailed

theorem broken [hbare : ExcusesBare excused] (reference : Reference) :
    WalkBlurs excused (fun _ => ShapeFlow.broken reference)
      fun _ => ShapeFlow.broken reference where
  run _ := rfl
  excuses _ _ hfailed := by
    cases hfailed
    exact hbare.bare _ trivial

/-- A question about the walk is answered alike, and the walk goes on from the answer. -/
theorem ask {α : Type} {question question' : Placement → Checked α}
    {next next' : α → Placement → Checked Placement}
    (hquestion : ∀ walk, CheckBlurs excused (question walk) (question' walk.blur))
    (hnext : ∀ answer, WalkBlurs excused (next answer) (next' answer)) :
    WalkBlurs excused (fun walk => question walk >>= fun answer => next answer walk)
      fun walk => question' walk >>= fun answer => next' answer walk where
  run walk := by
    rw [(hquestion walk).run]
    cases question walk with
    | ok answer => exact (hnext answer).run walk
    | error failure => rfl
  excuses walk failure hfailed := by
    cases hresult : question walk with
    | ok answer =>
      rw [hresult] at hfailed
      exact (hnext answer).excuses walk failure hfailed
    | error reason =>
      rw [hresult] at hfailed
      cases hfailed
      exact (hquestion walk).excuses _ hresult

theorem foldlM {ι : Type} {step step' : Placement → ι → Checked Placement}
    (hstep : ∀ item, WalkBlurs excused (fun walk => step walk item) fun walk => step' walk item)
    (items : List ι) :
    WalkBlurs excused (items.foldlM step ·) (items.foldlM step' ·) := by
  induction items with
  | nil => exact pure fun _ => rfl
  | cons item rest ih =>
    simp only [List.foldlM_cons]
    exact (hstep item).bind ih

end WalkBlurs

end Walks

/-! ## Steps on types and frames -/

section Framed

variable {α : Type} {excused : Failure → Prop}

instance (question question' : TypeGraph → Frame → Checked α)
    [hquestion : ∀ graph frame, CheckBlurs excused (question graph frame)
      (question' graph (blurred frame))] :
    RunBlurs excused (inspect question) (inspect question') where
  run frame graph := by
    have hrun := (hquestion graph frame).run
    simp only [inspect]
    rw [show blurred graph = graph from rfl, hrun]
    cases question graph frame <;> rfl
  excuses frame graph failure later hfailed := by
    unfold inspect at hfailed
    split at hfailed
    · exact nomatch hfailed
    · rename_i reason hreason
      cases hfailed
      exact (hquestion graph frame).excuses _ hreason

instance (step step' : TypeGraph → StateT Frame Checked α)
    [hstep : ∀ graph, ReadBlurs excused (step graph) (step' graph)] :
    RunBlurs excused (reading step) (reading step') where
  run frame graph := by
    have hrun := (hstep graph).run frame
    simp only [reading]
    rw [show blurred graph = graph from rfl, hrun]
    cases step graph frame <;> rfl
  excuses frame graph failure later hfailed := by
    unfold reading at hfailed
    split at hfailed
    · exact nomatch hfailed
    · rename_i reason hreason
      cases hfailed
      exact (hstep graph).excuses frame _ hreason

end Framed

end ShapeFlow
