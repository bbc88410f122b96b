import ShapeFlow.Proofs.Drift
import ShapeFlow.Proofs.Reification
import ShapeFlow.Proofs.Twins

/-!
# Comparing two runs

The right one of two runs *follows* the left one if it succeeds whenever the left one does, and
the answers correspond.  What the left run can rely on at the end, but not earlier, is not known
while the runs are compared step by step: that the universes behind the two runs are clear of
certain differences.  Universes only grow, so they were clear of them at every earlier point.
For the same reason the rules ask of the steps that come later that they drift.

A `Comparison` says of which differences the universes have to be clear, and with which failures
the right run may end instead.
-/

namespace ShapeFlow

variable {σ τ α β γ δ : Type}

/-- What two runs are taken to observe when the right one is to follow the left one. -/
structure Comparison (τ : Type) [Growing τ] where
  /-- The states are clear of the differences that are ruled out. -/
  Clear : τ → τ → Prop
  /-- The right run may fail in this way. -/
  Excused : Failure → Prop
  earlier : ∀ {left right left' right'}, Growing.Grows left left' → Growing.Grows right right' →
    Clear left' right' → Clear left right

/-- A step that only reads succeeds if the other one does, with a corresponding answer. -/
def Checked.Follows (left : Checked α) (right : Checked β) (post : α → β → Prop) : Prop :=
  ∀ value, left = .ok value → ∃ other, right = .ok other ∧ post value other

namespace Checked.Follows

variable {post : α → β → Prop} {post' : γ → δ → Prop}

theorem ok {value : α} {other : β} (hpost : post value other) :
    Checked.Follows (.ok value) (.ok other) post := by
  intro answer hanswer
  obtain rfl := Except.ok.inj hanswer
  exact ⟨other, rfl, hpost⟩

theorem error {failure : Failure} {right : Checked β} :
    Checked.Follows (.error failure) right post := fun _ hanswer => nomatch hanswer

theorem bind {left : Checked α} {right : Checked β} {leftNext : α → Checked γ}
    {rightNext : β → Checked δ} (hstep : Checked.Follows left right post)
    (hnext : ∀ value other, post value other →
      Checked.Follows (leftNext value) (rightNext other) post') :
    Checked.Follows (left >>= leftNext) (right >>= rightNext) post' := by
  intro answer hanswer
  cases left with
  | error failure => exact nomatch hanswer
  | ok value =>
    obtain ⟨other, hother, hpost⟩ := hstep value rfl
    rw [hother]
    exact hnext value other hpost answer hanswer

theorem found {reference : Reference} {reference' : Reference} {first : Option α}
    {second : Option β} (hrel : Option.Rel post first second) :
    Checked.Follows (ShapeFlow.found reference first) (ShapeFlow.found reference' second) post := by
  cases hrel with
  | some hpost => exact .ok hpost
  | none => exact .error

theorem mono {left : Checked α} {right : Checked β} {weaker : α → β → Prop}
    (hstep : Checked.Follows left right post)
    (hpost : ∀ value other, post value other → weaker value other) :
    Checked.Follows left right weaker := by
  intro value hvalue
  obtain ⟨other, hother, hrelated⟩ := hstep value hvalue
  exact ⟨other, hother, hpost value other hrelated⟩

theorem foldlM {ι κ : Type} {leftBody : α → ι → Checked α} {rightBody : β → κ → Checked β}
    {items : ι → κ → Prop} {lefts : List ι} {rights : List κ}
    (hitems : List.Forall₂ items lefts rights)
    (hbody : ∀ item item' value other, items item item' → post value other →
      Checked.Follows (leftBody value item) (rightBody other item') post)
    {value : α} {other : β} (hstart : post value other) :
    Checked.Follows (lefts.foldlM leftBody value) (rights.foldlM rightBody other) post := by
  induction hitems generalizing value other with
  | nil => exact .ok hstart
  | cons hitem _ ih =>
    rw [List.foldlM_cons, List.foldlM_cons]
    exact (hbody _ _ _ _ hitem hstart).bind fun _ _ hpost => ih hpost

/-- Sequencing of steps that read and carry a state. -/
theorem run_bind {first second : σ} {leftStep : StateT σ Checked α} {rightStep : StateT σ Checked β}
    {leftNext : α → StateT σ Checked γ} {rightNext : β → StateT σ Checked δ}
    {post : α × σ → β × σ → Prop} {post' : γ × σ → δ × σ → Prop}
    (hstep : Checked.Follows (leftStep first) (rightStep second) post)
    (hnext : ∀ value other first' second', post (value, first') (other, second') →
      Checked.Follows (leftNext value first') (rightNext other second') post') :
    Checked.Follows ((leftStep >>= leftNext) first) ((rightStep >>= rightNext) second) post' :=
  Checked.Follows.bind hstep fun value other hpost => hnext value.1 other.1 value.2 other.2 hpost

theorem get_bind {first second : σ} {leftNext : σ → StateT σ Checked γ}
    {rightNext : σ → StateT σ Checked δ} {post' : γ × σ → δ × σ → Prop}
    (hnext : Checked.Follows (leftNext first first) (rightNext second second) post') :
    Checked.Follows ((get >>= leftNext) first) ((get >>= rightNext) second) post' := hnext

/-- A step that only reads, before steps that carry a state. -/
theorem lift_bind {first second : σ} {leftStep : Checked α} {rightStep : Checked β}
    {leftNext : α → StateT σ Checked γ} {rightNext : β → StateT σ Checked δ}
    {post' : γ × σ → δ × σ → Prop} (hstep : Checked.Follows leftStep rightStep post)
    (hnext : ∀ value other, post value other →
      Checked.Follows (leftNext value first) (rightNext other second) post') :
    Checked.Follows (((liftM leftStep : StateT σ Checked α) >>= leftNext) first)
      (((liftM rightStep : StateT σ Checked β) >>= rightNext) second) post' := by
  intro answer hanswer
  cases leftStep with
  | error failure => exact nomatch hanswer
  | ok value =>
    obtain ⟨other, hother, hpost⟩ := hstep value rfl
    rw [hother]
    exact hnext value other hpost answer hanswer

/-- A step that only reads, where nothing follows. -/
theorem lift {first second : σ} {leftStep : Checked α} {rightStep : Checked β}
    {post' : α × σ → β × σ → Prop} (hstep : Checked.Follows leftStep rightStep post)
    (hpost : ∀ value other, post value other → post' (value, first) (other, second)) :
    Checked.Follows ((liftM leftStep : StateT σ Checked α) first)
      ((liftM rightStep : StateT σ Checked β) second) post' :=
  Checked.Follows.bind hstep fun value other hvalue => .ok (hpost value other hvalue)

end Checked.Follows

/-- The right outcome follows the left one, if the states behind them are clear. -/
def Comparison.Follows [Growing τ] (comparison : Comparison τ)
    (left : EStateM.Result Failure τ α) (right : EStateM.Result Failure τ β)
    (post : α → β → τ → τ → Prop) : Prop :=
  ∀ value later, left = .ok value later → comparison.Clear later (endOf right) →
    match right with
    | .ok other last => post value other later last
    | .error failure _ => comparison.Excused failure

namespace Comparison.Follows

variable [Growing τ] {comparison : Comparison τ} {left right : τ}
  {post : α → β → τ → τ → Prop} {post' : γ → δ → τ → τ → Prop}

theorem ok {value : α} {other : β} (hpost : post value other left right) :
    comparison.Follows (.ok value left) (.ok other right) post := by
  intro answer later hanswer _
  cases hanswer
  exact hpost

theorem error {failure : Failure} {outcome : EStateM.Result Failure τ β} :
    comparison.Follows (.error failure left) outcome post := fun _ _ hanswer => nomatch hanswer

/-- While the runs are compared, the states may be taken to be clear. -/
theorem clearly {leftStep : EStateM Failure τ α} {rightStep : EStateM Failure τ β}
    [hleft : Drifts leftStep] [hright : Drifts rightStep]
    (hstep : comparison.Clear left right →
      comparison.Follows (leftStep left) (rightStep right) post) :
    comparison.Follows (leftStep left) (rightStep right) post := by
  intro value later hvalue hclear
  have hgrows := hleft.grows left
  rw [hvalue] at hgrows
  exact hstep (comparison.earlier hgrows (hright.grows right) hclear) value later hvalue hclear

theorem bind {leftStep : EStateM Failure τ α} {rightStep : EStateM Failure τ β}
    {leftNext : α → EStateM Failure τ γ} {rightNext : β → EStateM Failure τ δ}
    [hleft : Drifts leftStep] [hright : Drifts rightStep]
    (hstep : comparison.Follows (leftStep left) (rightStep right) post)
    (hnext : ∀ value other left' right', Growing.Grows left left' → Growing.Grows right right' →
      post value other left' right' →
        comparison.Follows (leftNext value left') (rightNext other right') post')
    (hleftNext : ∀ value, Drifts (leftNext value))
    (hrightNext : ∀ value, Drifts (rightNext value)) :
    comparison.Follows ((leftStep >>= leftNext) left) ((rightStep >>= rightNext) right) post' := by
  have hgrowsLeft := hleft.grows left
  have hgrowsRight := hright.grows right
  intro answer last hanswer hclear
  simp only [Bind.bind, EStateM.bind] at hanswer hclear ⊢
  cases hfirst : leftStep left with
  | error failure later =>
    rw [hfirst] at hanswer
    cases hanswer
  | ok value later =>
    rw [hfirst] at hanswer hgrowsLeft
    have hrest : leftNext value later = .ok answer last := hanswer
    have hlater := (hleftNext value).grows later
    rw [hrest] at hlater
    -- The second run is compared only where it is clear at the end, hence clear in between.
    have hpost := hstep value later hfirst
    cases hsecond : rightStep right with
    | error failure other =>
      rw [hsecond] at hpost hclear
      exact hpost (comparison.earlier hlater (Growing.refl _) hclear)
    | ok other later' =>
      rw [hsecond] at hgrowsRight hpost hclear
      have hclear' := comparison.earlier hlater ((hrightNext other).grows later') hclear
      exact hnext value other later later' hgrowsLeft hgrowsRight (hpost hclear') answer last hrest
        hclear

/-- A step that only reads, before steps that carry a state. -/
theorem keep_bind {leftStep : Checked α} {rightStep : Checked β}
    {leftNext : α → EStateM Failure τ γ} {rightNext : β → EStateM Failure τ δ}
    {related : α → β → Prop} (hstep : Checked.Follows leftStep rightStep related)
    (hnext : ∀ value other, related value other →
      comparison.Follows (leftNext value left) (rightNext other right) post') :
    comparison.Follows (((liftM leftStep : EStateM Failure τ α) >>= leftNext) left)
      (((liftM rightStep : EStateM Failure τ β) >>= rightNext) right) post' := by
  cases leftStep with
  | error failure => exact .error
  | ok value =>
    obtain ⟨other, hother, hrelated⟩ := hstep value rfl
    rw [hother]
    exact hnext value other hrelated

/-- A step that only reads, where nothing follows. -/
theorem keep {leftStep : Checked α} {rightStep : Checked β}
    (hstep : Checked.Follows leftStep rightStep fun value other => post value other left right) :
    comparison.Follows ((liftM leftStep : EStateM Failure τ α) left)
      ((liftM rightStep : EStateM Failure τ β) right) post := by
  cases leftStep with
  | error failure => exact .error
  | ok value =>
    obtain ⟨other, hother, hpost⟩ := hstep value rfl
    rw [hother]
    exact .ok hpost

/-! ### Steps that carry a second state -/

variable {first second : σ}

theorem run_bind {leftStep : StateT σ (EStateM Failure τ) α}
    {rightStep : StateT σ (EStateM Failure τ) β}
    {leftNext : α → StateT σ (EStateM Failure τ) γ} {rightNext : β → StateT σ (EStateM Failure τ) δ}
    {post : α × σ → β × σ → τ → τ → Prop} {post' : γ × σ → δ × σ → τ → τ → Prop}
    [hleft : RunDrifts leftStep] [hright : RunDrifts rightStep]
    (hstep : comparison.Follows (leftStep first left) (rightStep second right) post)
    (hnext : ∀ value other left' right', Growing.Grows left left' → Growing.Grows right right' →
      post value other left' right' → comparison.Follows (leftNext value.1 value.2 left')
        (rightNext other.1 other.2 right') post')
    (hleftNext : ∀ value, RunDrifts (leftNext value))
    (hrightNext : ∀ value, RunDrifts (rightNext value)) :
    comparison.Follows ((leftStep >>= leftNext) first left) ((rightStep >>= rightNext) second right)
      post' :=
  have := hleft.run first
  have := hright.run second
  Comparison.Follows.bind hstep hnext (fun value => (hleftNext value.1).run value.2)
    fun value => (hrightNext value.1).run value.2

/-- A step without the second state, before steps that carry it. -/
theorem lift_bind {leftStep : EStateM Failure τ α} {rightStep : EStateM Failure τ β}
    {leftNext : α → StateT σ (EStateM Failure τ) γ} {rightNext : β → StateT σ (EStateM Failure τ) δ}
    {post' : γ × σ → δ × σ → τ → τ → Prop} [hleft : Drifts leftStep] [hright : Drifts rightStep]
    (hstep : comparison.Follows (leftStep left) (rightStep right) post)
    (hnext : ∀ value other left' right', Growing.Grows left left' → Growing.Grows right right' →
      post value other left' right' → comparison.Follows (leftNext value first left')
        (rightNext other second right') post')
    (hleftNext : ∀ value, RunDrifts (leftNext value))
    (hrightNext : ∀ value, RunDrifts (rightNext value)) :
    comparison.Follows (((liftM leftStep : StateT σ (EStateM Failure τ) α) >>= leftNext) first left)
      (((liftM rightStep : StateT σ (EStateM Failure τ) β) >>= rightNext) second right) post' := by
  have hunfold : ∀ {ε ζ : Type} (step : EStateM Failure τ ε)
      (next : ε → StateT σ (EStateM Failure τ) ζ) (frame : σ) (state : τ),
      ((liftM step : StateT σ (EStateM Failure τ) ε) >>= next) frame state =
        (step >>= fun value => next value frame) state := by
    intro ε ζ step next frame state
    simp only [liftM, monadLift, MonadLift.monadLift, StateT.lift, Bind.bind, StateT.bind,
      EStateM.bind]
    cases step state <;> rfl
  rw [hunfold, hunfold]
  exact Comparison.Follows.bind hstep hnext (fun value => (hleftNext value).run first)
    fun value => (hrightNext value).run second

end Comparison.Follows

/-! ## Steps on types and frames -/

/-- The universes list the parts of types with the same unfolding in the same order. -/
def TypeGraph.SameOrder (left right : TypeGraph) : Prop :=
  ∀ type other, TypeGraph.SameUnfolding left type right other →
    (left.fields type).keys = (right.fields other).keys

theorem TypeGraph.SameOrder.earlier {left right left' right' : TypeGraph}
    (horder : left'.SameOrder right') (hleft : left.Grows left') (hright : right.Grows right') :
    left.SameOrder right := by
  intro type other hsame
  have hlater := horder type other (hsame.mono hleft hright)
  rwa [TypeGraph.fields, TypeGraph.fields, hleft.node?_eq type hsame.has_left,
    hright.node?_eq other hsame.has_right] at hlater

/-- Steps on types and frames follow each other in universes of one order. -/
def ordering : Comparison TypeGraph where
  Clear := TypeGraph.SameOrder
  Excused _ := False
  earlier hleft hright horder := horder.earlier hleft hright

/-- The right outcome follows the left one, and the frames behind them are twins. -/
abbrev Frame.Follows (left : EStateM.Result Failure TypeGraph (α × Frame))
    (right : EStateM.Result Failure TypeGraph (β × Frame))
    (post : α → β → TypeGraph → TypeGraph → Prop) : Prop :=
  ordering.Follows left right fun first second later last =>
    first.2.Twin later last second.2 ∧ post first.1 second.1 later last

namespace Frame.Follows

variable {left right : TypeGraph} {first second : Frame}
  {post : α → β → TypeGraph → TypeGraph → Prop} {post' : γ → δ → TypeGraph → TypeGraph → Prop}

theorem pure {value : α} {other : β} (htwin : first.Twin left right second)
    (hpost : post value other left right) :
    Frame.Follows ((Pure.pure value : Framed α) first left)
      ((Pure.pure other : Framed β) second right) post :=
  Comparison.Follows.ok ⟨htwin, hpost⟩

theorem bind {leftStep : Framed α} {rightStep : Framed β} {leftNext : α → Framed γ}
    {rightNext : β → Framed δ} [RunDrifts leftStep] [RunDrifts rightStep]
    (hstep : Frame.Follows (leftStep first left) (rightStep second right) post)
    (hnext : ∀ value other first' second' left' right', left.GrowBoth right left' right' →
      first'.Twin left' right' second' → post value other left' right' →
        Frame.Follows (leftNext value first' left') (rightNext other second' right') post')
    (hleft : ∀ value, RunDrifts (leftNext value) := by
      intros; repeat' first | infer_instance | split | refine RunDrifts.seq ?_ fun _ => ?_)
    (hright : ∀ value, RunDrifts (rightNext value) := by
      intros; repeat' first | infer_instance | split | refine RunDrifts.seq ?_ fun _ => ?_) :
    Frame.Follows ((leftStep >>= leftNext) first left) ((rightStep >>= rightNext) second right)
      post' :=
  Comparison.Follows.run_bind hstep (fun value other left' right' hgrowsLeft hgrowsRight hpost =>
    hnext value.1 other.1 value.2 other.2 left' right' ⟨hgrowsLeft, hgrowsRight⟩ hpost.1 hpost.2)
    hleft hright

/-- A question about types and frames, before steps that may change them. -/
theorem inspect_bind {leftQuestion : TypeGraph → Frame → Checked α}
    {rightQuestion : TypeGraph → Frame → Checked β} {leftNext : α → Framed γ}
    {rightNext : β → Framed δ} {related : α → β → Prop}
    (hquestion : Checked.Follows (leftQuestion left first) (rightQuestion right second) related)
    (hnext : ∀ value other, related value other →
      Frame.Follows (leftNext value first left) (rightNext other second right) post') :
    Frame.Follows ((inspect leftQuestion >>= leftNext) first left)
      ((inspect rightQuestion >>= rightNext) second right) post' := by
  simp only [Bind.bind, StateT.bind, EStateM.bind, inspect]
  cases hleft : leftQuestion left first with
  | error failure => exact .error
  | ok value =>
    obtain ⟨other, hright, hrelated⟩ := hquestion value hleft
    rw [hright]
    exact hnext value other hrelated

theorem inspect {leftQuestion : TypeGraph → Frame → Checked α}
    {rightQuestion : TypeGraph → Frame → Checked β} (htwin : first.Twin left right second)
    (hquestion : Checked.Follows (leftQuestion left first) (rightQuestion right second)
      fun value other => post value other left right) :
    Frame.Follows (ShapeFlow.inspect leftQuestion first left)
      (ShapeFlow.inspect rightQuestion second right) post := by
  unfold ShapeFlow.inspect
  cases hleft : leftQuestion left first with
  | error failure => exact .error
  | ok value =>
    obtain ⟨other, hright, hpost⟩ := hquestion value hleft
    rw [hright]
    exact .ok ⟨htwin, hpost⟩

/-- Steps that read the types and change the frames. -/
theorem reading {leftStep : TypeGraph → StateT Frame Checked α}
    {rightStep : TypeGraph → StateT Frame Checked β}
    (hstep : left.SameOrder right → Checked.Follows (leftStep left first) (rightStep right second)
      fun value other => value.2.Twin left right other.2 ∧ post value.1 other.1 left right) :
    Frame.Follows (ShapeFlow.reading leftStep first left)
      (ShapeFlow.reading rightStep second right) post := by
  have hleft : Drifts (ShapeFlow.reading leftStep first) := RunDrifts.run first
  have hright : Drifts (ShapeFlow.reading rightStep second) := RunDrifts.run second
  refine Comparison.Follows.clearly fun horder => ?_
  have hfollows := hstep horder
  unfold ShapeFlow.reading
  cases hresult : leftStep left first with
  | error failure => exact .error
  | ok value =>
    obtain ⟨other, hother, hpost⟩ := hfollows value hresult
    rw [hother]
    exact .ok hpost

/-- A step without the frame, before steps that carry it. -/
theorem lift_bind {leftStep : Building α} {rightStep : Building β} {leftNext : α → Framed γ}
    {rightNext : β → Framed δ} [Drifts leftStep] [Drifts rightStep]
    (hstep : ordering.Follows (leftStep left) (rightStep right) fun value other later last =>
      first.Twin later last second ∧ post value other later last)
    (hnext : ∀ value other left' right', left.GrowBoth right left' right' →
      first.Twin left' right' second → post value other left' right' →
        Frame.Follows (leftNext value first left') (rightNext other second right') post')
    (hleft : ∀ value, RunDrifts (leftNext value) := by
      intros; repeat' first | infer_instance | split | refine RunDrifts.seq ?_ fun _ => ?_)
    (hright : ∀ value, RunDrifts (rightNext value) := by
      intros; repeat' first | infer_instance | split | refine RunDrifts.seq ?_ fun _ => ?_) :
    Frame.Follows (((liftM leftStep : Framed α) >>= leftNext) first left)
      (((liftM rightStep : Framed β) >>= rightNext) second right) post' :=
  Comparison.Follows.lift_bind hstep (fun value other left' right' hgrowsLeft hgrowsRight hpost =>
    hnext value other left' right' ⟨hgrowsLeft, hgrowsRight⟩ hpost.1 hpost.2) hleft hright

/-- A step without the frame, where nothing follows. -/
theorem lift {leftStep : Building α} {rightStep : Building β} [Drifts leftStep] [Drifts rightStep]
    (hstep : ordering.Follows (leftStep left) (rightStep right) fun value other later last =>
      first.Twin later last second ∧ post value other later last) :
    Frame.Follows ((liftM leftStep : Framed α) first left)
      ((liftM rightStep : Framed β) second right) post :=
  Comparison.Follows.bind hstep (fun _ _ _ _ _ _ hpost => .ok hpost) (fun _ => inferInstance)
    fun _ => inferInstance

/-- A step that only reads, before steps that carry the frame. -/
theorem checked_bind {leftStep : Checked α} {rightStep : Checked β} {leftNext : α → Framed γ}
    {rightNext : β → Framed δ} {related : α → β → Prop}
    (hstep : Checked.Follows leftStep rightStep related)
    (hnext : ∀ value other, related value other →
      Frame.Follows (leftNext value first left) (rightNext other second right) post') :
    Frame.Follows (((liftM leftStep : Framed α) >>= leftNext) first left)
      (((liftM rightStep : Framed β) >>= rightNext) second right) post' := by
  cases leftStep with
  | error failure => exact .error
  | ok value =>
    obtain ⟨other, hother, hrelated⟩ := hstep value rfl
    rw [hother]
    exact hnext value other hrelated

section Primitive

theorem get_bind {leftNext : Frame → Framed γ} {rightNext : Frame → Framed δ}
    (hnext : Frame.Follows (leftNext first first left) (rightNext second second right) post') :
    Frame.Follows ((getThe Frame >>= leftNext) first left)
      ((getThe Frame >>= rightNext) second right) post' := hnext

theorem getGraph_bind {leftNext : TypeGraph → Framed γ} {rightNext : TypeGraph → Framed δ}
    (hnext : Frame.Follows (leftNext left first left) (rightNext right second right) post') :
    Frame.Follows (((getThe TypeGraph : Framed TypeGraph) >>= leftNext) first left)
      (((getThe TypeGraph : Framed TypeGraph) >>= rightNext) second right) post' := hnext

theorem modify_bind {leftChange rightChange : Frame → Frame} {leftNext : PUnit → Framed γ}
    {rightNext : PUnit → Framed δ}
    (hnext : Frame.Follows (leftNext ⟨⟩ (leftChange first) left)
      (rightNext ⟨⟩ (rightChange second) right) post') :
    Frame.Follows ((modifyThe Frame leftChange >>= leftNext) first left)
      ((modifyThe Frame rightChange >>= rightNext) second right) post' := hnext

end Primitive

/-- While the runs are compared, the universes may be taken to have one order. -/
theorem clearly {leftStep : Framed α} {rightStep : Framed β} [hleft : RunDrifts leftStep]
    [hright : RunDrifts rightStep]
    (hstep : left.SameOrder right →
      Frame.Follows (leftStep first left) (rightStep second right) post) :
    Frame.Follows (leftStep first left) (rightStep second right) post :=
  have := hleft.run first
  have := hright.run second
  Comparison.Follows.clearly hstep

section Lists

variable {ι κ : Type} {lefts : List ι} {rights : List κ}
  (items : ι → κ → TypeGraph → TypeGraph → Prop)

/-- What corresponding items of two lists yield. -/
theorem mapM {leftBody : ι → Framed α} {rightBody : κ → Framed β}
    [∀ item, RunDrifts (leftBody item)] [∀ item, RunDrifts (rightBody item)]
    (yields : α → β → TypeGraph → TypeGraph → Prop) (htwin : first.Twin left right second)
    (hitems : List.Forall₂ (fun item other => items item other left right) lefts rights)
    (hgrow : ∀ item other left right left' right', left.GrowBoth right left' right' →
      items item other left right → items item other left' right')
    (hyields : ∀ value other left right left' right', left.GrowBoth right left' right' →
      yields value other left right → yields value other left' right')
    (hbody : ∀ item other first second left right, first.Twin left right second →
      items item other left right →
        Frame.Follows (leftBody item first left) (rightBody other second right) yields) :
    Frame.Follows (lefts.mapM leftBody first left) (rights.mapM rightBody second right)
      fun values others later last =>
        List.Forall₂ (fun value other => yields value other later last) values others := by
  induction lefts generalizing rights first second left right with
  | nil =>
    cases hitems
    exact .pure htwin .nil
  | cons item rest ih =>
    cases hitems with
    | cons hitem hrest =>
      rw [List.mapM_cons, List.mapM_cons]
      refine (hbody _ _ _ _ _ _ htwin hitem).bind ?_
      intro value other first' second' left' right' hgrown htwin' hvalue
      have hrest' := hrest.imp fun _ _ hitem => hgrow _ _ _ _ _ _ hgrown hitem
      refine (ih htwin' hrest').bind ?_
      intro values others first'' second'' left'' right'' hgrown' htwin'' hvalues
      exact .pure htwin'' (.cons (hyields _ _ _ _ _ _ hgrown' hvalue) hvalues)

/-- A round for each of two corresponding items. -/
theorem forM {leftBody : ι → Framed PUnit} {rightBody : κ → Framed PUnit}
    [∀ item, RunDrifts (leftBody item)] [∀ item, RunDrifts (rightBody item)]
    (htwin : first.Twin left right second)
    (hitems : List.Forall₂ (fun item other => items item other left right) lefts rights)
    (hgrow : ∀ item other left right left' right', left.GrowBoth right left' right' →
      items item other left right → items item other left' right')
    (hbody : ∀ item other first second left right, first.Twin left right second →
      items item other left right →
        Frame.Follows (leftBody item first left) (rightBody other second right)
          fun _ _ _ _ => True) :
    Frame.Follows (lefts.forM leftBody first left) (rights.forM rightBody second right)
      fun _ _ _ _ => True := by
  induction lefts generalizing rights first second left right with
  | nil =>
    cases hitems
    exact .pure htwin trivial
  | cons item rest ih =>
    cases hitems with
    | @cons _ other _ others hitem hrest =>
      show Frame.Follows ((leftBody item >>= fun _ => rest.forM leftBody) first left)
        ((rightBody other >>= fun _ => others.forM rightBody) second right) _
      refine (hbody _ _ _ _ _ _ htwin hitem).bind ?_
      intro value other first' second' left' right' hgrown htwin' hvalue
      exact ih htwin' (hrest.imp fun _ _ hitem => hgrow _ _ _ _ _ _ hgrown hitem)

end Lists

end Frame.Follows

end ShapeFlow
