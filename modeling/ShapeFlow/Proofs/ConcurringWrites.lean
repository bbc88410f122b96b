import ShapeFlow.Proofs.UnswayedSteps

/-!
# Writes in graphs that have grown apart

A graph may have grown in two ways (`TypeGraph.Fork`).  A write to a frame that names only types of
the old graph ends alike in both: it fails in both, or it succeeds in both and leaves frames that
tell the same story (`Frame.Sound.write_concurs`).

Twin frames alone would not do, since parts that are listed in another order are copied in another
order, and then objects have other numbers.  As the frame is the same on both sides until the place
is vacated, so are the copies; only then does a type come into the frame that has been built in one
of the graphs and not in the other.
-/

namespace ShapeFlow

open TypeGraph (SameUnfolding)

variable {α β γ δ : Type} {base left right : TypeGraph} {arguments : List TypeId}
  {declarations : Declarations} {span : Span} {frame first second : Frame}

/-! ## Runs that concur -/

/-- A graph has grown in two ways. -/
structure TypeGraph.Fork (base left right : TypeGraph) : Prop
    extends base.GrowBoth base left right where
  wellLeft : left.WellFormed
  wellRight : right.WellFormed

/-- Both runs have failed, or both have succeeded with corresponding results. -/
def Concur (left right : TypeGraph) (first : EStateM.Result Failure TypeGraph α)
    (second : EStateM.Result Failure TypeGraph β)
    (post : α → β → TypeGraph → TypeGraph → Prop) : Prop :=
  match first, second with
  | .ok value later, .ok other last => left.GrowBoth right later last ∧ post value other later last
  | .error _ _, .error _ _ => True
  | .ok _ _, .error _ _ | .error _ _, .ok _ _ => False

/-- The comparison of runs by their results alone. -/
def freely : Comparison TypeGraph where
  Clear _ _ := True
  Excused _ := False
  earlier _ _ _ := trivial

namespace Concur

variable {post : α → β → TypeGraph → TypeGraph → Prop}
  {post' : γ → δ → TypeGraph → TypeGraph → Prop}

theorem ok {value : α} {other : β} (hpost : post value other left right) :
    Concur left right (.ok value left) (.ok other right) post :=
  ⟨⟨.refl left, .refl right⟩, hpost⟩

/-- Both have failed, or both have succeeded. -/
theorem outcomes {first : EStateM.Result Failure TypeGraph α}
    {second : EStateM.Result Failure TypeGraph β} (hconcur : Concur left right first second post) :
    (∃ failure failure' later last,
      first = .error failure later ∧ second = .error failure' last) ∨
      ∃ value other later last, first = .ok value later ∧ second = .ok other last ∧
        left.GrowBoth right later last ∧ post value other later last := by
  cases first with
  | ok value later =>
    cases second with
    | ok other last => exact .inr ⟨value, other, later, last, rfl, rfl, hconcur⟩
    | error failure last => exact hconcur.elim
  | error failure later =>
    cases second with
    | ok other last => exact hconcur.elim
    | error failure' last => exact .inl ⟨failure, failure', later, last, rfl, rfl⟩

theorem mono {first : EStateM.Result Failure TypeGraph α}
    {second : EStateM.Result Failure TypeGraph β}
    {weaker : α → β → TypeGraph → TypeGraph → Prop} (hconcur : Concur left right first second post)
    (hweaker : ∀ value other later last, left.GrowBoth right later last →
      post value other later last → weaker value other later last) :
    Concur left right first second weaker := by
  obtain ⟨_, _, _, _, rfl, rfl⟩ | ⟨_, _, _, _, rfl, rfl, hgrown, hpost⟩ := hconcur.outcomes
  · trivial
  · exact ⟨hgrown, hweaker _ _ _ _ hgrown hpost⟩

/-- Runs concur if each of them succeeds when the other one does. -/
theorem of_follows {step : EStateM Failure TypeGraph α} {step' : EStateM Failure TypeGraph β}
    [hleft : Drifts step] [hright : Drifts step'] {other : β → α → TypeGraph → TypeGraph → Prop}
    (hforth : freely.Follows (step left) (step' right) post)
    (hback : freely.Follows (step' right) (step left) other) :
    Concur left right (step left) (step' right) post := by
  have hgrowsLeft := hleft.grows left
  have hgrowsRight := hright.grows right
  cases hfirst : step left with
  | ok value later =>
    have hsecond := hforth value later hfirst trivial
    rw [hfirst] at hgrowsLeft
    cases hother : step' right with
    | ok other last =>
      rw [hother] at hsecond hgrowsRight
      exact ⟨⟨hgrowsLeft, hgrowsRight⟩, hsecond⟩
    | error failure last =>
      rw [hother] at hsecond
      exact hsecond
  | error failure later =>
    cases hother : step' right with
    | ok other last =>
      have hsecond := hback other last hother trivial
      rw [hfirst] at hsecond
      exact hsecond.elim
    | error failure' last => trivial

/-- What has grown since later has grown since before. -/
theorem of_grown {left' right' : TypeGraph} {first : EStateM.Result Failure TypeGraph α}
    {second : EStateM.Result Failure TypeGraph β} (hconcur : Concur left' right' first second post)
    (hgrown : left.GrowBoth right left' right') : Concur left right first second post := by
  obtain ⟨_, _, _, _, rfl, rfl⟩ | ⟨_, _, _, _, rfl, rfl, hlater, hpost⟩ := hconcur.outcomes
  · trivial
  · exact ⟨hgrown.trans hlater, hpost⟩

theorem bind {step : EStateM Failure TypeGraph α} {step' : EStateM Failure TypeGraph β}
    {next : α → EStateM Failure TypeGraph γ} {next' : β → EStateM Failure TypeGraph δ}
    (hstep : Concur left right (step left) (step' right) post)
    (hnext : ∀ value other left' right', left.GrowBoth right left' right' →
      post value other left' right' →
        Concur left' right' (next value left') (next' other right') post') :
    Concur left right ((step >>= next) left) ((step' >>= next') right) post' := by
  simp only [Bind.bind, EStateM.bind]
  obtain ⟨_, _, _, _, hfirst, hsecond⟩ |
    ⟨value, other, later, last, hfirst, hsecond, hgrown, hpost⟩ := hstep.outcomes
  · rw [hfirst, hsecond]
    trivial
  · rw [hfirst, hsecond]
    exact (hnext value other later last hgrown hpost).of_grown hgrown

section Framed

variable {related : α × Frame → β × Frame → TypeGraph → TypeGraph → Prop}
  {related' : γ × Frame → δ × Frame → TypeGraph → TypeGraph → Prop}

theorem pure {value : α} {other : β}
    (hrelated : related (value, first) (other, second) left right) :
    Concur left right ((Pure.pure value : Framed α) first left)
      ((Pure.pure other : Framed β) second right) related := .ok hrelated

theorem run_bind {step : Framed α} {step' : Framed β} {next : α → Framed γ} {next' : β → Framed δ}
    (hstep : Concur left right (step first left) (step' second right) related)
    (hnext : ∀ result result' left' right', left.GrowBoth right left' right' →
      related result result' left' right' →
        Concur left' right' (next result.1 result.2 left') (next' result'.1 result'.2 right')
          related') :
    Concur left right ((step >>= next) first left) ((step' >>= next') second right) related' :=
  Concur.bind hstep hnext

theorem get_bind {next : Frame → Framed γ} {next' : Frame → Framed δ}
    (hnext : Concur left right (next first first left) (next' second second right) related') :
    Concur left right ((getThe Frame >>= next) first left) ((getThe Frame >>= next') second right)
      related' := hnext

theorem modify_bind {change change' : Frame → Frame} {next : PUnit → Framed γ}
    {next' : PUnit → Framed δ}
    (hnext : Concur left right (next ⟨⟩ (change first) left) (next' ⟨⟩ (change' second) right)
      related') :
    Concur left right ((modifyThe Frame change >>= next) first left)
      ((modifyThe Frame change' >>= next') second right) related' := hnext

/-- A step without the frame, before steps that carry it. -/
theorem lift_bind {step : Building α} {step' : Building β} {next : α → Framed γ}
    {next' : β → Framed δ} (hstep : Concur left right (step left) (step' right) post)
    (hnext : ∀ value other left' right', left.GrowBoth right left' right' →
      post value other left' right' →
        Concur left' right' (next value first left') (next' other second right') related') :
    Concur left right (((liftM step : Framed α) >>= next) first left)
      (((liftM step' : Framed β) >>= next') second right) related' := by
  have hlift : ∀ {ε ζ : Type} (step : Building ε) (rest : ε → Framed ζ) (frame : Frame)
      (graph : TypeGraph), ((liftM step : Framed ε) >>= rest) frame graph =
        (step >>= fun value => rest value frame) graph := by
    intro ε ζ step rest frame graph
    simp only [liftM, monadLift, MonadLift.monadLift, StateT.lift, Bind.bind, StateT.bind,
      EStateM.bind]
    cases step graph <;> rfl
  rw [hlift, hlift]
  exact Concur.bind hstep hnext

/-- A step that only reads, before steps that carry the frame. -/
theorem checked_bind {step : Checked α} {step' : Checked β} {next : α → Framed γ}
    {next' : β → Framed δ} {answers : α → β → Prop} {others : β → α → Prop}
    (hforth : Checked.Follows step step' answers) (hback : Checked.Follows step' step others)
    (hnext : ∀ value other, answers value other →
      Concur left right (next value first left) (next' other second right) related') :
    Concur left right (((liftM step : Framed α) >>= next) first left)
      (((liftM step' : Framed β) >>= next') second right) related' := by
  cases step with
  | ok value =>
    obtain ⟨other, rfl, hanswers⟩ := hforth value rfl
    exact hnext value other hanswers
  | error failure =>
    cases step' with
    | ok other =>
      obtain ⟨value, hvalue, -⟩ := hback other rfl
      exact nomatch hvalue
    | error failure' => trivial

/-- A question, before steps that carry the frame. -/
theorem inspect_bind {question : TypeGraph → Frame → Checked α}
    {question' : TypeGraph → Frame → Checked β} {next : α → Framed γ} {next' : β → Framed δ}
    {answers : α → β → Prop} {others : β → α → Prop}
    (hforth : Checked.Follows (question left first) (question' right second) answers)
    (hback : Checked.Follows (question' right second) (question left first) others)
    (hnext : ∀ value other, answers value other →
      Concur left right (next value first left) (next' other second right) related') :
    Concur left right ((inspect question >>= next) first left)
      ((inspect question' >>= next') second right) related' := by
  simp only [Bind.bind, StateT.bind, EStateM.bind, inspect]
  cases hfirst : question left first with
  | ok value =>
    obtain ⟨other, hsecond, hanswers⟩ := hforth value hfirst
    rw [hsecond]
    exact hnext value other hanswers
  | error failure =>
    cases hsecond : question' right second with
    | ok other =>
      obtain ⟨value, hvalue, -⟩ := hback other hsecond
      cases hfirst.symm.trans hvalue
    | error failure' => trivial

/-- A step that reads the types, before steps that carry the frame. -/
theorem reading_bind {step : TypeGraph → StateT Frame Checked α}
    {step' : TypeGraph → StateT Frame Checked β} {next : α → Framed γ} {next' : β → Framed δ}
    {answers : α × Frame → β × Frame → Prop} {others : β × Frame → α × Frame → Prop}
    (hforth : Checked.Follows (step left first) (step' right second) answers)
    (hback : Checked.Follows (step' right second) (step left first) others)
    (hnext : ∀ result result', answers result result' →
      Concur left right (next result.1 result.2 left) (next' result'.1 result'.2 right) related') :
    Concur left right ((reading step >>= next) first left) ((reading step' >>= next') second right)
      related' := by
  simp only [Bind.bind, StateT.bind, EStateM.bind, reading]
  cases hfirst : step left first with
  | ok result =>
    obtain ⟨result', hsecond, hanswers⟩ := hforth result hfirst
    rw [hsecond]
    exact hnext result result' hanswers
  | error failure =>
    cases hsecond : step' right second with
    | ok result' =>
      obtain ⟨result, hresult, -⟩ := hback result' hsecond
      cases hfirst.symm.trans hresult
    | error failure' => trivial

end Framed

end Concur

/-! ## Writes to twin frames -/

namespace Frame.Twin

variable (htwin : first.Twin left right second)

include htwin

theorem typeOf_concurs {operand other : Operand} (hoperand : operand.Twin left right other) :
    Concur left right (first.typeOf declarations span operand left)
      (second.typeOf declarations span other right) fun type type' later last =>
        first.Twin later last second ∧ SameUnfolding later type last type' :=
  .of_follows (htwin.typeOf_follows hoperand) (htwin.symm.typeOf_follows hoperand.symm)

theorem reify_concurs (id : AllocId) :
    Concur left right (first.reify declarations span id left)
      (second.reify declarations span id right) fun type type' later last =>
        first.Twin later last second ∧ SameUnfolding later type last type' :=
  .of_follows (htwin.reify_follows id) (htwin.symm.reify_follows id)

/-- The types of a slot with a part bound have the same unfolding, if there are any. -/
theorem bindAt?_concurs (target : AccessPath) (selector : Selector)
    {current current' part part' : TypeId} (hcurrent : SameUnfolding left current right current')
    (hpart : SameUnfolding left part right part') :
    Concur left right
      ((match left.bindAt? current target.selectors part with
        | some (updated, graph) => do
          set graph
          modifyThe Frame fun frame =>
            { frame with slots := frame.slots.set (target.root - 1) updated }
        | none => reject (.notAnObject selector.render span) : Framed Unit) first left)
      ((match right.bindAt? current' target.selectors part' with
        | some (updated, graph) => do
          set graph
          modifyThe Frame fun frame =>
            { frame with slots := frame.slots.set (target.root - 1) updated }
        | none => reject (.notAnObject selector.render span) : Framed Unit) second right)
      fun result result' later last => result.2.Twin later last result'.2 := by
  cases hbind : left.bindAt? current target.selectors part with
  | none =>
    cases hbind' : right.bindAt? current' target.selectors part' with
    | none => trivial
    | some result' =>
      obtain ⟨result, hresult, -⟩ := TypeGraph.bindAt?_follows htwin.wellRight htwin.wellLeft
        hcurrent.symm hpart.symm hbind'
      cases hbind.symm.trans hresult
  | some result =>
    obtain ⟨result', hbind', hwell, hwell', hsame⟩ :=
      TypeGraph.bindAt?_follows htwin.wellLeft htwin.wellRight hcurrent hpart hbind
    rw [hbind']
    have hgrown : left.GrowBoth right result.2 result'.2 := ⟨.bindAt? hbind, .bindAt? hbind'⟩
    exact ⟨hgrown, (htwin.grow hgrown hwell hwell').setSlot (target.root - 1) hsame⟩

theorem setPlaceType_concurs (target : AccessPath) (selector : Selector) {part part' : TypeId}
    (hpart : SameUnfolding left part right part') :
    Concur left right (setPlaceType span target selector part first left)
      (setPlaceType span target selector part' second right) fun result result' later last =>
        result.2.Twin later last result'.2 := by
  unfold setPlaceType
  exact .inspect_bind (htwin.slotType_follows target.root)
    (htwin.symm.slotType_follows target.root) fun _ _ hcurrent =>
      htwin.bindAt?_concurs target selector hcurrent hpart

theorem recordOperand_concurs (target : AccessPath) {operand other : Operand}
    (hoperand : operand.Twin left right other) :
    Concur left right (recordOperand declarations span target operand first left)
      (recordOperand declarations span target other second right) fun result result' later last =>
        result.2.Twin later last result'.2 := by
  cases hoperand with
  | type hsame => exact .ok (htwin.record target (.type hsame))
  | path source => exact .ok (htwin.record target (.path source))
  | fresh id =>
    unfold recordOperand
    refine .get_bind (.lift_bind (htwin.reify_concurs id) ?_)
    intro type type' left' right' _ htypes
    obtain ⟨htwin', hsame⟩ := htypes
    have hrecorded := htwin'.record target (.type hsame)
    exact .modify_bind (.get_bind (.checked_bind (hrecorded.place_follows true id target)
      (hrecorded.symm.place_follows true id target) fun placed placed' hplaced => .ok hplaced))

end Frame.Twin

/-! ## Steps on one frame -/

namespace Frame

/-- Values that are written alike: one operand that is told without added types, or types with the
same unfolding. -/
inductive WrittenAlike (base : TypeGraph) (arguments : List TypeId) (left right : TypeGraph) :
    Operand → Operand → Prop
  | same {operand : Operand} : operand.RootedIn base arguments →
      WrittenAlike base arguments left right operand operand
  | type {first second : TypeId} : SameUnfolding left first right second →
      WrittenAlike base arguments left right (.type first) (.type second)

/-- The frame is the same behind both runs and names only types of the old graph, and the answers
are written alike. -/
def AnswersAlike (base : TypeGraph) (arguments : List TypeId)
    (result result' : Operand × Frame) (left right : TypeGraph) : Prop :=
  result.2 = result'.2 ∧ result.2.Sound base arguments ∧ base.Fork left right ∧
    WrittenAlike base arguments left right result.1 result'.1

variable {operand other : Operand}

theorem WrittenAlike.twin (halike : WrittenAlike base arguments left right operand other)
    (hclosed : base.Closed) (hfork : base.Fork left right) : operand.Twin left right other := by
  cases halike with
  | same hrooted => exact (hrooted.twin hclosed).grow hfork.toGrowBoth
  | type hsame => exact .type hsame

variable (hsound : frame.Sound base arguments) (hfork : base.Fork left right)

include hsound hfork

theorem Sound.twin_of_fork : frame.Twin left right frame :=
  hsound.twin.grow hfork.toGrowBoth hfork.wellLeft hfork.wellRight

omit hsound in
/-- An unswayed step ends alike in both graphs. -/
theorem Unswayed.concur {step : Framed α} [hdrifts : RunDrifts step] {post : α → Prop}
    (hstep : Unswayed base arguments step post frame) :
    Concur left right (step frame left) (step frame right) fun result result' later last =>
      result = result' ∧ result.2.Sound base arguments ∧ base.Fork later last ∧ post result.1 := by
  obtain ⟨outcome, hends, hpost⟩ := hstep
  have hgrowsLeft := (hdrifts.run frame).grows left
  have hgrowsRight := (hdrifts.run frame).grows right
  have hleft := hends left hfork.growsLeft hfork.wellLeft
  have hright := hends right hfork.growsRight hfork.wellRight
  generalize step frame left = first at *
  generalize step frame right = second at *
  cases hleft with
  | error =>
    cases hright with
    | error => trivial
  | ok hgrows hwell =>
    cases hright with
    | ok hgrows' hwell' =>
      obtain ⟨hsound, hvalue⟩ := hpost _ rfl
      exact ⟨⟨hgrowsLeft, hgrowsRight⟩, rfl, hsound, ⟨⟨hgrows, hgrows'⟩, hwell, hwell'⟩, hvalue⟩

omit hsound hfork in
/-- A type is written as it is, once the place has been vacated. -/
theorem vacate_type (target : AccessPath) (type other : TypeId) :
    vacate declarations span target (.type type) =
      vacate declarations span target (.type other) >>= fun _ => pure (.type type) := by
  unfold vacate
  rw [bind_assoc]
  refine bind_congr fun frame => ?_
  dsimp only [Operand.placeWithin?]
  split
  · rfl
  · simp only [bind_assoc, pure_bind]

theorem Sound.vacate_concurs (target : AccessPath)
    (halike : WrittenAlike base arguments left right operand other) :
    Concur left right (vacate declarations span target operand frame left)
      (vacate declarations span target other frame right) (AnswersAlike base arguments) := by
  cases halike with
  | same hrooted =>
    refine (Unswayed.concur hfork (vacate_unswayed hsound target hrooted)).mono ?_
    rintro result _ later last - ⟨rfl, hlater, hfork', hvalue⟩
    exact ⟨rfl, hlater, hfork', .same hvalue⟩
  | @type first second hsame =>
    have hscalar : (Operand.type TypeGraph.scalar).RootedIn base arguments :=
      hsound.wellFormed.has_scalar
    rw [vacate_type target first TypeGraph.scalar, vacate_type target second TypeGraph.scalar]
    refine .run_bind (Unswayed.concur hfork (vacate_unswayed hsound target hscalar)) ?_
    rintro result _ left' right' hgrown ⟨rfl, hlater, hfork', -⟩
    exact .pure ⟨rfl, hlater, hfork', .type (hsame.grow hgrown)⟩

theorem Sound.resolve_concurs (halike : WrittenAlike base arguments left right operand other) :
    Concur left right (inspect (fun _ frame => frame.resolve operand) frame left)
      (inspect (fun _ frame => frame.resolve other) frame right) (AnswersAlike base arguments) := by
  cases halike with
  | same hrooted =>
    have hresolve : Unswayed base arguments (inspect fun _ frame => frame.resolve operand)
        (·.RootedIn base arguments) frame :=
      .inspect hsound (fun _ _ => rfl) (hsound.resolve hrooted)
    refine (hresolve.concur hfork).mono ?_
    rintro result _ later last - ⟨rfl, hlater, hfork', hvalue⟩
    exact ⟨rfl, hlater, hfork', .same hvalue⟩
  | type hsame => exact .ok ⟨rfl, hsound, hfork, .type hsame⟩

omit hsound hfork in
theorem WrittenAlike.grow (halike : WrittenAlike base arguments left right operand other)
    {left' right' : TypeGraph} (hgrown : left.GrowBoth right left' right') :
    WrittenAlike base arguments left' right' operand other := by
  cases halike with
  | same hrooted => exact .same hrooted
  | type hsame => exact .type (hsame.grow hgrown)

/-- A part of a place is written alike. -/
theorem Sound.writePlace_concurs (target : AccessPath) (selector : Selector)
    (halike : WrittenAlike base arguments left right operand other) :
    Concur left right
      ((do
        let value ← vacate declarations span target operand
        let part ← (← getThe Frame).typeOf declarations span value
        setPlaceType span target selector part
        recordOperand declarations span target value
        pure (.path target) : Framed Operand) frame left)
      ((do
        let value ← vacate declarations span target other
        let part ← (← getThe Frame).typeOf declarations span value
        setPlaceType span target selector part
        recordOperand declarations span target value
        pure (.path target) : Framed Operand) frame right) fun result result' later last =>
        result.2.Twin later last result'.2 ∧ result.1.Twin later last result'.1 := by
  refine .run_bind (hsound.vacate_concurs hfork target halike) ?_
  rintro ⟨value, vacated⟩ ⟨value', _⟩ left right - ⟨rfl, hsound, hfork, halike⟩
  have hclosed := hsound.wellFormed.closed
  have htwin := hsound.twin_of_fork hfork
  refine .get_bind (.lift_bind (htwin.typeOf_concurs (halike.twin hclosed hfork)) ?_)
  intro part part' left' right' hgrown htypes
  obtain ⟨htwin, hpart⟩ := htypes
  refine .run_bind (htwin.setPlaceType_concurs target selector hpart) ?_
  intro rebuilt rebuilt' left'' right'' hgrown' htwin
  have hvalue := (halike.twin hclosed hfork).grow (hgrown.trans hgrown')
  refine .run_bind (htwin.recordOperand_concurs target hvalue) ?_
  intro recorded recorded' left'' right'' _ htwin
  exact .pure ⟨htwin, .path target⟩

/-- A write to a frame that names only types of the old graph ends alike in both graphs. -/
theorem Sound.write_concurs {object : Operand} (hobject : object.RootedIn base arguments)
    (selector : Selector) (halike : WrittenAlike base arguments left right operand other) :
    Concur left right (write declarations span object selector operand frame left)
      (write declarations span object selector other frame right) fun result result' later last =>
        result.2.Twin later last result'.2 ∧ result.1.Twin later last result'.1 := by
  unfold write
  have hresolve : Unswayed base arguments (inspect fun _ frame => frame.resolve object)
      (·.RootedIn base arguments) frame := .inspect hsound (fun _ _ => rfl) (hsound.resolve hobject)
  refine .run_bind (hresolve.concur hfork) ?_
  rintro ⟨object, frame⟩ _ left right hgrown ⟨rfl, hsound, hfork, hobject⟩
  dsimp only at hsound hobject ⊢
  refine .run_bind (hsound.resolve_concurs hfork (halike.grow hgrown)) ?_
  rintro ⟨operand, frame⟩ ⟨other, _⟩ left right - ⟨rfl, hsound, hfork, halike⟩
  dsimp only at hsound halike ⊢
  have hclass : Unswayed base arguments
      (inspect fun graph frame => frame.classOf? declarations graph span object) (fun _ => True)
      frame :=
    .inspect hsound (fun _ hgrows => hsound.classOf?_eq hgrows hobject) (hsound.classOf? object)
  refine .run_bind (hclass.concur hfork) ?_
  rintro ⟨className?, frame⟩ _ left right hgrown ⟨rfl, hsound, hfork, -⟩
  replace halike := halike.grow hgrown
  dsimp only at hsound ⊢
  cases className? with
  | none => trivial
  | some className =>
    dsimp only
    split
    · have htwin := hsound.twin_of_fork hfork
      have hvalue := halike.twin hsound.wellFormed.closed hfork
      cases object with
      | path place => exact hsound.writePlace_concurs hfork (place.child selector) selector halike
      | type held => exact .pure ⟨htwin, hvalue⟩
      | fresh id =>
        exact .reading_bind (htwin.setPart_follows id selector hvalue)
          (htwin.symm.setPart_follows id selector hvalue.symm)
          fun changed changed' htwin => .pure ⟨htwin, hvalue⟩
    · trivial

end Frame

end ShapeFlow
