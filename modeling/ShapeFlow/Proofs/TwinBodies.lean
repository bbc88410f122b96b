import ShapeFlow.Proofs.BodyDrift
import ShapeFlow.Proofs.TwinWrites

/-!
# Bodies on twin frames

The analyses of one body in two universes are compared step by step.  The steps on types and
frames follow each other as they do alone, and the callees have to answer with summaries that
say the same (`BodyComparison.Callees`).  Then the summaries of the body say the same as well
(`summarize_follows`).

What the two analyses have learned since they began is kept in view, because it is what the
answers of the callees depend on.
-/

namespace ShapeFlow

open TypeGraph (SameUnfolding SameUnfoldings)

/-! ## Summaries -/

/-- Summaries with results and writes that say the same. -/
structure Summary.Twin (left right : TypeGraph) (first second : Summary) : Prop where
  result : first.result.Twin left right second.result
  writes : List.Forall₂ (Write.Twin left right) first.writes second.writes

theorem Summary.Twin.grow {left right left' right' : TypeGraph} {first second : Summary}
    (htwin : first.Twin left right second) (hgrow : left.GrowBoth right left' right') :
    first.Twin left' right' second where
  result := htwin.result.grow hgrow
  writes := htwin.writes.imp fun _ _ hwrite => hwrite.grow hgrow

/-- The summaries with these numbers say the same. -/
def Knowledge.SameSummary (left : Knowledge) (id : SummaryId) (right : Knowledge)
    (other : SummaryId) : Prop :=
  ∃ summary summary', left.summaries[id.index]? = some summary ∧
    right.summaries[other.index]? = some summary' ∧ summary.Twin left.graph right.graph summary'

/-! ## Two analyses of bodies -/

/-- Two analyses of bodies that are compared, with what was known when they began. -/
structure BodyComparison (declarations : Declarations) extends Comparison Knowledge where
  leftStart : Knowledge
  rightStart : Knowledge
  ordered : ∀ {left right}, Clear left right → left.graph.SameOrder right.graph

namespace BodyComparison

variable {declarations : Declarations} (runs : BodyComparison declarations)

/-- What the analyses know has been learned since they began, and is sound. -/
structure Reached (left right : Knowledge) : Prop where
  learnedLeft : runs.leftStart.Learns declarations left
  learnedRight : runs.rightStart.Learns declarations right
  soundLeft : left.Sound declarations
  soundRight : right.Sound declarations

/-- Asked about argument types with the same unfoldings, the callees answer with summaries that
say the same. -/
structure Callees (leftAnalyst rightAnalyst : Analyst) : Prop where
  soundLeft : leftAnalyst.Sound declarations
  soundRight : rightAnalyst.Sound declarations
  follows : ∀ target types others left right, runs.Reached left right →
    SameUnfoldings left.graph types right.graph others →
      runs.Follows (leftAnalyst target types left) (rightAnalyst target others right)
        fun id other later last => later.SameSummary id last other

end BodyComparison

variable {declarations : Declarations} {α β γ δ ι κ : Type} {runs : BodyComparison declarations}
  {left right : Knowledge}
  {first second : Frame}

/-- The right outcome follows the left one, and the frames behind them are twins. -/
abbrev Body.Follows (runs : BodyComparison declarations)
    (left : EStateM.Result Failure Knowledge (α × Frame))
    (right : EStateM.Result Failure Knowledge (β × Frame))
    (post : α → β → Knowledge → Knowledge → Prop) : Prop :=
  runs.Follows left right fun first second later last => runs.Reached later last ∧
    first.2.Twin later.graph last.graph second.2 ∧ post first.1 second.1 later last

namespace Body.Follows

variable {post : α → β → Knowledge → Knowledge → Prop}
  {post' : γ → δ → Knowledge → Knowledge → Prop}

theorem pure {value : α} {other : β} (hreached : runs.Reached left right)
    (htwin : first.Twin left.graph right.graph second) (hpost : post value other left right) :
    Body.Follows runs ((Pure.pure value : Body α) first left)
      ((Pure.pure other : Body β) second right) post :=
  Comparison.Follows.ok ⟨hreached, htwin, hpost⟩

theorem bind {leftStep : Body α} {rightStep : Body β} {leftNext : α → Body γ}
    {rightNext : β → Body δ} [RunDrifts leftStep] [RunDrifts rightStep]
    (hstep : Body.Follows runs (leftStep first left) (rightStep second right) post)
    (hnext : ∀ value other first' second' left' right',
      left.graph.GrowBoth right.graph left'.graph right'.graph → runs.Reached left' right' →
        first'.Twin left'.graph right'.graph second' → post value other left' right' →
          Body.Follows runs (leftNext value first' left') (rightNext other second' right') post')
    (hleft : ∀ value, RunDrifts (leftNext value) := by
      intros; repeat' first | infer_instance | split | refine RunDrifts.seq ?_ fun _ => ?_)
    (hright : ∀ value, RunDrifts (rightNext value) := by
      intros; repeat' first | infer_instance | split | refine RunDrifts.seq ?_ fun _ => ?_) :
    Body.Follows runs ((leftStep >>= leftNext) first left)
      ((rightStep >>= rightNext) second right) post' := by
  refine Comparison.Follows.run_bind hstep ?_ hleft hright
  intro value other left' right' hgrowsLeft hgrowsRight hpost
  have hgrown : left.Grows left' := hgrowsLeft
  have hgrown' : right.Grows right' := hgrowsRight
  exact hnext value.1 other.1 value.2 other.2 left' right' ⟨hgrown.graph, hgrown'.graph⟩ hpost.1
    hpost.2.1 hpost.2.2

/-- Steps on types and frames, as steps of bodies. -/
theorem framed {leftStep : Framed α} {rightStep : Framed β} [hleft : RunDrifts leftStep]
    [hright : RunDrifts rightStep] {post : α → β → TypeGraph → TypeGraph → Prop}
    (hreached : runs.Reached left right)
    (hstep : Frame.Follows (leftStep first left.graph) (rightStep second right.graph) post) :
    Body.Follows runs ((liftM leftStep : Body α) first left)
      ((liftM rightStep : Body β) second right)
      fun value other later last => post value other later.graph last.graph := by
  have hgrows := (hleft.run first).grows left.graph
  have hgrows' := (hright.run second).grows right.graph
  show runs.Follows ((leftStep first).within left) ((rightStep second).within right) _
  unfold Building.within
  intro value later hvalue hclear
  cases hfirst : leftStep first left.graph with
  | error failure grown =>
    rw [hfirst] at hvalue
    exact nomatch hvalue
  | ok result grown =>
    rw [hfirst] at hvalue hgrows
    cases hvalue
    cases hsecond : rightStep second right.graph with
    | error failure grown' =>
      rw [hsecond] at hclear
      have hfollowed := hstep value grown hfirst (by rw [hsecond]; exact runs.ordered hclear)
      rw [hsecond] at hfollowed
      exact hfollowed.elim
    | ok other grown' =>
      rw [hsecond] at hclear hgrows'
      have hfollowed := hstep value grown hfirst (by rw [hsecond]; exact runs.ordered hclear)
      rw [hsecond] at hfollowed
      obtain ⟨htwin, hpost⟩ := hfollowed
      have hgrown : left.Grows { left with graph := grown } := .of_graph hgrows
      have hgrown' : right.Grows { right with graph := grown' } := .of_graph hgrows'
      refine ⟨⟨hreached.learnedLeft.trans (hgrown.learns rfl),
        hreached.learnedRight.trans (hgrown'.learns rfl),
        hreached.soundLeft.grow hgrows htwin.wellLeft,
        hreached.soundRight.grow hgrows' htwin.wellRight⟩, htwin, hpost⟩

/-- Steps on types and frames, before steps of bodies. -/
theorem framed_bind {leftStep : Framed α} {rightStep : Framed β} {leftNext : α → Body γ}
    {rightNext : β → Body δ} {post : α → β → TypeGraph → TypeGraph → Prop}
    (hreached : runs.Reached left right)
    (hstep : Frame.Follows (leftStep first left.graph) (rightStep second right.graph) post)
    (hnext : ∀ value other first' second' left' right',
      left.graph.GrowBoth right.graph left'.graph right'.graph → runs.Reached left' right' →
        first'.Twin left'.graph right'.graph second' →
          post value other left'.graph right'.graph →
            Body.Follows runs (leftNext value first' left') (rightNext other second' right') post')
    (hfirst : RunDrifts leftStep := by first | infer_instance | (split <;> infer_instance))
    (hsecond : RunDrifts rightStep := by first | infer_instance | (split <;> infer_instance))
    (hleft : ∀ value, RunDrifts (leftNext value) := by
      intros; repeat' first | infer_instance | split | refine RunDrifts.seq ?_ fun _ => ?_)
    (hright : ∀ value, RunDrifts (rightNext value) := by
      intros; repeat' first | infer_instance | split | refine RunDrifts.seq ?_ fun _ => ?_) :
    Body.Follows runs (((liftM leftStep : Body α) >>= leftNext) first left)
      (((liftM rightStep : Body β) >>= rightNext) second right) post' :=
  (framed hreached hstep).bind hnext hleft hright

section Primitive

theorem getKnowledge_bind {leftNext : Knowledge → Body γ} {rightNext : Knowledge → Body δ}
    (hnext : Body.Follows runs (leftNext left first left) (rightNext right second right) post') :
    Body.Follows runs (((getThe Knowledge : Body Knowledge) >>= leftNext) first left)
      (((getThe Knowledge : Body Knowledge) >>= rightNext) second right) post' := hnext

theorem modifyFrame_bind {leftChange rightChange : Frame → Frame} {leftNext : PUnit → Body γ}
    {rightNext : PUnit → Body δ}
    (hnext : Body.Follows runs (leftNext ⟨⟩ (leftChange first) left)
      (rightNext ⟨⟩ (rightChange second) right) post') :
    Body.Follows runs (((modifyThe Frame leftChange : Body PUnit) >>= leftNext) first left)
      (((modifyThe Frame rightChange : Body PUnit) >>= rightNext) second right) post' := hnext

theorem modifyGetFrame_bind {leftChange : Frame → α × Frame} {rightChange : Frame → β × Frame}
    {leftNext : α → Body γ} {rightNext : β → Body δ}
    (hnext : Body.Follows runs (leftNext (leftChange first).1 (leftChange first).2 left)
      (rightNext (rightChange second).1 (rightChange second).2 right) post') :
    Body.Follows runs (((modifyGetThe Frame leftChange : Body α) >>= leftNext) first left)
      (((modifyGetThe Frame rightChange : Body β) >>= rightNext) second right) post' := hnext

end Primitive

/-- A step that only reads, before steps of bodies. -/
theorem checked_bind {leftStep : Checked α} {rightStep : Checked β} {leftNext : α → Body γ}
    {rightNext : β → Body δ} {related : α → β → Prop}
    (hstep : Checked.Follows leftStep rightStep related)
    (hnext : ∀ value other, related value other →
      Body.Follows runs (leftNext value first left) (rightNext other second right) post') :
    Body.Follows runs (((liftM leftStep : Body α) >>= leftNext) first left)
      (((liftM rightStep : Body β) >>= rightNext) second right) post' := by
  cases leftStep with
  | error failure => exact .error
  | ok value =>
    obtain ⟨other, hother, hrelated⟩ := hstep value rfl
    rw [hother]
    exact hnext value other hrelated

/-- What corresponding operands of two lists yield, taken as steps of bodies. -/
theorem framed_mapM {leftBody : ι → Framed α} {rightBody : κ → Framed β}
    [∀ item, RunDrifts (leftBody item)] [∀ item, RunDrifts (rightBody item)]
    {lefts : List ι} {rights : List κ} {post : List α → List β → TypeGraph → TypeGraph → Prop}
    (hreached : runs.Reached left right)
    (hstep : Frame.Follows (lefts.mapM leftBody first left.graph)
      (rights.mapM rightBody second right.graph) post) :
    Body.Follows runs ((lefts.mapM fun item => (liftM (leftBody item) : Body α)) first left)
      ((rights.mapM fun item => (liftM (rightBody item) : Body β)) second right)
      fun values others later last => post values others later.graph last.graph := by
  -- Steps on the graph may be lifted one by one or all together.
  have hlift : ∀ {ε ζ : Type} (body : ε → Framed ζ) (items : List ε) (frame : Frame)
      (knowledge : Knowledge),
      (items.mapM fun item => (liftM (body item) : Body ζ)) frame knowledge =
        (liftM (items.mapM body) : Body (List ζ)) frame knowledge := by
    intro ε ζ body items
    induction items with
    | nil =>
      intro frame knowledge
      rfl
    | cons item rest ih =>
      intro frame knowledge
      rw [List.mapM_cons, List.mapM_cons]
      simp only [liftM, monadLift, MonadLift.monadLift, Bind.bind, StateT.bind, EStateM.bind,
        Building.within] at ih ⊢
      cases body item frame knowledge.graph with
      | error failure grown => rfl
      | ok result grown =>
        dsimp only
        rw [ih]
        dsimp only
        cases rest.mapM body result.2 grown <;> rfl
  rw [hlift, hlift]
  exact .framed hreached hstep

/-- The callees are asked for summaries. -/
theorem callee_bind {leftAnalyst rightAnalyst : Analyst} {leftNext : SummaryId → Body γ}
    {rightNext : SummaryId → Body δ} [∀ target types, Drifts (leftAnalyst target types)]
    [∀ target types, Drifts (rightAnalyst target types)]
    (hcallees : runs.Callees leftAnalyst rightAnalyst) (hreached : runs.Reached left right)
    (htwin : first.Twin left.graph right.graph second) {target : DefId}
    {types others : List TypeId} (hsame : SameUnfoldings left.graph types right.graph others)
    (hnext : ∀ id other left' right',
      left.graph.GrowBoth right.graph left'.graph right'.graph → runs.Reached left' right' →
        first.Twin left'.graph right'.graph second → left'.SameSummary id right' other →
          Body.Follows runs (leftNext id first left') (rightNext other second right') post')
    (hleft : ∀ id, RunDrifts (leftNext id) := by
      intros; repeat' first | infer_instance | split | refine RunDrifts.seq ?_ fun _ => ?_)
    (hright : ∀ id, RunDrifts (rightNext id) := by
      intros; repeat' first | infer_instance | split | refine RunDrifts.seq ?_ fun _ => ?_) :
    Body.Follows runs
      (((liftM (leftAnalyst target types) : Body SummaryId) >>= leftNext) first left)
      (((liftM (rightAnalyst target others) : Body SummaryId) >>= rightNext) second right)
      post' := by
  have hends := hcallees.soundLeft target types left hreached.soundLeft hsame.has_left
  have hends' := hcallees.soundRight target others right hreached.soundRight hsame.symm.has_left
  have hstep : runs.Follows (leftAnalyst target types left) (rightAnalyst target others right)
      fun id other later last => runs.Reached later last ∧
        first.Twin later.graph last.graph second ∧ later.SameSummary id last other := by
    intro id later hid hclear
    have hfollowed := hcallees.follows target types others left right hreached hsame id later hid
      hclear
    rw [hid] at hends
    obtain ⟨hlearns, hsound, -⟩ := hends
    cases hother : rightAnalyst target others right with
    | error failure last =>
      rw [hother] at hfollowed
      exact hfollowed
    | ok other last =>
      rw [hother] at hfollowed hends'
      obtain ⟨hlearns', hsound', -⟩ := hends'
      exact ⟨⟨hreached.learnedLeft.trans hlearns, hreached.learnedRight.trans hlearns', hsound,
        hsound'⟩, htwin.grow ⟨hlearns.graph, hlearns'.graph⟩ hsound.graph hsound'.graph, hfollowed⟩
  refine Comparison.Follows.lift_bind hstep ?_ hleft hright
  intro id other left' right' hgrowsLeft hgrowsRight hpost
  have hgrown : left.Grows left' := hgrowsLeft
  have hgrown' : right.Grows right' := hgrowsRight
  exact hnext id other left' right' ⟨hgrown.graph, hgrown'.graph⟩ hpost.1 hpost.2.1 hpost.2.2

end Body.Follows

/-! ## Calls -/

/-- Bindings of twin operands to the slots of one callee. -/
structure Binding.Twin (left right : TypeGraph) (first second : Binding) : Prop where
  declarations : first.declarations = second.declarations
  span : first.span = second.span
  method : first.method = second.method
  arguments : List.Forall₂ (Operand.Twin left right) first.arguments second.arguments
  result : first.result? = second.result?

namespace Binding.Twin

variable {left right : TypeGraph} {binding other : Binding}

theorem grow {left' right' : TypeGraph} (hbinding : binding.Twin left right other)
    (hgrow : left.GrowBoth right left' right') : binding.Twin left' right' other :=
  { hbinding with arguments := hbinding.arguments.imp fun _ _ hoperand => hoperand.grow hgrow }

theorem slot?_rel (hbinding : binding.Twin left right other) (slot : Nat) :
    Option.Rel (Operand.Twin left right) (binding.slot? slot) (other.slot? slot) := by
  cases slot with
  | zero =>
    unfold slot?
    rw [hbinding.result]
    cases other.result? with
    | none => exact .none
    | some id => exact .some (.fresh id)
  | succ slot => exact forall₂_getElem? hbinding.arguments slot

theorem slot_follows (hbinding : binding.Twin left right other)
    (htwin : first.Twin left right second) (slot : Nat) :
    Frame.Follows (binding.slot slot first left) (other.slot slot second right)
      fun operand operand' later last => operand.Twin later last operand' := by
  unfold Binding.slot
  cases hslot : binding.slot? slot with
  | none => exact .error
  | some operand =>
    obtain ⟨operand', hslot', hoperand⟩ := exists_of_rel (hbinding.slot?_rel slot) hslot
    rw [hslot']
    exact .inspect htwin (htwin.resolve_follows hoperand)

theorem place_follows (hbinding : binding.Twin left right other)
    (htwin : first.Twin left right second) (place : AccessPath) :
    Frame.Follows (binding.place place first left) (other.place place second right)
      fun operand operand' later last => operand.Twin later last operand' := by
  unfold Binding.place
  rw [hbinding.declarations, hbinding.span]
  refine (hbinding.slot_follows htwin place.root).bind ?_
  intro base base' first' second' left' right' _ htwin' hbase
  exact .reading fun horder => htwin'.readAlong_follows horder hbase place.selectors

theorem value_follows (hbinding : binding.Twin left right other)
    (htwin : first.Twin left right second) {value value' : Value}
    (hvalue : value.Twin left right value') :
    Frame.Follows (binding.value value first left) (other.value value' second right)
      fun operand operand' later last => operand.Twin later last operand' := by
  cases hvalue with
  | type hsame => exact .pure htwin (.type hsame)
  | path place => exact hbinding.place_follows htwin place

theorem write_follows (hbinding : binding.Twin left right other)
    (htwin : first.Twin left right second) {write write' : Write}
    (hwrite : write.Twin left right write') :
    Frame.Follows (binding.write write first left) (other.write write' second right)
      fun _ _ _ _ => True := by
  unfold Binding.write
  rw [hbinding.declarations, hbinding.span, hwrite.target]
  refine (hbinding.slot_follows htwin write'.target.root).bind ?_
  intro base base' first₁ second₁ left₁ right₁ hgrown₁ htwin₁ hbase
  refine ((hbinding.grow hgrown₁).value_follows htwin₁ (hwrite.value.grow hgrown₁)).bind ?_
  intro value value' first₂ second₂ left₂ right₂ hgrown₂ htwin₂ hvalue
  exact htwin₂.writeAlong_follows (hbase.grow hgrown₂) write'.target.selectors hvalue

theorem replay_follows (hbinding : binding.Twin left right other)
    (htwin : first.Twin left right second) {summary summary' : Summary}
    (hsummary : summary.Twin left right summary') :
    Frame.Follows (binding.replay summary first left) (other.replay summary' second right)
      fun operand operand' later last => operand.Twin later last operand' := by
  unfold replay
  refine (Frame.Follows.forM (fun write write' left right =>
    write.Twin left right write' ∧ binding.Twin left right other) htwin
    (hsummary.writes.imp fun _ _ hwrite => ⟨hwrite, hbinding⟩)
    (fun _ _ _ _ _ _ hgrown hwrite => ⟨hwrite.1.grow hgrown, hwrite.2.grow hgrown⟩) ?_).bind ?_
  · intro write write' first second left right htwin hwrite
    exact hwrite.2.write_follows htwin hwrite.1
  · intro _ _ first' second' left' right' hgrown htwin' _
    unfold Binding.result
    rw [hbinding.result]
    cases other.result? with
    | none => exact (hbinding.grow hgrown).value_follows htwin' (hsummary.result.grow hgrown)
    | some id => exact .inspect htwin' (htwin'.resolve_follows (.fresh id))

end Binding.Twin

section Calls

variable {span : Span}

section Frames

variable {left right : TypeGraph} {operands others : List Operand}

theorem Frame.Twin.resolved_follows (htwin : first.Twin left right second)
    {operand other : Operand} (hoperand : operand.Twin left right other) :
    Frame.Follows ((inspect fun _ frame => frame.resolve operand : Framed Operand) first left)
      ((inspect fun _ frame => frame.resolve other : Framed Operand) second right)
      fun resolved resolved' later last => resolved.Twin later last resolved' :=
  .inspect htwin (htwin.resolve_follows hoperand)

theorem Frame.Twin.resolveAll_follows (htwin : first.Twin left right second)
    (hoperands : List.Forall₂ (Operand.Twin left right) operands others) :
    Frame.Follows
      ((operands.mapM fun operand => (inspect fun _ frame => frame.resolve operand :
        Framed Operand)) first left)
      ((others.mapM fun operand => (inspect fun _ frame => frame.resolve operand :
        Framed Operand)) second right)
      fun resolved resolved' later last =>
        List.Forall₂ (Operand.Twin later last) resolved resolved' :=
  .mapM (fun operand other left right => Operand.Twin left right operand other)
    (fun operand other left right => Operand.Twin left right operand other) htwin hoperands
    (fun _ _ _ _ _ _ hgrown hoperand => hoperand.grow hgrown)
    (fun _ _ _ _ _ _ hgrown hoperand => hoperand.grow hgrown)
    fun _ _ _ _ _ _ htwin hoperand => htwin.resolved_follows hoperand

theorem Frame.Twin.currentTypes_follows (htwin : first.Twin left right second)
    (hoperands : List.Forall₂ (Operand.Twin left right) operands others) :
    Frame.Follows
      ((operands.mapM fun operand => Frame.currentType declarations span operand) first left)
      ((others.mapM fun operand => Frame.currentType declarations span operand) second right)
      fun types types' later last => SameUnfoldings later types last types' :=
  .mapM (fun operand other left right => Operand.Twin left right operand other)
    (fun type type' left right => SameUnfolding left type right type') htwin hoperands
    (fun _ _ _ _ _ _ hgrown hoperand => hoperand.grow hgrown)
    (fun _ _ _ _ _ _ hgrown hsame => hsame.grow hgrown)
    fun _ _ _ _ _ _ htwin hoperand => htwin.currentType_follows hoperand

/-- The objects that twin summaries return are allocated side by side. -/
theorem Frame.Twin.expandResult_follows (htwin : first.Twin left right second)
    {summary summary' : Summary} (hsummary : summary.Twin left right summary') :
    Frame.Follows
      ((match summary.result with
        | .type type => reading fun graph => Frame.expand? graph type
        | .path _ => pure none : Framed (Option AllocId)) first left)
      ((match summary'.result with
        | .type type => reading fun graph => Frame.expand? graph type
        | .path _ => pure none : Framed (Option AllocId)) second right)
      fun id? other? _ _ => id? = other? := by
  have hresult := hsummary.result
  generalize summary.result = result, summary'.result = result' at hresult
  cases hresult with
  | path place => exact .pure htwin rfl
  | type hsame => exact .reading fun horder => htwin.expand?_follows horder hsame

theorem Frame.Twin.recordCall (htwin : first.Twin left right second) (call other : CallRecord) :
    (first.recordCall call).Twin left right (second.recordCall other) :=
  { htwin with }

end Frames

/-- Callees that answer alike make calls that follow each other. -/
theorem call_follows {leftAnalyst rightAnalyst : Analyst}
    [∀ target types, Drifts (leftAnalyst target types)]
    [∀ target types, Drifts (rightAnalyst target types)]
    (hcallees : runs.Callees leftAnalyst rightAnalyst) (hreached : runs.Reached left right)
    (htwin : first.Twin left.graph right.graph second) {method : String} {target : DefId}
    {operands others : List Operand}
    (hoperands : List.Forall₂ (Operand.Twin left.graph right.graph) operands others) :
    Body.Follows runs
      (call leftAnalyst declarations span method target operands first left)
      (call rightAnalyst declarations span method target others second right)
      fun operand other later last => operand.Twin later.graph last.graph other := by
  unfold call
  refine (Body.Follows.framed_mapM hreached (htwin.resolveAll_follows hoperands)).bind ?_
  intro arguments arguments' first₁ second₁ left₁ right₁ hgrown₁ hreached₁ htwin₁ harguments
  refine (Body.Follows.framed_mapM hreached₁ (htwin₁.currentTypes_follows harguments)).bind ?_
  intro types types' first₂ second₂ left₂ right₂ hgrown₂ hreached₂ htwin₂ hsame
  -- The callees are asked under types that need only unfold alike.
  refine .callee_bind hcallees hreached₂ htwin₂ hsame ?_
  intro id id' left₃ right₃ hgrown₃ hreached₃ htwin₃ hsummary
  obtain ⟨summary, summary', hid, hid', htwinSummary⟩ := hsummary
  have hfound : Checked.Follows (left₃.summary id) (right₃.summary id')
      (Summary.Twin left₃.graph right₃.graph) := by
    unfold Knowledge.summary
    rw [hid, hid']
    exact .ok htwinSummary
  refine .getKnowledge_bind (.checked_bind hfound fun summary summary' htwinSummary => ?_)
  refine .framed_bind hreached₃ (htwin₃.expandResult_follows htwinSummary) ?_
  intro result? result?' first₄ second₄ left₄ right₄ hgrown₄ hreached₄ htwin₄ hresult
  have hgrown := (hgrown₂.trans hgrown₃).trans hgrown₄
  have hbinding : Binding.Twin left₄.graph right₄.graph
      ⟨declarations, span, method, arguments, result?⟩
      ⟨declarations, span, method, arguments', result?'⟩ :=
    ⟨rfl, rfl, rfl, harguments.imp fun _ _ hoperand => hoperand.grow hgrown, hresult⟩
  refine .framed_bind hreached₄ (hbinding.replay_follows htwin₄ (htwinSummary.grow hgrown₄)) ?_
  intro operand operand' first₅ second₅ left₅ right₅ hgrown₅ hreached₅ htwin₅ hoperand
  refine .framed_bind hreached₅ (htwin₅.express_follows hoperand) ?_
  intro value value' first₆ second₆ left₆ right₆ hgrown₆ hreached₆ htwin₆ _
  exact .modifyFrame_bind (.pure hreached₆ (htwin₆.recordCall _ _) (hoperand.grow hgrown₆))

end Calls

/-! ## Expressions -/

namespace Scope

/-- Scopes of one definition that may differ in who analyzes the callees. -/
structure Twin (scope other : Scope) : Prop where
  program : scope.declarations = other.declarations
  definition : scope.definition = other.definition

variable {scope other : Scope} {span : Span}

section Messages

variable {left right : TypeGraph} (hscope : scope.Twin other)
  (htwin : first.Twin left right second)

include hscope htwin

theorem this_follows :
    Frame.Follows (scope.this span first left) (other.this span second right)
      fun operand operand' later last => operand.Twin later last operand' := by
  unfold this
  rw [hscope.definition]
  split
  · exact .inspect htwin (htwin.slotOperand_follows 1)
  · exact .error

theorem name_follows (name : String) :
    Frame.Follows (scope.name span name first left) (other.name span name second right)
      fun operand operand' later last => operand.Twin later last operand' := by
  unfold Scope.name
  rw [hscope.definition]
  refine .get_bind ?_
  have hlocal := htwin.locals.get? name
  cases hheld : first.locals.get? name with
  | some operand =>
    obtain ⟨operand', hheld', hoperand⟩ := exists_of_rel hlocal hheld
    rw [hheld']
    exact .inspect htwin (htwin.resolve_follows hoperand)
  | none =>
    rw [eq_none_of_rel hlocal hheld]
    cases other.definition.slotOf? name with
    | none => exact .error
    | some slot => exact .inspect htwin (htwin.slotOperand_follows slot)

theorem read_follows {base base' : Operand} (hbase : base.Twin left right base')
    (selector : Selector) :
    Frame.Follows (scope.read span base selector first left)
      (other.read span base' selector second right)
      fun operand operand' later last => operand.Twin later last operand' := by
  unfold Scope.read
  rw [hscope.program]
  exact .reading fun horder => htwin.read_follows horder hbase selector

theorem dispatch_follows {receiver receiver' : Operand}
    (hreceiver : receiver.Twin left right receiver') (method : String) :
    Frame.Follows (scope.dispatch span receiver method first left)
      (other.dispatch span receiver' method second right)
      fun target target' _ _ => target = target' := by
  unfold dispatch
  rw [hscope.program]
  refine .inspect_bind (htwin.classOf?_follows hreceiver) fun className? className?' heq => ?_
  subst heq
  cases className? with
  | none => exact .error
  | some className =>
    dsimp only
    cases other.declarations.method? className method with
    | none => exact .error
    | some target => exact .pure htwin rfl

theorem resolveCall_follows (name : String) :
    Frame.Follows (scope.resolveCall span name first left)
      (other.resolveCall span name second right)
      fun result result' later last =>
        List.Forall₂ (Operand.Twin later last) result.1 result'.1 ∧ result.2 = result'.2 := by
  unfold resolveCall
  rw [hscope.program, hscope.definition]
  cases other.definition.owner?.bind fun owner => other.declarations.method? owner name with
  | some target =>
    refine (this_follows hscope htwin).bind ?_
    intro receiver receiver' first' second' left' right' _ htwin' hreceiver
    exact .pure htwin' ⟨.cons hreceiver .nil, rfl⟩
  | none =>
    dsimp only
    cases other.declarations.function? name with
    | some target => exact .pure htwin ⟨.nil, rfl⟩
    | none => exact .error

theorem allocate_follows (className : String) :
    Frame.Follows (scope.allocate span className first left)
      (other.allocate span className second right) fun result result' _ _ => result = result' := by
  unfold Scope.allocate
  rw [hscope.program]
  cases other.declarations.class? className with
  | none => exact .error
  | some info =>
    have hobject : Allocation.Twin left right { className } { className } := ⟨rfl, .empty, rfl⟩
    obtain ⟨hid, hallocated⟩ := htwin.allocate hobject
    exact .ok ⟨hallocated, Prod.ext hid rfl⟩

theorem addElement_follows (array : AllocId) {expected? expected?' : Option TypeId}
    (hexpected : Option.Rel (fun type type' => SameUnfolding left type right type')
      expected? expected?') {value value' : Operand} (hvalue : value.Twin left right value') :
    Frame.Follows (scope.addElement span array expected? value first left)
      (other.addElement span array expected?' value' second right)
      fun type type' later last => SameUnfolding later type last type' := by
  unfold addElement
  rw [hscope.program]
  refine (htwin.currentType_follows hvalue).bind ?_
  intro type type' first' second' left' right' hgrown htwin' hsame
  cases hexpected with
  | none =>
    have hset : Frame.Follows
        (ShapeFlow.reading (fun _ => Frame.setPart array .element value) first' left')
        (ShapeFlow.reading (fun _ => Frame.setPart array .element value') second' right')
        fun _ _ _ _ => True :=
      .reading fun _ => (htwin'.setPart_follows array .element (hvalue.grow hgrown)).mono
        fun _ _ hset => ⟨hset, trivial⟩
    refine hset.bind ?_
    intro _ _ first'' second'' left'' right'' hgrown' htwin'' _
    exact .pure htwin'' (hsame.grow hgrown')
  | @some expected expected' hexpected =>
    have hexpected' := hexpected.grow hgrown
    refine .getGraph_bind ?_
    by_cases hshape : left'.sameShape expected type = true
    · -- The elements agree on the right since they have the unfoldings of those on the left.
      have helements := (TypeGraph.sameShape_iff htwin'.wellLeft.closed hexpected'.has_left
        hsame.has_left).mp hshape
      have hshape' := (TypeGraph.sameShape_iff htwin'.wellRight.closed hexpected'.has_right
        hsame.has_right).mpr ((hexpected'.symm.trans helements).trans hsame)
      rw [if_pos hshape, if_pos hshape']
      exact .pure htwin' hexpected'
    · rw [if_neg hshape]
      exact .error

end Messages

variable [∀ target types, Drifts (scope.analyst target types)]
  [∀ target types, Drifts (other.analyst target types)]

/-- The scopes are those of the two analyses, and their callees answer alike. -/
structure Compared (runs : BodyComparison declarations) (scope other : Scope) : Prop extends
    Twin scope other where
  own : other.declarations = declarations
  callees : runs.Callees scope.analyst other.analyst

/-- Steps that follow each other wherever the analyses have come to. -/
def Follow (runs : BodyComparison declarations) (leftStep : Body α) (rightStep : Body β)
    (post : α → β → Knowledge → Knowledge → Prop) : Prop :=
  ∀ first second left right, runs.Reached left right →
    first.Twin left.graph right.graph second →
      Body.Follows runs (leftStep first left) (rightStep second right) post

theorem call_follows (hscopes : Compared runs scope other) (hreached : runs.Reached left right)
    (htwin : first.Twin left.graph right.graph second) {method : String} {target : DefId}
    {operands others : List Operand}
    (hoperands : List.Forall₂ (Operand.Twin left.graph right.graph) operands others) :
    Body.Follows runs (scope.call span method target operands first left)
      (other.call span method target others second right)
      fun operand other later last => operand.Twin later.graph last.graph other := by
  unfold Scope.call
  rw [hscopes.program, hscopes.own]
  exact ShapeFlow.call_follows hscopes.callees hreached htwin hoperands

mutual

theorem evaluate_follows (hscopes : Compared runs scope other) (expr : Expr) :
    Follow runs (scope.evaluate expr) (other.evaluate expr)
      fun operand operand' later last => operand.Twin later.graph last.graph operand' := by
  intro first second left right hreached htwin
  have hscope := hscopes.toTwin
  cases expr with
  | integer span value =>
    unfold evaluate
    exact .pure hreached htwin (.type (.scalar htwin.wellLeft htwin.wellRight))
  | name span name =>
    unfold evaluate
    exact .framed hreached (name_follows hscope htwin name)
  | this span =>
    unfold evaluate
    exact .framed hreached (this_follows hscope htwin)
  | ownField span name =>
    unfold evaluate
    refine .framed_bind hreached (this_follows hscope htwin) ?_
    intro object object' first' second' left' right' _ hreached' htwin' hobject
    exact .framed hreached' (read_follows hscope htwin' hobject (.field name))
  | read span object selector =>
    unfold evaluate
    refine (evaluate_follows hscopes object first second left right hreached htwin).bind ?_
    intro object object' first' second' left' right' _ hreached' htwin' hobject
    exact .framed hreached' (read_follows hscope htwin' hobject selector)
  | create span className exprs =>
    unfold evaluate
    refine .framed_bind hreached (allocate_follows hscope htwin className) ?_
    intro result result' first₁ second₁ left₁ right₁ _ hreached₁ htwin₁ heq
    subst heq
    obtain ⟨id, setUp?⟩ := result
    cases setUp? with
    | some setUp =>
      refine (evaluateAll_follows hscopes exprs first₁ second₁ left₁ right₁ hreached₁
        htwin₁).bind ?_
      intro operands operands' first₂ second₂ left₂ right₂ _ hreached₂ htwin₂ hoperands
      refine (call_follows hscopes hreached₂ htwin₂
        (.cons (.fresh id) hoperands)).bind ?_
      intro _ _ first₃ second₃ left₃ right₃ _ hreached₃ htwin₃ _
      exact .framed hreached₃ (htwin₃.resolved_follows (.fresh id))
    | none =>
      dsimp only
      split
      · exact .framed hreached₁ (htwin₁.resolved_follows (.fresh id))
      · exact .error
  | allocate span className =>
    unfold evaluate
    refine .framed_bind hreached (allocate_follows hscope htwin className) ?_
    intro result result' first' second' left' right' _ hreached' htwin' heq
    subst heq
    exact .pure hreached' htwin' (.fresh result.1)
  | array span elements =>
    unfold evaluate
    have hobject : Allocation.Twin left.graph right.graph
        { className := Declarations.arrayName } { className := Declarations.arrayName } :=
      ⟨rfl, .empty, rfl⟩
    -- The frames have allocated equally often, so the array has the same name in both.
    obtain ⟨hid, hallocated⟩ := htwin.allocate hobject
    refine .modifyGetFrame_bind ?_
    rw [hid]
    refine (evaluateElements_follows hscopes _ none none elements _ _ left right hreached
      hallocated .none).bind ?_
    intro _ _ first' second' left' right' _ hreached' htwin' _
    exact .pure hreached' htwin' (.fresh _)
  | bind span name value =>
    unfold evaluate
    refine (evaluate_follows hscopes value first second left right hreached htwin).bind ?_
    intro operand operand' first' second' left' right' _ hreached' htwin' hoperand
    exact .modifyFrame_bind (.pure hreached' (htwin'.setLocal name hoperand) hoperand)
  | write span object selector value =>
    unfold evaluate
    refine (evaluate_follows hscopes object first second left right hreached htwin).bind ?_
    intro base base' first₁ second₁ left₁ right₁ _ hreached₁ htwin₁ hbase
    refine (evaluate_follows hscopes value first₁ second₁ left₁ right₁ hreached₁ htwin₁).bind ?_
    intro operand operand' first₂ second₂ left₂ right₂ hgrown₂ hreached₂ htwin₂ hoperand
    unfold Scope.write
    rw [hscope.program]
    exact .framed hreached₂ (htwin₂.write_follows (hbase.grow hgrown₂) selector hoperand)
  | send span object method exprs =>
    unfold evaluate
    refine (evaluate_follows hscopes object first second left right hreached htwin).bind ?_
    intro receiver receiver' first₁ second₁ left₁ right₁ _ hreached₁ htwin₁ hreceiver
    refine .framed_bind hreached₁ (dispatch_follows hscope htwin₁ hreceiver method) ?_
    intro target target' first₂ second₂ left₂ right₂ hgrown₂ hreached₂ htwin₂ heq
    subst heq
    refine (evaluateAll_follows hscopes exprs first₂ second₂ left₂ right₂ hreached₂ htwin₂).bind ?_
    intro operands operands' first₃ second₃ left₃ right₃ hgrown₃ hreached₃ htwin₃ hoperands
    exact call_follows hscopes hreached₃ htwin₃
      (.cons (hreceiver.grow (hgrown₂.trans hgrown₃)) hoperands)
  | apply span name exprs =>
    unfold evaluate
    refine .framed_bind hreached (resolveCall_follows hscope htwin name) ?_
    intro result result' first₁ second₁ left₁ right₁ _ hreached₁ htwin₁ hresult
    obtain ⟨receiver, target⟩ := result
    obtain ⟨receiver', target'⟩ := result'
    obtain ⟨hreceiver, htarget⟩ := hresult
    dsimp only at hreceiver htarget
    subst htarget
    refine (evaluateAll_follows hscopes exprs first₁ second₁ left₁ right₁ hreached₁ htwin₁).bind ?_
    intro operands operands' first₂ second₂ left₂ right₂ hgrown₂ hreached₂ htwin₂ hoperands
    exact call_follows hscopes hreached₂ htwin₂
      (List.rel_append (hreceiver.imp fun _ _ h => h.grow hgrown₂) hoperands)

theorem evaluateAll_follows (hscopes : Compared runs scope other) (exprs : List Expr) :
    Follow runs (scope.evaluateAll exprs) (other.evaluateAll exprs)
      fun operands operands' later last =>
        List.Forall₂ (Operand.Twin later.graph last.graph) operands operands' := by
  intro first second left right hreached htwin
  cases exprs with
  | nil =>
    unfold evaluateAll
    exact .pure hreached htwin .nil
  | cons expr rest =>
    unfold evaluateAll
    refine (evaluate_follows hscopes expr first second left right hreached htwin).bind ?_
    intro operand operand' first₁ second₁ left₁ right₁ _ hreached₁ htwin₁ hoperand
    refine (evaluateAll_follows hscopes rest first₁ second₁ left₁ right₁ hreached₁ htwin₁).bind ?_
    intro operands operands' first₂ second₂ left₂ right₂ hgrown₂ hreached₂ htwin₂ hoperands
    exact .pure hreached₂ htwin₂ (.cons (hoperand.grow hgrown₂) hoperands)

theorem evaluateElements_follows (hscopes : Compared runs scope other) (array : AllocId)
    (expected? expected?' : Option TypeId) (exprs : List Expr) (first second : Frame)
    (left right : Knowledge) (hreached : runs.Reached left right)
    (htwin : first.Twin left.graph right.graph second)
    (hexpected : Option.Rel
      (fun type type' => SameUnfolding left.graph type right.graph type') expected? expected?') :
    Body.Follows runs (scope.evaluateElements array expected? exprs first left)
      (other.evaluateElements array expected?' exprs second right) fun _ _ _ _ => True := by
  have hscope := hscopes.toTwin
  cases exprs with
  | nil =>
    unfold evaluateElements
    exact .pure hreached htwin trivial
  | cons expr rest =>
    unfold evaluateElements
    refine (evaluate_follows hscopes expr first second left right hreached htwin).bind ?_
    intro operand operand' first₁ second₁ left₁ right₁ hgrown₁ hreached₁ htwin₁ hoperand
    have hexpected₁ : Option.Rel
        (fun type type' => SameUnfolding left₁.graph type right₁.graph type')
        expected? expected?' := by
      cases hexpected with
      | none => exact .none
      | some hsame => exact .some (hsame.grow hgrown₁)
    refine .framed_bind hreached₁ (addElement_follows hscope htwin₁ array hexpected₁ hoperand) ?_
    intro expected expected' first₂ second₂ left₂ right₂ _ hreached₂ htwin₂ hsame
    exact evaluateElements_follows hscopes array (some expected) (some expected') rest first₂
      second₂ left₂ right₂ hreached₂ htwin₂ (.some hsame)

end

theorem evaluateBody_follows (hscopes : Compared runs scope other) (body : List Expr) :
    Follow runs (scope.evaluateBody body) (other.evaluateBody body)
      fun operand operand' later last => operand.Twin later.graph last.graph operand' := by
  have hfold : ∀ operand operand' first second left right, runs.Reached left right →
      first.Twin left.graph right.graph second →
        Operand.Twin left.graph right.graph operand operand' →
          Body.Follows runs
            (body.foldlM (fun _ expr => scope.evaluate expr) operand first left)
            (body.foldlM (fun _ expr => other.evaluate expr) operand' second right)
            fun operand operand' later last => operand.Twin later.graph last.graph operand' := by
    induction body with
    | nil =>
      intro operand operand' first second left right hreached htwin hoperand
      exact .pure hreached htwin hoperand
    | cons expr rest ih =>
      intro operand operand' first second left right hreached htwin _
      rw [List.foldlM_cons, List.foldlM_cons]
      refine (evaluate_follows hscopes expr first second left right hreached htwin).bind ?_
      intro value value' first' second' left' right' _ hreached' htwin' hvalue
      exact ih value value' first' second' left' right' hreached' htwin' hvalue
  intro first second left right hreached htwin
  exact hfold _ _ first second left right hreached htwin
    (.type (.scalar htwin.wellLeft htwin.wellRight))

end Scope

/-! ## Summaries of bodies -/

/-- The analyses of a body under argument types with the same unfoldings come to summaries that
say the same, if their callees answer alike. -/
theorem summarize_follows {leftAnalyst rightAnalyst : Analyst}
    [∀ target types, Drifts (leftAnalyst target types)]
    [∀ target types, Drifts (rightAnalyst target types)]
    (hcallees : runs.Callees leftAnalyst rightAnalyst) (hreached : runs.Reached left right)
    (definition : Definition) (signature signature' : Signature)
    (hsame : SameUnfoldings left.graph signature.arguments right.graph signature'.arguments) :
    runs.Follows (summarize leftAnalyst declarations definition signature left)
      (summarize rightAnalyst declarations definition signature' right)
      fun summary summary' later last =>
        runs.Reached later last ∧ summary.Twin later.graph last.graph summary' := by
  let scope : Scope := ⟨declarations, definition, leftAnalyst⟩
  let other : Scope := ⟨declarations, definition, rightAnalyst⟩
  have hscopes : Scope.Compared runs scope other := ⟨⟨rfl, rfl⟩, rfl, hcallees⟩
  have hstart : Frame.Twin left.graph right.graph { slots := signature.arguments }
      { slots := signature'.arguments } :=
    ⟨hreached.soundLeft.graph, hreached.soundRight.graph, hsame, .empty, .nil, .nil⟩
  have hbody : Body.Follows runs
      ((scope.evaluateBody definition.decl.body >>= fun operand =>
        liftM (Frame.expressResult declarations definition.decl.span operand))
        { slots := signature.arguments } left)
      ((other.evaluateBody definition.decl.body >>= fun operand =>
        liftM (Frame.expressResult declarations definition.decl.span operand))
        { slots := signature'.arguments } right)
      fun value value' later last => value.Twin later.graph last.graph value' := by
    refine (Scope.evaluateBody_follows hscopes definition.decl.body _ _ left right hreached
      hstart).bind ?_
    intro operand operand' first second left' right' _ hreached' htwin hoperand
    exact .framed hreached' (htwin.expressResult_follows hoperand)
  unfold summarize
  refine Comparison.Follows.bind hbody ?_ (fun _ => inferInstance) fun _ => inferInstance
  intro result result' left' right' _ _ hresult
  obtain ⟨hreached', htwin, hvalue⟩ := hresult
  exact .ok ⟨hreached', hvalue, htwin.writes⟩

end ShapeFlow
