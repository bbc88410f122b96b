import ShapeFlow.Proofs.AnalysisSoundness
import ShapeFlow.Proofs.BodyRules
import ShapeFlow.Proofs.Drift

/-!
# Bodies only add to what is known

Whatever a body or an analysis does, from whatever it starts, and whether it succeeds or fails:
types, finished summaries and answers stay (`Knowledge.Grows`).
-/

namespace ShapeFlow

instance : Growing Knowledge := ⟨Knowledge.Grows, .refl, .trans⟩

variable {α β ι : Type} {declarations : Declarations} {span : Span}

/-! ## Steps of bodies -/

instance (step : Building α) [hstep : Drifts step] : Drifts step.within where
  grows knowledge := by
    have hdrift := hstep.grows knowledge.graph
    unfold Building.within
    cases hresult : step knowledge.graph <;> rw [hresult] at hdrift <;>
      exact Knowledge.Grows.of_graph hdrift

instance (step : Framed α) [hstep : RunDrifts step] : RunDrifts (liftM step : Body α) where
  run frame :=
    have := hstep.run frame
    inferInstanceAs (Drifts (Building.within (step frame)))

instance (step : Checked α) : RunDrifts (liftM step : Body α) :=
  inferInstanceAs (RunDrifts (liftM (liftM step : Framed α) : Body α))

namespace Binding

variable (binding : Binding)

instance (slot : Nat) : RunDrifts (binding.slot slot) := by
  unfold Binding.slot
  split <;> infer_instance

instance (place : AccessPath) : RunDrifts (binding.place place) := by
  unfold Binding.place
  infer_instance

instance (value : Value) : RunDrifts (binding.value value) := by
  unfold Binding.value
  split <;> infer_instance

instance (write : Write) : RunDrifts (binding.write write) := by
  unfold Binding.write
  infer_instance

instance (result : Value) : RunDrifts (binding.result result) := by
  unfold Binding.result
  split <;> infer_instance

instance (summary : Summary) : RunDrifts (binding.replay summary) := by
  unfold Binding.replay
  infer_instance

end Binding

instance (analyst : Analyst) [∀ target types, Drifts (analyst target types)] (method : String)
    (target : DefId) (arguments : List Operand) :
    RunDrifts (call analyst declarations span method target arguments) := by
  unfold call
  refine .seq inferInstance fun arguments => .seq inferInstance fun types =>
    .seq inferInstance fun id => .seq inferInstance fun knowledge =>
      .seq inferInstance fun summary => .seq ?_ fun result? => ?_
  · split <;> infer_instance
  · infer_instance

namespace Scope

variable (scope : Scope)

instance : RunDrifts (scope.this span) := by
  unfold Scope.this
  infer_instance

instance (name : String) : RunDrifts (scope.name span name) := by
  unfold Scope.name
  refine .seq inferInstance fun frame => ?_
  split
  · infer_instance
  · split <;> infer_instance

instance (base : Operand) (selector : Selector) : RunDrifts (scope.read span base selector) := by
  unfold Scope.read
  infer_instance

instance (base : Operand) (selector : Selector) (value : Operand) :
    RunDrifts (scope.write span base selector value) := by
  unfold Scope.write
  infer_instance

instance (receiver : Operand) (method : String) :
    RunDrifts (scope.dispatch span receiver method) := by
  unfold dispatch
  refine .seq inferInstance fun className? => ?_
  split
  · infer_instance
  · split <;> infer_instance

instance (name : String) : RunDrifts (scope.resolveCall span name) := by
  unfold resolveCall
  split
  · infer_instance
  · split <;> infer_instance

instance (className : String) : RunDrifts (scope.allocate span className) := by
  unfold Scope.allocate
  split <;> infer_instance

instance (array : AllocId) (expected? : Option TypeId) (value : Operand) :
    RunDrifts (scope.addElement span array expected? value) := by
  unfold addElement
  refine .seq inferInstance fun type => ?_
  split
  · infer_instance
  · refine .seq inferInstance fun graph => ?_
    split <;> infer_instance

instance [∀ target types, Drifts (scope.analyst target types)] (method : String)
    (target : DefId) (arguments : List Operand) :
    RunDrifts (scope.call span method target arguments) := by
  unfold Scope.call
  infer_instance

variable [∀ target types, Drifts (scope.analyst target types)]

theorem drifts_rules : Rules (fun _ : Unit => scope) fun step => RunDrifts (step ()) where
  pure _ := inferInstance
  seq := .seq
  reject _ := inferInstance
  setLocal _ _ := inferInstance
  allocateArray := inferInstance
  resolve _ := inferInstance
  this _ := inferInstance
  name _ _ := inferInstance
  read _ _ _ := inferInstance
  write _ _ _ _ := inferInstance
  dispatch _ _ _ := inferInstance
  resolveCall _ _ := inferInstance
  allocate _ _ := inferInstance
  addElement _ _ _ _ := inferInstance
  call _ _ _ _ := inferInstance

instance (expr : Expr) : RunDrifts (scope.evaluate expr) := scope.drifts_rules.evaluate expr

instance (exprs : List Expr) : RunDrifts (scope.evaluateAll exprs) :=
  scope.drifts_rules.evaluateAll exprs

instance (array : AllocId) (expected? : Option TypeId) (exprs : List Expr) :
    RunDrifts (scope.evaluateElements array expected? exprs) :=
  scope.drifts_rules.evaluateElements array expected? exprs

instance (body : List Expr) : RunDrifts (scope.evaluateBody body) :=
  scope.drifts_rules.evaluateBody body

end Scope

/-! ## Analyses -/

/-- Finishing an analysis leaves the answers alone that are there. -/
theorem Memo.mem_answerFirst_of_refused {accepts : MemoEntry α → Bool} {answer : α}
    {entries : List (MemoEntry α)} {entry : MemoEntry α} (hmem : entry ∈ entries)
    (hrefused : accepts entry = false) : entry ∈ answerFirst accepts answer entries := by
  induction entries with
  | nil => simp at hmem
  | cons first rest ih =>
    rw [answerFirst]
    rcases List.mem_cons.mp hmem with rfl | hmem
    · rw [if_neg (by simp [hrefused])]
      exact List.mem_cons_self
    · split
      · exact List.mem_cons_of_mem _ hmem
      · exact List.mem_cons_of_mem _ (ih hmem)

theorem Memo.isRunningFor_of_done {graph : TypeGraph} {key : List (Option Sketch)}
    {arguments : List TypeId} {entry : MemoEntry α} {answer : α}
    (hdone : entry.progress = .done answer) : isRunningFor graph key arguments entry = false := by
  simp [isRunningFor, hdone, Progress.isRunning]

/-- A change of a memo that keeps the answers. -/
theorem drifts_withMemo (target : DefId) {change : TypeGraph → Memo SummaryId → α × Memo SummaryId}
    (hkeeps : ∀ graph memo entry id, entry ∈ memo.entries → entry.progress = .done id →
      entry ∈ (change graph memo).2.entries) : Drifts (withMemo target change) where
  grows knowledge := by
    cases hmemo : knowledge.memos[target.index]? with
    | none =>
      rw [withMemo_eq_error hmemo]
      exact Knowledge.Grows.refl knowledge
    | some memo =>
      rw [withMemo_eq hmemo]
      refine ⟨.refl knowledge.graph, fun _ _ hsummary => hsummary, ?_⟩
      intro other entry id hentry hdone
      refine (Knowledge.hasEntry_setMemo_iff hmemo _).mpr ?_
      by_cases heq : other = target
      · subst heq
        have hmem := (Knowledge.hasEntry_iff_mem hmemo).mp hentry
        exact Or.inl ⟨rfl, hkeeps knowledge.graph memo entry id hmem hdone⟩
      · exact Or.inr ⟨heq, hentry⟩

instance (step : Knowing α) [hstep : Drifts step] : Drifts (observe step) where
  grows knowledge := by
    have hdrift := hstep.grows knowledge
    unfold observe
    cases hresult : step knowledge <;> rw [hresult] at hdrift <;> exact hdrift

instance : Drifts (get : Knowing Knowledge) := ⟨fun knowledge => .refl knowledge⟩

instance (summary : Summary) :
    Drifts (modifyGet (Knowledge.addSummary summary) : Knowing SummaryId) :=
  ⟨fun knowledge => Knowledge.grows_addSummary knowledge summary⟩

section Definitions

variable (target : DefId) (arguments : List TypeId)

instance : Drifts (withMemo target fun graph memo => memo.lookup graph arguments) :=
  drifts_withMemo target fun _ _ _ _ hmem _ => hmem

instance : Drifts (withMemo target fun graph memo => ((), memo.start graph arguments)) :=
  drifts_withMemo target fun _ _ _ _ hmem _ => List.mem_append_left _ hmem

instance (id : SummaryId) :
    Drifts (withMemo target fun graph memo => ((), memo.finish graph arguments id)) :=
  drifts_withMemo target fun _ _ _ _ hmem hdone =>
    Memo.mem_answerFirst_of_refused hmem (Memo.isRunningFor_of_done hdone)

instance : Drifts (withMemo target fun graph memo => ((), memo.abort graph arguments)) :=
  drifts_withMemo target fun _ _ _ _ hmem hdone =>
    List.mem_filter.mpr ⟨hmem, by rw [Memo.isRunningFor_of_done hdone, Bool.not_false]⟩

end Definitions

instance (analyst : Analyst) [∀ target types, Drifts (analyst target types)]
    (definition : Definition) (signature : Signature) :
    Drifts (summarize analyst declarations definition signature) := by
  unfold summarize
  infer_instance

instance (limit room : Nat) (target : DefId) (arguments : List TypeId) :
    Drifts (analyze declarations limit room target arguments) := by
  induction room using Nat.strongRecOn generalizing target arguments with
  | ind room ih =>
    unfold analyze
    refine .seq inferInstance fun definition => ?_
    dsimp only
    split
    · infer_instance
    · refine .seq inferInstance fun progress? => ?_
      split
      · infer_instance
      · infer_instance
      · cases room with
        | zero => infer_instance
        | succ room =>
          have hcallees (target : DefId) (types : List TypeId) :
              Drifts (analyze declarations limit room target types) :=
            ih room (Nat.lt_succ_self room) target types
          refine .seq inferInstance fun _ => .seq inferInstance fun outcome => ?_
          split <;> infer_instance

end ShapeFlow
