import ShapeFlow.Proofs.BlurredFrames

/-!
# Blurred bodies

The analysis of a body hands the spans of its expressions on to the steps on frames and to the
calls that it records, and it never looks at an integer.  So the blurred body comes to the blurred
outcome of the body, if its analyst does so (`summarize_blurs`).

A summary that is looked up may hold places as well: those of the calls of the callee.  Nothing is
done with them.
-/

namespace ShapeFlow

open Blurry (blurred)

variable {α β : Type} {excused : Failure → Prop}

/-! ## Steps of bodies -/

instance (step step' : Framed α) [hstep : RunBlurs excused step step'] :
    RunBlurs excused (liftM step : Body α) (liftM step') where
  run frame knowledge := by
    have hrun := hstep.run frame knowledge.graph
    show Building.within (step' (blurred frame)) (blurred knowledge) =
      blurOutcome (Prod.map id blurred) (Building.within (step frame) knowledge)
    unfold Building.within
    rw [show step' (blurred frame) (blurred knowledge).graph = _ from hrun]
    cases step frame knowledge.graph <;> rfl
  excuses frame knowledge failure later hfailed := by
    change Building.within (step frame) knowledge = _ at hfailed
    unfold Building.within at hfailed
    cases hresult : step frame knowledge.graph with
    | ok result grown =>
      rw [hresult] at hfailed
      exact nomatch hfailed
    | error reason grown =>
      rw [hresult] at hfailed
      cases hfailed
      exact hstep.excuses frame knowledge.graph _ _ hresult

variable [ExcusesBare excused] {declarations : Declarations} {span : Span}

namespace Binding

variable (binding : Binding)

/-- The call without its place. -/
def blur : Binding := { binding with declarations := binding.declarations.blur, span := {} }

instance (slot : Nat) : RunBlurs excused (binding.slot slot) (binding.blur.slot slot) := by
  unfold Binding.slot
  have hslot : binding.blur.slot? slot = binding.slot? slot := by cases slot <;> rfl
  rw [hslot]
  cases binding.slot? slot with
  | none => exact .reject _
  | some operand => infer_instance

instance (place : AccessPath) :
    RunBlurs excused (binding.place place) (binding.blur.place place) := by
  unfold Binding.place
  exact .seq inferInstance fun base => inferInstanceAs (RunBlurs excused
    (reading fun graph => Frame.readAlong binding.declarations binding.span graph base
      place.selectors)
    (reading fun graph => Frame.readAlong binding.declarations.blur {} graph base
      place.selectors))

instance (value : Value) : RunBlurs excused (binding.value value) (binding.blur.value value) := by
  cases value <;> unfold Binding.value <;> infer_instance

instance (write : Write) : RunBlurs excused (binding.write write) (binding.blur.write write) := by
  unfold Binding.write
  exact .seq inferInstance fun base => .seq inferInstance fun value => inferInstanceAs
    (RunBlurs excused
      (Frame.writeAlong binding.declarations binding.span base write.target.selectors value)
      (Frame.writeAlong binding.declarations.blur {} base write.target.selectors value))

instance (result : Value) :
    RunBlurs excused (binding.result result) (binding.blur.result result) := by
  unfold Binding.result
  show RunBlurs excused _ (match binding.result? with
    | some id => inspect fun _ frame => frame.resolve (.fresh id)
    | none => binding.blur.value result)
  cases binding.result? <;> infer_instance

instance (summary : Summary) :
    RunBlurs excused (binding.replay summary) (binding.blur.replay summary.blur) := by
  unfold Binding.replay
  exact .seq (.forM _ _ summary.writes) fun _ => inferInstanceAs
    (RunBlurs excused (binding.result summary.result) (binding.blur.result summary.result))

end Binding

/-- A known summary is found without its places. -/
theorem Knowledge.summary_blur (knowledge : Knowledge) (id : SummaryId) :
    (blurred knowledge).summary id =
      ((knowledge.summary id).map Summary.blur).mapError Failure.blur := by
  have hblurred : (blurred knowledge).summaries[id.index]? =
      knowledge.summaries[id.index]?.map Summary.blur := Array.getElem?_map
  rw [summary, summary, hblurred]
  cases knowledge.summaries[id.index]? <;> rfl

/-- The look-up of a summary fails only where there is no such summary. -/
theorem Knowledge.bare_of_summary_eq_error {knowledge : Knowledge} {id : SummaryId}
    {failure : Failure} (hfailed : knowledge.summary id = .error failure) : failure.Bare := by
  rw [summary] at hfailed
  cases hsummary : knowledge.summaries[id.index]? with
  | none =>
    rw [hsummary] at hfailed
    cases hfailed
    trivial
  | some found =>
    rw [hsummary] at hfailed
    exact nomatch hfailed

namespace RunBlurs

/-- What is done with a summary is done with the blurred one as well. -/
theorem summaryBind (knowledge : Knowledge) (id : SummaryId) {next next' : Summary → Body β}
    (hnext : ∀ summary, RunBlurs excused (next summary) (next' summary.blur)) :
    RunBlurs excused (liftM (knowledge.summary id) >>= next)
      (liftM ((blurred knowledge).summary id) >>= next') where
  run frame later := by
    rw [knowledge.summary_blur]
    cases knowledge.summary id with
    | ok summary => exact (hnext summary).run frame later
    | error failure => rfl
  excuses frame state failure later hfailed := by
    cases hsummary : knowledge.summary id with
    | ok summary =>
      rw [hsummary] at hfailed
      exact (hnext summary).excuses frame state failure later hfailed
    | error reason =>
      rw [hsummary] at hfailed
      cases hfailed
      exact ExcusesBare.bare _ (Knowledge.bare_of_summary_eq_error hsummary)

end RunBlurs

section Calls

variable (analyst analyst' : Analyst)
  [∀ target types, Blurs excused (analyst target types) (analyst' target types)]

instance (method : String) (target : DefId) (arguments : List Operand) :
    RunBlurs excused (call analyst declarations span method target arguments)
      (call analyst' declarations.blur {} method target arguments) := by
  unfold call
  refine .seq inferInstance fun arguments => .seq inferInstance fun types =>
    .seq inferInstance fun id => @RunBlurs.getBaseBind _ _ _ _ _ _ _ _ fun knowledge =>
      .summaryBind knowledge id fun summary => .seq ?_ fun result? => ?_
  · show RunBlurs excused _ (liftM (match summary.result with
      | .type type => reading fun graph => Frame.expand? graph type
      | .path _ => pure none : Framed (Option AllocId)))
    cases summary.result <;> infer_instance
  · let binding : Binding := ⟨declarations, span, method, arguments, result?⟩
    refine .seq (inferInstanceAs (RunBlurs excused
      (liftM (binding.replay summary) : Body Operand)
      (liftM (binding.blur.replay summary.blur)))) fun operand =>
        .seq inferInstance fun value => .seq (.modify fun frame => ?_) fun _ => inferInstance
    simp [blurred, Frame.blur, Frame.recordCall, CallRecord.blur, Summary.blur]

end Calls

/-! ## Bodies -/

namespace Scope

variable (scope : Scope)

/-- The scope of the blurred body, with another analyst. -/
def blur (analyst : Analyst) : Scope := ⟨scope.declarations.blur, scope.definition.blur, analyst⟩

variable (analyst : Analyst)

instance : RunBlurs excused (scope.this span) ((scope.blur analyst).this {}) := by
  show RunBlurs excused _ (if scope.definition.isMethod then
    inspect fun graph frame => frame.slotOperand graph 1 else reject (.thisOutsideMethod {}))
  unfold Scope.this
  split
  · infer_instance
  · exact .reject _

instance (name : String) :
    RunBlurs excused (scope.name span name) ((scope.blur analyst).name {} name) := by
  unfold Scope.name
  refine @RunBlurs.getBind _ _ _ _ _ _ _ _ fun frame => ?_
  have hlocal : (blurred frame).locals.get? name = frame.locals.get? name := rfl
  have hslot : (scope.blur analyst).definition.slotOf? name = scope.definition.slotOf? name := rfl
  rw [hlocal, hslot]
  cases frame.locals.get? name with
  | some operand => infer_instance
  | none =>
    cases scope.definition.slotOf? name with
    | some slot => infer_instance
    | none => exact .reject _

instance (base : Operand) (selector : Selector) :
    RunBlurs excused (scope.read span base selector)
      ((scope.blur analyst).read {} base selector) := by
  unfold Scope.read
  exact inferInstanceAs (RunBlurs excused
    (reading fun graph => Frame.read scope.declarations span graph base selector)
    (reading fun graph => Frame.read scope.declarations.blur {} graph base selector))

instance (base : Operand) (selector : Selector) (value : Operand) :
    RunBlurs excused (scope.write span base selector value)
      ((scope.blur analyst).write {} base selector value) :=
  inferInstanceAs (RunBlurs excused (Frame.write scope.declarations span base selector value)
    (Frame.write scope.declarations.blur {} base selector value))

instance (receiver : Operand) (method : String) :
    RunBlurs excused (scope.dispatch span receiver method)
      ((scope.blur analyst).dispatch {} receiver method) := by
  unfold dispatch
  refine .seq (inferInstanceAs (RunBlurs excused
    (inspect fun graph frame => frame.classOf? scope.declarations graph span receiver)
    (inspect fun graph frame => frame.classOf? scope.declarations.blur graph {} receiver)))
      fun className? => ?_
  cases className? with
  | none => exact .reject _
  | some className =>
    have hmethod : (scope.blur analyst).declarations.method? className method =
      scope.declarations.method? className method := scope.declarations.method?_blur _ _
    dsimp only
    rw [hmethod]
    cases scope.declarations.method? className method with
    | none => exact .reject _
    | some target => infer_instance

instance (name : String) :
    RunBlurs excused (scope.resolveCall span name) ((scope.blur analyst).resolveCall {} name) := by
  unfold resolveCall
  have howner : ((scope.blur analyst).definition.owner?.bind fun owner =>
      (scope.blur analyst).declarations.method? owner name) =
        scope.definition.owner?.bind fun owner => scope.declarations.method? owner name := rfl
  have hfunction : (scope.blur analyst).declarations.function? name =
    scope.declarations.function? name := scope.declarations.function?_blur name
  rw [howner, hfunction]
  cases scope.definition.owner?.bind fun owner => scope.declarations.method? owner name with
  | some target => infer_instance
  | none =>
    cases scope.declarations.function? name with
    | some target => infer_instance
    | none => exact .reject _

instance (className : String) :
    RunBlurs excused (scope.allocate span className)
      ((scope.blur analyst).allocate {} className) := by
  unfold Scope.allocate
  have hclass : (scope.blur analyst).declarations.class? className =
    scope.declarations.class? className := scope.declarations.class?_blur className
  rw [hclass]
  cases scope.declarations.class? className with
  | none => exact .reject _
  | some info => exact .seq (.modifyGet fun _ => rfl) fun id => inferInstance

instance (array : AllocId) (expected? : Option TypeId) (value : Operand) :
    RunBlurs excused (scope.addElement span array expected? value)
      ((scope.blur analyst).addElement {} array expected? value) := by
  unfold addElement
  refine .seq (inferInstanceAs (RunBlurs excused
    (Frame.currentType scope.declarations span value)
    (Frame.currentType scope.declarations.blur {} value))) fun type => ?_
  cases expected? with
  | none => infer_instance
  | some expected =>
    refine @RunBlurs.getGraphBind _ _ _ _ _ _ fun graph => ?_
    split
    · infer_instance
    · exact .reject _

variable [∀ target types, Blurs excused (scope.analyst target types) (analyst target types)]

instance (method : String) (target : DefId) (arguments : List Operand) :
    RunBlurs excused (scope.call span method target arguments)
      ((scope.blur analyst).call {} method target arguments) :=
  inferInstanceAs (RunBlurs excused
    (ShapeFlow.call scope.analyst scope.declarations span method target arguments)
    (ShapeFlow.call analyst scope.declarations.blur {} method target arguments))

set_option linter.unusedSectionVars false in
mutual

theorem evaluate_blurs (expr : Expr) :
    RunBlurs excused (scope.evaluate expr) ((scope.blur analyst).evaluate expr.blur) := by
  cases expr with
  | integer span value =>
    simp only [Expr.blur, evaluate]
    exact .pure _
  | name span name =>
    simp only [Expr.blur, evaluate]
    infer_instance
  | this span =>
    simp only [Expr.blur, evaluate]
    infer_instance
  | ownField span name =>
    simp only [Expr.blur, evaluate]
    infer_instance
  | read span object selector =>
    simp only [Expr.blur, evaluate]
    exact .seq (evaluate_blurs object) fun object => inferInstance
  | create span className arguments =>
    simp only [Expr.blur, evaluate, Expr.length_blurAll, Expr.isEmpty_blurAll]
    refine .seq inferInstance fun result => ?_
    obtain ⟨id, setUp?⟩ := result
    cases setUp? with
    | some setUp =>
      exact .seq (evaluateAll_blurs arguments) fun arguments => .seq inferInstance fun _ =>
        inferInstance
    | none =>
      dsimp only
      split
      · infer_instance
      · exact .seq (.reject _) fun _ => inferInstance
  | allocate span className =>
    simp only [Expr.blur, evaluate]
    exact .seq inferInstance fun result => .pure _
  | array span elements =>
    simp only [Expr.blur, evaluate]
    exact .seq (.modifyGet fun _ => rfl) fun id =>
      .seq (evaluateElements_blurs id none elements) fun _ => .pure _
  | bind span name value =>
    simp only [Expr.blur, evaluate]
    exact .seq (evaluate_blurs value) fun value =>
      .seq (.modify fun _ => rfl) fun _ => .pure value
  | write span object selector value =>
    simp only [Expr.blur, evaluate]
    exact .seq (evaluate_blurs object) fun object => .seq (evaluate_blurs value) fun value =>
      inferInstance
  | send span object method arguments =>
    simp only [Expr.blur, evaluate]
    exact .seq (evaluate_blurs object) fun receiver => .seq inferInstance fun target =>
      .seq (evaluateAll_blurs arguments) fun arguments => inferInstance
  | apply span name arguments =>
    simp only [Expr.blur, evaluate]
    exact .seq inferInstance fun result => .seq (evaluateAll_blurs arguments) fun arguments =>
      inferInstance

theorem evaluateAll_blurs (exprs : List Expr) :
    RunBlurs excused (scope.evaluateAll exprs)
      ((scope.blur analyst).evaluateAll (Expr.blurAll exprs)) := by
  cases exprs with
  | nil =>
    simp only [Expr.blurAll, evaluateAll]
    exact .pure _
  | cons expr rest =>
    simp only [Expr.blurAll, evaluateAll]
    exact .seq (evaluate_blurs expr) fun operand => .seq (evaluateAll_blurs rest) fun operands =>
      .pure _

theorem evaluateElements_blurs (array : AllocId) (expected? : Option TypeId) (exprs : List Expr) :
    RunBlurs excused (scope.evaluateElements array expected? exprs)
      ((scope.blur analyst).evaluateElements array expected? (Expr.blurAll exprs)) := by
  cases exprs with
  | nil =>
    simp only [Expr.blurAll, evaluateElements]
    exact .pure _
  | cons expr rest =>
    simp only [Expr.blurAll, evaluateElements, Expr.span_blur]
    exact .seq (evaluate_blurs expr) fun operand => .seq inferInstance fun expected =>
      evaluateElements_blurs array (some expected) rest

end

instance (body : List Expr) :
    RunBlurs excused (scope.evaluateBody body)
      ((scope.blur analyst).evaluateBody (Expr.blurAll body)) := by
  have hfold (last : Operand) : RunBlurs excused
      (body.foldlM (fun _ expr => scope.evaluate expr) last)
      ((Expr.blurAll body).foldlM (fun _ expr => (scope.blur analyst).evaluate expr) last) := by
    induction body generalizing last with
    | nil =>
      rw [Expr.blurAll]
      exact .pure last
    | cons expr rest ih =>
      rw [Expr.blurAll, List.foldlM_cons, List.foldlM_cons]
      exact .seq (scope.evaluate_blurs analyst expr) ih
  exact hfold (.type TypeGraph.scalar)

end Scope

omit [ExcusesBare excused] in
/-- What is made of the end of a run is made of the blurred end of the other one as well. -/
theorem RunBlurs.ends {body body' : Body α} (hbody : RunBlurs excused body body') (frame : Frame)
    {told told' : α × Frame → β} {blur : β → β}
    (htold : ∀ value later, told' (value, blurred later) = blur (told (value, later)))
    (knowledge : Knowledge) :
    (body'.run (blurred frame) >>= fun result => Pure.pure (told' result)) (blurred knowledge) =
        blurOutcome blur ((body.run frame >>= fun result => Pure.pure (told result)) knowledge) ∧
      ∀ failure later, (body.run frame >>= fun result => Pure.pure (told result)) knowledge =
        .error failure later → excused failure := by
  have hrun := hbody.run frame knowledge
  have hexcuses := hbody.excuses frame knowledge
  simp only [Bind.bind, EStateM.bind, StateT.run, hrun]
  cases hresult : body frame knowledge with
  | ok result later =>
    refine ⟨congrArg (EStateM.Result.ok · (blurred later)) (htold result.1 result.2),
      fun _ _ hfailed => ?_⟩
    cases hfailed
  | error reason later =>
    refine ⟨rfl, fun failure _ hfailed => ?_⟩
    cases hfailed
    exact hexcuses _ _ hresult

variable (excused) in
/-- The summary of a blurred body is the blurred summary of the body. -/
theorem summarize_blurs (analyst analyst' : Analyst)
    [∀ target types, Blurs excused (analyst target types) (analyst' target types)]
    (definition : Definition) (signature : Signature) (knowledge : Knowledge) :
    summarize analyst' declarations.blur definition.blur signature (blurred knowledge) =
        blurOutcome Summary.blur (summarize analyst declarations definition signature knowledge) ∧
      ∀ failure later, summarize analyst declarations definition signature knowledge =
        .error failure later → excused failure := by
  let scope : Scope := ⟨declarations, definition, analyst⟩
  have hbody : RunBlurs excused
      (scope.evaluateBody definition.decl.body >>= fun operand =>
        (liftM (Frame.expressResult declarations definition.decl.span operand) : Body Value))
      ((scope.blur analyst').evaluateBody (Expr.blurAll definition.decl.body) >>= fun operand =>
        (liftM (Frame.expressResult declarations.blur {} operand) : Body Value)) :=
    .seq inferInstance fun _ => inferInstance
  unfold summarize
  exact hbody.ends { slots := signature.arguments } (fun _ _ => rfl) knowledge

end ShapeFlow
