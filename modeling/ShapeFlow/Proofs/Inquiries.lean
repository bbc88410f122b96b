import ShapeFlow.Proofs.BodyDrift

/-!
# What a body asks

The analysis of a body uses its analyst in one way only: it asks for the summary of a
definition under argument types, goes on from the answer, and gives up if there is none.  An
`Inquiry` is such a computation with the analyst left open, so the same inquiry can be run with
any analyst.  Every body has one (`exists_inquiry`), and between two questions of a body only
types are added (`Inquiry.Steady`).
-/

namespace ShapeFlow

/-- What an analyst is asked for: a definition and argument types. -/
structure Task where
  target : DefId
  arguments : List TypeId
deriving DecidableEq

/-- The same knowledge with more types. -/
def Knowledge.Extends (knowledge later : Knowledge) : Prop :=
  ∃ graph, knowledge.graph.Grows graph ∧ later = { knowledge with graph }

theorem Knowledge.Extends.refl (knowledge : Knowledge) : knowledge.Extends knowledge :=
  ⟨knowledge.graph, .refl _, rfl⟩

theorem Knowledge.Extends.trans {first second third : Knowledge} (hfirst : first.Extends second)
    (hsecond : second.Extends third) : first.Extends third := by
  obtain ⟨graph, hgrows, rfl⟩ := hfirst
  obtain ⟨graph', hgrows', rfl⟩ := hsecond
  exact ⟨graph', hgrows.trans hgrows', rfl⟩

theorem Knowledge.Extends.grows {knowledge later : Knowledge} (hextends : knowledge.Extends later) :
    knowledge.Grows later := by
  obtain ⟨graph, hgrows, rfl⟩ := hextends
  exact .of_graph hgrows

/-- A computation that asks an analyst for summaries. -/
inductive Inquiry (α : Type) where
  | ends (outcome : EStateM.Result Failure Knowledge α)
  | asks (task : Task) (knowledge : Knowledge) (next : SummaryId → Knowledge → Inquiry α)

namespace Inquiry

variable {α β : Type}

/-- What the inquiry comes to with an analyst. -/
def run (analyst : Analyst) : Inquiry α → EStateM.Result Failure Knowledge α
  | ends outcome => outcome
  | asks task knowledge next =>
    match analyst task.target task.arguments knowledge with
    | .ok id later => (next id later).run analyst
    | .error failure later => .error failure later

/-- Go on when the first inquiry has succeeded. -/
def bind (next : α → Knowledge → Inquiry β) : Inquiry α → Inquiry β
  | ends (.ok value later) => next value later
  | ends (.error failure later) => ends (.error failure later)
  | asks task knowledge rest => asks task knowledge fun id later => (rest id later).bind next

theorem run_bind (analyst : Analyst) (next : α → Knowledge → Inquiry β) (inquiry : Inquiry α) :
    (inquiry.bind next).run analyst =
      match inquiry.run analyst with
      | .ok value later => (next value later).run analyst
      | .error failure later => .error failure later := by
  induction inquiry with
  | ends outcome => cases outcome <;> rfl
  | asks task knowledge rest ih =>
    rw [bind, run, run]
    cases analyst task.target task.arguments knowledge with
    | ok id later => exact ih id later
    | error failure later => rfl

/-- The questions that are put to an analyst, each with what is known when it is put. -/
def questions (analyst : Analyst) : Inquiry α → List (Task × Knowledge)
  | ends _ => []
  | asks task knowledge next =>
    (task, knowledge) ::
      match analyst task.target task.arguments knowledge with
      | .ok id later => (next id later).questions analyst
      | .error _ _ => []

/-- Another analyst that refuses one of the questions, and answers the others as before, has the
last word. -/
theorem run_of_refused {analyst other : Analyst} {inquiry : Inquiry α} {task : Task}
    {knowledge later : Knowledge} {failure : Failure}
    (hasked : (task, knowledge) ∈ inquiry.questions analyst)
    (hothers : ∀ (question : Task) known, (question, known) ≠ (task, knowledge) →
      other question.target question.arguments known =
        analyst question.target question.arguments known)
    (hrefused : other task.target task.arguments knowledge = .error failure later) :
    inquiry.run other = .error failure later := by
  induction inquiry with
  | ends outcome => exact absurd hasked List.not_mem_nil
  | asks first known next ih =>
    rw [questions] at hasked
    by_cases heq : (first, known) = (task, knowledge)
    · obtain ⟨rfl, rfl⟩ := Prod.mk.inj heq
      rw [run, hrefused]
    · rw [run, hothers first known heq]
      have hrest := (List.mem_cons.mp hasked).resolve_left (Ne.symm heq)
      cases hanswer : analyst first.target first.arguments known with
      | ok id learned =>
        rw [hanswer] at hrest
        exact ih id learned hrest
      | error failed learned =>
        rw [hanswer] at hrest
        exact absurd hrest List.not_mem_nil

/-- Another analyst that answers all questions as before comes to the same outcome. -/
theorem run_congr {analyst other : Analyst} {inquiry : Inquiry α}
    (hsame : ∀ task known, (task, known) ∈ inquiry.questions analyst →
      other task.target task.arguments known = analyst task.target task.arguments known) :
    inquiry.run other = inquiry.run analyst := by
  induction inquiry with
  | ends outcome => rfl
  | asks task knowledge next ih =>
    have hfirst := hsame task knowledge (by
      rw [questions]
      exact List.mem_cons_self)
    rw [run, run, hfirst]
    cases hanswer : analyst task.target task.arguments knowledge with
    | error failure later => rfl
    | ok id later =>
      refine ih id later fun question known hmem => hsame question known ?_
      rw [questions, hanswer]
      exact List.mem_cons_of_mem _ hmem

/-- Up to the first question, and from each answer to the next question, only types are added. -/
def Steady : Knowledge → Inquiry α → Prop
  | earlier, ends outcome => earlier.Extends (endOf outcome)
  | earlier, asks _ knowledge next =>
    earlier.Extends knowledge ∧ ∀ id later, (next id later).Steady later

theorem Steady.after {first second : Knowledge} {inquiry : Inquiry α}
    (hsteady : inquiry.Steady second) (hextends : first.Extends second) :
    inquiry.Steady first := by
  cases inquiry with
  | ends outcome => exact hextends.trans hsteady
  | asks task knowledge next => exact ⟨hextends.trans hsteady.1, hsteady.2⟩

theorem Steady.bind {earlier : Knowledge} {inquiry : Inquiry α} {next : α → Knowledge → Inquiry β}
    (hsteady : inquiry.Steady earlier) (hnext : ∀ value later, (next value later).Steady later) :
    (inquiry.bind next).Steady earlier := by
  induction inquiry generalizing earlier with
  | ends outcome =>
    cases outcome with
    | ok value later => exact (hnext value later).after hsteady
    | error failure later => exact hsteady
  | asks task knowledge rest ih =>
    exact ⟨hsteady.1, fun id later => ih id later (hsteady.2 id later)⟩

/-- What stays true when types are added and when a question is answered or refused, stays true
to the end. -/
theorem Steady.keeps {holds : Knowledge → Prop} {analyst : Analyst} {earlier : Knowledge}
    {inquiry : Inquiry α} (hsteady : inquiry.Steady earlier)
    (hextends : ∀ known later, known.Extends later → holds known → holds later)
    (hanswers : ∀ task known, (task, known) ∈ inquiry.questions analyst → holds known →
      holds (endOf (analyst task.target task.arguments known)))
    (hearlier : holds earlier) : holds (endOf (inquiry.run analyst)) := by
  induction inquiry generalizing earlier with
  | ends outcome => exact hextends earlier _ hsteady hearlier
  | asks task knowledge next ih =>
    simp only [questions, List.mem_cons] at hanswers
    have hanswered := hanswers task knowledge (.inl rfl)
      (hextends earlier knowledge hsteady.1 hearlier)
    rw [run]
    cases hanswer : analyst task.target task.arguments knowledge with
    | error failure later =>
      rw [hanswer] at hanswered
      exact hanswered
    | ok id later =>
      rw [hanswer] at hanswers hanswered
      exact ih id later (hsteady.2 id later) (fun question known hmem =>
        hanswers question known (.inr hmem)) hanswered

end Inquiry

variable {α β ι : Type} {declarations : Declarations} {span : Span}

/-- The step of a body uses its analyst to ask, and only adds types besides. -/
class Inquires (step : Analyst → Body α) : Prop where
  course : ∀ frame knowledge, ∃ inquiry : Inquiry (α × Frame), inquiry.Steady knowledge ∧
    ∀ analyst, step analyst frame knowledge = inquiry.run analyst

namespace Inquires

/-- A step that asks nothing. -/
theorem still {step : Body α}
    (hstep : ∀ frame (knowledge : Knowledge), knowledge.Extends (endOf (step frame knowledge))) :
    Inquires fun _ => step :=
  ⟨fun frame knowledge => ⟨.ends (step frame knowledge), hstep frame knowledge, fun _ => rfl⟩⟩

instance framed (step : Framed α) [hstep : RunDrifts step] :
    Inquires fun _ => (liftM step : Body α) := by
  refine still fun frame knowledge => ?_
  have hdrift := (hstep.run frame).grows knowledge.graph
  show knowledge.Extends (endOf (Building.within (step frame) knowledge))
  unfold Building.within
  cases hresult : step frame knowledge.graph <;> rw [hresult] at hdrift <;>
    exact ⟨_, hdrift, rfl⟩

instance pure (value : α) : Inquires fun _ => (Pure.pure value : Body α) :=
  still fun _ knowledge => .refl knowledge

instance getKnowledge : Inquires fun _ => (getThe Knowledge : Body Knowledge) :=
  still fun _ knowledge => .refl knowledge

instance modifyFrame (change : Frame → Frame) :
    Inquires fun _ => (modifyThe Frame change : Body PUnit) :=
  still fun _ knowledge => .refl knowledge

instance modifyGetFrame (change : Frame → α × Frame) :
    Inquires fun _ => (modifyGetThe Frame change : Body α) :=
  still fun _ knowledge => .refl knowledge

instance reject (cause : Cause) : Inquires fun _ => (ShapeFlow.reject cause : Body α) :=
  still fun _ knowledge => .refl knowledge

instance keep (step : Checked α) : Inquires fun _ => (liftM step : Body α) := by
  refine still fun frame knowledge => ?_
  cases step <;> exact .refl knowledge

/-- The question itself. -/
instance ask (target : DefId) (types : List TypeId) :
    Inquires fun analyst => (liftM (analyst target types) : Body SummaryId) where
  course frame knowledge := by
    refine ⟨.asks ⟨target, types⟩ knowledge fun id later => .ends (.ok (id, frame) later),
      ⟨.refl knowledge, fun id later => .refl later⟩, fun analyst => ?_⟩
    simp only [liftM, monadLift, MonadLift.monadLift, StateT.lift, Bind.bind, EStateM.bind,
      Inquiry.run]
    cases analyst target types knowledge <;> rfl

theorem seq {step : Analyst → Body α} {next : Analyst → α → Body β} (hstep : Inquires step)
    (hnext : ∀ value, Inquires fun analyst => next analyst value) :
    Inquires fun analyst => step analyst >>= next analyst where
  course frame knowledge := by
    obtain ⟨inquiry, hsteady, hrun⟩ := hstep.course frame knowledge
    choose rest hrests hrest using fun (result : α × Frame) (later : Knowledge) =>
      (hnext result.1).course result.2 later
    refine ⟨inquiry.bind rest, hsteady.bind hrests, fun analyst => ?_⟩
    rw [Inquiry.run_bind, ← hrun]
    simp only [Bind.bind, StateT.bind, EStateM.bind]
    cases step analyst frame knowledge with
    | ok result later => exact hrest result later analyst
    | error failure later => rfl

theorem mapM {step : Analyst → ι → Body α} (items : List ι)
    (hstep : ∀ item, Inquires fun analyst => step analyst item) :
    Inquires fun analyst => items.mapM (step analyst) := by
  induction items with
  | nil => exact pure []
  | cons item rest ih =>
    simp only [List.mapM_cons]
    exact .seq (hstep item) fun value => .seq ih fun values => pure (value :: values)

end Inquires

instance (method : String) (target : DefId) (arguments : List Operand) :
    Inquires fun analyst => call analyst declarations span method target arguments := by
  unfold call
  refine .seq (.mapM arguments fun argument => .framed _) fun arguments =>
    .seq (.mapM arguments fun argument => .framed _) fun types =>
    .seq (.ask target types) fun id => .seq .getKnowledge fun knowledge =>
      .seq (.keep _) fun summary => .seq ?_ fun result? => ?_
  · cases summary.result <;> exact .framed _
  · exact .seq (.framed _) fun operand => .seq (.framed _) fun value =>
      .seq (.modifyFrame _) fun _ => .pure operand

namespace Scope

variable (scope : Scope)

/-- The same scope with another analyst. -/
abbrev asking (analyst : Analyst) : Scope := { scope with analyst }

-- Only the calls of a scope look at its analyst.
theorem inquires_rules : Rules scope.asking Inquires where
  pure := .pure
  seq := .seq
  reject := .reject
  setLocal _ _ := .modifyFrame _
  allocateArray := .modifyGetFrame _
  resolve _ := .framed _
  this span := .framed (scope.this span)
  name span name := .framed (scope.name span name)
  read span base selector := .framed (scope.read span base selector)
  write span base selector value := .framed (scope.write span base selector value)
  dispatch span receiver method := .framed (scope.dispatch span receiver method)
  resolveCall span name := .framed (scope.resolveCall span name)
  allocate span className := .framed (scope.allocate span className)
  addElement span array expected? value := .framed (scope.addElement span array expected? value)
  call _ method target arguments := by
    unfold Scope.call
    infer_instance

end Scope

/-- The analysis of a body is an inquiry, whoever the analyst is. -/
theorem exists_inquiry (declarations : Declarations) (definition : Definition)
    (signature : Signature) (knowledge : Knowledge) :
    ∃ inquiry : Inquiry Summary, inquiry.Steady knowledge ∧
      ∀ analyst, summarize analyst declarations definition signature knowledge =
        inquiry.run analyst := by
  let scope : Scope := ⟨declarations, definition, default⟩
  let express : Operand → Framed Value :=
    Frame.expressResult declarations definition.decl.span
  have hbody : Inquires fun analyst =>
      (scope.asking analyst).evaluateBody definition.decl.body >>= fun operand =>
        (liftM (express operand) : Body Value) :=
    .seq (scope.inquires_rules.evaluateBody _) fun operand => .framed _
  obtain ⟨inquiry, hsteady, hrun⟩ := hbody.course { slots := signature.arguments } knowledge
  refine ⟨inquiry.bind fun result later => .ends (.ok ⟨signature, result.1, result.2.writes,
    result.2.calls⟩ later), hsteady.bind fun _ later => .refl later, fun analyst => ?_⟩
  rw [Inquiry.run_bind, ← hrun]
  unfold summarize
  simp only [Bind.bind, EStateM.bind, StateT.run]
  cases StateT.bind ((scope.asking analyst).evaluateBody definition.decl.body)
    (fun operand => liftM (express operand)) { slots := signature.arguments } knowledge <;> rfl

/-- The inquiry of a body under a signature. -/
noncomputable def inquiryOf (declarations : Declarations) (definition : Definition)
    (signature : Signature) (knowledge : Knowledge) : Inquiry Summary :=
  (exists_inquiry declarations definition signature knowledge).choose

section Questions

variable (definition : Definition) (signature : Signature) (knowledge : Knowledge)

theorem inquiryOf_steady :
    (inquiryOf declarations definition signature knowledge).Steady knowledge :=
  (exists_inquiry declarations definition signature knowledge).choose_spec.1

theorem run_inquiryOf (analyst : Analyst) :
    (inquiryOf declarations definition signature knowledge).run analyst =
      summarize analyst declarations definition signature knowledge :=
  ((exists_inquiry declarations definition signature knowledge).choose_spec.2 analyst).symm

variable {definition signature knowledge}

open Classical in
/-- What a body asks makes sense if its analyst does: otherwise an analyst that refuses the
question would make sense too, and the body would not end as bodies with such analysts do. -/
theorem sound_of_mem_questions {analyst : Analyst} (hanalyst : analyst.Sound declarations)
    (hsound : knowledge.Sound declarations)
    (harguments : ∀ type ∈ signature.arguments, knowledge.graph.Has type) {task : Task}
    {later : Knowledge}
    (hasked : (task, later) ∈
      (inquiryOf declarations definition signature knowledge).questions analyst) :
    knowledge.Learns declarations later ∧ later.Sound declarations ∧
      ∀ type ∈ task.arguments, later.graph.Has type := by
  let refusing (failure : Failure) : Analyst := fun target types known =>
    if (⟨target, types⟩, known) = (task, later) then .error failure later
    else analyst target types known
  have hends : ∀ failure, (refusing failure).Sound declarations →
      (learning declarations).Ends knowledge
        (.error failure later : EStateM.Result Failure Knowledge Summary) fun _ _ => True := by
    intro failure hrefusing
    have hrun : summarize (refusing failure) declarations definition signature knowledge =
        .error failure later := by
      rw [← run_inquiryOf]
      exact Inquiry.run_of_refused hasked (fun question known hne => if_neg hne) (if_pos rfl)
    rw [← hrun]
    exact (summarize_ends hrefusing hsound definition signature harguments).mono
      fun _ _ _ _ => trivial
  have hquestion : later.Sound declarations ∧ ∀ type ∈ task.arguments, later.graph.Has type := by
    -- An analyst may do anything when it is asked what makes no sense, even blame a slot.
    by_contra hbad
    let blame : Failure := .rejected (.cause (.unboundSlot "" 0 {}))
    have hharmless : blame.Harmless := by
      refine (hends blame fun target types known hknown htypes => ?_).2.2
      rw [show refusing blame target types known = analyst target types known from
        if_neg fun heq => hbad ?_]
      · exact hanalyst target types known hknown htypes
      · obtain ⟨rfl, rfl⟩ := Prod.mk.inj heq
        exact ⟨hknown, htypes⟩
    exact hharmless "" 0 {} rfl
  refine ⟨(hends (.broken (.definition task.target)) fun target types known hknown htypes => ?_).1,
    hquestion⟩
  by_cases heq : ((⟨target, types⟩ : Task), known) = (task, later)
  · rw [show refusing (.broken (.definition task.target)) target types known =
      .error (.broken (.definition task.target)) later from if_pos heq]
    obtain ⟨rfl, rfl⟩ := Prod.mk.inj heq
    exact ⟨.refl declarations known, hknown, trivial⟩
  · rw [show refusing (.broken (.definition task.target)) target types known =
      analyst target types known from if_neg heq]
    exact hanalyst target types known hknown htypes

open Classical in
/-- The analyst, if what it is asked makes sense. -/
noncomputable def Analyst.guarded (declarations : Declarations) (analyst : Analyst) : Analyst :=
  fun target types known =>
    if known.Sound declarations ∧ ∀ type ∈ types, known.graph.Has type then
      analyst target types known
    else .error (.broken (.definition target)) known

/-- What a guarded analyst answers is what the analyst answers to a question that makes sense. -/
theorem Analyst.guarded_eq_ok {analyst : Analyst} {target : DefId} {types : List TypeId}
    {known later : Knowledge} {id : SummaryId}
    (hanswer : analyst.guarded declarations target types known = .ok id later) :
    known.Sound declarations ∧ (∀ type ∈ types, known.graph.Has type) ∧
      analyst target types known = .ok id later := by
  unfold guarded at hanswer
  split at hanswer
  · rename_i hsense
    exact ⟨hsense.1, hsense.2, hanswer⟩
  · exact nomatch hanswer

/-- A body asks only what makes sense, so it does not notice the guard. -/
theorem summarize_guarded {analyst : Analyst} (hanalyst : analyst.Sound declarations)
    (hsound : knowledge.Sound declarations)
    (harguments : ∀ type ∈ signature.arguments, knowledge.graph.Has type) :
    summarize (analyst.guarded declarations) declarations definition signature knowledge =
      summarize analyst declarations definition signature knowledge := by
  rw [← run_inquiryOf, ← run_inquiryOf]
  refine Inquiry.run_congr fun task known hasked => if_pos ?_
  obtain ⟨-, hknown, htypes⟩ := sound_of_mem_questions hanalyst hsound harguments hasked
  exact ⟨hknown, htypes⟩

end Questions

end ShapeFlow
