import ShapeFlow.Proofs.BlurredRuns
import ShapeFlow.Proofs.DeclaredShapes
import ShapeFlow.Proofs.PublishedTypes

/-!
# Attribution of failures

A step of a body fails with a bare cause, and so does the analysis of a callee that is refused
before the body of the callee is entered.  When the analysis of the body ends, the cause is
attributed to its signature.  From then on the failure stays as it is: each body that is under
analysis ends with it, from the innermost one outwards, and each of their analyses returns it
(`Attribution`).
-/

namespace ShapeFlow

variable {declarations : Declarations} {limit room : Nat} {active : List Task} {task : Task}
  {knowledge later : Knowledge} {definition : Definition} {memo : Memo SummaryId}

/-! ## What a body fails with -/

/-- Where an inquiry fails, all its questions have been answered, or the last one has been refused,
which is what the inquiry comes to. -/
theorem Inquiry.answered_or_refused {α : Type} {analyst : Analyst} {inquiry : Inquiry α}
    {failure : Failure} (hrun : inquiry.run analyst = .error failure later) :
    (∀ question ∈ inquiry.questions analyst, ∃ id known,
      analyst question.1.target question.1.arguments question.2 = .ok id known) ∨
    ∃ earlier question, inquiry.questions analyst = earlier ++ [question] ∧
      analyst question.1.target question.1.arguments question.2 = .error failure later := by
  induction inquiry with
  | ends outcome => exact .inl (List.forall_mem_nil _)
  | asks task knowledge next ih =>
    rw [run] at hrun
    rw [questions]
    cases hanswer : analyst task.target task.arguments knowledge with
    | error reason known =>
      rw [hanswer] at hrun
      cases hrun
      exact .inr ⟨[], (task, knowledge), rfl, hanswer⟩
    | ok id known =>
      rw [hanswer] at hrun
      rcases ih id known hrun with hall | ⟨earlier, question, hquestions, hrefused⟩
      · exact .inl (List.forall_mem_cons.mpr ⟨⟨id, known, hanswer⟩, hall⟩)
      · refine .inr ⟨(task, knowledge) :: earlier, question, ?_, hrefused⟩
        dsimp only
        rw [hquestions, List.cons_append]

/-- The analyst, except that what it refuses for is not attributed to a signature. -/
def Analyst.curbed (analyst : Analyst) : Analyst := fun target types known =>
  match analyst target types known with
  | .ok id later => .ok id later
  | .error _ later => .error (.broken (.definition target)) later

instance (analyst analyst' : Analyst) (target : DefId) (types : List TypeId)
    [hanalyst : Blurs (fun _ => True) (analyst target types) (analyst' target types)] :
    Blurs Failure.Bare (analyst.curbed target types) (analyst'.curbed target types) where
  run known := by
    unfold Analyst.curbed
    rw [hanalyst.run]
    cases analyst target types known <;> rfl
  excuses known failure later hfailed := by
    unfold Analyst.curbed at hfailed
    split at hfailed
    · exact nomatch hfailed
    · cases hfailed
      trivial

/-- If all questions of a body are answered, it fails with a bare cause. -/
theorem bare_of_answered {signature : Signature} {failure : Failure}
    (hbody : summarize (analyze declarations limit room) declarations definition signature
      knowledge = .error failure later)
    (hanswered : ∀ question ∈ (inquiryOf declarations definition signature knowledge).questions
      (analyze declarations limit room), ∃ id known,
        analyze declarations limit room question.1.target question.1.arguments question.2 =
          .ok id known) :
    failure.Bare := by
  have hcurbed : summarize (Analyst.curbed (analyze declarations limit room)) declarations
      definition signature knowledge = .error failure later := by
    -- Where nothing is refused, the curb is not noticed.
    rw [← hbody, ← run_inquiryOf, ← run_inquiryOf]
    refine Inquiry.run_congr fun task known hasked => ?_
    obtain ⟨id, learned, hanswer⟩ := hanswered _ hasked
    unfold Analyst.curbed
    rw [hanswer]
  exact (summarize_blurs Failure.Bare _ (Analyst.curbed (analyze declarations.blur limit room))
    definition signature knowledge).2 failure later hcurbed

/-! ## The way out -/

/-- The analysis of the task is refused before any body is entered, for a cause that tells of the
task itself. -/
inductive Task.Refuses (declarations : Declarations) (limit : Nat) (task : Task)
    (knowledge : Knowledge) : Cause → Prop where
  | arity (definition : Definition)
    (hdefined : declarations.definition? task.target = some definition)
    (harity : definition.arity ≠ task.arguments.length) :
    Refuses declarations limit task knowledge
      (.arityMismatch definition.qualifiedName definition.arity task.arguments.length)
  | recursive (definition : Definition)
    (hdefined : declarations.definition? task.target = some definition) :
    Refuses declarations limit task knowledge (.recursiveSignature
      (knowledge.renderSignature ⟨definition.qualifiedName, task.arguments⟩))
  | exceeded (definition : Definition)
    (hdefined : declarations.definition? task.target = some definition) :
    Refuses declarations limit task knowledge (.depthExceeded
      (knowledge.renderSignature ⟨definition.qualifiedName, task.arguments⟩) limit)

/-- The last thing that happens before the body of the task fails for a cause: the body has been
entered, or a question has been answered, or refused for the cause. -/
inductive Event.Raises (task : Task) (cause : Cause) : Event → Prop where
  | begun : Raises task cause (.begun task)
  | answered (question : Task) (id : SummaryId) : Raises task cause (.returned question (.ok id))
  | refused (question : Task) :
    Raises task cause (.returned question (.error (.rejected (.cause cause))))

/-- The bodies of the tasks end one after the other, and each analysis returns the diagnostic. -/
def unwinding (diagnostic : Diagnostic) (tasks : List Task) : List Event :=
  tasks.flatMap fun task => [.ended task, .returned task (.error (.rejected diagnostic))]

/-- How the analysis of a task comes to a diagnostic once the body of the task has been entered,
told along the moments that it passes. -/
structure Attribution (declarations : Declarations) (limit : Nat) (active : List Task) (task : Task)
    (passed : List Moment) (diagnostic : Diagnostic) where
  signature : String
  cause : Cause
  /-- The cause is attributed once. -/
  attributed : diagnostic = .inSignature signature (.cause cause)
  before : List Moment
  /-- The moment at which the cause is raised. -/
  raise : Moment
  after : List Moment
  passed_eq : passed = before ++ raise :: after
  /-- The task whose body is the innermost one under analysis at that moment. -/
  inner : Task
  /-- The other tasks that are under analysis because of this one, the innermost first. -/
  outer : List Task
  active_eq : raise.active = inner :: outer ++ active
  getLast?_eq : (inner :: outer).getLast? = some task
  raises : raise.event.Raises inner cause
  definition : Definition
  defined : declarations.definition? inner.target = some definition
  /-- The cause is attributed to the signature of the innermost body. -/
  signature_eq :
    signature = raise.knowledge.renderSignature ⟨definition.qualifiedName, inner.arguments⟩
  /-- What was known when the innermost body was entered. -/
  begun : Knowledge
  begun_mem : ⟨.begun inner, raise.active, raise.room, begun⟩ ∈ before ++ [raise]
  /-- The innermost body fails for the cause alone. -/
  fails : ∃ ended, inner.summarize declarations limit raise.room definition begun =
    .error (.rejected (.cause cause)) ended
  /-- After that nothing happens but that the bodies end, and their analyses return the diagnostic
  as it is. -/
  after_eq : after.map Moment.event = unwinding diagnostic (inner :: outer)

/-- A diagnostic of the analysis of the task is a refusal, or it is attributed once. -/
def Task.Attributes (declarations : Declarations) (limit room : Nat) (active : List Task)
    (task : Task) (knowledge : Knowledge) (diagnostic : Diagnostic) : Prop :=
  let passed := moments declarations limit room active task knowledge
  (∃ cause, diagnostic = .cause cause ∧ task.Refuses declarations limit knowledge cause ∧
    passed.map Moment.event = [.asked task, .returned task (.error (.rejected diagnostic))]) ∨
  Nonempty (Attribution declarations limit active task passed diagnostic)

/-! ## The moments of a failure -/

/-- Where no body is entered, there is nothing between the question and the answer. -/
theorem events_of_opening?_eq_none (hopening : task.opening? declarations knowledge = none) :
    (moments declarations limit room active task knowledge).map Moment.event = [.asked task,
      .returned task (answerOf (task.analyze declarations limit room knowledge))] := by
  rw [moments.eq_def]
  cases room with
  | zero => rfl
  | succ room =>
    dsimp only
    rw [hopening]
    rfl

/-- Without room no body is entered. -/
theorem events_zero :
    (moments declarations limit 0 active task knowledge).map Moment.event = [.asked task,
      .returned task (answerOf (task.analyze declarations limit 0 knowledge))] := by
  rw [moments]
  rfl

/-- What is known when the body of the task is entered. -/
abbrev Task.entered (task : Task) (knowledge : Knowledge) (memo : Memo SummaryId) : Knowledge :=
  knowledge.begin task.target task.arguments memo

/-- The moments of the analysis of a body before the body ends. -/
noncomputable def Task.inside (declarations : Declarations) (limit room : Nat) (active : List Task)
    (task : Task) (definition : Definition) (begun : Knowledge) : List Moment :=
  ⟨.begun task, task :: active, room, begun⟩ ::
    (task.questions declarations limit room definition begun).flatMap fun question =>
      moments declarations limit room (task :: active) question.1 question.2

theorem Task.inside_eq {begun : Knowledge} {earlier : List (Task × Knowledge)}
    {question : Task × Knowledge}
    (hquestions : task.questions declarations limit room definition begun = earlier ++ [question]) :
    task.inside declarations limit room active definition begun =
      ⟨.begun task, task :: active, room, begun⟩ :: (earlier.flatMap fun asked =>
        moments declarations limit room (task :: active) asked.1 asked.2) ++
          moments declarations limit room (task :: active) question.1 question.2 := by
  rw [Task.inside, hquestions, List.flatMap_append, List.flatMap_singleton, List.cons_append]

/-- A body ends after the moments inside it, and then its analysis returns. -/
theorem Task.Opens.moments_eq (hopens : task.Opens declarations knowledge definition memo) :
    moments declarations limit (room + 1) active task knowledge =
      ⟨.asked task, active, room + 1, knowledge⟩ ::
        (task.inside declarations limit room active definition (task.entered knowledge memo) ++
          [⟨.ended task, task :: active, room,
              endOf (task.summarize declarations limit room definition
                (task.entered knowledge memo))⟩,
            ⟨.returned task (answerOf (task.analyze declarations limit (room + 1) knowledge)),
              active, room + 1,
              endOf (task.analyze declarations limit (room + 1) knowledge)⟩]) := by
  rw [moments]
  simp only [Task.opening?_eq_some_iff.mpr hopens, Task.bodyMoments, Task.inside,
    List.cons_append, List.append_assoc, List.nil_append]

/-- A signature that is known is written as before when more is known. -/
theorem Knowledge.Grows.renderSignature_eq {signature : Signature}
    (hgrows : knowledge.Grows later) (hclosed : knowledge.graph.Closed)
    (hclosed' : later.graph.Closed)
    (hhas : ∀ type ∈ signature.arguments, knowledge.graph.Has type) :
    later.renderSignature signature = knowledge.renderSignature signature := by
  have hkeeps := hgrows.graph.keeps hclosed hclosed'
  have harguments : signature.arguments.map later.graph.render =
      signature.arguments.map knowledge.graph.render :=
    List.map_congr_left fun type hmem => hkeeps.render_eq type (hhas type hmem)
  rw [renderSignature, renderSignature, Signature.render, Signature.render, harguments]

/-- An analysis with nothing between the question and the answer has been refused. -/
theorem Task.Refuses.attributes {cause : Cause}
    (hrefuses : task.Refuses declarations limit knowledge cause)
    (hfailed : task.analyze declarations limit room knowledge =
      .error (.rejected (.cause cause)) later)
    (hevents : (moments declarations limit room active task knowledge).map Moment.event =
      [.asked task, .returned task (answerOf (task.analyze declarations limit room knowledge))]) :
    task.Attributes declarations limit room active knowledge (.cause cause) := by
  rw [hfailed] at hevents
  exact .inl ⟨cause, rfl, hrefuses, hevents⟩

/-- An analysis that enters no body is refused about its task, if it is rejected. -/
theorem Task.refuses_of_opening?_eq_none {diagnostic : Diagnostic}
    (hsound : knowledge.Sound declarations)
    (hopening : task.opening? declarations knowledge = none)
    (hfailed : task.analyze declarations limit room knowledge =
      .error (.rejected diagnostic) later) :
    ∃ cause, diagnostic = .cause cause ∧ task.Refuses declarations limit knowledge cause := by
  rw [Task.analyze] at hfailed
  cases task.unopened hsound hopening with
  | undefined hdefined =>
    rw [analyze_of_definition?_eq_none hdefined] at hfailed
    cases hfailed
  | unfit definition hdefined harity =>
    rw [analyze_of_arity_ne hdefined harity] at hfailed
    cases hfailed
    exact ⟨_, rfl, .arity definition hdefined harity⟩
  | found definition memo progress hdefined harity hheld hfound =>
    cases progress with
    | done id =>
      rw [analyze_of_done hdefined harity hheld hfound] at hfailed
      cases hfailed
    | running =>
      rw [analyze_of_running hdefined harity hheld hfound] at hfailed
      cases hfailed
      exact ⟨_, rfl, .recursive definition hdefined⟩

section Failing

variable (hsound : knowledge.Sound declarations)
  (hhas : ∀ type ∈ task.arguments, knowledge.graph.Has type)

include hsound hhas

section Entered

variable (hopens : task.Opens declarations knowledge definition memo)

include hopens

/-- What is known when a question of a body has returned is sound, it has grown since the body was
entered, and it grows until the body ends. -/
theorem Task.Opens.grows_of_question {question : Task × Knowledge}
    (hasked :
      question ∈ task.questions declarations limit room definition (task.entered knowledge memo)) :
    (endOf (question.1.analyze declarations limit room question.2)).Sound declarations ∧
      (task.entered knowledge memo).Grows
        (endOf (question.1.analyze declarations limit room question.2)) ∧
      (endOf (question.1.analyze declarations limit room question.2)).Grows
        (endOf (task.summarize declarations limit room definition
          (task.entered knowledge memo))) := by
  have hbegun := hsound.begin hopens.held hhas hopens.missing
  let begun := task.entered knowledge memo
  let questions := task.questions declarations limit room definition begun
  -- Only the moments at which the questions return matter for the growth.
  let back (asked : Task × Knowledge) : Moment :=
    ⟨.resting, [], room, endOf (asked.1.analyze declarations limit room asked.2)⟩
  have hlearns : ∀ asked ∈ questions, asked.2.Learns declarations (back asked).knowledge ∧
      (back asked).knowledge.Sound declarations ∧ begun.Learns declarations asked.2 := by
    intro asked hmem
    obtain ⟨hlearns, hknown, htypes⟩ :=
      sound_of_mem_questions (analyze_sound limit room) hbegun hhas hmem
    obtain ⟨hanswer, hback⟩ := asked.1.analyze_learns hknown htypes limit room
    exact ⟨hanswer, hback, hlearns⟩
  obtain ⟨hanswer, hback, hasks⟩ := hlearns question hasked
  refine ⟨hback, hasks.toGrows.trans hanswer.toGrows, ?_⟩
  have hrises : Rises begun (questions.flatMap fun asked => [back asked])
      (endOf ((inquiryOf declarations definition ⟨definition.qualifiedName, task.arguments⟩
        begun).run (ShapeFlow.analyze declarations limit room))) :=
    (inquiryOf_steady definition _ begun).rises fun asked hmem =>
      ⟨(hlearns asked hmem).1.toGrows, .refl _⟩
  obtain ⟨before, after, hquestions⟩ := List.append_of_mem hasked
  rw [run_inquiryOf, show questions = before ++ question :: after from hquestions,
    List.flatMap_append, List.flatMap_cons, List.singleton_append] at hrises
  exact hrises.grows_of_mem

/-- The analysis of a body that fails attributes the failure. -/
theorem Task.Opens.analyze_of_summarize_eq_error {failure : Failure}
    (hbody : task.summarize declarations limit room definition (task.entered knowledge memo) =
      .error failure later) :
    answerOf (task.analyze declarations limit (room + 1) knowledge) = .error (failure.within
      (later.renderSignature ⟨definition.qualifiedName, task.arguments⟩)) := by
  obtain ⟨hlearns, -⟩ := hopens.summarize_learns hsound hhas limit room
  rw [hbody] at hlearns
  obtain ⟨ended, hended, -⟩ := Knowledge.exists_memo_of_begin hopens.held hlearns
  rw [Task.analyze, analyze_of_error hopens.defined hopens.arity hopens.held hopens.missing hended
    hbody]
  rfl

/-- The body of the task fails for a cause that is raised at the last moment before it ends. -/
theorem Task.Opens.attribution_of_raise {cause : Cause}
    (hbody : task.summarize declarations limit room definition (task.entered knowledge memo) =
      .error (.rejected (.cause cause)) later)
    {before : List Moment} {raise : Moment}
    (hinside : task.inside declarations limit room active definition (task.entered knowledge memo) =
      before ++ [raise])
    (hactive : raise.active = task :: active) (hroom : raise.room = room)
    (hraises : raise.event.Raises task cause) (hknown : raise.knowledge.Sound declarations)
    (hbegun : (task.entered knowledge memo).Grows raise.knowledge)
    (hgrows : raise.knowledge.Grows later) :
    Nonempty (Attribution declarations limit active task
      (moments declarations limit (room + 1) active task knowledge)
      (.inSignature (later.renderSignature ⟨definition.qualifiedName, task.arguments⟩)
        (.cause cause))) := by
  obtain ⟨-, hlater⟩ := hopens.summarize_learns hsound hhas limit room
  rw [hbody] at hlater
  have hmem : ⟨.begun task, task :: active, room, task.entered knowledge memo⟩ ∈
      before ++ [raise] := hinside ▸ List.mem_cons_self
  exact ⟨{
    signature := later.renderSignature ⟨definition.qualifiedName, task.arguments⟩
    cause
    attributed := rfl
    before := ⟨.asked task, active, room + 1, knowledge⟩ :: before
    raise
    after := _
    passed_eq := by
      rw [hopens.moments_eq, hinside, List.append_assoc, List.cons_append]
      rfl
    inner := task
    outer := []
    active_eq := hactive
    getLast?_eq := rfl
    raises := hraises
    definition
    defined := hopens.defined
    signature_eq := hgrows.renderSignature_eq hknown.graph.closed hlater.graph.closed
      fun type hmem => hbegun.graph.has (hhas type hmem)
    begun := task.entered knowledge memo
    begun_mem := by
      rw [hactive, hroom]
      exact List.mem_cons_of_mem _ hmem
    fails := ⟨later, hroom ▸ hbody⟩
    after_eq := by
      rw [hopens.analyze_of_summarize_eq_error hsound hhas hbody]
      rfl }⟩

/-- The body of the task fails for a cause after its last question has been answered, or refused
for the cause. -/
theorem Task.Opens.attribution_of_last {cause : Cause}
    (hbody : task.summarize declarations limit room definition (task.entered knowledge memo) =
      .error (.rejected (.cause cause)) later)
    {earlier : List (Task × Knowledge)} {question : Task × Knowledge}
    (hquestions : task.questions declarations limit room definition (task.entered knowledge memo) =
      earlier ++ [question])
    (hraises : Event.Raises task cause (.returned question.1
      (answerOf (question.1.analyze declarations limit room question.2)))) :
    Nonempty (Attribution declarations limit active task
      (moments declarations limit (room + 1) active task knowledge)
      (.inSignature (later.renderSignature ⟨definition.qualifiedName, task.arguments⟩)
        (.cause cause))) := by
  have hasked :
      question ∈ task.questions declarations limit room definition (task.entered knowledge memo) :=
    hquestions ▸ List.mem_append_right _ List.mem_cons_self
  obtain ⟨hknown, hbegun, hgrows⟩ := hopens.grows_of_question hsound hhas hasked
  rw [hbody] at hgrows
  obtain ⟨front, hfront⟩ := exists_moments_eq_append declarations limit room (task :: active)
    question.1 question.2
  have hinside : task.inside declarations limit room active definition
    (task.entered knowledge memo) = _ := Task.inside_eq hquestions
  rw [hfront, ← List.append_assoc] at hinside
  exact hopens.attribution_of_raise hsound hhas hbody hinside rfl rfl hraises hknown hbegun hgrows

/-- The last question of the body of the task fails with an attributed diagnostic, which the
analysis of the task returns as well. -/
theorem Task.Opens.attribution_of_deeper {diagnostic : Diagnostic}
    (hbody : task.summarize declarations limit room definition (task.entered knowledge memo) =
      .error (.rejected diagnostic) later)
    {front passed : List Moment} {question : Task}
    (hinside : task.inside declarations limit room active definition (task.entered knowledge memo) =
      front ++ passed)
    (deeper : Attribution declarations limit (task :: active) question passed diagnostic) :
    Nonempty (Attribution declarations limit active task
      (moments declarations limit (room + 1) active task knowledge) diagnostic) := by
  have hanswer : answerOf (task.analyze declarations limit (room + 1) knowledge) =
      .error (.rejected diagnostic) := by
    rw [hopens.analyze_of_summarize_eq_error hsound hhas hbody, Failure.within, deeper.attributed]
    rfl
  have hsplit := hinside.trans (congrArg (front ++ ·) deeper.passed_eq)
  exact ⟨{ deeper with
    before := ⟨.asked task, active, room + 1, knowledge⟩ :: (front ++ deeper.before)
    after := deeper.after ++ _
    passed_eq := by
      rw [hopens.moments_eq, hsplit]
      simp only [List.append_assoc, List.cons_append]
      rfl
    outer := deeper.outer ++ [task]
    active_eq := by
      rw [deeper.active_eq, List.cons_append, List.cons_append, List.append_assoc]
      rfl
    getLast?_eq := by
      rw [← List.cons_append, List.getLast?_concat]
    begun_mem := by
      rw [List.cons_append, List.append_assoc]
      exact List.mem_cons_of_mem _ (List.mem_append_right _ deeper.begun_mem)
    after_eq := by
      rw [List.map_append, deeper.after_eq, hanswer, ← List.cons_append, unwinding, unwinding,
        List.flatMap_append]
      rfl }⟩

/-- A body that has had all its questions answered fails for a cause of its own. -/
theorem Task.Opens.attribution_of_answered {diagnostic : Diagnostic}
    (hbody : task.summarize declarations limit room definition (task.entered knowledge memo) =
      .error (.rejected diagnostic) later)
    (hanswered :
      ∀ question ∈ task.questions declarations limit room definition (task.entered knowledge memo),
        ∃ id known, question.1.analyze declarations limit room question.2 = .ok id known) :
    Nonempty (Attribution declarations limit active task
      (moments declarations limit (room + 1) active task knowledge)
      (diagnostic.within (later.renderSignature ⟨definition.qualifiedName, task.arguments⟩))) := by
  have hbare := bare_of_answered hbody hanswered
  cases diagnostic with
  | inSignature signature source => exact hbare.elim
  | cause cause =>
    rcases List.eq_nil_or_concat' (task.questions declarations limit room definition
      (task.entered knowledge memo)) with hnone | ⟨earlier, question, hquestions⟩
    · have hinside :
          task.inside declarations limit room active definition (task.entered knowledge memo) =
            [] ++ [⟨.begun task, task :: active, room, task.entered knowledge memo⟩] := by
        rw [Task.inside, hnone, List.flatMap_nil, List.nil_append]
      obtain ⟨hlearns, -⟩ := hopens.summarize_learns hsound hhas limit room
      rw [hbody] at hlearns
      exact hopens.attribution_of_raise hsound hhas hbody hinside rfl rfl .begun
        (hsound.begin hopens.held hhas hopens.missing) (.refl _) hlearns.toGrows
    · obtain ⟨id, known, hanswer⟩ := hanswered question (hquestions ▸ List.mem_append_right _
        List.mem_cons_self)
      refine hopens.attribution_of_last hsound hhas hbody hquestions ?_
      rw [hanswer]
      exact .answered question.1 id

/-- A body whose last question is refused fails as well, with the same diagnostic if that is
attributed. -/
theorem Task.Opens.attribution_of_refused {diagnostic : Diagnostic}
    (hbody : task.summarize declarations limit room definition (task.entered knowledge memo) =
      .error (.rejected diagnostic) later)
    {earlier : List (Task × Knowledge)} {question : Task × Knowledge}
    (hquestions : task.questions declarations limit room definition (task.entered knowledge memo) =
      earlier ++ [question])
    (hrefused : question.1.analyze declarations limit room question.2 =
      .error (.rejected diagnostic) later)
    (hdeeper : question.1.Attributes declarations limit room (task :: active) question.2
      diagnostic) :
    Nonempty (Attribution declarations limit active task
      (moments declarations limit (room + 1) active task knowledge)
      (diagnostic.within (later.renderSignature ⟨definition.qualifiedName, task.arguments⟩))) := by
  rcases hdeeper with ⟨cause, rfl, -⟩ | ⟨⟨deeper⟩⟩
  · refine hopens.attribution_of_last hsound hhas hbody hquestions ?_
    rw [hrefused]
    exact .refused question.1
  · -- An attributed diagnostic is not attributed again.
    have hsame (name : String) : diagnostic.within name = diagnostic := by
      rw [deeper.attributed]
      rfl
    rw [hsame]
    exact hopens.attribution_of_deeper hsound hhas hbody (Task.inside_eq hquestions) deeper

/-- The analysis of a body that is rejected attributes what the body fails with. -/
theorem Task.Opens.exists_of_rejected {diagnostic : Diagnostic}
    (hfailed : task.analyze declarations limit (room + 1) knowledge =
      .error (.rejected diagnostic) later) :
    ∃ reason ended,
      task.summarize declarations limit room definition (task.entered knowledge memo) =
          .error (.rejected reason) ended ∧
        diagnostic =
          reason.within (ended.renderSignature ⟨definition.qualifiedName, task.arguments⟩) := by
  obtain ⟨hlearns, -⟩ := hopens.summarize_learns hsound hhas limit room
  cases hbody :
    task.summarize declarations limit room definition (task.entered knowledge memo) with
  | ok summary ended =>
    rw [hbody] at hlearns
    obtain ⟨held, hheld, -⟩ := Knowledge.exists_memo_of_begin hopens.held hlearns
    rw [Task.analyze, analyze_of_ok hopens.defined hopens.arity hopens.held hopens.missing hheld
      hbody] at hfailed
    cases hfailed
  | error failure ended =>
    have hanswer := hopens.analyze_of_summarize_eq_error hsound hhas hbody
    rw [hfailed] at hanswer
    cases failure with
    | rejected reason =>
      exact ⟨reason, ended, rfl, Failure.rejected.inj (Except.error.inj hanswer)⟩
    | broken reference => cases hanswer

/-- If what a body asks fails in this way, so does the analysis of the body. -/
theorem Task.Opens.exists_attribution {diagnostic : Diagnostic}
    (hfailed : task.analyze declarations limit (room + 1) knowledge =
      .error (.rejected diagnostic) later)
    (hdeeper : ∀ (question : Task) (known last : Knowledge) (reason : Diagnostic),
      known.Sound declarations → (∀ type ∈ question.arguments, known.graph.Has type) →
        question.analyze declarations limit room known = .error (.rejected reason) last →
          question.Attributes declarations limit room (task :: active) known reason) :
    Nonempty (Attribution declarations limit active task
      (moments declarations limit (room + 1) active task knowledge) diagnostic) := by
  have hbegun := hsound.begin hopens.held hhas hopens.missing
  obtain ⟨reason, ended, hbody, rfl⟩ := hopens.exists_of_rejected hsound hhas hfailed
  rcases Inquiry.answered_or_refused ((run_inquiryOf ..).trans hbody) with
    hanswered | ⟨earlier, question, hquestions, hrefused⟩
  · exact hopens.attribution_of_answered hsound hhas hbody hanswered
  · have hasked :
        question ∈ task.questions declarations limit room definition
          (task.entered knowledge memo) := by
      rw [show task.questions declarations limit room definition _ = _ from hquestions]
      exact List.mem_append_right _ List.mem_cons_self
    obtain ⟨-, hknown, htypes⟩ :=
      sound_of_mem_questions (analyze_sound limit room) hbegun hhas hasked
    exact hopens.attribution_of_refused hsound hhas hbody hquestions hrefused
      (hdeeper question.1 question.2 ended reason hknown htypes hrefused)

end Entered

/-- Whenever an analysis is rejected, it is refused before any body is entered, or the cause is
attributed once, to the innermost body. -/
theorem Task.attributes {diagnostic : Diagnostic}
    (hfailed : task.analyze declarations limit room knowledge =
      .error (.rejected diagnostic) later) :
    task.Attributes declarations limit room active knowledge diagnostic := by
  induction room generalizing active task knowledge diagnostic later with
  | zero =>
    cases hopening : task.opening? declarations knowledge with
    | none =>
      obtain ⟨cause, rfl, hrefuses⟩ := task.refuses_of_opening?_eq_none hsound hopening hfailed
      exact hrefuses.attributes hfailed events_zero
    | some opening =>
      obtain ⟨hdefined, harity, hheld, hmissing⟩ := Task.opening?_eq_some_iff.mp hopening
      have hexceeded := hfailed
      rw [Task.analyze, analyze_zero hdefined harity hheld hmissing] at hexceeded
      cases hexceeded
      exact Task.Refuses.attributes (.exceeded opening.1 hdefined) hfailed events_zero
  | succ room ih =>
    cases hopening : task.opening? declarations knowledge with
    | none =>
      obtain ⟨cause, rfl, hrefuses⟩ := task.refuses_of_opening?_eq_none hsound hopening hfailed
      exact hrefuses.attributes hfailed (events_of_opening?_eq_none hopening)
    | some opening =>
      have hopens := Task.opening?_eq_some_iff.mp hopening
      exact .inr (hopens.exists_attribution hsound hhas hfailed
        fun question known last reason hknown htypes hreason => ih hknown htypes hreason)

end Failing

/-! ## Sessions -/

/-- The main body is the last definition. -/
theorem Declarations.definition?_main (program : Program) :
    (ofProgram program).definition? (ofProgram program).main =
      some { decl := { name := mainName, body := program.main, span := program.mainSpan } } :=
  Array.getElem?_push_size

/-- At first nothing is known about the main body, so it is entered. -/
theorem Declarations.exists_opens_main (program : Program) : ∃ definition memo,
    (ofProgram program).mainTask.Opens (ofProgram program) (.initial (ofProgram program)) definition
      memo := by
  have hdefined := definition?_main program
  obtain ⟨memo, hheld⟩ := (Engine.sound_initial (ofProgram program)).exists_memo hdefined
  refine ⟨_, memo, hdefined, rfl, hheld, ?_⟩
  have hempty : some ({} : Memo SummaryId) = some memo := by
    rw [← hheld]
    simp only [Knowledge.initial, Array.getElem?_map]
    rw [show (ofProgram program).definitions[(ofProgram program).main.index]? = _ from hdefined]
    rfl
  rw [← Option.some.inj hempty]
  rfl

/-- If the limit lets the main body be entered, a program is rejected for a cause that is attributed
once. -/
theorem exists_attribution_of_infer {program : Program} (hlimit : 0 < limit) {failure : Failure}
    (hinfer : infer program limit = .error failure) :
    ∃ diagnostic, failure = .rejected diagnostic ∧
      Nonempty (Attribution (.ofProgram program) limit [] (Declarations.ofProgram program).mainTask
        (moments (.ofProgram program) limit limit [] (Declarations.ofProgram program).mainTask
          (.initial (.ofProgram program))) diagnostic) := by
  obtain ⟨diagnostic, rfl⟩ := exists_of_infer_eq_error hinfer
  obtain ⟨room, rfl⟩ := Nat.exists_eq_add_one.mpr hlimit
  obtain ⟨definition, memo, hopens⟩ := Declarations.exists_opens_main program
  rw [infer_eq] at hinfer
  split at hinfer
  · cases hinfer
  · rename_i failure later hfailed
    cases hinfer
    exact ⟨diagnostic, rfl, hopens.exists_attribution (Engine.sound_initial _)
      (List.forall_mem_nil _) hfailed fun question known last reason hknown htypes hreason =>
        Task.attributes hknown htypes hreason⟩

/-- Failures are attributed once, to the innermost body.  In every session, whenever the analysis of
a definition fails, it is refused about the definition and the argument types themselves before the
body is entered; or a body that is under analysis, and contains no other one that is, fails for a
bare cause, which is attributed to its signature and then returned as it is by all analyses around
it.  The same holds of the analyses that are asked for by others.  So a program is rejected with one
attribution, unless the limit is zero. -/
theorem Engine.Session.attributes_once {program : Program} {limit : Nat} {engine : Engine}
    {history : List Moment} (hsession : Engine.Session program limit engine history) :
    (∀ (task : Task) (failure : Failure),
      (engine.declarations.definition? task.target).isSome = true →
      (∀ type ∈ task.arguments, engine.graph.Has type) →
        (engine.analyze task.target task.arguments).1 = .error failure →
          ∃ diagnostic, failure = .rejected diagnostic ∧
            task.Attributes (.ofProgram program) limit limit [] engine.knowledge diagnostic) ∧
    (∀ moment ∈ history, ∀ (task : Task) (diagnostic : Diagnostic) (later : Knowledge),
      moment.event = .asked task →
        task.analyze (.ofProgram program) limit moment.room moment.knowledge =
            .error (.rejected diagnostic) later →
          task.Attributes (.ofProgram program) limit moment.room moment.active moment.knowledge
            diagnostic) ∧
    (0 < limit → ∀ failure, infer program limit = .error failure →
      ∃ signature cause, failure = .rejected (.inSignature signature (.cause cause))) := by
  have hfollows := hsession.follows
  refine ⟨fun task failure hdefined harguments hfailed => ?_,
    fun moment hmem task diagnostic later hasked hfailed => ?_, fun hlimit failure hinfer => ?_⟩
  · have hrejects := hsession.rejects hdefined harguments hfailed
    cases failure with
    | broken reference => exact hrejects.elim
    | rejected diagnostic =>
      refine ⟨diagnostic, rfl, ?_⟩
      unfold Engine.analyze at hfailed
      rw [hfollows.declarations_eq, hfollows.limit_eq] at hfailed
      split at hfailed
      · cases hfailed
      · rename_i reason later hanalyze
        obtain rfl := Except.error.inj hfailed
        exact Task.attributes hfollows.knowledge harguments hanalyze
  · have hmoment := hfollows.moments moment hmem
    have harguments := hmoment.event
    rw [hasked] at harguments
    exact Task.attributes hmoment.knowledge harguments hfailed
  · obtain ⟨diagnostic, rfl, ⟨attribution⟩⟩ := exists_attribution_of_infer hlimit hinfer
    exact ⟨attribution.signature, attribution.cause,
      congrArg Failure.rejected attribution.attributed⟩

/-- Two functions that call each other. -/
def circleProgram : Program := nestProgram (.apply {} "outer" [])

/-- The program before anything is analyzed. -/
def circleStart : Engine := Engine.ofProgram circleProgram 3

/-- The analysis of the main body. -/
def circleTask : Task := ⟨⟨4⟩, []⟩

/-- The inner function asks for the outer one, which is being analyzed.  The failure is attributed
to the inner function, although it is the main body whose analysis fails.  If the outer function is
asked for with an argument, its body is not entered. -/
theorem circleStart_attributes_once : ∃ engine history moment,
    Engine.Session circleProgram 3 engine history ∧
      (∃ attribution : Attribution (.ofProgram circleProgram) 3 [] circleTask
          (moments (.ofProgram circleProgram) 3 3 [] circleTask engine.knowledge)
          (.inSignature "inner()" (.cause (.recursiveSignature "outer()"))),
        attribution.inner ≠ circleTask) ∧
      (moments (.ofProgram circleProgram) 3 3 [] ⟨⟨2⟩, [TypeGraph.scalar]⟩
          engine.knowledge).map Moment.event =
        [.asked ⟨⟨2⟩, [TypeGraph.scalar]⟩, .returned ⟨⟨2⟩, [TypeGraph.scalar]⟩
          (.error (.rejected (.cause (.arityMismatch "outer" 0 1))))] ∧
      moment ∈ history ∧ moment.event = .asked circleTask ∧
        circleTask.Attributes (.ofProgram circleProgram) 3 moment.room moment.active
          moment.knowledge (.inSignature "inner()" (.cause (.recursiveSignature "outer()"))) ∧
        ∃ signature cause,
          infer circleProgram 3 = .error (.rejected (.inSignature signature (.cause cause))) := by
  have hsession : Engine.Session circleProgram 3
      (circleStart.analyze circleTask.target circleTask.arguments).2 _ :=
    .analyze circleStart _ circleTask .start (List.forall_mem_nil _)
  let asked : Moment := ⟨.asked circleTask, [], 3, circleStart.knowledge⟩
  obtain ⟨after, hmoments⟩ := exists_moments_eq_cons circleStart.declarations 3 3 [] circleTask
    circleStart.knowledge
  have hmem : asked ∈ [circleStart.rest] ++
      moments circleStart.declarations circleStart.limit circleStart.limit [] circleTask
        circleStart.knowledge :=
    List.mem_append_right _ (hmoments ▸ List.mem_cons_self)
  obtain ⟨hanalyses, hnested, hinfer⟩ := Engine.Session.attributes_once hsession
  refine ⟨_, _, asked, hsession, ?_, ?_, hmem, rfl, ?_, ?_⟩
  · obtain ⟨diagnostic, hdiagnostic, hattributes⟩ := hanalyses circleTask
      (.rejected (.inSignature "inner()" (.cause (.recursiveSignature "outer()"))))
      (by decide +kernel) (List.forall_mem_nil _) (by decide +kernel)
    obtain rfl := Failure.rejected.inj hdiagnostic
    rcases hattributes with ⟨_, hcause, -⟩ | ⟨⟨attribution⟩⟩
    · exact nomatch hcause
    · refine ⟨attribution, fun hinner => ?_⟩
      -- The main body has another signature.
      have hdefined := attribution.defined
      have hsignature := attribution.signature_eq
      rw [hinner] at hdefined hsignature
      rw [← Option.some.inj ((Declarations.definition?_main circleProgram).symm.trans hdefined),
        ← (Diagnostic.inSignature.inj attribution.attributed).1] at hsignature
      exact absurd (hsignature.trans (show _ = "<main>()" from rfl)) (by decide)
  · obtain ⟨diagnostic, hdiagnostic, hattributes⟩ := hanalyses ⟨⟨2⟩, [TypeGraph.scalar]⟩
      (.rejected (.cause (.arityMismatch "outer" 0 1))) (by decide +kernel) (by decide +kernel)
      (by decide +kernel)
    obtain rfl := Failure.rejected.inj hdiagnostic
    rcases hattributes with ⟨_, -, -, hevents⟩ | ⟨⟨attribution⟩⟩
    · exact hevents
    · exact nomatch attribution.attributed
  · have hanswer : answerOf (circleTask.analyze (.ofProgram circleProgram) 3 3
        circleStart.knowledge) = .error (.rejected (.inSignature "inner()"
          (.cause (.recursiveSignature "outer()")))) := by
      decide +kernel
    cases hfailed : circleTask.analyze (.ofProgram circleProgram) 3 3 circleStart.knowledge with
    | ok id later =>
      rw [hfailed] at hanswer
      exact nomatch hanswer
    | error failure later =>
      rw [hfailed] at hanswer
      obtain rfl := Except.error.inj hanswer
      exact hnested asked hmem circleTask _ later rfl hfailed
  · have hfailed := infer_of_failureOf (show failureOf circleProgram 3 = some (.rejected
      (.inSignature "inner()" (.cause (.recursiveSignature "outer()")))) by decide +kernel)
    obtain ⟨signature, cause, hfailure⟩ := hinfer (by decide) _ hfailed
    exact ⟨signature, cause, hfailed.trans (congrArg Except.error hfailure)⟩

end ShapeFlow
