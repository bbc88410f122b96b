import ShapeFlow.Proofs.Sessions

/-!
# Running entries are active analyses

At every moment of a session the running entries of the memos are, one for one, the tasks whose
bodies are under analysis, and there are as many of them as the limit allows or fewer
(`Engine.Session.running_perm_active`).  What an analysis comes to at the moment is decided by
them: it is rejected as recursive if it is active, and for lack of room if the limit is reached
and nothing is known.  It leaves the running entries as they were, and the answers too.
-/

namespace ShapeFlow

/-- The argument types of the running entries. -/
def Memo.running {α : Type} (memo : Memo α) : List (List TypeId) :=
  (memo.entries.filter fun entry => entry.progress.isRunning).map MemoEntry.arguments

namespace Knowledge

/-- The tasks of the running entries, memo by memo. -/
def running (knowledge : Knowledge) : List Task :=
  (List.range knowledge.memos.size).flatMap fun index =>
    ((knowledge.memos[index]?.map Memo.running).getD []).map (Task.mk ⟨index⟩)

/-- The memo of the definition has an answer for argument types of the same shapes. -/
def Knows (knowledge : Knowledge) (task : Task) (id : SummaryId) : Prop :=
  ∃ entry, knowledge.HasEntry task.target entry ∧ entry.progress = .done id ∧
    knowledge.graph.sameShapes entry.arguments task.arguments = true

end Knowledge

/-- The body of the definition is under analysis for argument types of the same shapes. -/
def Moment.Active (moment : Moment) (task : Task) : Prop :=
  ∃ other ∈ moment.active, other.target = task.target ∧
    moment.knowledge.graph.sameShapes other.arguments task.arguments = true

variable {declarations : Declarations} {limit room : Nat} {task : Task} {active : List Task}
  {knowledge : Knowledge}

/-! ## Running entries, one for one -/

section Running

theorem Progress.isRunning_iff {α : Type} {progress : Progress α} :
    progress.isRunning = true ↔ progress = .running := by
  cases progress <;> simp [Progress.isRunning]

theorem Memo.mem_running_iff {α : Type} {memo : Memo α} {arguments : List TypeId} :
    arguments ∈ memo.running ↔
      ∃ entry ∈ memo.entries, entry.progress = .running ∧ entry.arguments = arguments := by
  simp only [Memo.running, List.mem_map, List.mem_filter, Progress.isRunning_iff, and_assoc]

theorem Memo.Sound.nodup_running {α : Type} {memo : Memo α} {graph : TypeGraph}
    (hmemo : memo.Sound graph) (hclosed : graph.Closed) : memo.running.Nodup := by
  refine List.pairwise_map.mpr ((hmemo.apart.imp_of_mem ?_).filter _)
  intro first second hfirst _ hunlike heq
  refine hunlike ?_
  rw [← heq]
  exact .refl hclosed (hmemo.entries first hfirst).has

namespace Knowledge

theorem mem_running_iff : task ∈ knowledge.running ↔ knowledge.Runs task := by
  obtain ⟨target, arguments⟩ := task
  simp only [running, List.mem_flatMap, List.mem_range, List.mem_map, Task.mk.injEq]
  constructor
  · rintro ⟨index, -, types, hmem, rfl, rfl⟩
    cases hmemo : knowledge.memos[index]? with
    | none => simp [hmemo] at hmem
    | some memo =>
      rw [hmemo] at hmem
      obtain ⟨entry, hentry, hrunning, harguments⟩ := Memo.mem_running_iff.mp hmem
      exact ⟨entry, ⟨memo, hmemo, hentry⟩, hrunning, harguments⟩
  · rintro ⟨entry, ⟨memo, hmemo, hentry⟩, hrunning, harguments⟩
    refine ⟨target.index, (Array.getElem?_eq_some_iff.mp hmemo).1, arguments, ?_, rfl, rfl⟩
    rw [hmemo]
    exact Memo.mem_running_iff.mpr ⟨entry, hentry, hrunning, harguments⟩

theorem Sound.nodup_running (hsound : knowledge.Sound declarations) :
    knowledge.running.Nodup := by
  refine List.nodup_flatMap.mpr ⟨fun index _ => ?_, List.nodup_range.imp ?_⟩
  · refine List.Nodup.map (fun _ _ h => (Task.mk.inj h).2) ?_
    cases hmemo : knowledge.memos[index]? with
    | none => exact .nil
    | some memo => exact (hsound.memos ⟨index⟩ memo hmemo).nodup_running hsound.graph.closed
  · intro index other hne
    simp only [Function.onFun, List.disjoint_iff_ne, List.mem_map]
    rintro _ ⟨types, -, rfl⟩ _ ⟨types', -, rfl⟩ heq
    exact hne (congrArg DefId.index (Task.mk.inj heq).1)

theorem Learns.running_perm {later : Knowledge} (hlearns : knowledge.Learns declarations later)
    (hsound : knowledge.Sound declarations) (hlater : later.Sound declarations) :
    later.running.Perm knowledge.running :=
  (List.perm_ext_iff_of_nodup hlater.nodup_running hsound.nodup_running).mpr fun task =>
    mem_running_iff.trans ((hlearns.runs_iff task).trans mem_running_iff.symm)

theorem Attends.running_perm (hattends : knowledge.Attends active)
    (hsound : knowledge.Sound declarations) : knowledge.running.Perm active :=
  (List.perm_ext_iff_of_nodup hsound.nodup_running hattends.nodup).mpr fun task =>
    mem_running_iff.trans (hattends.mem_iff task).symm

end Knowledge

end Running

/-! ## What an analysis comes to at a moment -/

theorem Knowledge.Sound.knows_iff (hsound : knowledge.Sound declarations)
    (hhas : ∀ type ∈ task.arguments, knowledge.graph.Has type) {id : SummaryId} :
    knowledge.Knows task id ↔ knowledge.Answers task.target task.arguments id := by
  refine exists_congr fun entry => and_congr_right fun hentry => and_congr_right fun _ => ?_
  obtain ⟨memo, hmemo, hmem⟩ := hentry
  exact TypeGraph.sameShapes_iff hsound.graph.closed
    ((hsound.memos task.target memo hmemo).entries entry hmem).has hhas

/-- What an analysis leaves behind: the running entries as they were, the answers that were
there, and no answer to the task if it has failed. -/
structure Task.Leaves (task : Task) (knowledge : Knowledge)
    (outcome : EStateM.Result Failure Knowledge SummaryId) : Prop where
  running : (endOf outcome).running.Perm knowledge.running
  answers : ∀ target entry id, knowledge.HasEntry target entry → entry.progress = .done id →
    (endOf outcome).HasEntry target entry
  failed : ∀ failure, answerOf outcome = .error failure → ∀ id, ¬ (endOf outcome).Knows task id

/-- What decides how an analysis of a task goes at a moment. -/
structure Moment.Decides (declarations : Declarations) (limit : Nat) (moment : Moment)
    (task : Task) : Prop where
  recursive :
    (∃ name, answerOf (task.analyze declarations limit moment.room moment.knowledge) =
      .error (.rejected (.cause (.recursiveSignature name)))) ↔ moment.Active task
  known : ∀ id, moment.knowledge.Knows task id → ∀ room,
    answerOf (task.analyze declarations limit room moment.knowledge) = .ok id
  exceeded : ¬ moment.Active task → (∀ id, ¬ moment.knowledge.Knows task id) →
    ((∃ name, answerOf (task.analyze declarations limit moment.room moment.knowledge) =
      .error (.rejected (.cause (.depthExceeded name limit)))) ↔ moment.active.length = limit)

/-- An attributed rejection is not a bare one. -/
theorem Failure.within_ne_cause (failure : Failure) (name : String) (cause : Cause) :
    failure.within name ≠ .rejected (.cause cause) := by
  cases failure with
  | broken reference => exact nofun
  | rejected diagnostic => cases diagnostic <;> simp [Failure.within, Diagnostic.within]

theorem Task.leaves (hsound : knowledge.Sound declarations)
    (hhas : ∀ type ∈ task.arguments, knowledge.graph.Has type) :
    task.Leaves knowledge (task.analyze declarations limit room knowledge) := by
  obtain ⟨hlearns, hlater⟩ := task.analyze_learns hsound hhas limit room
  refine ⟨hlearns.running_perm hsound hlater, hlearns.answers, fun failure hanswer id hknows => ?_⟩
  cases houtcome : task.analyze declarations limit room knowledge with
  | ok id later => simp [houtcome, answerOf] at hanswer
  | error failed later =>
    rw [houtcome] at hlearns hlater hknows
    refine task.not_answers_of_error hsound hhas houtcome id ((hlater.knows_iff ?_).mp hknows)
    exact fun type hmem => hlearns.graph.has (hhas type hmem)

section Decides

variable {moment : Moment} {definition : Definition} {memo : Memo SummaryId}
  (hmoment : moment.Sound declarations limit)
  (hhas : ∀ type ∈ task.arguments, moment.knowledge.graph.Has type)
  (hmemo : moment.knowledge.memos[task.target.index]? = some memo)

include hmoment hhas hmemo

/-- A task is active if and only if a running entry is found for it. -/
theorem Moment.Sound.active_iff :
    moment.Active task ↔
      memo.find? moment.knowledge.graph task.arguments = some .running := by
  have hsound := hmoment.knowledge
  have hheld := hsound.memos task.target memo hmemo
  rw [Memo.find?_eq_some_iff hsound.graph.closed hheld hhas]
  constructor
  · rintro ⟨other, hactive, htarget, hshapes⟩
    obtain ⟨entry, hentry, hrunning, harguments⟩ := (hmoment.attends.mem_iff other).mp hactive
    rw [htarget] at hentry
    have hmem := (Knowledge.hasEntry_iff_mem hmemo).mp hentry
    have hentryHas := (hheld.entries entry hmem).has
    rw [← harguments] at hshapes
    exact ⟨entry, hmem, hrunning,
      (TypeGraph.sameShapes_iff hsound.graph.closed hentryHas hhas).mp hshapes⟩
  · rintro ⟨entry, hmem, hrunning, hsame⟩
    refine ⟨⟨task.target, entry.arguments⟩, (hmoment.attends.mem_iff _).mpr
      ⟨entry, ⟨memo, hmemo, hmem⟩, hrunning, rfl⟩, rfl, ?_⟩
    exact (TypeGraph.sameShapes_iff hsound.graph.closed (hheld.entries entry hmem).has hhas).mpr
      hsame

/-- An answer is known if and only if it is found. -/
theorem Moment.Sound.knows_iff (id : SummaryId) :
    moment.knowledge.Knows task id ↔
      memo.find? moment.knowledge.graph task.arguments = some (.done id) := by
  have hsound := hmoment.knowledge
  rw [hsound.knows_iff hhas,
    Memo.find?_eq_some_iff hsound.graph.closed (hsound.memos task.target memo hmemo) hhas]
  constructor
  · rintro ⟨entry, hentry, hdone, hsame⟩
    exact ⟨entry, (Knowledge.hasEntry_iff_mem hmemo).mp hentry, hdone, hsame⟩
  · rintro ⟨entry, hmem, hdone, hsame⟩
    exact ⟨entry, (Knowledge.hasEntry_iff_mem hmemo).mpr hmem, hdone, hsame⟩

variable (hdefined : declarations.definition? task.target = some definition)
  (harity : definition.arity = task.arguments.length)

include hdefined harity

/-- A rejection that is attributed to no signature is one of the task itself: it is active, or
nothing is known of it and there is no room. -/
theorem Moment.Sound.of_bare_rejection {cause : Cause}
    (hanswer : answerOf (task.analyze declarations limit moment.room moment.knowledge) =
      .error (.rejected (.cause cause))) :
    (∃ name, cause = .recursiveSignature name) ∧
        memo.find? moment.knowledge.graph task.arguments = some .running ∨
      (∃ name, cause = .depthExceeded name limit) ∧ moment.room = 0 := by
  have hgoes := task.goes hmoment.knowledge hhas limit moment.room
  generalize task.analyze declarations limit moment.room moment.knowledge = outcome at *
  cases hgoes with
  | unfit failure hunfit => exact absurd harity (hunfit definition hdefined)
  | known | answered => exact nomatch hanswer
  | recursive other name hheld hfound =>
    obtain rfl := Option.some.inj (hmemo.symm.trans hheld)
    cases hanswer
    exact Or.inl ⟨⟨name, rfl⟩, hfound⟩
  | exceeded _ _ name _ hroom =>
    cases hanswer
    exact Or.inr ⟨⟨name, rfl⟩, hroom⟩
  | failed _ _ _ _ failure name =>
    exact absurd (Except.error.inj hanswer) (Failure.within_ne_cause failure name cause)

end Decides

theorem Moment.Sound.decides {moment : Moment} {definition : Definition}
    (hmoment : moment.Sound declarations limit)
    (hhas : ∀ type ∈ task.arguments, moment.knowledge.graph.Has type)
    (hdefined : declarations.definition? task.target = some definition)
    (harity : definition.arity = task.arguments.length) :
    moment.Decides declarations limit task := by
  obtain ⟨memo, hmemo⟩ := hmoment.knowledge.exists_memo hdefined
  have hactive := hmoment.active_iff hhas hmemo
  have hknows := hmoment.knows_iff hhas hmemo
  have hdepth := hmoment.depth
  refine ⟨⟨?_, fun hrunning => ?_⟩, fun id hknown room => ?_, fun hidle hunknown => ⟨?_, ?_⟩⟩
  · rintro ⟨name, hanswer⟩
    rcases hmoment.of_bare_rejection hhas hmemo hdefined harity hanswer with hfound | hnoRoom
    · exact hactive.mpr hfound.2
    · obtain ⟨⟨_, hcause⟩, -⟩ := hnoRoom
      cases hcause
  · rw [Task.analyze, analyze_of_running hdefined harity hmemo (hactive.mp hrunning)]
    exact ⟨_, rfl⟩
  · rw [Task.analyze, analyze_of_done hdefined harity hmemo ((hknows id).mp hknown)]
    rfl
  · rintro ⟨name, hanswer⟩
    rcases hmoment.of_bare_rejection hhas hmemo hdefined harity hanswer with hfound | hnoRoom
    · obtain ⟨⟨_, hcause⟩, -⟩ := hfound
      cases hcause
    · omega
  · intro hfull
    have hnone : memo.find? moment.knowledge.graph task.arguments = none := by
      cases hfound : memo.find? moment.knowledge.graph task.arguments with
      | none => rfl
      | some progress =>
        cases progress with
        | running => exact absurd (hactive.mpr hfound) hidle
        | done id => exact absurd ((hknows id).mpr hfound) (hunknown id)
    have hroom : moment.room = 0 := by omega
    rw [Task.analyze, hroom, analyze_zero hdefined harity hmemo hnone]
    exact ⟨_, rfl⟩

/-! ## Every moment of a session -/

/-- At every moment of a session the running entries are those of the tasks whose bodies are
under analysis, one for one, and no more of them than the limit allows.  They decide how an
analysis goes that is asked for at the moment, and it leaves them as they are. -/
theorem Engine.Session.running_perm_active {program : Program} {limit : Nat} {engine : Engine}
    {history : List Moment} (hsession : Engine.Session program limit engine history)
    {moment : Moment} (hmoment : moment ∈ history) :
    moment.knowledge.running.Perm moment.active ∧
    moment.active.length + moment.room = limit ∧
    ∀ task, (∀ type ∈ task.arguments, moment.knowledge.graph.Has type) →
      (∀ definition, (Declarations.ofProgram program).definition? task.target = some definition →
        definition.arity = task.arguments.length →
          moment.Decides (.ofProgram program) limit task) ∧
      task.Leaves moment.knowledge
        (task.analyze (.ofProgram program) limit moment.room moment.knowledge) := by
  have hsound := hsession.follows.moments moment hmoment
  refine ⟨hsound.attends.running_perm hsound.knowledge, hsound.depth, fun task hhas => ?_⟩
  exact ⟨fun definition hdefined harity => hsound.decides hhas hdefined harity,
    task.leaves hsound.knowledge hhas⟩

/-- A function that calls itself. -/
def loopProgram : Program where
  classes := [{ name := "Node" }]
  functions := [{
    name := "loop"
    parameters := ["node"]
    body := [.apply {} "loop" [.name {} "node"]] }]

/-- The program with the type of its objects. -/
def loopStart : Engine :=
  let engine := Engine.ofProgram loopProgram 2
  engine.withGraph (engine.graph.plainObject "Node").2

/-- The analysis of the function for an object. -/
def loopTask : Task := ⟨⟨2⟩, [⟨1⟩]⟩

/-- While the body of the function is under analysis its entry is the one that is running, and
the function cannot be analyzed again for the same type. -/
theorem loopStart_running_perm_active : ∃ history moment,
    Engine.Session loopProgram 2 (loopStart.analyze loopTask.target loopTask.arguments).2 history ∧
      moment ∈ history ∧ moment.active = [loopTask] ∧ moment.knowledge.running.Perm [loopTask] ∧
        ∃ name, answerOf (loopTask.analyze (.ofProgram loopProgram) 2 moment.room
          moment.knowledge) = .error (.rejected (.cause (.recursiveSignature name))) := by
  have hhas : ∀ type ∈ loopTask.arguments, loopStart.graph.Has type := by decide +kernel
  obtain ⟨⟨definition, memo⟩, hopening⟩ := Option.isSome_iff_exists.mp
    (show (loopTask.opening? loopStart.declarations loopStart.knowledge).isSome = true by
      decide +kernel)
  have hopens := Task.opening?_eq_some_iff.mp hopening
  have hsession := Engine.Session.analyze loopStart _ loopTask
    (.build _ _ _ .start (.object (Engine.ofProgram loopProgram 2) "Node")) hhas
  let begun : Moment := ⟨.begun loopTask, [loopTask], 1,
    loopStart.knowledge.begin loopTask.target loopTask.arguments memo⟩
  have hbegun : begun ∈ [(Engine.ofProgram loopProgram 2).rest] ++ [loopStart.rest] ++
      moments loopStart.declarations loopStart.limit loopStart.limit [] loopTask
        loopStart.knowledge := List.mem_append_right _ (begun_mem_moments hopens)
  obtain ⟨hrunning, -, hanalyses⟩ := Engine.Session.running_perm_active hsession hbegun
  have hactive : begun.Active loopTask := by
    refine ⟨loopTask, List.mem_cons_self, rfl, ?_⟩
    show loopStart.graph.sameShapes loopTask.arguments loopTask.arguments = true
    decide +kernel
  exact ⟨_, begun, hsession, hbegun, rfl, hrunning,
    ((hanalyses loopTask hhas).1 definition hopens.defined hopens.arity).recursive.mpr hactive⟩

end ShapeFlow
