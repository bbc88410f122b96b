import ShapeFlow.Proofs.EngineSoundness
import ShapeFlow.Proofs.Inquiries

/-!
# Sessions

A session uses one engine again and again: types are built and definitions analyzed, one after
the other.  It passes through moments (`Moment`): one before and one after each analysis that is
asked for, also when another analysis asks for it, and one where the analysis of a body begins
and one where it ends.  Between two moments only types are added.

The moments of an analysis are told along its recursion (`moments`): those of the analysis of a
body are the moments of what the body asks, in the order in which it asks.  What is known grows
from moment to moment (`Rises`), and at each moment the running entries are those of the
analyses that have begun and not ended (`Moment.Sound`).
-/

namespace ShapeFlow

/-! ## Moments -/

/-- What happens at a moment. -/
inductive Event where
  /-- The engine is not in use. -/
  | resting
  /-- An analysis is asked for. -/
  | asked (task : Task)
  /-- Nothing is known yet, so the analysis of the body begins. -/
  | begun (task : Task)
  /-- The analysis of the body has ended, and its entry is still running. -/
  | ended (task : Task)
  /-- The analysis that was asked for is over. -/
  | returned (task : Task) (answer : Except Failure SummaryId)

/-- A moment in the use of an engine. -/
structure Moment where
  event : Event
  /-- The tasks whose bodies are under analysis, the innermost first. -/
  active : List Task
  /-- How many more analyses may run within the innermost one. -/
  room : Nat
  knowledge : Knowledge

/-- What a step has answered. -/
def answerOf {τ α : Type} : EStateM.Result Failure τ α → Except Failure α
  | .ok value _ => .ok value
  | .error failure _ => .error failure

/-- The body of the definition is analyzed for the task: the arity is right, and the memo has
no entry for the argument types. -/
structure Task.Opens (declarations : Declarations) (knowledge : Knowledge) (task : Task)
    (definition : Definition) (memo : Memo SummaryId) : Prop where
  defined : declarations.definition? task.target = some definition
  arity : definition.arity = task.arguments.length
  held : knowledge.memos[task.target.index]? = some memo
  missing : memo.find? knowledge.graph task.arguments = none

/-- The definition whose body is analyzed for the task, and its memo. -/
def Task.opening? (declarations : Declarations) (knowledge : Knowledge) (task : Task) :
    Option (Definition × Memo SummaryId) :=
  match declarations.definition? task.target, knowledge.memos[task.target.index]? with
  | some definition, some memo =>
    if definition.arity = task.arguments.length ∧
        memo.find? knowledge.graph task.arguments = none then
      some (definition, memo)
    else none
  | _, _ => none

theorem Task.opening?_eq_some_iff {declarations : Declarations} {knowledge : Knowledge}
    {task : Task} {definition : Definition} {memo : Memo SummaryId} :
    task.opening? declarations knowledge = some (definition, memo) ↔
      task.Opens declarations knowledge definition memo := by
  constructor
  · intro hopening
    unfold opening? at hopening
    split at hopening
    · rename_i defined held hdefined hheld
      split at hopening
      · rename_i hfits
        cases hopening
        exact ⟨hdefined, hfits.1, hheld, hfits.2⟩
      · exact nomatch hopening
    · exact nomatch hopening
  · intro hopens
    unfold opening?
    rw [hopens.defined, hopens.held]
    exact if_pos ⟨hopens.arity, hopens.missing⟩

section Moments

variable (declarations : Declarations) (limit : Nat)

/-- The analysis of a task, with some room. -/
abbrev Task.analyze (room : Nat) (task : Task) : Knowing SummaryId :=
  ShapeFlow.analyze declarations limit room task.target task.arguments

/-- The analysis of the body of the task, with some room for what the body asks. -/
abbrev Task.summarize (room : Nat) (task : Task) (definition : Definition) : Knowing Summary :=
  ShapeFlow.summarize (ShapeFlow.analyze declarations limit room) declarations definition
    ⟨definition.qualifiedName, task.arguments⟩

/-- What the body of the task asks when its analysis begins with some knowledge. -/
noncomputable def Task.questions (room : Nat) (task : Task) (definition : Definition)
    (begun : Knowledge) : List (Task × Knowledge) :=
  (inquiryOf declarations definition ⟨definition.qualifiedName, task.arguments⟩ begun).questions
    (ShapeFlow.analyze declarations limit room)

/-- The moments from the beginning to the end of the analysis of a body, if those of each
question are given. -/
noncomputable def Task.bodyMoments (room : Nat) (active : List Task) (task : Task)
    (definition : Definition) (begun : Knowledge) (visit : Task × Knowledge → List Moment) :
    List Moment :=
  ⟨.begun task, task :: active, room, begun⟩ ::
    ((task.questions declarations limit room definition begun).flatMap visit ++
      [⟨.ended task, task :: active, room,
        endOf (task.summarize declarations limit room definition begun)⟩])

/-- The moments of an analysis with some room, asked for while others are active. -/
noncomputable def moments : Nat → List Task → Task → Knowledge → List Moment
  | room, active, task, knowledge =>
    let body := match room with
      | 0 => []
      | room + 1 =>
        match task.opening? declarations knowledge with
        | none => []
        | some (definition, memo) =>
          task.bodyMoments declarations limit room active definition
            (knowledge.begin task.target task.arguments memo) fun question =>
              moments room (task :: active) question.1 question.2
    let outcome := task.analyze declarations limit room knowledge
    ⟨.asked task, active, room, knowledge⟩ ::
      (body ++ [⟨.returned task (answerOf outcome), active, room, endOf outcome⟩])

end Moments

variable {declarations : Declarations} {limit room : Nat} {task : Task} {active : List Task}
  {knowledge later : Knowledge} {definition : Definition} {memo : Memo SummaryId}

/-! ## What an analysis comes to -/

/-- An entry is found by argument types with its unfoldings. -/
theorem Memo.find?_eq_some_iff {graph : TypeGraph} {arguments : List TypeId}
    {progress : Progress SummaryId} (hclosed : graph.Closed) (hmemo : memo.Sound graph)
    (hhas : ∀ type ∈ arguments, graph.Has type) :
    memo.find? graph arguments = some progress ↔ ∃ entry ∈ memo.entries,
      entry.progress = progress ∧ graph.SameUnfoldings entry.arguments graph arguments := by
  constructor
  · exact exists_of_find? hclosed hmemo hhas
  · intro hentry
    obtain ⟨entry, hmem, rfl, hsame⟩ := hentry
    cases hfound : memo.find? graph arguments with
    | none => exact absurd hsame (unlike_of_find? hclosed hmemo hhas hfound hmem)
    | some progress =>
      obtain ⟨other, hother, rfl, hsame'⟩ := exists_of_find? hclosed hmemo hhas hfound
      rw [eq_of_sameUnfoldings hmemo hother hmem (hsame'.trans hsame.symm)]

/-- Whether a step succeeds or fails, it learns and leaves sound knowledge. -/
theorem Discipline.Ends.endOf {α : Type} {outcome : EStateM.Result Failure Knowledge α}
    {post : α → Knowledge → Prop} (hends : (learning declarations).Ends knowledge outcome post)
    (hpost : ∀ value later, post value later → later.Sound declarations) :
    knowledge.Learns declarations (ShapeFlow.endOf outcome) ∧
      (ShapeFlow.endOf outcome).Sound declarations := by
  cases outcome with
  | ok value later => exact ⟨hends.1, hpost value later hends.2⟩
  | error failure later => exact ⟨hends.1, hends.2.1⟩

/-- The ways in which an analysis can go. -/
inductive Task.Goes (declarations : Declarations) (limit room : Nat) (task : Task)
    (knowledge : Knowledge) : EStateM.Result Failure Knowledge SummaryId → Prop where
  /-- There is no such definition, or it has another arity. -/
  | unfit (failure : Failure)
    (hunfit : ∀ definition, declarations.definition? task.target = some definition →
      definition.arity ≠ task.arguments.length) :
    Goes declarations limit room task knowledge (.error failure knowledge)
  /-- There is an answer. -/
  | known (memo : Memo SummaryId) (id : SummaryId)
    (hheld : knowledge.memos[task.target.index]? = some memo)
    (hfound : memo.find? knowledge.graph task.arguments = some (.done id)) :
    Goes declarations limit room task knowledge
      (.ok id (knowledge.look task.target task.arguments memo))
  /-- The analysis is running. -/
  | recursive (memo : Memo SummaryId) (name : String)
    (hheld : knowledge.memos[task.target.index]? = some memo)
    (hfound : memo.find? knowledge.graph task.arguments = some .running) :
    Goes declarations limit room task knowledge
      (.error (.rejected (.cause (.recursiveSignature name)))
        (knowledge.look task.target task.arguments memo))
  /-- There is no entry, and no room to make one. -/
  | exceeded (definition : Definition) (memo : Memo SummaryId) (name : String)
    (hopens : task.Opens declarations knowledge definition memo) (hroom : room = 0) :
    Goes declarations limit room task knowledge
      (.error (.rejected (.cause (.depthExceeded name limit)))
        (knowledge.look task.target task.arguments memo))
  /-- The body is analyzed with success. -/
  | answered (definition : Definition) (memo ended : Memo SummaryId) (left : Nat)
    (summary : Summary) (later : Knowledge)
    (hopens : task.Opens declarations knowledge definition memo) (hroom : room = left + 1)
    (hbody : task.summarize declarations limit left definition
      (knowledge.begin task.target task.arguments memo) = .ok summary later)
    (hended : later.memos[task.target.index]? = some ended)
    (hstarted : Knowledge.startedEntry knowledge.graph task.arguments ∈ ended.entries) :
    Goes declarations limit room task knowledge
      (.ok ⟨later.summaries.size⟩ (later.finish task.target task.arguments ended summary))
  /-- The analysis of the body fails. -/
  | failed (definition : Definition) (memo ended : Memo SummaryId) (left : Nat)
    (failure : Failure) (name : String) (later : Knowledge)
    (hopens : task.Opens declarations knowledge definition memo) (hroom : room = left + 1)
    (hbody : task.summarize declarations limit left definition
      (knowledge.begin task.target task.arguments memo) = .error failure later)
    (hended : later.memos[task.target.index]? = some ended)
    (hstarted : Knowledge.startedEntry knowledge.graph task.arguments ∈ ended.entries) :
    Goes declarations limit room task knowledge
      (.error (failure.within name) (later.forget task.target task.arguments ended))

section Outcomes

variable (hsound : knowledge.Sound declarations)
  (hhas : ∀ type ∈ task.arguments, knowledge.graph.Has type)

include hsound hhas

/-- The analysis of the body leads to sound knowledge, with the entry still running. -/
theorem Task.Opens.summarize_learns (hopens : task.Opens declarations knowledge definition memo)
    (limit room : Nat) :
    (knowledge.begin task.target task.arguments memo).Learns declarations
        (endOf (task.summarize declarations limit room definition
          (knowledge.begin task.target task.arguments memo))) ∧
      (endOf (task.summarize declarations limit room definition
        (knowledge.begin task.target task.arguments memo))).Sound declarations := by
  exact (summarize_ends (analyze_sound limit room) (hsound.begin hopens.held hhas hopens.missing)
    definition ⟨definition.qualifiedName, task.arguments⟩ hhas).endOf fun _ _ hpost => hpost.1

theorem Task.goes (limit room : Nat) : task.Goes declarations limit room knowledge
    (task.analyze declarations limit room knowledge) := by
  obtain ⟨target, arguments⟩ := task
  cases hdefined : declarations.definition? target with
  | none =>
    rw [Task.analyze, analyze_of_definition?_eq_none hdefined]
    exact .unfit _ fun definition hdefinition => by simp [hdefined] at hdefinition
  | some definition =>
    by_cases harity : definition.arity = arguments.length
    · obtain ⟨memo, hheld⟩ := hsound.exists_memo hdefined
      cases hfound : memo.find? knowledge.graph arguments with
      | some progress =>
        cases progress with
        | done id =>
          rw [Task.analyze, analyze_of_done hdefined harity hheld hfound]
          exact .known memo id hheld hfound
        | running =>
          rw [Task.analyze, analyze_of_running hdefined harity hheld hfound]
          exact .recursive memo _ hheld hfound
      | none =>
        have hopens : Task.Opens declarations knowledge ⟨target, arguments⟩ definition memo :=
          ⟨hdefined, harity, hheld, hfound⟩
        cases room with
        | zero =>
          rw [Task.analyze, analyze_zero hdefined harity hheld hfound]
          exact .exceeded definition memo _ hopens rfl
        | succ left =>
          obtain ⟨hlearns, -⟩ := hopens.summarize_learns hsound hhas limit left
          cases hbody : Task.summarize declarations limit left ⟨target, arguments⟩ definition
            (knowledge.begin target arguments memo) with
          | ok summary later =>
            rw [hbody] at hlearns
            obtain ⟨ended, hended, hstarted⟩ := Knowledge.exists_memo_of_begin hheld hlearns
            rw [Task.analyze, analyze_of_ok hdefined harity hheld hfound hended hbody]
            exact .answered definition memo ended left summary later hopens rfl hbody hended
              hstarted
          | error failure later =>
            rw [hbody] at hlearns
            obtain ⟨ended, hended, hstarted⟩ := Knowledge.exists_memo_of_begin hheld hlearns
            rw [Task.analyze, analyze_of_error hdefined harity hheld hfound hended hbody]
            exact .failed definition memo ended left failure _ later hopens rfl hbody hended
              hstarted
    · rw [Task.analyze, analyze_of_arity_ne hdefined harity]
      refine .unfit _ fun other hother => ?_
      obtain rfl := Option.some.inj (hdefined.symm.trans hother)
      exact harity

theorem Task.analyze_learns (limit room : Nat) :
    knowledge.Learns declarations (endOf (task.analyze declarations limit room knowledge)) ∧
      (endOf (task.analyze declarations limit room knowledge)).Sound declarations :=
  (analyze_sound limit room task.target task.arguments knowledge hsound hhas).endOf
    fun _ _ hpost => hpost.1

/-- An analysis that fails leaves no answer for the argument types. -/
theorem Task.not_answers_of_error {failure : Failure}
    (hfailed : task.analyze declarations limit room knowledge = .error failure later)
    (id : SummaryId) : ¬ later.Answers task.target task.arguments id := by
  intro hanswers
  obtain ⟨hlearns, hlater⟩ := task.analyze_learns hsound hhas limit room
  rw [hfailed] at hlearns hlater
  obtain ⟨entry, hentry, hdone, hsame⟩ := hanswers
  -- An answer would stand in an entry beside the one that is found, running or missing.
  have hgoes := task.goes hsound hhas limit room
  rw [hfailed] at hgoes
  cases hgoes with
  | unfit _ hunfit =>
    obtain ⟨definition, summary, hdefinition, -, hsummarizes, harguments⟩ :=
      hsound.answers task.target entry id hentry hdone
    refine hunfit definition hdefinition ?_
    rw [← hsummarizes.arity, harguments]
    exact List.Forall₂.length_eq hsame
  | recursive memo name hheld hfound =>
    have hmem :=
      (Knowledge.hasEntry_iff_mem hheld).mp ((Knowledge.hasEntry_look_iff hheld).mp hentry)
    have hdone' := (Memo.find?_eq_some_iff hsound.graph.closed (hsound.memos _ memo hheld) hhas).mpr
      ⟨entry, hmem, hdone, hsame⟩
    simp [hfound] at hdone'
  | exceeded definition memo name hopens hroom =>
    have hmem := (Knowledge.hasEntry_iff_mem hopens.held).mp
      ((Knowledge.hasEntry_look_iff hopens.held).mp hentry)
    exact Memo.unlike_of_find? hsound.graph.closed (hsound.memos _ memo hopens.held) hhas
      hopens.missing hmem hsame
  | failed definition memo ended left failure name later' hopens hroom hbody hended hstarted =>
    obtain ⟨-, hsound'⟩ := hopens.summarize_learns hsound hhas limit left
    rw [hbody] at hsound'
    obtain ⟨hentry, hother⟩ :=
      (Knowledge.hasEntry_forget_iff hsound' hended hstarted rfl rfl).mp hentry
    exact hother ⟨rfl, Memo.eq_of_sameUnfoldings (hsound'.memos _ ended hended)
      ((Knowledge.hasEntry_iff_mem hended).mp hentry) hstarted hsame⟩

end Outcomes

/-! ## Active analyses -/

namespace Knowledge

/-- The memo of the definition has a running entry for the argument types. -/
def Runs (knowledge : Knowledge) (task : Task) : Prop :=
  ∃ entry, knowledge.HasEntry task.target entry ∧ entry.progress = .running ∧
    entry.arguments = task.arguments

/-- The running entries are those of the active tasks. -/
structure Attends (knowledge : Knowledge) (active : List Task) : Prop where
  nodup : active.Nodup
  mem_iff : ∀ task, task ∈ active ↔ knowledge.Runs task

theorem Learns.runs_iff (hlearns : knowledge.Learns declarations later) (task : Task) :
    later.Runs task ↔ knowledge.Runs task := by
  rw [Runs, Runs]
  refine exists_congr fun entry => and_congr_left fun hentry => ?_
  exact hlearns.running task.target entry hentry.1

theorem Attends.learns (hattends : knowledge.Attends active)
    (hlearns : knowledge.Learns declarations later) : later.Attends active where
  nodup := hattends.nodup
  mem_iff task := (hattends.mem_iff task).trans (hlearns.runs_iff task).symm

theorem Attends.begin (hattends : knowledge.Attends active) (hsound : knowledge.Sound declarations)
    (hhas : ∀ type ∈ task.arguments, knowledge.graph.Has type)
    (hopens : task.Opens declarations knowledge definition memo) :
    (knowledge.begin task.target task.arguments memo).Attends (task :: active) where
  nodup := by
    refine List.nodup_cons.mpr ⟨fun hmem => ?_, hattends.nodup⟩
    obtain ⟨entry, hentry, -, harguments⟩ := (hattends.mem_iff task).mp hmem
    refine Memo.unlike_of_find? hsound.graph.closed (hsound.memos _ memo hopens.held) hhas
      hopens.missing ((hasEntry_iff_mem hopens.held).mp hentry) ?_
    rw [harguments]
    exact .refl hsound.graph.closed hhas
  mem_iff other := by
    rw [List.mem_cons, hattends.mem_iff, Runs, Runs]
    constructor
    · rintro (rfl | ⟨entry, hentry, hrunning, harguments⟩)
      · exact ⟨startedEntry knowledge.graph other.arguments,
          (hasEntry_begin_iff hopens.held).mpr (Or.inr ⟨rfl, rfl⟩), rfl, rfl⟩
      · exact ⟨entry, (hasEntry_begin_iff hopens.held).mpr (Or.inl hentry), hrunning, harguments⟩
    · rintro ⟨entry, hentry, hrunning, harguments⟩
      rcases (hasEntry_begin_iff hopens.held).mp hentry with hentry | ⟨htarget, rfl⟩
      · exact Or.inr ⟨entry, hentry, hrunning, harguments⟩
      · obtain ⟨target, arguments⟩ := other
        obtain rfl := htarget
        obtain rfl := harguments
        exact Or.inl rfl

end Knowledge

/-- What the event of a moment says of the active tasks and of what is known. -/
def Event.Holds (active : List Task) (knowledge : Knowledge) : Event → Prop
  | resting => True
  | asked task => ∀ type ∈ task.arguments, knowledge.graph.Has type
  | begun task | ended task => task ∈ active
  | returned task (.ok id) => knowledge.Answers task.target task.arguments id
  | returned task (.error _) => ∀ id, ¬ knowledge.Answers task.target task.arguments id

/-- What is known at the moment is sound, its running entries are those of the active tasks, no
more are active than the limit allows, and the event has taken place. -/
structure Moment.Sound (declarations : Declarations) (limit : Nat) (moment : Moment) : Prop where
  knowledge : moment.knowledge.Sound declarations
  attends : moment.knowledge.Attends moment.active
  depth : moment.active.length + moment.room = limit
  event : moment.event.Holds moment.active moment.knowledge

/-! ## Growth from moment to moment -/

/-- What is known grows from the start to the first moment, from each moment to the next one,
and from the last moment to the finish. -/
def Rises : Knowledge → List Moment → Knowledge → Prop
  | start, [], finish => start.Grows finish
  | start, moment :: rest, finish =>
    start.Grows moment.knowledge ∧ Rises moment.knowledge rest finish

namespace Rises

variable {start middle finish : Knowledge} {before after : List Moment}

theorem from_grown (hgrows : start.Grows middle) (hrises : Rises middle after finish) :
    Rises start after finish := by
  cases after with
  | nil => exact hgrows.trans hrises
  | cons moment rest => exact ⟨hgrows.trans hrises.1, hrises.2⟩

theorem append (hbefore : Rises start before middle) (hafter : Rises middle after finish) :
    Rises start (before ++ after) finish := by
  induction before generalizing start with
  | nil => exact hafter.from_grown hbefore
  | cons moment rest ih => exact ⟨hbefore.1, ih hbefore.2⟩

/-- What is known after a moment has grown from what is known at the moment. -/
theorem of_mem {moment : Moment} (hrises : Rises start (before ++ moment :: after) finish) :
    ∀ later ∈ after, moment.knowledge.Grows later.knowledge := by
  induction before generalizing start with
  | cons first rest ih => exact ih hrises.2
  | nil =>
    have hrest := hrises.2
    clear hrises
    induction after generalizing moment with
    | nil => simp
    | cons next rest ih =>
      intro later hmem
      rcases List.mem_cons.mp hmem with rfl | hmem
      · exact hrest.1
      · exact hrest.1.trans (ih hrest.2 later hmem)

end Rises

/-- The moments of what an inquiry asks, one question after the other. -/
theorem Inquiry.Steady.rises {α : Type} {analyst : Analyst} {inquiry : Inquiry α}
    {visit : Task × Knowledge → List Moment} {earlier : Knowledge}
    (hsteady : inquiry.Steady earlier)
    (hvisit : ∀ question ∈ inquiry.questions analyst, Rises question.2 (visit question)
      (endOf (analyst question.1.target question.1.arguments question.2))) :
    Rises earlier ((inquiry.questions analyst).flatMap visit) (endOf (inquiry.run analyst)) := by
  induction inquiry generalizing earlier with
  | ends outcome =>
    rw [questions, run]
    exact Knowledge.Extends.grows hsteady
  | asks task knowledge next ih =>
    rw [questions] at hvisit ⊢
    obtain ⟨hfirst, hrest⟩ := List.forall_mem_cons.mp hvisit
    rw [List.flatMap_cons, run]
    refine Rises.append (hfirst.from_grown (Knowledge.Extends.grows hsteady.1)) ?_
    cases hanswer : analyst task.target task.arguments knowledge with
    | ok id later =>
      rw [hanswer] at hrest
      exact ih id later (hsteady.2 id later) hrest
    | error failure later => exact Knowledge.Grows.refl later

/-! ## The moments of an analysis -/

section Ends

variable (declarations : Declarations) (limit room : Nat) (active : List Task) (task : Task)
  (knowledge : Knowledge)

/-- The first moment of an analysis is that at which it is asked for. -/
theorem exists_moments_eq_cons : ∃ after,
    moments declarations limit room active task knowledge =
      ⟨.asked task, active, room, knowledge⟩ :: after := by
  rw [moments.eq_def]
  exact ⟨_, rfl⟩

/-- The last moment of an analysis is that at which it returns. -/
theorem exists_moments_eq_append : ∃ before,
    moments declarations limit room active task knowledge = before ++
      [⟨.returned task (answerOf (task.analyze declarations limit room knowledge)), active, room,
        endOf (task.analyze declarations limit room knowledge)⟩] := by
  rw [moments.eq_def]
  exact ⟨_, (List.cons_append ..).symm⟩

end Ends

/-- The analysis of a body begins while its task is active. -/
theorem begun_mem_moments (hopens : task.Opens declarations knowledge definition memo) :
    ⟨.begun task, task :: active, room, knowledge.begin task.target task.arguments memo⟩ ∈
      moments declarations limit (room + 1) active task knowledge := by
  rw [moments]
  simp only [Task.opening?_eq_some_iff.mpr hopens, Task.bodyMoments]
  exact List.mem_cons_of_mem _ (List.mem_append_left _ List.mem_cons_self)

section Analysis

variable (hsound : knowledge.Sound declarations)
  (hhas : ∀ type ∈ task.arguments, knowledge.graph.Has type)

include hsound hhas

/-- The analysis of a body ends, and then its entry is answered or forgotten. -/
theorem Task.Opens.summarize_grows (hopens : task.Opens declarations knowledge definition memo) :
    (endOf (task.summarize declarations limit room definition
      (knowledge.begin task.target task.arguments memo))).Grows
        (endOf (task.analyze declarations limit (room + 1) knowledge)) := by
  obtain ⟨hlearns, hlater⟩ := hopens.summarize_learns hsound hhas limit room
  cases hbody : task.summarize declarations limit room definition
    (knowledge.begin task.target task.arguments memo) with
  | ok summary later =>
    rw [hbody] at hlearns hlater
    obtain ⟨ended, hended, hstarted⟩ := Knowledge.exists_memo_of_begin hopens.held hlearns
    rw [Task.analyze, analyze_of_ok hopens.defined hopens.arity hopens.held hopens.missing hended
      hbody]
    exact Knowledge.grows_finish hlater hended hstarted rfl rfl
  | error failure later =>
    rw [hbody] at hlearns hlater
    obtain ⟨ended, hended, hstarted⟩ := Knowledge.exists_memo_of_begin hopens.held hlearns
    rw [Task.analyze, analyze_of_error hopens.defined hopens.arity hopens.held hopens.missing
      hended hbody]
    exact Knowledge.grows_forget hlater hended hstarted rfl rfl

theorem returned_sound (hattends : knowledge.Attends active)
    (hdepth : active.length + room = limit) :
    Moment.Sound declarations limit
      ⟨.returned task (answerOf (task.analyze declarations limit room knowledge)), active, room,
        endOf (task.analyze declarations limit room knowledge)⟩ := by
  obtain ⟨hlearns, hlater⟩ := task.analyze_learns hsound hhas limit room
  refine ⟨hlater, hattends.learns hlearns, hdepth, ?_⟩
  have hends := analyze_sound limit room task.target task.arguments knowledge hsound hhas
  cases houtcome : task.analyze declarations limit room knowledge with
  | ok id later =>
    rw [show ShapeFlow.analyze declarations limit room task.target task.arguments knowledge =
      .ok id later from houtcome] at hends
    exact hends.2.2
  | error failure later => exact task.not_answers_of_error hsound hhas houtcome

/-- Sound moments of a body, with one moment before and one after. -/
theorem sound_around (body : List Moment) {middle : Knowledge} (hattends : knowledge.Attends active)
    (hdepth : active.length + room = limit) (hrises : Rises knowledge body middle)
    (hgrows : middle.Grows (endOf (task.analyze declarations limit room knowledge)))
    (hbody : ∀ moment ∈ body, moment.Sound declarations limit) :
    let outcome := task.analyze declarations limit room knowledge
    let all := ⟨.asked task, active, room, knowledge⟩ ::
      (body ++ [⟨.returned task (answerOf outcome), active, room, endOf outcome⟩])
    Rises knowledge all (endOf outcome) ∧ ∀ moment ∈ all, moment.Sound declarations limit := by
  refine ⟨⟨.refl knowledge, hrises.append ⟨hgrows, .refl _⟩⟩, ?_⟩
  refine List.forall_mem_cons.mpr ⟨⟨hsound, hattends, hdepth, hhas⟩, ?_⟩
  refine List.forall_mem_append.mpr ⟨hbody, List.forall_mem_singleton.mpr ?_⟩
  exact returned_sound hsound hhas hattends hdepth

/-- Sound moments of an analysis that finds an entry or has no room. -/
theorem sound_around_nothing (hattends : knowledge.Attends active)
    (hdepth : active.length + room = limit) :
    let outcome := task.analyze declarations limit room knowledge
    let all := ⟨.asked task, active, room, knowledge⟩ ::
      ([] ++ [⟨.returned task (answerOf outcome), active, room, endOf outcome⟩])
    Rises knowledge all (endOf outcome) ∧ ∀ moment ∈ all, moment.Sound declarations limit :=
  sound_around hsound hhas [] hattends hdepth (task.analyze_learns hsound hhas limit room).1.toGrows
    (.refl _) (List.forall_mem_nil _)

/-- The moments of an analysis lead from its start to its end, and all of them are sound. -/
theorem moments_sound (hattends : knowledge.Attends active)
    (hdepth : active.length + room = limit) :
    Rises knowledge (moments declarations limit room active task knowledge)
        (endOf (task.analyze declarations limit room knowledge)) ∧
      ∀ moment ∈ moments declarations limit room active task knowledge,
        moment.Sound declarations limit := by
  induction room generalizing active task knowledge with
  | zero =>
    rw [moments]
    exact sound_around_nothing hsound hhas hattends hdepth
  | succ room ih =>
    rw [moments]
    cases hopening : task.opening? declarations knowledge with
    | none => exact sound_around_nothing hsound hhas hattends hdepth
    | some result =>
      obtain ⟨definition, memo⟩ := result
      have hopens := Task.opening?_eq_some_iff.mp hopening
      have hbegun := hsound.begin hopens.held hhas hopens.missing
      have hwithin := hattends.begin hsound hhas hopens
      have hdeeper : (task :: active).length + room = limit := by
        rw [List.length_cons]
        omega
      -- What the body asks is asked while the task is active, with less room.
      have hvisit : ∀ question ∈ task.questions declarations limit room definition
          (knowledge.begin task.target task.arguments memo),
          Rises question.2 (moments declarations limit room (task :: active) question.1 question.2)
            (endOf (question.1.analyze declarations limit room question.2)) ∧
          ∀ moment ∈ moments declarations limit room (task :: active) question.1 question.2,
            moment.Sound declarations limit := by
        intro question hmem
        obtain ⟨hlearns, hknown, htypes⟩ :=
          sound_of_mem_questions (analyze_sound limit room) hbegun hhas hmem
        exact ih hknown htypes (hwithin.learns hlearns) hdeeper
      obtain ⟨hlearns, hended⟩ :=
        hopens.summarize_learns hsound hhas limit room
      refine sound_around hsound hhas _ hattends hdepth
        ⟨Knowledge.grows_begin hopens.held task.arguments, ?_⟩
        (hopens.summarize_grows hsound hhas) ?_
      · have hrises := (inquiryOf_steady definition ⟨definition.qualifiedName, task.arguments⟩
          (knowledge.begin task.target task.arguments memo)).rises
            fun question hmem => (hvisit question hmem).1
        rw [run_inquiryOf] at hrises
        exact hrises.append ⟨.refl _, .refl _⟩
      · refine List.forall_mem_cons.mpr ⟨⟨hbegun, hwithin, hdeeper, List.mem_cons_self⟩, ?_⟩
        refine List.forall_mem_append.mpr ⟨fun moment hmem => ?_, List.forall_mem_singleton.mpr
          ⟨hended, hwithin.learns hlearns, hdeeper, List.mem_cons_self⟩⟩
        obtain ⟨question, hquestion, hmoment⟩ := List.mem_flatMap.mp hmem
        exact (hvisit question hquestion).2 moment hmoment

end Analysis

/-! ## Sessions -/

namespace Engine

variable {program : Program} {engine : Engine} {history : List Moment}

/-- The moment at which the engine is not in use. -/
def rest (engine : Engine) : Moment := ⟨.resting, [], engine.limit, engine.knowledge⟩

/-- The same program with other knowledge. -/
def withKnowledge (engine : Engine) (knowledge : Knowledge) : Engine := { engine with knowledge }

/-- The engines that the uses of a program lead to, each with the moments until then. -/
inductive Session (program : Program) (limit : Nat) : Engine → List Moment → Prop where
  | start : Session program limit (ofProgram program limit) [(ofProgram program limit).rest]
  /-- Types are built. -/
  | build (engine : Engine) (history : List Moment) (graph : TypeGraph)
    (hsession : Session program limit engine history)
    (hstep : engine.Step (engine.withGraph graph)) :
    Session program limit (engine.withGraph graph) (history ++ [(engine.withGraph graph).rest])
  /-- An analysis is asked for, while none is active. -/
  | analyze (engine : Engine) (history : List Moment) (task : Task)
    (hsession : Session program limit engine history)
    (harguments : ∀ type ∈ task.arguments, engine.graph.Has type) :
    Session program limit (engine.analyze task.target task.arguments).2
      (history ++ moments engine.declarations engine.limit engine.limit [] task engine.knowledge)

theorem analyze_snd (engine : Engine) (task : Task) :
    (engine.analyze task.target task.arguments).2 = engine.withKnowledge
      (endOf (task.analyze engine.declarations engine.limit engine.limit engine.knowledge)) := by
  unfold Engine.analyze
  split <;> rename_i houtcome <;> rw [Task.analyze, houtcome] <;> rfl

/-- What holds after each use of a session: nothing is running, and the moments until then are
sound and lead from knowing nothing to what is known. -/
structure Follows (program : Program) (limit : Nat) (engine : Engine) (history : List Moment) :
    Prop where
  declarations_eq : engine.declarations = .ofProgram program
  limit_eq : engine.limit = limit
  knowledge : engine.knowledge.Sound (.ofProgram program)
  attends : engine.knowledge.Attends []
  rises : Rises (.initial (.ofProgram program)) history engine.knowledge
  moments : ∀ moment ∈ history, moment.Sound (.ofProgram program) limit

/-- A session follows the rules. -/
theorem Session.follows {limit : Nat} (hsession : Session program limit engine history) :
    Follows program limit engine history := by
  induction hsession with
  | start =>
    have hattends : (ofProgram program limit).knowledge.Attends [] :=
      ⟨.nil, fun task => ⟨nofun, fun ⟨entry, hentry, _⟩ =>
        absurd hentry (not_hasEntry_initial _ task.target entry)⟩⟩
    exact ⟨rfl, rfl, sound_initial _, hattends, ⟨.refl _, .refl _⟩,
      List.forall_mem_singleton.mpr ⟨sound_initial _, hattends, Nat.zero_add limit, trivial⟩⟩
  | build engine history graph hsession hstep ih =>
    obtain ⟨-, hlearns, hsound⟩ := hstep.learns (ih.declarations_eq ▸ ih.knowledge)
    rw [ih.declarations_eq] at hlearns hsound
    have hattends := ih.attends.learns hlearns
    refine ⟨ih.declarations_eq, ih.limit_eq, hsound, hattends,
      ih.rises.append ⟨hlearns.toGrows, .refl _⟩, ?_⟩
    refine List.forall_mem_append.mpr ⟨ih.moments, List.forall_mem_singleton.mpr
      ⟨hsound, hattends, ?_, trivial⟩⟩
    exact (Nat.zero_add _).trans ih.limit_eq
  | analyze engine history task hsession harguments ih =>
    rw [analyze_snd, ih.declarations_eq, ih.limit_eq]
    obtain ⟨hlearns, hsound⟩ := task.analyze_learns ih.knowledge harguments limit limit
    obtain ⟨hrises, hmoments⟩ :=
      moments_sound ih.knowledge harguments ih.attends (Nat.zero_add limit)
    exact ⟨ih.declarations_eq, ih.limit_eq, hsound, ih.attends.learns hlearns,
      ih.rises.append hrises, List.forall_mem_append.mpr ⟨ih.moments, hmoments⟩⟩

/-- Sessions lead to the reachable engines. -/
theorem reachable_iff_session {limit : Nat} :
    Reachable program limit engine ↔ ∃ history, Session program limit engine history := by
  constructor
  · intro hreachable
    induction hreachable with
    | refl => exact ⟨_, .start⟩
    | tail _ hstep ih =>
      obtain ⟨history, hsession⟩ := ih
      cases hstep with
      | object className => exact ⟨_, .build _ history _ hsession (.object _ className)⟩
      | bindField type part selector result hpart hbind =>
        exact ⟨_, .build _ history _ hsession (.bindField _ type part selector result hpart hbind)⟩
      | bindAt type part selectors result hpart hbind =>
        exact ⟨_, .build _ history _ hsession (.bindAt _ type part selectors result hpart hbind)⟩
      | analyze target arguments harguments =>
        exact ⟨_, .analyze _ history ⟨target, arguments⟩ hsession harguments⟩
  · intro hsession
    obtain ⟨history, hsession⟩ := hsession
    induction hsession with
    | start => exact .refl
    | build engine history graph _ hstep ih => exact ih.tail hstep
    | analyze engine history task _ harguments ih => exact ih.tail (.analyze _ _ _ harguments)

end Engine

end ShapeFlow
