import ShapeFlow.Proofs.Sessions

/-!
# A signature is analyzed once

At no moment of a session does a memo have two entries for argument types of the same shapes.
An answer that an analysis has returned once stays: from then on every analysis of the
definition for argument types of these shapes returns this very summary, by a look-up alone,
whoever asks for it and whatever has been analyzed or has failed in between
(`Engine.Session.analyzed_once`).
-/

namespace ShapeFlow

open TypeGraph (SameUnfoldings)

variable {declarations : Declarations} {limit : Nat} {task : Task} {moment : Moment}
  {knowledge : Knowledge} {others : List TypeId} {id : SummaryId}

/-- Two entries of a memo differ in the shapes of their argument types, also when more types
have been added. -/
theorem Memo.Sound.sameShapes_eq_false {α : Type} {memo : Memo α} {graph grown : TypeGraph}
    (hmemo : memo.Sound graph) (hclosed : graph.Closed) (hgrows : graph.Grows grown)
    (hclosed' : grown.Closed) :
    memo.entries.Pairwise fun first second =>
      grown.sameShapes first.arguments second.arguments = false := by
  have hgrown := hmemo.mono hclosed hgrows
  refine hgrown.apart.imp_of_mem fun {first second} hfirst hsecond hunlike => ?_
  rw [Bool.eq_false_iff, ne_eq, TypeGraph.sameShapes_iff hclosed' (hgrown.entries first hfirst).has
    (hgrown.entries second hsecond).has]
  exact hunlike

/-- An answer goes for all argument types with the same unfoldings. -/
theorem Knowledge.Answers.of_sameUnfoldings {target : DefId} {types : List TypeId}
    (hanswers : knowledge.Answers target types id)
    (hsame : knowledge.graph.SameUnfoldings types knowledge.graph others) :
    knowledge.Answers target others id := by
  obtain ⟨entry, hentry, hdone, hentrySame⟩ := hanswers
  exact ⟨entry, hentry, hdone, hentrySame.trans hsame⟩

/-- With an answer nothing is analyzed: the answer is returned, and the look-up is counted. -/
theorem Task.analyze_eq_of_answers (hsound : knowledge.Sound declarations)
    (hanswers : knowledge.Answers task.target task.arguments id) (limit room : Nat) :
    ∃ memo, knowledge.memos[task.target.index]? = some memo ∧
      memo.find? knowledge.graph task.arguments = some (.done id) ∧
      task.analyze declarations limit room knowledge =
        .ok id (knowledge.look task.target task.arguments memo) := by
  obtain ⟨definition, summary, hdefined, -, hsummarizes, hsame⟩ := hsound.exists_summary hanswers
  have harity : definition.arity = task.arguments.length :=
    hsummarizes.arity.symm.trans (List.Forall₂.length_eq hsame)
  obtain ⟨entry, ⟨memo, hmemo, hmem⟩, hdone, hentry⟩ := hanswers
  have hhas := hentry.symm.has_left
  have hfound := (Memo.find?_eq_some_iff hsound.graph.closed (hsound.memos _ memo hmemo) hhas).mpr
    ⟨entry, hmem, hdone, hentry⟩
  exact ⟨memo, hmemo, hfound, analyze_of_done hdefined harity hmemo hfound⟩

/-- What is so of a task at a moment, once it has been answered. -/
structure Moment.Recalls (engine : Engine) (moment : Moment) (task : Task) (id : SummaryId) :
    Prop where
  /-- The analysis of the body does not begin. -/
  not_begun : moment.event ≠ .begun task
  /-- If an analysis returns, it returns this answer. -/
  returned : ∀ answer, moment.event = .returned task answer → answer = .ok id
  /-- The answer is known without an analysis. -/
  known : (engine.withKnowledge moment.knowledge).known? task.target task.arguments = some id
  /-- An analysis that is asked for returns this answer, and only the look-up is new. -/
  analyze : ∀ room, ∃ memo, moment.knowledge.memos[task.target.index]? = some memo ∧
    task.analyze engine.declarations engine.limit room moment.knowledge =
      .ok id (moment.knowledge.look task.target task.arguments memo)

theorem Moment.Sound.recalls {engine : Engine} {limit : Nat} (task : Task)
    (hmoment : moment.Sound engine.declarations limit)
    (hanswers : moment.knowledge.Answers task.target task.arguments id) :
    moment.Recalls engine task id := by
  have hsound := hmoment.knowledge
  have hevent := hmoment.event
  have hclosed := hsound.graph.closed
  have hhas : ∀ type ∈ task.arguments, moment.knowledge.graph.Has type := by
    obtain ⟨_, _, _, hsame⟩ := hanswers
    exact hsame.symm.has_left
  have hsame : moment.knowledge.graph.SameUnfoldings task.arguments moment.knowledge.graph
      task.arguments := .refl hclosed hhas
  obtain ⟨memo, hmemo, hfound, -⟩ := task.analyze_eq_of_answers hsound hanswers 0 0
  refine ⟨fun hbegun => ?_, fun answer hreturned => ?_, ?_, fun room => ?_⟩
  · -- The entry of the body would be running beside the answer.
    rw [hbegun] at hevent
    obtain ⟨entry, hentry, hrunning, harguments⟩ := (hmoment.attends.mem_iff task).mp hevent
    have hmem := (Knowledge.hasEntry_iff_mem hmemo).mp hentry
    have hfound' := (Memo.find?_eq_some_iff hclosed (hsound.memos _ memo hmemo) hhas).mpr
      ⟨entry, hmem, hrunning, harguments ▸ hsame⟩
    exact nomatch hfound.symm.trans hfound'
  · rw [hreturned] at hevent
    cases answer with
    | ok other => exact congrArg Except.ok (hsound.answer_unique hevent hanswers hsame)
    | error failure => exact absurd hanswers (hevent id)
  · show (moment.knowledge.memos[task.target.index]?.bind fun memo =>
      memo.answer? moment.knowledge.graph task.arguments) = some id
    rw [hmemo, Option.bind_some, Memo.answer?, hfound]
    rfl
  · obtain ⟨memo, hmemo, -, hanalyze⟩ :=
      task.analyze_eq_of_answers hsound hanswers engine.limit room
    exact ⟨memo, hmemo, hanalyze⟩

/-- No memo ever has two entries for argument types of the same shapes.  Once an analysis has
returned an answer, at every later moment of the session this answer stands for all argument
types of the same shapes, and so does the summary behind it. -/
theorem Engine.Session.analyzed_once {program : Program} {limit : Nat} {engine : Engine}
    {history : List Moment} (hsession : Engine.Session program limit engine history) :
    (∀ moment ∈ history, ∀ graph, moment.knowledge.graph.Grows graph → graph.Closed →
      ∀ target memo, moment.knowledge.memos[DefId.index target]? = some memo →
        memo.entries.Pairwise fun first second =>
          graph.sameShapes first.arguments second.arguments = false) ∧
    ∀ before moment after task id, history = before ++ moment :: after →
      moment.event = .returned task (.ok id) →
        ∀ later ∈ after, ∀ others, (∀ type ∈ others, later.knowledge.graph.Has type) →
          later.knowledge.graph.sameShapes task.arguments others = true →
            later.Recalls engine ⟨task.target, others⟩ id ∧
            ∃ summary, moment.knowledge.summaries[id.index]? = some summary ∧
              later.knowledge.summaries[id.index]? = some summary := by
  have hfollows := hsession.follows
  refine ⟨fun moment hmoment graph hgrows hclosed target memo hmemo => ?_, ?_⟩
  · have hsound := (hfollows.moments moment hmoment).knowledge
    exact (hsound.memos target memo hmemo).sameShapes_eq_false hsound.graph.closed hgrows hclosed
  · intro before moment after task id hhistory hreturned later hlater others hhas hshapes
    have hrises := hfollows.rises
    rw [hhistory] at hrises
    have hmoment := hfollows.moments moment (hhistory ▸ List.mem_append_right _ List.mem_cons_self)
    have hsound := hfollows.moments later
      (hhistory ▸ List.mem_append_right _ (List.mem_cons_of_mem _ hlater))
    have hgrows := hrises.of_mem later hlater
    -- The answer was there at the moment, and answers stay.
    have hevent := hmoment.event
    rw [hreturned] at hevent
    have hanswers : later.knowledge.Answers task.target task.arguments id := hevent.mono hgrows
    have htypes : ∀ type ∈ task.arguments, later.knowledge.graph.Has type := by
      obtain ⟨_, _, _, hsame⟩ := hanswers
      exact hsame.symm.has_left
    have hsame := (TypeGraph.sameShapes_iff hsound.knowledge.graph.closed htypes hhas).mp hshapes
    obtain ⟨summary, hsummary, -⟩ := hmoment.knowledge.exists_answered hevent
    rw [← hfollows.declarations_eq] at hsound
    exact ⟨Moment.Sound.recalls ⟨task.target, others⟩ hsound (hanswers.of_sameUnfoldings hsame),
      summary, hsummary, hgrows.summaries id.index summary hsummary⟩

/-- A function that returns a new object which holds itself. -/
def knotDecl (name : String) : MethodDecl where
  name
  body := [
    .bind {} "node" (.allocate {} "Node"),
    .write {} (.name {} "node") (.field "@next") (.name {} "node"),
    .name {} "node"]

/-- Two functions that return such objects, and one that returns its argument. -/
def knotProgram : Program where
  classes := [{ name := "Node", fields := [.field "@next"] }]
  functions := [knotDecl "knot", knotDecl "tie",
    { name := "same", parameters := ["node"], body := [.name {} "node"] }]

/-- The program once its first two functions have been analyzed: both results have types of the
same shape, with the numbers 1 and 2. -/
def knotStart : Engine :=
  (((Engine.ofProgram knotProgram 4).analyze ⟨2⟩ []).2.analyze ⟨3⟩ []).2

theorem knotStart_reachable : Engine.Reachable knotProgram 4 knotStart :=
  .tail (.single (.analyze _ ⟨2⟩ [] nofun)) (.analyze _ ⟨3⟩ [] nofun)

/-- The third function has been analyzed for the first type. -/
def knotOnce : Engine := (knotStart.analyze ⟨4⟩ [⟨1⟩]).2

/-- Then it is analyzed for the second type. -/
def knotTwice : Engine := (knotOnce.analyze ⟨4⟩ [⟨2⟩]).2

/-- The analysis for the second type returns the summary for the first type. -/
theorem knotTwice_analyzed_once : ∃ history before moment after later,
    Engine.Session knotProgram 4 knotTwice history ∧ history = before ++ moment :: after ∧
      moment.event = .returned ⟨⟨4⟩, [⟨1⟩]⟩ (.ok ⟨2⟩) ∧ later ∈ after ∧
        later.Recalls knotTwice ⟨⟨4⟩, [⟨2⟩]⟩ ⟨2⟩ := by
  let first : Task := ⟨⟨4⟩, [⟨1⟩]⟩
  let second : Task := ⟨⟨4⟩, [⟨2⟩]⟩
  have hnew : Engine.Session knotProgram 4 (.ofProgram knotProgram 4) _ := .start
  have hstart := Engine.Session.analyze _ _ ⟨⟨3⟩, []⟩ (.analyze _ _ ⟨⟨2⟩, []⟩ hnew nofun) nofun
  have hsession := Engine.Session.analyze knotOnce _ second
    (.analyze knotStart _ first hstart (by decide +kernel)) (by decide +kernel)
  have hanswer : answerOf (first.analyze knotStart.declarations knotStart.limit knotStart.limit
      knotStart.knowledge) = .ok ⟨2⟩ := by
    decide +kernel
  obtain ⟨before, hbefore⟩ := exists_moments_eq_append knotStart.declarations knotStart.limit
    knotStart.limit [] first knotStart.knowledge
  obtain ⟨after, hafter⟩ := exists_moments_eq_cons knotOnce.declarations knotOnce.limit
    knotOnce.limit [] second knotOnce.knowledge
  rw [hbefore, hafter, ← List.append_assoc, List.append_assoc _ [_], List.singleton_append]
    at hsession
  have hrecalls := (Engine.Session.analyzed_once hsession).2 _ _ _ first ⟨2⟩ rfl
    (congrArg (Event.returned first) hanswer) _ List.mem_cons_self [⟨2⟩] (by decide +kernel)
    (by decide +kernel)
  exact ⟨_, _, _, _, _, hsession, rfl, congrArg (Event.returned first) hanswer,
    List.mem_cons_self, hrecalls.1⟩

end ShapeFlow
