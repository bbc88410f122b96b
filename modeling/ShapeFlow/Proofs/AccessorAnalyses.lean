import ShapeFlow.Proofs.AccessorBodies
import ShapeFlow.Proofs.MemoTransparency

/-!
# Analyses of accessors

A body that asks nothing cannot be under analysis while another one begins: all tasks around the
innermost one have asked for something (`Moment.Accounted`).  So the analysis of an accessor is
never rejected as recursive, and with some room it ends as the body does, whether an answer is found
or not: behind an answer that is found stands a run of the same body, for argument types with the
same unfoldings (`Task.analyze_of_bodies`).
-/

namespace ShapeFlow

open TypeGraph (SameUnfoldings)

variable {declarations : Declarations} {limit room : Nat} {task : Task} {active : List Task}
  {knowledge later : Knowledge} {definition : Definition} {selector : Selector}
  {reader writer : MethodDecl} {className : String}

/-! ## Tasks that ask -/

/-- The body of the task asks for something, whatever is known when its analysis begins. -/
def Task.Asks (declarations : Declarations) (limit : Nat) (task : Task) : Prop :=
  ∃ definition room begun, declarations.definition? task.target = some definition ∧
    task.questions declarations limit room definition begun ≠ []

/-- Behind every answer there is a run, and the tasks around the innermost one have asked. -/
structure Moment.Accounted (declarations : Declarations) (limit : Nat) (moment : Moment) :
    Prop where
  explained : moment.knowledge.Explained declarations
  asking : ∀ task ∈ moment.active.tail, task.Asks declarations limit
  begun : ∀ task, moment.event = .begun task → moment.active.head? = some task

theorem Knowledge.Explained.of_learns (hexplained : knowledge.Explained declarations)
    (hlearns : knowledge.Learns declarations later) : later.Explained declarations := by
  intro target entry id hentry hdone
  rcases hlearns.news target entry id hentry hdone with hkept | hexplains
  · exact (hexplained target entry id hkept hdone).mono hlearns.toGrows
  · exact hexplains

/-- All moments of an analysis are accounted for, if those before are. -/
theorem moments_accounted (hknown : knowledge.Sound declarations)
    (htypes : ∀ type ∈ task.arguments, knowledge.graph.Has type)
    (hexplained : knowledge.Explained declarations)
    (hasks : ∀ task ∈ active, task.Asks declarations limit) :
    ∀ moment ∈ moments declarations limit room active task knowledge,
      moment.Accounted declarations limit := by
  have houter : ∀ {active : List Task}, (∀ task ∈ active, task.Asks declarations limit) →
      ∀ task ∈ active.tail, task.Asks declarations limit :=
    fun hasks task hmem => hasks task (List.mem_of_mem_tail hmem)
  induction room generalizing active task knowledge with
  | zero =>
    obtain ⟨hlearns, -⟩ := task.analyze_learns hknown htypes limit 0
    rw [moments]
    exact List.forall_mem_cons.mpr ⟨⟨hexplained, houter hasks, by rintro _ ⟨⟩⟩,
      List.forall_mem_singleton.mpr
        ⟨hexplained.of_learns hlearns, houter hasks, by rintro _ ⟨⟩⟩⟩
  | succ room ih =>
    obtain ⟨hlearns, -⟩ := task.analyze_learns hknown htypes limit (room + 1)
    rw [moments]
    refine List.forall_mem_cons.mpr ⟨⟨hexplained, houter hasks, by rintro _ ⟨⟩⟩,
      List.forall_mem_append.mpr ⟨?_, List.forall_mem_singleton.mpr
        ⟨hexplained.of_learns hlearns, houter hasks, by rintro _ ⟨⟩⟩⟩⟩
    cases hopening : task.opening? declarations knowledge with
    | none => exact List.forall_mem_nil _
    | some result =>
      obtain ⟨definition, memo⟩ := result
      have hopens := Task.opening?_eq_some_iff.mp hopening
      have hbegun := hknown.begin hopens.held htypes hopens.missing
      obtain ⟨hended, -⟩ := hopens.summarize_learns hknown htypes limit room
      refine List.forall_mem_cons.mpr ⟨⟨.of_begin hopens.held (.refl _ _) hexplained, hasks, ?_⟩,
        List.forall_mem_append.mpr ⟨fun moment hmem => ?_,
          List.forall_mem_singleton.mpr
            ⟨.of_begin hopens.held hended hexplained, hasks, by rintro _ ⟨⟩⟩⟩⟩
      · rintro _ ⟨⟩
        rfl
      · obtain ⟨question, hquestion, hmoment⟩ := List.mem_flatMap.mp hmem
        obtain ⟨hasked, hsound, harguments⟩ :=
          sound_of_mem_questions (analyze_sound limit room) hbegun htypes hquestion
        refine ih hsound harguments (.of_begin hopens.held hasked hexplained) ?_ moment hmoment
        exact List.forall_mem_cons.mpr
          ⟨⟨definition, room, _, hopens.defined, List.ne_nil_of_mem hquestion⟩, hasks⟩

theorem Engine.Session.accounted {program : Program} {limit : Nat} {engine : Engine}
    {history : List Moment} (hsession : Engine.Session program limit engine history) :
    ∀ moment ∈ history, moment.Accounted (.ofProgram program) limit := by
  have hrest : ∀ {engine : Engine} {history : List Moment}, Session program limit engine history →
      engine.rest.Accounted (.ofProgram program) limit := by
    intro engine history hsession
    obtain ⟨hprogram, hidle⟩ := (reachable_iff_session.mpr ⟨history, hsession⟩).idle
    exact ⟨hprogram ▸ hidle.explained, List.forall_mem_nil _, nofun⟩
  induction hsession with
  | start => exact List.forall_mem_singleton.mpr (hrest .start)
  | build engine history graph hsession hstep ih =>
    exact List.forall_mem_append.mpr
      ⟨ih, List.forall_mem_singleton.mpr (hrest (.build engine history graph hsession hstep))⟩
  | analyze engine history task hsession harguments ih =>
    have hfollows := hsession.follows
    rw [hfollows.declarations_eq, hfollows.limit_eq]
    exact List.forall_mem_append.mpr ⟨ih, moments_accounted hfollows.knowledge harguments
      (hrest hsession).explained (List.forall_mem_nil _)⟩

/-- A body that calls nothing is not under analysis when another one begins. -/
theorem Moment.Accounted.not_runs {moment : Moment} {step : Framed Operand} {target : DefId}
    (haccounted : moment.Accounted declarations limit)
    (hsound : moment.Sound declarations limit) (hbegun : moment.event = .begun task)
    (hdefined : declarations.definition? target = some definition)
    (hfree : definition.CallFree declarations step) (hother : target ≠ task.target)
    (arguments : List TypeId) : ¬ moment.knowledge.Runs ⟨target, arguments⟩ := by
  intro hruns
  have hmem := (hsound.attends.mem_iff _).mpr hruns
  have hhead := haccounted.begun task hbegun
  have hasking := haccounted.asking
  cases hactive : moment.active with
  | nil => exact nomatch hactive ▸ hmem
  | cons first outer =>
    rw [hactive] at hmem hhead hasking
    obtain rfl := Option.some.inj hhead
    rcases List.mem_cons.mp hmem with hfirst | houter
    · exact hother (congrArg Task.target hfirst)
    · obtain ⟨found, room, begun, hfound, hasks⟩ := hasking _ houter
      obtain rfl := Option.some.inj (hdefined.symm.trans hfound)
      exact hasks (hfree.questions_eq_nil _ _ begun)

/-! ## Analyses that end as the body does -/

/-- The analysis has come to a good summary, or to a bad failure that is attributed to a
signature. -/
def ComesTo (good : TypeGraph → Summary → Prop) (bad : Failure → Prop) :
    EStateM.Result Failure Knowledge SummaryId → Prop
  | .ok id later => ∃ summary, later.summaries[id.index]? = some summary ∧ good later.graph summary
  | .error failure _ => ∃ reason name, bad reason ∧ failure = reason.within name

section Bodies

variable (hsound : knowledge.Sound declarations) (hexplained : knowledge.Explained declarations)
  (hhas : ∀ type ∈ task.arguments, knowledge.graph.Has type)
  (hdefined : declarations.definition? task.target = some definition)
  (harity : definition.arity = task.arguments.length)
  (hidle : ∀ arguments, ¬ knowledge.Runs ⟨task.target, arguments⟩)

include hsound hexplained hhas hdefined harity hidle

/-- With some room, an analysis that is not running ends as all runs of the body do. -/
theorem Task.analyze_of_bodies {good : TypeGraph → Summary → Prop} {bad : Failure → Prop}
    (hgood : ∀ {graph grown : TypeGraph} {summary : Summary}, graph.Grows grown →
      good graph summary → good grown summary)
    (hbodies : ∀ analyst known arguments, known.Sound declarations →
      SameUnfoldings known.graph arguments knowledge.graph task.arguments →
        match ShapeFlow.summarize analyst declarations definition
          ⟨definition.qualifiedName, arguments⟩ known with
        | .ok summary later => good later.graph summary
        | .error failure _ => bad failure)
    (hroom : 0 < room) : ComesTo good bad (task.analyze declarations limit room knowledge) := by
  have hgoes := task.goes hsound hhas limit room
  have hrun : ∀ {memo} left, task.Opens declarations knowledge definition memo →
      match task.summarize declarations limit left definition
        (knowledge.begin task.target task.arguments memo) with
      | .ok summary later => good later.graph summary
      | .error failure _ => bad failure :=
    fun _ hopens => hbodies _ _ task.arguments (hsound.begin hopens.held hhas hopens.missing)
      (.refl hsound.graph.closed hhas)
  generalize task.analyze declarations limit room knowledge = outcome at *
  cases hgoes with
  | unfit failure hunfit => exact absurd harity (hunfit definition hdefined)
  | known memo id hheld hfound =>
    obtain ⟨entry, hmem, hdone, hentry⟩ :=
      (Memo.find?_eq_some_iff hsound.graph.closed (hsound.memos _ memo hheld) hhas).mp hfound
    obtain ⟨arguments, run, harguments, hfinish, -, hsummary⟩ :=
      hexplained.exists_run ⟨entry, ⟨memo, hheld, hmem⟩, hdone, hentry⟩
    obtain rfl := Option.some.inj (run.definition?_eq.symm.trans hdefined)
    -- The run may have begun long ago, with fewer types around.
    have hended := hbodies (ShapeFlow.analyze declarations run.limit run.room) run.start arguments
      run.sound
      (harguments.of_grown (run.grows.trans hfinish).graph (.refl _) run.sound.graph.closed
        hsound.graph.closed run.has_arguments hhas)
    rw [run.summarizes] at hended
    exact ⟨run.summary, hsummary, hgood hfinish.graph hended⟩
  | recursive memo name hheld hfound =>
    obtain ⟨entry, hmem, hrunning, -⟩ :=
      (Memo.find?_eq_some_iff hsound.graph.closed (hsound.memos _ memo hheld) hhas).mp hfound
    exact absurd ⟨entry, ⟨memo, hheld, hmem⟩, hrunning, rfl⟩ (hidle entry.arguments)
  | exceeded found memo name hopens hnone => exact absurd hnone hroom.ne'
  | answered found memo ended left summary later hopens _ hbody hended hstarted =>
    obtain rfl := Option.some.inj (hopens.defined.symm.trans hdefined)
    have hended := hrun left hopens
    rw [hbody] at hended
    exact ⟨summary, by simp [Knowledge.finish, Knowledge.setMemo, Knowledge.addSummary], hended⟩
  | failed found memo ended left failure name later hopens _ hbody hended hstarted =>
    obtain rfl := Option.some.inj (hopens.defined.symm.trans hdefined)
    have hended := hrun left hopens
    rw [hbody] at hended
    exact ⟨failure, name, hended, rfl⟩

end Bodies

namespace Accessors

variable (haccessors : Accessors selector reader writer)
  (hsound : knowledge.Sound declarations) (hexplained : knowledge.Explained declarations)
  (hhas : ∀ type ∈ task.arguments, knowledge.graph.Has type)
  (hidle : ∀ arguments, ¬ knowledge.Runs ⟨task.target, arguments⟩) (hroom : 0 < room)
  {type : TypeId} (hhead : task.arguments[0]? = some type)
  (hclass : knowledge.graph.className? type = some className) {owner : String}

include haccessors hsound hexplained hhas hidle hroom hhead hclass

/-- The analysis of a reader finds the part of the receiver, or misses it. -/
theorem analyze_reader
    (hdefined : declarations.definition? task.target = some ⟨some owner, reader⟩)
    (harity : (⟨some owner, reader⟩ : Definition).arity = task.arguments.length) :
    ComesTo
      (fun graph summary => ∃ class?, knowledge.graph.endAt? type [selector] = some class? ∧
        summary.ReadsPart graph selector class?)
      (fun failure => knowledge.graph.endAt? type [selector] = none ∧
        failure = .rejected (.cause (declarations.missingPart {} className selector)))
      (task.analyze declarations limit room knowledge) := by
  refine Task.analyze_of_bodies hsound hexplained hhas hdefined harity hidle
    (fun hgrows hgood => ?_) (fun analyst known arguments hknown hsame => ?_) hroom
  · obtain ⟨class?, hends, hreads⟩ := hgood
    exact ⟨class?, hends, hreads.writes, hreads.result.mono hgrows⟩
  · obtain ⟨first, hfirst, hfirstSame⟩ := exists_of_rel (forall₂_getElem? hsame.symm 0) hhead
    have hends := hfirstSame.endAt?_eq [selector]
    have hread := haccessors.summarize_reader hknown.graph hfirst
      (hfirstSame.className?_eq.symm.trans hclass) declarations analyst owner
      (⟨some owner, reader⟩ : Definition).qualifiedName
    rw [← hends] at hread
    cases hpart : knowledge.graph.endAt? type [selector] with
    | none =>
      rw [hpart] at hread
      rw [hread]
      exact ⟨rfl, rfl⟩
    | some class? =>
      rw [hpart] at hread
      obtain ⟨summary, hrun, hreads⟩ := hread
      rw [hrun]
      exact ⟨class?, rfl, hreads⟩

/-- The analysis of a writer gives the last argument to the receiver, if the class of that
declares the part. -/
theorem analyze_writer
    (hdefined : declarations.definition? task.target = some ⟨some owner, writer⟩)
    {slot : Nat} {given : TypeId} (hlast : task.arguments[slot]? = some given)
    (hlength : task.arguments.length = slot + 1)
    (harity : (⟨some owner, writer⟩ : Definition).arity = slot + 1) :
    ComesTo
      (fun graph summary => declarations.declares className selector = true ∧
        summary.WritesPart graph selector (slot + 1) (knowledge.graph.className? given))
      (fun _ => declarations.declares className selector = false)
      (task.analyze declarations limit room knowledge) := by
  refine Task.analyze_of_bodies hsound hexplained hhas hdefined (harity.trans hlength.symm) hidle
    (fun hgrows hgood => ?_) (fun analyst known arguments hknown hsame => ?_) hroom
  · obtain ⟨hdeclares, ⟨told, hwrites, htells⟩, hresult⟩ := hgood
    exact ⟨hdeclares, ⟨told, hwrites, htells.mono hgrows⟩, hresult⟩
  · obtain ⟨first, hfirst, hfirstSame⟩ := exists_of_rel (forall₂_getElem? hsame.symm 0) hhead
    obtain ⟨last, hlast, hlastSame⟩ := exists_of_rel (forall₂_getElem? hsame.symm slot) hlast
    have hwrite := haccessors.summarize_writer hfirst
      (hfirstSame.className?_eq.symm.trans hclass) hlast hlastSame.symm.has_left harity declarations
      analyst (⟨some owner, writer⟩ : Definition).qualifiedName
    split at hwrite
    · rename_i hdeclares
      obtain ⟨summary, later, hrun, hwrites⟩ := hwrite
      rw [hrun]
      exact ⟨hdeclares, hlastSame.className?_eq ▸ hwrites⟩
    · rename_i hdeclares
      obtain ⟨failure, hrun⟩ := hwrite
      rw [hrun]
      exact Bool.eq_false_iff.mpr hdeclares

end Accessors

end ShapeFlow
