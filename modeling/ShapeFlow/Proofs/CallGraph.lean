import Mathlib.Data.Finite.Prod
import ShapeFlow.Proofs.AnalyzedOnce
import ShapeFlow.Proofs.CallAccounts

/-!
# The graph of recorded calls

A call is recorded with the summary that the memo of the callee answers, and answers stay, so in
every reachable engine the memo of the callee still gives this summary for the argument types of
the call (`Knowledge.Backs`).

The summary of a callee is finished before the body that calls it.  So it has a lower number than
the summary in which the call is recorded (`Knowledge.Coherent`), and recorded calls lead to lower
and lower numbers, also where definitions call one another: an analysis that comes to need itself
is rejected and leaves no summary.
-/

namespace ShapeFlow

open Relation (TransGen)

variable {α β : Type} {declarations : Declarations} {knowledge earlier later : Knowledge}

namespace Knowledge

/-- The memo of the callee answers for the argument types of the call with the summary of the call,
which has the signature of the call. -/
structure Backs (knowledge : Knowledge) (call : CallRecord) : Prop where
  answers : knowledge.Answers call.target call.signature.arguments call.summary
  tells : knowledge.Tells call

theorem Backs.mono {call : CallRecord} (hbacks : earlier.Backs call)
    (hgrows : earlier.Grows later) : later.Backs call :=
  ⟨hbacks.answers.mono hgrows, hbacks.tells.mono hgrows⟩

/-- Every recorded call is backed, and its summary is older than the one in which it is recorded. -/
def Coherent (knowledge : Knowledge) : Prop :=
  ∀ (index : Nat) (summary : Summary), knowledge.summaries[index]? = some summary →
    ∀ call ∈ summary.calls, knowledge.Backs call ∧ call.summary.index < index

theorem Coherent.of_grows (hcoherent : earlier.Coherent) (hgrows : earlier.Grows later)
    (hsame : later.summaries = earlier.summaries) : later.Coherent := by
  intro index summary hsummary call hcall
  rw [hsame] at hsummary
  obtain ⟨hbacks, hlt⟩ := hcoherent index summary hsummary call hcall
  exact ⟨hbacks.mono hgrows, hlt⟩

end Knowledge

/-! ## Bodies -/

/-- Where the step succeeds, what is known stays known, and the calls that it records are backed. -/
class Backing (step : Body α) : Prop where
  run : ∀ {frame : Frame} {knowledge : Knowledge} {value : α} {changed : Frame} {later : Knowledge},
    step frame knowledge = .ok (value, changed) later →
      knowledge.Grows later ∧ ∃ calls : List CallRecord,
        changed.calls = frame.calls ++ calls ∧ ∀ call ∈ calls, later.Backs call

namespace Backing

theorem aside (step : Body α) [hstep : Aside step] : Backing step where
  run hrun := by
    obtain ⟨hcalls, hextends⟩ := hstep.run hrun
    exact ⟨hextends.grows, [], by rw [hcalls, List.append_nil], List.forall_mem_nil _⟩

theorem seq {step : Body α} {next : α → Body β} (hstep : Backing step)
    (hnext : ∀ value, Backing (next value)) : Backing (step >>= next) where
  run hrun := by
    obtain ⟨value, changed, between, hfirst, hlast⟩ := exists_of_run_bind hrun
    obtain ⟨hgrows, calls, hcalls, hbacked⟩ := hstep.run hfirst
    obtain ⟨hgrows', calls', hcalls', hbacked'⟩ := (hnext value).run hlast
    refine ⟨hgrows.trans hgrows', calls ++ calls', by rw [hcalls', hcalls, List.append_assoc], ?_⟩
    intro call hmem
    rcases List.mem_append.mp hmem with hmem | hmem
    · exact (hbacked call hmem).mono hgrows'
    · exact hbacked' call hmem

/-- The call of an analyst that answers what it is asked is backed by its answer. -/
theorem call {analyst : Analyst} (hanalyst : analyst.Sound declarations) (span : Span)
    (method : String) (target : DefId) (arguments : List Operand) :
    Backing (call (analyst.guarded declarations) declarations span method target arguments) where
  run hrun := by
    obtain ⟨types, asking, id, answered, summary, value, hbefore, hasked, hsummary, hafter, hcalls⟩ :=
      exists_of_call hrun
    obtain ⟨hsound, htypes, hanswer⟩ := Analyst.guarded_eq_ok hasked
    have hends := hanalyst target types asking hsound htypes
    rw [hanswer] at hends
    obtain ⟨hlearns, hlater, entry, hentry, hdone, hsame⟩ := hends
    -- The summary has the argument types of the entry, which need not be those asked for.
    obtain ⟨_, answer, -, hheld, -, harguments⟩ := hlater.answers target entry id hentry hdone
    obtain rfl := Option.some.inj (hsummary.symm.trans hheld)
    refine ⟨(hbefore.grows.trans hlearns.toGrows).trans hafter.grows, _, hcalls, ?_⟩
    intro call hmem
    obtain rfl := List.mem_singleton.mp hmem
    have hbacks : answered.Backs ⟨method, target, summary.signature, id, value, span⟩ := by
      refine ⟨⟨entry, hentry, hdone, ?_⟩, summary, hsummary, rfl⟩
      rw [harguments]
      exact .refl hlater.graph.closed hsame.has_left
    exact hbacks.mono hafter.grows

end Backing

theorem Scope.backing_rules (scope : Scope) {analyst : Analyst}
    (hanalyst : analyst.Sound scope.declarations)
    (hguarded : scope.analyst = analyst.guarded scope.declarations) :
    Rules (fun _ : Unit => scope) fun step => Backing (step ()) := by
  refine .of_aside (fun step _ => .aside step) .seq fun span method target arguments => ?_
  rw [Scope.call, hguarded]
  exact .call hanalyst span method target arguments

/-- The calls in the summary of a body are backed. -/
theorem summarize_backs {analyst : Analyst} (hanalyst : analyst.Sound declarations)
    (hsound : knowledge.Sound declarations) {definition : Definition} {signature : Signature}
    (harguments : ∀ type ∈ signature.arguments, knowledge.graph.Has type) {summary : Summary}
    (hrun : summarize analyst declarations definition signature knowledge = .ok summary later) :
    ∀ call ∈ summary.calls, later.Backs call := by
  rw [← summarize_guarded hanalyst hsound harguments] at hrun
  let scope : Scope := ⟨declarations, definition, analyst.guarded declarations⟩
  have hrules := scope.backing_rules hanalyst rfl
  obtain ⟨result, final, hbody, hpure⟩ := exists_of_bind hrun
  obtain ⟨-, calls, hcalls, hbacked⟩ := (Backing.seq (hrules.evaluateBody definition.decl.body)
    fun operand => Backing.aside _).run hbody
  cases hpure
  rw [List.nil_append] at hcalls
  rwa [← hcalls] at hbacked

/-! ## Analyses -/

namespace Knowledge

/-- The calls of a new summary are recorded in one that is younger than all others. -/
theorem Coherent.finish {target : DefId} {arguments : List TypeId} {memo : Memo SummaryId}
    {summary : Summary} (hcoherent : knowledge.Coherent)
    (hgrows : knowledge.Grows (knowledge.finish target arguments memo summary))
    (hcalls : ∀ call ∈ summary.calls, knowledge.Backs call) :
    (knowledge.finish target arguments memo summary).Coherent := by
  intro index held hheld call hcall
  have hadded : (knowledge.finish target arguments memo summary).summaries =
      knowledge.summaries.push summary := rfl
  rw [hadded, Array.getElem?_push] at hheld
  split at hheld
  · rename_i hindex
    obtain rfl := Option.some.inj hheld
    have hbacks := hcalls call hcall
    obtain ⟨callee, hcallee, -⟩ := hbacks.tells
    exact ⟨hbacks.mono hgrows, hindex ▸ (Array.getElem?_eq_some_iff.mp hcallee).1⟩
  · obtain ⟨hbacks, hlt⟩ := hcoherent index held hheld call hcall
    exact ⟨hbacks.mono hgrows, hlt⟩

end Knowledge

/-- An analysis adds only summaries whose calls are backed, whether it succeeds or fails. -/
theorem Task.analyze_coherent (limit room : Nat) {task : Task}
    (hsound : knowledge.Sound declarations)
    (hhas : ∀ type ∈ task.arguments, knowledge.graph.Has type) (hcoherent : knowledge.Coherent) :
    (endOf (task.analyze declarations limit room knowledge)).Coherent := by
  induction room using Nat.strongRecOn generalizing task knowledge with
  | ind room ih =>
    have hgrows := (task.analyze_learns hsound hhas limit room).1.toGrows
    have hbody : ∀ definition memo left, task.Opens declarations knowledge definition memo →
        room = left + 1 → (endOf (task.summarize declarations limit left definition
          (knowledge.begin task.target task.arguments memo))).Coherent := by
      intro definition memo left hopens hroom
      have hbegun := hsound.begin hopens.held hhas hopens.missing
      have hcoherent' := hcoherent.of_grows (Knowledge.grows_begin hopens.held task.arguments) rfl
      rw [Task.summarize, ← run_inquiryOf]
      refine (inquiryOf_steady definition _ _).keeps (fun known later hextends hknown => ?_)
        (fun question known hasked hknown => ?_) hcoherent'
      · obtain ⟨graph, hgraph, rfl⟩ := hextends
        exact hknown.of_grows (.of_graph hgraph) rfl
      · obtain ⟨-, hsense, htypes⟩ :=
          sound_of_mem_questions (analyze_sound limit left) hbegun hhas hasked
        exact ih left (by omega) hsense htypes hknown
    have hgoes := task.goes hsound hhas limit room
    generalize task.analyze declarations limit room knowledge = outcome at hgoes hgrows
    cases hgoes with
    | unfit => exact hcoherent
    | known memo id => exact hcoherent.of_grows hgrows rfl
    | recursive memo => exact hcoherent.of_grows hgrows rfl
    | exceeded definition memo => exact hcoherent.of_grows hgrows rfl
    | answered definition memo ended left summary later hopens hroom hsummarize hended hstarted =>
      have hbegun := hsound.begin hopens.held hhas hopens.missing
      have hlater := hbody definition memo left hopens hroom
      obtain ⟨-, hsound'⟩ := hopens.summarize_learns hsound hhas limit left
      rw [hsummarize] at hlater hsound'
      exact hlater.finish (Knowledge.grows_finish hsound' hended hstarted rfl rfl)
        (summarize_backs (analyze_sound limit left) hbegun hhas hsummarize)
    | failed definition memo ended left failure name later hopens hroom hsummarize hended hstarted =>
      have hlater := hbody definition memo left hopens hroom
      obtain ⟨-, hsound'⟩ := hopens.summarize_learns hsound hhas limit left
      rw [hsummarize] at hlater hsound'
      exact hlater.of_grows (Knowledge.grows_forget hsound' hended hstarted rfl rfl) rfl

/-! ## Engines -/

namespace Engine

variable {program : Program} {limit : Nat} {engine other : Engine}

theorem Step.coherent (hstep : engine.Step other)
    (hsound : engine.knowledge.Sound engine.declarations) (hcoherent : engine.knowledge.Coherent) :
    other.knowledge.Coherent := by
  have hgrows := (hstep.learns hsound).2.1.toGrows
  cases hstep with
  | object className => exact hcoherent.of_grows hgrows rfl
  | bindField type part selector result hpart hbind => exact hcoherent.of_grows hgrows rfl
  | bindAt type part selectors result hpart hbind => exact hcoherent.of_grows hgrows rfl
  | analyze target arguments harguments =>
    let task : Task := ⟨target, arguments⟩
    rw [show (engine.analyze target arguments).2 = _ from analyze_snd engine task]
    exact task.analyze_coherent engine.limit engine.limit hsound harguments hcoherent

theorem Reachable.coherent (hreachable : Reachable program limit engine) :
    engine.knowledge.Coherent := by
  induction hreachable with
  | refl =>
    intro index summary hsummary
    simp [ofProgram, Knowledge.initial] at hsummary
  | tail hsteps hstep ih => exact hstep.coherent (Reachable.idle hsteps).2.sound ih

end Engine

namespace Knowledge

variable {caller callee : SummaryId}

theorem calls_iff_mem : knowledge.Calls caller callee ↔
    callee ∈ (knowledge.callsOf caller).map CallRecord.summary :=
  List.mem_map.symm

theorem Coherent.index_lt (hcoherent : knowledge.Coherent) (hcalls : knowledge.Calls caller callee) :
    callee.index < caller.index ∧ caller.index < knowledge.summaries.size := by
  obtain ⟨call, hmem, rfl⟩ := hcalls
  have hindex := index_lt_of_mem_callsOf hmem
  rw [callsOf, Array.getElem?_eq_getElem hindex] at hmem
  exact ⟨(hcoherent _ _ (Array.getElem?_eq_getElem hindex) call hmem).2, hindex⟩

/-- Recorded calls lead to older summaries. -/
theorem Coherent.wellFounded (hcoherent : knowledge.Coherent) :
    WellFounded fun callee caller => knowledge.Calls caller callee :=
  Subrelation.wf (fun hcalls => (hcoherent.index_lt hcalls).1) (measure SummaryId.index).wf

theorem Coherent.index_lt_of_transGen (hcoherent : knowledge.Coherent)
    (hleads : TransGen knowledge.Calls caller callee) : callee.index < caller.index := by
  induction hleads with
  | single hcalls => exact (hcoherent.index_lt hcalls).1
  | tail _ hcalls ih => exact (hcoherent.index_lt hcalls).1.trans ih

theorem Coherent.finite_calls (hcoherent : knowledge.Coherent) :
    {edge : SummaryId × SummaryId | knowledge.Calls edge.1 edge.2}.Finite := by
  have hindices := Set.finite_lt_nat knowledge.summaries.size
  refine ((hindices.prod hindices).image (Prod.map SummaryId.mk SummaryId.mk)).subset ?_
  intro edge hcalls
  obtain ⟨holder, hindex⟩ := hcoherent.index_lt hcalls
  exact ⟨(edge.1.index, edge.2.index), ⟨hindex, holder.trans hindex⟩, rfl⟩

end Knowledge

/-- An engine knows what its memos answer. -/
theorem Engine.known?_eq_some {engine : Engine} (hsound : engine.knowledge.Sound declarations)
    {target : DefId} {types : List TypeId} {id : SummaryId}
    (hanswers : engine.knowledge.Answers target types id) :
    engine.known? target types = some id := by
  let task : Task := ⟨target, types⟩
  obtain ⟨memo, hmemo, hfound, -⟩ := task.analyze_eq_of_answers hsound hanswers 0 0
  show (engine.knowledge.memos[task.target.index]?.bind fun memo =>
    memo.answer? engine.knowledge.graph task.arguments) = some id
  rw [hmemo, Option.bind_some, Memo.answer?, hfound]
  rfl

/-- In every reachable engine the memo of the callee of a recorded call answers for the argument
types of the call with just the summary of the call.  The signature of the call is one of the callee
and that of the summary.  The graph of recorded calls is finite, and no summary is reached from
itself. -/
theorem Engine.reachable_calls_coherent {program : Program} {limit : Nat} {engine : Engine}
    (hreachable : Engine.Reachable program limit engine) :
    (∀ id summary, engine.summary? id = some summary → ∀ call ∈ summary.calls,
      engine.known? call.target call.signature.arguments = some call.summary ∧
      (∃ definition, engine.declarations.definition? call.target = some definition ∧
        call.signature.name = definition.qualifiedName ∧
          call.signature.arguments.length = definition.arity) ∧
      ∃ callee, engine.summary? call.summary = some callee ∧ callee.signature = call.signature ∧
        engine.graph.sameSignature call.signature callee.signature = true) ∧
    {edge : SummaryId × SummaryId | engine.knowledge.Calls edge.1 edge.2}.Finite ∧
    (∀ id, ¬ TransGen engine.knowledge.Calls id id) ∧
    WellFounded fun callee caller => engine.knowledge.Calls caller callee := by
  have hsound := hreachable.idle.2.sound
  have hcoherent := hreachable.coherent
  refine ⟨fun id summary hsummary call hcall => ?_, hcoherent.finite_calls,
    fun id hleads => Nat.lt_irrefl _ (hcoherent.index_lt_of_transGen hleads),
    hcoherent.wellFounded⟩
  obtain ⟨hanswers, callee, hcallee, hsame⟩ := (hcoherent id.index summary hsummary call hcall).1
  obtain ⟨definition, answer, hdefinition, hanswer, hsummarizes, -⟩ :=
    hsound.exists_summary hanswers
  obtain rfl := Option.some.inj (hcallee.symm.trans hanswer)
  refine ⟨known?_eq_some hsound hanswers, ⟨definition, hdefinition, ?_, ?_⟩, callee, hcallee,
    hsame, ?_⟩
  · rw [← hsame, hsummarizes.name]
  · rw [← hsame, hsummarizes.arity]
  · simp [TypeGraph.sameSignature, hsame]

/-- A method that passes itself on to the object that the running object holds. -/
def stepDecl : MethodDecl where
  name := "step"
  body := [.send {} (.ownField {} "@rest") "step" []]

/-- Two classes whose methods call one another, until an object of a third class is met. -/
def stepProgram : Program where
  classes := [
    { name := "Odd", fields := [.field "@rest"], methods := [stepDecl] },
    { name := "Even", fields := [.field "@rest"], methods := [stepDecl] },
    { name := "Zero", methods := [{ name := "step", body := [.integer {} 0] }] }]
  main := [
    .bind {} "one" (.allocate {} "Odd"),
    .write {} (.name {} "one") (.field "@rest") (.allocate {} "Zero"),
    .bind {} "two" (.allocate {} "Even"),
    .write {} (.name {} "two") (.field "@rest") (.name {} "one"),
    .bind {} "three" (.allocate {} "Odd"),
    .write {} (.name {} "three") (.field "@rest") (.name {} "two"),
    .send {} (.name {} "three") "step" []]

/-- The program with its main body analyzed. -/
def stepEngine : Engine := (Engine.ofProgram stepProgram 8).analyzeMain.2

/-- The method of the first class leads to itself by way of the other one, but for an object of
another type: its first summary is not reached again. -/
theorem stepEngine_calls_coherent : Engine.Reachable stepProgram 8 stepEngine ∧
    stepEngine.summaries ⟨2⟩ = [⟨3⟩, ⟨1⟩] ∧ TransGen stepEngine.knowledge.Calls ⟨3⟩ ⟨1⟩ ∧
      ¬ TransGen stepEngine.knowledge.Calls ⟨3⟩ ⟨3⟩ ∧
        ∃ summary call, stepEngine.summary? ⟨2⟩ = some summary ∧ call ∈ summary.calls ∧
          call.target = ⟨2⟩ ∧ call.summary = ⟨1⟩ ∧
            stepEngine.known? ⟨2⟩ call.signature.arguments = some ⟨1⟩ := by
  have hreachable : Engine.Reachable stepProgram 8 stepEngine := .single (.analyze _ _ [] nofun)
  obtain ⟨hcalls, -, hacyclic, -⟩ := Engine.reachable_calls_coherent hreachable
  have hfirst : stepEngine.knowledge.Calls ⟨3⟩ ⟨2⟩ :=
    Knowledge.calls_iff_mem.mpr (by decide +kernel)
  have hsecond : stepEngine.knowledge.Calls ⟨2⟩ ⟨1⟩ :=
    Knowledge.calls_iff_mem.mpr (by decide +kernel)
  have hshown : (stepEngine.summary? ⟨2⟩).map (fun summary => summary.calls.map fun call =>
      (call.target, call.summary)) = some [(⟨2⟩, ⟨1⟩)] := by
    decide +kernel
  obtain ⟨summary, hsummary, hrecords⟩ := Option.map_eq_some_iff.mp hshown
  obtain ⟨call, hcall, hanswer⟩ := List.mem_map.mp (hrecords ▸ List.mem_cons_self)
  obtain ⟨htarget, hid⟩ := Prod.mk.inj hanswer
  have hknown := (hcalls ⟨2⟩ summary hsummary call hcall).1
  rw [htarget, hid] at hknown
  exact ⟨hreachable, by decide +kernel, .tail (.single hfirst) hsecond, hacyclic ⟨3⟩, summary,
    call, hsummary, hcall, htarget, hid, hknown⟩

end ShapeFlow
