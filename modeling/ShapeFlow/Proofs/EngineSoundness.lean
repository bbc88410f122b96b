import Mathlib.Logic.Relation
import ShapeFlow.Proofs.AnalysisSoundness

/-!
# Summaries make sense in every reachable engine

An engine starts with nothing known about its program.  From there types are built and
definitions analyzed, in any order, and an analysis may fail.  Every engine reached in this
way has only summaries that make sense in terms of the slots of their definitions
(`Engine.Reachable.summaries_wellFormed`).

Between two uses of an engine no analysis is running, and behind each answer that its memos give
stands a run of the analysis of a body (`Engine.Idle`).
-/

namespace ShapeFlow

/-! ## Reachable engines -/

namespace Engine

/-- One use of an engine: a type is built, or a definition is analyzed, with success or not. -/
inductive Step : Engine → Engine → Prop where
  | object (engine : Engine) (className : String) :
    Step engine (engine.withGraph (engine.graph.plainObject className).2)
  | bindField (engine : Engine) (type part : TypeId) (selector : Selector)
    (result : TypeId × TypeGraph) (hpart : engine.graph.Has part)
    (hbind : engine.graph.bindField? type selector part = some result) :
    Step engine (engine.withGraph result.2)
  | bindAt (engine : Engine) (type part : TypeId) (selectors : List Selector)
    (result : TypeId × TypeGraph) (hpart : engine.graph.Has part)
    (hbind : engine.graph.bindAt? type selectors part = some result) :
    Step engine (engine.withGraph result.2)
  | analyze (engine : Engine) (target : DefId) (arguments : List TypeId)
    (harguments : ∀ type ∈ arguments, engine.graph.Has type) :
    Step engine (engine.analyze target arguments).2

/-- The engines that the uses of a program lead to. -/
def Reachable (program : Program) (limit : Nat) (engine : Engine) : Prop :=
  Relation.ReflTransGen Step (ofProgram program limit) engine

variable {engine later : Engine}

theorem not_hasEntry_initial (declarations : Declarations) (target : DefId)
    (entry : MemoEntry SummaryId) :
    ¬ (Knowledge.initial declarations).HasEntry target entry := by
  intro hentry
  obtain ⟨memo, hmemo, hmem⟩ := hentry
  simp only [Knowledge.initial, Array.getElem?_map, Option.map_eq_some_iff] at hmemo
  obtain ⟨definition, -, rfl⟩ := hmemo
  exact nomatch hmem

theorem sound_initial (declarations : Declarations) :
    (Knowledge.initial declarations).Sound declarations where
  graph := TypeGraph.wellFormed_initial
  size := by simp [Knowledge.initial]
  summaries id summary hsummary := by simp [Knowledge.initial] at hsummary
  memos target memo hmemo := by
    simp only [Knowledge.initial, Array.getElem?_map, Option.map_eq_some_iff] at hmemo
    obtain ⟨definition, -, rfl⟩ := hmemo
    exact ⟨fun entry hmem => absurd hmem List.not_mem_nil, .nil⟩
  answers target entry id hentry := absurd hentry (not_hasEntry_initial declarations target entry)

/-- What an analysis makes of an engine, and what it answers. -/
theorem analyze_ends (hsound : engine.knowledge.Sound engine.declarations) (target : DefId)
    {arguments : List TypeId} (harguments : ∀ type ∈ arguments, engine.graph.Has type) :
    engine.knowledge.Learns engine.declarations (engine.analyze target arguments).2.knowledge ∧
      (engine.analyze target arguments).2.knowledge.Sound engine.declarations ∧
      match (engine.analyze target arguments).1 with
      | .ok id => (engine.analyze target arguments).2.knowledge.Answers target arguments id
      | .error failure => failure.Harmless := by
  have hends := analyze_sound engine.limit engine.limit target arguments engine.knowledge hsound
    harguments
  unfold Engine.analyze
  cases hresult : ShapeFlow.analyze engine.declarations engine.limit engine.limit target arguments
    engine.knowledge with
  | ok id knowledge =>
    rw [hresult] at hends
    exact hends
  | error failure knowledge =>
    rw [hresult] at hends
    exact hends

theorem declarations_analyze (engine : Engine) (target : DefId) (arguments : List TypeId) :
    (engine.analyze target arguments).2.declarations = engine.declarations := by
  unfold Engine.analyze
  split <;> rfl

/-- One use of an engine keeps its knowledge sound. -/
theorem Step.learns (hstep : engine.Step later)
    (hsound : engine.knowledge.Sound engine.declarations) :
    later.declarations = engine.declarations ∧
      engine.knowledge.Learns engine.declarations later.knowledge ∧
        later.knowledge.Sound engine.declarations := by
  have hgraph : ∀ {grown : TypeGraph}, engine.graph.Grows grown → grown.WellFormed →
      engine.knowledge.Learns engine.declarations (engine.withGraph grown).knowledge ∧
        (engine.withGraph grown).knowledge.Sound engine.declarations :=
    fun hgrows hwell => ⟨(Knowledge.Grows.of_graph hgrows).learns rfl, hsound.grow hgrows hwell⟩
  cases hstep with
  | object className =>
    have hadds := TypeGraph.plainObject_adds hsound.graph className
    exact ⟨rfl, hgraph hadds.grows hadds.wellFormed⟩
  | bindField type part selector result hpart hbind =>
    obtain ⟨_, -, hadds⟩ := TypeGraph.bindField?_adds hsound.graph hpart hbind
    exact ⟨rfl, hgraph hadds.grows hadds.wellFormed⟩
  | bindAt type part selectors result hpart hbind =>
    by_cases hselectors : selectors = []
    · subst hselectors
      obtain rfl := Option.some.inj hbind
      exact ⟨rfl, .refl _ _, hsound⟩
    · obtain ⟨_, -, hadds⟩ := TypeGraph.bindAt?_adds hsound.graph hpart hselectors hbind
      exact ⟨rfl, hgraph hadds.grows hadds.wellFormed⟩
  | analyze target arguments harguments =>
    obtain ⟨hlearns, hsound', -⟩ := analyze_ends hsound target harguments
    exact ⟨declarations_analyze engine target arguments, hlearns, hsound'⟩

/-- No analysis is running, and every answer is explained. -/
structure Idle (engine : Engine) : Prop where
  sound : engine.knowledge.Sound engine.declarations
  resting : ∀ target entry, engine.knowledge.HasEntry target entry → entry.progress ≠ .running
  explained : ∀ target entry id, engine.knowledge.HasEntry target entry →
    entry.progress = .done id →
      engine.knowledge.Explains engine.declarations target entry.arguments id

theorem Idle.of_learns (hidle : engine.Idle)
    (hdeclarations : later.declarations = engine.declarations)
    (hlearns : engine.knowledge.Learns engine.declarations later.knowledge)
    (hsound : later.knowledge.Sound engine.declarations) : later.Idle where
  sound := hdeclarations ▸ hsound
  resting target entry hentry hrunning :=
    hidle.resting target entry ((hlearns.running target entry hrunning).mp hentry) hrunning
  explained target entry id hentry hdone := by
    rw [hdeclarations]
    rcases hlearns.news target entry id hentry hdone with hkept | hexplains
    · exact (hidle.explained target entry id hkept hdone).mono hlearns.toGrows
    · exact hexplains

theorem Reachable.idle {program : Program} {limit : Nat}
    (hreachable : Reachable program limit engine) :
    engine.declarations = .ofProgram program ∧ engine.Idle := by
  induction hreachable with
  | refl =>
    exact ⟨rfl, sound_initial _,
      fun target entry hentry => absurd hentry (not_hasEntry_initial _ target entry),
      fun target entry id hentry => absurd hentry (not_hasEntry_initial _ target entry)⟩
  | tail _ hstep ih =>
    obtain ⟨hdeclarations, hlearns, hsound⟩ := hstep.learns ih.2.sound
    exact ⟨hdeclarations.trans ih.1, ih.2.of_learns hdeclarations hlearns hsound⟩

end Engine

/-- Without slots there is no place to tell a value by, and nothing to write to. -/
theorem Summary.WellFormed.of_no_arguments {graph : TypeGraph} {summary : Summary}
    (hsummary : summary.WellFormed graph) (hnone : summary.signature.arguments = []) :
    (∃ type, summary.result = .type type) ∧ summary.writes = [] := by
  have hunrooted : ∀ place : AccessPath,
      ¬ place.RootedIn graph summary.signature.arguments := by
    intro place result
    obtain ⟨slot, type, className, -, hslot, -⟩ := result
    simp [hnone] at hslot
  constructor
  · have hresult := hsummary.result
    cases hheld : summary.result with
    | type type => exact ⟨type, rfl⟩
    | path place =>
      rw [hheld] at hresult
      exact absurd hresult (hunrooted place)
  · obtain ⟨own, returned, hwrites, hown, hreturned, -⟩ := hsummary.writes
    refine List.eq_nil_iff_forall_not_mem.mpr fun write hmem => ?_
    rw [hwrites] at hmem
    rcases List.mem_append.mp hmem with hmem | hmem
    · exact hunrooted _ (hown write hmem).target
    · obtain ⟨-, -, source, -, hsource⟩ := hreturned write hmem
      exact hunrooted source hsource

/-- In every reachable engine each summary makes sense in terms of the slots of its
definition, the memo of a definition answers with summaries of the definition, and an analysis
either answers with a summary or fails without blaming a slot. -/
theorem Engine.reachable_summaries_wellFormed {program : Program} {limit : Nat}
    {engine : Engine} (hreachable : Engine.Reachable program limit engine) :
    (∀ id summary, engine.summary? id = some summary → summary.WellFormed engine.graph ∧
      ∃ definition ∈ engine.declarations.definitions, summary.Summarizes definition ∧
        (definition.arity = 0 → (∃ type, summary.result = .type type) ∧ summary.writes = [])) ∧
    (∀ target, ∀ id ∈ engine.summaries target, ∃ definition summary,
      engine.declarations.definition? target = some definition ∧
        engine.summary? id = some summary ∧ summary.Summarizes definition) ∧
    (∀ target arguments, (∀ type ∈ arguments, engine.graph.Has type) →
      match (engine.analyze target arguments).1 with
      | .ok id => ∃ summary, (engine.analyze target arguments).2.summary? id = some summary
      | .error failure => failure.Harmless) := by
  have hsound := hreachable.idle.2.sound
  refine ⟨fun id summary hsummary => ?_, fun target id hmem => ?_,
    fun target arguments harguments => ?_⟩
  · obtain ⟨hwell, definition, hdefinition, hsummarizes⟩ :=
      hsound.summaries id.index summary hsummary
    refine ⟨hwell, definition, hdefinition, hsummarizes, fun hzero => ?_⟩
    exact hwell.of_no_arguments (List.eq_nil_of_length_eq_zero (hsummarizes.arity.trans hzero))
  · unfold Engine.summaries at hmem
    cases hmemo : engine.knowledge.memos[target.index]? with
    | none => simp [hmemo] at hmem
    | some memo =>
      rw [hmemo] at hmem
      obtain ⟨entry, hentry, hdone⟩ := Memo.mem_answers_iff.mp hmem
      obtain ⟨definition, summary, hdefinition, hsummary, hsummarizes, -⟩ :=
        hsound.answers target entry id ⟨memo, hmemo, hentry⟩ hdone
      exact ⟨definition, summary, hdefinition, hsummary, hsummarizes⟩
  · obtain ⟨-, hlater, hanswer⟩ := Engine.analyze_ends hsound target harguments
    split at hanswer
    · obtain ⟨summary, hsummary, -⟩ := hlater.exists_answered hanswer
      exact ⟨summary, hsummary⟩
    · exact hanswer

/-- A function that writes to its first argument and returns a new object that holds it. -/
def linkProgram : Program where
  classes := [{ name := "Node", fields := [.field "@next", .field "@first"] }]
  functions := [{
    name := "link"
    parameters := ["node", "next"]
    body := [
      .write {} (.name {} "node") (.field "@next") (.name {} "next"),
      .bind {} "list" (.allocate {} "Node"),
      .write {} (.name {} "list") (.field "@first") (.name {} "node"),
      .name {} "list"] }]

/-- The program with the type of its objects. -/
def linkStart : Engine :=
  let engine := Engine.ofProgram linkProgram 4
  engine.withGraph (engine.graph.plainObject "Node").2

/-- The program with its function analyzed. -/
def linkEngine : Engine := (linkStart.analyze ⟨2⟩ [⟨1⟩, ⟨1⟩]).2

/-- The function writes to a part of its first slot and then to a part of the result. -/
theorem linkEngine_summary_wellFormed :
    Engine.Reachable linkProgram 4 linkEngine ∧ ∃ summary,
      linkEngine.summary? ⟨0⟩ = some summary ∧ summary.result = .type ⟨3⟩ ∧
        summary.writes = [⟨⟨1, [.field "@next"]⟩, .path ⟨2, []⟩⟩,
          ⟨⟨0, [.field "@first"]⟩, .path ⟨1, []⟩⟩] ∧
        summary.WellFormed linkEngine.graph := by
  have hreachable : Engine.Reachable linkProgram 4 linkEngine :=
    .tail (.single (.object _ "Node")) (.analyze linkStart ⟨2⟩ [⟨1⟩, ⟨1⟩] (by decide +kernel))
  have hshown : (linkEngine.summary? ⟨0⟩).map (fun summary => (summary.result, summary.writes)) =
      some (.type ⟨3⟩, [⟨⟨1, [.field "@next"]⟩, .path ⟨2, []⟩⟩,
        ⟨⟨0, [.field "@first"]⟩, .path ⟨1, []⟩⟩]) := by
    decide +kernel
  obtain ⟨summary, hsummary, hparts⟩ := Option.map_eq_some_iff.mp hshown
  rw [Prod.mk.injEq] at hparts
  exact ⟨hreachable, summary, hsummary, hparts.1, hparts.2,
    ((Engine.reachable_summaries_wellFormed hreachable).1 ⟨0⟩ summary hsummary).1⟩

end ShapeFlow
