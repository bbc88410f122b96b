import ShapeFlow.Proofs.CallRecords
import ShapeFlow.Proofs.InterningLaws

/-!
# Published types never change

Whatever an engine is used for, with success or not, the types that there were keep their nodes, and
nothing that can be asked of them comes out differently (`TypeGraph.Keeps`).  Nodes are filled after
they were reserved, but only while the object that they stand for is visited: at every moment of a
session, also in the middle of an analysis, all types that there are have got their parts for good.

The written form needs an argument of its own, since it is computed with more room in a larger
graph.  The room only has to suffice for the nodes that are not being written further out, so more
room makes no difference.
-/

namespace ShapeFlow

namespace TypeGraph

variable {graph grown : TypeGraph}

/-- What can be asked of the types of a graph has the same answer in a later one. -/
structure Keeps (graph later : TypeGraph) : Prop where
  node?_eq : ∀ type, graph.Has type → later.node? type = graph.node? type
  fields_eq : ∀ type, graph.Has type → later.fields type = graph.fields type
  follow?_eq : ∀ type chain, graph.Has type →
    later.follow? type chain = graph.follow? type chain
  sameShape_eq : ∀ first second, graph.Has first → graph.Has second →
    later.sameShape first second = graph.sameShape first second
  sketch?_eq : ∀ type, graph.Has type → later.sketch? type = graph.sketch? type
  render_eq : ∀ type, graph.Has type → later.render type = graph.render type

/-- Types that are different and as many as there are nodes are all types. -/
theorem mem_of_size_le {around : List TypeId} (hnodup : around.Nodup)
    (haround : ∀ type ∈ around, graph.Has type) (hsize : graph.size ≤ around.length)
    {type : TypeId} (hhas : graph.Has type) : type ∈ around := by
  by_contra hnot
  have hindices : ((type :: around).map TypeId.index).Nodup := by
    refine (List.nodup_cons.mpr ⟨hnot, hnodup⟩).map fun first second heq => ?_
    obtain ⟨index⟩ := first
    obtain ⟨other⟩ := second
    exact congrArg TypeId.mk heq
  have hrange : (type :: around).map TypeId.index ⊆ List.range graph.size := by
    intro index hmem
    obtain ⟨held, hheld, rfl⟩ := List.mem_map.mp hmem
    rcases List.mem_cons.mp hheld with rfl | hheld
    · exact List.mem_range.mpr hhas
    · exact List.mem_range.mpr (haround held hheld)
  have hle := (List.subperm_of_subset hindices hrange).length_le
  simp only [List.length_map, List.length_cons, List.length_range] at hle
  omega

theorem renderWithin_of_scalar {room : Nat} {around : List TypeId} {type : TypeId}
    (hnode : graph.node? type = some .scalar) : graph.renderWithin room around type = "Scalar" := by
  rw [renderWithin.eq_def]
  simp only [hnode]

/-- Without parts that are to be written, a type is written as its class. -/
theorem renderWithin_of_short {room : Nat} {around : List TypeId} {type : TypeId}
    {className : String} {fields : Fields}
    (hnode : graph.node? type = some (.object className fields))
    (hshort : fields.isEmpty = true ∨ type ∈ around) :
    graph.renderWithin room around type = className := by
  have hcontains : (fields.isEmpty || around.contains type) = true := by simpa using hshort
  rw [renderWithin.eq_def]
  simp only [hnode, hcontains, if_true]

theorem renderWithin_of_object {room : Nat} {around : List TypeId} {type : TypeId}
    {className : String} {fields : Fields}
    (hnode : graph.node? type = some (.object className fields))
    (hempty : fields.isEmpty = false) (hnot : type ∉ around) :
    graph.renderWithin (room + 1) around type = className ++ "\x7b" ++
      String.intercalate ", " (fields.entries.map fun entry =>
        entry.1.render ++ ": " ++ graph.renderWithin room (type :: around) entry.2) ++ "\x7d" := by
  have hcontains : (fields.isEmpty || around.contains type) = false := by simp [hempty, hnot]
  rw [renderWithin, hnode]
  simp only [hcontains, Bool.false_eq_true, if_false]

/-- An old type is written as before, if there was and is room for all old types that are not
around. -/
theorem Grows.renderWithin_eq (hgrows : graph.Grows grown) (hclosed : graph.Closed) (room : Nat)
    {more : Nat} {around : List TypeId} (hnodup : around.Nodup)
    (haround : ∀ type ∈ around, graph.Has type) (hroom : graph.size ≤ room + around.length)
    (hmore : graph.size ≤ more + around.length) {type : TypeId} (hhas : graph.Has type) :
    grown.renderWithin more around type = graph.renderWithin room around type := by
  induction room generalizing more around type with
  | zero =>
    have hmem : type ∈ around := mem_of_size_le hnodup haround (by omega) hhas
    obtain ⟨node, hnode⟩ := (has_iff_exists_node graph type).mp hhas
    cases node with
    | scalar => rw [renderWithin_of_scalar hnode, renderWithin_of_scalar (hgrows.node? hnode)]
    | object className fields =>
      rw [renderWithin_of_short hnode (Or.inr hmem),
        renderWithin_of_short (hgrows.node? hnode) (Or.inr hmem)]
  | succ room ih =>
    obtain ⟨node, hnode⟩ := (has_iff_exists_node graph type).mp hhas
    cases node with
    | scalar => rw [renderWithin_of_scalar hnode, renderWithin_of_scalar (hgrows.node? hnode)]
    | object className fields =>
      by_cases hshort : fields.isEmpty = true ∨ type ∈ around
      · rw [renderWithin_of_short hnode hshort, renderWithin_of_short (hgrows.node? hnode) hshort]
      · obtain ⟨hempty, hnot⟩ := not_or.mp hshort
        rw [Bool.not_eq_true] at hempty
        cases more with
        | zero => exact absurd (mem_of_size_le hnodup haround (by omega) hhas) hnot
        | succ more =>
          rw [renderWithin_of_object hnode hempty hnot,
            renderWithin_of_object (hgrows.node? hnode) hempty hnot]
          have hparts : ∀ entry ∈ fields.entries,
              grown.renderWithin more (type :: around) entry.2 =
                graph.renderWithin room (type :: around) entry.2 := by
            intro entry hentry
            have hpart := (fields.get?_eq_some_iff entry.1 entry.2).mpr hentry
            exact ih (List.nodup_cons.mpr ⟨hnot, hnodup⟩)
              (List.forall_mem_cons.mpr ⟨hhas, haround⟩) (by rw [List.length_cons]; omega)
              (by rw [List.length_cons]; omega) (hclosed hnode hpart)
          rw [List.map_congr_left fun entry hentry => by rw [hparts entry hentry]]

theorem Grows.size_le (hgrows : graph.Grows grown) : graph.size ≤ grown.size := by
  by_contra hlt
  have hhas : graph.Has ⟨grown.size⟩ := Nat.lt_of_not_le hlt
  exact absurd (hgrows.has hhas) (Nat.lt_irrefl grown.size)

theorem Grows.keeps (hgrows : graph.Grows grown) (hclosed : graph.Closed)
    (hclosed' : grown.Closed) : graph.Keeps grown where
  node?_eq := hgrows.node?_eq
  fields_eq type hhas := by rw [fields, fields, hgrows.node?_eq type hhas]
  follow?_eq type chain hhas := hgrows.follow?_eq hclosed hhas chain
  sameShape_eq first second hfirst hsecond := by
    rw [Bool.eq_iff_iff, sameShape_iff hclosed hfirst hsecond,
      sameShape_iff hclosed' (hgrows.has hfirst) (hgrows.has hsecond)]
    have hkept := hgrows.sameUnfolding hclosed hfirst
    have hkept' := hgrows.sameUnfolding hclosed hsecond
    exact ⟨fun hsame => (hkept.trans hsame).trans hkept'.symm,
      fun hsame => (hkept.symm.trans hsame).trans hkept'⟩
  sketch?_eq type hhas := (hgrows.sameUnfolding hclosed hhas).sketch?_eq.symm
  render_eq type hhas := hgrows.renderWithin_eq hclosed graph.size .nil (List.forall_mem_nil _)
    (Nat.le_refl _) hgrows.size_le hhas

end TypeGraph

/-! ## What is known contains types that are there -/

/-- Types that a summary names. -/
inductive Summary.Contains (summary : Summary) (type : TypeId) : Prop where
  | argument (hmem : type ∈ summary.signature.arguments)
  | result (hresult : summary.result = .type type)
  | write (write : Write) (hmem : write ∈ summary.writes) (hvalue : write.value = .type type)
  | value (call : CallRecord) (hmem : call ∈ summary.calls) (hvalue : call.value = .type type)
  | signature (call : CallRecord) (hmem : call ∈ summary.calls)
    (hargument : type ∈ call.signature.arguments)

/-- Types that can be found in what is known: in summaries, in memos and in the tables of canonical
types. -/
inductive Knowledge.Contains (knowledge : Knowledge) (type : TypeId) : Prop where
  | summary (id : Nat) (summary : Summary) (hsummary : knowledge.summaries[id]? = some summary)
    (hcontains : summary.Contains type)
  | memo (target : DefId) (entry : MemoEntry SummaryId) (hentry : knowledge.HasEntry target entry)
    (hmem : type ∈ entry.arguments)
  | bare (className : String) (hbare : knowledge.graph.bare.get? className = some type)
  | interned (sketch : Sketch) (hmem : (sketch, type) ∈ knowledge.graph.interned)

theorem Knowledge.Sound.has_of_contains {declarations : Declarations} {knowledge : Knowledge}
    (hsound : knowledge.Sound declarations) (htold : knowledge.AllTold) {type : TypeId}
    (hcontains : knowledge.Contains type) : knowledge.graph.Has type := by
  cases hcontains with
  | summary id summary hsummary hcontains =>
    obtain ⟨hwell, -⟩ := hsound.summaries id summary hsummary
    cases hcontains with
    | argument hmem => exact hwell.has_arguments type hmem
    | result hresult =>
      have hrooted := hwell.result
      rw [hresult] at hrooted
      exact hrooted
    | write write hmem hvalue =>
      obtain ⟨own, returned, hwrites, hown, hreturned, -⟩ := hwell.writes
      rw [hwrites] at hmem
      rcases List.mem_append.mp hmem with hmem | hmem
      · have hrooted := (hown write hmem).value
        rw [hvalue] at hrooted
        exact hrooted
      · obtain ⟨-, -, source, hsource, -⟩ := hreturned write hmem
        rw [hvalue] at hsource
        exact nomatch hsource
    | value call hmem hvalue =>
      have hrooted := hwell.calls call hmem
      rw [hvalue] at hrooted
      exact hrooted
    | signature call hmem hargument =>
      obtain ⟨callee, hcallee, hsame⟩ := htold id summary hsummary call hmem
      rw [← hsame] at hargument
      exact (hsound.summaries _ callee hcallee).1.has_arguments type hargument
  | memo target entry hentry hmem =>
    obtain ⟨memo, hmemo, hentry⟩ := hentry
    exact ((hsound.memos target memo hmemo).entries entry hentry).has type hmem
  | bare className hbare =>
    exact (TypeGraph.has_iff_exists_node _ type).mpr ⟨_, hsound.graph.bare className type hbare⟩
  | interned sketch hmem => exact hsound.graph.interned _ hmem

/-! ## From moment to moment -/

namespace Rises

variable {start finish : Knowledge} {before after : List Moment}

theorem grows (hrises : Rises start after finish) : start.Grows finish := by
  induction after generalizing start with
  | nil => exact hrises
  | cons moment rest ih => exact hrises.1.trans (ih hrises.2)

/-- What is known in the end has grown from what is known at each moment. -/
theorem grows_of_mem {moment : Moment} (hrises : Rises start (before ++ moment :: after) finish) :
    moment.knowledge.Grows finish := by
  induction before generalizing start with
  | nil => exact grows hrises.2
  | cons first rest ih => exact ih hrises.2

end Rises

namespace Engine

variable {program : Program} {limit : Nat} {engine later : Engine}

open Relation (ReflTransGen)

/-- One use of an engine keeps to summaries whose calls tell of known ones. -/
theorem Step.allTold (hstep : engine.Step later) (htold : engine.knowledge.AllTold) :
    later.knowledge.AllTold := by
  cases hstep with
  | object className => exact htold.of_summaries_eq rfl
  | bindField type part selector result hpart hbind => exact htold.of_summaries_eq rfl
  | bindAt type part selectors result hpart hbind => exact htold.of_summaries_eq rfl
  | analyze target arguments harguments =>
    have hkept : KeepsTold (ShapeFlow.analyze engine.declarations engine.limit engine.limit target
      arguments) := inferInstance
    have htold' := hkept.told engine.knowledge htold
    unfold Engine.analyze
    split <;> rename_i hresult <;> rw [hresult] at htold' <;> exact htold'

theorem Reachable.allTold (hreachable : Reachable program limit engine) :
    engine.knowledge.AllTold := by
  induction hreachable with
  | refl =>
    intro id summary hsummary
    simp [ofProgram, Knowledge.initial] at hsummary
  | tail _ hstep ih => exact hstep.allTold ih

/-- In every reachable engine no part of a type leads outside of the graph, what is known contains
only types of the graph, and the keys of memo entries and the sketches of shared types are those
that the types have now.  All that can be asked of these types has the same answers in every
engine that is reached from there.  The same holds from moment to moment of every session, also
while analyses are active. -/
theorem reachable_types_published (hreachable : Reachable program limit engine) :
    engine.graph.Closed ∧
    (∀ type, engine.knowledge.Contains type → engine.graph.Has type) ∧
    (∀ target entry, engine.knowledge.HasEntry target entry →
      entry.key = Memo.keyOf engine.graph entry.arguments) ∧
    (∀ entry ∈ engine.graph.interned, engine.graph.sketch? entry.2 = some entry.1) ∧
    (∀ later, ReflTransGen Step engine later →
      later.graph.Closed ∧ engine.graph.Keeps later.graph) ∧
    (∀ history, Session program limit engine history →
      ∀ before moment after, history = before ++ moment :: after →
        moment.knowledge.graph.Closed ∧ moment.knowledge.graph.Keeps engine.graph ∧
          ∀ later ∈ after, moment.knowledge.graph.Keeps later.knowledge.graph) := by
  have hsound := hreachable.idle.2.sound
  have hclosed := hsound.graph.closed
  refine ⟨hclosed, fun type => hsound.has_of_contains hreachable.allTold,
    fun target entry hentry => ?_, hreachable.tidy.2.sketch, fun later hsteps => ?_,
    fun history hsession before moment after hhistory => ?_⟩
  · obtain ⟨memo, hmemo, hmem⟩ := hentry
    exact ((hsound.memos target memo hmemo).entries entry hmem).key
  · obtain ⟨hlater, hgrows, -⟩ := tidies_of_steps hsound hsteps
    exact ⟨hlater.graph.closed, hgrows.keeps hclosed hlater.graph.closed⟩
  · have hfollows := hsession.follows
    have hrises := hfollows.rises
    rw [hhistory] at hrises
    have hmoments : ∀ other ∈ before ++ moment :: after, other.knowledge.graph.Closed :=
      fun other hmem => (hfollows.moments other (hhistory ▸ hmem)).knowledge.graph.closed
    have hmoment := hmoments moment (List.mem_append_right _ List.mem_cons_self)
    refine ⟨hmoment, ?_, fun later hmem => ?_⟩
    · exact hrises.grows_of_mem.graph.keeps hmoment hclosed
    · exact (hrises.of_mem later hmem).graph.keeps hmoment
        (hmoments later (List.mem_append_right _ (List.mem_cons_of_mem _ hmem)))

end Engine

/-- Once a box was built and filled, an analysis is asked for that fails, as the function takes an
argument. -/
def failedBox : Engine := (fullBox.analyze ⟨4⟩ []).2

/-- The type of an object that holds itself is contained in a summary.  Afterwards it is what it
was. -/
theorem failedBox_types_published :
    Engine.Reachable knotProgram 4 knotStart ∧
      Relation.ReflTransGen Engine.Step knotStart failedBox ∧
        (fullBox.analyze ⟨4⟩ []).1.isOk = false ∧ knotStart.knowledge.Contains ⟨1⟩ ∧
          knotStart.graph.Has ⟨1⟩ ∧ failedBox.graph.node? ⟨1⟩ = knotStart.graph.node? ⟨1⟩ ∧
            failedBox.graph.render ⟨1⟩ = "Node\x7b@next: Node\x7d" := by
  have hsteps : Relation.ReflTransGen Engine.Step knotStart failedBox :=
    fullBox_of_knotStart.tail (.analyze fullBox ⟨4⟩ [] nofun)
  have hcontains : knotStart.knowledge.Contains ⟨1⟩ := by
    have hshown : (knotStart.summary? ⟨0⟩).map (fun summary => summary.result) =
        some (.type ⟨1⟩) := by
      decide +kernel
    obtain ⟨summary, hsummary, hparts⟩ := Option.map_eq_some_iff.mp hshown
    exact .summary 0 summary hsummary (.result hparts)
  obtain ⟨-, hhas, -, -, hlater, -⟩ := Engine.reachable_types_published knotStart_reachable
  obtain ⟨-, hkeeps⟩ := hlater failedBox hsteps
  have htype := hhas ⟨1⟩ hcontains
  exact ⟨knotStart_reachable, hsteps, by decide +kernel, hcontains, htype,
    hkeeps.node?_eq ⟨1⟩ htype, (hkeeps.render_eq ⟨1⟩ htype).trans (by decide +kernel)⟩

end ShapeFlow
