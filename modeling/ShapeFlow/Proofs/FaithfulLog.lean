import ShapeFlow.Proofs.EngineSoundness
import ShapeFlow.Proofs.Rewrites

/-!
# The log of a body is faithful

The writes that a summary tells its callers are a log: repeated on the argument types, they lead
to the types that the slots have at the end of the body (`Run.replay_argumentWrites`).

A body evolves its frame by its writes, so it is enough that one write keeps the record faithful
(`Frame.write_faithful`).  The slot is rebuilt with the type that the value has before the change,
and the record tells the value as it is after it.  For a type or a place this is the same.  An
allocated object has in general another type by then, as it may hold the very place that is
written; so the theorem is about bodies all of whose writes are clear (`Store.Clear`).  That this
is needed shows a function that puts an object in the argument which the object holds
(`boxStart_replay_differs`).
-/

namespace ShapeFlow

open TypeGraph (SameUnfolding SameUnfoldings)

variable {frame later : Frame} {graph grown final : TypeGraph} {arguments : List TypeId}
  {declarations : Declarations} {span : Span} {operand : Operand} {target : AccessPath}

namespace Frame

/-! ## Recording a write -/

/-- What is recorded of an object that was put in a slot is faithful, and so is what the walk
records of the places that it holds. -/
theorem place_faithful (hsound : frame.Sound graph arguments)
    (hfaithful : later.Faithful arguments graph) (hslots : later.slots = frame.slots)
    (hobjects : later.allocations = frame.allocations) (settling : Bool) {id : AllocId}
    {type : TypeId} (hstands : frame.StandsAt graph id target type) :
    Checked.Safe (fun _ => True) (later.place settling id target) fun placed =>
      placed.slots = frame.slots ∧ placed.Faithful arguments graph := by
  have hstart : Placement.Tells frame graph arguments { frame := later } :=
    ⟨hslots, fun id object hobject => ⟨object, by rw [← hobjects]; exact hobject, rfl, Or.inl rfl⟩,
      hfaithful⟩
  exact (Placement.visit_tells hsound settling _ hstart hstands).bind fun walk htells =>
    ⟨htells.slots, htells.faithful⟩

/-- The slot was rebuilt with a part that shows the operand.  If an object holds no place that
this is about, then recording the operand is faithful. -/
theorem recordOperand_faithful (hsound : frame.Sound graph arguments)
    (hfaithful : frame.Faithful arguments graph) {part current updated : TypeId} {slot : Nat}
    (hrebinds : frame.Rebinds graph target part slot current updated grown)
    (hrebound : (frame.withSlot slot updated).Sound grown arguments)
    (hsettled : frame.Settled operand) (hpart : frame.Shows graph operand part)
    (hclear : ∀ id, operand = .fresh id → frame.ClearOf id target) :
    (lenient TypeGraph).Ends grown
      (recordOperand declarations span target operand (frame.withSlot slot updated) grown)
      fun result final => result.2.Faithful arguments final := by
  have hwell := hsound.wellFormed
  have hgrows := hrebinds.grows
  have hrecord : ∀ {final : TypeGraph} {value : Value}, grown.Grows final →
      graph.Conveys final frame.slots part value →
        ((frame.withSlot slot updated).record target value).Faithful arguments final :=
    fun hfinal hvalue => hfaithful.record_rebound hwell hrebinds.root hrebinds.held hpart.has
      hrebinds.bind hfinal hvalue
  cases operand with
  | type held =>
    have hsame : SameUnfolding graph held graph part := hpart.of_foundType? rfl
    exact ⟨trivial, hrecord (.refl grown) (.type (hsame.mono hgrows (.refl graph)))⟩
  | path source =>
    obtain ⟨found, hfound, hsame⟩ := hpart.exists_found rfl
    exact ⟨trivial, hrecord (.refl grown) (.path hfound hsame)⟩
  | fresh id =>
    -- The object shows the part after the change of the slot as it did before.
    have hkept : (frame.withSlot slot updated).Shows grown (.fresh id) part :=
      hpart.of_clear hrebinds hsound hpart.has hsettled (hclear id rfl)
    obtain ⟨reached, hreached, hsameReached⟩ := hrebinds.placeType?_target hsound hpart.has
    unfold recordOperand
    refine .get_bind (.lift_bind
      (reify_shows declarations span hrebound.wellFormed hrebound.hasTypes id).leniently ?_)
    intro type built _ hpost
    obtain ⟨hbuilt, hwell', hshows⟩ := hpost
    have hrebound' := hrebound.mono hbuilt hwell'
    have hkept' : (frame.withSlot slot updated).Shows built (.fresh id) part :=
      hkept.mono hbuilt hrebound.wellFormed.closed hrebound.hasTypes
    have hsame : SameUnfolding built type graph part :=
      (hshows.sameUnfolding hrebound' hkept').trans
        ((hgrows.trans hbuilt).sameUnfolding hwell.closed hpart.has).symm
    have hstands : (frame.withSlot slot updated).StandsAt built id target reached :=
      ⟨hsettled, by rw [placeType?_eq_of_grows hbuilt hrebound.wellFormed.closed
        hrebound.hasTypes, hreached],
        hkept'.of_sameUnfolding (hsameReached.mono (hgrows.trans hbuilt) hbuilt)⟩
    refine .modify_bind (.get_bind (.checked_bind trivial
      (place_faithful hrebound' (hrecord hbuilt (.type hsame)) rfl rfl true hstands) ?_))
    intro placed hplaced
    exact ⟨trivial, hplaced.2⟩

/-! ## Writing -/

/-- One write keeps the record faithful, if it is clear. -/
theorem write_faithful (hsound : frame.Sound graph arguments) {base value result : Operand}
    {selector : Selector} (hvalue : value.RootedIn graph arguments)
    (hfaithful : frame.Faithful arguments graph)
    (hclear : ∀ store ∈ stores declarations span base selector value frame graph, store.Clear)
    (hrun : write declarations span base selector value frame graph =
      .ok (result, later) final) : later.Faithful arguments final := by
  rcases write_cases hsound hvalue hrun with ⟨hquiet, rfl⟩ | ⟨store, hstores, hrewrites⟩
  · exact hfaithful.mono (.refl final) hquiet.slots hquiet.writes
  · obtain ⟨part, built, slot, current, updated, rebuilt, hbuilt, hsound', hshows, hrebinds,
      hrebound, hrecord⟩ := exists_of_rebind hrewrites.sound hrewrites.selectors selector
        hrewrites.rooted hrewrites.settled hrewrites.run
    have hquiet := hrewrites.quiet
    have hfaithful' : store.frame.Faithful arguments built :=
      hfaithful.mono (hrewrites.grows.trans hbuilt) hquiet.slots hquiet.writes
    have hclear' : store.Clear :=
      hclear store (by rw [hstores]; exact List.mem_singleton_self store)
    exact ((recordOperand_faithful hsound' hfaithful' hrebinds hrebound hrewrites.settled hshows
      hclear').of_eq_ok hrecord).2

/-- What the evolution of a frame records is faithful, if all writes are clear. -/
theorem Evolves.faithful {stores : List Store}
    (hevolves : frame.Evolves declarations arguments graph stores later grown)
    (hfaithful : frame.Faithful arguments graph) (hclear : ∀ store ∈ stores, store.Clear) :
    later.Faithful arguments grown := by
  induction hevolves with
  | quiet hgrows hquiet =>
    exact hfaithful.mono hgrows hquiet.slots hquiet.writes
  | write hsound _ hvalue hwrite =>
    exact write_faithful hsound hvalue hfaithful hclear hwrite
  | append _ _ ihFirst ihSecond =>
    obtain ⟨hfirst, hsecond⟩ := List.forall_mem_append.mp hclear
    exact ihSecond (ihFirst hfaithful hfirst) hsecond

/-! ## Bodies -/

/-- Telling the result adds only writes to parts of the result. -/
theorem expressResult_writes (hsound : frame.Sound graph arguments) (operand : Operand) :
    (lenient TypeGraph).Ends graph (expressResult declarations span operand frame graph)
      fun result _ => ∃ returned : List Write, result.2.writes = frame.writes ++ returned ∧
        ∀ write ∈ returned, write.target.ofResult = true := by
  have htold : ∀ operand : Operand, (lenient TypeGraph).Ends graph
      (express declarations span operand frame graph) fun result _ =>
        ∃ returned : List Write, result.2.writes = frame.writes ++ returned ∧
          ∀ write ∈ returned, write.target.ofResult = true :=
    fun operand => (lenient_ends _ frame graph).mono fun result _ _ hquiet =>
      ⟨[], by simp [hquiet.writes], by simp⟩
  have hresolved : Checked.Safe (fun _ => True) (frame.resolve operand) fun _ => True :=
    Checked.safe_true fun _ => trivial
  unfold expressResult
  refine (Discipline.Ends.inspect _ trivial hresolved).run_bind ?_
  intro operand changed later _ hpost
  obtain ⟨rfl, rfl, -⟩ := hpost
  cases operand with
  | type held => exact htold (.type held)
  | path place => exact htold (.path place)
  | fresh id =>
    refine .get_bind (.lift_bind (reify_ends hsound id).leniently ?_)
    intro type grown _ hpost
    obtain ⟨hgrows, hwell, -⟩ := hpost
    have hplaced : Checked.Harmless (frame.place false id ⟨AccessPath.resultSlot, []⟩)
        (frame.Records grown arguments AccessPath.resultSlot) :=
      place_safe (hsound.mono hgrows hwell) id _ fun heq => nomatch heq
    refine .get_bind (.checked_bind trivial hplaced.leniently ?_)
    intro later hpost
    obtain ⟨-, returned, hwrites, hreturned⟩ := hpost
    exact ⟨trivial, returned, hwrites, fun write hmem => by
      simp [AccessPath.ofResult, (hreturned write hmem).1]⟩

end Frame

/-- The writes to parts of the arguments. -/
def Summary.argumentWrites (summary : Summary) : List Write :=
  summary.writes.filter fun write => !write.target.ofResult

theorem Frame.Sound.argumentWrites_eq (hsound : frame.Sound graph arguments) {summary : Summary}
    {returned : List Write} (hwrites : summary.writes = frame.writes ++ returned)
    (hreturned : ∀ write ∈ returned, write.target.ofResult = true) :
    summary.argumentWrites = frame.writes := by
  have hown : ∀ write ∈ frame.writes, (!write.target.ofResult) = true := by
    intro write hmem
    obtain ⟨slot, -, -, hroot, -⟩ := (hsound.writes write hmem).target
    simp [AccessPath.ofResult, AccessPath.resultSlot, hroot]
  rw [Summary.argumentWrites, hwrites, List.filter_append, List.filter_eq_self.mpr hown,
    List.filter_eq_nil_iff.mpr fun write hmem => by simp [hreturned write hmem], List.append_nil]

namespace Run

variable {target : DefId} (run : Run declarations target arguments)

/-- The scope of the body that is analyzed. -/
def scope : Scope :=
  ⟨declarations, run.definition, analyze declarations run.limit run.room⟩

/-- The evaluation of the body that is analyzed. -/
def evaluation : EStateM.Result Failure Knowledge (Operand × Frame) :=
  run.scope.evaluateBody run.definition.decl.body { slots := arguments } run.start

/-- The writes that the body makes. -/
def stores : List Store :=
  run.scope.bodyStores run.definition.decl.body { slots := arguments } run.start

theorem analyst_sound : run.scope.analyst.Sound run.scope.declarations :=
  analyze_sound run.limit run.room

instance (callee : DefId) (types : List TypeId) : Drifts (run.scope.analyst callee types) :=
  inferInstanceAs (Drifts (analyze declarations run.limit run.room callee types))

theorem finish_sound : run.finish.Sound declarations :=
  ((summarize_ends run.analyst_sound run.sound run.definition _
    run.has_arguments).of_eq_ok run.summarizes).2.1

/-- The evaluation of the body succeeds, and the summary has the writes of its frame and writes
to parts of the result. -/
theorem exists_evaluation : ∃ operand frame known, run.evaluation = .ok (operand, frame) known ∧
    known.graph.Grows run.finish.graph ∧ run.summary.argumentWrites = frame.writes := by
  have hframe := Frame.Sound.start run.sound.graph run.has_arguments
  obtain ⟨result, final, hbody, hpure⟩ := exists_of_bind run.summarizes
  obtain ⟨operand, frame, known, heval, hexpress⟩ := exists_of_run_bind hbody
  obtain ⟨graph, hresult, rfl⟩ := exists_of_framed hexpress
  obtain ⟨-, hknown, hsound, hoperand⟩ := (Scope.evaluateBody_keeps run.analyst_sound
    run.definition.decl.body _ run.start run.sound hframe).of_eq_ok heval
  let signature : Signature := ⟨run.definition.qualifiedName, arguments⟩
  obtain ⟨hgrows, -⟩ := (Frame.expressResult_ends signature hsound hoperand).of_eq_ok hresult
  obtain ⟨-, returned, hwrites, hreturned⟩ :=
    (Frame.expressResult_writes hsound operand).of_eq_ok hresult
  obtain ⟨hsummary, hfinish⟩ : (_ = run.summary) ∧ (_ = run.finish) := by
    simpa [Pure.pure, EStateM.pure] using hpure
  refine ⟨operand, frame, known, heval, ?_, ?_⟩
  · rw [← hfinish]
    exact hgrows
  · rw [← hsummary]
    exact hsound.argumentWrites_eq hwrites hreturned

/-- The argument writes of a summary lead from the argument types to the types that the slots
have at the end of the body, if each write of the body is clear.  They do so in every graph that
the types have grown to. -/
theorem replay_argumentWrites (hclear : ∀ store ∈ run.stores, store.Clear) :
    ∃ operand frame known, run.evaluation = .ok (operand, frame) known ∧
      ∀ graph, run.finish.graph.Grows graph → graph.WellFormed →
        ∃ slots last, graph.replay? arguments run.summary.argumentWrites = some (slots, last) ∧
          last.sameShapes slots frame.slots = true := by
  have hstart := Frame.Sound.start run.sound.graph run.has_arguments
  obtain ⟨operand, frame, known, heval, hgrows, hwrites⟩ := run.exists_evaluation
  have hevolves := Scope.evaluateBody_evolving run.analyst_sound run.definition.decl.body run.sound
    hstart _ _ _ heval
  have hfaithful : frame.Faithful arguments known.graph :=
    hevolves.faithful (Frame.faithful_start run.sound.graph run.has_arguments) hclear
  refine ⟨operand, frame, known, heval, fun graph hgrown hgraph => ?_⟩
  obtain ⟨slots, last, hreplay, hlast, hwell, hsame⟩ :=
    hfaithful graph (hgrows.trans hgrown) hgraph
  have hsame' : TypeGraph.SameUnfoldings last slots last frame.slots :=
    hsame.mono (.refl last) ((hgrows.trans hgrown).trans hlast)
  refine ⟨slots, last, by rw [hwrites]; exact hreplay, ?_⟩
  exact (TypeGraph.sameShapes_iff hwell.closed hsame'.has_left hsame'.symm.has_left).mpr hsame'

end Run

/-- A function that puts its second argument in a box, and the box in its first argument; and one
that puts the box in the very argument that the box holds. -/
def boxProgram : Program where
  classes := [
    { name := "Node", fields := [.field "@link"] },
    { name := "Box", fields := [.field "@next"] }]
  functions := [{
    name := "enclose"
    parameters := ["x", "y"]
    body := [
      .bind {} "n" (.allocate {} "Box"),
      .write {} (.name {} "n") (.field "@next") (.name {} "y"),
      .write {} (.name {} "x") (.field "@link") (.name {} "n")] }, {
    name := "tie"
    parameters := ["x"]
    body := [
      .bind {} "n" (.allocate {} "Box"),
      .write {} (.name {} "n") (.field "@next") (.name {} "x"),
      .write {} (.name {} "x") (.field "@link") (.name {} "n")] }]

/-- The program with the type of its nodes. -/
def boxStart : Engine :=
  let engine := Engine.ofProgram boxProgram 4
  engine.withGraph (engine.graph.plainObject "Node").2

theorem sound_boxStart : boxStart.knowledge.Sound boxStart.declarations := by
  have hreachable : Engine.Reachable boxProgram 4 boxStart := .single (.object _ "Node")
  exact hreachable.idle.2.sound

section Box

variable (target : DefId) (arguments : List TypeId)

/-- A function of the program. -/
def boxDefinition : Definition := (boxStart.declarations.definition? target).getD default

/-- The analysis of its body for nodes. -/
def boxSummary : EStateM.Result Failure Knowledge Summary :=
  summarize (analyze boxStart.declarations 4 4) boxStart.declarations (boxDefinition target)
    ⟨(boxDefinition target).qualifiedName, arguments⟩ boxStart.knowledge

/-- The scope of its body. -/
def boxScope : Scope :=
  ⟨boxStart.declarations, boxDefinition target, analyze boxStart.declarations 4 4⟩

/-- The evaluation of its body for nodes. -/
def boxEvaluation : EStateM.Result Failure Knowledge (Operand × Frame) :=
  (boxScope target).evaluateBody (boxDefinition target).decl.body { slots := arguments }
    boxStart.knowledge

/-- The writes of its body for nodes. -/
def boxStores : List Store :=
  (boxScope target).bodyStores (boxDefinition target).decl.body { slots := arguments }
    boxStart.knowledge

/-- Whether the argument writes lead to other types than the slots have at the end. -/
def boxDiffers (frame : Frame) (summary : Summary) (finish : Knowledge) : Bool :=
  (finish.graph.replay? arguments summary.argumentWrites).any fun state =>
    !state.2.sameShapes state.1 frame.slots

variable {target arguments}

/-- The analysis of its body for nodes, where it succeeds. -/
def boxRun {summary : Summary} {finish : Knowledge}
    (hdefined : boxStart.declarations.definition? target = some (boxDefinition target))
    (hhas : ∀ type ∈ arguments, boxStart.graph.Has type)
    (hsummary : boxSummary target arguments = .ok summary finish) :
    Run boxStart.declarations target arguments where
  definition := boxDefinition target
  limit := 4
  room := 4
  start := boxStart.knowledge
  summary := summary
  finish := finish
  definition?_eq := hdefined
  sound := sound_boxStart
  has_arguments := hhas
  summarizes := hsummary

end Box

/-- Whether there is an answer, and it passes a check. -/
def passes {τ α : Type} (check : α → τ → Bool) : EStateM.Result Failure τ α → Bool
  | .ok value later => check value later
  | .error _ _ => false

theorem exists_of_passes {τ α : Type} {check : α → τ → Bool} (outcome : EStateM.Result Failure τ α)
    (hpasses : passes check outcome = true) :
    ∃ value later, outcome = .ok value later ∧ check value later = true := by
  cases outcome with
  | ok value later => exact ⟨value, later, rfl, hpasses⟩
  | error failure later => exact nomatch hpasses

/-- The box holds the second argument and is put in the first one, which is clear. -/
theorem boxStart_replay_argumentWrites : ∃ run : Run boxStart.declarations ⟨2⟩ [⟨1⟩, ⟨1⟩],
    run.stores.length = 1 ∧ (∀ store ∈ run.stores, store.Clear) ∧
      ∃ operand frame known slots last, run.evaluation = .ok (operand, frame) known ∧
        run.finish.graph.replay? [⟨1⟩, ⟨1⟩] run.summary.argumentWrites = some (slots, last) ∧
          last.sameShapes slots frame.slots = true := by
  obtain ⟨summary, finish, hsummary, -⟩ :=
    exists_of_passes (boxSummary ⟨2⟩ [⟨1⟩, ⟨1⟩])
      (show passes (fun _ _ => true) (boxSummary ⟨2⟩ [⟨1⟩, ⟨1⟩]) = true by decide +kernel)
  let run := boxRun (by rfl) (by decide +kernel) hsummary
  have hlength : (boxStores ⟨2⟩ [⟨1⟩, ⟨1⟩]).length = 1 := by decide +kernel
  have hapart : (boxStores ⟨2⟩ [⟨1⟩, ⟨1⟩]).all Store.isApart = true := by decide +kernel
  have hclear : ∀ store ∈ run.stores, store.Clear :=
    fun store hmem => Store.clear_of_isApart (List.all_eq_true.mp hapart store hmem)
  obtain ⟨operand, frame, known, heval, hreplays⟩ := Run.replay_argumentWrites run hclear
  obtain ⟨slots, last, hreplay, hsame⟩ :=
    hreplays finish.graph (.refl finish.graph) run.finish_sound.graph
  exact ⟨run, hlength, hclear, operand, frame, known, slots, last, heval, hreplay, hsame⟩

/-- The box holds the argument in which it is put, so the record shows one more box in it than
the slot does. -/
theorem boxStart_replay_differs : ∃ run : Run boxStart.declarations ⟨3⟩ [⟨1⟩],
    ∃ operand frame known slots last, run.evaluation = .ok (operand, frame) known ∧
      run.finish.graph.replay? [⟨1⟩] run.summary.argumentWrites = some (slots, last) ∧
        last.sameShapes slots frame.slots = false := by
  have hpasses : passes (fun result _ => passes (boxDiffers [⟨1⟩] result.2) (boxSummary ⟨3⟩ [⟨1⟩]))
    (boxEvaluation ⟨3⟩ [⟨1⟩]) = true := by decide +kernel
  obtain ⟨⟨operand, frame⟩, known, heval, hsummary⟩ := exists_of_passes _ hpasses
  obtain ⟨summary, finish, hsummary, hdiffers⟩ := exists_of_passes _ hsummary
  obtain ⟨⟨slots, last⟩, hreplay, hdiffers⟩ := (Option.any_eq_true _ _).mp hdiffers
  exact ⟨boxRun (by rfl) (by decide +kernel) hsummary, operand, frame, known, slots, last, heval,
    hreplay, by simpa using hdiffers⟩

end ShapeFlow
