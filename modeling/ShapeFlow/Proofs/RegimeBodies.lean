import ShapeFlow.Proofs.Regimes
import ShapeFlow.Proofs.Sessions

/-!
# Lawful regimes hold in bodies

From the steps of which bodies are made a lawful regime is carried to the repetition of what a
summary says, to calls, to expressions and to whole bodies (`Regime.evaluateBody_runs`).  A call
asks for the summary of its callee; all that is needed of the answer is that the world is kept.
-/

namespace ShapeFlow

variable {declarations : Declarations} {α β : Type}

/-- Reading the types twice in a row is reading them once. -/
theorem reading_bind (step : TypeGraph → StateT Frame Checked α)
    (next : TypeGraph → α → StateT Frame Checked β) :
    (reading fun graph => step graph >>= next graph) =
      (reading step >>= fun value => reading fun graph => next graph value) := by
  funext frame graph
  simp only [reading, Bind.bind, StateT.bind, EStateM.bind, Except.bind]
  cases step graph frame <;> rfl

namespace Regime

variable {regime : Regime} (hlawful : regime.Lawful declarations) {arguments : List TypeId}
  {graph : TypeGraph} {frame : Frame} {span : Span}

include hlawful

/-! ## Reading and writing along chains -/

theorem along_runs (hstands : regime.Stands arguments graph frame) {base : Operand}
    (hbase : regime.Admits arguments graph frame base) (selectors : List Selector) :
    regime.Runs arguments
      (reading fun graph => Frame.readAlong declarations span graph base selectors)
      (Frame.pointsAlong declarations span base selectors) frame graph
      fun operand later grown => regime.Admits arguments grown later operand := by
  induction selectors generalizing base frame graph with
  | nil =>
    have hpure : regime.Runs arguments (pure base : Framed Operand) noPoints frame graph
        fun operand later grown => regime.Admits arguments grown later operand :=
      .pure hstands hbase
    exact hpure
  | cons selector rest ih =>
    have hunfold : (reading fun graph =>
        Frame.readAlong declarations span graph base (selector :: rest)) =
          (reading (fun graph => Frame.read declarations span graph base selector) >>=
            fun operand => reading fun graph =>
              Frame.readAlong declarations span graph operand rest) := by
      simp only [Frame.readAlong, List.foldlM_cons]
      exact reading_bind _ _
    rw [hunfold]
    refine ((read_runs hlawful hstands hbase selector).bind fun operand changed later _ _ hstands'
      _ hoperand => ih hstands' hoperand).from_point ⟨hstands, ?_, nofun⟩
    exact List.forall_mem_singleton.mpr hbase

theorem write_runs (hstands : regime.Stands arguments graph frame) {base value : Operand}
    (hbase : regime.Admits arguments graph frame base) (selector : Selector)
    (hvalue : regime.Takes arguments graph frame value) :
    regime.Runs arguments (Frame.write declarations span base selector value)
      (pointOf (.writes base selector value)) frame graph fun operand later grown =>
        operand.RootedIn grown arguments ∧
          (regime.Fits arguments graph frame value → regime.Fits arguments grown later operand) := by
  have hpoint : regime.Meets arguments ⟨frame, graph, .writes base selector value⟩ := by
    refine ⟨hstands, List.forall_mem_singleton.mpr hbase, fun other hother => ?_⟩
    cases hother
    exact hvalue
  refine ⟨List.forall_mem_singleton.mpr hpoint, ?_⟩
  have hkeeps : Frame.Keeps graph arguments
      (Frame.write declarations span base selector value frame graph)
      fun operand grown => operand.RootedIn grown arguments :=
    Frame.write_keeps hstands.sound hbase.rooted selector hvalue.rooted
  have hobeys := hlawful.write span selector hstands hbase hvalue
  cases hresult : Frame.write declarations span base selector value frame graph with
  | error failure final =>
    rw [hresult] at hobeys
    exact hobeys.2
  | ok result final =>
    rw [hresult] at hkeeps hobeys
    obtain ⟨-, hhoused, hclasses⟩ :=
      Frame.write_housed hstands.sound hvalue.rooted hstands.housed hresult
    exact ⟨hkeeps.1, ⟨hkeeps.2.1, hhoused, hobeys.2.1, hobeys.2.2.1⟩, hclasses.objects,
      hkeeps.2.2, hobeys.2.2.2⟩

theorem writeAlong_runs (hstands : regime.Stands arguments graph frame) {base value : Operand}
    (hbase : regime.Admits arguments graph frame base) (selectors : List Selector)
    (hvalue : regime.Takes arguments graph frame value) :
    regime.Runs arguments (Frame.writeAlong declarations span base selectors value)
      (Frame.pointsToWrite declarations span base selectors value) frame graph
      fun _ _ _ => True := by
  unfold Frame.writeAlong Frame.pointsToWrite
  cases selectors.getLast? with
  | none => exact .pure hstands trivial
  | some last =>
    refine (along_runs hlawful hstands hbase selectors.dropLast).bind ?_
    intro object changed later _ hgrows hstands' hkeeps hobject
    exact (write_runs hlawful hstands' hobject last
      (hvalue.kept hlawful hstands hgrows hkeeps)).before
        fun _ _ _ _ _ hstands'' _ _ => .pure hstands'' trivial

/-! ## Types and values of operands -/

theorem currentType_runs (hstands : regime.Stands arguments graph frame) {operand : Operand}
    (hoperand : regime.Admits arguments graph frame operand) :
    regime.Runs arguments (Frame.currentType declarations span operand) noPoints frame graph
      fun type _ grown => grown.Has type :=
  (Runs.quiet hstands (Frame.currentType_keeps hstands.sound hoperand.rooted)
    (hlawful.currentType span hstands hoperand)).mono fun _ _ _ _ hpost => hpost.1

theorem express_runs (hstands : regime.Stands arguments graph frame) {operand : Operand}
    (hoperand : regime.Admits arguments graph frame operand) :
    regime.Runs arguments (Frame.express declarations span operand) noPoints frame graph
      fun value _ grown => value.RootedIn grown arguments :=
  (Runs.quiet hstands (Frame.express_keeps hstands.sound hoperand.rooted)
    (hlawful.express span hstands hoperand)).mono fun _ _ _ _ hpost => hpost.1

/-- An object that the callee returns is made, unless it returns a primitive value. -/
theorem expandResult_runs (hstands : regime.Stands arguments graph frame) {summary : Summary}
    (hsummary : summary.WellFormed graph) :
    regime.Runs arguments
      (match summary.result with
        | .type type => reading fun graph => Frame.expand? graph type
        | .path _ => pure none : Framed (Option AllocId)) noPoints frame graph
      fun result? later grown =>
        (∀ id, result? = some id → regime.Admits arguments grown later (.fresh id)) ∧
          (result? = none → ∀ type, summary.result = .type type →
            grown.node? type = some .scalar) := by
  have hkeeps := expandResult_keeps hstands.sound summary
  have hresult := hsummary.result
  cases hvalue : summary.result with
  | path place => exact .pure hstands ⟨nofun, fun _ _ heq => nomatch heq⟩
  | type type =>
    rw [hvalue] at hkeeps hresult
    have hobeys : regime.Obeys arguments graph
        (reading (fun graph => Frame.expand? graph type) frame graph) fun result? later grown =>
          graph = grown ∧ ∀ id, result? = some id →
            regime.Fits arguments grown later (.fresh id) := by
      refine .reading hstands ((hlawful.expand? hstands hresult).mono fun result hpost => ?_)
      exact ⟨hpost.1, rfl, hpost.2⟩
    refine (Runs.quiet hstands hkeeps hobeys).mono fun result? later grown _ hpost => ?_
    obtain ⟨hobject, rfl, hfits⟩ := hpost
    refine ⟨fun id hid => ⟨trivial, hfits id hid⟩, fun hnone other heq => ?_⟩
    cases heq
    obtain ⟨node, hnode⟩ := (TypeGraph.has_iff_exists_node _ _).mp hresult
    cases node with
    | scalar => exact hnode
    | object className fields =>
      have hclass := TypeGraph.className?_eq_some_iff.mpr ⟨fields, hnode⟩
      have hsome := hobject type className rfl hclass
      rw [hnone] at hsome
      exact nomatch hsome

end Regime

/-! ## Repeating what a summary says -/

/-- A value that a summary writes makes sense in terms of its slots. -/
theorem Summary.WellFormed.value_rootedIn {graph : TypeGraph} {summary : Summary}
    (hsummary : summary.WellFormed graph) {write : Write} (hmem : write ∈ summary.writes) :
    write.value.RootedIn graph summary.signature.arguments := by
  obtain ⟨own, returned, hwrites, hown, hreturned, -⟩ := hsummary.writes
  rw [hwrites] at hmem
  rcases List.mem_append.mp hmem with hmem | hmem
  · exact (hown write hmem).value
  · obtain ⟨-, -, source, hvalue, hsource⟩ := hreturned write hmem
    rw [hvalue]
    exact hsource

namespace Regime

section Replays

variable {regime : Regime} {binding : Binding} {arguments : List TypeId}
  {graph grown : TypeGraph} {frame later : Frame} {summary : Summary}

/-- What the slots of the callee stand for observes the regime. -/
structure Binds (regime : Regime) (arguments : List TypeId) (graph : TypeGraph) (frame : Frame)
    (binding : Binding) : Prop where
  operands : ∀ operand ∈ binding.arguments, regime.Admits arguments graph frame operand
  result : ∀ id, binding.result? = some id → regime.Admits arguments graph frame (.fresh id)

variable (hlawful : regime.Lawful binding.declarations)

include hlawful

theorem Binds.kept (hbinds : regime.Binds arguments graph frame binding)
    (hstands : regime.Stands arguments graph frame) (hgrows : graph.Grows grown)
    (hkeeps : frame.KeepsObjects later) : regime.Binds arguments grown later binding where
  operands operand hmem := (hbinds.operands operand hmem).kept hlawful hstands hgrows hkeeps
  result id hid := (hbinds.result id hid).kept hlawful hstands hgrows hkeeps

theorem slot_runs (hbinds : regime.Binds arguments graph frame binding)
    (hstands : regime.Stands arguments graph frame) (slot : Nat) :
    regime.Runs arguments (binding.slot slot) noPoints frame graph fun operand later grown =>
      regime.Admits arguments grown later operand := by
  unfold Binding.slot
  cases hslot : binding.slot? slot with
  | none => exact .reject hlawful hstands.world
  | some operand =>
    refine resolve_runs hlawful hstands ?_
    cases slot with
    | zero =>
      obtain ⟨id, hid, rfl⟩ := Option.map_eq_some_iff.mp hslot
      exact hbinds.result id hid
    | succ slot => exact hbinds.operands operand (List.mem_of_getElem? hslot)

theorem place_runs (hbinds : regime.Binds arguments graph frame binding)
    (hstands : regime.Stands arguments graph frame) (place : AccessPath) :
    regime.Runs arguments (binding.place place) (binding.valuePoints (.path place)) frame graph
      fun operand later grown => regime.Admits arguments grown later operand := by
  unfold Binding.place Binding.valuePoints
  exact (slot_runs hlawful hbinds hstands place.root).bind fun base changed later _ _ hstands' _
    hbase => along_runs hlawful hstands' hbase place.selectors

theorem value_runs (hbinds : regime.Binds arguments graph frame binding)
    (hstands : regime.Stands arguments graph frame) {value : Value}
    (hvalue : value.RootedIn graph summary.signature.arguments) :
    regime.Runs arguments (binding.value value) (binding.valuePoints value) frame graph
      fun operand later grown => regime.Takes arguments grown later operand := by
  cases value with
  | type type => exact .pure hstands ⟨hvalue, hlawful.typed hstands hvalue⟩
  | path place =>
    exact (place_runs hlawful hbinds hstands place).mono fun _ _ _ hstands' hoperand =>
      hoperand.takes hlawful hstands'

theorem replayWrite_runs (hbinds : regime.Binds arguments graph frame binding)
    (hstands : regime.Stands arguments graph frame) {write : Write}
    (hvalue : write.value.RootedIn graph summary.signature.arguments) :
    regime.Runs arguments (binding.write write) (binding.writePoints write) frame graph
      fun _ _ _ => True := by
  unfold Binding.write Binding.writePoints
  refine (slot_runs hlawful hbinds hstands write.target.root).bind ?_
  intro base changed later _ hgrows hstands' hkeeps hbase
  refine (value_runs hlawful (hbinds.kept hlawful hstands hgrows hkeeps) hstands'
    (hvalue.mono hgrows)).bind ?_
  intro value last final _ hgrows' hstands'' hkeeps' hvalue
  exact writeAlong_runs hlawful hstands'' (hbase.kept hlawful hstands' hgrows' hkeeps')
    write.target.selectors hvalue

theorem replayWrites_runs (hbinds : regime.Binds arguments graph frame binding)
    (hstands : regime.Stands arguments graph frame) {writes : List Write}
    (hvalues : ∀ write ∈ writes, write.value.RootedIn graph summary.signature.arguments) :
    regime.Runs arguments (writes.forM binding.write) (binding.writesPoints writes) frame graph
      fun _ _ _ => True := by
  induction writes generalizing frame graph with
  | nil =>
    have hpure : regime.Runs arguments (pure ⟨⟩ : Framed PUnit) noPoints frame graph
        fun _ _ _ => True := .pure hstands trivial
    exact hpure
  | cons write rest ih =>
    obtain ⟨hvalue, hrest⟩ := List.forall_mem_cons.mp hvalues
    refine (replayWrite_runs hlawful hbinds hstands hvalue).bind ?_
    intro _ changed later _ hgrows hstands' hkeeps _
    exact ih (hbinds.kept hlawful hstands hgrows hkeeps) hstands' fun write hmem =>
      (hrest write hmem).mono hgrows

theorem replay_runs (hbinds : regime.Binds arguments graph frame binding)
    (hstands : regime.Stands arguments graph frame) (hsummary : summary.WellFormed graph)
    (hprimitive : binding.result? = none → ∀ type, summary.result = .type type →
      graph.node? type = some .scalar) :
    regime.Runs arguments (binding.replay summary) (binding.replayPoints summary) frame graph
      fun operand later grown => regime.Admits arguments grown later operand := by
  unfold Binding.replay Binding.replayPoints
  refine (replayWrites_runs hlawful hbinds hstands fun write hmem =>
    hsummary.value_rootedIn hmem).bind ?_
  intro _ changed later _ hgrows hstands' hkeeps _
  have hbinds' := hbinds.kept hlawful hstands hgrows hkeeps
  unfold Binding.result Binding.resultPoints
  cases hresult? : binding.result? with
  | some id => exact resolve_runs hlawful hstands' (hbinds'.result id hresult?)
  | none =>
    cases hresult : summary.result with
    | path place => exact place_runs hlawful hbinds' hstands' place
    | type type =>
      have hnode : graph.node? type = some .scalar := hprimitive hresult? type hresult
      have hhas : graph.Has type := (TypeGraph.has_iff_exists_node _ _).mpr ⟨_, hnode⟩
      have hlater := (TypeGraph.Grows.node?_eq hgrows type hhas).trans hnode
      exact .pure hstands' ⟨hgrows.has hhas, hlawful.scalar hstands' hlater⟩

end Replays

/-! ## Steps of bodies -/

/-- The discipline under which callees are analyzed. -/
def knowing (regime : Regime) : Discipline Knowledge where
  Grows _ _ := True
  Calm knowledge := regime.World knowledge.graph
  Excused := regime.Excused
  refl _ := trivial
  trans _ _ := trivial

/-- The analysis of a definition keeps the world, and fails only with an excuse. -/
def Trusts (regime : Regime) (declarations : Declarations) (analyst : Analyst) : Prop :=
  ∀ {target : DefId} {types : List TypeId} {knowledge : Knowledge},
    (declarations.definition? target).isSome = true → knowledge.Sound declarations →
      (∀ type ∈ types, knowledge.graph.Has type) → regime.World knowledge.graph →
        regime.knowing.Ends knowledge (analyst target types knowledge) fun _ later =>
          regime.World later.graph

/-- What the rules of evaluation need of the scope in which they are used. -/
structure Governs (regime : Regime) (scope : Scope) (arguments : List TypeId) : Prop where
  lawful : regime.Lawful scope.declarations
  analyst : scope.analyst.Sound scope.declarations
  trusts : regime.Trusts scope.declarations scope.analyst
  owned : scope.declarations.Owned
  arrays : (scope.declarations.class? Declarations.arrayName).isSome = true
  arity : scope.definition.arity = arguments.length

section Steps

variable {regime : Regime} {arguments : List TypeId} {frame later : Frame} {knowledge : Knowledge}
  {post : α → Frame → TypeGraph → Prop}

theorem Stands.changed {graph : TypeGraph} (hstands : regime.Stands arguments graph frame)
    (hquiet : frame.Quiet later) (hsound : later.Sound graph arguments)
    (hframes : regime.Frames arguments graph later) : regime.Stands arguments graph later :=
  ⟨hsound, hstands.housed.quiet hquiet, hstands.world, hframes⟩

/-- A step that changes the frame quietly, and nothing else. -/
theorem Runs.change {τ : Type} [Typed τ] {step : StateT Frame (EStateM Failure τ) α} {value : α}
    {state : τ} (hstands : regime.Stands arguments (Typed.graph state) frame)
    (hrun : step frame state = .ok (value, later) state) (hquiet : frame.Quiet later)
    (hsound : later.Sound (Typed.graph state) arguments)
    (hframes : regime.Frames arguments (Typed.graph state) later)
    (hpost : post value later (Typed.graph state)) :
    regime.Runs arguments step noPoints frame state post := by
  refine ⟨nofun, ?_⟩
  rw [hrun]
  exact ⟨.refl _, hstands.changed hquiet hsound hframes, hquiet.objects, hpost⟩

/-- A step that changes nothing. -/
theorem Runs.look {τ : Type} [Typed τ] {step : StateT Frame (EStateM Failure τ) α} {value : α}
    {state : τ} (hstands : regime.Stands arguments (Typed.graph state) frame)
    (hrun : step frame state = .ok (value, frame) state)
    (hpost : post value frame (Typed.graph state)) :
    regime.Runs arguments step noPoints frame state post :=
  .change hstands hrun (.refl frame) hstands.sound hstands.frames hpost

/-- A step on types and frame, as a step of a body. -/
theorem Runs.framed {step : Framed α} {own : Frame → TypeGraph → List Point}
    (hruns : regime.Runs arguments step own frame knowledge.graph post) :
    regime.Runs arguments (liftM step : Body α) (fun frame knowledge => own frame knowledge.graph)
      frame knowledge post := by
  refine ⟨hruns.points, ?_⟩
  have hends := hruns.ends
  change Leads regime arguments frame knowledge post (Building.within (step frame) knowledge)
  unfold Building.within
  cases hresult : step frame knowledge.graph with
  | ok result final =>
    rw [hresult] at hends
    exact hends
  | error failure final =>
    rw [hresult] at hends
    exact hends

/-- The analysis of a callee is asked for. -/
theorem Runs.ask (hlawful : regime.Lawful declarations) {analyst : Analyst}
    (hanalyst : analyst.Sound declarations) (htrusts : regime.Trusts declarations analyst)
    (hknown : knowledge.Sound declarations)
    (hstands : regime.Stands arguments knowledge.graph frame) {target : DefId}
    (htarget : (declarations.definition? target).isSome = true) {types : List TypeId}
    (htypes : ∀ type ∈ types, knowledge.graph.Has type) :
    regime.Runs arguments (liftM (analyst target types) : Body SummaryId) noPoints frame knowledge
      fun _ _ _ => True := by
  refine ⟨nofun, ?_⟩
  have hsound := hanalyst target types knowledge hknown htypes
  have hends := htrusts htarget hknown htypes hstands.world
  cases hresult : (liftM (analyst target types) : Body SummaryId) frame knowledge with
  | ok result final =>
    obtain ⟨hgrows, rfl, hfinal, -⟩ := (Discipline.Ends.lift hsound).of_eq_ok hresult
    obtain ⟨-, -, hworld⟩ := (Discipline.Ends.lift hends).of_eq_ok hresult
    exact ⟨hgrows.graph, hstands.mono hlawful hgrows.graph hfinal.graph hworld,
      fun _ object hobject => ⟨object, hobject, rfl⟩, trivial⟩
  | error failure final =>
    have hlifted : regime.knowing.Ends knowledge
        ((liftM (analyst target types) : Body SummaryId) frame knowledge) fun result later =>
          frame = result.2 ∧ regime.World later.graph := .lift hends
    rw [hresult] at hlifted
    exact hlifted.2

end Steps

section Scopes

variable {regime : Regime} {scope : Scope} {arguments : List TypeId} {graph : TypeGraph}
  {frame : Frame} {span : Span} (hgoverns : regime.Governs scope arguments)

include hgoverns

/-- An argument slot. -/
theorem slotOperand_runs (hstands : regime.Stands arguments graph frame) {slot : Nat}
    (hpositive : 0 < slot) (hslot : slot ≤ scope.definition.arity) :
    regime.Runs arguments (inspect fun graph frame => frame.slotOperand graph slot) noPoints frame
      graph fun operand later grown => regime.Admits arguments grown later operand := by
  have hslot' : slot ≤ arguments.length := hgoverns.arity ▸ hslot
  refine (Runs.quiet hstands (Scope.slotOperand_keeps hstands.sound slot)
    (.inspect hstands (hgoverns.lawful.slotOperand hstands hpositive hslot'))).mono ?_
  intro operand later grown _ hpost
  obtain ⟨hrooted, rfl, rfl, hfits⟩ := hpost
  exact ⟨hrooted, hfits⟩

theorem this_runs (hstands : regime.Stands arguments graph frame) :
    regime.Runs arguments (scope.this span) noPoints frame graph fun operand later grown =>
      regime.Admits arguments grown later operand := by
  unfold Scope.this
  split
  · rename_i hmethod
    refine slotOperand_runs hgoverns hstands Nat.one_pos ?_
    simp [Definition.arity, Definition.receiverSlots, hmethod]
  · exact .reject hgoverns.lawful hstands.world

theorem name_runs (hstands : regime.Stands arguments graph frame) (name : String) :
    regime.Runs arguments (scope.name span name) noPoints frame graph fun operand later grown =>
      regime.Admits arguments grown later operand := by
  unfold Scope.name
  refine (Runs.look hstands rfl rfl : regime.Runs arguments (getThe Frame : Framed Frame) noPoints
    frame graph fun value _ _ => value = frame).before ?_
  intro held changed later hrun _ hstands' _ hheld
  cases hrun
  cases hlocal : frame.locals.get? name with
  | some operand =>
    exact resolve_runs hgoverns.lawful hstands
      ⟨hstands.sound.locals name operand hlocal, hgoverns.lawful.heldLocal hstands hlocal⟩
  | none =>
    cases hslot : scope.definition.slotOf? name with
    | some slot =>
      obtain ⟨hbehind, hwithin⟩ := scope.definition.slotOf?_bounds hslot
      exact slotOperand_runs hgoverns hstands (Nat.zero_lt_of_lt hbehind) hwithin
    | none => exact .reject hgoverns.lawful hstands.world

theorem dispatch_runs (hstands : regime.Stands arguments graph frame) {receiver : Operand}
    (hreceiver : regime.Admits arguments graph frame receiver) (method : String) :
    regime.Runs arguments (scope.dispatch span receiver method) noPoints frame graph
      fun target _ _ => (scope.declarations.definition? target).isSome = true := by
  have hobeys : regime.Obeys arguments graph (inspect (fun graph frame =>
      frame.classOf? scope.declarations graph span receiver) frame graph) fun _ _ _ => True :=
    Discipline.Ends.mono (Obeys.inspect hstands (hgoverns.lawful.classOf? span hstands hreceiver))
      fun result grown _ hpost => ⟨hpost.1, hpost.2.1, trivial⟩
  have hkeeps : Frame.Keeps graph arguments (inspect (fun graph frame =>
      frame.classOf? scope.declarations graph span receiver) frame graph) fun _ _ => True :=
    Discipline.Ends.mono
      (Discipline.Ends.inspect _ hstands.sound.wellFormed (hstands.sound.classOf? receiver))
      fun result grown _ hpost => ⟨hpost.2.1 ▸ hpost.1 ▸ hstands.sound, trivial⟩
  unfold Scope.dispatch
  refine (Runs.quiet hstands hkeeps hobeys).before ?_
  intro className? changed later _ _ hstands' _ _
  cases className? with
  | none => exact .reject hgoverns.lawful hstands'.world
  | some className =>
    dsimp only
    cases hmethod : scope.declarations.method? className method with
    | some target =>
      obtain ⟨definition, hdefinition, -⟩ := hgoverns.owned.of_method? hmethod
      exact .pure hstands' (by rw [hdefinition]; rfl)
    | none => exact .reject hgoverns.lawful hstands'.world

theorem resolveCall_runs (hstands : regime.Stands arguments graph frame) (name : String) :
    regime.Runs arguments (scope.resolveCall span name) noPoints frame graph
      fun result later grown => (∀ operand ∈ result.1, regime.Admits arguments grown later operand) ∧
        (scope.declarations.definition? result.2).isSome = true := by
  unfold Scope.resolveCall
  cases hmethod : scope.definition.owner?.bind fun owner =>
      scope.declarations.method? owner name with
  | some target =>
    obtain ⟨owner, -, hfound⟩ := Option.bind_eq_some_iff.mp hmethod
    obtain ⟨definition, hdefinition, -⟩ := hgoverns.owned.of_method? hfound
    refine (this_runs hgoverns hstands).before ?_
    intro receiver changed later _ _ hstands' _ hreceiver
    exact .pure hstands' ⟨List.forall_mem_singleton.mpr hreceiver, by rw [hdefinition]; rfl⟩
  | none =>
    cases hfunction : scope.declarations.function? name with
    | some target =>
      obtain ⟨definition, hdefinition, -⟩ := hgoverns.owned.functions name target hfunction
      exact .pure hstands ⟨nofun, by rw [hdefinition]; rfl⟩
    | none => exact .reject hgoverns.lawful hstands.world

theorem allocated_stands (hstands : regime.Stands arguments graph frame) {className : String}
    (hclass : (scope.declarations.class? className).isSome = true) :
    regime.Stands arguments graph (frame.allocate { className }).2 :=
  hstands.changed (.allocate frame rfl) (hstands.sound.allocate (.empty className))
    (hgoverns.lawful.allocate hstands hclass)

theorem allocate_runs (hstands : regime.Stands arguments graph frame) (className : String) :
    regime.Runs arguments (scope.allocate span className) noPoints frame graph
      fun result later grown => regime.Admits arguments grown later (.fresh result.1) ∧
        ∀ target, result.2 = some target →
          (scope.declarations.definition? target).isSome = true := by
  unfold Scope.allocate
  cases hclass : scope.declarations.class? className with
  | none => exact .reject hgoverns.lawful hstands.world
  | some info =>
    have hsome : (scope.declarations.class? className).isSome = true := by
      rw [hclass]
      rfl
    have hallocated := allocated_stands hgoverns hstands hsome
    refine .change hstands rfl (.allocate frame rfl) hallocated.sound hallocated.frames
      ⟨hallocated.admits_object hgoverns.lawful Array.getElem?_push_size, fun target htarget => ?_⟩
    obtain ⟨definition, hdefinition, -⟩ :=
      hgoverns.owned.methods className info setUpName target hclass htarget
    rw [hdefinition]
    rfl

/-- The next element of an array has been evaluated. -/
theorem addElement_runs (hstands : regime.Stands arguments graph frame) {array : AllocId}
    {object : Allocation} (harray : frame.allocations[array.index]? = some object)
    (hclass : object.className = Declarations.arrayName) (expected? : Option TypeId)
    {value : Operand} (hvalue : regime.Admits arguments graph frame value) :
    regime.Runs arguments (scope.addElement span array expected? value) noPoints frame graph
      fun _ _ _ => True := by
  unfold Scope.addElement
  refine (currentType_runs hgoverns.lawful hstands hvalue).before ?_
  intro type changed later hrun hgrows hstands' hkeeps _
  cases expected? with
  | none =>
    obtain ⟨after, hafter, hsame⟩ := hkeeps array.index object harray
    have hvalue' := hvalue.kept hgoverns.lawful hstands hgrows hkeeps
    have hobeys : regime.Obeys arguments later
        (reading (fun _ => Frame.setPart array .element value) changed later) fun _ _ _ => True :=
      .reading hstands' ((hgoverns.lawful.setElement hstands' hafter (hsame.trans hclass)
        hvalue').mono fun _ hframes => ⟨hframes, trivial⟩)
    refine (Runs.quiet hstands' (Frame.setPart_keeps hstands'.sound array .element
      hvalue'.rooted) hobeys).before ?_
    intro _ last final _ _ hstands'' _ _
    exact .pure hstands'' trivial
  | some expected =>
    refine (Runs.look hstands' rfl trivial : regime.Runs arguments (getThe TypeGraph :
      Framed TypeGraph) noPoints changed later fun _ _ _ => True).before ?_
    intro held same final hrun _ hstands'' _ _
    cases hrun
    split
    · exact .pure hstands'' trivial
    · exact .reject hgoverns.lawful hstands''.world

end Scopes

/-! ## Calls -/

section Bodies

variable {regime : Regime} {scope : Scope} {arguments : List TypeId} {frame : Frame}
  {knowledge : Knowledge} (hgoverns : regime.Governs scope arguments)

include hgoverns

/-- What a summary says is repeated, and the call is recorded. -/
theorem repeated_runs (hstands : regime.Stands arguments knowledge.graph frame) {summary : Summary}
    (hwell : summary.WellFormed knowledge.graph) {operands : List Operand}
    (hoperands : ∀ operand ∈ operands, regime.Admits arguments knowledge.graph frame operand)
    (span : Span) (method : String) (target : DefId) (id : SummaryId) :
    regime.Runs arguments ((do
        let result? ← (match summary.result with
          | .type type => reading fun graph => Frame.expand? graph type
          | .path _ => pure none : Framed (Option AllocId))
        let binding : Binding := ⟨scope.declarations, span, method, operands, result?⟩
        let operand ← binding.replay summary
        let value ← Frame.express scope.declarations span operand
        modifyThe Frame (Frame.recordCall
          ⟨method, target, summary.signature, id, value, span⟩)
        pure operand) : Body Operand)
      (pointsAfter ((match summary.result with
          | .type type => reading fun graph => Frame.expand? graph type
          | .path _ => pure none : Framed (Option AllocId)) : Body (Option AllocId))
        fun result? frame knowledge =>
          Binding.replayPoints ⟨scope.declarations, span, method, operands, result?⟩ summary frame
            knowledge.graph)
      frame knowledge fun operand later grown => regime.Admits arguments grown later operand := by
  have hlawful := hgoverns.lawful
  refine Runs.bind (.framed (expandResult_runs hlawful hstands hwell)) ?_
  intro result? expanded last _ hgrows₁ hstands₁ hkeeps₁ hresult
  have hbinds : regime.Binds arguments (Typed.graph last) expanded
      ⟨scope.declarations, span, method, operands, result?⟩ :=
    ⟨fun operand hmem => (hoperands operand hmem).kept hlawful hstands hgrows₁ hkeeps₁, hresult.1⟩
  refine Runs.before (.framed (replay_runs hlawful hbinds hstands₁ (hwell.mono hgrows₁)
    hresult.2)) ?_
  intro operand replayed told _ hgrows₂ hstands₂ _ hoperand
  refine Runs.before (.framed (express_runs hlawful hstands₂ hoperand)) ?_
  intro value expressed final _ hgrows₃ hstands₃ hkeeps₃ hvalue
  have harguments : ∀ type ∈ summary.signature.arguments, TypeGraph.Has (Typed.graph final) type :=
    fun type hmem => ((hgrows₁.trans hgrows₂).trans hgrows₃).has (hwell.has_arguments type hmem)
  refine Runs.before (.change hstands₃ rfl (.recordCall expressed _)
    (hstands₃.sound.recordCall hvalue) (hlawful.recordCall hstands₃ harguments) trivial :
      regime.Runs arguments (modifyThe Frame (Frame.recordCall ⟨method, target, summary.signature,
        id, value, span⟩) : Body PUnit) noPoints expressed final fun _ _ _ => True) ?_
  intro _ recorded done _ hgrows₄ hstands₄ hkeeps₄ _
  exact .pure hstands₄ (hoperand.kept hlawful hstands₂ (hgrows₃.trans hgrows₄)
    (hkeeps₃.trans hkeeps₄))

theorem call_runs (hknown : knowledge.Sound scope.declarations)
    (hstands : regime.Stands arguments knowledge.graph frame) (span : Span) (method : String)
    {target : DefId} (htarget : (scope.declarations.definition? target).isSome = true)
    {operands : List Operand}
    (hoperands : ∀ operand ∈ operands, regime.Admits arguments knowledge.graph frame operand) :
    regime.Runs arguments (scope.call span method target operands)
      (scope.callPoints span method target operands) frame knowledge
      fun operand later grown => regime.Admits arguments grown later operand := by
  have hlawful := hgoverns.lawful
  have hrooted : ∀ (operand : Operand) (earlier later : Knowledge),
      earlier.Learns scope.declarations later → operand.RootedIn earlier.graph arguments →
        operand.RootedIn later.graph arguments :=
    fun operand earlier later hgrows hoperand => hoperand.mono hgrows.graph
  unfold Scope.call ShapeFlow.call Scope.callPoints
  -- The operands are found where they stand by now.
  refine Runs.bind (Runs.mapM operands hstands
    (fun operand first before second after hstands hgrows hkeeps hadmits =>
      hadmits.kept hlawful hstands hgrows hkeeps)
    fun operand hmem changed later hgrows hstands' hquiet => .framed (resolve_runs hlawful hstands'
      ((hoperands operand hmem).kept hlawful hstands hgrows hquiet.objects))) ?_
  intro resolved changed later hrun _ hstands₁ _ hresolved
  obtain ⟨-, hlater, -⟩ := (Body.Keeps.mapM operands _ hknown hstands.sound
    hrooted fun operand hmem frame known hgrows hknown hframe => .framed hknown
      (Frame.resolve_keeps hframe (hrooted operand _ _ hgrows (hoperands operand hmem).rooted))
    ).of_eq_ok hrun
  refine Runs.from_point ?_ ⟨hstands₁, hresolved, nofun⟩
  have htypes : regime.Runs arguments (resolved.mapM fun operand =>
      (Frame.currentType scope.declarations span operand : Framed TypeId) : Body (List TypeId))
      noPoints changed later fun types _ grown => ∀ type ∈ types, grown.Has type :=
    .mapM resolved hstands₁ (fun type _ before _ after _ hgrows _ hhas => hgrows.has hhas)
      fun operand hmem changed later hgrows hstands' hquiet => .framed (currentType_runs hlawful
        hstands' ((hresolved operand hmem).kept hlawful hstands₁ hgrows hquiet.objects))
  refine Runs.bind htypes ?_
  intro types typed known hrun hgrows₂ hstands₂ hkeeps₂ htypes
  obtain ⟨-, hknown₂, -⟩ := (Body.Keeps.mapM resolved
    (fun type known => known.graph.Has type) hlater hstands₁.sound
    (fun type earlier later hgrows hhas => hgrows.graph.has hhas)
    fun operand hmem frame known hgrows hknown hframe => .framed hknown
      (Frame.currentType_keeps hframe (hrooted operand _ _ hgrows (hresolved operand
        hmem).rooted))).of_eq_ok hrun
  refine Runs.bind (Runs.ask hlawful hgoverns.analyst hgoverns.trusts hknown₂ hstands₂ htarget
    htypes) ?_
  intro id asked final hrun hgrows₃ hstands₃ hkeeps₃ _
  obtain ⟨-, -, hfinal, hanswers⟩ :=
    (Discipline.Ends.lift (hgoverns.analyst target types known hknown₂ htypes)).of_eq_ok hrun
  obtain ⟨summary, hsummary, hwell, -⟩ := hfinal.exists_answered hanswers
  refine Runs.bind (Runs.look hstands₃ rfl rfl : regime.Runs arguments
    (getThe Knowledge : Body Knowledge) noPoints asked final fun value _ _ => value = final) ?_
  intro held same last hrun _ _ _ _
  cases hrun
  have hread : (liftM (final.summary id) : Body Summary) asked final =
      .ok (summary, asked) final := by
    rw [show final.summary id = .ok summary from (found_eq_ok_iff _ _ _).mpr hsummary]
    rfl
  refine Runs.bind (Runs.look hstands₃ hread rfl : regime.Runs arguments
    (liftM (final.summary id) : Body Summary) noPoints asked final
      fun value _ _ => value = summary) ?_
  intro held same last hrun _ _ _ _
  rw [hread] at hrun
  cases hrun
  exact repeated_runs hgoverns hstands₃ hwell (fun operand hmem => (hresolved operand hmem).kept
    hlawful hstands₁ (hgrows₂.trans hgrows₃) (hkeeps₂.trans hkeeps₃)) span method target id

section Passed

variable {exprs : List Expr}
  (hpassed : regime.Runs arguments (scope.evaluateAll exprs) (scope.pointsAll exprs) frame knowledge
    fun operands later grown => ∀ operand ∈ operands, regime.Admits arguments grown later operand)
  (hknown : knowledge.Sound scope.declarations)
  (hstands : regime.Stands arguments knowledge.graph frame)

include hpassed hknown hstands

/-- The arguments are evaluated, and then the definition is called for them behind others. -/
theorem passed_runs {operands : List Operand}
    (hoperands : ∀ operand ∈ operands, regime.Admits arguments knowledge.graph frame operand)
    (span : Span) (method : String) {target : DefId}
    (htarget : (scope.declarations.definition? target).isSome = true) :
    regime.Runs arguments (scope.evaluateAll exprs >>= fun rest =>
        scope.call span method target (operands ++ rest))
      (pointsThen (scope.evaluateAll exprs) (scope.pointsAll exprs) fun rest =>
        scope.callPoints span method target (operands ++ rest))
      frame knowledge fun operand later grown => regime.Admits arguments grown later operand := by
  refine .bind hpassed ?_
  intro rest changed later hrun hgrows hstands' hkeeps hrest
  obtain ⟨-, hlater, -⟩ := (Scope.evaluateAll_keeps hgoverns.analyst exprs frame knowledge hknown
    hstands.sound).of_eq_ok hrun
  exact call_runs hgoverns hlater hstands' span method htarget (List.forall_mem_append.mpr
    ⟨fun operand hmem => (hoperands operand hmem).kept hgoverns.lawful hstands hgrows hkeeps, hrest⟩)

/-- A new object is set up. -/
theorem setUp_runs {id : AllocId}
    (hid : regime.Admits arguments knowledge.graph frame (.fresh id)) (span : Span) {setUp : DefId}
    (hsetUp : (scope.declarations.definition? setUp).isSome = true) :
    regime.Runs arguments (do
        let rest ← scope.evaluateAll exprs
        let _ ← scope.call span setUpName setUp (.fresh id :: rest)
        (inspect fun _ frame => frame.resolve (.fresh id) : Framed Operand))
      (pointsThen (scope.evaluateAll exprs) (scope.pointsAll exprs) fun rest =>
        scope.callPoints span setUpName setUp (.fresh id :: rest))
      frame knowledge fun operand later grown => regime.Admits arguments grown later operand := by
  refine .bind hpassed ?_
  intro rest changed later hrun hgrows hstands' hkeeps hrest
  obtain ⟨-, hlater, -⟩ := (Scope.evaluateAll_keeps hgoverns.analyst exprs frame knowledge hknown
    hstands.sound).of_eq_ok hrun
  have hid' := hid.kept hgoverns.lawful hstands hgrows hkeeps
  refine .before (call_runs hgoverns hlater hstands' span setUpName hsetUp
    (List.forall_mem_cons.mpr ⟨hid', hrest⟩)) ?_
  intro _ called final _ hgrows' hstands'' hkeeps' _
  exact .framed (resolve_runs hgoverns.lawful hstands''
    (hid'.kept hgoverns.lawful hstands' hgrows' hkeeps'))

end Passed

/-! ## Expressions -/

omit hgoverns in
/-- An expression that has been evaluated yields its operand. -/
theorem Runs.yields {expr : Expr} {own : Frame → Knowledge → List Point}
    (hruns : regime.Runs arguments (scope.evaluate expr) own frame knowledge
      fun operand later grown => regime.Admits arguments grown later operand) :
    regime.Runs arguments (scope.evaluate expr) (scope.pointsTo expr own) frame knowledge
      fun operand later grown => regime.Admits arguments grown later operand := by
  refine ⟨fun point hmem => ?_, hruns.ends⟩
  have hends := hruns.ends
  unfold Scope.pointsTo pointsThen at hmem
  rcases List.mem_append.mp hmem with hmem | hmem
  · exact hruns.points point hmem
  · cases hresult : scope.evaluate expr frame knowledge with
    | error failure final =>
      rw [hresult] at hmem
      exact nomatch hmem
    | ok result final =>
      rw [hresult] at hmem hends
      obtain rfl := List.mem_singleton.mp hmem
      exact ⟨hends.2.1, List.forall_mem_singleton.mpr hends.2.2.2, nofun⟩

mutual

theorem evaluate_runs (expr : Expr) {frame : Frame} {knowledge : Knowledge}
    (hknown : knowledge.Sound scope.declarations)
    (hstands : regime.Stands arguments knowledge.graph frame) :
    regime.Runs arguments (scope.evaluate expr) (scope.points expr) frame knowledge
      fun operand later grown => regime.Admits arguments grown later operand := by
  have hlawful := hgoverns.lawful
  have hanalyst := hgoverns.analyst
  unfold Scope.points
  cases expr with
  | integer span value =>
    refine .yields ?_
    rw [Scope.evaluate]
    exact .pure hstands ⟨hknown.graph.has_scalar, hlawful.scalar hstands hknown.graph.scalar⟩
  | name span name =>
    refine .yields ?_
    rw [Scope.evaluate]
    exact .framed (name_runs hgoverns hstands name)
  | this span =>
    refine .yields ?_
    rw [Scope.evaluate]
    exact .framed (this_runs hgoverns hstands)
  | ownField span name =>
    refine .yields ?_
    rw [Scope.evaluate]
    refine .bind (.framed (this_runs hgoverns hstands)) ?_
    intro object changed later _ _ hstands' _ hobject
    exact .from_point (.framed (read_runs hlawful hstands' hobject (.field name)))
      ⟨hstands', List.forall_mem_singleton.mpr hobject, nofun⟩
  | read span object selector =>
    refine .yields ?_
    rw [Scope.evaluate]
    refine .bind (evaluate_runs object hknown hstands) ?_
    intro base changed later _ _ hstands' _ hbase
    exact .from_point (.framed (read_runs hlawful hstands' hbase selector))
      ⟨hstands', List.forall_mem_singleton.mpr hbase, nofun⟩
  | create span className exprs =>
    refine .yields ?_
    rw [Scope.evaluate]
    refine .bind (.framed (allocate_runs hgoverns hstands className)) ?_
    intro result changed later hrun _ hstands' _ hresult
    obtain ⟨-, hlater, -⟩ := (Body.Keeps.framed hknown
      (Scope.allocate_keeps hstands.sound className)).of_eq_ok hrun
    obtain ⟨id, setUp?⟩ := result
    obtain ⟨hid, htarget⟩ := hresult
    cases setUp? with
    | none =>
      dsimp only
      split
      · exact .framed (resolve_runs hlawful hstands' hid)
      · have hrejects : regime.Runs arguments (reject (.arityMismatch (className ++ "#" ++ setUpName)
            1 (exprs.length + 1)) : Body Unit) noPoints changed later fun _ _ _ => False :=
          .reject hlawful hstands'.world
        exact hrejects.before fun _ _ _ _ _ _ _ hfalse => hfalse.elim
    | some setUp =>
      exact setUp_runs hgoverns (evaluateAll_runs exprs hlater hstands') hlater hstands' hid span
        (htarget setUp rfl)
  | allocate span className =>
    refine .yields ?_
    rw [Scope.evaluate]
    refine .before (.framed (allocate_runs hgoverns hstands className)) ?_
    intro result changed later _ _ hstands' _ hresult
    exact .pure hstands' hresult.1
  | array span elements =>
    refine .yields ?_
    rw [Scope.evaluate]
    have hallocated := allocated_stands hgoverns hstands hgoverns.arrays
    have hnew : (frame.allocate { className := Declarations.arrayName }).2.allocations[
        frame.allocations.size]? = some { className := Declarations.arrayName } :=
      Array.getElem?_push_size
    refine .bind (.change hstands rfl (.allocate frame rfl) hallocated.sound hallocated.frames
      trivial : regime.Runs arguments (modifyGetThe Frame (Frame.allocate
        { className := Declarations.arrayName }) : Body AllocId) noPoints frame knowledge
          fun _ _ _ => True) ?_
    intro id changed later hrun _ _ _ _
    cases hrun
    refine .before (evaluateElements_runs ⟨frame.allocations.size⟩ none elements hnew rfl hknown
      hallocated) ?_
    intro _ last final _ hgrows hstands'' hkeeps _
    exact .pure hstands''
      ((hallocated.admits_object hlawful hnew).kept hlawful hallocated hgrows hkeeps)
  | bind span name value =>
    refine .yields ?_
    rw [Scope.evaluate]
    refine .before (evaluate_runs value hknown hstands) ?_
    intro operand changed later _ _ hstands' _ hoperand
    have hset : regime.Runs arguments (modifyThe Frame (Frame.setLocal name operand) : Body PUnit)
        noPoints changed later fun _ after grown => regime.Admits arguments grown after operand :=
      have hquiet := Frame.Quiet.setLocal changed name operand
      .change hstands' rfl hquiet (hstands'.sound.setLocal name hoperand.rooted)
        (hlawful.setLocal name hstands' hoperand)
        (hoperand.kept hlawful hstands' (.refl _) hquiet.objects)
    refine hset.before ?_
    intro _ last final _ _ hstands'' _ hoperand'
    exact .pure hstands'' hoperand'
  | write span object selector value =>
    refine .yields ?_
    rw [Scope.evaluate]
    refine .bind (evaluate_runs object hknown hstands) ?_
    intro base changed later hrun _ hstands' _ hbase
    obtain ⟨-, hlater, -⟩ :=
      (Scope.evaluate_keeps hanalyst object frame knowledge hknown hstands.sound).of_eq_ok hrun
    refine .bind (evaluate_runs value hlater hstands') ?_
    intro operand last final _ hgrows hstands'' hkeeps hoperand
    refine (Runs.framed (write_runs hlawful hstands'' (hbase.kept hlawful hstands' hgrows hkeeps)
      selector (hoperand.takes hlawful hstands''))).mono ?_
    intro result written grown _ hpost
    exact ⟨hpost.1, hpost.2 hoperand.fits⟩
  | send span object method exprs =>
    refine .yields ?_
    rw [Scope.evaluate]
    refine .bind (evaluate_runs object hknown hstands) ?_
    intro receiver changed later hrun _ hstands₁ _ hreceiver
    obtain ⟨-, hlater, -⟩ :=
      (Scope.evaluate_keeps hanalyst object frame knowledge hknown hstands.sound).of_eq_ok hrun
    refine .bind (.framed (dispatch_runs hgoverns hstands₁ hreceiver method)) ?_
    intro target changed' later' hrun hgrows₁ hstands₂ hkeeps₁ htarget
    obtain ⟨-, hlater', -⟩ := (Body.Keeps.framed hlater
      (Scope.dispatch_keeps hstands₁.sound receiver method)).of_eq_ok hrun
    exact passed_runs hgoverns (evaluateAll_runs exprs hlater' hstands₂) hlater' hstands₂
      (List.forall_mem_singleton.mpr (hreceiver.kept hlawful hstands₁ hgrows₁ hkeeps₁)) span method
      htarget
  | apply span name exprs =>
    refine .yields ?_
    rw [Scope.evaluate]
    refine .bind (.framed (resolveCall_runs hgoverns hstands name)) ?_
    intro result changed later hrun _ hstands₁ _ hresult
    obtain ⟨-, hlater, -⟩ := (Body.Keeps.framed hknown
      (Scope.resolveCall_keeps hstands.sound name)).of_eq_ok hrun
    obtain ⟨receiver, target⟩ := result
    obtain ⟨hreceiver, htarget⟩ := hresult
    exact passed_runs hgoverns (evaluateAll_runs exprs hlater hstands₁) hlater hstands₁ hreceiver
      span name htarget

theorem evaluateAll_runs (exprs : List Expr) {frame : Frame} {knowledge : Knowledge}
    (hknown : knowledge.Sound scope.declarations)
    (hstands : regime.Stands arguments knowledge.graph frame) :
    regime.Runs arguments (scope.evaluateAll exprs) (scope.pointsAll exprs) frame knowledge
      fun operands later grown => ∀ operand ∈ operands,
        regime.Admits arguments grown later operand := by
  cases exprs with
  | nil =>
    rw [Scope.evaluateAll, Scope.pointsAll]
    exact .pure hstands nofun
  | cons expr rest =>
    rw [Scope.evaluateAll, Scope.pointsAll]
    refine .bind (evaluate_runs expr hknown hstands) ?_
    intro operand changed later hrun _ hstands' _ hoperand
    obtain ⟨-, hlater, -⟩ := (Scope.evaluate_keeps hgoverns.analyst expr frame knowledge hknown
      hstands.sound).of_eq_ok hrun
    refine .before (evaluateAll_runs rest hlater hstands') ?_
    intro operands last final _ hgrows hstands'' hkeeps hoperands
    exact .pure hstands'' (List.forall_mem_cons.mpr
      ⟨hoperand.kept hgoverns.lawful hstands' hgrows hkeeps, hoperands⟩)

theorem evaluateElements_runs (array : AllocId) (expected? : Option TypeId) (exprs : List Expr)
    {frame : Frame} {knowledge : Knowledge} {object : Allocation}
    (harray : frame.allocations[array.index]? = some object)
    (hclass : object.className = Declarations.arrayName)
    (hknown : knowledge.Sound scope.declarations)
    (hstands : regime.Stands arguments knowledge.graph frame) :
    regime.Runs arguments (scope.evaluateElements array expected? exprs)
      (scope.pointsElements array expected? exprs) frame knowledge fun _ _ _ => True := by
  cases exprs with
  | nil =>
    rw [Scope.evaluateElements, Scope.pointsElements]
    exact .pure hstands trivial
  | cons expr rest =>
    rw [Scope.evaluateElements, Scope.pointsElements]
    refine .bind (evaluate_runs expr hknown hstands) ?_
    intro operand changed later hrun _ hstands₁ hkeeps₁ hoperand
    obtain ⟨-, hlater, -⟩ := (Scope.evaluate_keeps hgoverns.analyst expr frame knowledge hknown
      hstands.sound).of_eq_ok hrun
    obtain ⟨object₁, harray₁, hclass₁⟩ := hkeeps₁ array.index object harray
    refine .bind (.framed (addElement_runs hgoverns hstands₁ harray₁ (hclass₁.trans hclass)
      expected? hoperand)) ?_
    intro expected last final hrun _ hstands₂ hkeeps₂ _
    obtain ⟨-, hfinal, -⟩ := (Body.Keeps.framed hlater (Scope.addElement_keeps hstands₁.sound array
      expected? hoperand.rooted)).of_eq_ok hrun
    obtain ⟨object₂, harray₂, hclass₂⟩ := hkeeps₂ array.index object₁ harray₁
    exact evaluateElements_runs array (some expected) rest harray₂
      ((hclass₂.trans hclass₁).trans hclass) hfinal hstands₂

end

/-- The regime holds at all points of a body, and behind it. -/
theorem evaluateBody_runs (body : List Expr) (hknown : knowledge.Sound scope.declarations)
    (hstands : regime.Stands arguments knowledge.graph frame) :
    regime.Runs arguments (scope.evaluateBody body) (scope.bodyPoints body) frame knowledge
      fun operand later grown => regime.Admits arguments grown later operand := by
  have hgeneral : ∀ operand, regime.Admits arguments knowledge.graph frame operand →
      regime.Runs arguments (body.foldlM (fun _ expr => scope.evaluate expr) operand)
        (scope.pointsAll body) frame knowledge
        fun operand later grown => regime.Admits arguments grown later operand := by
    induction body generalizing frame knowledge with
    | nil =>
      intro operand hoperand
      rw [Scope.pointsAll]
      exact .pure hstands hoperand
    | cons expr rest ih =>
      intro _ _
      rw [Scope.pointsAll, List.foldlM_cons]
      refine .bind (evaluate_runs hgoverns expr hknown hstands) ?_
      intro operand changed later hrun _ hstands' _ hoperand
      obtain ⟨-, hlater, -⟩ := (Scope.evaluate_keeps hgoverns.analyst expr frame knowledge hknown
        hstands.sound).of_eq_ok hrun
      exact ih hlater hstands' operand hoperand
  have hstart : regime.Admits arguments knowledge.graph frame (.type TypeGraph.scalar) :=
    ⟨hknown.graph.has_scalar, hgoverns.lawful.scalar hstands hknown.graph.scalar⟩
  exact (hgeneral _ hstart).from_point ⟨hstands, nofun, nofun⟩

end Bodies

end Regime

end ShapeFlow
