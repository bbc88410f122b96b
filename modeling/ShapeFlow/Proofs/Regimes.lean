import ShapeFlow.Proofs.BodyPoints
import ShapeFlow.Proofs.HousedObjects
import ShapeFlow.Proofs.Receivers

/-!
# What holds at every point of a body

A `Regime` says what is to hold of the types, of the frame and of the operands that are at hand
while a body is evaluated, and which failures are excused.  It is *lawful* if the few steps of
which all rules of evaluation are made observe it: to find what a slot or a local stands for, to
read or write one part, to take the type of an operand, to allocate, and to tell an operand to the
callers (`Regime.Lawful`).

A lawful regime holds at every point of every body (`Regime.evaluateBody_runs`).  The points of a
call are those of what it repeats, and the analysis of the callee is only trusted to keep the
types (`Regime.Trusts`).  `Regime.Stands` adds to the regime what holds of frames at all points
anyway: they are sound, and objects stand at their homes.
-/

namespace ShapeFlow

variable {declarations : Declarations}

/-- What is to hold at the points of a body under given argument types: of the types, of the
frame, of an operand that is at hand and of one that is written. -/
structure Regime where
  World : TypeGraph → Prop
  Frames : List TypeId → TypeGraph → Frame → Prop
  Fits : List TypeId → TypeGraph → Frame → Operand → Prop
  Suits : List TypeId → TypeGraph → Frame → Operand → Prop
  Excused : Failure → Prop

namespace Regime

variable {α β : Type} (regime : Regime)

/-- The frame is sound and housed, and observes the regime. -/
structure Stands (arguments : List TypeId) (graph : TypeGraph) (frame : Frame) : Prop where
  sound : frame.Sound graph arguments
  housed : frame.Housed graph
  world : regime.World graph
  frames : regime.Frames arguments graph frame

/-- The operand makes sense in the frame, and may be at hand. -/
structure Admits (arguments : List TypeId) (graph : TypeGraph) (frame : Frame)
    (operand : Operand) : Prop where
  rooted : operand.RootedIn graph arguments
  fits : regime.Fits arguments graph frame operand

/-- The operand makes sense in the frame, and may be written. -/
structure Takes (arguments : List TypeId) (graph : TypeGraph) (frame : Frame)
    (operand : Operand) : Prop where
  rooted : operand.RootedIn graph arguments
  suits : regime.Suits arguments graph frame operand

/-- The regime holds at the point. -/
structure Meets (arguments : List TypeId) (point : Point) : Prop where
  stands : regime.Stands arguments point.graph point.frame
  operands : ∀ operand ∈ point.act.operands,
    regime.Admits arguments point.graph point.frame operand
  value : ∀ value, point.act.value? = some value →
    regime.Takes arguments point.graph point.frame value

/-- The world is kept, also by a step that fails, and failures are excused. -/
def calm : Discipline TypeGraph where
  Grows _ _ := True
  Calm := regime.World
  Excused := regime.Excused
  refl _ := trivial
  trans _ _ := trivial

/-- The outcome of a step on types and frame observes the regime. -/
abbrev Obeys (arguments : List TypeId) (graph : TypeGraph)
    (outcome : EStateM.Result Failure TypeGraph (α × Frame))
    (post : α → Frame → TypeGraph → Prop) : Prop :=
  regime.calm.Ends graph outcome fun result grown =>
    regime.World grown ∧ regime.Frames arguments grown result.2 ∧ post result.1 result.2 grown

/-- The steps of which bodies are made observe the regime. -/
structure Lawful (declarations : Declarations) : Prop where
  rejected : ∀ diagnostic, regime.Excused (.rejected diagnostic)
  start : ∀ {arguments graph}, graph.WellFormed → (∀ type ∈ arguments, graph.Has type) →
    regime.World graph → regime.Frames arguments graph { slots := arguments }
  grown : ∀ {arguments graph grown frame}, regime.Stands arguments graph frame →
    graph.Grows grown → regime.World grown → regime.Frames arguments grown frame
  fits_kept : ∀ {arguments graph grown frame later operand},
    regime.Stands arguments graph frame → graph.Grows grown → frame.KeepsObjects later →
      regime.Admits arguments graph frame operand → regime.Fits arguments grown later operand
  suits_kept : ∀ {arguments graph grown frame later operand},
    regime.Stands arguments graph frame → graph.Grows grown → frame.KeepsObjects later →
      regime.Takes arguments graph frame operand → regime.Suits arguments grown later operand
  suits : ∀ {arguments graph frame operand}, regime.Stands arguments graph frame →
    regime.Admits arguments graph frame operand → regime.Suits arguments graph frame operand
  typed : ∀ {arguments graph frame type}, regime.Stands arguments graph frame →
    graph.Has type → regime.Suits arguments graph frame (.type type)
  scalar : ∀ {arguments graph frame type}, regime.Stands arguments graph frame →
    graph.node? type = some .scalar → regime.Fits arguments graph frame (.type type)
  object : ∀ {arguments graph frame id object}, regime.Stands arguments graph frame →
    frame.allocations[id.index]? = some object → regime.Fits arguments graph frame (.fresh id)
  heldLocal : ∀ {arguments graph frame name operand}, regime.Stands arguments graph frame →
    frame.locals.get? name = some operand → regime.Fits arguments graph frame operand
  slotOperand : ∀ {arguments graph frame slot}, regime.Stands arguments graph frame →
    0 < slot → slot ≤ arguments.length →
      Checked.Safe regime.Excused (frame.slotOperand graph slot)
        (regime.Fits arguments graph frame)
  resolve : ∀ {arguments graph frame operand}, regime.Stands arguments graph frame →
    regime.Admits arguments graph frame operand →
      Checked.Safe regime.Excused (frame.resolve operand) (regime.Fits arguments graph frame)
  classOf? : ∀ {arguments graph frame operand} span, regime.Stands arguments graph frame →
    regime.Admits arguments graph frame operand →
      Checked.Safe regime.Excused (frame.classOf? declarations graph span operand) fun _ => True
  read : ∀ {arguments graph frame base} span selector, regime.Stands arguments graph frame →
    regime.Admits arguments graph frame base →
      Checked.Safe regime.Excused (Frame.read declarations span graph base selector frame)
        fun result => regime.Frames arguments graph result.2 ∧
          regime.Fits arguments graph result.2 result.1
  expand? : ∀ {arguments graph frame type}, regime.Stands arguments graph frame →
    graph.Has type → Checked.Safe regime.Excused (Frame.expand? graph type frame)
      fun result => regime.Frames arguments graph result.2 ∧
        ∀ id, result.1 = some id → regime.Fits arguments graph result.2 (.fresh id)
  setLocal : ∀ {arguments graph frame operand} name, regime.Stands arguments graph frame →
    regime.Admits arguments graph frame operand →
      regime.Frames arguments graph (frame.setLocal name operand)
  allocate : ∀ {arguments graph frame className}, regime.Stands arguments graph frame →
    (declarations.class? className).isSome = true →
      regime.Frames arguments graph (frame.allocate { className }).2
  setElement : ∀ {arguments graph frame array object operand},
    regime.Stands arguments graph frame → frame.allocations[array.index]? = some object →
      object.className = Declarations.arrayName → regime.Admits arguments graph frame operand →
        Checked.Safe regime.Excused (Frame.setPart array .element operand frame)
          fun result => regime.Frames arguments graph result.2
  recordCall : ∀ {arguments graph frame call}, regime.Stands arguments graph frame →
    (∀ type ∈ call.signature.arguments, graph.Has type) →
      regime.Frames arguments graph (frame.recordCall call)
  currentType : ∀ {arguments graph frame operand} span, regime.Stands arguments graph frame →
    regime.Admits arguments graph frame operand → regime.Obeys arguments graph
      (Frame.currentType declarations span operand frame graph) fun _ _ _ => True
  express : ∀ {arguments graph frame operand} span, regime.Stands arguments graph frame →
    regime.Admits arguments graph frame operand → regime.Obeys arguments graph
      (Frame.express declarations span operand frame graph) fun _ _ _ => True
  expressResult : ∀ {arguments graph frame operand} span, regime.Stands arguments graph frame →
    regime.Admits arguments graph frame operand →
      regime.calm.Ends graph (Frame.expressResult declarations span operand frame graph)
        fun _ grown => regime.World grown
  write : ∀ {arguments graph frame base value} span selector,
    regime.Stands arguments graph frame → regime.Admits arguments graph frame base →
      regime.Takes arguments graph frame value → regime.Obeys arguments graph
        (Frame.write declarations span base selector value frame graph) fun operand later grown =>
          regime.Fits arguments graph frame value → regime.Fits arguments grown later operand

variable {regime} {arguments : List TypeId} {graph grown : TypeGraph} {frame later : Frame}
  {operand : Operand}

theorem Stands.mono (hlawful : regime.Lawful declarations)
    (hstands : regime.Stands arguments graph frame) (hgrows : graph.Grows grown)
    (hwell : grown.WellFormed) (hworld : regime.World grown) :
    regime.Stands arguments grown frame where
  sound := hstands.sound.mono hgrows hwell
  housed := hstands.housed.mono hstands.sound.grounded hgrows
  world := hworld
  frames := hlawful.grown hstands hgrows hworld

theorem Admits.kept (hlawful : regime.Lawful declarations)
    (hadmits : regime.Admits arguments graph frame operand)
    (hstands : regime.Stands arguments graph frame) (hgrows : graph.Grows grown)
    (hkeeps : frame.KeepsObjects later) : regime.Admits arguments grown later operand :=
  ⟨hadmits.rooted.mono hgrows, hlawful.fits_kept hstands hgrows hkeeps hadmits⟩

theorem Takes.kept (hlawful : regime.Lawful declarations)
    (htakes : regime.Takes arguments graph frame operand)
    (hstands : regime.Stands arguments graph frame) (hgrows : graph.Grows grown)
    (hkeeps : frame.KeepsObjects later) : regime.Takes arguments grown later operand :=
  ⟨htakes.rooted.mono hgrows, hlawful.suits_kept hstands hgrows hkeeps htakes⟩

theorem Admits.takes (hlawful : regime.Lawful declarations)
    (hstands : regime.Stands arguments graph frame)
    (hadmits : regime.Admits arguments graph frame operand) :
    regime.Takes arguments graph frame operand :=
  ⟨hadmits.rooted, hlawful.suits hstands hadmits⟩

theorem Stands.admits_object (hlawful : regime.Lawful declarations)
    (hstands : regime.Stands arguments graph frame) {id : AllocId} {object : Allocation}
    (hobject : frame.allocations[id.index]? = some object) :
    regime.Admits arguments graph frame (.fresh id) :=
  ⟨trivial, hlawful.object hstands hobject⟩

/-! ## Steps -/

section Steps

variable {τ : Type} [Typed τ]

/-- A step that succeeds leads to a frame in which the regime holds and answers as told, and one
that fails keeps the world and is excused. -/
def Leads (regime : Regime) (arguments : List TypeId) (frame : Frame) (state : τ)
    (post : α → Frame → TypeGraph → Prop) : EStateM.Result Failure τ (α × Frame) → Prop
  | .ok (value, later) final => (Typed.graph state).Grows (Typed.graph final) ∧
      regime.Stands arguments (Typed.graph final) later ∧ frame.KeepsObjects later ∧
        post value later (Typed.graph final)
  | .error failure final => regime.World (Typed.graph final) ∧ regime.Excused failure

/-- The regime holds at the points of the step and behind it. -/
structure Runs (regime : Regime) (arguments : List TypeId)
    (step : StateT Frame (EStateM Failure τ) α) (own : Frame → τ → List Point) (frame : Frame)
    (state : τ) (post : α → Frame → TypeGraph → Prop) : Prop where
  points : ∀ point ∈ own frame state, regime.Meets arguments point
  ends : regime.Leads arguments frame state post (step frame state)

namespace Runs

variable {step : StateT Frame (EStateM Failure τ) α}
  {next : α → StateT Frame (EStateM Failure τ) β} {own : Frame → τ → List Point}
  {rest : α → Frame → τ → List Point} {state : τ} {post weaker : α → Frame → TypeGraph → Prop}
  {post' : β → Frame → TypeGraph → Prop}

theorem mono (hruns : regime.Runs arguments step own frame state post)
    (hpost : ∀ value later grown, regime.Stands arguments grown later → post value later grown →
      weaker value later grown) :
    regime.Runs arguments step own frame state weaker := by
  refine ⟨hruns.points, ?_⟩
  have hends := hruns.ends
  cases hresult : step frame state with
  | ok result final =>
    rw [hresult] at hends
    exact ⟨hends.1, hends.2.1, hends.2.2.1, hpost _ _ _ hends.2.1 hends.2.2.2⟩
  | error failure final =>
    rw [hresult] at hends
    exact hends

theorem pure {value : α} (hstands : regime.Stands arguments (Typed.graph state) frame)
    (hpost : post value frame (Typed.graph state)) :
    regime.Runs arguments (Pure.pure value : StateT Frame (EStateM Failure τ) α) noPoints frame
      state post :=
  ⟨nofun, .refl _, hstands, fun _ object hobject => ⟨object, hobject, rfl⟩, hpost⟩

theorem reject {cause : Cause} (hlawful : regime.Lawful declarations)
    (hworld : regime.World (Typed.graph state)) :
    regime.Runs arguments (ShapeFlow.reject cause : StateT Frame (EStateM Failure τ) α) noPoints
      frame state post :=
  ⟨nofun, hworld, hlawful.rejected _⟩

/-- Sequencing. -/
theorem bind (hstep : regime.Runs arguments step own frame state post)
    (hnext : ∀ value changed later, step frame state = .ok (value, changed) later →
      (Typed.graph state).Grows (Typed.graph later) →
      regime.Stands arguments (Typed.graph later) changed → frame.KeepsObjects changed →
      post value changed (Typed.graph later) →
        regime.Runs arguments (next value) (rest value) changed later post') :
    regime.Runs arguments (step >>= next) (pointsThen step own rest) frame state post' := by
  have hends := hstep.ends
  have hunfold : (step >>= next) frame state = match step frame state with
      | .ok result later => next result.1 result.2 later
      | .error failure later => .error failure later := by
    simp only [Bind.bind, StateT.bind, EStateM.bind]
    cases step frame state <;> rfl
  cases hresult : step frame state with
  | error failure final =>
    rw [hresult] at hends
    refine ⟨fun point hmem => hstep.points point ?_, ?_⟩
    · simpa [pointsThen, hresult] using hmem
    · rw [hunfold, hresult]
      exact hends
  | ok result middle =>
    obtain ⟨value, changed⟩ := result
    rw [hresult] at hends
    obtain ⟨hgrows, hstands, hkeeps, hpost⟩ := hends
    obtain ⟨hpoints, hends⟩ := hnext value changed middle hresult hgrows hstands hkeeps hpost
    refine ⟨fun point hmem => ?_, ?_⟩
    · simp only [pointsThen, hresult] at hmem
      exact (List.mem_append.mp hmem).elim (hstep.points point) (hpoints point)
    · rw [hunfold, hresult]
      dsimp only
      cases hlast : next value changed middle with
      | error failure final =>
        rw [hlast] at hends
        exact hends
      | ok result final =>
        rw [hlast] at hends
        exact ⟨hgrows.trans hends.1, hends.2.1, hkeeps.trans hends.2.2.1, hends.2.2.2⟩

/-- Sequencing, where the points are those of the first step. -/
theorem before (hstep : regime.Runs arguments step own frame state post)
    (hnext : ∀ value changed later, step frame state = .ok (value, changed) later →
      (Typed.graph state).Grows (Typed.graph later) →
      regime.Stands arguments (Typed.graph later) changed → frame.KeepsObjects changed →
      post value changed (Typed.graph later) →
        regime.Runs arguments (next value) noPoints changed later post') :
    regime.Runs arguments (step >>= next) own frame state post' :=
  ⟨hstep.points, (hstep.bind hnext).ends⟩

/-- The step is about to do something. -/
theorem from_point {act : Act} (hruns : regime.Runs arguments step own frame state post)
    (hmeets : regime.Meets arguments ⟨frame, Typed.graph state, act⟩) :
    regime.Runs arguments step (pointsFrom act own) frame state post :=
  ⟨List.forall_mem_cons.mpr ⟨hmeets, hruns.points⟩, hruns.ends⟩

theorem get_bind {next : Frame → StateT Frame (EStateM Failure τ) β} {own : Frame → τ → List Point}
    (hnext : regime.Runs arguments (next frame) own frame state post') :
    regime.Runs arguments (getThe Frame >>= next) own frame state post' :=
  ⟨hnext.points, hnext.ends⟩

/-- Quiet steps of one kind, one for each item of a list. -/
theorem mapM {ι : Type} {body : ι → StateT Frame (EStateM Failure τ) α} (items : List ι)
    [hquiet : ∀ item, RunsQuietly (body item)]
    (hstands : regime.Stands arguments (Typed.graph state) frame)
    (hkept : ∀ value first before second after, regime.Stands arguments before first →
      before.Grows after → first.KeepsObjects second → post value first before →
        post value second after)
    (hbody : ∀ item ∈ items, ∀ changed later,
      (Typed.graph state).Grows (Typed.graph later) →
      regime.Stands arguments (Typed.graph later) changed → frame.Quiet changed →
        regime.Runs arguments (body item) noPoints changed later post) :
    regime.Runs arguments (items.mapM body) noPoints frame state
      fun values later grown => ∀ value ∈ values, post value later grown := by
  induction items generalizing frame state with
  | nil => exact .pure hstands nofun
  | cons item rest ih =>
    rw [List.mapM_cons]
    refine (hbody item List.mem_cons_self frame state (.refl _) hstands (.refl frame)).before ?_
    intro value changed later hrun hgrows hstands' hkeeps hvalue
    have hchanged : frame.Quiet changed := (hquiet item).run hrun
    refine (ih hstands' fun other hmem last final hgrows' hstands'' hquiet' =>
      hbody other (List.mem_cons_of_mem item hmem) last final (hgrows.trans hgrows') hstands''
        (hchanged.trans hquiet')).before ?_
    intro values last final _ hgrows' hstands'' hkeeps' hvalues
    exact .pure hstands'' (List.forall_mem_cons.mpr
      ⟨hkept _ _ _ _ _ hstands' hgrows' hkeeps' hvalue, hvalues⟩)

/-- Quiet steps of one kind that answer nothing. -/
theorem forM {ι : Type} {body : ι → StateT Frame (EStateM Failure τ) PUnit} (items : List ι)
    [hquiet : ∀ item, RunsQuietly (body item)]
    (hstands : regime.Stands arguments (Typed.graph state) frame)
    (hbody : ∀ item ∈ items, ∀ changed later,
      (Typed.graph state).Grows (Typed.graph later) →
      regime.Stands arguments (Typed.graph later) changed → frame.Quiet changed →
        regime.Runs arguments (body item) noPoints changed later fun _ _ _ => True) :
    regime.Runs arguments (items.forM body) noPoints frame state fun _ _ _ => True := by
  induction items generalizing frame state with
  | nil => exact .pure hstands trivial
  | cons item rest ih =>
    refine (hbody item List.mem_cons_self frame state (.refl _) hstands (.refl frame)).before ?_
    intro _ changed later hrun hgrows hstands' _ _
    have hchanged : frame.Quiet changed := (hquiet item).run hrun
    exact ih hstands' fun other hmem last final hgrows' hstands'' hquiet' =>
      hbody other (List.mem_cons_of_mem item hmem) last final (hgrows.trans hgrows') hstands''
        (hchanged.trans hquiet')

end Runs

end Steps

/-! ## Steps on types and frames -/

section Framed

variable {step : Framed α} {post : α → Frame → TypeGraph → Prop}
  {told : α → TypeGraph → Prop}

/-- A quiet step that keeps frames sound and observes the regime. -/
theorem Runs.quiet [hquiet : RunsQuietly step] (hstands : regime.Stands arguments graph frame)
    (hkeeps : Frame.Keeps graph arguments (step frame graph) told)
    (hobeys : regime.Obeys arguments graph (step frame graph) post) :
    regime.Runs arguments step noPoints frame graph fun value later grown =>
      told value grown ∧ post value later grown := by
  refine ⟨nofun, ?_⟩
  cases hresult : step frame graph with
  | error failure final =>
    rw [hresult] at hobeys
    exact hobeys.2
  | ok result final =>
    rw [hresult] at hkeeps hobeys
    have hchanged : frame.Quiet result.2 := hquiet.run hresult
    exact ⟨hkeeps.1, ⟨hkeeps.2.1,
      (hstands.housed.mono hstands.sound.grounded hkeeps.1).quiet hchanged, hobeys.2.1,
      hobeys.2.2.1⟩, hchanged.objects, hkeeps.2.2, hobeys.2.2.2⟩

/-- A question is asked, and nothing changes. -/
theorem Runs.inspect {question : TypeGraph → Frame → Checked α} {answer : α → Prop}
    (hstands : regime.Stands arguments graph frame)
    (hasked : Checked.Safe regime.Excused (question graph frame) answer) :
    regime.Runs arguments (ShapeFlow.inspect question) noPoints frame graph
      fun value later grown => frame = later ∧ graph = grown ∧ answer value := by
  refine ⟨nofun, ?_⟩
  unfold ShapeFlow.inspect
  cases hresult : question graph frame with
  | ok value =>
    rw [hresult] at hasked
    exact ⟨.refl graph, hstands, fun _ object hobject => ⟨object, hobject, rfl⟩, rfl, rfl, hasked⟩
  | error failure =>
    rw [hresult] at hasked
    exact ⟨hstands.world, hasked⟩

/-- A question is asked. -/
theorem Obeys.inspect {question : TypeGraph → Frame → Checked α} {answer : α → Prop}
    (hstands : regime.Stands arguments graph frame)
    (hasked : Checked.Safe regime.Excused (question graph frame) answer) :
    regime.Obeys arguments graph (ShapeFlow.inspect question frame graph) fun value later grown =>
      frame = later ∧ graph = grown ∧ answer value := by
  refine Discipline.Ends.mono (Discipline.Ends.inspect answer hstands.world hasked) ?_
  intro result grown _ hpost
  obtain ⟨value, changed⟩ := result
  obtain ⟨rfl, rfl, hanswer⟩ := hpost
  exact ⟨hstands.world, hstands.frames, rfl, rfl, hanswer⟩

/-- The types are read. -/
theorem Obeys.reading {change : TypeGraph → StateT Frame Checked α}
    (hstands : regime.Stands arguments graph frame)
    (hchange : Checked.Safe regime.Excused (change graph frame) fun result =>
      regime.Frames arguments graph result.2 ∧ post result.1 result.2 graph) :
    regime.Obeys arguments graph (ShapeFlow.reading change frame graph) post := by
  refine Discipline.Ends.mono (Discipline.Ends.reading hstands.world hchange) ?_
  intro result grown _ hpost
  obtain ⟨rfl, hframes, hpost⟩ := hpost
  exact ⟨hstands.world, hframes, hpost⟩

variable (hlawful : regime.Lawful declarations) {span : Span}

include hlawful

theorem resolve_runs (hstands : regime.Stands arguments graph frame)
    (hoperand : regime.Admits arguments graph frame operand) :
    regime.Runs arguments (inspect fun _ frame => frame.resolve operand) noPoints frame graph
      fun resolved later grown => regime.Admits arguments grown later resolved := by
  refine (Runs.quiet hstands (Frame.resolve_keeps hstands.sound hoperand.rooted)
    (.inspect hstands (hlawful.resolve hstands hoperand))).mono ?_
  intro resolved later grown _ hpost
  obtain ⟨hrooted, rfl, rfl, hfits⟩ := hpost
  exact ⟨hrooted, hfits⟩

theorem read_runs (hstands : regime.Stands arguments graph frame) {base : Operand}
    (hbase : regime.Admits arguments graph frame base) (selector : Selector) :
    regime.Runs arguments
      (reading fun graph => Frame.read declarations span graph base selector) noPoints frame graph
      fun operand later grown => regime.Admits arguments grown later operand := by
  have hkeeps : Frame.Keeps graph arguments
      (reading (fun graph => Frame.read declarations span graph base selector) frame graph)
      fun operand grown => operand.RootedIn grown arguments :=
    @Scope.read_keeps ⟨declarations, default, default⟩ _ _ _ span hstands.sound _ hbase.rooted
      selector
  have hobeys : regime.Obeys arguments graph
      (reading (fun graph => Frame.read declarations span graph base selector) frame graph)
      fun operand later grown => regime.Fits arguments grown later operand :=
    .reading hstands (hlawful.read span selector hstands hbase)
  exact (Runs.quiet hstands hkeeps hobeys).mono fun _ _ _ _ hpost => ⟨hpost.1, hpost.2⟩

end Framed

end Regime

end ShapeFlow
