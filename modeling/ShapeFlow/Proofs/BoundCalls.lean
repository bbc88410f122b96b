import ShapeFlow.Proofs.AccessorBodies

/-!
# Calls whose arguments have types

If all its operands have types, a call gets to its question without fail: the operands are resolved,
their types are built one after the other, and neither step touches the frame (`Frame.Prepares`).
What is left is up to whoever answers.  If there is no summary, then the call fails as its question
does; and if there is one whose value is found at a place or is primitive, then the summary is
repeated, its value is told and the call is recorded (`Frame.Complete.call_eq`,
`Binding.conclude`).

Telling a value does not fail either, as long as the value is known
(`Binding.conclude_of_replay`).
-/

namespace ShapeFlow

variable {declarations : Declarations} {span : Span} {frame later : Frame}
  {graph grown : TypeGraph} {operand told : Operand} {operands bound : List Operand}
  {knowledge learned : Knowledge} {id : SummaryId} {summary : Summary}

/-! ## Running a step of a body -/

section Running

variable {α : Type} {step : Framed α} {value : α} {failure : Failure}

theorem framed_of_ok (hstep : step frame knowledge.graph = .ok (value, later) grown) :
    (liftM step : Body α) frame knowledge =
      .ok (value, later) { knowledge with graph := grown } := by
  simp only [liftM, monadLift, MonadLift.monadLift, Building.within, hstep]

theorem framed_of_error (hstep : step frame knowledge.graph = .error failure grown) :
    (liftM step : Body α) frame knowledge = .error failure { knowledge with graph := grown } := by
  simp only [liftM, monadLift, MonadLift.monadLift, Building.within, hstep]

theorem ask_of_ok {question : Knowing α} (hanswer : question knowledge = .ok value learned) :
    (liftM question : Body α) frame knowledge = .ok (value, frame) learned := by
  simp only [liftM, monadLift, MonadLift.monadLift, StateT.lift, bind, EStateM.bind, hanswer]
  rfl

theorem ask_of_error {question : Knowing α}
    (hanswer : question knowledge = .error failure learned) :
    (liftM question : Body α) frame knowledge = .error failure learned := by
  simp only [liftM, monadLift, MonadLift.monadLift, StateT.lift, bind, EStateM.bind, hanswer]

end Running

/-! ## Arguments -/

namespace Frame

/-- What the operand names is there, and the operand has a type. -/
structure Concrete (frame : Frame) (graph : TypeGraph) (operand : Operand) : Prop where
  names : frame.Names graph operand
  typed : ∃ declarations span type grown,
    frame.typeOf declarations span operand graph = .ok type grown

/-- The operand stands for itself, and it is known. -/
structure Bound (frame : Frame) (graph : TypeGraph) (operand : Operand) : Prop where
  settled : frame.Settled operand
  names : frame.Names graph operand
  known : frame.Known graph operand

/-- What a known operand names is there. -/
theorem Known.names_fresh {id : AllocId} (hknown : frame.Known graph (.fresh id)) :
    frame.Names graph (.fresh id) := by
  cases hobject : frame.allocations[id.index]? with
  | some object => exact Frame.names_fresh hobject
  | none => simpa [Stands, foundType?, localObject?, hobject] using hknown.stands

namespace Concrete

variable (hcomplete : frame.Complete graph) (hconcrete : frame.Concrete graph operand)

include hcomplete hconcrete

theorem known : frame.Known graph operand := by
  obtain ⟨_, _, _, _, hrun⟩ := hconcrete.typed
  exact known_of_typeOf hcomplete.wellFormed hcomplete.hasTypes hrun

theorem exists_bound : ∃ told, frame.resolve operand = .ok told ∧ frame.Bound graph told := by
  obtain ⟨told, hresolve, hsettled, hnames, hknown, -⟩ :=
    (hconcrete.known hcomplete).exists_resolved hconcrete.names
  exact ⟨told, hresolve, hsettled, hnames, hknown⟩

end Concrete

theorem Bound.grow (hbound : frame.Bound graph operand) (hgrows : graph.Grows grown)
    (hcomplete : frame.Complete graph) : frame.Bound grown operand :=
  ⟨hbound.settled, hbound.names.mono hgrows (Nat.le_refl _),
    hbound.known.mono hgrows hcomplete.wellFormed.closed hcomplete.hasTypes⟩

/-- Some chain of selectors that starts at a known operand ends: the empty one. -/
theorem Known.exists_end (hknown : frame.Known graph operand) (hnames : frame.Names graph operand)
    (hcomplete : frame.Complete graph) : ∃ class?, frame.endOf? graph operand [] = some class? := by
  obtain ⟨type, grown, -, -, -, -, hends⟩ := hcomplete.exists_typeOf {} {} hnames hknown
  exact ⟨grown.className? type, (hends []).symm⟩

namespace Bound

variable (hbound : frame.Bound graph operand)

include hbound

/-- The class of an object is found at the end of the empty chain. -/
theorem end_of_isOf {className : String} (hisOf : frame.IsOf graph className operand) :
    frame.endOf? graph operand [] = some (some className) := by
  cases operand with
  | type type =>
    rw [endOf?_type, TypeGraph.endAt?_nil]
    exact congrArg some hisOf
  | path place =>
    obtain ⟨type, htype, hclass⟩ := Option.bind_eq_some_iff.mp hisOf
    rw [endOf?_path, htype, Option.bind_some, TypeGraph.endAt?_nil, hclass]
  | fresh id =>
    obtain ⟨object, hobject, rfl⟩ := hisOf
    obtain ⟨held, hheld, hhome⟩ := settled_fresh_iff.mp hbound.settled
    obtain rfl := Option.some.inj (hobject.symm.trans hheld)
    exact endOf?_nil_of_local (localObject?_fresh_iff.mpr ⟨hobject, hhome⟩)

/-- The chain that names a part ends if there is such a part. -/
theorem exists_end_of_hasPart (hcomplete : frame.Complete graph) {selector : Selector}
    (hhas : frame.HasPart graph selector operand) :
    ∃ class?, frame.endOf? graph operand [selector] = some class? := by
  cases operand with
  | type type =>
    obtain ⟨part, hpart⟩ := hhas
    exact ⟨_, by rw [endOf?_type, TypeGraph.endAt?_cons, hpart]; rfl⟩
  | path place =>
    obtain ⟨type, part, htype, hpart⟩ := hhas
    exact ⟨_, by rw [endOf?_path, htype, Option.bind_some, TypeGraph.endAt?_cons, hpart]; rfl⟩
  | fresh id =>
    obtain ⟨object, held, hobject, hheld⟩ := hhas
    obtain ⟨same, hsame, hhome⟩ := settled_fresh_iff.mp hbound.settled
    obtain rfl := Option.some.inj (hobject.symm.trans hsame)
    have hlocal := localObject?_fresh_iff.mpr ⟨hobject, hhome⟩
    rw [endOf?_cons_of_local hlocal, hheld, Option.bind_some]
    exact (hbound.known.part hlocal hheld).exists_end (hcomplete.names_part hlocal hheld) hcomplete

/-- The place of an object starts from an argument. -/
theorem rooted {arguments : List TypeId} (hsound : frame.Sound graph arguments)
    {className : String} (hisOf : frame.IsOf graph className operand) :
    operand.RootedIn graph arguments := by
  cases operand with
  | type type => exact TypeGraph.has_of_className? hisOf
  | fresh id => trivial
  | path place =>
    obtain ⟨type, htype, hclass⟩ := Option.bind_eq_some_iff.mp hisOf
    obtain ⟨root, selectors⟩ := place
    cases root with
    | zero => exact nomatch htype
    | succ slot =>
      obtain ⟨held, hheld, hfollow⟩ := Option.bind_eq_some_iff.mp htype
      have hobject : ∃ owner, graph.className? held = some owner := by
        cases selectors with
        | nil =>
          obtain rfl := Option.some.inj hfollow
          exact ⟨className, hclass⟩
        | cons selector rest =>
          rw [TypeGraph.follow?_cons] at hfollow
          obtain ⟨part, hpart, -⟩ := Option.bind_eq_some_iff.mp hfollow
          exact TypeGraph.exists_className?_of_field? hpart
      obtain ⟨owner, howner⟩ := hobject
      rw [(hsound.slots slot held hheld).2] at howner
      obtain ⟨argument, hargument, howner⟩ := Option.bind_eq_some_iff.mp howner
      exact ⟨slot, argument, owner, rfl, hargument, howner⟩

end Bound

/-- Operands that have types are resolved without further ado. -/
theorem Complete.resolves (hcomplete : frame.Complete knowledge.graph)
    (hoperands : ∀ operand ∈ operands, frame.Concrete knowledge.graph operand) :
    ∃ bound, (operands.mapM fun operand =>
        (inspect fun _ frame => frame.resolve operand : Framed Operand) : Body (List Operand))
          frame knowledge = .ok (bound, frame) knowledge ∧
      List.Forall₂ (fun operand told => frame.resolve operand = .ok told ∧
        frame.Bound knowledge.graph told) operands bound := by
  induction operands with
  | nil => exact ⟨[], rfl, .nil⟩
  | cons operand rest ih =>
    obtain ⟨hfirst, hrest⟩ := List.forall_mem_cons.mp hoperands
    obtain ⟨told, hresolve, hbound⟩ := hfirst.exists_bound hcomplete
    obtain ⟨others, hothers, hall⟩ := ih hrest
    refine ⟨told :: others, ?_, .cons ⟨hresolve, hbound⟩ hall⟩
    rw [List.mapM_cons, run_bind_of_ok (framed_of_ok (inspect_of_ok hresolve)),
      run_bind_of_ok hothers]
    rfl

/-- Operands that are bound get types, one after the other. -/
theorem Complete.types (hcomplete : frame.Complete knowledge.graph)
    (hbound : ∀ operand ∈ bound, frame.Bound knowledge.graph operand) (declarations : Declarations)
    (span : Span) :
    ∃ types grown, (bound.mapM fun operand =>
        (currentType declarations span operand : Framed TypeId) : Body (List TypeId))
          frame knowledge = .ok (types, frame) { knowledge with graph := grown } ∧
      knowledge.graph.Grows grown ∧ grown.WellFormed ∧
        List.Forall₂ (frame.TypedAs grown) bound types := by
  induction bound generalizing knowledge with
  | nil => exact ⟨[], knowledge.graph, rfl, .refl _, hcomplete.wellFormed, .nil⟩
  | cons operand rest ih =>
    obtain ⟨hfirst, hrest⟩ := List.forall_mem_cons.mp hbound
    obtain ⟨type, built, htype, hbuilt, hwell, -⟩ :=
      hcomplete.exists_typeOf declarations span hfirst.names hfirst.known
    have hstep : currentType declarations span operand frame knowledge.graph =
        .ok (type, frame) built := by
      unfold currentType
      rw [getFrame_bind_eq]
      exact lift_of_ok htype
    let known : Knowledge := { knowledge with graph := built }
    have hcomplete' : frame.Complete known.graph := hcomplete.mono hbuilt hwell
    obtain ⟨types, grown, htypes, hgrows, hgrown, hall⟩ := ih hcomplete'
      fun operand hmem => (hrest operand hmem).grow hbuilt hcomplete
    refine ⟨type :: types, grown, ?_, hbuilt.trans hgrows, hgrown,
      .cons (hcomplete.typedAs hfirst.names htype hgrows hgrown).2 hall⟩
    rw [List.mapM_cons, run_bind_of_ok (framed_of_ok hstep)]
    rw [run_bind_of_ok htypes]
    rfl

end Frame

/-! ## Calls -/

/-- Repeat a summary, read off the value of the call, and record the call. -/
def Binding.conclude (binding : Binding) (target : DefId) (id : SummaryId) (summary : Summary) :
    Framed Operand := do
  let operand ← binding.replay summary
  let value ← Frame.express binding.declarations binding.span operand
  modifyThe Frame (Frame.recordCall
    { method := binding.method, target, signature := summary.signature, summary := id, value,
      span := binding.span })
  pure operand

/-- No object has to be made of the value: it is found at a place, or it is primitive. -/
def Value.Found (graph : TypeGraph) (value : Value) : Prop :=
  ∀ type, value = .type type → graph.node? type = some .scalar

/-- The arguments of a call are bound, and their types have been built. -/
structure Frame.Prepares (frame : Frame) (graph : TypeGraph) (operands bound : List Operand)
    (types : List TypeId) (grown : TypeGraph) : Prop where
  resolves : List.Forall₂ (fun operand told => frame.resolve operand = .ok told ∧
    frame.Bound graph told) operands bound
  grows : graph.Grows grown
  wellFormed : grown.WellFormed
  typed : List.Forall₂ (frame.TypedAs grown) bound types

theorem Frame.Prepares.has_types {types : List TypeId}
    (hprepares : frame.Prepares graph operands bound types grown) :
    ∀ type ∈ types, grown.Has type := by
  intro type hmem
  obtain ⟨_, -, htyped⟩ := exists_mem_of_forall₂ hprepares.typed hmem
  exact htyped.has

theorem Frame.Prepares.length_eq {types : List TypeId}
    (hprepares : frame.Prepares graph operands bound types grown) :
    operands.length = types.length :=
  hprepares.resolves.length_eq.trans hprepares.typed.length_eq

/-- Only an object is expanded to tell the result of a call. -/
theorem expandResult_of_found {result : Value} : result.Found graph →
    (match result with
      | .type type => reading fun graph => Frame.expand? graph type
      | .path _ => pure none : Framed (Option AllocId)) frame graph = .ok (none, frame) graph := by
  intro hfound
  cases result with
  | path place => rfl
  | type type =>
    have hnone : Frame.expand? graph type frame = .ok (none, frame) := by
      unfold Frame.expand? TypeGraph.node
      rw [hfound type rfl]
      rfl
    exact reading_of_ok hnone

/-- With arguments that have types, a call asks for a summary, fails if there is none, and
otherwise repeats it. -/
theorem Frame.Complete.call_eq (hcomplete : frame.Complete knowledge.graph)
    (hoperands : ∀ operand ∈ operands, frame.Concrete knowledge.graph operand)
    (declarations : Declarations) (span : Span) (method : String) (target : DefId) :
    ∃ bound types grown, frame.Prepares knowledge.graph operands bound types grown ∧
      ∀ analyst : Analyst, match analyst target types { knowledge with graph := grown } with
        | .error failure later =>
          call analyst declarations span method target operands frame knowledge =
            .error failure later
        | .ok id later => ∀ summary, later.summaries[id.index]? = some summary →
          summary.result.Found later.graph →
            call analyst declarations span method target operands frame knowledge =
              (liftM (Binding.conclude ⟨declarations, span, method, bound, none⟩ target id
                summary) : Body Operand) frame later := by
  obtain ⟨bound, hresolves, hbound⟩ := hcomplete.resolves hoperands
  obtain ⟨types, grown, htypes, hgrows, hwell, htyped⟩ := hcomplete.types
    (fun operand hmem => by
      obtain ⟨_, -, -, hoperand⟩ := exists_mem_of_forall₂ hbound hmem
      exact hoperand) declarations span
  refine ⟨bound, types, grown, ⟨hbound, hgrows, hwell, htyped⟩, fun analyst => ?_⟩
  cases hanswer : analyst target types { knowledge with graph := grown } with
  | error failure later =>
    unfold call
    rw [run_bind_of_ok hresolves, run_bind_of_ok htypes, run_bind_of_error (ask_of_error hanswer)]
  | ok id later =>
    intro summary hsummary hfound
    unfold call
    have hknown : (getThe Knowledge : Body Knowledge) frame later = .ok (later, frame) later := rfl
    have hheld : (liftM (later.summary id) : Body Summary) frame later =
        .ok (summary, frame) later := by
      rw [show later.summary id = .ok summary from (found_eq_ok_iff _ _ _).mpr hsummary]
      rfl
    rw [run_bind_of_ok hresolves, run_bind_of_ok htypes, run_bind_of_ok (ask_of_ok hanswer),
      run_bind_of_ok hknown, run_bind_of_ok hheld]
    refine (run_bind_of_ok (framed_of_ok (expandResult_of_found hfound))).trans ?_
    unfold Binding.conclude
    simp only [liftM_framed_bind]
    rfl

/-- What has a home is told by it, and what has none by a type that is built for it. -/
theorem Frame.express_of_resolve {told : Operand} (declarations : Declarations) (span : Span) :
    frame.resolve operand = .ok told → Frame.express declarations span operand frame graph =
      (match told with
        | .type type => pure (.type type)
        | .path place => pure (.path place)
        | .fresh id => do pure (.type (← (← getThe Frame).reify declarations span id)) :
          Framed Value) frame graph := by
  intro hresolve
  unfold Frame.express
  exact run_bind_of_ok (inspect_of_ok hresolve)

/-- A known operand is told to the callers. -/
theorem Frame.Known.express (hknown : frame.Known graph operand) (hwell : graph.WellFormed)
    (htypes : frame.HasTypes graph) (declarations : Declarations) (span : Span) :
    ∃ value grown, Frame.express declarations span operand frame graph = .ok (value, frame) grown ∧
      graph.Grows grown ∧ grown.WellFormed := by
  cases operand with
  | type type =>
    have hresolve : frame.resolve (.type type) = .ok (.type type) := rfl
    exact ⟨_, graph, Frame.express_of_resolve _ _ hresolve, .refl graph, hwell⟩
  | path place =>
    have hresolve : frame.resolve (.path place) = .ok (.path place) := rfl
    exact ⟨_, graph, Frame.express_of_resolve _ _ hresolve, .refl graph, hwell⟩
  | fresh id =>
    obtain ⟨object, hobject⟩ := hknown.names_fresh.exists_object
    cases hhome : object.home? with
    | some home =>
      have hresolve : frame.resolve (.fresh id) = .ok (.path home) :=
        Frame.resolve_fresh_eq_ok_iff.mpr ⟨object, hobject, by rw [hhome]; rfl⟩
      exact ⟨_, graph, Frame.express_of_resolve _ _ hresolve, .refl graph, hwell⟩
    | none =>
      have hsettled : frame.resolve (.fresh id) = .ok (.fresh id) :=
        Frame.settled_fresh_iff.mpr ⟨object, hobject, hhome⟩
      obtain ⟨type, grown, hreify, hgrows, hgrown, -⟩ :=
        Frame.exists_reify declarations span hwell htypes hknown
      refine ⟨.type type, grown, (Frame.express_of_resolve _ _ hsettled).trans ?_, hgrows, hgrown⟩
      dsimp only
      rw [getFrame_bind_eq, run_bind_of_ok (lift_of_ok hreify)]
      rfl

/-- Once the summary has been repeated, the call is recorded. -/
theorem Binding.conclude_of_replay {binding : Binding} (target : DefId) (id : SummaryId)
    (hreplay : binding.replay summary frame graph = .ok (operand, later) grown)
    (hknown : later.Known grown operand) (hwell : grown.WellFormed)
    (htypes : later.HasTypes grown) :
    ∃ record final, record.target = target ∧ grown.Grows final ∧ final.WellFormed ∧
      binding.conclude target id summary frame graph =
        .ok (operand, later.recordCall record) final := by
  obtain ⟨value, final, hexpress, hgrows, hfinal⟩ :=
    hknown.express hwell htypes binding.declarations binding.span
  refine ⟨⟨binding.method, target, summary.signature, id, value, binding.span⟩, final, rfl, hgrows,
    hfinal, ?_⟩
  unfold conclude
  rw [run_bind_of_ok hreplay, run_bind_of_ok hexpress]
  rfl

theorem Binding.conclude_of_error {binding : Binding} {target : DefId} {failure : Failure}
    (hreplay : binding.replay summary frame graph = .error failure grown) :
    binding.conclude target id summary frame graph = .error failure grown := by
  unfold conclude
  exact run_bind_of_error hreplay

end ShapeFlow
