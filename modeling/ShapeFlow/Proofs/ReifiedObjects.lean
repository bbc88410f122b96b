import ShapeFlow.Proofs.CoherentFrames
import ShapeFlow.Proofs.ShapeEquality

/-!
# The type of an allocated object unfolds like the object

A visit of an object that can be looked at succeeds (`Frame.exists_reify`), and so does every
question for the type of an operand of a coherent frame (`Frame.exists_typeOf`).  The type that is
answered has the unfolding of the graph that the allocated objects form: it depends neither on the
types that were there before nor on the order in which the objects are visited
(`Frame.reify_unfolds`).  An object type that is expanded to an allocated object, whose parts are
known by their types, is got back.
-/

namespace ShapeFlow

namespace Frame

variable {frame later : Frame} {graph grown : TypeGraph} {operand : Operand} {id : AllocId}

/-- The type of an object that can be looked at. -/
theorem exists_reify (declarations : Declarations) (span : Span) (hwell : graph.WellFormed)
    (htypes : frame.HasTypes graph) (hnavigable : frame.Navigable graph id) :
    ∃ type grown, frame.reify declarations span id graph = .ok type grown ∧ graph.Grows grown ∧
      grown.WellFormed ∧ frame.Shows grown (.fresh id) type := by
  have hends := reify_shows declarations span hwell htypes id
  cases hrun : frame.reify declarations span id graph with
  | ok type grown =>
    obtain ⟨hgrows, hgrown, hshows⟩ := hends.of_eq_ok hrun
    exact ⟨type, grown, rfl, hgrows, hgrown, hshows⟩
  | error failure grown =>
    rw [hrun] at hends
    exact absurd hnavigable hends.2.2.2

/-- The type of an operand is that of what the operand is told by. -/
theorem typeOf_eq_of_resolve {declarations : Declarations} {span : Span} {resolved : Operand}
    (hresolve : frame.resolve operand = .ok resolved) :
    frame.typeOf declarations span operand graph =
      frame.typeOf declarations span resolved graph := by
  have hresolved : frame.resolve resolved = .ok resolved := resolve_settled hresolve
  unfold typeOf
  rw [hresolve, hresolved]

theorem typeOf_path {declarations : Declarations} {span : Span} {place : AccessPath}
    {type : TypeId} (hplace : frame.placeType? graph place = some type) :
    frame.typeOf declarations span (.path place) graph = .ok type graph := by
  have hok : frame.placeType declarations graph span place = .ok type :=
    placeType_eq_ok_iff.mpr hplace
  change Checked.keep (frame.placeType declarations graph span place) graph = .ok type graph
  rw [hok, Checked.keep_ok]

/-- Something stands behind the operand and behind all that is reached from it. -/
def Known (frame : Frame) (graph : TypeGraph) : Operand → Prop
  | .type _ => True
  | .path place => ∃ type, frame.placeType? graph place = some type
  | .fresh id => frame.Navigable graph id

theorem Founded.known (hfounded : frame.Founded graph) (hrefers : frame.Refers graph operand) :
    frame.Known graph operand := by
  cases operand with
  | type held => trivial
  | path place => exact refers_path_iff.mp hrefers
  | fresh id => exact hfounded.navigable hrefers

theorem Coherent.known (hcoherent : frame.Coherent graph) (hrefers : frame.Refers graph operand) :
    frame.Known graph operand := hcoherent.founded.known hrefers

/-- An object that has a home is known if its home is. -/
theorem known_iff_home {object : Allocation} {home : AccessPath}
    (hobject : frame.allocations[id.index]? = some object) (hhome : object.home? = some home) :
    frame.Known graph (.fresh id) ↔ frame.Known graph (.path home) := by
  have hfound : frame.foundType? graph (.fresh id) = frame.placeType? graph home := by
    simp [foundType?, hobject, hhome]
  have hnone : frame.localObject? (.fresh id) = none := by simp [localObject?, hobject, hhome]
  constructor
  · intro hknown
    rcases hknown.stands with ⟨type, htype⟩ | ⟨held, hheld⟩
    · exact ⟨type, hfound.symm.trans htype⟩
    · exact absurd (hnone.symm.trans hheld) (Option.some_ne_none held).symm
  · rintro ⟨type, htype⟩
    refine ⟨Or.inl ⟨type, hfound.trans htype⟩, fun other held selector operand hleads hheld => ?_⟩
    -- Nothing is reached through an object that has a home.
    have hlocal : ∃ held, frame.localObject? (.fresh id) = some held := by
      rcases hleads.cases_head with rfl | ⟨child, hholds, -⟩
      · exact ⟨held, hheld⟩
      · exact isLocal_iff.mp hholds.1
    obtain ⟨first, hfirst⟩ := hlocal
    exact absurd (hnone.symm.trans hfirst) (Option.some_ne_none first).symm

theorem typeOf_settled {declarations : Declarations} {span : Span}
    (hsettled : frame.Settled (.fresh id)) :
    frame.typeOf declarations span (.fresh id) graph = frame.reify declarations span id graph := by
  unfold typeOf
  rw [hsettled]
  rfl

/-- An operand that is known has a type, with the unfolding of the operand. -/
theorem Known.exists_typeOf (declarations : Declarations) (span : Span) (hwell : graph.WellFormed)
    (htypes : frame.HasTypes graph) (hoperand : ∀ type, operand = .type type → graph.Has type)
    (hknown : frame.Known graph operand) :
    ∃ type grown, frame.typeOf declarations span operand graph = .ok type grown ∧
      graph.Grows grown ∧ grown.WellFormed ∧ grown.Has type ∧
        ∀ chain, grown.endAt? type chain = frame.endOf? graph operand chain := by
  have hplace : ∀ place, frame.Known graph (.path place) →
      ∃ type, frame.typeOf declarations span (.path place) graph = .ok type graph ∧
        graph.Has type ∧
          ∀ chain, graph.endAt? type chain = frame.endOf? graph (.path place) chain := by
    rintro place ⟨type, htype⟩
    have hfound : frame.foundType? graph (.path place) = some type := htype
    exact ⟨type, typeOf_path htype, has_placeType? hwell.closed htypes htype,
      fun chain => (endOf?_of_found hfound chain).symm⟩
  cases operand with
  | type held =>
    exact ⟨held, graph, rfl, .refl graph, hwell, hoperand held rfl, fun chain => by simp⟩
  | path place =>
    obtain ⟨type, hrun, hhas, hends⟩ := hplace place hknown
    exact ⟨type, graph, hrun, .refl graph, hwell, hhas, hends⟩
  | fresh id =>
    obtain ⟨object, hobject⟩ : ∃ object, frame.allocations[id.index]? = some object := by
      cases hobject : frame.allocations[id.index]? with
      | some object => exact ⟨object, rfl⟩
      | none => simpa [Stands, foundType?, localObject?, hobject] using hknown.stands
    cases hhome : object.home? with
    | none =>
      obtain ⟨type, grown, hrun, hgrows, hgrown, hshows⟩ :=
        exists_reify declarations span hwell htypes hknown
      have hsettled := settled_fresh_iff.mpr ⟨object, hobject, hhome⟩
      refine ⟨type, grown, (typeOf_settled hsettled).trans hrun, hgrows, hgrown, hshows.has,
        fun chain => ?_⟩
      rw [hshows.endAt?_eq, endOf?_eq_of_grows hgrows hwell.closed htypes hoperand]
    | some home =>
      have hresolve : frame.resolve (.fresh id) = .ok (.path home) :=
        resolve_fresh_eq_ok_iff.mpr ⟨object, hobject, by rw [hhome]; rfl⟩
      obtain ⟨type, hrun, hhas, hends⟩ := hplace home ((known_iff_home hobject hhome).mp hknown)
      refine ⟨type, graph, (typeOf_eq_of_resolve hresolve).trans hrun, .refl graph, hwell, hhas,
        fun chain => ?_⟩
      rw [hends, sameEnds_home hobject hhome]

/-- An operand that has a type is known. -/
theorem known_of_typeOf {declarations : Declarations} {span : Span} {type : TypeId}
    (hwell : graph.WellFormed) (htypes : frame.HasTypes graph)
    (hrun : frame.typeOf declarations span operand graph = .ok type grown) :
    frame.Known graph operand := by
  have hplace : ∀ place, frame.typeOf declarations span (.path place) graph = .ok type grown →
      frame.Known graph (.path place) := by
    intro place hrun
    change Checked.keep (frame.placeType declarations graph span place) graph = _ at hrun
    cases htype : frame.placeType declarations graph span place with
    | ok found => exact ⟨found, placeType_eq_ok_iff.mp htype⟩
    | error failure =>
      rw [htype] at hrun
      cases hrun
  cases operand with
  | type held => trivial
  | path place => exact hplace place hrun
  | fresh id =>
    cases hobject : frame.allocations[id.index]? with
    | none =>
      have hresolve : frame.resolve (.fresh id) = .error (.broken (.allocation id)) := by
        simp only [resolve, allocation, hobject]
        rfl
      unfold typeOf at hrun
      rw [hresolve] at hrun
      cases hrun
    | some object =>
      cases hhome : object.home? with
      | none =>
        rw [typeOf_settled (settled_fresh_iff.mpr ⟨object, hobject, hhome⟩)] at hrun
        obtain ⟨hgrows, -, hshows⟩ := (reify_shows declarations span hwell htypes id).of_eq_ok hrun
        exact hshows.navigable.of_grows hgrows hwell.closed htypes
      | some home =>
        have hresolve : frame.resolve (.fresh id) = .ok (.path home) :=
          resolve_fresh_eq_ok_iff.mpr ⟨object, hobject, by rw [hhome]; rfl⟩
        rw [typeOf_eq_of_resolve hresolve] at hrun
        exact (known_iff_home hobject hhome).mpr (hplace home hrun)

/-- The type of an operand behind which something stands has the unfolding of the operand. -/
theorem exists_typeOf (declarations : Declarations) (span : Span) (hcoherent : frame.Coherent graph)
    (hrefers : frame.Refers graph operand) :
    ∃ type grown, frame.typeOf declarations span operand graph = .ok type grown ∧
      graph.Grows grown ∧ grown.WellFormed ∧ grown.Has type ∧
        ∀ chain, grown.endAt? type chain = frame.endOf? graph operand chain :=
  (hcoherent.known hrefers).exists_typeOf declarations span hcoherent.wellFormed hcoherent.hasTypes
    fun _ heq => by rwa [heq] at hrefers

/-! ## Objects that are expanded -/

/-- An object type is expanded to an object whose parts are known by their types. -/
theorem expand?_eq {type : TypeId} {className : String} {fields : Fields}
    (hnode : graph.node? type = some (.object className fields)) :
    expand? graph type frame = .ok
      (some (frame.allocate { className, fields := fields.mapValues .type }).1,
        (frame.allocate { className, fields := fields.mapValues .type }).2) := by
  have hok : graph.node type = .ok (.object className fields) := by
    rw [TypeGraph.node, hnode]
    rfl
  unfold expand?
  rw [hok]
  rfl

section Expanded

variable {className : String} {types : Fields}

theorem localObject?_expanded (frame : Frame) (className : String) (types : Fields) :
    (frame.allocate { className, fields := types.mapValues .type }).2.localObject?
      (.fresh (frame.allocate { className, fields := types.mapValues .type }).1) =
        some { className, fields := types.mapValues .type } :=
  localObject?_fresh_iff.mpr ⟨by simp [Frame.allocate], rfl⟩

theorem HasTypes.expanded (htypes : frame.HasTypes graph) (hparts : graph.HasParts types) :
    (frame.allocate { className, fields := types.mapValues .type }).2.HasTypes graph where
  slots := htypes.slots
  parts id object selector type hobject hpart := by
    simp only [Frame.allocate, Array.getElem?_push] at hobject
    split at hobject
    · obtain rfl := Option.some.inj hobject
      rw [OrderedMap.get?_mapValues] at hpart
      obtain ⟨held, hheld, heq⟩ := Option.map_eq_some_iff.mp hpart
      cases heq
      exact hparts selector type hheld
    · exact htypes.parts id object selector type hobject hpart

/-- From an object whose parts are known by their types nothing but types can be reached. -/
theorem navigable_of_types
    (hlocal : frame.localObject? (.fresh id) =
      some { className, fields := types.mapValues .type }) : frame.Navigable graph id := by
  have hparts : ∀ selector operand,
      (types.mapValues Operand.type).get? selector = some operand →
        ∃ type, operand = .type type := by
    intro selector operand hpart
    rw [OrderedMap.get?_mapValues] at hpart
    obtain ⟨held, -, rfl⟩ := Option.map_eq_some_iff.mp hpart
    exact ⟨held, rfl⟩
  refine ⟨Or.inr ⟨_, hlocal⟩, fun other object selector operand hleads hobject hpart => ?_⟩
  rcases hleads.cases_head with rfl | ⟨child, hholds, -⟩
  · obtain rfl := Option.some.inj (hlocal.symm.trans hobject)
    obtain ⟨type, rfl⟩ := hparts selector operand hpart
    exact Or.inl ⟨type, rfl⟩
  · obtain ⟨held, -, key, hheld, hchild, -⟩ := holds_iff.mp hholds
    obtain rfl := Option.some.inj (hlocal.symm.trans hheld)
    obtain ⟨type, heq⟩ := hparts key _ hchild
    cases heq

/-- The new object holds no other one. -/
theorem navigable_expanded (frame : Frame) (graph : TypeGraph) (className : String)
    (types : Fields) :
    (frame.allocate { className, fields := types.mapValues .type }).2.Navigable graph
      (frame.allocate { className, fields := types.mapValues .type }).1 :=
  navigable_of_types (localObject?_expanded frame className types)

/-- An object with the class and the types of an object type looks like the type. -/
theorem endOf?_of_types {type : TypeId}
    (hlocal : frame.localObject? operand = some { className, fields := types.mapValues .type })
    (hnode : graph.node? type = some (.object className types)) (chain : List Selector) :
    frame.endOf? graph operand chain = graph.endAt? type chain := by
  cases chain with
  | nil =>
    rw [endOf?_nil_of_local hlocal, TypeGraph.endAt?_nil,
      TypeGraph.className?_eq_some_iff.mpr ⟨types, hnode⟩]
  | cons selector rest =>
    rw [endOf?_cons_of_local hlocal, TypeGraph.endAt?_cons, TypeGraph.field?_eq_of_node? hnode,
      OrderedMap.get?_mapValues, Option.bind_map]
    exact Option.bind_congr fun part _ => endOf?_type _ graph part rest

/-- The new object looks like the type that was expanded. -/
theorem endOf?_expanded {type : TypeId}
    (hnode : graph.node? type = some (.object className types)) (chain : List Selector) :
    (frame.allocate { className, fields := types.mapValues .type }).2.endOf? graph
      (.fresh (frame.allocate { className, fields := types.mapValues .type }).1) chain =
        graph.endAt? type chain :=
  endOf?_of_types (localObject?_expanded frame className types) hnode chain

end Expanded

/-! ## Types and the graph of objects -/

/-- Types with the unfolding of one operand look the same. -/
theorem sameShape_of_endAt?_eq (hwell : grown.WellFormed) {first second : TypeId}
    (hfirst : grown.Has first) (hsecond : grown.Has second)
    (hends : ∀ chain, grown.endAt? first chain = grown.endAt? second chain) :
    grown.sameShape first second = true :=
  (TypeGraph.sameShape_iff hwell.closed hfirst hsecond).mpr
    ((TypeGraph.sameUnfolding_iff_endAt? hwell.closed hwell.closed hfirst hsecond).mpr hends)

/-- Where every place that is reached from an allocated object leads somewhere, the object has a
type: asking for it changes neither the frame nor the types that were there, and the type unfolds as
the graph of objects does.  Asked for again, at any later time, it looks the same; and an object
type that is expanded to an allocated object has a type that looks like it. -/
theorem reify_unfolds (declarations : Declarations) (span : Span) (hwell : graph.WellFormed)
    (htypes : frame.HasTypes graph) :
    (∀ id, frame.Navigable graph id → ∃ type grown,
      (liftM (frame.reify declarations span id) : Framed TypeId) frame graph =
        .ok (type, frame) grown ∧ graph.Grows grown ∧ grown.WellFormed ∧
      (∀ chain, grown.endAt? type chain = frame.endOf? graph (.fresh id) chain) ∧
      ∀ later, grown.Grows later → later.WellFormed → ∃ again final,
        frame.reify declarations span id later = .ok again final ∧
          final.sameShape type again = true) ∧
    ∀ type className fields, graph.node? type = some (.object className fields) →
      ∃ id expanded again grown, expand? graph type frame = .ok (some id, expanded) ∧
        expanded.reify declarations span id graph = .ok again grown ∧
          grown.sameShape type again = true := by
  refine ⟨fun id hnavigable => ?_, fun type className fields hnode => ?_⟩
  · obtain ⟨type, grown, hrun, hgrows, hgrown, hshows⟩ :=
      exists_reify declarations span hwell htypes hnavigable
    have hends : ∀ chain, grown.endAt? type chain = frame.endOf? graph (.fresh id) chain := by
      intro chain
      rw [hshows.endAt?_eq, endOf?_eq_of_grows hgrows hwell.closed htypes (by simp)]
    refine ⟨type, grown, ?_, hgrows, hgrown, hends, fun later hlater hwell' => ?_⟩
    · simp only [liftM, monadLift, MonadLift.monadLift, StateT.lift, Bind.bind, EStateM.bind, hrun]
      rfl
    have hshows' := hshows.mono hlater hgrown.closed (htypes.mono hgrows)
    obtain ⟨again, final, hagain, hfinal, hfinalWell, hagainShows⟩ :=
      exists_reify declarations span hwell' ((htypes.mono hgrows).mono hlater) hshows'.navigable
    refine ⟨again, final, hagain, sameShape_of_endAt?_eq hfinalWell
      (hfinal.has (hlater.has hshows.has)) hagainShows.has fun chain => ?_⟩
    calc final.endAt? type chain = grown.endAt? type chain :=
          (hlater.trans hfinal).endAt?_eq hgrown.closed hshows.has chain
      _ = frame.endOf? graph (.fresh id) chain := hends chain
      _ = frame.endOf? final (.fresh id) chain :=
          (endOf?_eq_of_grows ((hgrows.trans hlater).trans hfinal) hwell.closed htypes (by simp)
            chain).symm
      _ = final.endAt? again chain := (hagainShows.endAt?_eq chain).symm
  · have hhas : graph.Has type := (TypeGraph.has_iff_exists_node graph type).mpr ⟨_, hnode⟩
    have htypes' : (frame.allocate { className, fields := fields.mapValues .type }).2.HasTypes
        graph := htypes.expanded (hwell.closed.hasParts hnode)
    obtain ⟨again, grown, hrun, hgrows, hgrown, hshows⟩ := exists_reify declarations span hwell
      htypes' (navigable_expanded frame graph className fields)
    refine ⟨_, _, again, grown, expand?_eq hnode, hrun, sameShape_of_endAt?_eq hgrown
      (hgrows.has hhas) hshows.has fun chain => ?_⟩
    calc grown.endAt? type chain = graph.endAt? type chain :=
          hgrows.endAt?_eq hwell.closed hhas chain
      _ = _ := (endOf?_expanded hnode chain).symm
      _ = _ := (endOf?_eq_of_grows hgrows hwell.closed htypes' (by simp) chain).symm
      _ = grown.endAt? again chain := (hshows.endAt?_eq chain).symm

end Frame

/-- A holder of a box, and a node that is its own next one. -/
def tangleGraph : TypeGraph where
  nodes := #[.scalar,
    .object "Holder" (.ofList [(.field "@v", ⟨2⟩)]),
    .object "Box" (.ofList [(.field "@w", ⟨0⟩)]),
    .object "Node" (.ofList [(.field "@next", ⟨3⟩)])]

/-- Two objects that hold each other, share a third one, and hold a place, a type and an object that
has its home in the argument. -/
def tangleFrame : Frame where
  slots := [⟨1⟩]
  allocations := #[
    { className := "Node", fields := .ofList [(.field "@next", .fresh ⟨1⟩),
        (.field "@seen", .path ⟨1, [.field "@v"]⟩), (.field "@leaf", .fresh ⟨2⟩)] },
    { className := "Node", fields := .ofList [(.field "@next", .fresh ⟨0⟩),
        (.field "@box", .fresh ⟨3⟩), (.field "@leaf", .fresh ⟨2⟩), (.field "@ring", .type ⟨3⟩)] },
    { className := "Leaf", fields := .ofList [(.field "@w", .type ⟨0⟩)] },
    { className := "Box", home? := some ⟨1, [.field "@v"]⟩ }]

theorem tangleFrame_reify_unfolds :
    tangleGraph.WellFormed ∧ tangleFrame.HasTypes tangleGraph ∧
      tangleFrame.Navigable tangleGraph ⟨0⟩ ∧
      (∃ type grown,
        (liftM (tangleFrame.reify {} ⟨0, 0⟩ ⟨0⟩) : Framed TypeId) tangleFrame tangleGraph =
          .ok (type, tangleFrame) grown ∧
        grown.endAt? type [.field "@next", .field "@next", .field "@next", .field "@box",
          .field "@w"] = some none) ∧
      ∃ id expanded again grown,
        Frame.expand? tangleGraph ⟨3⟩ tangleFrame = .ok (some id, expanded) ∧
          expanded.reify {} ⟨0, 0⟩ id tangleGraph = .ok again grown ∧
            grown.sameShape ⟨3⟩ again = true := by
  have hcoherent : tangleFrame.Coherent tangleGraph := by decide +kernel
  have hnavigable : tangleFrame.Navigable tangleGraph ⟨0⟩ := hcoherent.navigable (by decide)
  obtain ⟨hreified, hexpanded⟩ :=
    Frame.reify_unfolds {} ⟨0, 0⟩ hcoherent.wellFormed hcoherent.hasTypes
  obtain ⟨type, grown, hrun, -, -, hends, -⟩ := hreified ⟨0⟩ hnavigable
  exact ⟨hcoherent.wellFormed, hcoherent.hasTypes, hnavigable,
    ⟨type, grown, hrun, (hends _).trans (by decide +kernel)⟩, hexpanded ⟨3⟩ "Node" _ rfl⟩

end ShapeFlow
