import ShapeFlow.Proofs.Reification

namespace ShapeFlow

variable {graph : TypeGraph} {arguments : List TypeId} {frame : Frame}
  {declarations : Declarations} {span : Span}

/-! ## Reading parts -/

namespace Frame

/-- A step that reads the types leads to a sound frame and answers an operand that is rooted
in the arguments. -/
def ReadsSafely (graph : TypeGraph) (arguments : List TypeId)
    (outcome : Checked (Operand × Frame)) : Prop :=
  Checked.Harmless outcome fun result =>
    result.2.Sound graph arguments ∧ result.1.RootedIn graph arguments

theorem expand?_safe (hsound : frame.Sound graph arguments) (type : TypeId) :
    Checked.Harmless (expand? graph type frame) fun result => result.2.Sound graph arguments ∧
      ∀ className, graph.className? type = some className → result.1.isSome = true := by
  unfold expand?
  refine (graph.node_safe type).lift_bind fun node hnode => ?_
  cases node with
  | scalar =>
    refine ⟨hsound, fun className hclass => ?_⟩
    obtain ⟨fields, hobject⟩ := TypeGraph.className?_eq_some_iff.mp hclass
    exact nomatch hnode.symm.trans hobject
  | object className fields =>
    refine ⟨hsound.allocate ⟨fun selector operand hpart => ?_, fun home hhome => nomatch hhome⟩,
      fun _ _ => rfl⟩
    rw [OrderedMap.get?_mapValues, Option.map_eq_some_iff] at hpart
    obtain ⟨part, hpart, rfl⟩ := hpart
    exact hsound.wellFormed.closed.hasParts hnode selector part hpart

theorem setPart_safe (hsound : frame.Sound graph arguments) (id : AllocId) (selector : Selector)
    {operand : Operand} (hrooted : operand.RootedIn graph arguments) :
    Checked.Harmless (setPart id selector operand frame) fun result =>
      result.2.Sound graph arguments := by
  unfold setPart
  refine Checked.Safe.get_bind ?_
  refine (frame.allocation_safe id).lift_bind fun _ _ => ?_
  refine hsound.update id fun object hobject => ⟨fun other held hheld => ?_, hobject.home⟩
  rw [OrderedMap.get?_insert] at hheld
  split at hheld
  · rw [Option.some.injEq] at hheld
    exact hheld ▸ hrooted
  · exact hobject.parts other held hheld

theorem read_safe (hsound : frame.Sound graph arguments) {base : Operand}
    (hbase : base.RootedIn graph arguments) (selector : Selector) :
    ReadsSafely graph arguments (read declarations span graph base selector frame) := by
  have hclosed := hsound.wellFormed.closed
  unfold read
  refine Checked.Safe.get_bind ?_
  refine (hsound.resolve hbase).lift_bind fun base hbase => ?_
  cases base with
  | path place =>
    refine (hsound.placeType place).lift_bind fun object _ => ?_
    refine (TypeGraph.partType_safe hclosed object selector).lift_bind fun part hpart => ?_
    refine (graph.node_safe part).lift_bind fun node _ => ?_
    cases node with
    | scalar => exact ⟨hsound, hpart⟩
    | object className fields => exact ⟨hsound, AccessPath.RootedIn.child hbase selector⟩
  | type object =>
    refine (TypeGraph.partType_safe hclosed object selector).lift_bind fun part hpart => ?_
    exact ⟨hsound, hpart⟩
  | fresh id =>
    refine (frame.allocation_safe id).lift_bind fun object hobject => ?_
    have hparts := (hsound.objects id.index object hobject).parts selector
    cases hpart : object.fields.get? selector with
    | none => exact harmless_cause (declarations.missingPart_ne span object.className selector)
    | some operand =>
      have hrooted := hparts operand hpart
      cases operand with
      | type part =>
        refine (expand?_safe hsound part).run_bind fun child? later ⟨hlater, _⟩ => ?_
        cases child? with
        | none => exact ⟨hlater, hrooted⟩
        | some child =>
          have hchild : (Operand.fresh child).RootedIn graph arguments := trivial
          refine (setPart_safe hlater id selector hchild).run_bind ?_
          exact fun _ _ hset => ⟨hset, hchild⟩
      | path place => exact ⟨hsound, hrooted⟩
      | fresh child =>
        refine (hsound.resolve hrooted).lift.mono ?_
        intro result hpost
        obtain ⟨operand, later⟩ := result
        obtain ⟨rfl, hresolved⟩ := hpost
        exact ⟨hsound, hresolved⟩

theorem readAlong_safe (hsound : frame.Sound graph arguments) {base : Operand}
    (hbase : base.RootedIn graph arguments) (selectors : List Selector) :
    ReadsSafely graph arguments (readAlong declarations span graph base selectors frame) := by
  unfold readAlong
  induction selectors generalizing base frame with
  | nil => exact ⟨hsound, hbase⟩
  | cons selector rest ih =>
    rw [List.foldlM_cons]
    refine (read_safe hsound hbase selector).run_bind fun operand later hlater => ?_
    exact ih hlater.1 hlater.2

theorem readAlong_keeps (hsound : frame.Sound graph arguments) {base : Operand}
    (hbase : base.RootedIn graph arguments) (selectors : List Selector) :
    Keeps graph arguments
      (reading (fun graph => readAlong declarations span graph base selectors) frame graph)
      fun operand grown => operand.RootedIn grown arguments := by
  refine Discipline.Ends.mono (Discipline.Ends.reading hsound.wellFormed
    (readAlong_safe hsound hbase selectors)) ?_
  intro result later _ hpost
  obtain ⟨rfl, hresult⟩ := hpost
  exact hresult

theorem setPart_keeps (hsound : frame.Sound graph arguments) (id : AllocId) (selector : Selector)
    {operand : Operand} (hrooted : operand.RootedIn graph arguments) :
    Keeps graph arguments (reading (fun _ => setPart id selector operand) frame graph)
      fun _ _ => True := by
  refine Discipline.Ends.mono (Discipline.Ends.reading hsound.wellFormed
    (setPart_safe hsound id selector hrooted)) ?_
  intro result later _ hpost
  obtain ⟨rfl, hresult⟩ := hpost
  exact ⟨hresult, trivial⟩

theorem resolve_keeps (hsound : frame.Sound graph arguments) {operand : Operand}
    (hrooted : operand.RootedIn graph arguments) :
    Keeps graph arguments (inspect (fun _ frame => frame.resolve operand) frame graph)
      fun resolved grown => resolved.RootedIn grown arguments := by
  refine Discipline.Ends.mono
    (Discipline.Ends.inspect _ hsound.wellFormed (hsound.resolve hrooted)) ?_
  intro result later _ hpost
  obtain ⟨resolved, changed⟩ := result
  obtain ⟨rfl, rfl, hresolved⟩ := hpost
  exact ⟨hsound, hresolved⟩

/-! ## The types of allocated objects -/

/-- A type of the graph, which for an object without a home is one of its class. -/
def IsTypeOf (frame : Frame) (id : AllocId) (type : TypeId) (graph : TypeGraph) : Prop :=
  graph.Has type ∧ ∀ object : Allocation, frame.allocations[id.index]? = some object →
    object.home? = none → graph.className? type = some object.className

theorem Sound.hasTypes (hsound : frame.Sound graph arguments) : frame.HasTypes graph where
  slots type hmem := by
    obtain ⟨slot, hslot⟩ := List.mem_iff_getElem?.mp hmem
    exact (hsound.slots slot type hslot).1
  parts id object selector type hobject hpart :=
    (hsound.objects id object hobject).parts selector (.type type) hpart

theorem reify_ends (hsound : frame.Sound graph arguments) (id : AllocId) :
    growing.Ends graph (frame.reify declarations span id graph) fun type grown =>
      grown.WellFormed ∧ frame.IsTypeOf id type grown := by
  have hshows := (reify_shows declarations span hsound.wellFormed hsound.hasTypes id).under
    (visiting_refines frame graph id)
  refine hshows.mono ?_
  intro type grown _ hresult
  obtain ⟨hwell, hshows⟩ := hresult
  refine ⟨hwell, hshows.has, fun object hobject hhome => ?_⟩
  exact hshows.className?_eq (localObject?_fresh_iff.mpr ⟨hobject, hhome⟩)

theorem typeOf_ends (hsound : frame.Sound graph arguments) {operand : Operand}
    (hrooted : operand.RootedIn graph arguments) :
    growing.Ends graph (frame.typeOf declarations span operand graph) fun type grown =>
      grown.WellFormed ∧ grown.Has type := by
  have hwell := hsound.wellFormed
  unfold typeOf
  refine .keep_bind hwell (hsound.resolve hrooted) fun resolved hresolved => ?_
  cases resolved with
  | type type => exact .pure ⟨hwell, hresolved⟩
  | path place =>
    refine (Discipline.Ends.keep hwell (hsound.placeType place)).mono ?_
    intro type later _ hpost
    obtain ⟨rfl, hhas⟩ := hpost
    exact ⟨hwell, hhas⟩
  | fresh id =>
    refine (reify_ends hsound id).mono ?_
    intro type later _ hpost
    obtain ⟨hlater, htype⟩ := hpost
    exact ⟨hlater, htype.1⟩

end Frame

end ShapeFlow
