import ShapeFlow.Proofs.RunComparison

/-!
# Steps on twin frames

A step that succeeds on one of two twin frames succeeds on the other one as well, with a
corresponding answer, and the frames behind the steps are twins again.  The universes may hold
different types, and types under different names.  They have to agree in one point: types of
the same unfolding list their parts in the same order, since the objects of a frame are
rebuilt in the stored order of a type.
-/

namespace ShapeFlow

open TypeGraph (SameUnfolding)

variable {declarations : Declarations} {span : Span} {left right : TypeGraph}
  {first second : Frame}

/-! ## Changes of frames -/

theorem forall₂_modify {α β : Type*} {related : α → β → Prop} {lefts : List α} {rights : List β}
    (hall : List.Forall₂ related lefts rights) {f : α → α} {g : β → β}
    (hchange : ∀ value other, related value other → related (f value) (g other)) (index : Nat) :
    List.Forall₂ related (lefts.modify index f) (rights.modify index g) := by
  induction hall generalizing index with
  | nil => simp
  | cons hfirst hrest ih =>
    cases index with
    | zero => exact .cons (hchange _ _ hfirst) hrest
    | succ index => exact .cons hfirst (ih index)

theorem forall₂_set {α β : Type*} {related : α → β → Prop} {lefts : List α} {rights : List β}
    (hall : List.Forall₂ related lefts rights) {value : α} {other : β}
    (hvalue : related value other) (index : Nat) :
    List.Forall₂ related (lefts.set index value) (rights.set index other) := by
  induction hall generalizing index with
  | nil => simp
  | cons hfirst hrest ih =>
    cases index with
    | zero => exact .cons hvalue hrest
    | succ index => exact .cons hfirst (ih index)

namespace Frame.Twin

theorem setLocal (htwin : first.Twin left right second) (name : String) {operand other : Operand}
    (hoperand : operand.Twin left right other) :
    (first.setLocal name operand).Twin left right (second.setLocal name other) :=
  { htwin with locals := htwin.locals.insert name hoperand }

theorem record (htwin : first.Twin left right second) (target : AccessPath) {value other : Value}
    (hvalue : value.Twin left right other) :
    (first.record target value).Twin left right (second.record target other) :=
  { htwin with
    writes := List.rel_append htwin.writes (.cons ⟨rfl, hvalue⟩ .nil) }

theorem allocate (htwin : first.Twin left right second) {object other : Allocation}
    (hobject : object.Twin left right other) :
    (first.allocate object).1 = (second.allocate other).1 ∧
      (first.allocate object).2.Twin left right (second.allocate other).2 := by
  refine ⟨by simp [Frame.allocate, htwin.size_eq], { htwin with objects := ?_ }⟩
  simp only [Frame.allocate, Array.toList_push]
  exact List.rel_append htwin.objects (.cons hobject .nil)

theorem update (htwin : first.Twin left right second) (id : AllocId)
    {change change' : Allocation → Allocation}
    (hchange : ∀ object other, object.Twin left right other →
      (change object).Twin left right (change' other)) :
    (first.update id change).Twin left right (second.update id change') := by
  refine { htwin with objects := ?_ }
  simp only [Frame.update, Array.toList_modify]
  exact forall₂_modify htwin.objects hchange id.index

theorem release (htwin : first.Twin left right second) (id : AllocId)
    {fields fields' : OrderedMap Selector Operand}
    (hfields : fields.Twin (Operand.Twin left right) fields') :
    (first.release id fields).Twin left right (second.release id fields') :=
  htwin.update id fun _ _ hobject => ⟨hobject.className, hfields, rfl⟩

theorem setSlot (htwin : first.Twin left right second) (slot : Nat) {type other : TypeId}
    (hsame : SameUnfolding left type right other) :
    ({ first with slots := first.slots.set slot type } : Frame).Twin left right
      { second with slots := second.slots.set slot other } :=
  { htwin with slots := forall₂_set htwin.slots hsame slot }

end Frame.Twin

/-! ## Looking at types and frames -/

/-- Nodes of one class with parts of the same unfolding under the same selectors. -/
inductive TypeNode.Twin (left right : TypeGraph) : TypeNode → TypeNode → Prop
  | scalar : TypeNode.Twin left right .scalar .scalar
  | object (className : String) {fields fields' : Fields} :
    (∀ selector, Option.Rel (fun part other => SameUnfolding left part right other)
      (fields.get? selector) (fields'.get? selector)) →
    TypeNode.Twin left right (.object className fields) (.object className fields')

theorem TypeGraph.SameUnfolding.exists_twin {type other : TypeId}
    (hsame : SameUnfolding left type right other) :
    ∃ node node', left.node? type = some node ∧ right.node? other = some node' ∧
      node.Twin left right node' := by
  have hparts := fun selector => hsame.rel_follow? [selector]
  obtain ⟨node, node', hnode, hnode', halike⟩ := hsame.alike
  refine ⟨node, node', hnode, hnode', ?_⟩
  cases node with
  | scalar =>
    cases node' with
    | scalar => exact .scalar
    | object => exact halike.elim
  | object className fields =>
    cases node' with
    | scalar => exact halike.elim
    | object className' fields' =>
      obtain ⟨rfl, -⟩ := halike
      refine .object className fun selector => ?_
      have hpart := hparts selector
      simpa [TypeGraph.follow?_cons, TypeGraph.field?_eq_of_node? hnode,
        TypeGraph.field?_eq_of_node? hnode', TypeNode.fields] using hpart

/-- In universes of one order the parts are listed in the same order. -/
theorem TypeGraph.SameOrder.fields_twin (horder : left.SameOrder right) {type other : TypeId}
    (hsame : SameUnfolding left type right other) :
    (left.fields type).Twin (fun part part' => SameUnfolding left part right part')
      (right.fields other) :=
  .of_keys_eq (horder type other hsame) fun _ _ _ hpart hpart' => hsame.part hpart hpart'

theorem TypeGraph.SameUnfolding.node_follows {type other : TypeId}
    (hsame : SameUnfolding left type right other) :
    Checked.Follows (left.node type) (right.node other) fun node node' =>
      left.node? type = some node ∧ right.node? other = some node' ∧
        node.Twin left right node' := by
  obtain ⟨node, node', hnode, hnode', htwin⟩ := hsame.exists_twin
  unfold TypeGraph.node
  rw [hnode, hnode']
  exact .ok ⟨rfl, rfl, htwin⟩

theorem TypeGraph.SameUnfolding.partType_follows {type other : TypeId}
    (hsame : SameUnfolding left type right other) (selector : Selector) :
    Checked.Follows (left.partType declarations span type selector)
      (right.partType declarations span other selector)
      fun part part' => SameUnfolding left part right part' := by
  intro part hpart
  obtain ⟨part', hpart', hsame'⟩ := hsame.exists_part (TypeGraph.partType_eq_ok_iff.mp hpart)
  exact ⟨part', TypeGraph.partType_eq_ok_iff.mpr hpart', hsame'⟩

namespace Frame.Twin

theorem placeType_follows (htwin : first.Twin left right second) (place : AccessPath) :
    Checked.Follows (first.placeType declarations left span place)
      (second.placeType declarations right span place)
      fun type other => SameUnfolding left type right other := by
  intro type htype
  obtain ⟨other, hother, hsame⟩ :=
    exists_of_rel (htwin.placeType? place) (placeType_eq_ok_iff.mp htype)
  exact ⟨other, placeType_eq_ok_iff.mpr hother, hsame⟩

theorem slotType_follows (htwin : first.Twin left right second) (slot : Nat) :
    Checked.Follows (first.slotType slot) (second.slotType slot)
      fun type other => SameUnfolding left type right other := by
  cases slot with
  | zero => exact .error
  | succ slot => exact .found (forall₂_getElem? htwin.slots slot)

theorem allocation_follows (htwin : first.Twin left right second) (id : AllocId) :
    Checked.Follows (first.allocation id) (second.allocation id) (Allocation.Twin left right) :=
  .found (htwin.object? id.index)

theorem resolve_follows (htwin : first.Twin left right second) {operand other : Operand}
    (hoperand : operand.Twin left right other) :
    Checked.Follows (first.resolve operand) (second.resolve other) (Operand.Twin left right) := by
  cases hoperand with
  | type hsame => exact .ok (.type hsame)
  | path place => exact .ok (.path place)
  | fresh id =>
    refine (htwin.allocation_follows id).bind fun object object' hobject => ?_
    rw [hobject.home]
    split
    · exact .ok (.path _)
    · exact .ok (.fresh id)

theorem classOf?_follows (htwin : first.Twin left right second) {operand other : Operand}
    (hoperand : operand.Twin left right other) :
    Checked.Follows (first.classOf? declarations left span operand)
      (second.classOf? declarations right span other) Eq := by
  have hclass : ∀ {type type'}, SameUnfolding left type right type' →
      Checked.Follows (do pure (← left.node type).className?)
        (do pure (← right.node type').className?) Eq := by
    intro type type' hsame
    refine hsame.node_follows.bind fun node node' hnode => .ok ?_
    obtain ⟨-, -, htwinNode⟩ := hnode
    cases htwinNode <;> rfl
  cases hoperand with
  | type hsame => exact hclass hsame
  | path place => exact (htwin.placeType_follows place).bind fun type other hsame => hclass hsame
  | fresh id =>
    refine (htwin.allocation_follows id).bind fun object object' hobject => .ok ?_
    rw [hobject.className]

theorem slotOperand_follows (htwin : first.Twin left right second) (slot : Nat) :
    Checked.Follows (first.slotOperand left slot) (second.slotOperand right slot)
      (Operand.Twin left right) := by
  refine (htwin.slotType_follows slot).bind fun type other hsame => ?_
  refine hsame.node_follows.bind fun node node' hnode => ?_
  obtain ⟨-, -, htwinNode⟩ := hnode
  cases htwinNode with
  | scalar => exact .ok (.type hsame)
  | object className _ => exact .ok (.path _)

end Frame.Twin

/-! ## Reading parts -/

namespace Frame.Twin

theorem expand?_follows (htwin : first.Twin left right second) (horder : left.SameOrder right)
    {type other : TypeId} (hsame : SameUnfolding left type right other) :
    Checked.Follows (expand? left type first) (expand? right other second)
      fun result result' => result.2.Twin left right result'.2 ∧ result.1 = result'.1 := by
  unfold expand?
  refine hsame.node_follows.lift_bind fun node node' hnodes => ?_
  obtain ⟨hnode, hnode', htwinNode⟩ := hnodes
  cases htwinNode with
  | scalar => exact .ok ⟨htwin, rfl⟩
  | @object className fields fields' hparts =>
    have hfields : fields.Twin (fun part part' => SameUnfolding left part right part') fields' := by
      have hordered := horder.fields_twin hsame
      rwa [TypeGraph.fields, TypeGraph.fields, hnode, hnode'] at hordered
    have hobject : Allocation.Twin left right { className, fields := fields.mapValues .type }
        { className, fields := fields'.mapValues .type } :=
      ⟨rfl, hfields.mapValues fun _ _ hpart => .type hpart, rfl⟩
    obtain ⟨hid, hallocated⟩ := htwin.allocate hobject
    exact .ok ⟨hallocated, congrArg some hid⟩

theorem setPart_follows (htwin : first.Twin left right second) (id : AllocId)
    (selector : Selector) {operand other : Operand} (hoperand : operand.Twin left right other) :
    Checked.Follows (setPart id selector operand first) (setPart id selector other second)
      fun result result' => result.2.Twin left right result'.2 := by
  unfold setPart
  refine .get_bind ((htwin.allocation_follows id).lift_bind fun object object' _ => ?_)
  exact .ok (htwin.update id fun object object' hobject =>
    ⟨hobject.className, hobject.fields.insert selector hoperand, hobject.home⟩)

theorem read_follows (htwin : first.Twin left right second) (horder : left.SameOrder right)
    {operand other : Operand} (hoperand : operand.Twin left right other) (selector : Selector) :
    Checked.Follows (read declarations span left operand selector first)
      (read declarations span right other selector second)
      fun result result' => result.2.Twin left right result'.2 ∧
        result.1.Twin left right result'.1 := by
  unfold read
  refine .get_bind ((htwin.resolve_follows hoperand).lift_bind fun base base' hbase => ?_)
  cases hbase with
  | path place =>
    refine (htwin.placeType_follows place).lift_bind fun object object' hobject => ?_
    refine (hobject.partType_follows selector).lift_bind fun part part' hpart => ?_
    refine hpart.node_follows.lift_bind fun node node' hnodes => ?_
    obtain ⟨-, -, htwinNode⟩ := hnodes
    cases htwinNode with
    | scalar => exact .ok ⟨htwin, .type hpart⟩
    | object className _ => exact .ok ⟨htwin, .path _⟩
  | type hobject =>
    exact (hobject.partType_follows selector).lift_bind fun part part' hpart =>
      .ok ⟨htwin, .type hpart⟩
  | fresh id =>
    refine (htwin.allocation_follows id).lift_bind fun object object' hobject => ?_
    have hheld := hobject.fields.get? selector
    cases hpart : object.fields.get? selector with
    | none =>
      rw [hpart] at hheld
      rw [eq_none_of_rel hheld rfl]
      exact .error
    | some held =>
      obtain ⟨held', hpart', htwinHeld⟩ := exists_of_rel hheld hpart
      rw [hpart']
      cases htwinHeld with
      | path place =>
        refine (htwin.resolve_follows (.path place)).lift ?_
        exact fun value value' hvalue => ⟨htwin, hvalue⟩
      | fresh child =>
        refine (htwin.resolve_follows (.fresh child)).lift ?_
        exact fun value value' hvalue => ⟨htwin, hvalue⟩
      -- Here the order counts: the parts of the type are allocated one after the other.
      | @type type type' hsame =>
        refine (htwin.expand?_follows horder hsame).run_bind ?_
        intro child? child?' first' second' hexpanded
        obtain ⟨htwin', hchild⟩ := hexpanded
        dsimp only at htwin' hchild ⊢
        subst hchild
        cases child? with
        | none => exact .ok ⟨htwin', .type hsame⟩
        | some child =>
          refine (htwin'.setPart_follows id selector (.fresh child)).run_bind ?_
          intro _ _ first'' second'' hset
          exact .ok ⟨hset, .fresh child⟩

theorem readAlong_follows (htwin : first.Twin left right second) (horder : left.SameOrder right)
    {operand other : Operand} (hoperand : operand.Twin left right other)
    (selectors : List Selector) :
    Checked.Follows (readAlong declarations span left operand selectors first)
      (readAlong declarations span right other selectors second)
      fun result result' => result.2.Twin left right result'.2 ∧
        result.1.Twin left right result'.1 := by
  unfold readAlong
  induction selectors generalizing operand other first second with
  | nil => exact .ok ⟨htwin, hoperand⟩
  | cons selector rest ih =>
    rw [List.foldlM_cons, List.foldlM_cons]
    refine (htwin.read_follows horder hoperand selector).run_bind ?_
    intro value value' first' second' hread
    exact ih hread.1 hread.2

end Frame.Twin

/-! ## The types of operands -/

/-- What can be looked at with more types could be looked at before. -/
theorem Frame.Navigable.of_grows {frame : Frame} {graph grown : TypeGraph} {id : AllocId}
    (hnavigable : frame.Navigable grown id) (hgrows : graph.Grows grown) (hclosed : graph.Closed)
    (htypes : frame.HasTypes graph) : frame.Navigable graph id := by
  have hstands : ∀ operand, frame.Stands grown operand → frame.Stands graph operand := by
    intro operand hstands
    unfold Stands at hstands ⊢
    rwa [foundType?_eq_of_grows hgrows hclosed htypes] at hstands
  exact ⟨hstands _ hnavigable.stands, fun other object selector operand hleads hobject hoperand =>
    hstands operand (hnavigable.parts other object selector operand hleads hobject hoperand)⟩

namespace Frame.Twin

/-- Both types show the object, so if there is one on the left, then everything below the object
can be looked at on both sides. -/
theorem reify_follows {comparison : Comparison TypeGraph} (htwin : first.Twin left right second)
    (id : AllocId) : comparison.Follows (first.reify declarations span id left)
      (second.reify declarations span id right) fun type other later last =>
        first.Twin later last second ∧ SameUnfolding later type last other := by
  intro type later hresult _
  have hfirst := reify_shows declarations span htwin.wellLeft htwin.hasTypes id
  have hsecond := reify_shows declarations span htwin.wellRight htwin.symm.hasTypes id
  rw [hresult] at hfirst
  obtain ⟨hgrowsLeft, hwellLeft, hshows⟩ := hfirst
  have hnavigable : first.Navigable left id :=
    hshows.navigable.of_grows hgrowsLeft htwin.wellLeft.closed htwin.hasTypes
  cases hother : second.reify declarations span id right with
  | error failure last =>
    rw [hother] at hsecond
    exact absurd (htwin.navigable hnavigable) hsecond.2.2.2
  | ok other last =>
    rw [hother] at hsecond
    obtain ⟨hgrowsRight, hwellRight, hshows'⟩ := hsecond
    have htwin' := htwin.grow ⟨hgrowsLeft, hgrowsRight⟩ hwellLeft hwellRight
    exact ⟨htwin', htwin'.sameUnfolding_of_shows (.fresh id) hshows hshows'⟩

theorem typeOf_follows {comparison : Comparison TypeGraph} (htwin : first.Twin left right second)
    {operand other : Operand} (hoperand : operand.Twin left right other) :
    comparison.Follows (first.typeOf declarations span operand left)
      (second.typeOf declarations span other right) fun type type' later last =>
        first.Twin later last second ∧ SameUnfolding later type last type' := by
  unfold typeOf
  refine .keep_bind (htwin.resolve_follows hoperand) fun resolved resolved' hresolved => ?_
  cases hresolved with
  | type hsame => exact .ok ⟨htwin, hsame⟩
  | path place =>
    exact .keep ((htwin.placeType_follows place).mono fun type type' hsame => ⟨htwin, hsame⟩)
  | fresh id => exact htwin.reify_follows id

theorem currentType_follows (htwin : first.Twin left right second) {operand other : Operand}
    (hoperand : operand.Twin left right other) :
    Frame.Follows (currentType declarations span operand first left)
      (currentType declarations span other second right)
      fun type type' later last => SameUnfolding later type last type' :=
  .get_bind (.lift (htwin.typeOf_follows hoperand))

theorem express_follows (htwin : first.Twin left right second) {operand other : Operand}
    (hoperand : operand.Twin left right other) :
    Frame.Follows (express declarations span operand first left)
      (express declarations span other second right)
      fun value value' later last => value.Twin later last value' := by
  unfold express
  refine .inspect_bind (htwin.resolve_follows hoperand) fun resolved resolved' hresolved => ?_
  cases hresolved with
  | type hsame => exact .pure htwin (.type hsame)
  | path place => exact .pure htwin (.path place)
  | fresh id =>
    refine .get_bind (.lift_bind (htwin.reify_follows id) ?_)
    intro type type' left' right' _ htwin' hsame
    exact .pure htwin' (.type hsame)

end Frame.Twin

end ShapeFlow
