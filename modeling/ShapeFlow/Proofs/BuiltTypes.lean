import ShapeFlow.Proofs.Growth
import ShapeFlow.Proofs.ShapeEquality

/-!
# What built types look like

An operation that builds an object type may answer a type that the graph had already, with
its parts in another order and with other names for the parts.  What can be relied on is that
the answer looks like the node that was asked for: it has the class and the keys, and its
parts have the unfoldings of the parts that were given (`TypeGraph.LooksLike`).
-/

namespace ShapeFlow

namespace TypeGraph

variable {graph grown : TypeGraph} {className : String} {fields : Fields}

/-- The type cannot be told from a node of this class with these parts. -/
def LooksLike (graph : TypeGraph) (type : TypeId) (className : String) (fields : Fields) : Prop :=
  ∃ held, graph.node? type = some (.object className held) ∧
    (∀ selector, selector ∈ held.keys ↔ selector ∈ fields.keys) ∧
    ∀ selector part other, fields.get? selector = some part →
      held.get? selector = some other → SameUnfolding graph part graph other

theorem LooksLike.of_node? (hclosed : graph.Closed) {type : TypeId}
    (hnode : graph.node? type = some (.object className fields)) :
    graph.LooksLike type className fields := by
  refine ⟨fields, hnode, fun _ => Iff.rfl, fun selector part other hpart hother => ?_⟩
  rw [hpart, Option.some.injEq] at hother
  exact hother ▸ .refl hclosed (hclosed hnode hpart)

theorem SameUnfolding.has_left {left right : TypeGraph} {leftType rightType : TypeId}
    (hsame : SameUnfolding left leftType right rightType) : left.Has leftType := by
  obtain ⟨leftNode, -, hleft, -⟩ := hsame.alike
  exact (has_iff_exists_node left leftType).mpr ⟨leftNode, hleft⟩

theorem SameUnfolding.has_right {left right : TypeGraph} {leftType rightType : TypeId}
    (hsame : SameUnfolding left leftType right rightType) : right.Has rightType :=
  hsame.symm.has_left

/-- Types with the same unfolding keep it when types are added. -/
theorem SameUnfolding.mono {left right left' right' : TypeGraph} {leftType rightType : TypeId}
    (hsame : SameUnfolding left leftType right rightType) (hleft : left.Grows left')
    (hright : right.Grows right') : SameUnfolding left' leftType right' rightType := by
  refine .of_bisimulation (fun first second => SameUnfolding left first right second) ?_ ?_ hsame
  · intro first second hsame
    obtain ⟨firstNode, secondNode, hfirst, hsecond, halike⟩ := hsame.alike
    exact ⟨firstNode, secondNode, hleft.node? hfirst, hright.node? hsecond, halike⟩
  · intro first second selector firstPart secondPart hsame hfirst hsecond
    rw [hleft.field?_eq hsame.has_left] at hfirst
    rw [hright.field?_eq hsame.has_right] at hsecond
    exact hsame.part hfirst hsecond

/-- Primitive values have the same unfolding. -/
theorem SameUnfolding.of_scalar {left right : TypeGraph} {leftType rightType : TypeId}
    (hleft : left.node? leftType = some .scalar) (hright : right.node? rightType = some .scalar) :
    SameUnfolding left leftType right rightType := by
  intro chain
  cases chain with
  | nil => exact ⟨_, _, hleft, hright, trivial⟩
  | cons selector rest =>
    rw [follow?_cons, follow?_cons, field?_eq_of_node? hleft, field?_eq_of_node? hright]
    trivial

theorem SameUnfolding.scalar {left right : TypeGraph} (hleft : left.WellFormed)
    (hright : right.WellFormed) : SameUnfolding left TypeGraph.scalar right TypeGraph.scalar :=
  .of_scalar hleft.scalar hright.scalar

/-- Objects of one class whose parts have the same unfoldings have the same unfolding. -/
theorem SameUnfolding.of_parts {left right : TypeGraph} {leftType rightType : TypeId}
    {leftFields rightFields : Fields}
    (hleft : left.node? leftType = some (.object className leftFields))
    (hright : right.node? rightType = some (.object className rightFields))
    (hkeys : ∀ selector, selector ∈ leftFields.keys ↔ selector ∈ rightFields.keys)
    (hparts : ∀ selector leftPart rightPart, leftFields.get? selector = some leftPart →
      rightFields.get? selector = some rightPart → SameUnfolding left leftPart right rightPart) :
    SameUnfolding left leftType right rightType := by
  intro chain
  cases chain with
  | nil => exact ⟨_, _, hleft, hright, rfl, hkeys⟩
  | cons selector rest =>
    have hbound := hkeys selector
    rw [OrderedMap.mem_keys_iff, OrderedMap.mem_keys_iff] at hbound
    rw [follow?_cons, follow?_cons, field?_eq_of_node? hleft, field?_eq_of_node? hright]
    dsimp only [TypeNode.fields]
    cases hleftPart : leftFields.get? selector with
    | none =>
      cases hrightPart : rightFields.get? selector with
      | none => trivial
      | some rightPart => simp [hleftPart, hrightPart] at hbound
    | some leftPart =>
      cases hrightPart : rightFields.get? selector with
      | none => simp [hleftPart, hrightPart] at hbound
      | some rightPart => exact hparts selector leftPart rightPart hleftPart hrightPart rest

/-- Types of two graphs that look like nodes whose parts have the same unfoldings. -/
theorem LooksLike.sameUnfolding {left right : TypeGraph} {leftType rightType : TypeId}
    {leftFields rightFields : Fields} (hleft : left.LooksLike leftType className leftFields)
    (hright : right.LooksLike rightType className rightFields)
    (hkeys : ∀ selector, selector ∈ leftFields.keys ↔ selector ∈ rightFields.keys)
    (hparts : ∀ selector leftPart rightPart, leftFields.get? selector = some leftPart →
      rightFields.get? selector = some rightPart → SameUnfolding left leftPart right rightPart) :
    SameUnfolding left leftType right rightType := by
  obtain ⟨leftHeld, hleftNode, hleftKeys, hleftParts⟩ := hleft
  obtain ⟨rightHeld, hrightNode, hrightKeys, hrightParts⟩ := hright
  have hheldKeys : ∀ selector, selector ∈ leftHeld.keys ↔ selector ∈ rightHeld.keys := by
    intro selector
    calc selector ∈ leftHeld.keys ↔ selector ∈ leftFields.keys := hleftKeys selector
      _ ↔ selector ∈ rightFields.keys := hkeys selector
      _ ↔ selector ∈ rightHeld.keys := (hrightKeys selector).symm
  refine .of_parts hleftNode hrightNode hheldKeys
    fun selector leftOther rightOther hleftOther hrightOther => ?_
  obtain ⟨leftPart, hleftPart⟩ := (leftFields.mem_keys_iff selector).mp
    ((hleftKeys selector).mp ((leftHeld.mem_keys_iff selector).mpr ⟨leftOther, hleftOther⟩))
  obtain ⟨rightPart, hrightPart⟩ := (rightFields.mem_keys_iff selector).mp
    ((hrightKeys selector).mp ((rightHeld.mem_keys_iff selector).mpr ⟨rightOther, hrightOther⟩))
  exact ((hleftParts selector leftPart leftOther hleftPart hleftOther).symm.trans
    (hparts selector leftPart rightPart hleftPart hrightPart)).trans
    (hrightParts selector rightPart rightOther hrightPart hrightOther)

/-! ## Shared types -/

/-- The test that finds a shared type tells whether it looks like the node. -/
theorem looksLike_of_hasShape (hclosed : graph.Closed) (hparts : graph.HasParts fields)
    {type : TypeId} (hshape : graph.hasShape className fields type = true) :
    graph.LooksLike type className fields := by
  unfold hasShape at hshape
  split at hshape
  · rename_i otherClass held hnode
    simp only [Bool.and_eq_true, beq_iff_eq, List.all_eq_true] at hshape
    obtain ⟨⟨rfl, hsize⟩, hall⟩ := hshape
    have hbound : ∀ selector part, fields.get? selector = some part →
        ∃ other, held.get? selector = some other ∧ graph.sameShape part other = true := by
      intro selector part hpart
      have hentry := hall (selector, part) ((fields.get?_eq_some_iff selector part).mp hpart)
      dsimp only at hentry
      split at hentry
      · rename_i other hother
        exact ⟨other, hother, hentry⟩
      · simp at hentry
    have hkeys : ∀ selector ∈ fields.keys, selector ∈ held.keys := by
      intro selector hmem
      obtain ⟨part, hpart⟩ := (fields.mem_keys_iff selector).mp hmem
      obtain ⟨other, hother, -⟩ := hbound selector part hpart
      exact (held.mem_keys_iff selector).mpr ⟨other, hother⟩
    refine ⟨held, hnode, fun selector => (mem_keys_iff_of_size_eq hsize hkeys selector).symm, ?_⟩
    intro selector part other hpart hother
    obtain ⟨other', hother', hsame⟩ := hbound selector part hpart
    rw [hother, Option.some.injEq] at hother'
    subst hother'
    exact (sameShape_iff hclosed (hparts selector part hpart) (hclosed hnode hother)).mp hsame
  · simp at hshape

/-- A type with parts that is shared is one that the graph has, or a new node. -/
theorem intern_cases (graph : TypeGraph) (className : String) {fields : Fields}
    (hfields : fields.isEmpty = false) :
    (∃ entry ∈ graph.interned, graph.intern className fields = (entry.2, graph) ∧
      graph.hasShape className fields entry.2 = true) ∨
    ∃ sketch, graph.intern className fields =
      ((graph.push (.object className fields)).1,
        { (graph.push (.object className fields)).2 with
          interned := (sketch, (graph.push (.object className fields)).1) :: graph.interned }) := by
  unfold intern
  rw [hfields]
  cases hfound : graph.findInterned? className fields with
  | none => exact Or.inr ⟨_, rfl⟩
  | some type =>
    obtain ⟨entry, hentry, rfl⟩ := Option.map_eq_some_iff.mp hfound
    have hshape := (findInterned?_className? hfound).1
    exact Or.inl ⟨entry, List.mem_of_find?_eq_some hentry, rfl, hshape⟩

/-- The shared type looks like the node that was asked for. -/
theorem intern_looksLike (hwell : graph.WellFormed) (className : String)
    (hparts : graph.HasParts fields) :
    (graph.intern className fields).2.LooksLike (graph.intern className fields).1 className
      fields := by
  have hclosed := (intern_adds hwell className hparts).wellFormed.closed
  cases hempty : fields.isEmpty with
  | true =>
    obtain rfl := fields.isEmpty_eq_true_iff.mp hempty
    refine .of_node? hclosed ?_
    have hintern : graph.intern className ∅ = graph.plainObject className := rfl
    rw [hintern]
    exact plainObject_node? hwell className
  | false =>
    rcases intern_cases graph className hempty with hfound | hnew
    · obtain ⟨entry, -, hintern, hshape⟩ := hfound
      rw [hintern]
      exact looksLike_of_hasShape hwell.closed hparts hshape
    · obtain ⟨sketch, hintern⟩ := hnew
      refine .of_node? hclosed ?_
      rw [hintern]
      exact node?_push_self graph (.object className fields)

theorem bindField?_looksLike (hwell : graph.WellFormed) {type part : TypeId}
    {selector : Selector} {result : TypeId × TypeGraph} (hpart : graph.Has part)
    (hbind : graph.bindField? type selector part = some result) :
    ∃ className fields, graph.node? type = some (.object className fields) ∧
      result.2.LooksLike result.1 className (fields.insert selector part) := by
  unfold bindField? at hbind
  split at hbind
  · rename_i className fields hnode
    obtain rfl := Option.some.inj hbind
    exact ⟨className, fields, hnode, intern_looksLike hwell className
      ((hwell.closed.hasParts hnode).insert hpart selector)⟩
  · simp at hbind

end TypeGraph

end ShapeFlow
