import Mathlib.Logic.Relation
import ShapeFlow.Frame.Reify
import ShapeFlow.Proofs.Growth

/-!
# The shapes of operands

What an operand stands for can be looked at without building a type.  A place has the type
that is found there, and so has an allocated object with a home (`Frame.foundType?`).  An
allocated object without a home has the class and the parts that the frame gives it
(`Frame.localObject?`), and its parts are operands again.

`Frame.Shows` says that a type looks the same as an operand through all chains of selectors.
The objects of a frame may lead back to themselves, so it is a greatest relation: it holds as
soon as some relation contains the pair and every pair of it looks alike at the first step
and leads to pairs of it again.

The last section is about circles of objects, which `Frame.isOnCircle` finds.
-/

namespace ShapeFlow

namespace TypeGraph

variable {graph grown : TypeGraph}

/-- Chains from an old type lead where they led before. -/
theorem Grows.follow?_eq (hgrows : graph.Grows grown) (hclosed : graph.Closed) {type : TypeId}
    (hhas : graph.Has type) (chain : List Selector) :
    grown.follow? type chain = graph.follow? type chain := by
  induction chain generalizing type with
  | nil => rfl
  | cons selector rest ih =>
    rw [follow?_cons, follow?_cons, hgrows.field?_eq hhas]
    cases hpart : graph.field? type selector with
    | none => rfl
    | some part => exact ih (hclosed.has_field? hpart)

/-- Unfoldings depend only on the nodes of a set of types that no part leaves. -/
theorem SameUnfolding.of_node?_eq {settled : TypeId → Prop}
    (hparts : ∀ type selector part, settled type → graph.field? type selector = some part →
      settled part)
    (hnodes : ∀ type, settled type → grown.node? type = graph.node? type) {left right : TypeId}
    (hleft : settled left) (hright : settled right)
    (hsame : SameUnfolding graph left graph right) : SameUnfolding grown left grown right := by
  have hfields : ∀ type selector, settled type →
      grown.field? type selector = graph.field? type selector := by
    intro type selector hsettled
    rw [field?, field?, fields, fields, hnodes type hsettled]
  refine SameUnfolding.of_bisimulation (fun first second =>
    settled first ∧ settled second ∧ SameUnfolding graph first graph second) ?_ ?_
    ⟨hleft, hright, hsame⟩
  · intro first second hrelated
    obtain ⟨hfirst, hsecond, hsame⟩ := hrelated
    obtain ⟨firstNode, secondNode, hfirstNode, hsecondNode, halike⟩ := hsame.alike
    exact ⟨firstNode, secondNode, (hnodes first hfirst).trans hfirstNode,
      (hnodes second hsecond).trans hsecondNode, halike⟩
  · intro first second selector firstPart secondPart hrelated hfirstPart hsecondPart
    obtain ⟨hfirst, hsecond, hsame⟩ := hrelated
    rw [hfields first selector hfirst] at hfirstPart
    rw [hfields second selector hsecond] at hsecondPart
    exact ⟨hparts first selector firstPart hfirst hfirstPart,
      hparts second selector secondPart hsecond hsecondPart, hsame.part hfirstPart hsecondPart⟩

/-! ## The types of places -/

variable {declarations : Declarations} {span : Span}

theorem partType_eq_ok_iff {type part : TypeId} {selector : Selector} :
    graph.partType declarations span type selector = .ok part ↔
      graph.field? type selector = some part := by
  unfold partType TypeGraph.node
  cases hnode : graph.node? type with
  | none => simp [found, field?, fields, hnode, bind, Except.bind]
  | some node =>
    rw [field?_eq_of_node? hnode]
    cases node with
    | scalar => simp [found, reject, bind, Except.bind, TypeNode.fields, throwThe]
    | object className fields =>
      simp only [found, bind, Except.bind, TypeNode.fields]
      cases fields.get? selector <;> simp [reject, throwThe, pure, Except.pure]

theorem foldlM_partType_eq_ok_iff {type last : TypeId} {chain : List Selector} :
    chain.foldlM (graph.partType declarations span) type = .ok last ↔
      graph.follow? type chain = some last := by
  induction chain generalizing type with
  | nil => simp [pure, Except.pure]
  | cons selector rest ih =>
    rw [List.foldlM_cons, follow?_cons, Option.bind_eq_some_iff]
    constructor
    · intro hrest
      cases hpart : graph.partType declarations span type selector with
      | error failure => simp [hpart, bind, Except.bind] at hrest
      | ok part =>
        rw [hpart] at hrest
        exact ⟨part, partType_eq_ok_iff.mp hpart, ih.mp hrest⟩
    · intro hrest
      obtain ⟨part, hpart, hlast⟩ := hrest
      rw [partType_eq_ok_iff.mpr hpart]
      exact ih.mpr hlast

end TypeGraph

theorem AllocId.index_inj {first second : AllocId} :
    first.index = second.index ↔ first = second := by
  cases first
  cases second
  exact AllocId.mk.injEq _ _ ▸ Iff.rfl

namespace Frame

variable {frame : Frame} {graph grown : TypeGraph} {declarations : Declarations} {span : Span}

/-- The type that is found at a place, if the place leads somewhere. -/
def placeType? (frame : Frame) (graph : TypeGraph) (place : AccessPath) : Option TypeId :=
  match place.root with
  | 0 => none
  | slot + 1 => frame.slots[slot]?.bind fun type => graph.follow? type place.selectors

theorem placeType_eq_ok_iff {place : AccessPath} {type : TypeId} :
    frame.placeType declarations graph span place = .ok type ↔
      frame.placeType? graph place = some type := by
  unfold placeType placeType?
  cases place.root with
  | zero => simp [slotType, bind, Except.bind]
  | succ slot =>
    cases hslot : frame.slots[slot]? with
    | none => simp [slotType, found, hslot, bind, Except.bind]
    | some held =>
      simp only [slotType, found, hslot, bind, Except.bind, Option.bind_some]
      exact TypeGraph.foldlM_partType_eq_ok_iff

/-! ## What an operand shows -/

/-- The type at which an operand is found, where it is not an object without a home. -/
def foundType? (frame : Frame) (graph : TypeGraph) : Operand → Option TypeId
  | .type id => some id
  | .path place => frame.placeType? graph place
  | .fresh id => frame.allocations[id.index]?.bind fun object =>
    object.home?.bind (frame.placeType? graph)

/-- The allocated object without a home that an operand is. -/
def localObject? (frame : Frame) : Operand → Option Allocation
  | .type _ | .path _ => none
  | .fresh id => frame.allocations[id.index]?.bind fun object =>
    if object.home?.isNone then some object else none

/-- The types that a frame names by itself have nodes. -/
structure HasTypes (frame : Frame) (graph : TypeGraph) : Prop where
  slots : ∀ type ∈ frame.slots, graph.Has type
  parts : ∀ (id : Nat) (object : Allocation) (selector : Selector) (type : TypeId),
    frame.allocations[id]? = some object → object.fields.get? selector = some (.type type) →
      graph.Has type

theorem HasTypes.mono (htypes : frame.HasTypes graph) (hgrows : graph.Grows grown) :
    frame.HasTypes grown where
  slots type hmem := hgrows.has (htypes.slots type hmem)
  parts id object selector type hobject hpart :=
    hgrows.has (htypes.parts id object selector type hobject hpart)

theorem has_placeType? (hclosed : graph.Closed) (htypes : frame.HasTypes graph)
    {place : AccessPath} {type : TypeId} (hplace : frame.placeType? graph place = some type) :
    graph.Has type := by
  unfold placeType? at hplace
  split at hplace
  · simp at hplace
  · rename_i slot _
    obtain ⟨held, hheld, hfollow⟩ := Option.bind_eq_some_iff.mp hplace
    exact hclosed.has_follow? (htypes.slots held (List.mem_of_getElem? hheld)) hfollow

/-- The types found at places do not change when types are added. -/
theorem placeType?_eq_of_grows (hgrows : graph.Grows grown) (hclosed : graph.Closed)
    (htypes : frame.HasTypes graph) (place : AccessPath) :
    frame.placeType? grown place = frame.placeType? graph place := by
  unfold placeType?
  split
  · rfl
  · rename_i slot _
    cases hslot : frame.slots[slot]? with
    | none => rfl
    | some held =>
      exact hgrows.follow?_eq hclosed (htypes.slots held (List.mem_of_getElem? hslot)) _

theorem foundType?_eq_of_grows (hgrows : graph.Grows grown) (hclosed : graph.Closed)
    (htypes : frame.HasTypes graph) (operand : Operand) :
    frame.foundType? grown operand = frame.foundType? graph operand := by
  have hplaces := placeType?_eq_of_grows hgrows hclosed htypes
  cases operand with
  | type held => rfl
  | path place => exact hplaces place
  | fresh id => simp only [foundType?, funext hplaces]

/-- Related operands and types look alike at the first step, and their parts are related
again. -/
def Depicts (frame : Frame) (graph : TypeGraph) (related : Operand → TypeId → Prop) : Prop :=
  ∀ operand type, related operand type →
    (∃ found, frame.foundType? graph operand = some found ∧
      TypeGraph.SameUnfolding graph found graph type) ∨
    ∃ object fields, frame.localObject? operand = some object ∧
      graph.node? type = some (.object object.className fields) ∧
      (∀ selector, selector ∈ fields.keys ↔ selector ∈ object.fields.keys) ∧
      ∀ selector held part, object.fields.get? selector = some held →
        fields.get? selector = some part → related held part

/-- A type looks the same as an operand through all chains of selectors. -/
def Shows (frame : Frame) (graph : TypeGraph) (operand : Operand) (type : TypeId) : Prop :=
  ∃ related, frame.Depicts graph related ∧ related operand type

theorem localObject?_eq_some_iff {operand : Operand} {object : Allocation} :
    frame.localObject? operand = some object ↔ ∃ id, operand = .fresh id ∧
      frame.allocations[id.index]? = some object ∧ object.home? = none := by
  cases operand with
  | type held => simp [localObject?]
  | path place => simp [localObject?]
  | fresh id =>
    simp only [localObject?, Option.bind_eq_some_iff, Operand.fresh.injEq, exists_eq_left']
    constructor
    · intro hlocal
      obtain ⟨held, hheld, hsome⟩ := hlocal
      split at hsome
      · rename_i hhome
        rw [Option.some.injEq] at hsome
        exact ⟨hsome ▸ hheld, hsome ▸ Option.isNone_iff_eq_none.mp hhome⟩
      · simp at hsome
    · intro hlocal
      exact ⟨object, hlocal.1, by simp [hlocal.2]⟩

theorem localObject?_fresh_iff {id : AllocId} {object : Allocation} :
    frame.localObject? (.fresh id) = some object ↔
      frame.allocations[id.index]? = some object ∧ object.home? = none := by
  simp [localObject?_eq_some_iff]

/-- A type of a class is shown only by objects of the class. -/
theorem Shows.className?_eq {operand : Operand} {type : TypeId} {object : Allocation}
    (hshows : frame.Shows graph operand type) (hlocal : frame.localObject? operand = some object) :
    graph.className? type = some object.className := by
  obtain ⟨related, hdepicts, hrelated⟩ := hshows
  rcases hdepicts operand type hrelated with hfound | hobject
  · obtain ⟨found, hfound, -⟩ := hfound
    obtain ⟨id, rfl, hheld, hhome⟩ := localObject?_eq_some_iff.mp hlocal
    simp [foundType?, hheld, hhome] at hfound
  · obtain ⟨held, fields, hheld, hnode, -⟩ := hobject
    rw [hlocal, Option.some.injEq] at hheld
    exact TypeGraph.className?_eq_some_iff.mpr ⟨fields, hheld ▸ hnode⟩

theorem Shows.has {operand : Operand} {type : TypeId}
    (hshows : frame.Shows graph operand type) : graph.Has type := by
  obtain ⟨related, hdepicts, hrelated⟩ := hshows
  rcases hdepicts operand type hrelated with hfound | hobject
  · obtain ⟨found, -, hsame⟩ := hfound
    obtain ⟨-, node, -, hnode, -⟩ := hsame.alike
    exact (TypeGraph.has_iff_exists_node graph type).mpr ⟨node, hnode⟩
  · obtain ⟨held, fields, -, hnode, -⟩ := hobject
    exact (TypeGraph.has_iff_exists_node graph type).mpr ⟨_, hnode⟩

/-! ## Circles of objects -/

/-- An object without a home is a part of another one. -/
def Holds (frame : Frame) (id child : AllocId) : Prop :=
  frame.isLocal id = true ∧ child ∈ frame.localParts id

/-- A chain of parts without homes leads from one object to another one. -/
def LeadsTo (frame : Frame) : AllocId → AllocId → Prop := Relation.ReflTransGen frame.Holds

/-- A chain of at least one part leads from one object to another one. -/
def Encloses (frame : Frame) : AllocId → AllocId → Prop := Relation.TransGen frame.Holds

theorem isLocal_iff {id : AllocId} :
    frame.isLocal id = true ↔ ∃ object, frame.localObject? (.fresh id) = some object := by
  simp only [isLocal, localObject?]
  cases frame.allocations[id.index]? with
  | none => simp
  | some object => cases object.home? <;> simp

theorem mem_localParts_iff {id child : AllocId} :
    child ∈ frame.localParts id ↔ ∃ object selector, frame.allocations[id.index]? = some object ∧
      object.fields.get? selector = some (.fresh child) ∧ frame.isLocal child = true := by
  unfold localParts
  cases hobject : frame.allocations[id.index]? with
  | none => simp
  | some object =>
    simp only [List.mem_filterMap, OrderedMap.values, List.mem_map]
    constructor
    · intro hmem
      obtain ⟨operand, ⟨entry, hentry, rfl⟩, hchild⟩ := hmem
      obtain ⟨selector, operand⟩ := entry
      cases operand with
      | type held => simp at hchild
      | path place => simp at hchild
      | fresh other =>
        simp only at hchild
        split at hchild
        · rename_i hlocal
          obtain rfl := Option.some.inj hchild
          exact ⟨object, selector, rfl,
            (object.fields.get?_eq_some_iff selector _).mpr hentry, hlocal⟩
        · simp at hchild
    · intro hmem
      obtain ⟨held, selector, hheld, hpart, hlocal⟩ := hmem
      obtain rfl := Option.some.inj hheld
      exact ⟨.fresh child,
        ⟨(selector, .fresh child), (object.fields.get?_eq_some_iff selector _).mp hpart, rfl⟩,
        by simp [hlocal]⟩

theorem mem_range_of_mem_localParts {id child : AllocId} (hchild : child ∈ frame.localParts id) :
    child ∈ (List.range frame.allocations.size).map AllocId.mk := by
  obtain ⟨-, -, -, -, hlocal⟩ := mem_localParts_iff.mp hchild
  obtain ⟨object, hobject⟩ := isLocal_iff.mp hlocal
  obtain ⟨hheld, -⟩ := localObject?_fresh_iff.mp hobject
  have hlt := (Array.getElem?_eq_some_iff.mp hheld).1
  exact List.mem_map.mpr ⟨child.index, List.mem_range.mpr hlt, rfl⟩

theorem isLocal_of_mem_localParts {id child : AllocId} (hchild : child ∈ frame.localParts id) :
    frame.isLocal child = true := by
  obtain ⟨-, -, -, -, hlocal⟩ := mem_localParts_iff.mp hchild
  exact hlocal

theorem LeadsTo.isLocal {id other : AllocId} (hleads : frame.LeadsTo id other)
    (hlocal : frame.isLocal id = true) : frame.isLocal other = true := by
  rcases hleads.cases_tail with rfl | htail
  · exact hlocal
  · obtain ⟨_, -, hholds⟩ := htail
    exact isLocal_of_mem_localParts hholds.2

/-- The search for a circle, which stops at its goal, gets to the goal exactly when some chain
leads there. -/
theorem reaches_iff_leadsTo {id first : AllocId} (hfirst : frame.isLocal first = true) :
    Reaches (fun met => if met = id then none else some (frame.localParts met)) first id ↔
      frame.LeadsTo first id := by
  constructor
  · have hchain : ∀ last, Reaches (fun met => if met = id then none else
        some (frame.localParts met)) first last → frame.LeadsTo first last := by
      intro last hreaches
      induction hreaches with
      | refl => exact .refl
      | head hstep hlater _ ih =>
        split at hstep
        · simp at hstep
        · rw [← Option.some.inj hstep] at hlater
          exact .head ⟨hfirst, hlater⟩ (ih (isLocal_of_mem_localParts hlater))
    exact hchain id
  · intro hleads
    induction hleads using Relation.ReflTransGen.head_induction_on with
    | refl => exact .refl id
    | @head met child hchild _ ih =>
      by_cases hid : met = id
      · exact hid ▸ .refl met
      · exact .head (if_neg hid) hchild.2 (ih (isLocal_of_mem_localParts hchild.2))

/-- The search for a circle stays among the objects of the frame. -/
theorem searched_in_range (frame : Frame) (id : AllocId) :
    ∀ met ∈ (List.range frame.allocations.size).map AllocId.mk, ∀ laters,
      (if met = id then none else some (frame.localParts met)) = some laters →
        ∀ later ∈ laters, later ∈ (List.range frame.allocations.size).map AllocId.mk := by
  intro met _ laters hstep later hlater
  split at hstep
  · simp at hstep
  · exact mem_range_of_mem_localParts (Option.some.inj hstep ▸ hlater)

/-- An object is on a circle exactly when it encloses itself. -/
theorem isOnCircle_iff {id : AllocId} : frame.isOnCircle id = true ↔ frame.Encloses id id := by
  have hwalk := allReachable_iff (σ := List AllocId) _ (frame.searched_in_range id)
    frame.allocations.size (by simp)
    (frame.localParts id) fun child hchild => mem_range_of_mem_localParts hchild
  -- The search refuses nothing but its goal.
  have hrefuses : ∀ last, (if last = id then none else some (frame.localParts last)).isSome = true ↔
      last ≠ id := by
    intro last
    split <;> simp_all
  unfold isOnCircle
  rw [Bool.not_eq_true', ← Bool.not_eq_true]
  refine (not_congr hwalk).trans ?_
  unfold Encloses
  rw [Relation.TransGen.head'_iff]
  simp only [hrefuses, not_forall, ne_eq, not_not]
  constructor
  · intro hcircle
    obtain ⟨child, hchild, last, hreaches, rfl⟩ := hcircle
    have hlocal := isLocal_of_mem_localParts hchild
    have hleads := (reaches_iff_leadsTo hlocal).mp hreaches
    exact ⟨child, ⟨hleads.isLocal hlocal, hchild⟩, hleads⟩
  · intro hcircle
    obtain ⟨child, hchild, hleads⟩ := hcircle
    have hlocal := isLocal_of_mem_localParts hchild.2
    exact ⟨child, hchild.2, id, (reaches_iff_leadsTo hlocal).mpr hleads, rfl⟩

/-! ## Objects that can be looked at -/

/-- Something stands behind an operand: a type, or an object without a home. -/
def Stands (frame : Frame) (graph : TypeGraph) (operand : Operand) : Prop :=
  (∃ type, frame.foundType? graph operand = some type) ∨
    ∃ object, frame.localObject? operand = some object

/-- Something stands behind an object and behind each part that is reached from it. -/
structure Navigable (frame : Frame) (graph : TypeGraph) (id : AllocId) : Prop where
  stands : frame.Stands graph (.fresh id)
  parts : ∀ other object selector operand, frame.LeadsTo id other →
    frame.localObject? (.fresh other) = some object →
      object.fields.get? selector = some operand → frame.Stands graph operand

theorem holds_iff {id child : AllocId} : frame.Holds id child ↔
    ∃ object held selector, frame.localObject? (.fresh id) = some object ∧
      object.fields.get? selector = some (.fresh child) ∧
      frame.localObject? (.fresh child) = some held := by
  simp only [Holds, mem_localParts_iff, isLocal_iff]
  constructor
  · intro hholds
    obtain ⟨⟨object, hobject⟩, other, selector, hother, hpart, held, hheld⟩ := hholds
    obtain ⟨hat, -⟩ := localObject?_fresh_iff.mp hobject
    rw [hat, Option.some.injEq] at hother
    exact ⟨object, held, selector, hobject, hother ▸ hpart, hheld⟩
  · intro hholds
    obtain ⟨object, held, selector, hobject, hpart, hheld⟩ := hholds
    obtain ⟨hat, -⟩ := localObject?_fresh_iff.mp hobject
    exact ⟨⟨object, hobject⟩, object, selector, hat, hpart, held, hheld⟩

/-- An operand is not both found as a type and an object without a home. -/
theorem foundType?_eq_none {operand : Operand} {object : Allocation}
    (hlocal : frame.localObject? operand = some object) :
    frame.foundType? graph operand = none := by
  obtain ⟨id, rfl, hobject, hhome⟩ := localObject?_eq_some_iff.mp hlocal
  simp [foundType?, hobject, hhome]

/-- What a type shows is there to be looked at. -/
theorem Shows.navigable {id : AllocId} {type : TypeId}
    (hshows : frame.Shows graph (.fresh id) type) : frame.Navigable graph id := by
  obtain ⟨related, hdepicts, hrelated⟩ := hshows
  have hstands : ∀ operand type, related operand type → frame.Stands graph operand := by
    intro operand type hrelated
    rcases hdepicts operand type hrelated with hfound | hlocal
    · obtain ⟨found, hfound, -⟩ := hfound
      exact Or.inl ⟨found, hfound⟩
    · obtain ⟨object, -, hobject, -⟩ := hlocal
      exact Or.inr ⟨object, hobject⟩
  have hpart : ∀ other type object selector operand, related (.fresh other) type →
      frame.localObject? (.fresh other) = some object →
        object.fields.get? selector = some operand → ∃ part, related operand part := by
    intro other type object selector operand hrelated hobject hoperand
    rcases hdepicts _ type hrelated with hfound | hlocal
    · obtain ⟨found, hfound, -⟩ := hfound
      simp [foundType?_eq_none hobject] at hfound
    · obtain ⟨held, fields, hheld, -, hkeys, hparts⟩ := hlocal
      rw [hobject, Option.some.injEq] at hheld
      subst hheld
      have hmem := (hkeys selector).mpr ((object.fields.mem_keys_iff selector).mpr ⟨_, hoperand⟩)
      obtain ⟨part, hpart⟩ := (fields.mem_keys_iff selector).mp hmem
      exact ⟨part, hparts selector operand part hoperand hpart⟩
  have hchain : ∀ other, frame.LeadsTo id other → ∃ type, related (.fresh other) type := by
    intro other hleads
    induction hleads with
    | refl => exact ⟨type, hrelated⟩
    | tail _ hholds ih =>
      obtain ⟨held, hheld⟩ := ih
      obtain ⟨object, -, selector, hobject, hchild, -⟩ := holds_iff.mp hholds
      exact hpart _ held object selector _ hheld hobject hchild
  refine ⟨hstands _ type hrelated, fun other object selector operand hleads hobject hoperand => ?_⟩
  obtain ⟨held, hheld⟩ := hchain other hleads
  obtain ⟨part, hpart⟩ := hpart other held object selector operand hheld hobject hoperand
  exact hstands operand part hpart

end Frame

end ShapeFlow
