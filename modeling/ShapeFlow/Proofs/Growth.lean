import ShapeFlow.Proofs.Unfolding
import ShapeFlow.TypeGraph.Interning

/-!
# Graphs of types only grow

`TypeGraph.Grows` says that a graph has everything that an earlier graph had: the nodes are
the same, and the tables of canonical types name an earlier type only where they named it
before.  `TypeGraph.WellFormed` says that nothing in a graph leads outside of it.

Each building operation grows a well-formed graph into a well-formed one.  Filling a
reserved node is the exception: it changes a node.  It is growth all the same when seen from
a graph that did not have the reserved node yet (`Grows.fill`).
-/

namespace ShapeFlow

namespace TypeGraph

/-- Everything that a graph has is found unchanged in a later one. -/
structure Grows (graph grown : TypeGraph) : Prop where
  node?_eq : ∀ type, graph.Has type → grown.node? type = graph.node? type
  bare : ∀ className type, grown.bare.get? className = some type →
    graph.bare.get? className = some type ∨ ¬ graph.Has type
  interned : ∀ entry ∈ grown.interned, entry ∈ graph.interned ∨ ¬ graph.Has entry.2

/-- Nothing in the graph leads outside of it, and its canonical types are what they are
taken for. -/
structure WellFormed (graph : TypeGraph) : Prop where
  closed : graph.Closed
  scalar : graph.node? scalar = some .scalar
  bare : ∀ className type, graph.bare.get? className = some type →
    graph.node? type = some (.object className ∅)
  interned : ∀ entry ∈ graph.interned, graph.Has entry.2

/-- A new graph has the primitive type alone. -/
theorem wellFormed_initial : ({} : TypeGraph).WellFormed where
  closed := by decide
  scalar := rfl
  bare _ _ hbare := nomatch hbare
  interned _ hmem := nomatch hmem

variable {graph grown later : TypeGraph}

namespace Grows

theorem refl (graph : TypeGraph) : graph.Grows graph where
  node?_eq _ _ := rfl
  bare _ _ hbare := Or.inl hbare
  interned _ hmem := Or.inl hmem

theorem node? (hgrows : graph.Grows grown) {type : TypeId} {node : TypeNode}
    (hnode : graph.node? type = some node) : grown.node? type = some node := by
  rw [hgrows.node?_eq type ((has_iff_exists_node graph type).mpr ⟨node, hnode⟩), hnode]

theorem has (hgrows : graph.Grows grown) {type : TypeId} (hhas : graph.Has type) :
    grown.Has type := by
  obtain ⟨node, hnode⟩ := (has_iff_exists_node graph type).mp hhas
  exact (has_iff_exists_node grown type).mpr ⟨node, hgrows.node? hnode⟩

theorem trans (hfirst : graph.Grows grown) (hsecond : grown.Grows later) :
    graph.Grows later where
  node?_eq type hhas := by
    rw [hsecond.node?_eq type (hfirst.has hhas), hfirst.node?_eq type hhas]
  bare className type hbare := by
    rcases hsecond.bare className type hbare with hgrown | hnew
    · exact hfirst.bare className type hgrown
    · exact Or.inr fun hhas => hnew (hfirst.has hhas)
  interned entry hmem := by
    rcases hsecond.interned entry hmem with hgrown | hnew
    · exact hfirst.interned entry hgrown
    · exact Or.inr fun hhas => hnew (hfirst.has hhas)

theorem className?_eq (hgrows : graph.Grows grown) {type : TypeId} (hhas : graph.Has type) :
    grown.className? type = graph.className? type := by
  rw [className?, className?, hgrows.node?_eq type hhas]

theorem field? (hgrows : graph.Grows grown) {type part : TypeId} {selector : Selector}
    (hfield : graph.field? type selector = some part) :
    grown.field? type selector = some part := by
  obtain ⟨node, hnode, hpart⟩ := field?_eq_some_iff.mp hfield
  rw [field?_eq_of_node? (hgrows.node? hnode), hpart]

theorem field?_eq (hgrows : graph.Grows grown) {type : TypeId} (hhas : graph.Has type)
    (selector : Selector) : grown.field? type selector = graph.field? type selector := by
  obtain ⟨node, hnode⟩ := (has_iff_exists_node graph type).mp hhas
  rw [field?_eq_of_node? hnode, field?_eq_of_node? (hgrows.node? hnode)]

/-- Types keep their unfoldings. -/
theorem sameUnfolding (hgrows : graph.Grows grown) (hclosed : graph.Closed) {type : TypeId}
    (hhas : graph.Has type) : SameUnfolding graph type grown type := by
  refine SameUnfolding.of_bisimulation
    (fun first second => first = second ∧ graph.Has first) ?_ ?_ ⟨rfl, hhas⟩
  · intro first second hpost
    obtain ⟨rfl, hfirst⟩ := hpost
    obtain ⟨node, hnode⟩ := (has_iff_exists_node graph first).mp hfirst
    exact ⟨node, node, hnode, hgrows.node? hnode, .refl node⟩
  · intro first second selector firstPart secondPart hpost hfirst hsecond
    obtain ⟨rfl, -⟩ := hpost
    rw [hgrows.field? hfirst, Option.some.injEq] at hsecond
    exact ⟨hsecond, hclosed.has_field? hfirst⟩

end Grows

theorem WellFormed.has_scalar (hwell : graph.WellFormed) : graph.Has TypeGraph.scalar :=
  (has_iff_exists_node graph TypeGraph.scalar).mpr ⟨_, hwell.scalar⟩

/-- The class of a type tells whether it is an object type. -/
theorem className?_eq_some_iff {type : TypeId} {className : String} :
    graph.className? type = some className ↔
      ∃ fields, graph.node? type = some (.object className fields) := by
  unfold className?
  cases hnode : graph.node? type with
  | none => simp
  | some node => cases node <;> simp [TypeNode.className?, eq_comm]

theorem has_of_className? {type : TypeId} {className : String}
    (hclass : graph.className? type = some className) : graph.Has type := by
  obtain ⟨fields, hnode⟩ := className?_eq_some_iff.mp hclass
  exact (has_iff_exists_node graph type).mpr ⟨_, hnode⟩

/-! ## Adding nodes -/

theorem node?_push (graph : TypeGraph) (node : TypeNode) (type : TypeId) :
    (graph.push node).2.node? type =
      if type = (graph.push node).1 then some node else graph.node? type := by
  obtain ⟨index⟩ := type
  simp only [push, node?, size, Array.getElem?_push, TypeId.mk.injEq]

theorem has_push_iff (graph : TypeGraph) (node : TypeNode) (type : TypeId) :
    (graph.push node).2.Has type ↔ type = (graph.push node).1 ∨ graph.Has type := by
  rw [has_iff_exists_node, has_iff_exists_node, node?_push]
  split <;> simp_all

theorem not_has_push_fst (graph : TypeGraph) (node : TypeNode) :
    ¬ graph.Has (graph.push node).1 := by
  simp [push, Has]

theorem Grows.push (graph : TypeGraph) (node : TypeNode) : graph.Grows (graph.push node).2 where
  node?_eq _ hhas := node?_push_of_has graph node hhas
  bare _ _ hbare := Or.inl hbare
  interned _ hmem := Or.inl hmem

theorem Closed.push (hclosed : graph.Closed) (node : TypeNode)
    (hparts : ∀ selector part, node.fields.get? selector = some part → graph.Has part) :
    (graph.push node).2.Closed := by
  intro type other hother selector part hpart
  rw [node?_push] at hother
  split at hother
  · rw [Option.some.injEq] at hother
    subst hother
    exact (Grows.push graph node).has (hparts selector part hpart)
  · exact (Grows.push graph node).has (hclosed hother hpart)

theorem WellFormed.push (hwell : graph.WellFormed) (node : TypeNode)
    (hparts : ∀ selector part, node.fields.get? selector = some part → graph.Has part) :
    (graph.push node).2.WellFormed where
  closed := hwell.closed.push node hparts
  scalar := (Grows.push graph node).node? hwell.scalar
  bare className type hbare := (Grows.push graph node).node? (hwell.bare className type hbare)
  interned entry hmem := (Grows.push graph node).has (hwell.interned entry hmem)

/-- The types that a field map names have nodes. -/
def HasParts (graph : TypeGraph) (fields : Fields) : Prop :=
  ∀ selector part, fields.get? selector = some part → graph.Has part

theorem hasParts_empty (graph : TypeGraph) : graph.HasParts ∅ := by
  intro selector part hpart
  rw [show (∅ : Fields).get? selector = none from rfl] at hpart
  exact nomatch hpart

theorem Closed.hasParts (hclosed : graph.Closed) {type : TypeId} {className : String}
    {fields : Fields} (hnode : graph.node? type = some (.object className fields)) :
    graph.HasParts fields := fun _ _ hpart => hclosed hnode hpart

theorem HasParts.mono {fields : Fields} (hparts : graph.HasParts fields)
    (hgrows : graph.Grows grown) : grown.HasParts fields := fun selector part hpart =>
  hgrows.has (hparts selector part hpart)

theorem HasParts.insert {fields : Fields} (hparts : graph.HasParts fields) {part : TypeId}
    (hpart : graph.Has part) (selector : Selector) :
    graph.HasParts (fields.insert selector part) := by
  intro other held hheld
  rw [OrderedMap.get?_insert] at hheld
  split at hheld
  · rw [Option.some.injEq] at hheld
    exact hheld ▸ hpart
  · exact hparts other held hheld

/-- What a building operation that answers an object type of a class makes of a graph. -/
structure Adds (graph : TypeGraph) (className : String) (result : TypeId × TypeGraph) :
    Prop where
  grows : graph.Grows result.2
  wellFormed : result.2.WellFormed
  className? : result.2.className? result.1 = some className

theorem Adds.has {className : String} {result : TypeId × TypeGraph}
    (hadds : graph.Adds className result) : result.2.Has result.1 :=
  has_of_className? hadds.className?

theorem plainObject_node? (hwell : graph.WellFormed) (className : String) :
    (graph.plainObject className).2.node? (graph.plainObject className).1 =
      some (.object className ∅) := by
  unfold plainObject
  split
  · rename_i type hbare
    exact hwell.bare className type hbare
  · exact node?_push_self graph _

theorem Grows.plainObject (graph : TypeGraph) (className : String) :
    graph.Grows (graph.plainObject className).2 := by
  unfold TypeGraph.plainObject
  split
  · exact .refl graph
  · have hgrows := Grows.push graph (.object className ∅)
    refine ⟨hgrows.node?_eq, fun other type hbare => ?_, hgrows.interned⟩
    simp only [OrderedMap.get?_insert] at hbare
    split at hbare
    · rw [Option.some.injEq] at hbare
      exact Or.inr (hbare ▸ not_has_push_fst graph _)
    · exact Or.inl hbare

theorem plainObject_adds (hwell : graph.WellFormed) (className : String) :
    graph.Adds className (graph.plainObject className) := by
  have hnode := plainObject_node? hwell className
  refine ⟨.plainObject graph className, ?_, className?_eq_some_iff.mpr ⟨∅, hnode⟩⟩
  unfold plainObject
  split
  · exact hwell
  · have hpushed := hwell.push (.object className ∅) (hasParts_empty graph)
    refine ⟨hpushed.closed, hpushed.scalar, fun other type hbare => ?_, hpushed.interned⟩
    simp only [OrderedMap.get?_insert] at hbare
    split at hbare
    · rename_i heq
      rw [Option.some.injEq] at hbare
      rw [heq, ← hbare]
      exact node?_push_self graph (.object className ∅)
    · exact hpushed.bare other type hbare

theorem findInterned?_className? {className : String} {fields : Fields} {type : TypeId}
    (hfound : graph.findInterned? className fields = some type) :
    graph.hasShape className fields type = true ∧ graph.className? type = some className := by
  obtain ⟨entry, hentry, rfl⟩ := Option.map_eq_some_iff.mp hfound
  have haccepted := List.find?_some hentry
  rw [Bool.and_eq_true] at haccepted
  refine ⟨haccepted.2, ?_⟩
  have hshape := haccepted.2
  unfold hasShape at hshape
  split at hshape
  · rename_i otherClass otherFields hnode
    simp only [Bool.and_eq_true, beq_iff_eq] at hshape
    exact className?_eq_some_iff.mpr ⟨otherFields, hshape.1.1 ▸ hnode⟩
  · simp at hshape

theorem Grows.intern (graph : TypeGraph) (className : String) (fields : Fields) :
    graph.Grows (graph.intern className fields).2 := by
  unfold TypeGraph.intern
  split
  · exact .plainObject graph className
  · split
    · exact .refl graph
    · have hgrows := Grows.push graph (.object className fields)
      refine ⟨hgrows.node?_eq, hgrows.bare, fun entry hmem => ?_⟩
      rcases List.mem_cons.mp hmem with rfl | hmem
      · exact Or.inr (not_has_push_fst graph (.object className fields))
      · exact Or.inl hmem

theorem intern_adds (hwell : graph.WellFormed) (className : String) {fields : Fields}
    (hparts : graph.HasParts fields) :
    graph.Adds className (graph.intern className fields) := by
  refine ⟨.intern graph className fields, ?_, ?_⟩
  all_goals
    unfold intern
    split
  · exact (plainObject_adds hwell className).wellFormed
  · split
    · exact hwell
    · have hpushed := hwell.push (.object className fields) hparts
      refine ⟨hpushed.closed, hpushed.scalar, hpushed.bare, fun entry hmem => ?_⟩
      rcases List.mem_cons.mp hmem with rfl | hmem
      · exact (has_push_iff graph (.object className fields) _).mpr (Or.inl rfl)
      · exact hpushed.interned entry hmem
  · exact (plainObject_adds hwell className).className?
  · split
    · rename_i type hfound
      exact (findInterned?_className? hfound).2
    · exact className?_eq_some_iff.mpr ⟨fields, node?_push_self graph _⟩

/-! ## Types that refer back to themselves -/

theorem node?_fill (graph : TypeGraph) (type other : TypeId) (fields : Fields) :
    (graph.fill type fields).node? other =
      if other = type then (graph.node? type).map fun
        | .scalar => .scalar
        | .object className _ => .object className fields
      else graph.node? other := by
  obtain ⟨index⟩ := type
  obtain ⟨otherIndex⟩ := other
  unfold fill
  split
  · rename_i className held hnode
    simp only [node?] at hnode
    have hlt := (Array.getElem?_eq_some_iff.mp hnode).1
    simp only [node?, Array.getElem?_setIfInBounds, TypeId.mk.injEq, hnode, Option.map_some]
    by_cases heq : index = otherIndex
    · simp [heq, heq ▸ hlt]
    · simp [heq, eq_comm]
  · rename_i hnode
    split
    · rename_i heq
      rw [heq]
      cases hat : graph.node? ⟨index⟩ with
      | none => rfl
      | some node =>
        cases node with
        | scalar => rfl
        | object className held => exact absurd hat (hnode className held)
    · rfl

theorem has_fill_iff (graph : TypeGraph) (type other : TypeId) (fields : Fields) :
    (graph.fill type fields).Has other ↔ graph.Has other := by
  rw [← node?_isSome_iff, ← node?_isSome_iff, node?_fill]
  split
  · rename_i heq
    simp [heq]
  · rfl

theorem bare_fill (graph : TypeGraph) (type : TypeId) (fields : Fields) :
    (graph.fill type fields).bare = graph.bare := by
  unfold fill
  split <;> rfl

theorem interned_fill (graph : TypeGraph) (type : TypeId) (fields : Fields) :
    (graph.fill type fields).interned = graph.interned := by
  unfold fill
  split <;> rfl

/-- Filling a node that an earlier graph did not have is growth of the earlier graph. -/
theorem Grows.fill (hgrows : graph.Grows grown) {type : TypeId} (hnew : ¬ graph.Has type)
    (fields : Fields) : graph.Grows (grown.fill type fields) where
  node?_eq other hhas := by
    have hne : other ≠ type := fun heq => hnew (heq ▸ hhas)
    rw [node?_fill, if_neg hne, hgrows.node?_eq other hhas]
  bare className other hbare := by
    rw [bare_fill] at hbare
    exact hgrows.bare className other hbare
  interned entry hmem := by
    rw [interned_fill] at hmem
    exact hgrows.interned entry hmem

theorem className?_fill (graph : TypeGraph) (type other : TypeId) (fields : Fields) :
    (graph.fill type fields).className? other = graph.className? other := by
  rw [className?, className?, node?_fill]
  split
  · rename_i heq
    rw [heq]
    cases graph.node? type with
    | none => rfl
    | some node => cases node <;> rfl
  · rfl

/-- Filling a node keeps a graph well-formed unless the node is a canonical type without
parts. -/
theorem WellFormed.fill (hwell : graph.WellFormed) {type : TypeId} {fields : Fields}
    (hparts : graph.HasParts fields)
    (hbare : ∀ className, graph.bare.get? className ≠ some type) :
    (graph.fill type fields).WellFormed where
  closed := by
    intro other node hnode selector part hpart
    rw [has_fill_iff]
    rw [node?_fill] at hnode
    split at hnode
    · obtain ⟨old, hold, rfl⟩ := Option.map_eq_some_iff.mp hnode
      cases old with
      | scalar => exact hwell.closed hold hpart
      | object className held => exact hparts selector part hpart
    · exact hwell.closed hnode hpart
  scalar := by
    rw [node?_fill]
    split
    · rename_i heq
      rw [← heq, hwell.scalar]
      rfl
    · exact hwell.scalar
  bare className other hother := by
    rw [bare_fill] at hother
    have hne : other ≠ type := fun heq => hbare className (heq ▸ hother)
    rw [node?_fill, if_neg hne, hwell.bare className other hother]
  interned entry hmem := by
    rw [has_fill_iff]
    rw [interned_fill] at hmem
    exact hwell.interned entry hmem

/-! ## Binding parts -/

theorem Grows.bindField? {type part : TypeId} {selector : Selector} {result : TypeId × TypeGraph}
    (hbind : graph.bindField? type selector part = some result) : graph.Grows result.2 := by
  unfold TypeGraph.bindField? at hbind
  split at hbind
  · rw [Option.some.injEq] at hbind
    subst hbind
    exact .intern graph _ _
  · simp at hbind

theorem Grows.bindAt? {type part : TypeId} {selectors : List Selector}
    {result : TypeId × TypeGraph}
    (hbind : graph.bindAt? type selectors part = some result) : graph.Grows result.2 := by
  induction selectors generalizing graph type result with
  | nil =>
    obtain rfl := Option.some.inj hbind
    exact .refl graph
  | cons selector rest ih =>
    cases rest with
    | nil => exact .bindField? hbind
    | cons second rest =>
      simp only [TypeGraph.bindAt?, Option.bind_eq_bind, Option.bind_eq_some_iff] at hbind
      obtain ⟨inner, -, rebuilt, hinner, hbind⟩ := hbind
      exact (ih hinner).trans (.bindField? hbind)

theorem bindField?_adds (hwell : graph.WellFormed) {type part : TypeId} {selector : Selector}
    {result : TypeId × TypeGraph} (hpart : graph.Has part)
    (hbind : graph.bindField? type selector part = some result) :
    ∃ className, graph.className? type = some className ∧ graph.Adds className result := by
  unfold bindField? at hbind
  split at hbind
  · rename_i className fields hnode
    rw [Option.some.injEq] at hbind
    subst hbind
    refine ⟨className, className?_eq_some_iff.mpr ⟨fields, hnode⟩, intern_adds hwell className ?_⟩
    exact (hwell.closed.hasParts hnode).insert hpart selector
  · simp at hbind

/-- Rebuilding an object type along a chain of selectors keeps its class. -/
theorem bindAt?_adds (hwell : graph.WellFormed) {type part : TypeId} {selectors : List Selector}
    {result : TypeId × TypeGraph} (hpart : graph.Has part) (hselectors : selectors ≠ [])
    (hbind : graph.bindAt? type selectors part = some result) :
    ∃ className, graph.className? type = some className ∧ graph.Adds className result := by
  induction selectors generalizing graph type result with
  | nil => exact absurd rfl hselectors
  | cons selector rest ih =>
    cases rest with
    | nil => exact bindField?_adds hwell hpart hbind
    | cons second rest =>
      simp only [bindAt?, Option.bind_eq_bind, Option.bind_eq_some_iff] at hbind
      obtain ⟨inner, hfield, ⟨rebuilt, grown⟩, hinner, hbind⟩ := hbind
      obtain ⟨innerClass, -, hadds⟩ := ih hwell hpart (List.cons_ne_nil second rest) hinner
      obtain ⟨className, hclass, hresult⟩ := bindField?_adds hadds.wellFormed hadds.has hbind
      obtain ⟨node, hnode, -⟩ := field?_eq_some_iff.mp hfield
      have hhas := (has_iff_exists_node graph type).mpr ⟨node, hnode⟩
      exact ⟨className, (hadds.grows.className?_eq hhas).symm.trans hclass,
        hadds.grows.trans hresult.grows, hresult.wellFormed, hresult.className?⟩

end TypeGraph

end ShapeFlow
