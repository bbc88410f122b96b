import Mathlib.Data.List.Nodup
import ShapeFlow.Proofs.Unfolding
import ShapeFlow.TypeGraph.Sketch

/-!
# Sketches of types

A sketch looks one step ahead and lists the parts by their selectors, so it does not depend on
the names of types or on the order in which parts were bound: types with the same unfolding
have the same sketch, also in different graphs (`TypeGraph.SameUnfolding.sketch?_eq`).

The parts are listed by insertion.  Two lists with the same entries, at most one for each
selector, are listed in the same way, since both results are sorted and have the same entries.
-/

namespace ShapeFlow

namespace Selector

theorem precedes_field_iff (name other : String) :
    (field name).precedes (field other) = true ↔ compare name other = .lt := by
  simp [precedes, order]

theorem precedes_trans {first second third : Selector} (hfirst : first.precedes second = true)
    (hsecond : second.precedes third = true) : first.precedes third = true := by
  cases first with
  | element => cases second <;> exact nomatch hfirst
  | field name =>
    cases third with
    | element => rfl
    | field last =>
      cases second with
      | element => exact nomatch hsecond
      | field other =>
        rw [precedes_field_iff] at hfirst hsecond ⊢
        exact Std.TransCmp.lt_trans hfirst hsecond

theorem precedes_irrefl (selector : Selector) : selector.precedes selector = false := by
  cases selector with
  | element => rfl
  | field name => simp [precedes, order]

theorem precedes_or_eq_or (left right : Selector) :
    left.precedes right = true ∨ left = right ∨ right.precedes left = true := by
  cases left with
  | element =>
    cases right with
    | element => exact Or.inr (Or.inl rfl)
    | field name => exact Or.inr (Or.inr rfl)
  | field name =>
    cases right with
    | element => exact Or.inl rfl
    | field other =>
      rw [precedes_field_iff, precedes_field_iff]
      cases hcompare : compare name other with
      | lt => exact Or.inl rfl
      | eq => exact Or.inr (Or.inl (congrArg field (Std.LawfulEqCmp.eq_of_compare hcompare)))
      | gt => exact Or.inr (Or.inr (Std.OrientedCmp.lt_of_gt hcompare))

end Selector

namespace Sketch

variable {α : Type} {entry : Selector × α} {entries : List (Selector × α)}

/-- The entries are listed by their selectors, each selector once. -/
def Arranged (entries : List (Selector × α)) : Prop :=
  entries.Pairwise fun first second => first.1.precedes second.1 = true

theorem place_perm (entry : Selector × α) (entries : List (Selector × α)) :
    (place entry entries).Perm (entry :: entries) := by
  induction entries with
  | nil => exact .refl _
  | cons first rest ih =>
    unfold place
    split
    · exact (ih.cons first).trans (.swap entry first rest)
    · exact .refl _

theorem arrange_perm (entries : List (Selector × α)) : (arrange entries).Perm entries := by
  induction entries with
  | nil => exact .refl _
  | cons entry rest ih => exact (place_perm entry (arrange rest)).trans (ih.cons entry)

theorem Arranged.place (harranged : Arranged entries) (hnew : entry.1 ∉ entries.map Prod.fst) :
    Arranged (Sketch.place entry entries) := by
  induction entries with
  | nil => exact List.pairwise_singleton _ _
  | cons first rest ih =>
    obtain ⟨hfirst, hrest⟩ := List.pairwise_cons.mp harranged
    rw [List.map_cons, List.mem_cons, not_or] at hnew
    unfold Sketch.place
    split
    · rename_i hprecedes
      refine List.pairwise_cons.mpr ⟨fun other hother => ?_, ih hrest hnew.2⟩
      rcases List.mem_cons.mp ((place_perm entry rest).mem_iff.mp hother) with rfl | hmem
      · exact hprecedes
      · exact hfirst other hmem
    · rename_i hprecedes
      have hbefore : entry.1.precedes first.1 = true := by
        rcases Selector.precedes_or_eq_or entry.1 first.1 with hlt | heq | hgt
        · exact hlt
        · exact absurd heq hnew.1
        · exact absurd hgt hprecedes
      refine List.pairwise_cons.mpr ⟨fun other hother => ?_, harranged⟩
      rcases List.mem_cons.mp hother with rfl | hmem
      · exact hbefore
      · exact Selector.precedes_trans hbefore (hfirst other hmem)

theorem arranged_arrange (hnodup : (entries.map Prod.fst).Nodup) : Arranged (arrange entries) := by
  induction entries with
  | nil => exact List.Pairwise.nil
  | cons entry rest ih =>
    rw [List.map_cons, List.nodup_cons] at hnodup
    refine (ih hnodup.2).place ?_
    rw [((arrange_perm rest).map Prod.fst).mem_iff]
    exact hnodup.1

/-- How entries are listed does not depend on the order in which they are given. -/
theorem arrange_eq_of_perm {others : List (Selector × α)} (hperm : entries.Perm others)
    (hnodup : (entries.map Prod.fst).Nodup) : arrange entries = arrange others := by
  have hnodup' : (others.map Prod.fst).Nodup := (hperm.map Prod.fst).nodup_iff.mp hnodup
  have harranged : (arrange entries).Perm (arrange others) :=
    calc (arrange entries).Perm entries := arrange_perm entries
      entries.Perm others := hperm
      others.Perm (arrange others) := (arrange_perm others).symm
  refine List.Perm.eq_of_pairwise ?_ (arranged_arrange hnodup) (arranged_arrange hnodup')
    harranged
  intro first second _ _ hlt hgt
  have hself := Selector.precedes_trans hlt hgt
  rw [Selector.precedes_irrefl] at hself
  exact nomatch hself

end Sketch

namespace TypeGraph

variable {left right : TypeGraph} {type other : TypeId}

theorem SameUnfolding.size_eq (hsame : SameUnfolding left type right other) :
    (left.fields type).size = (right.fields other).size := by
  obtain ⟨node, node', hnode, hnode', halike⟩ := hsame.alike
  have hperm : node.fields.keys.Perm node'.fields.keys :=
    (List.perm_ext_iff_of_nodup node.fields.nodup_keys node'.fields.nodup_keys).mpr
      halike.mem_keys_iff
  have hlength := hperm.length_eq
  simpa [fields, hnode, hnode', OrderedMap.size, OrderedMap.keys] using hlength

theorem SameUnfolding.outline_eq (hsame : SameUnfolding left type right other) :
    (left.node? type).map TypeNode.outline = (right.node? other).map TypeNode.outline := by
  have hsize := hsame.size_eq
  obtain ⟨node, node', hnode, hnode', halike⟩ := hsame.alike
  simp only [fields, hnode, hnode', Option.map_some, Option.getD_some] at hsize ⊢
  rw [TypeNode.outline, TypeNode.outline, halike.className?_eq, hsize]

/-- What a sketch tells of the parts of a node, in the order in which they were bound. -/
def outlines (graph : TypeGraph) (node : TypeNode) : List (Selector × Option Outline) :=
  node.fields.entries.map fun entry => (entry.1, (graph.node? entry.2).map TypeNode.outline)

theorem nodup_outlines (graph : TypeGraph) (node : TypeNode) :
    ((graph.outlines node).map Prod.fst).Nodup := by
  have hkeys : (graph.outlines node).map Prod.fst = node.fields.keys := by
    simp [outlines, OrderedMap.keys]
  exact hkeys ▸ node.fields.nodup_keys

theorem mem_outlines_iff {graph : TypeGraph} {node : TypeNode} {selector : Selector}
    {outline? : Option Outline} : (selector, outline?) ∈ graph.outlines node ↔
      ∃ part, node.fields.get? selector = some part ∧
        (graph.node? part).map TypeNode.outline = outline? := by
  simp only [outlines, List.mem_map, Prod.mk.injEq, Prod.exists, OrderedMap.get?_eq_some_iff]
  constructor
  · intro hmem
    obtain ⟨_, part, hentry, rfl, houtline⟩ := hmem
    exact ⟨part, hentry, houtline⟩
  · intro hpart
    obtain ⟨part, hentry, houtline⟩ := hpart
    exact ⟨selector, part, hentry, rfl, houtline⟩

theorem SameUnfolding.mem_outlines (hsame : SameUnfolding left type right other)
    {node node' : TypeNode} (hnode : left.node? type = some node)
    (hnode' : right.node? other = some node') {listed : Selector × Option Outline}
    (hmem : listed ∈ left.outlines node) : listed ∈ right.outlines node' := by
  obtain ⟨part, hpart, houtline⟩ := mem_outlines_iff.mp hmem
  rw [← field?_eq_of_node? hnode] at hpart
  obtain ⟨part', hpart', hsame'⟩ := hsame.exists_part hpart
  rw [field?_eq_of_node? hnode'] at hpart'
  exact mem_outlines_iff.mpr ⟨part', hpart', hsame'.outline_eq.symm.trans houtline⟩

/-- Types with the same unfolding have the same sketch. -/
theorem SameUnfolding.sketch?_eq (hsame : SameUnfolding left type right other) :
    left.sketch? type = right.sketch? other := by
  have houtline := hsame.outline_eq
  obtain ⟨node, node', hnode, hnode', -⟩ := hsame.alike
  rw [hnode, hnode', Option.map_some, Option.map_some, Option.some.injEq] at houtline
  have hperm : (left.outlines node).Perm (right.outlines node') := by
    refine (List.perm_ext_iff_of_nodup (List.Nodup.of_map Prod.fst (nodup_outlines left node))
      (List.Nodup.of_map Prod.fst (nodup_outlines right node'))).mpr fun listed => ?_
    exact ⟨hsame.mem_outlines hnode hnode', hsame.symm.mem_outlines hnode' hnode⟩
  have hlisted := Sketch.arrange_eq_of_perm hperm (nodup_outlines left node)
  simp only [sketch?, hnode, hnode', Option.map_some, sketchNode, houtline]
  rw [outlines, outlines] at hlisted
  rw [hlisted]

end TypeGraph

end ShapeFlow
