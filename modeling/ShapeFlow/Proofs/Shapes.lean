import ShapeFlow.Proofs.RegimeAnalyses

/-!
# Graphs of admitted shapes

`Shapes` fixes which classes there may be and which parts their objects may have.  A graph of types
conforms to the shapes if all its object types do.  Building keeps that: a new node has the class
and the parts that it is built with, and a node that is rebuilt has one more part, the one that is
bound.  So only the part at the end of a chain has to be admitted for the chain to be rebuilt
(`TypeGraph.Conforms.bindAt?`).
-/

namespace ShapeFlow

/-- Which classes there may be, and which parts objects of a class may have. -/
structure Shapes where
  Class : String → Prop
  Part : String → Selector → Prop

/-- Everything is admitted. -/
def Shapes.all : Shapes := ⟨fun _ => True, fun _ _ => True⟩

/-- What is declared is admitted. -/
structure Shapes.Admit (shapes : Shapes) (declarations : Declarations) : Prop where
  classes : ∀ className, (declarations.class? className).isSome = true → shapes.Class className
  parts : ∀ className selector, declarations.declares className selector = true →
    shapes.Part className selector
  elements : shapes.Part Declarations.arrayName .element

theorem Shapes.admit_all (declarations : Declarations) : Shapes.all.Admit declarations :=
  ⟨fun _ _ => trivial, fun _ _ _ => trivial, trivial⟩

namespace TypeGraph

variable {shapes : Shapes} {graph grown : TypeGraph} {className : String} {fields : Fields}
  {type part : TypeId} {selector : Selector}

/-- The class and the parts of all object types are admitted. -/
structure Conforms (shapes : Shapes) (graph : TypeGraph) : Prop where
  classes : ∀ type className fields, graph.node? type = some (.object className fields) →
    shapes.Class className
  parts : ∀ type className fields selector part,
    graph.node? type = some (.object className fields) → fields.get? selector = some part →
      shapes.Part className selector

theorem conforms_all (graph : TypeGraph) : graph.Conforms .all :=
  ⟨fun _ _ _ _ => trivial, fun _ _ _ _ _ _ _ => trivial⟩

/-- A new graph has no object types. -/
theorem conforms_initial (shapes : Shapes) : ({} : TypeGraph).Conforms shapes := by
  have hscalar : ∀ type className fields,
      ({} : TypeGraph).node? type ≠ some (.object className fields) := by
    intro type className fields hnode
    obtain ⟨hlt, hnode⟩ := Array.getElem?_eq_some_iff.mp hnode
    have hindex : type.index = 0 := Nat.lt_one_iff.mp hlt
    simp [hindex] at hnode
  exact ⟨fun type className fields hnode => absurd hnode (hscalar type className fields),
    fun type className fields _ _ hnode => absurd hnode (hscalar type className fields)⟩

namespace Conforms

/-- A graph with one more node conforms if the node does. -/
theorem of_added (hconforms : graph.Conforms shapes) (hclass : shapes.Class className)
    (hparts : ∀ selector part, fields.get? selector = some part → shapes.Part className selector)
    (hnodes : ∀ type node, grown.node? type = some node →
      graph.node? type = some node ∨ node = .object className fields) :
    grown.Conforms shapes where
  classes type other held hnode := by
    rcases hnodes type _ hnode with hold | hnew
    · exact hconforms.classes type other held hold
    · cases hnew
      exact hclass
  parts type other held selector part hnode hpart := by
    rcases hnodes type _ hnode with hold | hnew
    · exact hconforms.parts type other held selector part hold hpart
    · cases hnew
      exact hparts selector part hpart

theorem node?_push {node added : TypeNode} (hnode : (graph.push added).2.node? type = some node) :
    graph.node? type = some node ∨ node = added := by
  simp only [TypeGraph.node?, TypeGraph.push, Array.getElem?_push] at hnode
  split at hnode
  · exact Or.inr (Option.some.inj hnode).symm
  · exact Or.inl hnode

theorem reserve (hconforms : graph.Conforms shapes) (hclass : shapes.Class className) :
    (graph.reserve className).2.Conforms shapes :=
  hconforms.of_added hclass (fun _ _ hpart => absurd hpart (by simp)) fun _ _ hnode =>
    node?_push hnode

theorem plainObject (hconforms : graph.Conforms shapes) (hclass : shapes.Class className) :
    (graph.plainObject className).2.Conforms shapes := by
  unfold TypeGraph.plainObject
  split
  · exact hconforms
  · exact hconforms.of_added hclass (fun _ _ hpart => absurd hpart (by simp)) fun _ _ hnode =>
      node?_push hnode

theorem intern (hconforms : graph.Conforms shapes) (hclass : shapes.Class className)
    (hparts : ∀ selector part, fields.get? selector = some part →
      shapes.Part className selector) :
    (graph.intern className fields).2.Conforms shapes := by
  unfold TypeGraph.intern
  split
  · exact hconforms.plainObject hclass
  · split
    · exact hconforms
    · exact hconforms.of_added hclass hparts fun _ _ hnode => node?_push hnode

/-- A reserved node is filled with parts that its class may have. -/
theorem fill (hconforms : graph.Conforms shapes) (hclass : graph.className? type = some className)
    (hparts : ∀ selector part, fields.get? selector = some part →
      shapes.Part className selector) :
    (graph.fill type fields).Conforms shapes := by
  obtain ⟨held, hheld⟩ := className?_eq_some_iff.mp hclass
  refine hconforms.of_added (hconforms.classes type className held hheld) hparts ?_
  intro other node hnode
  rw [node?_fill, hheld] at hnode
  split at hnode
  · exact Or.inr (Option.some.inj hnode).symm
  · exact Or.inl hnode

theorem bindField? (hconforms : graph.Conforms shapes)
    (hpart : ∀ className, graph.className? type = some className → shapes.Part className selector)
    {result : TypeId × TypeGraph} (hbind : graph.bindField? type selector part = some result) :
    result.2.Conforms shapes := by
  unfold TypeGraph.bindField? at hbind
  split at hbind
  · rename_i className fields hnode
    obtain rfl := Option.some.inj hbind
    refine hconforms.intern (hconforms.classes type className fields hnode) ?_
    intro other held hheld
    rw [OrderedMap.get?_insert] at hheld
    split at hheld
    · rename_i heq
      exact heq ▸ hpart className (className?_eq_some_iff.mpr ⟨fields, hnode⟩)
    · exact hconforms.parts type className fields other held hnode hheld
  · exact nomatch hbind

/-- A chain is rebuilt whose last part is one that the object there may have. -/
theorem bindAt? (hconforms : graph.Conforms shapes) {selectors : List Selector}
    (hlast : ∀ chain last className, selectors = chain ++ [last] →
      graph.classAt? type chain = some className → shapes.Part className last)
    {result : TypeId × TypeGraph} (hbind : graph.bindAt? type selectors part = some result) :
    result.2.Conforms shapes := by
  induction selectors generalizing type result with
  | nil =>
    obtain rfl := Option.some.inj hbind
    exact hconforms
  | cons selector rest ih =>
    obtain ⟨inner, rebuilt, hinner, hrebuilt, hbound⟩ := exists_of_bindAt?_cons hbind
    cases rest with
    | nil =>
      obtain rfl := Option.some.inj hrebuilt
      exact hconforms.bindField? (fun className hclass => hlast [] selector className rfl hclass)
        hbound
    | cons next rest =>
      have hfield := hinner (List.cons_ne_nil next rest)
      have hgrown : rebuilt.2.Conforms shapes := by
        refine ih (fun chain last className heq hclass => ?_) hrebuilt
        refine hlast (selector :: chain) last className (congrArg (selector :: ·) heq) ?_
        rw [classAt?_cons, hfield]
        exact hclass
      -- The object on the way has had this part before.
      refine hgrown.bindField? (fun className hclass => ?_) hbound
      obtain ⟨node, hnode, hpart⟩ := field?_eq_some_iff.mp hfield
      rw [(Grows.bindAt? hrebuilt).className?_eq
        ((has_iff_exists_node graph type).mpr ⟨node, hnode⟩)] at hclass
      obtain ⟨fields, hobject⟩ := className?_eq_some_iff.mp hclass
      obtain rfl := Option.some.inj (hnode.symm.trans hobject)
      exact hconforms.parts type className fields selector inner hobject hpart

end Conforms

end TypeGraph

end ShapeFlow
