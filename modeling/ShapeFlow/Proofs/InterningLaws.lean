import ShapeFlow.Proofs.AnalyzedOnce
import ShapeFlow.Proofs.CanonicalBodies

/-!
# The laws of interning

In every reachable engine the canonical types are those that interning answers, two of them are
equal exactly when they have one shape, and they stay canonical whatever the engine is used for
next.  The laws of binding follow: what two bindings in a row lead to depends only on the parts
that are bound in the end, so bindings of different selectors commute and a later binding of a
selector overrides an earlier one.
-/

namespace ShapeFlow

namespace TypeGraph

variable {graph grown : TypeGraph} {className : String} {fields : Fields} {type part : TypeId}
  {selector : Selector}

/-- Canonical types are those that interning answers without adding a type. -/
theorem canonical_iff_exists_intern (hwell : graph.WellFormed) (htidy : graph.Tidy) :
    graph.Canonical type ↔ ∃ className fields, graph.HasParts fields ∧
      graph.intern className fields = (type, graph) := by
  constructor
  · intro hcanonical
    obtain ⟨className, fields, hnode⟩ := hcanonical.exists_node? hwell htidy
    have hparts := hwell.closed.hasParts hnode
    exact ⟨className, fields, hparts,
      hcanonical.intern_eq htidy hwell hparts (.of_node? hwell.closed hnode)⟩
  · intro hintern
    obtain ⟨className, fields, -, hintern⟩ := hintern
    have hcanonical := intern_canonical graph className fields
    rwa [hintern] at hcanonical

/-- A binding that leads from one type to a canonical one that shows the new part as well. -/
theorem LooksLike.exists_bindField? (hlooks : graph.LooksLike type className fields)
    (hwell : graph.WellFormed) (hpart : graph.Has part) (selector : Selector) :
    ∃ result, graph.bindField? type selector part = some result ∧ graph.Builds result.2 ∧
      result.2.Canonical result.1 ∧
        result.2.LooksLike result.1 className (fields.insert selector part) := by
  obtain ⟨held, hnode, -, -⟩ := id hlooks
  have hbind : graph.bindField? type selector part =
      some (graph.intern className (held.insert selector part)) := by
    simp only [TypeGraph.bindField?, hnode]
  exact ⟨_, hbind, .bindField hpart hbind, bindField?_canonical hbind,
    hlooks.bindField? hwell hpart hbind⟩

/-- Bind one part of a type and then another. -/
def bindTwo? (graph : TypeGraph) (type : TypeId) (first second : Selector × TypeId) :
    Option (TypeId × TypeGraph) :=
  (graph.bindField? type first.1 first.2).bind fun once =>
    once.2.bindField? once.1 second.1 second.2

theorem LooksLike.exists_bindTwo? (hlooks : graph.LooksLike type className fields)
    (hwell : graph.WellFormed) {first second : Selector × TypeId} (hfirst : graph.Has first.2)
    (hsecond : graph.Has second.2) :
    ∃ both, graph.bindTwo? type first second = some both ∧
      Relation.ReflTransGen Builds graph both.2 ∧ both.2.Canonical both.1 ∧
        both.2.LooksLike both.1 className
          ((fields.insert first.1 first.2).insert second.1 second.2) := by
  obtain ⟨once, honce, hbuilds, -, hlooks'⟩ := hlooks.exists_bindField? hwell hfirst first.1
  obtain ⟨both, hboth, hbuilds', hcanonical, hlooks''⟩ :=
    hlooks'.exists_bindField? (hbuilds.wellFormed hwell) (hbuilds.grows.has hsecond) second.1
  exact ⟨both, by rw [bindTwo?, honce, Option.bind_some, hboth],
    .tail (.single hbuilds) hbuilds', hcanonical, hlooks''⟩

/-- What a type looks like depends only on the parts of the node, not on their order. -/
theorem LooksLike.congr (hlooks : graph.LooksLike type className fields) {others : Fields}
    (hsame : ∀ selector, fields.get? selector = others.get? selector) :
    graph.LooksLike type className others := by
  obtain ⟨held, hnode, hkeys, hlike⟩ := hlooks
  refine ⟨held, hnode, fun selector => ?_, fun selector part other hpart hother => ?_⟩
  · rw [hkeys selector, OrderedMap.mem_keys_iff, OrderedMap.mem_keys_iff, hsame selector]
  · exact hlike selector part other ((hsame selector).trans hpart) hother

/-- A canonical type that shows the node with a part bound is what binding the part answers. -/
theorem Canonical.bindField?_eq_of_looksLike (hcanonical : graph.Canonical type)
    (htidy : graph.Tidy) (hwell : graph.WellFormed) {base : TypeId} (hpart : graph.Has part)
    (hnode : graph.node? base = some (.object className fields))
    (hlooks : graph.LooksLike type className (fields.insert selector part)) :
    graph.bindField? base selector part = some (type, graph) := by
  have hparts := (hwell.closed.hasParts hnode).insert hpart selector
  simp only [TypeGraph.bindField?, hnode, hcanonical.intern_eq htidy hwell hparts hlooks]

end TypeGraph

/-! ## Steps of engines -/

namespace Engine

variable {engine later : Engine}

theorem graph_analyze (engine : Engine) (target : DefId) (arguments : List TypeId) :
    (engine.analyze target arguments).2.graph = (endOf (ShapeFlow.analyze engine.declarations
      engine.limit engine.limit target arguments engine.knowledge)).graph := by
  unfold Engine.analyze
  cases ShapeFlow.analyze engine.declarations engine.limit engine.limit target arguments
    engine.knowledge <;> rfl

/-- One use of an engine keeps the canonical types, and a tidy graph tidy. -/
theorem Step.tidies (hstep : engine.Step later)
    (hsound : engine.knowledge.Sound engine.declarations) : engine.graph.Tidies later.graph := by
  cases hstep with
  | object className => exact TypeGraph.plainObject_tidies hsound.graph className
  | bindField type part selector result hpart hbind =>
    exact TypeGraph.bindField?_tidies hsound.graph hpart hbind
  | bindAt type part selectors result hpart hbind =>
    exact TypeGraph.bindAt?_tidies hsound.graph hpart hbind
  | analyze target arguments harguments =>
    rw [graph_analyze]
    exact (analyze_tidy engine.limit engine.limit).tidies target arguments engine.knowledge hsound
      harguments

theorem Step.of_builds {grown : TypeGraph} (hbuilds : engine.graph.Builds grown) :
    engine.Step (engine.withGraph grown) := by
  cases hbuilds with
  | plainObject className => exact .object engine className
  | bindField hpart hbind => exact .bindField engine _ _ _ _ hpart hbind
  | bindAt hpart hbind => exact .bindAt engine _ _ _ _ hpart hbind

theorem steps_of_builds {grown : TypeGraph}
    (hbuilt : Relation.ReflTransGen TypeGraph.Builds engine.graph grown) :
    Relation.ReflTransGen Step engine (engine.withGraph grown) := by
  induction hbuilt with
  | refl => exact .refl
  | tail _ hbuilds ih => exact ih.tail (.of_builds hbuilds)

/-- The types grow from engine to engine, and canonical types stay canonical. -/
theorem tidies_of_steps (hsound : engine.knowledge.Sound engine.declarations)
    (hsteps : Relation.ReflTransGen Step engine later) :
    later.knowledge.Sound later.declarations ∧ engine.graph.Grows later.graph ∧
      engine.graph.Tidies later.graph := by
  induction hsteps with
  | refl => exact ⟨hsound, .refl _, .refl _⟩
  | tail _ hstep ih =>
    obtain ⟨hbefore, hgrows, htidies⟩ := ih
    obtain ⟨hdeclarations, hlearns, hafter⟩ := hstep.learns hbefore
    exact ⟨hdeclarations ▸ hafter, hgrows.trans hlearns.graph,
      htidies.trans (hstep.tidies hbefore)⟩

theorem Reachable.tidy {program : Program} {limit : Nat}
    (hreachable : Reachable program limit engine) :
    engine.graph.WellFormed ∧ engine.graph.Tidy := by
  obtain ⟨hsound, -, htidies⟩ := tidies_of_steps (sound_initial _) hreachable
  exact ⟨hsound.graph, htidies.tidy TypeGraph.tidy_initial⟩

end Engine

namespace Engine

variable {program : Program} {limit : Nat} {engine later : Engine}

open Relation (ReflTransGen)
open TypeGraph (scalar)

section Laws

variable (hreachable : Reachable program limit engine)

include hreachable

/-- Binding a part again, at whatever later time, answers the same type and adds nothing. -/
theorem Reachable.bindField?_stable {type part : TypeId} {selector : Selector}
    {result : TypeId × TypeGraph} (hpart : engine.graph.Has part)
    (hbind : engine.graph.bindField? type selector part = some result)
    (hsteps : ReflTransGen Step (engine.withGraph result.2) later) :
    later.graph.Canonical result.1 ∧
      later.graph.bindField? type selector part = some (result.1, later.graph) := by
  have hstep : engine.Step (engine.withGraph result.2) := .bindField engine _ _ _ _ hpart hbind
  have hafter : Reachable program limit (engine.withGraph result.2) := hreachable.tail hstep
  obtain ⟨-, hgrows, htidies⟩ := tidies_of_steps hafter.idle.2.sound hsteps
  have hcanonical := htidies.canonical (TypeGraph.bindField?_canonical hbind)
  have hlater : Reachable program limit later := hafter.trans hsteps
  obtain ⟨hwell, htidy⟩ := hlater.tidy
  obtain ⟨className, fields, hnode⟩ : ∃ className fields,
      engine.graph.node? type = some (.object className fields) := by
    unfold TypeGraph.bindField? at hbind
    split at hbind
    · exact ⟨_, _, ‹_›⟩
    · exact nomatch hbind
  have hwell' := hreachable.tidy.1
  have hgrown := (TypeGraph.Grows.bindField? hbind).trans hgrows
  have hlooks := (TypeGraph.LooksLike.of_node? hwell'.closed hnode).bindField? hwell' hpart hbind
  exact ⟨hcanonical, hcanonical.bindField?_eq_of_looksLike htidy hwell (hgrown.has hpart)
    (hgrown.node? hnode) (hlooks.mono hgrows)⟩

/-- Two bindings in a row lead to the type that the same bindings lead to later in the other
order, or that the second one leads to alone if it overrides the first. -/
theorem Reachable.exists_bindTwo? {type : TypeId} {className : String}
    (hclass : engine.graph.className? type = some className) {first second : Selector × TypeId}
    (hfirst : engine.graph.Has first.2) (hsecond : engine.graph.Has second.2) :
    ∃ both, engine.graph.bindTwo? type first second = some both ∧
      ∀ later, ReflTransGen Step (engine.withGraph both.2) later →
        (first.1 ≠ second.1 → ∃ swapped,
          later.graph.bindTwo? type second first = some swapped ∧ swapped.1 = both.1) ∧
        (first.1 = second.1 →
          later.graph.bindField? type second.1 second.2 = some (both.1, later.graph)) := by
  obtain ⟨hwell, -⟩ := hreachable.tidy
  obtain ⟨fields, hnode⟩ := TypeGraph.className?_eq_some_iff.mp hclass
  obtain ⟨both, hboth, hbuilt, hcanonical, hlooks⟩ :=
    (TypeGraph.LooksLike.of_node? hwell.closed hnode).exists_bindTwo? hwell hfirst hsecond
  refine ⟨both, hboth, fun later hsteps => ?_⟩
  have hall := (steps_of_builds hbuilt).trans hsteps
  obtain ⟨-, hgrows, -⟩ := tidies_of_steps hreachable.idle.2.sound hall
  have hafter : Reachable program limit (engine.withGraph both.2) :=
    hreachable.trans (steps_of_builds hbuilt)
  obtain ⟨-, hgrows', htidies⟩ := tidies_of_steps hafter.idle.2.sound hsteps
  have hlater : Reachable program limit later := hafter.trans hsteps
  obtain ⟨hwell', htidy'⟩ := hlater.tidy
  have hheld := htidies.canonical hcanonical
  have hshown := hlooks.mono hgrows'
  have hnode' := hgrows.node? hnode
  constructor
  · intro hne
    obtain ⟨swapped, hswapped, hbuilt', hcanonical', hlooks'⟩ :=
      (TypeGraph.LooksLike.of_node? hwell'.closed hnode').exists_bindTwo? hwell'
        (hgrows.has hsecond) (hgrows.has hfirst)
    have hswaps := steps_of_builds hbuilt'
    obtain ⟨-, hgrows'', htidies''⟩ := tidies_of_steps hlater.idle.2.sound hswaps
    have hlast : Reachable program limit (later.withGraph swapped.2) := hlater.trans hswaps
    obtain ⟨hwell'', htidy''⟩ := hlast.tidy
    refine ⟨swapped, hswapped, ?_⟩
    have hparts := (((hwell'.closed.hasParts hnode').insert (hgrows.has hsecond) second.1).insert
      (hgrows.has hfirst) first.1).mono hgrows''
    refine hcanonical'.eq_of_looksLike htidy'' hwell'' (htidies''.canonical hheld) hlooks'
      (hshown.mono hgrows'') hparts fun selector => ?_
    simp only [OrderedMap.get?_insert]
    split
    · rename_i heq
      rw [if_neg (heq ▸ hne)]
    · rfl
  · intro heq
    refine hheld.bindField?_eq_of_looksLike htidy' hwell' (hgrows.has hsecond) hnode'
      (hshown.congr fun selector => ?_)
    simp only [OrderedMap.get?_insert, heq]
    split <;> rfl

end Laws

/-- In every reachable engine the canonical types are those that interning answers, and they are
equal exactly when they have one shape.  They stay canonical, and binding a part again answers the
same type.  Bindings of different selectors commute, a later binding of a selector overrides an
earlier one, and binding a part of a canonical type to what it is already adds nothing.  Where
types are built from the outside alone, every two types are equal exactly when they have one
shape. -/
theorem reachable_interning_canonical (hreachable : Reachable program limit engine) :
    (∀ type, engine.graph.Canonical type ↔ ∃ className fields,
      engine.graph.HasParts fields ∧
        engine.graph.intern className fields = (type, engine.graph)) ∧
    (∀ first second, engine.graph.Canonical first → engine.graph.Canonical second →
      (first = second ↔ engine.graph.sameShape first second = true)) ∧
    (∀ later, ReflTransGen Step engine later → ∀ type, engine.graph.Canonical type →
      later.graph.Canonical type) ∧
    (∀ type selector part result, engine.graph.Has part →
      engine.graph.bindField? type selector part = some result →
        ∀ later, ReflTransGen Step (engine.withGraph result.2) later →
          later.graph.Canonical result.1 ∧
            later.graph.bindField? type selector part = some (result.1, later.graph)) ∧
    (∀ type className, engine.graph.className? type = some className →
      ∀ first second : Selector × TypeId, engine.graph.Has first.2 → engine.graph.Has second.2 →
        ∃ both, engine.graph.bindTwo? type first second = some both ∧
          ∀ later, ReflTransGen Step (engine.withGraph both.2) later →
            (first.1 ≠ second.1 → ∃ swapped,
              later.graph.bindTwo? type second first = some swapped ∧ swapped.1 = both.1) ∧
            (first.1 = second.1 →
              later.graph.bindField? type second.1 second.2 = some (both.1, later.graph))) ∧
    (∀ type selector held part, engine.graph.Canonical type →
      engine.graph.field? type selector = some held → engine.graph.Has part →
        engine.graph.sameShape held part = true →
          engine.graph.bindField? type selector part = some (type, engine.graph)) ∧
    (∀ graph, ReflTransGen TypeGraph.Builds {} graph → ∀ first second, graph.Has first →
      graph.Has second → (first = second ↔ graph.sameShape first second = true)) := by
  obtain ⟨hwell, htidy⟩ := hreachable.tidy
  refine ⟨fun type => TypeGraph.canonical_iff_exists_intern hwell htidy,
    fun first second hfirst hsecond => hfirst.eq_iff_sameShape htidy hwell hsecond,
    fun later hsteps type hcanonical => ?_,
    fun type selector part result hpart hbind later hsteps =>
      hreachable.bindField?_stable hpart hbind hsteps,
    fun type className hclass first second hfirst hsecond =>
      hreachable.exists_bindTwo? hclass hfirst hsecond,
    fun type selector held part hcanonical hheld hpart hsame =>
      hcanonical.bindField?_eq htidy hwell hpart hheld hsame,
    fun graph hbuilt first second hfirst hsecond => ?_⟩
  · obtain ⟨-, -, htidies⟩ := tidies_of_steps hreachable.idle.2.sound hsteps
    exact htidies.canonical hcanonical
  · obtain ⟨hwell, htidy, hall⟩ := TypeGraph.allCanonical_of_builds hbuilt
    exact hall.eq_iff_sameShape htidy hwell hfirst hsecond

end Engine

/-- Beside two objects that hold themselves, a box without parts. -/
def knotBox : Engine := knotStart.withGraph (knotStart.graph.plainObject "Box").2

/-- A box that holds the first of the two objects. -/
def fullBox : Engine :=
  knotBox.withGraph ((knotBox.graph.bindField? ⟨3⟩ (.field "@held") ⟨1⟩).getD default).2

theorem fullBox_of_knotStart : Relation.ReflTransGen Engine.Step knotStart fullBox := by
  have hbind : (knotBox.graph.bindField? ⟨3⟩ (.field "@held") ⟨1⟩).isSome = true := by
    decide +kernel
  obtain ⟨result, hresult⟩ := Option.isSome_iff_exists.mp hbind
  exact .tail (.single (.object knotStart "Box")) (.bindField knotBox ⟨3⟩ ⟨1⟩ (.field "@held") _
    (by decide +kernel) (by rw [hresult, Option.getD_some]))

/-- The types of the two objects are not shared, and have one shape.  The full box is shared: to
put the second object in place of the first one changes nothing.  It does not matter in which
order the parts of a box are bound. -/
theorem fullBox_interning_canonical :
    Engine.Reachable knotProgram 4 fullBox ∧ ¬ fullBox.graph.Canonical ⟨1⟩ ∧
      fullBox.graph.sameShape ⟨1⟩ ⟨2⟩ = true ∧ fullBox.graph.Canonical ⟨4⟩ ∧
        fullBox.graph.bindField? ⟨4⟩ (.field "@held") ⟨2⟩ = some (⟨4⟩, fullBox.graph) ∧
          ∃ both swapped,
            fullBox.graph.bindTwo? ⟨3⟩ (.field "@held", ⟨1⟩) (.field "@kept", ⟨2⟩) = some both ∧
              both.2.bindTwo? ⟨3⟩ (.field "@kept", ⟨2⟩) (.field "@held", ⟨1⟩) = some swapped ∧
                swapped.1 = both.1 := by
  have hreachable : Engine.Reachable knotProgram 4 fullBox :=
    knotStart_reachable.trans fullBox_of_knotStart
  have hshapes : fullBox.graph.sameShape ⟨1⟩ ⟨2⟩ = true := by decide +kernel
  have hshared : fullBox.graph.Canonical ⟨4⟩ := by
    have hmem : (⟨4⟩ : TypeId) ∈ fullBox.graph.interned.map Prod.snd := by decide +kernel
    obtain ⟨entry, hentry, hsnd⟩ := List.mem_map.mp hmem
    exact Or.inr ⟨entry.1, hsnd ▸ hentry⟩
  have hunshared : ¬ fullBox.graph.Canonical ⟨1⟩ := by
    have hbare : (⟨1⟩ : TypeId) ∉ fullBox.graph.bare.entries.map Prod.snd := by decide +kernel
    have hinterned : (⟨1⟩ : TypeId) ∉ fullBox.graph.interned.map Prod.snd := by decide +kernel
    rintro (⟨className, hknown⟩ | ⟨sketch, hmem⟩)
    · exact hbare (List.mem_map_of_mem ((OrderedMap.get?_eq_some_iff _ _ _).mp hknown))
    · exact hinterned (List.mem_map_of_mem hmem)
  obtain ⟨-, -, -, -, htwo, hrebind, -⟩ := Engine.reachable_interning_canonical hreachable
  obtain ⟨both, hboth, hlater⟩ := htwo ⟨3⟩ "Box" (by decide +kernel) (.field "@held", ⟨1⟩)
    (.field "@kept", ⟨2⟩) (by decide +kernel) (by decide +kernel)
  obtain ⟨swapped, hswapped, heq⟩ := (hlater _ .refl).1 (by decide)
  exact ⟨hreachable, hunshared, hshapes, hshared,
    hrebind ⟨4⟩ (.field "@held") ⟨1⟩ ⟨2⟩ hshared (by decide +kernel) (by decide +kernel) hshapes,
    both, swapped, hboth, hswapped, heq⟩

end ShapeFlow
