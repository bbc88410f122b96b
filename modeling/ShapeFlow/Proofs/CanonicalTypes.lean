import Mathlib.Data.List.Pairwise
import Mathlib.Logic.Relation
import ShapeFlow.Proofs.Rebinding
import ShapeFlow.Proofs.Sketches

/-!
# Shared types are canonical

The type without parts of a class and the types that interning shares are *canonical*
(`TypeGraph.Canonical`): an operation that is to build a type with such an unfolding answers the
one that is there.  What makes the search for a shared type find it is that the sketch beside a
shared type is the sketch that the type has now, and that no two shared types have one unfolding
(`TypeGraph.Tidy`).  Types that refer back to themselves are not shared.  They may occur as parts
of shared ones, and two of them may have one unfolding, which is why the search compares the parts
by shape and not by name.

`TypeGraph.Tidies` says of a later graph that it keeps the canonical types and is tidy if the
earlier one was.  Each building operation does so (`intern_tidies`).  It follows that canonical
types are equal as soon as their unfoldings are (`Canonical.eq_iff_sameShape`).
-/

namespace ShapeFlow

namespace TypeGraph

variable {graph grown later : TypeGraph} {className : String} {fields : Fields}
  {type part : TypeId} {selector : Selector}

/-- Building operations give this type for every object type with its unfolding. -/
def Canonical (graph : TypeGraph) (type : TypeId) : Prop :=
  (∃ className, graph.bare.get? className = some type) ∨
    ∃ sketch, (sketch, type) ∈ graph.interned

/-- The shared types are found by their sketches, and each is the only one with its unfolding. -/
structure Tidy (graph : TypeGraph) : Prop where
  sketch : ∀ entry ∈ graph.interned, graph.sketch? entry.2 = some entry.1
  parts : ∀ entry ∈ graph.interned, (graph.fields entry.2).isEmpty = false
  apart : graph.interned.Pairwise fun first second =>
    ¬ SameUnfolding graph first.2 graph second.2

/-- One operation on types.  A node gets its parts only while no shared type leads to it. -/
inductive Operation (graph : TypeGraph) : TypeGraph → Prop where
  | intern (className : String) {fields : Fields} (hparts : graph.HasParts fields) :
    Operation graph (graph.intern className fields).2
  | reserve (className : String) : Operation graph (graph.reserve className).2
  | fill {type : TypeId} {fields : Fields} (hparts : graph.HasParts fields)
    (hbare : ∀ className, graph.bare.get? className ≠ some type)
    (hfree : ∀ entry ∈ graph.interned, ∀ chain, graph.follow? entry.2 chain ≠ some type) :
    Operation graph (graph.fill type fields)

/-- Operations lead to the later graph.  Canonical types stay canonical, and a tidy graph stays
tidy. -/
structure Tidies (graph grown : TypeGraph) : Prop where
  operations : Relation.ReflTransGen Operation graph grown
  bare : ∀ className type, graph.bare.get? className = some type →
    grown.bare.get? className = some type
  interned : ∀ entry ∈ graph.interned, entry ∈ grown.interned
  tidy : graph.Tidy → grown.Tidy

/-- A new graph has no shared types. -/
theorem tidy_initial : ({} : TypeGraph).Tidy where
  sketch _ hmem := nomatch hmem
  parts _ hmem := nomatch hmem
  apart := .nil

namespace Tidies

theorem refl (graph : TypeGraph) : graph.Tidies graph :=
  ⟨.refl, fun _ _ hbare => hbare, fun _ hmem => hmem, fun htidy => htidy⟩

theorem trans (hfirst : graph.Tidies grown) (hsecond : grown.Tidies later) :
    graph.Tidies later where
  operations := hfirst.operations.trans hsecond.operations
  bare className type hbare := hsecond.bare className type (hfirst.bare className type hbare)
  interned entry hmem := hsecond.interned entry (hfirst.interned entry hmem)
  tidy htidy := hsecond.tidy (hfirst.tidy htidy)

theorem canonical (htidies : graph.Tidies grown) (hcanonical : graph.Canonical type) :
    grown.Canonical type := by
  refine hcanonical.imp (fun hbare => ?_) fun hinterned => ?_
  · obtain ⟨className, hbare⟩ := hbare
    exact ⟨className, htidies.bare className type hbare⟩
  · obtain ⟨sketch, hmem⟩ := hinterned
    exact ⟨sketch, htidies.interned _ hmem⟩

end Tidies

/-! ## The search for a shared type -/

/-- A sketch looks only at parts. -/
theorem Grows.sketchNode_eq (hgrows : graph.Grows grown) (hparts : graph.HasParts fields) :
    grown.sketchNode (.object className fields) = graph.sketchNode (.object className fields) := by
  have houtlines : grown.outlines (.object className fields) =
      graph.outlines (.object className fields) := by
    refine List.map_congr_left fun entry hentry => ?_
    have hhas := hparts entry.1 entry.2 ((fields.get?_eq_some_iff entry.1 entry.2).mpr hentry)
    rw [hgrows.node?_eq entry.2 hhas]
  unfold outlines at houtlines
  rw [sketchNode, sketchNode, houtlines]

/-- A type that looks like a node has the unfolding of the node, were it added. -/
theorem LooksLike.sameUnfolding_push (hclosed : graph.Closed) (hparts : graph.HasParts fields)
    (hlooks : graph.LooksLike type className fields) :
    SameUnfolding graph type (graph.push (.object className fields)).2
      (graph.push (.object className fields)).1 := by
  have hgrows := Grows.push graph (.object className fields)
  have hnew := LooksLike.of_node? (hclosed.push (.object className fields) hparts)
    (node?_push_self graph (.object className fields))
  refine hlooks.sameUnfolding hnew (fun _ => Iff.rfl) fun selector left right hleft hright => ?_
  obtain rfl := Option.some.inj (hleft.symm.trans hright)
  exact hgrows.sameUnfolding hclosed (hparts selector left hleft)

/-- The converse: the unfolding tells which nodes a type looks like. -/
theorem LooksLike.of_sameUnfolding (hlooks : grown.LooksLike part className fields)
    (hgrows : graph.Grows grown) (hclosed : graph.Closed) (hparts : graph.HasParts fields)
    (hsame : SameUnfolding graph type grown part) : graph.LooksLike type className fields := by
  obtain ⟨held, hheld, hkeys, hlike⟩ := hlooks
  obtain ⟨node, _, hnode, hheld', halike⟩ := hsame.alike
  obtain rfl := Option.some.inj (hheld.symm.trans hheld')
  cases node with
  | scalar => exact halike.elim
  | object otherClass otherFields =>
    obtain ⟨rfl, hsameKeys⟩ := halike
    refine ⟨otherFields, hnode, fun selector => (hsameKeys selector).trans (hkeys selector),
      fun selector given other hgiven hother => ?_⟩
    obtain ⟨middle, hmiddle⟩ := (held.mem_keys_iff selector).mp
      ((hsameKeys selector).mp ((otherFields.mem_keys_iff selector).mpr ⟨other, hother⟩))
    -- The parts agree through the part of the node that was added.
    have hother' : SameUnfolding graph other grown middle :=
      hsame.part (by rw [field?_eq_of_node? hnode]; exact hother)
        (by rw [field?_eq_of_node? hheld]; exact hmiddle)
    have hgiven' := (hgrows.sameUnfolding hclosed (hparts selector given hgiven)).trans
      (hlike selector given middle hgiven hmiddle)
    exact hgiven'.trans hother'.symm

/-- Types that look like one node have one unfolding. -/
theorem LooksLike.sameUnfolding_of_eq (hclosed : graph.Closed) (hparts : graph.HasParts fields)
    {other : TypeId} (hfirst : graph.LooksLike type className fields)
    (hsecond : graph.LooksLike other className fields) : SameUnfolding graph type graph other :=
  (hfirst.sameUnfolding_push hclosed hparts).trans (hsecond.sameUnfolding_push hclosed hparts).symm

/-- The sketch by which the search goes is the one of the types that are sought. -/
theorem LooksLike.sketch?_eq (hclosed : graph.Closed) (hparts : graph.HasParts fields)
    (hlooks : graph.LooksLike type className fields) :
    graph.sketch? type = some (graph.sketchNode (.object className fields)) := by
  rw [(hlooks.sameUnfolding_push hclosed hparts).sketch?_eq, sketch?, node?_push_self,
    Option.map_some,
    Grows.sketchNode_eq (.push graph (.object className fields)) hparts]

theorem hasShape_iff (hclosed : graph.Closed) (hparts : graph.HasParts fields) :
    graph.hasShape className fields type = true ↔ graph.LooksLike type className fields := by
  refine ⟨looksLike_of_hasShape hclosed hparts, fun hlooks => ?_⟩
  obtain ⟨held, hnode, hkeys, hlike⟩ := hlooks
  have hsize : fields.size = held.size := by
    have hperm : fields.keys.Perm held.keys :=
      (List.perm_ext_iff_of_nodup fields.nodup_keys held.nodup_keys).mpr fun selector =>
        (hkeys selector).symm
    simpa [OrderedMap.size, OrderedMap.keys] using hperm.length_eq
  unfold hasShape
  rw [hnode]
  simp only [beq_self_eq_true, hsize, Bool.and_self, Bool.true_and, List.all_eq_true]
  intro entry hentry
  have hpart := (fields.get?_eq_some_iff entry.1 entry.2).mpr hentry
  obtain ⟨other, hother⟩ := (held.mem_keys_iff entry.1).mp
    ((hkeys entry.1).mpr ((fields.mem_keys_iff entry.1).mpr ⟨entry.2, hpart⟩))
  rw [hother]
  exact (sameShape_iff hclosed (hparts entry.1 entry.2 hpart) (hclosed hnode hother)).mpr
    (hlike entry.1 entry.2 other hpart hother)

/-- Shared types with one unfolding are one type. -/
theorem Tidy.eq_of_sameUnfolding (htidy : graph.Tidy) {first second : Sketch × TypeId}
    (hfirst : first ∈ graph.interned) (hsecond : second ∈ graph.interned)
    (hsame : SameUnfolding graph first.2 graph second.2) : first = second := by
  by_contra hne
  have hsymm : Std.Symm fun first second : Sketch × TypeId =>
      ¬ SameUnfolding graph first.2 graph second.2 :=
    ⟨fun _ _ hunlike hsame => hunlike hsame.symm⟩
  exact htidy.apart.forall hfirst hsecond hne hsame

/-- What is found is the one shared type that looks like the node. -/
theorem Tidy.findInterned?_eq_some_iff (htidy : graph.Tidy) (hclosed : graph.Closed)
    (hparts : graph.HasParts fields) :
    graph.findInterned? className fields = some type ↔
      (∃ sketch, (sketch, type) ∈ graph.interned) ∧ graph.LooksLike type className fields := by
  constructor
  · intro hfound
    obtain ⟨entry, hentry, rfl⟩ := Option.map_eq_some_iff.mp hfound
    have haccepted := List.find?_some hentry
    rw [Bool.and_eq_true] at haccepted
    exact ⟨⟨entry.1, List.mem_of_find?_eq_some hentry⟩,
      (hasShape_iff hclosed hparts).mp haccepted.2⟩
  · intro hshared
    obtain ⟨⟨sketch, hmem⟩, hlooks⟩ := hshared
    have hsketch : sketch = graph.sketchNode (.object className fields) :=
      Option.some.inj ((htidy.sketch _ hmem).symm.trans (hlooks.sketch?_eq hclosed hparts))
    have haccepted : (sketch == graph.sketchNode (.object className fields) &&
        graph.hasShape className fields type) = true := by
      rw [Bool.and_eq_true, beq_iff_eq]
      exact ⟨hsketch, (hasShape_iff hclosed hparts).mpr hlooks⟩
    unfold findInterned?
    cases hfound : graph.interned.find? fun entry =>
        entry.1 == graph.sketchNode (.object className fields) &&
          graph.hasShape className fields entry.2 with
    | none => exact absurd haccepted (List.find?_eq_none.mp hfound (sketch, type) hmem)
    | some found =>
      -- Another type that is found first looks like the same node.
      have hother := List.find?_some hfound
      rw [Bool.and_eq_true] at hother
      have hsame := ((hasShape_iff hclosed hparts).mp hother.2).sameUnfolding_of_eq hclosed hparts
        hlooks
      obtain rfl := htidy.eq_of_sameUnfolding (List.mem_of_find?_eq_some hfound) hmem hsame
      exact congrArg (Option.map Prod.snd) hfound

/-! ## Building operations keep a graph tidy -/

/-- Adding types that are not shared. -/
theorem Tidy.of_grows (htidy : graph.Tidy) (hclosed : graph.Closed)
    (hhas : ∀ entry ∈ graph.interned, graph.Has entry.2) (hgrows : graph.Grows grown)
    (hinterned : grown.interned = graph.interned) : grown.Tidy where
  sketch entry hmem := by
    rw [hinterned] at hmem
    rw [← (hgrows.sameUnfolding hclosed (hhas entry hmem)).sketch?_eq, htidy.sketch entry hmem]
  parts entry hmem := by
    rw [hinterned] at hmem
    rw [fields, hgrows.node?_eq entry.2 (hhas entry hmem)]
    exact htidy.parts entry hmem
  apart := by
    rw [hinterned]
    refine htidy.apart.imp_of_mem fun {first second} hfirst hsecond hunlike hsame => hunlike ?_
    have hfirst' := hgrows.sameUnfolding hclosed (hhas first hfirst)
    exact (hfirst'.trans hsame).trans
      (hgrows.sameUnfolding hclosed (hhas second hsecond)).symm

/-- Adding a node that is not shared. -/
theorem reserve_tidies (hwell : graph.WellFormed) (className : String) :
    graph.Tidies (graph.reserve className).2 where
  operations := .single (.reserve className)
  bare _ _ hbare := hbare
  interned _ hmem := hmem
  tidy htidy := htidy.of_grows hwell.closed hwell.interned (.push graph _) rfl

theorem plainObject_tidies (hwell : graph.WellFormed) (className : String) :
    graph.Tidies (graph.plainObject className).2 := by
  refine ⟨.single (.intern className (hasParts_empty graph)), fun other type hbare => ?_,
    fun entry hmem => ?_, fun htidy =>
    htidy.of_grows hwell.closed hwell.interned (.plainObject graph className) ?_⟩
  all_goals
    unfold plainObject
    cases hknown : graph.bare.get? className
  · have hne : other ≠ className := fun heq => by simp [heq, hknown] at hbare
    exact (OrderedMap.get?_insert _ _ _ other).trans ((if_neg hne).trans hbare)
  · exact hbare
  · exact hmem
  · exact hmem
  · rfl
  · rfl

/-- Adding a shared type that was sought and not found. -/
theorem Tidy.insert (htidy : graph.Tidy) (hwell : graph.WellFormed) (hparts : graph.HasParts fields)
    (hfields : fields.isEmpty = false) (hnew : graph.findInterned? className fields = none) :
    Tidy { (graph.push (.object className fields)).2 with
      interned := (graph.sketchNode (.object className fields),
        (graph.push (.object className fields)).1) :: graph.interned } := by
  have hgrows := Grows.push graph (.object className fields)
  have hold := htidy.of_grows hwell.closed hwell.interned hgrows rfl
  have hnode := node?_push_self graph (.object className fields)
  refine ⟨List.forall_mem_cons.mpr ⟨?_, hold.sketch⟩, List.forall_mem_cons.mpr ⟨?_, hold.parts⟩,
    List.pairwise_cons.mpr ⟨fun entry hmem hsame => ?_, hold.apart⟩⟩
  · have hsketch : (graph.push (.object className fields)).2.sketchNode
        (.object className fields) = graph.sketchNode (.object className fields) :=
      hgrows.sketchNode_eq hparts
    exact (congrArg (Option.map _) hnode).trans (congrArg some hsketch)
  · exact (congrArg (fun node? => ((node?.map TypeNode.fields).getD ∅).isEmpty) hnode).trans hfields
  · -- A shared type with the unfolding of the new one would have been found.
    have hlooks := LooksLike.of_node? (hwell.closed.push (.object className fields) hparts) hnode
    have hsame' : SameUnfolding graph entry.2 (graph.push (.object className fields)).2
        (graph.push (.object className fields)).1 :=
      (hgrows.sameUnfolding hwell.closed (hwell.interned entry hmem)).trans
        (SameUnfolding.symm hsame)
    have hfound := (htidy.findInterned?_eq_some_iff hwell.closed hparts).mpr
      ⟨⟨entry.1, hmem⟩, hlooks.of_sameUnfolding hgrows hwell.closed hparts hsame'⟩
    exact nomatch hnew.symm.trans hfound

theorem intern_tidies (hwell : graph.WellFormed) (className : String)
    (hparts : graph.HasParts fields) : graph.Tidies (graph.intern className fields).2 := by
  have hoperation : graph.Operation (graph.intern className fields).2 := .intern className hparts
  unfold intern at hoperation ⊢
  cases hempty : fields.isEmpty with
  | true => exact plainObject_tidies hwell className
  | false =>
    cases hfound : graph.findInterned? className fields with
    | some type => exact .refl graph
    | none =>
      rw [hempty, hfound] at hoperation
      exact ⟨.single hoperation, fun _ _ hbare => hbare, fun _ hmem => List.mem_cons_of_mem _ hmem,
        fun htidy => htidy.insert hwell hparts hempty hfound⟩

/-- Filling a node changes the unfolding of no type that does not lead to it. -/
theorem sameUnfolding_fill (hclosed : graph.Closed) {other : TypeId} (hhas : graph.Has other)
    (hfree : ∀ chain, graph.follow? other chain ≠ some type) (fields : Fields) :
    SameUnfolding graph other (graph.fill type fields) other := by
  have hnode : ∀ held chain, graph.follow? other chain = some held →
      (graph.fill type fields).node? held = graph.node? held := by
    intro held chain hheld
    rw [node?_fill, if_neg fun heq : held = type => hfree chain (heq ▸ hheld)]
  refine SameUnfolding.of_bisimulation
    (fun first second => first = second ∧ ∃ chain, graph.follow? other chain = some first) ?_ ?_
    ⟨rfl, [], rfl⟩
  · rintro first _ ⟨rfl, chain, hchain⟩
    obtain ⟨node, hheld⟩ :=
      (has_iff_exists_node graph first).mp (hclosed.has_follow? hhas hchain)
    exact ⟨node, node, hheld, (hnode first chain hchain).trans hheld, .refl node⟩
  · rintro first _ selector firstPart secondPart ⟨rfl, chain, hchain⟩ hfirstPart hsecondPart
    rw [field?, TypeGraph.fields, hnode first chain hchain] at hsecondPart
    refine ⟨Option.some.inj (hfirstPart.symm.trans hsecondPart), chain ++ [selector], ?_⟩
    rw [follow?_append, hchain, Option.bind_some, follow?_cons, hfirstPart]
    rfl

/-- Giving a node its parts while no shared type leads to it. -/
theorem fill_tidies (hwell : graph.WellFormed) (hparts : graph.HasParts fields)
    (hbare : ∀ className, graph.bare.get? className ≠ some type)
    (hfree : ∀ entry ∈ graph.interned, ∀ chain, graph.follow? entry.2 chain ≠ some type) :
    graph.Tidies (graph.fill type fields) where
  operations := .single (.fill hparts hbare hfree)
  bare className other hknown := by rw [bare_fill, hknown]
  interned entry hmem := by rwa [interned_fill]
  tidy htidy := by
    have hkept : ∀ entry ∈ graph.interned,
        SameUnfolding graph entry.2 (graph.fill type fields) entry.2 :=
      fun entry hmem => sameUnfolding_fill hwell.closed (hwell.interned entry hmem)
        (hfree entry hmem) fields
    refine ⟨fun entry hmem => ?_, fun entry hmem => ?_, ?_⟩
    · rw [interned_fill] at hmem
      rw [← (hkept entry hmem).sketch?_eq, htidy.sketch entry hmem]
    · rw [interned_fill] at hmem
      have hne : entry.2 ≠ type := fun heq => hfree entry hmem [] (congrArg some heq)
      rw [TypeGraph.fields, node?_fill, if_neg hne]
      exact htidy.parts entry hmem
    · rw [interned_fill]
      refine htidy.apart.imp_of_mem fun {first second} hfirst hsecond hunlike hsame => hunlike ?_
      exact ((hkept first hfirst).trans hsame).trans (hkept second hsecond).symm

theorem Operation.wellFormed (hoperation : graph.Operation grown) (hwell : graph.WellFormed) :
    grown.WellFormed := by
  cases hoperation with
  | intern className hparts => exact (intern_adds hwell className hparts).wellFormed
  | reserve className => exact hwell.push _ (hasParts_empty graph)
  | fill hparts hbare _ => exact hwell.fill hparts hbare

theorem Operation.tidies (hoperation : graph.Operation grown) (hwell : graph.WellFormed) :
    graph.Tidies grown := by
  cases hoperation with
  | intern className hparts => exact intern_tidies hwell className hparts
  | reserve className => exact reserve_tidies hwell className
  | fill hparts hbare hfree => exact fill_tidies hwell hparts hbare hfree

/-- What holds of all graphs to which operations lead. -/
theorem tidy_of_operations (hoperations : Relation.ReflTransGen Operation {} graph) :
    graph.WellFormed ∧ graph.Tidy := by
  induction hoperations with
  | refl => exact ⟨wellFormed_initial, tidy_initial⟩
  | tail _ hoperation ih =>
    exact ⟨hoperation.wellFormed ih.1, (hoperation.tidies ih.1).tidy ih.2⟩

theorem bindField?_tidies (hwell : graph.WellFormed) {result : TypeId × TypeGraph}
    (hpart : graph.Has part) (hbind : graph.bindField? type selector part = some result) :
    graph.Tidies result.2 := by
  unfold bindField? at hbind
  split at hbind
  · rename_i className fields hnode
    obtain rfl := Option.some.inj hbind
    exact intern_tidies hwell className ((hwell.closed.hasParts hnode).insert hpart selector)
  · exact nomatch hbind

theorem bindAt?_tidies (hwell : graph.WellFormed) {selectors : List Selector}
    {result : TypeId × TypeGraph} (hpart : graph.Has part)
    (hbind : graph.bindAt? type selectors part = some result) : graph.Tidies result.2 := by
  induction selectors generalizing type result with
  | nil =>
    obtain rfl := Option.some.inj hbind
    exact .refl graph
  | cons selector rest ih =>
    obtain ⟨inner, rebuilt, -, hrebuilt, hbind⟩ := exists_of_bindAt?_cons hbind
    obtain ⟨hwell', hhas⟩ := bindAt?_wellFormed hwell hpart hrebuilt
    exact (ih hrebuilt).trans (bindField?_tidies hwell' hhas hbind)

/-! ## What building operations answer -/

theorem plainObject_canonical (graph : TypeGraph) (className : String) :
    (graph.plainObject className).2.Canonical (graph.plainObject className).1 := by
  refine Or.inl ⟨className, ?_⟩
  unfold plainObject
  cases hknown : graph.bare.get? className with
  | some type => exact hknown
  | none => simp [OrderedMap.get?_insert]

/-- Interning answers a canonical type. -/
theorem intern_canonical (graph : TypeGraph) (className : String) (fields : Fields) :
    (graph.intern className fields).2.Canonical (graph.intern className fields).1 := by
  cases hempty : fields.isEmpty with
  | true =>
    unfold intern
    rw [hempty]
    exact plainObject_canonical graph className
  | false =>
    rcases intern_cases graph className hempty with hfound | hnew
    · obtain ⟨entry, hentry, hintern, -⟩ := hfound
      rw [hintern]
      exact Or.inr ⟨entry.1, hentry⟩
    · obtain ⟨sketch, hintern⟩ := hnew
      rw [hintern]
      exact Or.inr ⟨sketch, List.mem_cons_self⟩

theorem bindField?_canonical {result : TypeId × TypeGraph}
    (hbind : graph.bindField? type selector part = some result) : result.2.Canonical result.1 := by
  unfold bindField? at hbind
  split at hbind
  · obtain rfl := Option.some.inj hbind
    exact intern_canonical graph _ _
  · exact nomatch hbind

theorem bindAt?_canonical {selectors : List Selector} {result : TypeId × TypeGraph}
    (hselectors : selectors ≠ []) (hbind : graph.bindAt? type selectors part = some result) :
    result.2.Canonical result.1 := by
  cases selectors with
  | nil => exact absurd rfl hselectors
  | cons selector rest =>
    obtain ⟨_, _, -, -, hbind⟩ := exists_of_bindAt?_cons hbind
    exact bindField?_canonical hbind

theorem Canonical.has (hwell : graph.WellFormed) (hcanonical : graph.Canonical type) :
    graph.Has type := by
  rcases hcanonical with ⟨className, hbare⟩ | ⟨sketch, hmem⟩
  · exact (has_iff_exists_node graph type).mpr ⟨_, hwell.bare className type hbare⟩
  · exact hwell.interned _ hmem

theorem Canonical.bare_of_isEmpty (htidy : graph.Tidy) (hwell : graph.WellFormed)
    (hcanonical : graph.Canonical type)
    (hnode : graph.node? type = some (.object className fields)) (hempty : fields.isEmpty = true) :
    graph.bare.get? className = some type := by
  rcases hcanonical with ⟨otherClass, hbare⟩ | ⟨sketch, hmem⟩
  · have hother := hwell.bare otherClass type hbare
    rw [hnode, Option.some.injEq, TypeNode.object.injEq] at hother
    exact hother.1 ▸ hbare
  · have hparts := htidy.parts _ hmem
    simp only [TypeGraph.fields, hnode, Option.map_some, Option.getD_some, TypeNode.fields]
      at hparts
    rw [hempty] at hparts
    cases hparts

/-- A canonical type is what interning answers for every node that it looks like, and then nothing
is added. -/
theorem Canonical.intern_eq (hcanonical : graph.Canonical type) (htidy : graph.Tidy)
    (hwell : graph.WellFormed) (hparts : graph.HasParts fields)
    (hlooks : graph.LooksLike type className fields) :
    graph.intern className fields = (type, graph) := by
  obtain ⟨held, hnode, hkeys, -⟩ := id hlooks
  have hheldEmpty : held.isEmpty = fields.isEmpty := OrderedMap.isEmpty_eq_of_mem_keys_iff hkeys
  unfold intern
  cases hempty : fields.isEmpty with
  | true =>
    have hbare := hcanonical.bare_of_isEmpty htidy hwell hnode (hheldEmpty.trans hempty)
    simp [plainObject, hbare]
  | false =>
    have hshared : ∃ sketch, (sketch, type) ∈ graph.interned := by
      refine hcanonical.resolve_left fun hbare => ?_
      obtain ⟨otherClass, hbare⟩ := hbare
      have hother := hwell.bare otherClass type hbare
      rw [hnode, Option.some.injEq, TypeNode.object.injEq] at hother
      rw [hempty, hother.2] at hheldEmpty
      exact nomatch hheldEmpty
    have hfound := (htidy.findInterned?_eq_some_iff hwell.closed hparts).mpr ⟨hshared, hlooks⟩
    simp [hfound]

theorem Canonical.exists_node? (hwell : graph.WellFormed) (htidy : graph.Tidy)
    (hcanonical : graph.Canonical type) :
    ∃ className fields, graph.node? type = some (.object className fields) := by
  rcases hcanonical with ⟨className, hbare⟩ | ⟨sketch, hmem⟩
  · exact ⟨className, ∅, hwell.bare className type hbare⟩
  · obtain ⟨node, hnode⟩ := (has_iff_exists_node graph type).mp (hwell.interned _ hmem)
    cases node with
    | scalar =>
      have hparts := htidy.parts _ hmem
      rw [TypeGraph.fields, hnode] at hparts
      cases hparts
    | object className fields => exact ⟨className, fields, hnode⟩

/-- Canonical types with one unfolding are one type: interning answers both of them. -/
theorem Canonical.eq_of_sameUnfolding (htidy : graph.Tidy) (hwell : graph.WellFormed)
    {first second : TypeId} (hfirst : graph.Canonical first) (hsecond : graph.Canonical second)
    (hsame : SameUnfolding graph second graph first) : first = second := by
  obtain ⟨className, fields, hnode⟩ := hfirst.exists_node? hwell htidy
  have hparts := hwell.closed.hasParts hnode
  have hlooks := LooksLike.of_node? hwell.closed hnode
  have hlooks' := hlooks.of_sameUnfolding (.refl graph) hwell.closed hparts hsame
  have hintern := (hfirst.intern_eq htidy hwell hparts hlooks).symm.trans
    (hsecond.intern_eq htidy hwell hparts hlooks')
  exact congrArg Prod.fst hintern

theorem Canonical.eq_iff_sameShape (htidy : graph.Tidy) (hwell : graph.WellFormed)
    {first second : TypeId} (hfirst : graph.Canonical first) (hsecond : graph.Canonical second) :
    first = second ↔ graph.sameShape first second = true := by
  rw [sameShape_iff hwell.closed (hfirst.has hwell) (hsecond.has hwell)]
  constructor
  · intro heq
    exact heq ▸ .refl hwell.closed (hfirst.has hwell)
  · intro hsame
    exact hfirst.eq_of_sameUnfolding htidy hwell hsecond hsame.symm

/-! ## Laws of binding -/

theorem LooksLike.mono (hlooks : graph.LooksLike type className fields)
    (hgrows : graph.Grows grown) : grown.LooksLike type className fields := by
  obtain ⟨held, hnode, hkeys, hlike⟩ := hlooks
  exact ⟨held, hgrows.node? hnode, hkeys, fun selector part other hpart hother =>
    (hlike selector part other hpart hother).mono hgrows hgrows⟩

/-- Binding a part of a type that looks like a node. -/
theorem LooksLike.bindField? (hlooks : graph.LooksLike type className fields)
    (hwell : graph.WellFormed) (hpart : graph.Has part) {result : TypeId × TypeGraph}
    (hbind : graph.bindField? type selector part = some result) :
    result.2.LooksLike result.1 className (fields.insert selector part) := by
  have hgrows := Grows.bindField? hbind
  obtain ⟨held, hnode, hkeys, hlike⟩ := hlooks
  obtain ⟨_, _, hnode', last, hlast, hlastKeys, hlastLike⟩ :=
    bindField?_looksLike hwell hpart hbind
  cases hnode.symm.trans hnode'
  have hinserted : ∀ other, other ∈ (held.insert selector part).keys ↔
      other ∈ (fields.insert selector part).keys := by
    intro other
    have hother := hkeys other
    simp only [OrderedMap.mem_keys_iff, OrderedMap.get?_insert] at hother ⊢
    split
    · rfl
    · exact hother
  refine ⟨last, hlast, fun other => (hlastKeys other).trans (hinserted other),
    fun other given found hgiven hfound => ?_⟩
  obtain ⟨middle, hmiddle⟩ := ((held.insert selector part).mem_keys_iff other).mp
    ((hinserted other).mpr (((fields.insert selector part).mem_keys_iff other).mpr ⟨given, hgiven⟩))
  refine SameUnfolding.trans ?_ (hlastLike other middle found hmiddle hfound)
  rw [OrderedMap.get?_insert] at hgiven hmiddle
  split at hgiven
  · rename_i heq
    rw [if_pos heq] at hmiddle
    obtain rfl := Option.some.inj (hgiven.symm.trans hmiddle)
    obtain rfl := Option.some.inj hgiven
    exact SameUnfolding.refl hwell.closed hpart |>.mono hgrows hgrows
  · rename_i hne
    rw [if_neg hne] at hmiddle
    exact (hlike other given middle hgiven hmiddle).mono hgrows hgrows

/-- Canonical types that look like nodes with the same parts are one type. -/
theorem Canonical.eq_of_looksLike (htidy : graph.Tidy) (hwell : graph.WellFormed)
    {first second : TypeId} (hfirst : graph.Canonical first) (hsecond : graph.Canonical second)
    {others : Fields} (hlooks : graph.LooksLike first className fields)
    (hlooks' : graph.LooksLike second className others) (hparts : graph.HasParts fields)
    (hsame : ∀ selector, fields.get? selector = others.get? selector) : first = second := by
  refine hfirst.eq_of_sameUnfolding htidy hwell hsecond
    (hlooks.sameUnfolding hlooks' (fun selector => ?_)
      fun selector left right hleft hright => ?_).symm
  · rw [OrderedMap.mem_keys_iff, OrderedMap.mem_keys_iff, hsame selector]
  · rw [← hsame selector] at hright
    obtain rfl := Option.some.inj (hleft.symm.trans hright)
    exact .refl hwell.closed (hparts selector left hleft)

/-- Binding a part of a canonical type to what it is already. -/
theorem Canonical.bindField?_eq (hcanonical : graph.Canonical type) (htidy : graph.Tidy)
    (hwell : graph.WellFormed) {held : TypeId} (hpart : graph.Has part)
    (hheld : graph.field? type selector = some held) (hsame : graph.sameShape held part = true) :
    graph.bindField? type selector part = some (type, graph) := by
  obtain ⟨className, fields, hnode⟩ := hcanonical.exists_node? hwell htidy
  have hlooks : graph.LooksLike type className (fields.insert selector part) := by
    rw [field?_eq_of_node? hnode] at hheld
    refine ⟨fields, hnode, fun other => ?_, fun other given found hgiven hfound => ?_⟩
    · simp only [OrderedMap.mem_keys_iff, OrderedMap.get?_insert]
      split
      · rename_i heq
        subst heq
        exact iff_of_true ⟨held, hheld⟩ ⟨part, rfl⟩
      · rfl
    · rw [OrderedMap.get?_insert] at hgiven
      split at hgiven
      · rename_i heq
        subst heq
        obtain rfl := Option.some.inj hgiven
        obtain rfl := Option.some.inj (hheld.symm.trans hfound)
        exact ((sameShape_iff hwell.closed (hwell.closed hnode hheld) hpart).mp hsame).symm
      · obtain rfl := Option.some.inj (hgiven.symm.trans hfound)
        exact .refl hwell.closed (hwell.closed hnode hfound)
  have hparts := (hwell.closed.hasParts hnode).insert hpart selector
  unfold bindField?
  rw [hnode]
  exact congrArg some (hcanonical.intern_eq htidy hwell hparts hlooks)

/-! ## Types built from the outside -/

/-- One building operation that is open to everyone, given types of the graph. -/
inductive Builds (graph : TypeGraph) : TypeGraph → Prop where
  | plainObject (className : String) : Builds graph (graph.plainObject className).2
  | bindField {type part : TypeId} {selector : Selector} {result : TypeId × TypeGraph}
    (hpart : graph.Has part) (hbind : graph.bindField? type selector part = some result) :
    Builds graph result.2
  | bindAt {type part : TypeId} {selectors : List Selector} {result : TypeId × TypeGraph}
    (hpart : graph.Has part) (hbind : graph.bindAt? type selectors part = some result) :
    Builds graph result.2

namespace Builds

theorem grows (hbuilds : graph.Builds grown) : graph.Grows grown := by
  cases hbuilds with
  | plainObject className => exact .plainObject graph className
  | bindField _ hbind => exact .bindField? hbind
  | bindAt _ hbind => exact .bindAt? hbind

theorem wellFormed (hbuilds : graph.Builds grown) (hwell : graph.WellFormed) :
    grown.WellFormed := by
  cases hbuilds with
  | plainObject className => exact (plainObject_adds hwell className).wellFormed
  | bindField hpart hbind =>
    obtain ⟨_, -, hadds⟩ := bindField?_adds hwell hpart hbind
    exact hadds.wellFormed
  | bindAt hpart hbind => exact (bindAt?_wellFormed hwell hpart hbind).1

theorem tidies (hbuilds : graph.Builds grown) (hwell : graph.WellFormed) :
    graph.Tidies grown := by
  cases hbuilds with
  | plainObject className => exact plainObject_tidies hwell className
  | bindField hpart hbind => exact bindField?_tidies hwell hpart hbind
  | bindAt hpart hbind => exact bindAt?_tidies hwell hpart hbind

end Builds

/-- Every object type is canonical. -/
def AllCanonical (graph : TypeGraph) : Prop :=
  ∀ type, graph.Has type → type = scalar ∨ graph.Canonical type

theorem has_intern (className : String) (fields : Fields) {other : TypeId}
    (hhas : (graph.intern className fields).2.Has other) :
    graph.Has other ∨ other = (graph.intern className fields).1 := by
  have hplain : (graph.plainObject className).2.Has other →
      graph.Has other ∨ other = (graph.plainObject className).1 := by
    unfold plainObject
    cases graph.bare.get? className with
    | some type => exact Or.inl
    | none => exact fun hhas => ((has_push_iff graph _ other).mp hhas).symm
  unfold intern at hhas ⊢
  cases hempty : fields.isEmpty with
  | true => exact hplain (by simpa [hempty] using hhas)
  | false =>
    simp only [hempty, Bool.false_eq_true, if_false] at hhas ⊢
    cases hfound : graph.findInterned? className fields with
    | some type =>
      rw [hfound] at hhas
      exact Or.inl hhas
    | none =>
      rw [hfound] at hhas
      exact ((has_push_iff graph _ other).mp hhas).symm

namespace AllCanonical

theorem initial : ({} : TypeGraph).AllCanonical := by
  intro type hhas
  obtain ⟨index⟩ := type
  have hzero : index = 0 := Nat.lt_one_iff.mp hhas
  exact Or.inl (hzero ▸ rfl)

theorem intern (hall : graph.AllCanonical) (hwell : graph.WellFormed) (className : String)
    (hparts : graph.HasParts fields) : (graph.intern className fields).2.AllCanonical := by
  intro type hhas
  rcases has_intern className fields hhas with hold | rfl
  · exact (hall type hold).imp_right (intern_tidies hwell className hparts).canonical
  · exact Or.inr (intern_canonical graph className fields)

theorem bindField? (hall : graph.AllCanonical) (hwell : graph.WellFormed)
    {result : TypeId × TypeGraph} (hpart : graph.Has part)
    (hbind : graph.bindField? type selector part = some result) : result.2.AllCanonical := by
  unfold TypeGraph.bindField? at hbind
  split at hbind
  · rename_i className fields hnode
    obtain rfl := Option.some.inj hbind
    exact hall.intern hwell className ((hwell.closed.hasParts hnode).insert hpart selector)
  · exact nomatch hbind

theorem bindAt? (hall : graph.AllCanonical) (hwell : graph.WellFormed)
    {selectors : List Selector} {result : TypeId × TypeGraph} (hpart : graph.Has part)
    (hbind : graph.bindAt? type selectors part = some result) : result.2.AllCanonical := by
  induction selectors generalizing type result with
  | nil =>
    obtain rfl := Option.some.inj hbind
    exact hall
  | cons selector rest ih =>
    obtain ⟨inner, rebuilt, -, hrebuilt, hbind⟩ := exists_of_bindAt?_cons hbind
    obtain ⟨hwell', hhas⟩ := bindAt?_wellFormed hwell hpart hrebuilt
    exact (ih hrebuilt).bindField? hwell' hhas hbind

theorem builds (hall : graph.AllCanonical) (hwell : graph.WellFormed)
    (hbuilds : graph.Builds grown) : grown.AllCanonical := by
  cases hbuilds with
  | plainObject className => exact hall.intern hwell className (hasParts_empty graph)
  | bindField hpart hbind => exact hall.bindField? hwell hpart hbind
  | bindAt hpart hbind => exact hall.bindAt? hwell hpart hbind

/-- Where every object type is canonical, types with one unfolding are one type. -/
theorem eq_iff_sameShape (hall : graph.AllCanonical) (htidy : graph.Tidy)
    (hwell : graph.WellFormed) {first second : TypeId} (hfirst : graph.Has first)
    (hsecond : graph.Has second) : first = second ↔ graph.sameShape first second = true := by
  have hscalar : ∀ other, graph.Canonical other →
      ¬ SameUnfolding graph TypeGraph.scalar graph other := by
    intro other hother hsame
    obtain ⟨className, fields, hnode⟩ := hother.exists_node? hwell htidy
    have hclass := hsame.className?_eq
    rw [className?, hwell.scalar, className?, hnode] at hclass
    cases hclass
  rcases hall first hfirst with rfl | hfirst'
  · rcases hall second hsecond with rfl | hsecond'
    · simp
    · rw [sameShape_iff hwell.closed hfirst hsecond]
      refine iff_of_false (fun heq => ?_) (hscalar second hsecond')
      exact hscalar second hsecond' (heq ▸ .refl hwell.closed hfirst)
  · rcases hall second hsecond with rfl | hsecond'
    · rw [sameShape_iff hwell.closed hfirst hsecond]
      refine iff_of_false (fun heq => ?_) fun hsame => hscalar first hfirst' hsame.symm
      exact hscalar first hfirst' (heq ▸ .refl hwell.closed hfirst)
    · exact hfirst'.eq_iff_sameShape htidy hwell hsecond'

end AllCanonical

/-- What holds of a graph that was built from the outside alone. -/
theorem allCanonical_of_builds (hbuilt : Relation.ReflTransGen Builds {} graph) :
    graph.WellFormed ∧ graph.Tidy ∧ graph.AllCanonical := by
  induction hbuilt with
  | refl => exact ⟨wellFormed_initial, tidy_initial, .initial⟩
  | tail _ hbuilds ih =>
    obtain ⟨hwell, htidy, hall⟩ := ih
    exact ⟨hbuilds.wellFormed hwell, (hbuilds.tidies hwell).tidy htidy, hall.builds hwell hbuilds⟩

end TypeGraph

end ShapeFlow
