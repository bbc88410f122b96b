import ShapeFlow.Proofs.HousedObjects

/-!
# Where chains of selectors end

The unfolding of a type tells for each chain of selectors whether it can be followed and, if so,
the class at its end (`TypeGraph.endAt?`).  Two types have the same unfolding exactly when all
chains end alike (`TypeGraph.sameUnfolding_iff_endAt?`).

A chain can be followed from an operand as well (`Frame.endOf?`).  At an allocated object without a
home it goes on through the parts of the object; at anything else it goes on in the type that is
found there.  This is the unfolding of the graph that the allocated objects form, and it is told
without building a type.  The recursion is on the chain, so that circles of objects need no care.

A type that shows an operand has the unfolding of the operand (`Frame.Shows.endAt?_eq`).
-/

namespace ShapeFlow

open TypeGraph (SameUnfolding)

/-! ## Chains that start at a type -/

namespace TypeGraph

variable {graph grown left right : TypeGraph} {type part : TypeId}

/-- Where a chain of selectors ends that starts at a type: at an object of a class, at a primitive
value (`some none`), or nowhere if it cannot be followed. -/
def endAt? (graph : TypeGraph) (type : TypeId) (chain : List Selector) :
    Option (Option String) :=
  (graph.follow? type chain).map graph.className?

@[simp] theorem endAt?_nil (graph : TypeGraph) (type : TypeId) :
    graph.endAt? type [] = some (graph.className? type) := rfl

theorem endAt?_cons (graph : TypeGraph) (type : TypeId) (selector : Selector)
    (chain : List Selector) : graph.endAt? type (selector :: chain) =
      (graph.field? type selector).bind fun part => graph.endAt? part chain := by
  rw [endAt?, follow?_cons, Option.map_bind]
  rfl

theorem endAt?_append (graph : TypeGraph) (type : TypeId) (first second : List Selector) :
    graph.endAt? type (first ++ second) =
      (graph.follow? type first).bind fun inner => graph.endAt? inner second := by
  rw [endAt?, follow?_append, Option.map_bind]
  rfl

theorem SameUnfolding.endAt?_eq {first second : TypeId}
    (hsame : SameUnfolding left first right second) (chain : List Selector) :
    left.endAt? first chain = right.endAt? second chain := by
  unfold endAt?
  cases hfirst : left.follow? first chain with
  | none =>
    have hnone := (hsame chain).isSome_eq
    rw [hfirst, Option.isSome_none, eq_comm, Option.isSome_eq_false_iff,
      Option.isNone_iff_eq_none] at hnone
    rw [hnone]
    rfl
  | some last =>
    obtain ⟨other, hother, hsame'⟩ := hsame.follow? hfirst
    rw [hother, Option.map_some, Option.map_some, hsame'.className?_eq]

/-- Where all chains end alike, there are the same bound parts everywhere, and so no chain tells
the two types apart. -/
theorem sameUnfolding_iff_endAt? (hclosed : left.Closed) (hclosed' : right.Closed)
    {first second : TypeId} (hhas : left.Has first) (hhas' : right.Has second) :
    SameUnfolding left first right second ↔
      ∀ chain, left.endAt? first chain = right.endAt? second chain := by
  refine ⟨fun hsame => hsame.endAt?_eq, fun hends => ?_⟩
  refine SameUnfolding.of_bisimulation (fun first second => left.Has first ∧ right.Has second ∧
    ∀ chain, left.endAt? first chain = right.endAt? second chain) ?_ ?_ ⟨hhas, hhas', hends⟩
  · rintro first second ⟨hfirst, hsecond, hends⟩
    obtain ⟨firstNode, hfirstNode⟩ := (has_iff_exists_node left first).mp hfirst
    obtain ⟨secondNode, hsecondNode⟩ := (has_iff_exists_node right second).mp hsecond
    have hclass : firstNode.className? = secondNode.className? := by
      have hstart := hends []
      rwa [endAt?_nil, endAt?_nil, Option.some.injEq, className?, className?, hfirstNode,
        hsecondNode] at hstart
    have hkeys : ∀ selector, selector ∈ firstNode.fields.keys ↔
        selector ∈ secondNode.fields.keys := by
      intro selector
      have hstep := congrArg Option.isSome (hends [selector])
      rw [endAt?_cons, endAt?_cons, field?_eq_of_node? hfirstNode,
        field?_eq_of_node? hsecondNode] at hstep
      simp only [endAt?_nil, Option.isSome_bind, Option.isSome_some, Option.any_true] at hstep
      rw [← OrderedMap.contains_iff_mem_keys, ← OrderedMap.contains_iff_mem_keys,
        OrderedMap.contains, OrderedMap.contains, hstep]
    refine ⟨firstNode, secondNode, hfirstNode, hsecondNode, ?_⟩
    cases firstNode <;> cases secondNode <;>
      simp_all [TypeNode.Alike, TypeNode.className?, TypeNode.fields]
  · rintro first second selector firstPart secondPart ⟨-, -, hends⟩ hfirst hsecond
    refine ⟨hclosed.has_field? hfirst, hclosed'.has_field? hsecond, fun chain => ?_⟩
    have hchain := hends (selector :: chain)
    rwa [endAt?_cons, endAt?_cons, hfirst, hsecond] at hchain

theorem Grows.endAt?_eq (hgrows : graph.Grows grown) (hclosed : graph.Closed)
    (hhas : graph.Has type) (chain : List Selector) :
    grown.endAt? type chain = graph.endAt? type chain :=
  ((hgrows.sameUnfolding hclosed hhas).endAt?_eq chain).symm

end TypeGraph

/-! ## Chains that start at an operand -/

namespace Frame

variable {frame later : Frame} {graph grown : TypeGraph} {operand : Operand} {object : Allocation}

/-- Where a chain of selectors ends that starts at an operand: through the parts of allocated
objects without homes, and in the type that is found at anything else. -/
def endOf? (frame : Frame) (graph : TypeGraph) : Operand → List Selector → Option (Option String)
  | operand, [] =>
    match frame.localObject? operand with
    | some object => some (some object.className)
    | none => (frame.foundType? graph operand).map graph.className?
  | operand, selector :: rest =>
    match frame.localObject? operand with
    | some object => (object.fields.get? selector).bind fun held => frame.endOf? graph held rest
    | none =>
      (frame.foundType? graph operand).bind fun type => graph.endAt? type (selector :: rest)

/-- All chains of selectors end alike from two operands, each looked at in its own frame. -/
def SameEnds (frame : Frame) (graph : TypeGraph) (operand : Operand) (later : Frame)
    (grown : TypeGraph) (other : Operand) : Prop :=
  ∀ chain, frame.endOf? graph operand chain = later.endOf? grown other chain

namespace SameEnds

variable {last : Frame} {final : TypeGraph} {other third : Operand}

theorem refl (frame : Frame) (graph : TypeGraph) (operand : Operand) :
    SameEnds frame graph operand frame graph operand := fun _ => rfl

theorem symm (hsame : SameEnds frame graph operand later grown other) :
    SameEnds later grown other frame graph operand := fun chain => (hsame chain).symm

theorem trans (hfirst : SameEnds frame graph operand later grown other)
    (hsecond : SameEnds later grown other last final third) :
    SameEnds frame graph operand last final third := fun chain =>
  (hfirst chain).trans (hsecond chain)

end SameEnds

@[simp] theorem localObject?_type (frame : Frame) (type : TypeId) :
    frame.localObject? (.type type) = none := rfl

@[simp] theorem localObject?_path (frame : Frame) (place : AccessPath) :
    frame.localObject? (.path place) = none := rfl

theorem endOf?_of_not_local (hnone : frame.localObject? operand = none) (chain : List Selector) :
    frame.endOf? graph operand chain =
      (frame.foundType? graph operand).bind fun type => graph.endAt? type chain := by
  cases chain with
  | nil =>
    rw [endOf?, hnone]
    cases frame.foundType? graph operand <;> rfl
  | cons selector rest => rw [endOf?, hnone]

theorem endOf?_of_found {type : TypeId} (hfound : frame.foundType? graph operand = some type)
    (chain : List Selector) : frame.endOf? graph operand chain = graph.endAt? type chain := by
  have hnone : frame.localObject? operand = none := by
    cases hlocal : frame.localObject? operand with
    | none => rfl
    | some object => exact nomatch hfound.symm.trans (foundType?_eq_none hlocal)
  rw [endOf?_of_not_local hnone, hfound, Option.bind_some]

@[simp] theorem endOf?_type (frame : Frame) (graph : TypeGraph) (type : TypeId)
    (chain : List Selector) : frame.endOf? graph (.type type) chain = graph.endAt? type chain :=
  endOf?_of_found rfl chain

theorem endOf?_nil_of_local (hlocal : frame.localObject? operand = some object) :
    frame.endOf? graph operand [] = some (some object.className) := by
  rw [endOf?, hlocal]

theorem endOf?_cons_of_local (hlocal : frame.localObject? operand = some object)
    (selector : Selector) (rest : List Selector) :
    frame.endOf? graph operand (selector :: rest) =
      (object.fields.get? selector).bind fun held => frame.endOf? graph held rest := by
  rw [endOf?, hlocal]

@[simp] theorem endOf?_path (frame : Frame) (graph : TypeGraph) (place : AccessPath)
    (chain : List Selector) : frame.endOf? graph (.path place) chain =
      (frame.placeType? graph place).bind fun type => graph.endAt? type chain :=
  endOf?_of_not_local rfl chain

theorem placeType?_eq_of_slots (hslots : later.slots = frame.slots) (place : AccessPath) :
    later.placeType? graph place = frame.placeType? graph place := by
  simp only [placeType?, hslots]

theorem placeType?_append (frame : Frame) (graph : TypeGraph) (place : AccessPath)
    (selectors : List Selector) : frame.placeType? graph (place.append selectors) =
      (frame.placeType? graph place).bind fun type => graph.follow? type selectors := by
  obtain ⟨root, chain⟩ := place
  cases root with
  | zero => rfl
  | succ slot =>
    cases hslot : frame.slots[slot]? with
    | none => simp [placeType?, AccessPath.append, hslot]
    | some type => simp [placeType?, AccessPath.append, hslot, TypeGraph.follow?_append]

/-- A chain from a place is a longer chain from a place above it. -/
theorem endOf?_append (frame : Frame) (graph : TypeGraph) (place : AccessPath)
    (selectors chain : List Selector) :
    frame.endOf? graph (.path (place.append selectors)) chain =
      frame.endOf? graph (.path place) (selectors ++ chain) := by
  rw [endOf?_path, endOf?_path, placeType?_append, Option.bind_assoc]
  simp only [TypeGraph.endAt?_append]

theorem endOf?_child (frame : Frame) (graph : TypeGraph) (place : AccessPath)
    (selector : Selector) (chain : List Selector) :
    frame.endOf? graph (.path (place.child selector)) chain =
      frame.endOf? graph (.path place) (selector :: chain) :=
  frame.endOf?_append graph place [selector] chain

/-- An object that has a home looks like the place of its home. -/
theorem sameEnds_home {id : AllocId} {home : AccessPath}
    (hobject : frame.allocations[id.index]? = some object) (hhome : object.home? = some home) :
    SameEnds frame graph (.fresh id) frame graph (.path home) := by
  intro chain
  have hnone : frame.localObject? (.fresh id) = none := by simp [localObject?, hobject, hhome]
  rw [endOf?_of_not_local hnone, endOf?_of_not_local rfl]
  simp [foundType?, hobject, hhome]

/-- A type that shows an object has no part that the object lacks. -/
theorem Shows.field?_eq_none {type : TypeId} {selector : Selector}
    (hshows : frame.Shows graph operand type) (hlocal : frame.localObject? operand = some object)
    (hnone : object.fields.get? selector = none) : graph.field? type selector = none := by
  obtain ⟨related, hdepicts, hrelated⟩ := hshows
  rcases hdepicts operand type hrelated with hfound | hobject
  · obtain ⟨found, hfound, -⟩ := hfound
    exact nomatch hfound.symm.trans (foundType?_eq_none hlocal)
  · obtain ⟨held, fields, hheld, hnode, hkeys, -⟩ := hobject
    obtain rfl := Option.some.inj (hlocal.symm.trans hheld)
    rw [TypeGraph.field?_eq_of_node? hnode]
    rw [OrderedMap.get?_eq_none_iff] at hnone ⊢
    exact fun hmem => hnone ((hkeys selector).mp hmem)

/-- A type that shows an operand has the unfolding of the operand. -/
theorem Shows.endAt?_eq {type : TypeId} (hshows : frame.Shows graph operand type)
    (chain : List Selector) : graph.endAt? type chain = frame.endOf? graph operand chain := by
  induction chain generalizing operand type with
  | nil =>
    cases hlocal : frame.localObject? operand with
    | none =>
      obtain ⟨found, hfound, hsame⟩ := hshows.exists_found hlocal
      rw [endOf?_of_found hfound, hsame.endAt?_eq]
    | some object =>
      rw [endOf?_nil_of_local hlocal, TypeGraph.endAt?_nil, hshows.className?_eq hlocal]
  | cons selector rest ih =>
    cases hlocal : frame.localObject? operand with
    | none =>
      obtain ⟨found, hfound, hsame⟩ := hshows.exists_found hlocal
      rw [endOf?_of_found hfound, hsame.endAt?_eq]
    | some object =>
      rw [endOf?_cons_of_local hlocal, TypeGraph.endAt?_cons]
      cases hheld : object.fields.get? selector with
      | some held =>
        obtain ⟨part, hpart, hpartShows⟩ := hshows.part hlocal hheld
        rw [hpart, Option.bind_some, Option.bind_some, ih hpartShows]
      | none => rw [hshows.field?_eq_none hlocal hheld, Option.bind_none, Option.bind_none]

theorem foundEnd_eq_of_grows (hgrows : graph.Grows grown) (hclosed : graph.Closed)
    (htypes : frame.HasTypes graph) (hoperand : ∀ type, operand = .type type → graph.Has type)
    (chain : List Selector) :
    ((frame.foundType? grown operand).bind fun type => grown.endAt? type chain) =
      (frame.foundType? graph operand).bind fun type => graph.endAt? type chain := by
  rw [foundType?_eq_of_grows hgrows hclosed htypes]
  refine Option.bind_congr fun type htype => hgrows.endAt?_eq hclosed ?_ chain
  rcases foundType?_cases htype with htype | ⟨place, -, hplace⟩
  · exact hoperand type htype
  · exact has_placeType? hclosed htypes hplace

/-- Where chains end does not change when types are added. -/
theorem endOf?_eq_of_grows (hgrows : graph.Grows grown) (hclosed : graph.Closed)
    (htypes : frame.HasTypes graph)
    (hoperand : ∀ type, operand = .type type → graph.Has type) (chain : List Selector) :
    frame.endOf? grown operand chain = frame.endOf? graph operand chain := by
  induction chain generalizing operand with
  | nil =>
    cases hlocal : frame.localObject? operand with
    | none =>
      rw [endOf?_of_not_local hlocal, endOf?_of_not_local hlocal,
        foundEnd_eq_of_grows hgrows hclosed htypes hoperand]
    | some object => rw [endOf?_nil_of_local hlocal, endOf?_nil_of_local hlocal]
  | cons selector rest ih =>
    cases hlocal : frame.localObject? operand with
    | none =>
      rw [endOf?_of_not_local hlocal, endOf?_of_not_local hlocal,
        foundEnd_eq_of_grows hgrows hclosed htypes hoperand]
    | some object =>
      obtain ⟨id, rfl, hobject, -⟩ := localObject?_eq_some_iff.mp hlocal
      rw [endOf?_cons_of_local hlocal, endOf?_cons_of_local hlocal]
      refine Option.bind_congr fun held hheld => ih fun type htype => ?_
      exact htypes.parts id.index object selector type hobject (htype ▸ hheld)

end Frame

end ShapeFlow
