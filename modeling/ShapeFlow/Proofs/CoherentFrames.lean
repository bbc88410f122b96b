import ShapeFlow.Proofs.OperandUnfoldings

/-!
# Frames that stay the same to look at

In a `Coherent` frame something stands behind everything that the frame refers to: types have nodes,
places lead somewhere, allocated objects are there, and at the home of an object its class is found.

A frame may be rearranged without a difference that chains of selectors could tell
(`Frame.Restates`).  An object that is known by its type alone may become an allocated one, a local
may be bound to another operand that looks the same, and an object may lose its home if it gets
parts that spell out what was found there (`Frame.SpellsOut`).  What makes all of this work is
`Frame.sameEnds_of_restated`: if each object is either left alone or spelt out by parts that look
right in the earlier frame, then everything looks as before, in circles of objects too, since a
chain of selectors ends.

Most rearrangements take no homes away (`Frame.Elaborates`).
-/

namespace ShapeFlow

open TypeGraph (SameUnfolding)

variable {frame later last : Frame} {graph grown final : TypeGraph} {operand other : Operand}
  {fields : OrderedMap Selector Operand}

/-! ## Coherent frames -/

theorem TypeGraph.wellFormed_iff_forall_mem (graph : TypeGraph) : graph.WellFormed ↔
    graph.Closed ∧ graph.node? scalar = some .scalar ∧
      (∀ entry ∈ graph.bare.entries, graph.node? entry.2 = some (.object entry.1 ∅)) ∧
        ∀ entry ∈ graph.interned, graph.Has entry.2 := by
  constructor
  · intro hwell
    exact ⟨hwell.closed, hwell.scalar, fun entry hentry => hwell.bare entry.1 entry.2
      ((OrderedMap.get?_eq_some_iff _ entry.1 entry.2).mpr hentry), hwell.interned⟩
  · rintro ⟨hclosed, hscalar, hbare, hinterned⟩
    exact ⟨hclosed, hscalar, fun className type htype => hbare (className, type)
      ((OrderedMap.get?_eq_some_iff _ className type).mp htype), hinterned⟩

instance (graph : TypeGraph) : Decidable graph.WellFormed :=
  decidable_of_iff _ graph.wellFormed_iff_forall_mem.symm

namespace Frame

/-- Something stands behind an operand: the type has a node, the place leads somewhere, or the
object is there. -/
def Refers (frame : Frame) (graph : TypeGraph) : Operand → Prop
  | .type type => graph.Has type
  | .path place => (frame.placeType? graph place).isSome = true
  | .fresh id => id.index < frame.allocations.size

instance (frame : Frame) (graph : TypeGraph) : DecidablePred (frame.Refers graph)
  | .type type => inferInstanceAs (Decidable (graph.Has type))
  | .path _ => inferInstanceAs (Decidable (_ = true))
  | .fresh id => inferInstanceAs (Decidable (id.index < _))

theorem refers_path_iff {place : AccessPath} :
    frame.Refers graph (.path place) ↔ ∃ type, frame.placeType? graph place = some type :=
  Option.isSome_iff_exists

theorem refers_fresh_iff {id : AllocId} :
    frame.Refers graph (.fresh id) ↔ ∃ object, frame.allocations[id.index]? = some object :=
  ⟨fun hlt => ⟨_, Array.getElem?_eq_getElem hlt⟩, fun ⟨_, hobject⟩ =>
    (Array.getElem?_eq_some_iff.mp hobject).1⟩

/-- Something stands behind everything that the frame refers to.  What is found at the home of an
object may be anything. -/
structure Founded (frame : Frame) (graph : TypeGraph) : Prop where
  wellFormed : graph.WellFormed
  slots : ∀ type ∈ frame.slots, graph.Has type
  locals : ∀ name operand, frame.locals.get? name = some operand → frame.Refers graph operand
  parts : ∀ (id : Nat) (object : Allocation) (selector : Selector) (operand : Operand),
    frame.allocations[id]? = some object → object.fields.get? selector = some operand →
      frame.Refers graph operand
  homes : ∀ (id : Nat) (object : Allocation) (home : AccessPath),
    frame.allocations[id]? = some object → object.home? = some home →
      frame.Refers graph (.path home)

namespace Founded

theorem hasTypes (hfounded : frame.Founded graph) : frame.HasTypes graph where
  slots := hfounded.slots
  parts id object selector type hobject hpart :=
    hfounded.parts id object selector (.type type) hobject hpart

/-- What is referred to can be looked at. -/
theorem stands (hfounded : frame.Founded graph) (hrefers : frame.Refers graph operand) :
    frame.Stands graph operand := by
  cases operand with
  | type held => exact Or.inl ⟨held, rfl⟩
  | path place => exact Or.inl (refers_path_iff.mp hrefers)
  | fresh id =>
    obtain ⟨object, hobject⟩ := refers_fresh_iff.mp hrefers
    cases hhome : object.home? with
    | none => exact Or.inr ⟨object, localObject?_fresh_iff.mpr ⟨hobject, hhome⟩⟩
    | some home =>
      obtain ⟨type, htype⟩ :=
        refers_path_iff.mp (hfounded.homes id.index object home hobject hhome)
      exact Or.inl ⟨type, by simp [foundType?, hobject, hhome, htype]⟩

theorem navigable (hfounded : frame.Founded graph) {id : AllocId}
    (hrefers : frame.Refers graph (.fresh id)) : frame.Navigable graph id where
  stands := hfounded.stands hrefers
  parts other object selector operand _ hobject hpart := by
    obtain ⟨hat, -⟩ := localObject?_fresh_iff.mp hobject
    exact hfounded.stands (hfounded.parts other.index object selector operand hat hpart)

/-- What is referred to has a class or is primitive. -/
theorem isSome_endOf? (hfounded : frame.Founded graph) (hrefers : frame.Refers graph operand) :
    (frame.endOf? graph operand []).isSome = true := by
  rcases hfounded.stands hrefers with ⟨type, htype⟩ | ⟨object, hobject⟩
  · rw [endOf?_of_found htype]
    rfl
  · rw [endOf?_nil_of_local hobject]
    rfl

end Founded

/-- What is referred to is referred to when types are added. -/
theorem Refers.grow (hrefers : frame.Refers graph operand) (hgrows : graph.Grows grown)
    (hclosed : graph.Closed) (htypes : frame.HasTypes graph) : frame.Refers grown operand := by
  cases operand with
  | type held => exact hgrows.has hrefers
  | path place =>
    rw [Refers, placeType?_eq_of_grows hgrows hclosed htypes]
    exact hrefers
  | fresh id => exact hrefers

/-- Something stands behind everything that the frame holds, and objects stand at their homes. -/
structure Coherent (frame : Frame) (graph : TypeGraph) : Prop where
  wellFormed : graph.WellFormed
  slots : ∀ type ∈ frame.slots, graph.Has type
  locals : ∀ name operand, frame.locals.get? name = some operand → frame.Refers graph operand
  parts : ∀ (id : Nat) (object : Allocation) (selector : Selector) (operand : Operand),
    frame.allocations[id]? = some object → object.fields.get? selector = some operand →
      frame.Refers graph operand
  housed : frame.Housed graph

theorem coherent_iff_forall_mem (frame : Frame) (graph : TypeGraph) : frame.Coherent graph ↔
    graph.WellFormed ∧ (∀ type ∈ frame.slots, graph.Has type) ∧
      (∀ entry ∈ frame.locals.entries, frame.Refers graph entry.2) ∧
        ∀ object ∈ frame.allocations.toList,
          (∀ entry ∈ object.fields.entries, frame.Refers graph entry.2) ∧
            ∀ home ∈ object.home?, frame.classAt? graph home = some object.className := by
  constructor
  · intro hcoherent
    refine ⟨hcoherent.wellFormed, hcoherent.slots, fun entry hentry => hcoherent.locals entry.1
      entry.2 ((OrderedMap.get?_eq_some_iff _ entry.1 entry.2).mpr hentry),
      fun object hmem => ?_⟩
    obtain ⟨id, hobject⟩ := List.mem_iff_getElem?.mp hmem
    rw [Array.getElem?_toList] at hobject
    refine ⟨fun entry hentry => hcoherent.parts id object entry.1 entry.2 hobject
      ((OrderedMap.get?_eq_some_iff _ entry.1 entry.2).mpr hentry), fun home hhome => ?_⟩
    exact hcoherent.housed id object home hobject hhome
  · rintro ⟨hwell, hslots, hlocals, hobjects⟩
    have hmem : ∀ (id : Nat) (object : Allocation), frame.allocations[id]? = some object →
        object ∈ frame.allocations.toList := fun id object hobject =>
      Array.mem_toList_iff.mpr (Array.mem_of_getElem? hobject)
    refine ⟨hwell, hslots, fun name operand hlocal => hlocals (name, operand)
      ((OrderedMap.get?_eq_some_iff _ name operand).mp hlocal),
      fun id object selector operand hobject hpart => ?_, fun id object home hobject hhome => ?_⟩
    · exact (hobjects object (hmem id object hobject)).1 (selector, operand)
        ((OrderedMap.get?_eq_some_iff _ selector operand).mp hpart)
    · exact (hobjects object (hmem id object hobject)).2 home hhome

instance (frame : Frame) (graph : TypeGraph) : Decidable (frame.Coherent graph) :=
  decidable_of_iff _ (coherent_iff_forall_mem frame graph).symm

theorem Coherent.hasTypes (hcoherent : frame.Coherent graph) : frame.HasTypes graph where
  slots := hcoherent.slots
  parts id object selector type hobject hpart :=
    hcoherent.parts id object selector (.type type) hobject hpart

theorem Coherent.grounded (hcoherent : frame.Coherent graph) : frame.Grounded graph :=
  ⟨graph, .refl graph, hcoherent.wellFormed.closed, hcoherent.slots⟩

/-- The home of an object leads somewhere. -/
theorem Coherent.refers_home (hcoherent : frame.Coherent graph) {id : Nat} {object : Allocation}
    {home : AccessPath} (hobject : frame.allocations[id]? = some object)
    (hhome : object.home? = some home) : frame.Refers graph (.path home) := by
  obtain ⟨type, htype, -⟩ :=
    Option.bind_eq_some_iff.mp (hcoherent.housed id object home hobject hhome)
  exact refers_path_iff.mpr ⟨type, htype⟩

theorem Coherent.founded (hcoherent : frame.Coherent graph) : frame.Founded graph where
  wellFormed := hcoherent.wellFormed
  slots := hcoherent.slots
  locals := hcoherent.locals
  parts := hcoherent.parts
  homes _ _ _ hobject hhome := hcoherent.refers_home hobject hhome

theorem Coherent.navigable (hcoherent : frame.Coherent graph) {id : AllocId}
    (hrefers : frame.Refers graph (.fresh id)) : frame.Navigable graph id :=
  hcoherent.founded.navigable hrefers

/-- What is referred to has a class or is primitive. -/
theorem Coherent.isSome_endOf? (hcoherent : frame.Coherent graph)
    (hrefers : frame.Refers graph operand) : (frame.endOf? graph operand []).isSome = true :=
  hcoherent.founded.isSome_endOf? hrefers

/-- An object shows the class that it was made with. -/
theorem Coherent.endOf?_fresh (hcoherent : frame.Coherent graph) {id : AllocId}
    {object : Allocation} (hobject : frame.allocations[id.index]? = some object) :
    frame.endOf? graph (.fresh id) [] = some (some object.className) := by
  cases hhome : object.home? with
  | none => exact endOf?_nil_of_local (localObject?_fresh_iff.mpr ⟨hobject, hhome⟩)
  | some home =>
    obtain ⟨type, htype, hclass⟩ :=
      Option.bind_eq_some_iff.mp (hcoherent.housed id.index object home hobject hhome)
    rw [sameEnds_home hobject hhome, endOf?_path, htype, Option.bind_some, TypeGraph.endAt?_nil,
      hclass]

theorem Refers.mono (hrefers : frame.Refers graph operand) (hgrows : graph.Grows grown)
    (hcoherent : frame.Coherent graph) : frame.Refers grown operand :=
  hrefers.grow hgrows hcoherent.wellFormed.closed hcoherent.hasTypes

theorem Coherent.mono (hcoherent : frame.Coherent graph) (hgrows : graph.Grows grown)
    (hwell : grown.WellFormed) : frame.Coherent grown where
  wellFormed := hwell
  slots type hmem := hgrows.has (hcoherent.slots type hmem)
  locals name operand hlocal := (hcoherent.locals name operand hlocal).mono hgrows hcoherent
  parts id object selector operand hobject hpart :=
    (hcoherent.parts id object selector operand hobject hpart).mono hgrows hcoherent
  housed := hcoherent.housed.mono hcoherent.grounded hgrows

theorem Coherent.sameEnds_mono (hcoherent : frame.Coherent graph) (hgrows : graph.Grows grown)
    (hrefers : frame.Refers graph operand) :
    SameEnds frame graph operand frame grown operand := fun chain =>
  (endOf?_eq_of_grows hgrows hcoherent.wellFormed.closed hcoherent.hasTypes
    (fun _ heq => by rw [heq] at hrefers; exact hrefers) chain).symm

/-! ## Rearranged frames -/

/-- The later frame looks the same: from every operand of the earlier one all chains of selectors
end as before, and so they do from what the locals hold. -/
structure Restates (frame : Frame) (graph : TypeGraph) (later : Frame) (grown : TypeGraph) :
    Prop where
  coherent : later.Coherent grown
  slots : later.slots = frame.slots
  writes : later.writes = frame.writes
  names : later.locals.keys = frame.locals.keys
  refers : ∀ operand, frame.Refers graph operand → later.Refers grown operand
  operands : ∀ operand, frame.Refers graph operand →
    SameEnds frame graph operand later grown operand
  locals : ∀ name held, frame.locals.get? name = some held →
    ∃ after, later.locals.get? name = some after ∧ SameEnds frame graph held later grown after

/-- Each object is still there, and at home where it was. -/
def SameHomes (frame later : Frame) : Prop :=
  ∀ (id : Nat) (object : Allocation), frame.allocations[id]? = some object →
    ∃ after, later.allocations[id]? = some after ∧ after.home? = object.home?

/-- The later frame looks the same, and no object has moved. -/
structure Elaborates (frame : Frame) (graph : TypeGraph) (later : Frame) (grown : TypeGraph) :
    Prop extends Restates frame graph later grown where
  homes : frame.SameHomes later

theorem SameHomes.refl (frame : Frame) : frame.SameHomes frame := fun _ object hobject =>
  ⟨object, hobject, rfl⟩

theorem SameHomes.trans (hfirst : frame.SameHomes later) (hsecond : later.SameHomes last) :
    frame.SameHomes last := by
  intro id object hobject
  obtain ⟨middle, hmiddle, hhome⟩ := hfirst id object hobject
  obtain ⟨after, hafter, hhome'⟩ := hsecond id middle hmiddle
  exact ⟨after, hafter, hhome'.trans hhome⟩

theorem SameHomes.update (frame : Frame) (id : AllocId) {change : Allocation → Allocation}
    (hhome : ∀ object, (change object).home? = object.home?) :
    frame.SameHomes (frame.update id change) := by
  intro other object hobject
  rw [Frame.update, Array.getElem?_modify]
  split
  · exact ⟨change object, by rw [hobject]; rfl, hhome object⟩
  · exact ⟨object, hobject, rfl⟩

namespace Restates

theorem trans (hfirst : frame.Restates graph later grown)
    (hsecond : later.Restates grown last final) : frame.Restates graph last final where
  coherent := hsecond.coherent
  slots := hsecond.slots.trans hfirst.slots
  writes := hsecond.writes.trans hfirst.writes
  names := hsecond.names.trans hfirst.names
  refers operand hrefers := hsecond.refers operand (hfirst.refers operand hrefers)
  operands operand hrefers := (hfirst.operands operand hrefers).trans
    (hsecond.operands operand (hfirst.refers operand hrefers))
  locals name held hheld := by
    obtain ⟨middle, hmiddle, hsame⟩ := hfirst.locals name held hheld
    obtain ⟨after, hafter, hsame'⟩ := hsecond.locals name middle hmiddle
    exact ⟨after, hafter, hsame.trans hsame'⟩

/-- An operand that looked like another one still does so. -/
theorem sameEnds (hrestates : frame.Restates graph later grown)
    (hoperand : frame.Refers graph operand) (hother : frame.Refers graph other)
    (hsame : SameEnds frame graph operand frame graph other) :
    SameEnds later grown operand later grown other :=
  (hrestates.operands operand hoperand).symm.trans
    (hsame.trans (hrestates.operands other hother))

end Restates

namespace Elaborates

/-- Types are added, and nothing else happens. -/
theorem of_grows (hcoherent : frame.Coherent graph) (hgrows : graph.Grows grown)
    (hwell : grown.WellFormed) : frame.Elaborates graph frame grown where
  coherent := hcoherent.mono hgrows hwell
  slots := rfl
  writes := rfl
  names := rfl
  refers _ hrefers := hrefers.mono hgrows hcoherent
  operands _ hrefers := hcoherent.sameEnds_mono hgrows hrefers
  locals name held hheld :=
    ⟨held, hheld, hcoherent.sameEnds_mono hgrows (hcoherent.locals name held hheld)⟩
  homes := .refl frame

theorem refl (hcoherent : frame.Coherent graph) : frame.Elaborates graph frame graph :=
  of_grows hcoherent (.refl graph) hcoherent.wellFormed

theorem trans (hfirst : frame.Elaborates graph later grown)
    (hsecond : later.Elaborates grown last final) : frame.Elaborates graph last final :=
  ⟨hfirst.toRestates.trans hsecond.toRestates, hfirst.homes.trans hsecond.homes⟩

end Elaborates

/-! ## Parts that spell out an operand -/

/-- The parts are those that the operand has to look at. -/
structure SpellsOut (frame : Frame) (graph : TypeGraph) (fields : OrderedMap Selector Operand)
    (operand : Operand) : Prop where
  refers : ∀ selector held, fields.get? selector = some held → frame.Refers graph held
  ends : ∀ selector rest, ((fields.get? selector).bind fun held => frame.endOf? graph held rest) =
    frame.endOf? graph operand (selector :: rest)

/-- An object without a home is spelt out by its parts. -/
theorem Coherent.spellsOut (hcoherent : frame.Coherent graph) {id : AllocId}
    {object : Allocation} (hlocal : frame.localObject? (.fresh id) = some object) :
    frame.SpellsOut graph object.fields (.fresh id) where
  refers selector held hheld := by
    obtain ⟨hobject, -⟩ := localObject?_fresh_iff.mp hlocal
    exact hcoherent.parts id.index object selector held hobject hheld
  ends selector rest := (endOf?_cons_of_local hlocal selector rest).symm

theorem SpellsOut.restated (hspells : frame.SpellsOut graph fields operand)
    (hoperand : frame.Refers graph operand) (hrestates : frame.Restates graph later grown) :
    later.SpellsOut grown fields operand where
  refers selector held hheld := hrestates.refers held (hspells.refers selector held hheld)
  ends selector rest := by
    rw [← hrestates.operands operand hoperand, ← hspells.ends]
    refine Option.bind_congr fun held hheld => ?_
    exact (hrestates.operands held (hspells.refers selector held hheld) rest).symm

/-- Another operand that looks the same is spelt out as well. -/
theorem SpellsOut.of_sameEnds (hspells : frame.SpellsOut graph fields operand)
    (hsame : SameEnds frame graph operand frame graph other) :
    frame.SpellsOut graph fields other where
  refers := hspells.refers
  ends selector rest := (hspells.ends selector rest).trans (hsame (selector :: rest))

/-- A part may be replaced by an operand that looks the same. -/
theorem SpellsOut.insert (hspells : frame.SpellsOut graph fields operand) {selector : Selector}
    {held : Operand} (hheld : frame.Refers graph held)
    (hsame : ∀ rest, frame.endOf? graph held rest =
      frame.endOf? graph operand (selector :: rest)) :
    frame.SpellsOut graph (fields.insert selector held) operand where
  refers key found hfound := by
    rw [OrderedMap.get?_insert] at hfound
    split at hfound
    · obtain rfl := Option.some.inj hfound
      exact hheld
    · exact hspells.refers key found hfound
  ends key rest := by
    rw [OrderedMap.get?_insert]
    split
    · rename_i heq
      subst heq
      exact hsame rest
    · exact hspells.ends key rest

/-- In the later frame the object is spelt out by its parts, as the earlier frame has them, or it is
found at the type at which it was found. -/
def RestatedAt (frame : Frame) (graph : TypeGraph) (later : Frame) (id : AllocId) : Prop :=
  (∃ object, later.localObject? (.fresh id) = some object ∧
    frame.endOf? graph (.fresh id) [] = some (some object.className) ∧
    frame.SpellsOut graph object.fields (.fresh id)) ∨
  later.localObject? (.fresh id) = none ∧ frame.localObject? (.fresh id) = none ∧
    later.foundType? graph (.fresh id) = frame.foundType? graph (.fresh id)

/-- If each object is left alone or spelt out, then everything looks as before. -/
theorem sameEnds_of_restated (hslots : later.slots = frame.slots)
    (hobjects : ∀ id, frame.Refers graph (.fresh id) → frame.RestatedAt graph later id)
    (hrefers : frame.Refers graph operand) : SameEnds frame graph operand later graph operand := by
  intro chain
  induction chain generalizing operand with
  | nil =>
    cases operand with
    | type held => rw [endOf?_type, endOf?_type]
    | path place => rw [endOf?_path, endOf?_path, placeType?_eq_of_slots hslots]
    | fresh id =>
      rcases hobjects id hrefers with ⟨object, hlocal, hclass, -⟩ | ⟨hnone, hnone', hfound⟩
      · rw [hclass, endOf?_nil_of_local hlocal]
      · rw [endOf?_of_not_local hnone, endOf?_of_not_local hnone', hfound]
  | cons selector rest ih =>
    cases operand with
    | type held => rw [endOf?_type, endOf?_type]
    | path place => rw [endOf?_path, endOf?_path, placeType?_eq_of_slots hslots]
    | fresh id =>
      rcases hobjects id hrefers with ⟨object, hlocal, -, hspells⟩ | ⟨hnone, hnone', hfound⟩
      · rw [← hspells.ends, endOf?_cons_of_local hlocal]
        exact Option.bind_congr fun held hheld => ih (hspells.refers selector held hheld)
      · rw [endOf?_of_not_local hnone, endOf?_of_not_local hnone', hfound]

/-- An object that stays as it is is restated. -/
theorem Coherent.restatedAt_of_eq (hcoherent : frame.Coherent graph)
    (hslots : later.slots = frame.slots) {id : AllocId} (hrefers : frame.Refers graph (.fresh id))
    (hsame : later.allocations[id.index]? = frame.allocations[id.index]?) :
    frame.RestatedAt graph later id := by
  have hlocal : later.localObject? (.fresh id) = frame.localObject? (.fresh id) := by
    simp only [localObject?, hsame]
  obtain ⟨object, hobject⟩ := refers_fresh_iff.mp hrefers
  cases hheld : frame.localObject? (.fresh id) with
  | none =>
    refine Or.inr ⟨hlocal.trans hheld, hheld, ?_⟩
    simp only [foundType?, hsame, funext (placeType?_eq_of_slots hslots)]
  | some held =>
    exact Or.inl ⟨held, hlocal.trans hheld, endOf?_nil_of_local hheld, hcoherent.spellsOut hheld⟩

/-! ## Steps that rearrange a frame -/

/-- What is referred to does not depend on what the locals and the parts of objects hold. -/
theorem Refers.of_size_le (hrefers : frame.Refers graph operand)
    (hslots : later.slots = frame.slots)
    (hsize : frame.allocations.size ≤ later.allocations.size) : later.Refers graph operand := by
  cases operand with
  | type held => exact hrefers
  | path place =>
    rw [Refers, placeType?_eq_of_slots hslots]
    exact hrefers
  | fresh id => exact Nat.lt_of_lt_of_le hrefers hsize

/-- A local is bound to another operand that looks the same. -/
theorem Coherent.setLocal (hcoherent : frame.Coherent graph) {name : String}
    (hlocal : frame.locals.get? name = some operand) (hrefers : frame.Refers graph other)
    (hsame : SameEnds frame graph operand frame graph other) :
    frame.Elaborates graph (frame.setLocal name other) graph := by
  have hends : ∀ held, frame.Refers graph held →
      SameEnds frame graph held (frame.setLocal name other) graph held := fun held hheld =>
    sameEnds_of_restated rfl (fun id hid => hcoherent.restatedAt_of_eq rfl hid rfl) hheld
  refine ⟨⟨⟨hcoherent.wellFormed, hcoherent.slots, ?_, hcoherent.parts, hcoherent.housed⟩, rfl, rfl,
    ?_, fun held hheld => hheld.of_size_le rfl (Nat.le_refl _), hends, ?_⟩, .refl frame⟩
  · intro key held hheld
    rw [Frame.setLocal, OrderedMap.get?_insert] at hheld
    split at hheld
    · obtain rfl := Option.some.inj hheld
      exact hrefers
    · exact hcoherent.locals key held hheld
  · exact (frame.locals.keys_insert name other).trans
      (if_pos ((frame.locals.mem_keys_iff name).mpr ⟨operand, hlocal⟩))
  · intro key held hheld
    rw [Frame.setLocal, OrderedMap.get?_insert]
    split
    · rename_i heq
      obtain rfl := Option.some.inj (hlocal.symm.trans (heq ▸ hheld))
      exact ⟨other, rfl, hsame.trans (hends other hrefers)⟩
    · exact ⟨held, hheld, hends held (hcoherent.locals key held hheld)⟩

/-- The objects that were there stay as they are when one more is allocated. -/
theorem getElem?_allocate {id : Nat} {object : Allocation}
    (hobject : frame.allocations[id]? = some object) (added : Allocation) :
    (frame.allocate added).2.allocations[id]? = some object := by
  have hlt := (Array.getElem?_eq_some_iff.mp hobject).1
  rw [Frame.allocate, Array.getElem?_push, if_neg (by omega), hobject]

/-- An object without a home is added. -/
theorem Coherent.allocate (hcoherent : frame.Coherent graph) (className : String)
    (hrefers : ∀ selector held, fields.get? selector = some held → frame.Refers graph held) :
    frame.Elaborates graph (frame.allocate { className, fields }).2 graph := by
  have hquiet : frame.Quiet (frame.allocate { className, fields }).2 := .allocate frame rfl
  have hslots := hquiet.slots
  have hsize : frame.allocations.size ≤
      (frame.allocate { className, fields }).2.allocations.size := by
    simp [Frame.allocate]
  have hends : ∀ held, frame.Refers graph held →
      SameEnds frame graph held (frame.allocate { className, fields }).2 graph held := by
    intro held hheld
    refine sameEnds_of_restated rfl (fun id hid => ?_) hheld
    obtain ⟨object, hobject⟩ := refers_fresh_iff.mp hid
    exact hcoherent.restatedAt_of_eq hslots hid
      ((getElem?_allocate hobject _).trans hobject.symm)
  refine ⟨⟨⟨hcoherent.wellFormed, hcoherent.slots,
    fun name held hheld => (hcoherent.locals name held hheld).of_size_le rfl hsize, ?_,
    hcoherent.housed.quiet hquiet⟩, rfl, rfl, rfl, fun held hheld => hheld.of_size_le rfl hsize,
    hends, fun name held hheld => ⟨held, hheld, hends held (hcoherent.locals name held hheld)⟩⟩,
    fun _ object hobject => ⟨object, getElem?_allocate hobject _, rfl⟩⟩
  intro id object selector held hobject hheld
  simp only [Frame.allocate, Array.getElem?_push] at hobject
  split at hobject
  · obtain rfl := Option.some.inj hobject
    exact (hrefers selector held hheld).of_size_le rfl hsize
  · exact (hcoherent.parts id object selector held hobject hheld).of_size_le rfl hsize

/-- A new object looks like the operand that its class and its parts are those of. -/
theorem Coherent.allocate_sameEnds (hcoherent : frame.Coherent graph) {className : String}
    (hrefers : frame.Refers graph operand)
    (hclass : frame.endOf? graph operand [] = some (some className))
    (hspells : frame.SpellsOut graph fields operand) :
    SameEnds frame graph operand (frame.allocate { className, fields }).2 graph
      (.fresh (frame.allocate { className, fields }).1) := by
  have helaborates := hcoherent.allocate className hspells.refers
  have hlocal : (frame.allocate { className, fields }).2.localObject?
      (.fresh (frame.allocate { className, fields }).1) = some { className, fields } :=
    localObject?_fresh_iff.mpr ⟨by simp [Frame.allocate], rfl⟩
  intro chain
  cases chain with
  | nil => rw [hclass, endOf?_nil_of_local hlocal]
  | cons selector rest =>
    rw [endOf?_cons_of_local hlocal, helaborates.operands operand hrefers]
    exact ((hspells.restated hrefers helaborates.toRestates).ends selector rest).symm

/-- What a change of an object must leave: its class, and either its home or, where it has no home
afterwards, parts that spell out what it looked like. -/
structure Recasts (frame : Frame) (graph : TypeGraph) (id : AllocId) (object after : Allocation) :
    Prop where
  className : after.className = object.className
  refers : ∀ selector held, after.fields.get? selector = some held → frame.Refers graph held
  home : after.home? = none ∨ after.home? = object.home?
  spells : after.home? = none → frame.SpellsOut graph after.fields (.fresh id)

/-- A home that is left is the one that there was. -/
theorem Recasts.home?_eq {id : AllocId} {object after : Allocation} {home : AccessPath}
    (hrecasts : frame.Recasts graph id object after) (hhome : after.home? = some home) :
    object.home? = some home := by
  rcases hrecasts.home with hnone | hkept
  · exact absurd (hhome.symm.trans hnone) (Option.some_ne_none home)
  · exact hkept.symm.trans hhome

/-- An object is changed without a difference that could be told. -/
theorem Coherent.update (hcoherent : frame.Coherent graph) {id : AllocId} {object : Allocation}
    (hobject : frame.allocations[id.index]? = some object) {change : Allocation → Allocation}
    (hrecasts : frame.Recasts graph id object (change object)) :
    frame.Restates graph (frame.update id change) graph := by
  have hslots : (frame.update id change).slots = frame.slots := rfl
  have hat : (frame.update id change).allocations[id.index]? = some (change object) := by
    simp [Frame.update, Array.getElem?_modify, hobject]
  have helse : ∀ other : Nat, other ≠ id.index →
      (frame.update id change).allocations[other]? = frame.allocations[other]? := by
    intro other hne
    rw [Frame.update, Array.getElem?_modify, if_neg (Ne.symm hne)]
  have hsize : frame.allocations.size ≤ (frame.update id change).allocations.size :=
    Nat.le_of_eq Array.size_modify.symm
  have hends : ∀ held, frame.Refers graph held →
      SameEnds frame graph held (frame.update id change) graph held := by
    intro held hheld
    refine sameEnds_of_restated rfl (fun other hother => ?_) hheld
    by_cases heq : other = id
    · subst heq
      cases hhome : (change object).home? with
      | none =>
        refine Or.inl ⟨change object, localObject?_fresh_iff.mpr ⟨hat, hhome⟩, ?_,
          hrecasts.spells hhome⟩
        rw [hcoherent.endOf?_fresh hobject, hrecasts.className]
      | some home =>
        have hkept := hrecasts.home?_eq hhome
        refine Or.inr ⟨?_, ?_, ?_⟩
        · simp [localObject?, hat, hhome]
        · simp [localObject?, hobject, hkept]
        · simp only [foundType?, hat, hobject, Option.bind_some, hhome, hkept]
          rfl
    · exact hcoherent.restatedAt_of_eq hslots hother
        (helse other.index fun hindex => heq (AllocId.index_inj.mp hindex))
  refine ⟨⟨hcoherent.wellFormed, hcoherent.slots,
    fun name held hheld => (hcoherent.locals name held hheld).of_size_le rfl hsize, ?_, ?_⟩, rfl,
    rfl, rfl, fun held hheld => hheld.of_size_le rfl hsize, hends,
    fun name held hheld => ⟨held, hheld, hends held (hcoherent.locals name held hheld)⟩⟩
  · intro other after selector held hafter hheld
    by_cases heq : other = id.index
    · subst heq
      obtain rfl := Option.some.inj (hat.symm.trans hafter)
      exact (hrecasts.refers selector held hheld).of_size_le rfl hsize
    · rw [helse other heq] at hafter
      exact (hcoherent.parts other after selector held hafter hheld).of_size_le rfl hsize
  · intro other after home hafter hhome
    by_cases heq : other = id.index
    · subst heq
      obtain rfl := Option.some.inj (hat.symm.trans hafter)
      rw [hrecasts.className]
      exact hcoherent.housed id.index object home hobject (hrecasts.home?_eq hhome)
    · rw [helse other heq] at hafter
      exact hcoherent.housed other after home hafter hhome

/-- An object gives up its home and gets parts that spell out what was found there. -/
theorem Coherent.release (hcoherent : frame.Coherent graph) {id : AllocId}
    (hrefers : frame.Refers graph (.fresh id))
    (hspells : frame.SpellsOut graph fields (.fresh id)) :
    frame.Restates graph (frame.release id fields) graph := by
  obtain ⟨object, hobject⟩ := refers_fresh_iff.mp hrefers
  exact hcoherent.update hobject ⟨rfl, hspells.refers, Or.inl rfl, fun _ => hspells⟩

end Frame

end ShapeFlow
