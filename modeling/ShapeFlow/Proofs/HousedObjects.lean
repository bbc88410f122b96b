import ShapeFlow.Proofs.Rewrites

/-!
# Objects stand at their homes

From the moment at which an object gets a home it is told by it, so its class is from then on the
class of the type that is found there.  In a `Housed` frame this is the class that the object was
made with.

Quiet steps give no homes.  A write rebuilds a slot, and the class found at a place stays unless
the place lies within the target (`Rebinds.classAt?_eq`); the objects at home there have just lost
their homes (`vacate_vacant`).  The object that is written, and those that it leads to, get homes
at which the slot has the types that show them (`Placement.visit_houses`).  These types were taken
before the slot was rebuilt, and an object may show another type after that; but it still has its
class, so that, other than for the record, no write has to be clear here.
-/

namespace ShapeFlow

open TypeGraph (SameUnfolding)

/-! ## Classes at the ends of chains -/

namespace TypeGraph

variable {graph grown left right : TypeGraph} {type part : TypeId}

/-- The class of the type to which a chain of selectors leads. -/
def classAt? (graph : TypeGraph) (type : TypeId) (chain : List Selector) : Option String :=
  (graph.follow? type chain).bind graph.className?

theorem classAt?_cons (graph : TypeGraph) (type : TypeId) (selector : Selector)
    (chain : List Selector) : graph.classAt? type (selector :: chain) =
      (graph.field? type selector).bind fun inner => graph.classAt? inner chain := by
  rw [classAt?, follow?_cons, Option.bind_assoc]
  rfl

theorem SameUnfolding.classAt?_eq {first second : TypeId}
    (hsame : SameUnfolding left first right second) (chain : List Selector) :
    left.classAt? first chain = right.classAt? second chain := by
  have hends := hsame chain
  unfold classAt?
  cases hleft : left.follow? first chain with
  | none =>
    cases hright : right.follow? second chain with
    | none => rfl
    | some last => simp [hleft, hright, AlikeEnds] at hends
  | some last =>
    obtain ⟨other, hright, hsame'⟩ := hsame.follow? hleft
    rw [hright]
    exact hsame'.className?_eq

/-- Rebinding the end of a chain changes no class but those from there on. -/
theorem bindAt?_classAt? {selectors : List Selector} {result : TypeId × TypeGraph}
    (hwell : graph.WellFormed) (hpart : graph.Has part) (hhas : graph.Has type)
    (hbind : graph.bindAt? type selectors part = some result) {chain : List Selector}
    (houtside : ¬ selectors <+: chain) :
    result.2.classAt? result.1 chain = graph.classAt? type chain := by
  induction selectors generalizing type result chain with
  | nil => exact absurd List.nil_prefix houtside
  | cons selector rest ih =>
    obtain ⟨inner, rebuilt, hinner, hrebuilt, hbind⟩ := exists_of_bindAt?_cons hbind
    have hgrows : graph.Grows rebuilt.2 := .bindAt? hrebuilt
    obtain ⟨hwell', hhas'⟩ := bindAt?_wellFormed hwell hpart hrebuilt
    cases chain with
    | nil =>
      obtain ⟨className, fields, hnode, hlooks⟩ := bindField?_looksLike hwell' hhas' hbind
      obtain ⟨held, hheld, -⟩ := hlooks
      rw [hgrows.node?_eq type hhas] at hnode
      simp [classAt?, className?, hnode, hheld, TypeNode.className?]
    | cons first chain =>
      have hfield := bindField?_field? hwell' hhas' hbind first
      rw [classAt?_cons, classAt?_cons]
      by_cases hfirst : first = selector
      · subst hfirst
        rw [List.prefix_cons_inj] at houtside
        have hrest : rest ≠ [] := fun hnil => houtside (hnil ▸ List.nil_prefix)
        rw [if_pos rfl] at hfield
        obtain ⟨after, hafter, hsame⟩ := exists_of_rel hfield rfl
        rw [hinner hrest, hafter]
        calc result.2.classAt? after chain = rebuilt.2.classAt? rebuilt.1 chain :=
              (hsame.classAt?_eq chain).symm
          _ = graph.classAt? inner chain :=
              ih (hwell.closed.has_field? (hinner hrest)) hrebuilt houtside
      · rw [if_neg hfirst, hgrows.field?_eq hhas] at hfield
        cases hbefore : graph.field? type first with
        | none =>
          rw [hbefore] at hfield
          rw [eq_none_of_rel hfield rfl]
          rfl
        | some before =>
          rw [hbefore] at hfield
          obtain ⟨after, hafter, hsame⟩ := exists_of_rel hfield rfl
          rw [hafter]
          calc result.2.classAt? after chain = rebuilt.2.classAt? before chain :=
                (hsame.classAt?_eq chain).symm
            _ = graph.classAt? before chain :=
                ((hgrows.sameUnfolding hwell.closed
                  (hwell.closed.has_field? hbefore)).classAt?_eq chain).symm

end TypeGraph

variable {frame later placed : Frame} {graph grown final : TypeGraph} {arguments : List TypeId}
  {declarations : Declarations} {span : Span} {operand : Operand} {target place : AccessPath}

namespace Frame

/-- The class of the type found at a place. -/
def classAt? (frame : Frame) (graph : TypeGraph) (place : AccessPath) : Option String :=
  (frame.placeType? graph place).bind graph.className?

theorem classAt?_eq_of_slots (hslots : later.slots = frame.slots) (graph : TypeGraph)
    (place : AccessPath) : later.classAt? graph place = frame.classAt? graph place := by
  simp only [classAt?, placeType?, hslots]

/-- The types of the slots belong to an earlier graph, in which nothing leads outside. -/
def Grounded (frame : Frame) (graph : TypeGraph) : Prop :=
  ∃ start : TypeGraph, start.Grows graph ∧ start.Closed ∧ ∀ type ∈ frame.slots, start.Has type

theorem Sound.grounded (hsound : frame.Sound graph arguments) : frame.Grounded graph :=
  ⟨graph, .refl graph, hsound.wellFormed.closed, hsound.hasTypes.slots⟩

theorem Grounded.of_slots (hgrounded : frame.Grounded graph) (hslots : later.slots = frame.slots)
    (hgrows : graph.Grows grown) : later.Grounded grown := by
  obtain ⟨start, hstart, hclosed, hhas⟩ := hgrounded
  exact ⟨start, hstart.trans hgrows, hclosed, by rw [hslots]; exact hhas⟩

theorem classAt?_eq_of_grows (hgrounded : frame.Grounded graph) (hgrows : graph.Grows grown)
    (place : AccessPath) : frame.classAt? grown place = frame.classAt? graph place := by
  obtain ⟨start, hstart, hclosed, hslots⟩ := hgrounded
  unfold classAt? placeType?
  split
  · rfl
  · rename_i slot _
    cases hheld : frame.slots[slot]? with
    | none => rfl
    | some held =>
      have hhas := hslots held (List.mem_of_getElem? hheld)
      calc grown.classAt? held place.selectors = start.classAt? held place.selectors :=
            (((hstart.trans hgrows).sameUnfolding hclosed hhas).classAt?_eq _).symm
        _ = graph.classAt? held place.selectors :=
            (hstart.sameUnfolding hclosed hhas).classAt?_eq _

/-- The class found at a place stays when a slot is rebuilt, unless the place lies within the
target. -/
theorem Rebinds.classAt?_eq {part current updated : TypeId} {slot : Nat}
    (hrebinds : frame.Rebinds graph target part slot current updated grown)
    (hsound : frame.Sound graph arguments) (hpart : graph.Has part)
    (houtside : place.liesWithin target = false) :
    (frame.withSlot slot updated).classAt? grown place = frame.classAt? graph place := by
  have hwell := hsound.wellFormed
  unfold classAt? placeType? withSlot
  split
  · rfl
  · rename_i position hroot
    rw [List.getElem?_set]
    by_cases hslot : slot = position
    · subst hslot
      have hlt := (List.getElem?_eq_some_iff.mp hrebinds.held).1
      have hroots : place.root = target.root := hroot.trans hrebinds.root.symm
      rw [if_pos rfl, if_pos hlt, hrebinds.held]
      simp only [AccessPath.liesWithin, hroots, beq_self_eq_true, Bool.true_and,
        ← Bool.not_eq_true, List.isPrefixOf_iff_prefix] at houtside
      exact TypeGraph.bindAt?_classAt? hwell hpart (hrebinds.has_current hsound) hrebinds.bind
        houtside
    · rw [if_neg hslot]
      cases hheld : frame.slots[position]? with
      | none => rfl
      | some held =>
        have hhas := (hsound.slots position held hheld).1
        exact ((hrebinds.grows.sameUnfolding hwell.closed hhas).classAt?_eq place.selectors).symm

/-- All objects are still there, with their classes. -/
def KeepsObjects (frame later : Frame) : Prop :=
  ∀ (id : Nat) (object : Allocation), frame.allocations[id]? = some object →
    ∃ after, later.allocations[id]? = some after ∧ after.className = object.className

theorem KeepsObjects.trans {last : Frame} (hfirst : frame.KeepsObjects later)
    (hsecond : later.KeepsObjects last) : frame.KeepsObjects last := by
  intro id object hobject
  obtain ⟨middle, hmiddle, hclass⟩ := hfirst id object hobject
  obtain ⟨after, hafter, hclass'⟩ := hsecond id middle hmiddle
  exact ⟨after, hafter, hclass'.trans hclass⟩

/-! ## Homes -/

/-- At the home of an object its class is found. -/
def Housed (frame : Frame) (graph : TypeGraph) : Prop :=
  ∀ (id : Nat) (object : Allocation) (home : AccessPath), frame.allocations[id]? = some object →
    object.home? = some home → frame.classAt? graph home = some object.className

/-- A new frame has no objects. -/
theorem housed_start (slots : List TypeId) (graph : TypeGraph) :
    ({ slots } : Frame).Housed graph := fun _ _ _ hobject => nomatch hobject

theorem Housed.of_eq (hhoused : frame.Housed graph) (hslots : later.slots = frame.slots)
    (hsame : later.allocations = frame.allocations) : later.Housed graph := by
  intro id object home hobject hhome
  rw [classAt?_eq_of_slots hslots]
  exact hhoused id object home (by rw [← hsame, hobject]) hhome

theorem Housed.mono (hhoused : frame.Housed graph) (hgrounded : frame.Grounded graph)
    (hgrows : graph.Grows grown) : frame.Housed grown := by
  intro id object home hobject hhome
  rw [classAt?_eq_of_grows hgrounded hgrows]
  exact hhoused id object home hobject hhome

/-- Quiet steps give no homes, and objects keep their classes. -/
theorem Housed.quiet (hhoused : frame.Housed graph) (hquiet : frame.Quiet later) :
    later.Housed graph := by
  intro id object home hobject hhome
  obtain ⟨before, hbefore, hhome'⟩ := hquiet.homes id object home hobject hhome
  obtain ⟨after, hafter, hclass⟩ := hquiet.objects id before hbefore
  obtain rfl := Option.some.inj (hobject.symm.trans hafter)
  rw [classAt?_eq_of_slots hquiet.slots, hclass]
  exact hhoused id before home hbefore hhome'

end Frame

/-! ## The homes of a placed object -/

/-- An object without a home comes to stand at a place of the rebuilt frame: the type found there
shows the object as it was before. -/
structure Frame.ComesToStand (frame placed : Frame) (graph : TypeGraph) (id : AllocId)
    (place : AccessPath) (type : TypeId) : Prop where
  settled : frame.Settled (.fresh id)
  found : placed.placeType? graph place = some type
  shows : frame.Shows graph (.fresh id) type

theorem Frame.ComesToStand.classAt?_eq {id : AllocId} {type : TypeId} {object : Allocation}
    (hcomes : frame.ComesToStand placed graph id place type)
    (hobject : frame.allocations[id.index]? = some object) :
    placed.classAt? graph place = some object.className := by
  obtain ⟨held, hheld, hhome⟩ := Frame.settled_fresh_iff.mp hcomes.settled
  obtain rfl := Option.some.inj (hobject.symm.trans hheld)
  rw [Frame.classAt?, hcomes.found]
  exact hcomes.shows.className?_eq (Frame.localObject?_fresh_iff.mpr ⟨hobject, hhome⟩)

namespace Placement

/-- A walk has given homes only to objects whose class is found there. -/
structure Houses (frame placed : Frame) (graph : TypeGraph) (walk : Placement) : Prop where
  slots : walk.frame.slots = placed.slots
  size : walk.frame.allocations.size = frame.allocations.size
  objects : ∀ (id : AllocId) (object : Allocation),
    walk.frame.allocations[id.index]? = some object →
      ∃ before, frame.allocations[id.index]? = some before ∧ object.fields = before.fields ∧
        object.className = before.className ∧ (object.home? = before.home? ∨
          ∃ home, object.home? = some home ∧ placed.classAt? graph home = some object.className)

variable {walk : Placement}

theorem Houses.settle (hhouses : walk.Houses frame placed graph) {id : AllocId} {type : TypeId}
    (hcomes : frame.ComesToStand placed graph id place type) :
    (walk.settle id place).Houses frame placed graph where
  slots := hhouses.slots
  size := Array.size_modify.trans hhouses.size
  objects other object hobject := by
    simp only [Placement.settle, Frame.update, Array.getElem?_modify] at hobject
    split at hobject
    · rename_i heq
      obtain ⟨held, hheld, rfl⟩ := Option.map_eq_some_iff.mp hobject
      obtain ⟨before, hbefore, hfields, hclass, -⟩ := hhouses.objects other held hheld
      obtain rfl := AllocId.index_inj.mp heq
      refine ⟨before, hbefore, hfields, hclass, Or.inr ⟨place, rfl, ?_⟩⟩
      exact (hcomes.classAt?_eq hbefore).trans (congrArg some hclass.symm)
    · exact hhouses.objects other object hobject

theorem visitPart_houses {visit : Placement → AllocId → AccessPath → Checked Placement}
    (hhouses : walk.Houses frame placed graph) {type : TypeId}
    (htarget : placed.placeType? graph target = some type)
    (hshows : frame.Shows graph operand type)
    (hvisit : ∀ child, frame.ComesToStand placed graph child target type →
      Checked.Safe (fun _ => True) (visit walk child target) (Houses frame placed graph)) :
    Checked.Safe (fun _ => True) (visitPart visit walk target operand)
      (Houses frame placed graph) := by
  unfold visitPart
  cases hresolve : walk.frame.resolve operand with
  | error failure => trivial
  | ok resolved =>
    cases resolved with
    | type held => exact hhouses
    | path source => exact ⟨hhouses.slots, hhouses.size, hhouses.objects⟩
    | fresh child =>
      cases operand with
      | type held => cases hresolve
      | path source => cases hresolve
      | fresh id =>
        obtain ⟨object, hobject, htold⟩ := Frame.resolve_fresh_eq_ok_iff.mp hresolve
        obtain ⟨before, hbefore, -, -, hhome⟩ := hhouses.objects id object hobject
        cases hheld : object.home? with
        | some home => simp [hheld] at htold
        | none =>
          obtain rfl : id = child := by simpa [hheld] using htold
          refine hvisit id ⟨Frame.settled_fresh_iff.mpr ⟨before, hbefore, ?_⟩, htarget, hshows⟩
          rcases hhome with hhome | hhome
          · rw [← hhome, hheld]
          · obtain ⟨home, hsome, -⟩ := hhome
            exact nomatch hheld.symm.trans hsome

theorem visit_houses (settling : Bool) (room : Nat) (hhouses : walk.Houses frame placed graph)
    {id : AllocId} {type : TypeId} (hcomes : frame.ComesToStand placed graph id place type) :
    Checked.Safe (fun _ => True) (visit settling room walk id place)
      (Houses frame placed graph) := by
  induction room generalizing walk id place type with
  | zero =>
    unfold visit
    split
    · exact hhouses
    · exact (Checked.Safe.found trivial fun _ h => h).bind fun _ _ => trivial
  | succ room ih =>
    unfold visit
    split
    · exact hhouses
    · refine (Checked.Safe.found trivial fun _ h => h).bind fun object hobject => ?_
      obtain ⟨before, hbefore, hfields, -⟩ := hhouses.objects id object hobject
      have hlocal : frame.localObject? (.fresh id) = some before := by
        obtain ⟨object, hobject, hhome⟩ := Frame.settled_fresh_iff.mp hcomes.settled
        obtain rfl := Option.some.inj (hbefore.symm.trans hobject)
        exact Frame.localObject?_fresh_iff.mpr ⟨hbefore, hhome⟩
      have hmet : Houses frame placed graph { walk with met := id :: walk.met } :=
        ⟨hhouses.slots, hhouses.size, hhouses.objects⟩
      refine (Checked.Safe.foldlM object.fields.entries _ hmet fun entry hmem walk hhouses =>
        ?_).bind fun walk hhouses => ?_
      · have hheld : before.fields.get? entry.1 = some entry.2 :=
          (before.fields.get?_eq_some_iff entry.1 entry.2).mpr (by rw [← hfields]; exact hmem)
        obtain ⟨part, hpart, hshows⟩ := hcomes.shows.part hlocal hheld
        exact visitPart_houses hhouses (Frame.placeType?_child hcomes.found hpart) hshows
          fun child hcomes => ih hhouses hcomes
      · split
        · exact hhouses.settle hcomes
        · exact hhouses

/-- The objects that a walk has left alone are housed as they were. -/
theorem Houses.housed (hhouses : walk.Houses frame placed graph) (hhoused : placed.Housed graph)
    (hsame : placed.allocations = frame.allocations) : walk.frame.Housed graph := by
  intro id object home hobject hhome
  rw [Frame.classAt?_eq_of_slots hhouses.slots]
  obtain ⟨before, hbefore, -, hclass, hkept⟩ := hhouses.objects ⟨id⟩ object hobject
  rcases hkept with hkept | hgiven
  · rw [hclass]
    exact hhoused id before home (by rw [hsame]; exact hbefore) (by rw [← hkept, hhome])
  · obtain ⟨home', hhome', hfound⟩ := hgiven
    obtain rfl := Option.some.inj (hhome.symm.trans hhome')
    exact hfound

theorem Houses.keepsObjects (hhouses : walk.Houses frame placed graph) :
    frame.KeepsObjects walk.frame := by
  intro id object hobject
  have hlt := (Array.getElem?_eq_some_iff.mp hobject).1
  rw [← hhouses.size] at hlt
  obtain ⟨before, hbefore, -, hclass, -⟩ :=
    hhouses.objects ⟨id⟩ _ (Array.getElem?_eq_getElem hlt)
  obtain rfl := Option.some.inj (hobject.symm.trans hbefore)
  exact ⟨_, Array.getElem?_eq_getElem hlt, hclass⟩

end Placement

namespace Frame

/-- Placing an object changes no slot, and gives homes only to objects that stand there. -/
theorem place_housed (hhoused : placed.Housed graph) (settling : Bool) {id : AllocId}
    {type : TypeId} (hcomes : frame.ComesToStand placed graph id target type)
    (hslots : later.slots = placed.slots) (hobjects : later.allocations = frame.allocations)
    (hsame : placed.allocations = frame.allocations) :
    Checked.Safe (fun _ => True) (later.place settling id target) fun final =>
      final.slots = placed.slots ∧ frame.KeepsObjects final ∧ final.Housed graph := by
  have hstart : Placement.Houses frame placed graph { frame := later } :=
    ⟨hslots, congrArg Array.size hobjects, fun id object hobject =>
      ⟨object, by rw [← hobjects]; exact hobject, rfl, rfl, Or.inl rfl⟩⟩
  exact (Placement.visit_houses settling _ hstart hcomes).bind fun walk hhouses =>
    ⟨hhouses.slots, hhouses.keepsObjects, hhouses.housed hhoused hsame⟩

/-! ## Writing -/

/-- When the slot was rebuilt with a part that shows the operand, recording the operand changes no
slot, and gives homes only to objects that stand there. -/
theorem recordOperand_housed (hsound : frame.Sound graph arguments) {part current updated : TypeId}
    {slot : Nat} (hrebinds : frame.Rebinds graph target part slot current updated grown)
    (hrebound : (frame.withSlot slot updated).Sound grown arguments)
    (hhoused : (frame.withSlot slot updated).Housed grown) (hsettled : frame.Settled operand)
    (hpart : frame.Shows graph operand part) :
    (lenient TypeGraph).Ends grown
      (recordOperand declarations span target operand (frame.withSlot slot updated) grown)
      fun result final => grown.Grows final ∧
        result.2.slots = (frame.withSlot slot updated).slots ∧ frame.KeepsObjects result.2 ∧
          result.2.Housed final := by
  have hkept : frame.KeepsObjects frame := fun _ object hobject => ⟨object, hobject, rfl⟩
  cases operand with
  | type held => exact ⟨trivial, .refl grown, rfl, hkept, hhoused.of_eq rfl rfl⟩
  | path source => exact ⟨trivial, .refl grown, rfl, hkept, hhoused.of_eq rfl rfl⟩
  | fresh id =>
    have hwell := hsound.wellFormed
    obtain ⟨reached, hreached, hsame⟩ := hrebinds.placeType?_target hsound hpart.has
    unfold recordOperand
    refine .get_bind (.lift_bind
      (reify_shows declarations span hrebound.wellFormed hrebound.hasTypes id).leniently ?_)
    intro type built _ hpost
    obtain ⟨hbuilt, -, -⟩ := hpost
    have hgrows := hrebinds.grows.trans hbuilt
    have hcomes : frame.ComesToStand (frame.withSlot slot updated) built id target reached :=
      ⟨hsettled, by rw [placeType?_eq_of_grows hbuilt hrebound.wellFormed.closed
        hrebound.hasTypes, hreached],
        (hpart.mono hgrows hwell.closed hsound.hasTypes).of_sameUnfolding
          (hsame.mono hgrows hbuilt)⟩
    refine .modify_bind (.get_bind (.checked_bind trivial
      (place_housed (hhoused.mono hrebound.grounded hbuilt) true hcomes rfl rfl rfl) ?_))
    intro placed hplaced
    exact ⟨trivial, hbuilt, hplaced⟩

/-- The objects keep their classes, and so do the places that lie within no target of a write. -/
structure KeepsClasses (stores : List Store) (frame : Frame) (graph : TypeGraph) (later : Frame)
    (grown : TypeGraph) : Prop where
  objects : frame.KeepsObjects later
  places : ∀ place, (∀ store ∈ stores, place.liesWithin store.target = false) →
    later.classAt? grown place = frame.classAt? graph place

/-- A write keeps the objects housed, and all classes but those within its target. -/
theorem write_housed (hsound : frame.Sound graph arguments) {base value result : Operand}
    {selector : Selector} (hvalue : value.RootedIn graph arguments) (hhoused : frame.Housed graph)
    (hrun : write declarations span base selector value frame graph =
      .ok (result, later) final) :
    later.Grounded final ∧ later.Housed final ∧
      KeepsClasses (stores declarations span base selector value frame graph) frame graph later
        final := by
  rcases write_cases hsound hvalue hrun with hquiet | hrebind
  · obtain ⟨hquiet, rfl⟩ := hquiet
    exact ⟨hsound.grounded.of_slots hquiet.slots (.refl final), hhoused.quiet hquiet,
      hquiet.objects, fun place _ => classAt?_eq_of_slots hquiet.slots final place⟩
  · obtain ⟨store, hstores, hrewrites⟩ := hrebind
    obtain ⟨part, built, slot, current, updated, rebuilt, hbuilt, hsound', hshows, hrebinds,
      hrebound, hrecord⟩ := exists_of_rebind hrewrites.sound hrewrites.selectors selector
        hrewrites.rooted hrewrites.settled hrewrites.run
    have hslots := hrewrites.quiet.slots
    have hclasses : ∀ place : AccessPath, place.liesWithin store.target = false →
        (store.frame.withSlot slot updated).classAt? rebuilt place =
          frame.classAt? graph place := by
      intro place houtside
      calc (store.frame.withSlot slot updated).classAt? rebuilt place
          = store.frame.classAt? built place := hrebinds.classAt?_eq hsound' hshows.has houtside
        _ = frame.classAt? built place := classAt?_eq_of_slots hslots built place
        _ = frame.classAt? graph place :=
            classAt?_eq_of_grows hsound.grounded (hrewrites.grows.trans hbuilt) place
    have hhoused' : (store.frame.withSlot slot updated).Housed rebuilt := by
      intro id object home hobject hhome
      rw [hclasses home (hrewrites.vacant id object home hobject hhome),
        ← classAt?_eq_of_slots hslots]
      exact hhoused.quiet hrewrites.quiet id object home hobject hhome
    obtain ⟨-, hgrown, hslots', hobjects, hlater⟩ := (recordOperand_housed hsound' hrebinds
      hrebound hhoused' hrewrites.settled hshows).of_eq_ok hrecord
    refine ⟨hrebound.grounded.of_slots hslots' hgrown, hlater,
      KeepsObjects.trans hrewrites.quiet.objects hobjects, fun place houtside => ?_⟩
    have houtside' := houtside store (by rw [hstores]; exact List.mem_singleton_self store)
    calc later.classAt? final place
        = (store.frame.withSlot slot updated).classAt? final place :=
          classAt?_eq_of_slots hslots' final place
      _ = (store.frame.withSlot slot updated).classAt? rebuilt place :=
          classAt?_eq_of_grows hrebound.grounded hgrown place
      _ = frame.classAt? graph place := hclasses place houtside'

/-- The evolution of a frame keeps the objects housed, and all classes but those within the
targets of its writes. -/
theorem Evolves.housed {stores : List Store}
    (hevolves : frame.Evolves declarations arguments graph stores later grown)
    (hgrounded : frame.Grounded graph) (hhoused : frame.Housed graph) :
    later.Grounded grown ∧ later.Housed grown ∧ KeepsClasses stores frame graph later grown := by
  induction hevolves with
  | quiet hgrows hquiet =>
    refine ⟨hgrounded.of_slots hquiet.slots hgrows, (hhoused.mono hgrounded hgrows).quiet hquiet,
      hquiet.objects, fun place _ => ?_⟩
    rw [classAt?_eq_of_slots hquiet.slots, classAt?_eq_of_grows hgrounded hgrows]
  | write hsound _ hvalue hwrite => exact write_housed hsound hvalue hhoused hwrite
  | append _ _ ihFirst ihSecond =>
    obtain ⟨hgrounded', hhoused', hkeeps⟩ := ihFirst hgrounded hhoused
    obtain ⟨hgrounded'', hhoused'', hkeeps'⟩ := ihSecond hgrounded' hhoused'
    refine ⟨hgrounded'', hhoused'', hkeeps.objects.trans hkeeps'.objects, fun place houtside => ?_⟩
    obtain ⟨hfirst, hsecond⟩ := List.forall_mem_append.mp houtside
    rw [hkeeps'.places place hsecond, hkeeps.places place hfirst]

end Frame

end ShapeFlow
