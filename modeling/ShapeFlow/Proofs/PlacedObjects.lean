import ShapeFlow.Proofs.LogReplay
import ShapeFlow.Proofs.Stores

/-!
# Objects that come to stand at a place

When an allocated object is written to a part of a place, the slot gets the type that the object
has before the write, while the object is recorded, walked through and given its home after it.
The two agree if the write changes no type that the object shows, that is, if neither the part lies
within a place that the object holds nor the other way round (`Store.Clear`): then the object shows
the type that was put in the slot before and after (`Frame.Shows.of_clear`), and what the walk says
of the places that the object holds is the case in the slot already (`Placement.visit_tells`).
-/

namespace ShapeFlow

open TypeGraph (SameUnfolding SameUnfoldings)

variable {frame later : Frame} {graph grown : TypeGraph} {arguments : List TypeId}

/-! ## A frame is its own twin -/

theorem Operand.RootedIn.twin {operand : Operand} (hclosed : graph.Closed)
    (hrooted : operand.RootedIn graph arguments) : operand.Twin graph graph operand := by
  cases operand with
  | type held => exact .type (.refl hclosed hrooted)
  | path place => exact .path place
  | fresh id => exact .fresh id

theorem Value.RootedIn.twin {value : Value} (hclosed : graph.Closed)
    (hrooted : value.RootedIn graph arguments) : value.Twin graph graph value := by
  cases value with
  | type held => exact .type (.refl hclosed hrooted)
  | path place => exact .path place

theorem OrderedMap.Twin.of_self {κ α : Type} [DecidableEq κ] {related : α → α → Prop}
    {map : OrderedMap κ α}
    (hrelated : ∀ key value, map.get? key = some value → related value value) :
    map.Twin related map :=
  List.forall₂_same.mpr fun entry hmem =>
    ⟨rfl, hrelated entry.1 entry.2 ((map.get?_eq_some_iff entry.1 entry.2).mpr hmem)⟩

theorem Frame.Sound.twin (hsound : frame.Sound graph arguments) :
    frame.Twin graph graph frame where
  wellLeft := hsound.wellFormed
  wellRight := hsound.wellFormed
  slots := SameUnfoldings.refl hsound.wellFormed.closed hsound.hasTypes.slots
  locals := .of_self fun name operand hlocal =>
    (hsound.locals name operand hlocal).twin hsound.wellFormed.closed
  objects := List.forall₂_same.mpr fun object hmem => by
    obtain ⟨id, hobject⟩ := List.mem_iff_getElem?.mp hmem
    rw [Array.getElem?_toList] at hobject
    exact ⟨rfl, .of_self fun selector operand hpart =>
      ((hsound.objects id object hobject).parts selector operand hpart).twin
        hsound.wellFormed.closed, rfl⟩
  writes := List.forall₂_same.mpr fun write hmem =>
    ⟨rfl, (hsound.writes write hmem).value.twin hsound.wellFormed.closed⟩

/-! ## What operands show -/

namespace Frame

/-- A type with the unfolding of one that shows an operand shows the operand. -/
theorem Shows.of_sameUnfolding {operand : Operand} {type other : TypeId}
    (hshows : frame.Shows graph operand type) (hsame : SameUnfolding graph type graph other) :
    frame.Shows graph operand other := by
  obtain ⟨related, hdepicts, hrelated⟩ := hshows
  refine ⟨fun operand other => ∃ type, related operand type ∧
    SameUnfolding graph type graph other, ?_, type, hrelated, hsame⟩
  intro operand other hpair
  obtain ⟨type, hrelated, hsame⟩ := hpair
  rcases hdepicts operand type hrelated with hfound | hlocal
  · obtain ⟨found, hfound, hsameFound⟩ := hfound
    exact Or.inl ⟨found, hfound, hsameFound.trans hsame⟩
  · obtain ⟨object, fields, hobject, hnode, hkeys, hparts⟩ := hlocal
    obtain ⟨_, node, htypeNode, hotherNode, halike⟩ := hsame.alike
    obtain rfl := Option.some.inj (hnode.symm.trans htypeNode)
    cases node with
    | scalar => exact halike.elim
    | object className fields' =>
      obtain ⟨rfl, hkeys'⟩ := halike
      refine Or.inr ⟨object, fields', hobject, hotherNode,
        fun selector => (hkeys' selector).symm.trans (hkeys selector),
        fun selector held part hheld hpart => ?_⟩
      obtain ⟨middle, hmiddle⟩ := (fields.mem_keys_iff selector).mp
        ((hkeys' selector).mpr ((fields'.mem_keys_iff selector).mpr ⟨part, hpart⟩))
      exact ⟨middle, hparts selector held middle hheld hmiddle,
        hsame.part (by rw [TypeGraph.field?_eq_of_node? hnode]; exact hmiddle)
          (by rw [TypeGraph.field?_eq_of_node? hotherNode]; exact hpart)⟩

/-- What a type shows it shows when types are added. -/
theorem Shows.mono {operand : Operand} {type : TypeId} (hshows : frame.Shows graph operand type)
    (hgrows : graph.Grows grown) (hclosed : graph.Closed) (htypes : frame.HasTypes graph) :
    frame.Shows grown operand type := by
  obtain ⟨related, hdepicts, hrelated⟩ := hshows
  refine ⟨related, fun operand type hpair => ?_, hrelated⟩
  rcases hdepicts operand type hpair with hfound | hlocal
  · obtain ⟨found, hfound, hsame⟩ := hfound
    refine Or.inl ⟨found, ?_, hsame.mono hgrows hgrows⟩
    rw [foundType?_eq_of_grows hgrows hclosed htypes, hfound]
  · obtain ⟨object, fields, hobject, hnode, hparts⟩ := hlocal
    exact Or.inr ⟨object, fields, hobject, hgrows.node? hnode, hparts⟩

/-- A type that shows an operand with a type has its unfolding. -/
theorem Shows.of_foundType? {operand : Operand} {type found : TypeId}
    (hshows : frame.Shows graph operand type)
    (hfound : frame.foundType? graph operand = some found) :
    SameUnfolding graph found graph type := by
  obtain ⟨related, hdepicts, hrelated⟩ := hshows
  rcases hdepicts operand type hrelated with hother | hlocal
  · obtain ⟨other, hother, hsame⟩ := hother
    obtain rfl := Option.some.inj (hfound.symm.trans hother)
    exact hsame
  · obtain ⟨object, -, hobject, -⟩ := hlocal
    exact nomatch hfound.symm.trans (foundType?_eq_none hobject)

/-- A type that shows an object has a part for each part of the object, which shows that part. -/
theorem Shows.part {operand held : Operand} {type : TypeId} {object : Allocation}
    {selector : Selector} (hshows : frame.Shows graph operand type)
    (hobject : frame.localObject? operand = some object)
    (hheld : object.fields.get? selector = some held) :
    ∃ part, graph.field? type selector = some part ∧ frame.Shows graph held part := by
  obtain ⟨related, hdepicts, hrelated⟩ := hshows
  rcases hdepicts operand type hrelated with hfound | hlocal
  · obtain ⟨found, hfound, -⟩ := hfound
    exact nomatch hfound.symm.trans (foundType?_eq_none hobject)
  · obtain ⟨other, fields, hother, hnode, hkeys, hparts⟩ := hlocal
    obtain rfl := Option.some.inj (hobject.symm.trans hother)
    obtain ⟨part, hpart⟩ := (fields.mem_keys_iff selector).mp
      ((hkeys selector).mpr ((object.fields.mem_keys_iff selector).mpr ⟨held, hheld⟩))
    exact ⟨part, by rw [TypeGraph.field?_eq_of_node? hnode]; exact hpart,
      related, hdepicts, hparts selector held part hheld hpart⟩

/-- All types that show an operand have the same unfolding. -/
theorem Shows.sameUnfolding (hsound : frame.Sound graph arguments) {operand : Operand}
    {type other : TypeId} (hfirst : frame.Shows graph operand type)
    (hsecond : frame.Shows graph operand other) : SameUnfolding graph type graph other := by
  have hoperand : operand.Twin graph graph operand := by
    cases operand with
    | type held =>
      have hheld : SameUnfolding graph held graph type := hfirst.of_foundType? rfl
      exact .type (.refl hsound.wellFormed.closed hheld.has_left)
    | path place => exact .path place
    | fresh id => exact .fresh id
  exact hsound.twin.sameUnfolding_of_shows hoperand hfirst hsecond

end Frame

/-! ## A slot is rebuilt -/

/-- Neither place lies within the other one. -/
def AccessPath.Apart (place other : AccessPath) : Prop :=
  place.liesWithin other = false ∧ other.liesWithin place = false

instance (place other : AccessPath) : Decidable (place.Apart other) :=
  inferInstanceAs (Decidable (_ ∧ _))

/-- The slot of the target has been rebuilt with a part at the target. -/
structure Frame.Rebinds (frame : Frame) (graph : TypeGraph) (target : AccessPath) (part : TypeId)
    (slot : Nat) (current updated : TypeId) (grown : TypeGraph) : Prop where
  root : target.root = slot + 1
  held : frame.slots[slot]? = some current
  bind : graph.bindAt? current target.selectors part = some (updated, grown)

/-- The frame with another type in a slot. -/
def Frame.withSlot (frame : Frame) (slot : Nat) (type : TypeId) : Frame :=
  { frame with slots := frame.slots.set slot type }

namespace Frame

theorem slotType_eq_ok_iff {slot : Nat} {type : TypeId} : frame.slotType slot = .ok type ↔
    ∃ position, slot = position + 1 ∧ frame.slots[position]? = some type := by
  cases slot with
  | zero => simp [slotType]
  | succ position => simp [slotType]

theorem exists_of_setPlaceType {span : Span} {target : AccessPath} {selector : Selector}
    {part : TypeId} {value : PUnit}
    (hrun : setPlaceType span target selector part frame graph = .ok (value, later) grown) :
    ∃ slot current updated, frame.Rebinds graph target part slot current updated grown ∧
      later = frame.withSlot slot updated := by
  unfold setPlaceType at hrun
  obtain ⟨current, hanswer, hnext⟩ := exists_of_inspect_bind hrun
  obtain ⟨slot, hroot, hheld⟩ := slotType_eq_ok_iff.mp hanswer
  rw [getBase_bind_eq] at hnext
  cases hbind : graph.bindAt? current target.selectors part with
  | none =>
    rw [hbind] at hnext
    exact nomatch hnext
  | some result =>
    rw [hbind] at hnext
    cases hnext
    exact ⟨slot, current, result.1, ⟨hroot, hheld, hbind⟩, by rw [hroot]; rfl⟩

namespace Rebinds

variable {target : AccessPath} {part current updated : TypeId} {slot : Nat}
  (hrebinds : frame.Rebinds graph target part slot current updated grown)
  (hsound : frame.Sound graph arguments) (hpart : graph.Has part)

include hrebinds

theorem grows : graph.Grows grown := .bindAt? hrebinds.bind

include hsound

theorem has_current : graph.Has current := (hsound.slots slot current hrebinds.held).1

include hpart

/-- The part is found at the target now. -/
theorem placeType?_target : ∃ reached,
    (frame.withSlot slot updated).placeType? grown target = some reached ∧
      SameUnfolding graph part grown reached := by
  obtain ⟨reached, hreached, hsame⟩ :=
    TypeGraph.bindAt?_follow? hsound.wellFormed hpart hrebinds.bind
  have hlt := (List.getElem?_eq_some_iff.mp hrebinds.held).1
  refine ⟨reached, ?_, hsame⟩
  simp only [placeType?, hrebinds.root, withSlot, List.getElem?_set_self hlt, Option.bind_some,
    hreached]

/-- A place that lies apart from the target has the type that it had. -/
theorem placeType?_apart {place : AccessPath} (hapart : place.Apart target) :
    Option.Rel (fun before after => SameUnfolding graph before grown after)
      (frame.placeType? graph place) ((frame.withSlot slot updated).placeType? grown place) := by
  have hwell := hsound.wellFormed
  unfold placeType? withSlot
  split
  · exact .none
  · rename_i position hroot
    rw [List.getElem?_set]
    by_cases hslot : slot = position
    · subst hslot
      have hlt := (List.getElem?_eq_some_iff.mp hrebinds.held).1
      rw [if_pos rfl, if_pos hlt, hrebinds.held]
      have hroots : place.root = target.root := hroot.trans hrebinds.root.symm
      simp only [AccessPath.Apart, AccessPath.liesWithin, hroots, beq_self_eq_true, Bool.true_and,
        ← Bool.not_eq_true, List.isPrefixOf_iff_prefix] at hapart
      exact TypeGraph.bindAt?_apart hwell hpart (hrebinds.has_current hsound) hrebinds.bind
        hapart.1 hapart.2
    · rw [if_neg hslot]
      cases hheld : frame.slots[position]? with
      | none => exact .none
      | some held =>
        have hhas := (hsound.slots position held hheld).1
        exact (hrebinds.grows.sameUnfolding hwell.closed hhas).rel_follow? place.selectors

end Rebinds

theorem localObject?_withSlot (frame : Frame) (slot : Nat) (type : TypeId) (operand : Operand) :
    (frame.withSlot slot type).localObject? operand = frame.localObject? operand := by
  cases operand <;> rfl

end Frame

/-! ## Objects that do not show the target -/

/-- The object, or an object without a home to which a chain of its parts leads, has a part that
is told by the place. -/
def Frame.HoldsPlace (frame : Frame) (id : AllocId) (place : AccessPath) : Prop :=
  ∃ other object selector operand, frame.LeadsTo id other ∧
    frame.localObject? (.fresh other) = some object ∧
    object.fields.get? selector = some operand ∧ frame.resolve operand = .ok (.path place)

/-- Every place that the object holds lies apart from the target. -/
def Frame.ClearOf (frame : Frame) (id : AllocId) (target : AccessPath) : Prop :=
  ∀ place, frame.HoldsPlace id place → place.Apart target

/-- If an object is written, then it holds no place within the target, nor one that the target
lies within. -/
def Store.Clear (store : Store) : Prop :=
  ∀ id, store.value = .fresh id → store.frame.ClearOf id store.target

/-- Whether no object at all holds a place within the target, or one that the target lies
within. -/
def Store.isApart (store : Store) : Bool :=
  store.frame.allocations.all fun object => object.fields.entries.all fun entry =>
    match store.frame.resolve entry.2 with
    | .ok (.path place) => decide (place.Apart store.target)
    | _ => true

theorem Store.clear_of_isApart {store : Store} (hapart : store.isApart = true) : store.Clear := by
  intro id _ place hholds
  obtain ⟨other, object, selector, operand, -, hobject, hheld, hresolve⟩ := hholds
  obtain ⟨_, -, hobject, -⟩ := Frame.localObject?_eq_some_iff.mp hobject
  have hobjects := Array.all_eq_true_iff_forall_mem.mp hapart object (Array.mem_of_getElem? hobject)
  have hentry := List.all_eq_true.mp hobjects (selector, operand)
    ((object.fields.get?_eq_some_iff selector operand).mp hheld)
  simpa [hresolve] using hentry

namespace Frame

/-- A part that is found at a type is told by a place, or by its type alone. -/
theorem foundType?_cases {operand : Operand} {found : TypeId}
    (hfound : frame.foundType? graph operand = some found) :
    operand = .type found ∨ ∃ place, frame.resolve operand = .ok (.path place) ∧
      frame.placeType? graph place = some found := by
  cases operand with
  | type held => exact Or.inl (congrArg Operand.type (Option.some.inj hfound))
  | path place => exact Or.inr ⟨place, rfl, hfound⟩
  | fresh id =>
    obtain ⟨object, hobject, hhome⟩ := Option.bind_eq_some_iff.mp hfound
    obtain ⟨home, hhome, hplace⟩ := Option.bind_eq_some_iff.mp hhome
    exact Or.inr ⟨home, resolve_fresh_eq_ok_iff.mpr ⟨object, hobject, by simp [hhome]⟩, hplace⟩

/-- An operand that is told by a place is found at the type that the place has. -/
theorem foundType?_of_resolve {operand : Operand} {place : AccessPath}
    (hresolve : frame.resolve operand = .ok (.path place)) :
    frame.foundType? graph operand = frame.placeType? graph place := by
  cases operand with
  | type held => cases hresolve
  | path other => cases hresolve; rfl
  | fresh id =>
    obtain ⟨object, hobject, hhome⟩ := resolve_fresh_eq_ok_iff.mp hresolve
    cases hheld : object.home? with
    | none => simp [hheld] at hhome
    | some home =>
      simp only [hheld, Option.map_some, Option.getD_some, Operand.path.injEq] at hhome
      simp [foundType?, hobject, hheld, hhome]

/-- An object shows the type that it showed before a slot is rebuilt, if it holds no place that
the change of the slot is about. -/
theorem Shows.of_clear {target : AccessPath} {part current updated : TypeId} {slot : Nat}
    (hrebinds : frame.Rebinds graph target part slot current updated grown)
    (hsound : frame.Sound graph arguments) (hpart : graph.Has part) {id : AllocId}
    (hlocal : frame.Settled (.fresh id)) (hclear : frame.ClearOf id target) {type : TypeId}
    (hshows : frame.Shows graph (.fresh id) type) :
    (frame.withSlot slot updated).Shows grown (.fresh id) type := by
  -- What is reached from the object: objects without a home, and their parts.
  let reached : Operand → Prop := fun operand =>
    (∃ other, operand = .fresh other ∧ frame.LeadsTo id other) ∨
    ∃ other object selector, frame.LeadsTo id other ∧
      frame.localObject? (.fresh other) = some object ∧
      object.fields.get? selector = some operand
  have hgrows := hrebinds.grows
  have hid : frame.isLocal id = true := by
    obtain ⟨object, hobject, hhome⟩ := settled_fresh_iff.mp hlocal
    exact isLocal_iff.mpr ⟨object, localObject?_fresh_iff.mpr ⟨hobject, hhome⟩⟩
  refine ⟨fun operand type => reached operand ∧ frame.Shows graph operand type, ?_,
    Or.inl ⟨id, rfl, .refl⟩, hshows⟩
  intro operand type hpair
  obtain ⟨hreached, related, hdepicts, hrelated⟩ := hpair
  rcases hdepicts operand type hrelated with hfound | hobject
  · obtain ⟨found, hfound, hsame⟩ := hfound
    have hsame' : SameUnfolding graph found grown type :=
      hsame.trans (hgrows.sameUnfolding hsound.wellFormed.closed hsame.has_right)
    refine Or.inl ?_
    rcases foundType?_cases hfound with rfl | hplace
    · exact ⟨found, rfl, hsame.mono hgrows hgrows⟩
    · obtain ⟨place, hresolve, hplace⟩ := hplace
      have hholds : frame.HoldsPlace id place := by
        rcases hreached with hother | hpart
        · obtain ⟨other, rfl, hleads⟩ := hother
          obtain ⟨object, hobject⟩ := isLocal_iff.mp (hleads.isLocal hid)
          exact nomatch hfound.symm.trans (foundType?_eq_none hobject)
        · obtain ⟨other, object, selector, hleads, hobject, hheld⟩ := hpart
          exact ⟨other, object, selector, operand, hleads, hobject, hheld, hresolve⟩
      obtain ⟨after, hafter, hsameAfter⟩ := exists_of_rel
        (hrebinds.placeType?_apart hsound hpart (hclear place hholds)) hplace
      have hresolve' : (frame.withSlot slot updated).resolve operand = .ok (.path place) := by
        rw [← hresolve]
        cases operand <;> rfl
      exact ⟨after, (foundType?_of_resolve hresolve').trans hafter,
        hsameAfter.symm.trans hsame'⟩
  · obtain ⟨object, fields, hobject, hnode, hkeys, hparts⟩ := hobject
    obtain ⟨other, rfl, -⟩ := localObject?_eq_some_iff.mp hobject
    have hleads : frame.LeadsTo id other := by
      rcases hreached with hother | hpart
      · obtain ⟨_, heq, hleads⟩ := hother
        cases heq
        exact hleads
      · obtain ⟨parent, held, selector, hleads, hheld, hpart⟩ := hpart
        exact hleads.tail (holds_iff.mpr ⟨held, object, selector, hheld, hpart, hobject⟩)
    refine Or.inr ⟨object, fields, (localObject?_withSlot frame slot updated _).trans hobject,
      hgrows.node? hnode, hkeys, fun selector held part hheld hpart => ⟨?_, related, hdepicts,
        hparts selector held part hheld hpart⟩⟩
    exact Or.inr ⟨other, object, selector, hleads, hobject, hheld⟩

end Frame

/-! ## The walk through a placed object -/

namespace Frame

/-- What is no object without a home is found at a type, whose unfolding is shown. -/
theorem Shows.exists_found {operand : Operand} {type : TypeId}
    (hshows : frame.Shows graph operand type) (hnone : frame.localObject? operand = none) :
    ∃ found, frame.foundType? graph operand = some found ∧
      SameUnfolding graph found graph type := by
  obtain ⟨related, hdepicts, hrelated⟩ := hshows
  rcases hdepicts operand type hrelated with hfound | hlocal
  · exact hfound
  · obtain ⟨object, -, hobject, -⟩ := hlocal
    exact nomatch hnone.symm.trans hobject

theorem placeType?_child {place : AccessPath} {type part : TypeId} {selector : Selector}
    (hplace : frame.placeType? graph place = some type)
    (hpart : graph.field? type selector = some part) :
    frame.placeType? graph (place.child selector) = some part := by
  unfold placeType? at hplace ⊢
  split at hplace
  · cases hplace
  · rename_i slot hroot
    obtain ⟨held, hheld, hfollow⟩ := Option.bind_eq_some_iff.mp hplace
    obtain ⟨_, selectors⟩ := place
    obtain rfl : _ = slot + 1 := hroot
    simp only at hfollow
    simp [AccessPath.child, hheld, TypeGraph.follow?_append, hfollow, TypeGraph.follow?_cons, hpart]

/-- The type that is found at the place shows the object, which has no home. -/
structure StandsAt (frame : Frame) (graph : TypeGraph) (id : AllocId) (place : AccessPath)
    (type : TypeId) : Prop where
  settled : frame.Settled (.fresh id)
  found : frame.placeType? graph place = some type
  shows : frame.Shows graph (.fresh id) type

end Frame

/-- A walk that began with the frame `start` has given homes only to objects that stand there, and
what it has recorded is faithful. -/
structure Placement.Tells (start : Frame) (graph : TypeGraph) (arguments : List TypeId)
    (walk : Placement) : Prop where
  slots : walk.frame.slots = start.slots
  objects : ∀ (id : AllocId) (object : Allocation),
    walk.frame.allocations[id.index]? = some object →
      ∃ before, start.allocations[id.index]? = some before ∧ object.fields = before.fields ∧
        (object.home? = before.home? ∨ ∃ home type, object.home? = some home ∧
          start.StandsAt graph id home type)
  faithful : walk.frame.Faithful arguments graph

namespace Placement

variable {start : Frame} {walk : Placement} (hsound : start.Sound graph arguments)

theorem Tells.settle (htells : walk.Tells start graph arguments) {id : AllocId}
    {place : AccessPath} {type : TypeId} (hstands : start.StandsAt graph id place type) :
    (walk.settle id place).Tells start graph arguments where
  slots := htells.slots
  objects other object hobject := by
    simp only [Placement.settle, Frame.update, Array.getElem?_modify] at hobject
    split at hobject
    · rename_i heq
      obtain ⟨held, hheld, rfl⟩ := Option.map_eq_some_iff.mp hobject
      obtain ⟨before, hbefore, hfields, -⟩ := htells.objects other held hheld
      obtain rfl := AllocId.index_inj.mp heq
      exact ⟨before, hbefore, hfields, Or.inr ⟨place, type, rfl, hstands⟩⟩
    · exact htells.objects other object hobject
  faithful := htells.faithful.mono (.refl graph) rfl rfl

include hsound

theorem Tells.record (htells : walk.Tells start graph arguments) {target source : AccessPath}
    {type found : TypeId} (htarget : start.placeType? graph target = some type)
    (hsource : start.placeType? graph source = some found)
    (hsame : SameUnfolding graph found graph type) :
    Tells start graph arguments
      { walk with frame := walk.frame.record target (.path source) } where
  slots := htells.slots
  objects := htells.objects
  faithful := htells.faithful.record_alias hsound.wellFormed
    ⟨source, found, type, rfl, by rw [htells.slots]; exact hsource, by
      rw [htells.slots]; exact htarget, hsame.symm⟩

/-- What a part is told by in the walk: a type, a place with the type that the part shows, or an
object that had no home when the walk began. -/
theorem Tells.resolve (htells : walk.Tells start graph arguments) {operand : Operand}
    {type : TypeId} (hshows : start.Shows graph operand type) :
    Checked.Safe (fun _ => True) (walk.frame.resolve operand) fun resolved =>
      (∃ held, resolved = .type held) ∨
      (∃ source found, resolved = .path source ∧ start.placeType? graph source = some found ∧
        SameUnfolding graph found graph type) ∨
      ∃ child, operand = .fresh child ∧ resolved = .fresh child ∧
        start.Settled (.fresh child) := by
  cases operand with
  | type held => exact Or.inl ⟨held, rfl⟩
  | path source =>
    obtain ⟨found, hfound, hsame⟩ := hshows.exists_found rfl
    exact Or.inr (Or.inl ⟨source, found, rfl, hfound, hsame⟩)
  | fresh child =>
    cases hresolve : walk.frame.resolve (.fresh child) with
    | error failure => trivial
    | ok resolved =>
      obtain ⟨object, hobject, rfl⟩ := Frame.resolve_fresh_eq_ok_iff.mp hresolve
      obtain ⟨before, hbefore, -, hhome⟩ := htells.objects child object hobject
      cases hheld : object.home? with
      | some home =>
        refine Or.inr (Or.inl ⟨home, ?_⟩)
        rcases hhome with hhome | hhome
        · have hresolve' : start.resolve (.fresh child) = .ok (.path home) :=
            Frame.resolve_fresh_eq_ok_iff.mpr ⟨before, hbefore, by rw [← hhome, hheld]; rfl⟩
          have hnone : start.localObject? (.fresh child) = none := by
            simp [Frame.localObject?, hbefore, ← hhome, hheld]
          obtain ⟨found, hfound, hsame⟩ := hshows.exists_found hnone
          rw [Frame.foundType?_of_resolve hresolve'] at hfound
          exact ⟨found, rfl, hfound, hsame⟩
        · -- The object got this home in the walk, so the type there shows it too.
          obtain ⟨home', found, hhome', hstands⟩ := hhome
          obtain rfl := Option.some.inj (hheld.symm.trans hhome')
          exact ⟨found, rfl, hstands.found, hstands.shows.sameUnfolding hsound hshows⟩
      | none =>
        refine Or.inr (Or.inr ⟨child, rfl, rfl, ?_⟩)
        rcases hhome with hhome | hhome
        · exact Frame.settled_fresh_iff.mpr ⟨before, hbefore, by rw [← hhome, hheld]⟩
        · obtain ⟨home, -, hsome, -⟩ := hhome
          cases hheld.symm.trans hsome

theorem visitPart_tells {visit : Placement → AllocId → AccessPath → Checked Placement}
    (htells : walk.Tells start graph arguments) {target : AccessPath} {operand : Operand}
    {type : TypeId} (htarget : start.placeType? graph target = some type)
    (hshows : start.Shows graph operand type)
    (hvisit : ∀ child, start.StandsAt graph child target type →
      Checked.Safe (fun _ => True) (visit walk child target) (Tells start graph arguments)) :
    Checked.Safe (fun _ => True) (visitPart visit walk target operand)
      (Tells start graph arguments) := by
  unfold visitPart
  refine (htells.resolve hsound hshows).bind fun resolved hresolved => ?_
  rcases hresolved with hheld | hplace | hobject
  · obtain ⟨held, rfl⟩ := hheld
    exact htells
  · obtain ⟨source, found, rfl, hsource, hsame⟩ := hplace
    exact htells.record hsound htarget hsource hsame
  · obtain ⟨child, rfl, rfl, hsettled⟩ := hobject
    exact hvisit child ⟨hsettled, htarget, hshows⟩

theorem visit_tells (settling : Bool) (room : Nat) (htells : walk.Tells start graph arguments)
    {id : AllocId} {place : AccessPath} {type : TypeId}
    (hstands : start.StandsAt graph id place type) :
    Checked.Safe (fun _ => True) (visit settling room walk id place)
      (Tells start graph arguments) := by
  induction room generalizing walk id place type with
  | zero =>
    unfold visit
    split
    · exact htells
    · exact (Checked.Safe.found trivial fun _ h => h).bind fun _ _ => trivial
  | succ room ih =>
    unfold visit
    split
    · exact htells
    · refine (Checked.Safe.found trivial fun _ h => h).bind fun object hobject => ?_
      obtain ⟨before, hbefore, hfields, -⟩ := htells.objects id object hobject
      have hlocal : start.localObject? (.fresh id) = some before := by
        obtain ⟨object, hobject, hhome⟩ := Frame.settled_fresh_iff.mp hstands.settled
        obtain rfl := Option.some.inj (hbefore.symm.trans hobject)
        exact Frame.localObject?_fresh_iff.mpr ⟨hbefore, hhome⟩
      have hmet : Tells start graph arguments { walk with met := id :: walk.met } :=
        ⟨htells.slots, htells.objects, htells.faithful⟩
      refine (Checked.Safe.foldlM object.fields.entries _ hmet fun entry hmem walk htells =>
        ?_).bind fun walk htells => ?_
      · have hheld : before.fields.get? entry.1 = some entry.2 :=
          (before.fields.get?_eq_some_iff entry.1 entry.2).mpr (by rw [← hfields]; exact hmem)
        obtain ⟨part, hpart, hshows⟩ := hstands.shows.part hlocal hheld
        exact visitPart_tells hsound htells (Frame.placeType?_child hstands.found hpart) hshows
          fun child hstands => ih htells hstands
      · split
        · exact htells.settle hstands
        · exact htells

end Placement

end ShapeFlow
