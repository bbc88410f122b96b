import ShapeFlow.Proofs.BuiltTypes
import ShapeFlow.Proofs.FrameSoundness
import ShapeFlow.Proofs.ObjectShapes

/-!
# The type of an allocated object shows the object

A visit of an object (`Frame.reifyWithin`) gives types to the objects that it meets.  An
object on a circle has its node reserved before its parts are visited, so for some time there
are nodes whose parts are missing.  The visit of such an object is *open*.  A type is called
*settled* if no node that is still to be filled can be reached from it.

`Frame.Visit` is the invariant.  It says that the types from which shared ones are taken are
settled, that an object which leads to no open one has a settled type, and that the node of an
object whose visit is over has the class and the parts of the object (`Frame.Draws`).  When the
outermost visit is over nothing is open, and the relation between objects and their types is
one that `Frame.Shows` asks for.
-/

namespace ShapeFlow

open TypeGraph (SameUnfolding)

/-- Distinct objects of a frame are no more than the frame has. -/
theorem AllocId.length_le_of_nodup {ids : List AllocId} {size : Nat} (hnodup : ids.Nodup)
    (hpresent : ∀ id ∈ ids, id.index < size) : ids.length ≤ size := by
  have hsubperm : ids.Subperm ((List.range size).map AllocId.mk) :=
    List.Nodup.subperm hnodup fun id hmem =>
      List.mem_map.mpr ⟨id.index, List.mem_range.mpr (hpresent id hmem), rfl⟩
  simpa using hsubperm.length_le

namespace Frame

/-- What a visit has built so far, and which types it relies on not to change. -/
structure VisitState where
  settled : TypeId → Prop
  reified : Reified
  graph : TypeGraph

variable {frame : Frame} {start : TypeGraph} {state later : VisitState}

/-- The type that a visit gives for what a part holds: the type that is found there, the type
without parts of its class, or what the visit of the object gave. -/
inductive HeldAs (frame : Frame) (start : TypeGraph) (state : VisitState) : Operand → TypeId → Prop
  | found {operand : Operand} {type : TypeId} : frame.foundType? start operand = some type →
      start.Has type → HeldAs frame start state operand type
  | bare {id : AllocId} {object : Allocation} {type : TypeId} :
      frame.localObject? (.fresh id) = some object → object.fields.isEmpty = true →
      state.settled type → state.graph.node? type = some (.object object.className ∅) →
      HeldAs frame start state (.fresh id) type
  | visited {id : AllocId} {type : TypeId} : state.reified.get? id = some type →
      HeldAs frame start state (.fresh id) type

/-- A shared node may name a part otherwise than it was given. -/
def VisitState.Agrees (state : VisitState) (part given : TypeId) : Prop :=
  part = given ∨
    state.settled part ∧ state.settled given ∧ SameUnfolding state.graph part state.graph given

/-- The field map has the parts of an object, with the types that the visit gives for them. -/
def HeldFields (frame : Frame) (start : TypeGraph) (state : VisitState) (object : Allocation)
    (fields : Fields) : Prop :=
  (∀ selector, selector ∈ fields.keys ↔ selector ∈ object.fields.keys) ∧
    ∀ selector operand part, object.fields.get? selector = some operand →
      fields.get? selector = some part → frame.HeldAs start state operand part

/-- The node of a type has the class and the parts of an object. -/
def Draws (frame : Frame) (start : TypeGraph) (state : VisitState) (object : Allocation)
    (type : TypeId) : Prop :=
  ∃ fields, state.graph.node? type = some (.object object.className fields) ∧
    (∀ selector, selector ∈ fields.keys ↔ selector ∈ object.fields.keys) ∧
    ∀ selector operand part, object.fields.get? selector = some operand →
      fields.get? selector = some part →
        ∃ given, frame.HeldAs start state operand given ∧ state.Agrees part given

/-- The invariant of a visit that began with the graph `start`, while the visits of the objects
in `opens` are open. -/
structure Visit (frame : Frame) (start : TypeGraph) (opens : AllocId → Prop)
    (state : VisitState) : Prop where
  grows : start.Grows state.graph
  wellFormed : state.graph.WellFormed
  has : ∀ type, state.settled type → state.graph.Has type
  closed : ∀ type selector part, state.settled type →
    state.graph.field? type selector = some part → state.settled part
  old : ∀ type, start.Has type → state.settled type
  bare : ∀ className type, state.graph.bare.get? className = some type → state.settled type
  interned : ∀ entry ∈ state.graph.interned, state.settled entry.2
  opened : ∀ id, opens id → ∃ type, state.reified.get? id = some type ∧ ¬ state.settled type ∧
    ∀ other, state.reified.get? other = some type → other = id
  objects : ∀ id type, state.reified.get? id = some type → ∃ object,
    frame.localObject? (.fresh id) = some object ∧
      state.graph.className? type = some object.className
  settles : ∀ id type, state.reified.get? id = some type →
    (∀ other, opens other → ¬ frame.LeadsTo id other) → state.settled type
  draws : ∀ id type object, state.reified.get? id = some type →
    frame.localObject? (.fresh id) = some object → ¬ opens id → frame.Draws start state object type

/-- What a visit has built stays, and settled types keep their nodes. -/
structure VisitState.Within (state later : VisitState) : Prop where
  settled : ∀ type, state.settled type → later.settled type
  reified : ∀ id type, state.reified.get? id = some type → later.reified.get? id = some type
  node?_eq : ∀ type, state.settled type → later.graph.node? type = state.graph.node? type

theorem VisitState.Within.refl (state : VisitState) : state.Within state :=
  ⟨fun _ h => h, fun _ _ h => h, fun _ _ => rfl⟩

theorem VisitState.Within.trans {last : VisitState} (hfirst : state.Within later)
    (hsecond : later.Within last) : state.Within last where
  settled type hsettled := hsecond.settled type (hfirst.settled type hsettled)
  reified id type hreified := hsecond.reified id type (hfirst.reified id type hreified)
  node?_eq type hsettled :=
    (hsecond.node?_eq type (hfirst.settled type hsettled)).trans (hfirst.node?_eq type hsettled)

theorem HeldAs.mono {operand : Operand} {type : TypeId}
    (hheld : frame.HeldAs start state operand type) (hwithin : state.Within later) :
    frame.HeldAs start later operand type := by
  cases hheld with
  | found hfound hhas => exact .found hfound hhas
  | bare hobject hempty hsettled hnode =>
    exact .bare hobject hempty (hwithin.settled type hsettled)
      ((hwithin.node?_eq type hsettled).trans hnode)
  | visited hreified => exact .visited (hwithin.reified _ type hreified)

namespace Visit

variable {opens : AllocId → Prop}

theorem agrees_mono (hvisit : frame.Visit start opens state) (hwithin : state.Within later)
    {part given : TypeId} (hagrees : state.Agrees part given) : later.Agrees part given := by
  refine hagrees.imp_right fun hsame => ?_
  exact ⟨hwithin.settled part hsame.1, hwithin.settled given hsame.2.1,
    hsame.2.2.of_node?_eq hvisit.closed hwithin.node?_eq hsame.1 hsame.2.1⟩

/-- An object is drawn as before if its type has the same node. -/
theorem draws_mono (hvisit : frame.Visit start opens state) (hwithin : state.Within later)
    {object : Allocation} {type : TypeId}
    (hnode : later.graph.node? type = state.graph.node? type)
    (hdraws : frame.Draws start state object type) : frame.Draws start later object type := by
  obtain ⟨fields, hfields, hkeys, hparts⟩ := hdraws
  refine ⟨fields, hnode.trans hfields, hkeys, fun selector operand part hoperand hpart => ?_⟩
  obtain ⟨given, hgiven, hagrees⟩ := hparts selector operand part hoperand hpart
  exact ⟨given, hgiven.mono hwithin, hvisit.agrees_mono hwithin hagrees⟩

theorem has_reified (hvisit : frame.Visit start opens state) {id : AllocId} {type : TypeId}
    (hreified : state.reified.get? id = some type) : state.graph.Has type := by
  obtain ⟨object, -, hclass⟩ := hvisit.objects id type hreified
  exact TypeGraph.has_of_className? hclass

theorem has_heldAs (hvisit : frame.Visit start opens state) {operand : Operand} {type : TypeId}
    (hheld : frame.HeldAs start state operand type) : state.graph.Has type := by
  cases hheld with
  | found _ hhas => exact hvisit.grows.has hhas
  | bare _ _ hsettled _ => exact hvisit.has type hsettled
  | visited hreified => exact hvisit.has_reified hreified

theorem hasParts (hvisit : frame.Visit start opens state) {object : Allocation} {fields : Fields}
    (hfields : frame.HeldFields start state object fields) : state.graph.HasParts fields := by
  intro selector part hpart
  obtain ⟨operand, hoperand⟩ := (object.fields.mem_keys_iff selector).mp
    ((hfields.1 selector).mp ((fields.mem_keys_iff selector).mpr ⟨part, hpart⟩))
  exact hvisit.has_heldAs (hfields.2 selector operand part hoperand hpart)

/-- No node has been reserved yet when a visit begins. -/
theorem initial (hwell : start.WellFormed) :
    frame.Visit start (fun _ => False) ⟨start.Has, ∅, start⟩ where
  grows := .refl start
  wellFormed := hwell
  has _ hhas := hhas
  closed _ _ _ _ hpart := hwell.closed.has_field? hpart
  old _ hhas := hhas
  bare className type hbare :=
    (TypeGraph.has_iff_exists_node start type).mpr ⟨_, hwell.bare className type hbare⟩
  interned := hwell.interned
  opened _ hopen := hopen.elim
  objects _ _ hreified := nomatch hreified
  settles _ _ hreified := nomatch hreified
  draws _ _ _ hreified := nomatch hreified

/-! ### Objects on circles -/

/-- The visit of an object on a circle begins. -/
theorem reserve (hvisit : frame.Visit start opens state) {id : AllocId} {object : Allocation}
    (hobject : frame.localObject? (.fresh id) = some object)
    (hnew : state.reified.get? id = none) :
    frame.Visit start (fun other => opens other ∨ other = id)
        { state with
          reified := state.reified.insert id (state.graph.reserve object.className).1
          graph := (state.graph.reserve object.className).2 } ∧
      state.Within
        { state with
          reified := state.reified.insert id (state.graph.reserve object.className).1
          graph := (state.graph.reserve object.className).2 } := by
  have hgrows : state.graph.Grows (state.graph.reserve object.className).2 := .push _ _
  have hfresh : ¬ state.graph.Has (state.graph.reserve object.className).1 :=
    TypeGraph.not_has_push_fst _ _
  have hne : ∀ other type, state.reified.get? other = some type → other ≠ id := by
    intro other type hreified heq
    rw [heq, hnew] at hreified
    exact nomatch hreified
  have hnodes : ∀ type, state.graph.Has type →
      (state.graph.reserve object.className).2.node? type = state.graph.node? type :=
    hgrows.node?_eq
  have hwithin : state.Within
      { state with
        reified := state.reified.insert id (state.graph.reserve object.className).1
        graph := (state.graph.reserve object.className).2 } := by
    refine ⟨fun _ h => h, fun other type hreified => ?_, fun type hsettled =>
      hnodes type (hvisit.has type hsettled)⟩
    rw [OrderedMap.get?_insert, if_neg (hne other type hreified), hreified]
  refine ⟨⟨hvisit.grows.trans hgrows,
    hvisit.wellFormed.push _ (TypeGraph.hasParts_empty _),
    fun type hsettled => hgrows.has (hvisit.has type hsettled), ?_, hvisit.old, hvisit.bare,
    hvisit.interned, ?_, ?_, ?_, ?_⟩, hwithin⟩
  · intro type selector part hsettled hpart
    rw [hgrows.field?_eq (hvisit.has type hsettled)] at hpart
    exact hvisit.closed type selector part hsettled hpart
  -- The reserved node was not there before, so it is the type of no other object.
  · intro other hopen
    simp only [OrderedMap.get?_insert]
    rcases hopen with hopen | rfl
    · obtain ⟨type, hreified, hunsettled, hunique⟩ := hvisit.opened other hopen
      refine ⟨type, by rw [if_neg (hne other type hreified), hreified], hunsettled, ?_⟩
      intro third hthird
      split at hthird
      · rw [← Option.some.inj hthird] at hreified
        exact absurd (hvisit.has_reified hreified) hfresh
      · exact hunique third hthird
    · refine ⟨_, if_pos rfl, fun hsettled => hfresh (hvisit.has _ hsettled), ?_⟩
      intro third hthird
      split at hthird
      · assumption
      · exact absurd (hvisit.has_reified hthird) hfresh
  · intro other type hreified
    rw [OrderedMap.get?_insert] at hreified
    split at hreified
    · rename_i heq
      subst heq
      obtain rfl := Option.some.inj hreified
      exact ⟨object, hobject, TypeGraph.className?_eq_some_iff.mpr
        ⟨∅, TypeGraph.node?_push_self state.graph (.object object.className ∅)⟩⟩
    · obtain ⟨held, hheld, hclass⟩ := hvisit.objects other type hreified
      exact ⟨held, hheld, by rw [hgrows.className?_eq (hvisit.has_reified hreified), hclass]⟩
  · intro other type hreified hleads
    rw [OrderedMap.get?_insert] at hreified
    split at hreified
    · rename_i heq
      exact absurd .refl (heq ▸ hleads other (Or.inr heq))
    · exact hvisit.settles other type hreified fun third hthird => hleads third (Or.inl hthird)
  · intro other type held hreified hheld hclosed
    rw [not_or] at hclosed
    rw [OrderedMap.get?_insert, if_neg hclosed.2] at hreified
    exact hvisit.draws_mono hwithin (hnodes type (hvisit.has_reified hreified))
      (hvisit.draws other type held hreified hheld hclosed.1)

/-- A part of an object that leads to no open one leads to none either. -/
theorem settles_part (hvisit : frame.Visit start opens state) {goals : AllocId → Prop}
    {settled : TypeId → Prop} (hsettled : ∀ type, state.settled type → settled type)
    (hvisited : ∀ id type, state.reified.get? id = some type →
      (∀ goal, goals goal → ¬ frame.LeadsTo id goal) → settled type)
    {id : AllocId} {object : Allocation} (hobject : frame.localObject? (.fresh id) = some object)
    (hleads : ∀ goal, goals goal → ¬ frame.Encloses id goal) {selector : Selector}
    {operand : Operand} (hoperand : object.fields.get? selector = some operand) {type : TypeId}
    (hheld : frame.HeldAs start state operand type) : settled type := by
  cases hheld with
  | found _ hhas => exact hsettled type (hvisit.old type hhas)
  | bare _ _ hbare _ => exact hsettled type hbare
  | visited hreified =>
    rename_i child
    refine hvisited child type hreified fun goal hgoal hchain => hleads goal hgoal ?_
    obtain ⟨held, hheld, -⟩ := hvisit.objects child type hreified
    have hholds : frame.Holds id child :=
      holds_iff.mpr ⟨object, held, selector, hobject, hoperand, hheld⟩
    exact Relation.TransGen.head' hholds hchain

/-- The visit of an object on a circle ends: its node gets its parts.  The types of objects
that lead to no open one are settled from then on. -/
theorem close {id : AllocId}
    (hvisit : frame.Visit start (fun other => opens other ∨ other = id) state)
    {object : Allocation} (hobject : frame.localObject? (.fresh id) = some object)
    (hclosed : ¬ opens id) {type : TypeId} (hreified : state.reified.get? id = some type)
    {fields : Fields} (hfields : frame.HeldFields start state object fields) :
    ∃ settled, frame.Visit start opens
        { state with settled, graph := state.graph.fill type fields } ∧
      state.Within { state with settled, graph := state.graph.fill type fields } := by
  obtain ⟨_, htype, hunsettled, hunique⟩ := hvisit.opened id (Or.inr rfl)
  obtain rfl := Option.some.inj (hreified.symm.trans htype)
  -- An object that leads to no open one is closed as far as it goes, and so is its type.
  let settled : TypeId → Prop := fun held => state.settled held ∨
    ∃ other, state.reified.get? other = some held ∧ ∀ goal, opens goal → ¬ frame.LeadsTo other goal
  have hsettled : ∀ held, state.settled held → settled held := fun held h => Or.inl h
  have hnodes : ∀ held, held ≠ type →
      (state.graph.fill type fields).node? held = state.graph.node? held := by
    intro held hne
    rw [TypeGraph.node?_fill, if_neg hne]
  have hwithin : state.Within { state with settled, graph := state.graph.fill type fields } :=
    ⟨hsettled, fun _ _ h => h, fun held h => hnodes held fun heq => hunsettled (heq ▸ h)⟩
  have hnode : (state.graph.fill type fields).node? type =
      some (.object object.className fields) := by
    obtain ⟨held, hheld, hclass⟩ := hvisit.objects id type hreified
    obtain rfl := Option.some.inj (hobject.symm.trans hheld)
    obtain ⟨old, hold⟩ := TypeGraph.className?_eq_some_iff.mp hclass
    rw [TypeGraph.node?_fill, if_pos rfl, hold]
    rfl
  -- What an object holds that leads to no open one is settled now.
  have hpart : ∀ other held selector operand given, frame.localObject? (.fresh other) = some held →
      (∀ goal, opens goal → ¬ frame.LeadsTo other goal) →
      held.fields.get? selector = some operand → frame.HeldAs start state operand given →
        settled given := by
    intro other held selector operand given hheld hleads hoperand hgiven
    exact hvisit.settles_part hsettled (fun child childType hchild hfree =>
      Or.inr ⟨child, hchild, hfree⟩) hheld
      (fun goal hgoal hchain => hleads goal hgoal hchain.to_reflTransGen) hoperand hgiven
  have hdraws : ∀ other held heldType, state.reified.get? other = some heldType →
      frame.localObject? (.fresh other) = some held → ¬ opens other →
      ∃ parts, (state.graph.fill type fields).node? heldType =
          some (.object held.className parts) ∧
        (∀ selector, selector ∈ parts.keys ↔ selector ∈ held.fields.keys) ∧
        ∀ selector operand part, held.fields.get? selector = some operand →
          parts.get? selector = some part →
            ∃ given, frame.HeldAs start state operand given ∧ state.Agrees part given := by
    intro other held heldType hother hheld hopen
    by_cases hid : other = id
    · subst hid
      obtain rfl := Option.some.inj (hreified.symm.trans hother)
      obtain rfl := Option.some.inj (hobject.symm.trans hheld)
      exact ⟨fields, hnode, hfields.1, fun selector operand part hoperand hpart =>
        ⟨part, hfields.2 selector operand part hoperand hpart, Or.inl rfl⟩⟩
    · have hne : heldType ≠ type := fun heq => hid (hunique other (heq ▸ hother))
      rw [hnodes heldType hne]
      exact hvisit.draws other heldType held hother hheld (not_or.mpr ⟨hopen, hid⟩)
  refine ⟨settled, ⟨?_, ?_, ?_, ?_, fun held hhas => hsettled held (hvisit.old held hhas), ?_, ?_,
    ?_, ?_, fun other held hother hleads => Or.inr ⟨other, hother, hleads⟩, ?_⟩, hwithin⟩
  · exact hvisit.grows.fill (fun hhas => hunsettled (hvisit.old type hhas)) fields
  · exact hvisit.wellFormed.fill (hvisit.hasParts hfields) fun className hbare =>
      hunsettled (hvisit.bare className type hbare)
  · intro held hheld
    rw [TypeGraph.has_fill_iff]
    rcases hheld with hheld | hvisited
    · exact hvisit.has held hheld
    · obtain ⟨other, hother, -⟩ := hvisited
      exact hvisit.has_reified hother
  · intro held selector part hheld hfield
    rcases hheld with hheld | hvisited
    · have hne : held ≠ type := fun heq => hunsettled (heq ▸ hheld)
      rw [TypeGraph.field?, TypeGraph.fields, hnodes held hne] at hfield
      exact Or.inl (hvisit.closed held selector part hheld hfield)
    -- The parts of a newly settled type were given for parts of an object that leads to no open
    -- one, so they are settled as well.
    · obtain ⟨other, hother, hleads⟩ := hvisited
      obtain ⟨object', hobject', -⟩ := hvisit.objects other held hother
      obtain ⟨fields', hfields', hkeys, hdrawn⟩ := hdraws other object' held hother hobject'
        fun hopen => hleads other hopen .refl
      rw [TypeGraph.field?_eq_of_node? hfields', TypeNode.fields] at hfield
      obtain ⟨operand, hoperand⟩ := (object'.fields.mem_keys_iff selector).mp
        ((hkeys selector).mp ((fields'.mem_keys_iff selector).mpr ⟨part, hfield⟩))
      obtain ⟨given, hgiven, hagrees⟩ := hdrawn selector operand part hoperand hfield
      rcases hagrees with rfl | hagrees
      · exact hpart other object' selector operand part hobject' hleads hoperand hgiven
      · exact Or.inl hagrees.1
  · intro className held hbare
    exact Or.inl (hvisit.bare className held (TypeGraph.bare_fill _ _ _ ▸ hbare))
  · intro entry hmem
    exact Or.inl (hvisit.interned entry (TypeGraph.interned_fill _ _ _ ▸ hmem))
  · intro other hopen
    -- An open object leads to itself, and its type is the type of no other object.
    obtain ⟨held, hheld, hfree, honly⟩ := hvisit.opened other (Or.inl hopen)
    refine ⟨held, hheld, ?_, honly⟩
    intro hnow
    rcases hnow with hnow | hvisited
    · exact hfree hnow
    · obtain ⟨third, hthird, hleads⟩ := hvisited
      exact hleads other hopen (honly third hthird ▸ .refl)
  · intro other held hother
    obtain ⟨object', hobject', hclass⟩ := hvisit.objects other held hother
    exact ⟨object', hobject', (TypeGraph.className?_fill _ type held fields).trans hclass⟩
  · intro other heldType held hother hheld hopen
    obtain ⟨parts, hnode', hkeys, hdrawn⟩ := hdraws other held heldType hother hheld hopen
    refine ⟨parts, hnode', hkeys, fun selector operand part hoperand hpart' => ?_⟩
    obtain ⟨given, hgiven, hagrees⟩ := hdrawn selector operand part hoperand hpart'
    exact ⟨given, hgiven.mono hwithin, hvisit.agrees_mono hwithin hagrees⟩

/-! ### Shared types -/

/-- A type without loose ends is added, or was there before. -/
theorem add (hvisit : frame.Visit start opens state) {type : TypeId} {grown : TypeGraph}
    (hgrows : state.graph.Grows grown) (hwell : grown.WellFormed) (hhas : grown.Has type)
    (hnew : state.settled type ∨ ¬ state.graph.Has type)
    (hparts : ∀ selector part, grown.field? type selector = some part → state.settled part)
    (hbare : ∀ className held, grown.bare.get? className = some held →
      state.settled held ∨ held = type)
    (hinterned : ∀ entry ∈ grown.interned, state.settled entry.2 ∨ entry.2 = type) :
    frame.Visit start opens
        { state with settled := fun held => state.settled held ∨ held = type, graph := grown } ∧
      state.Within
        { state with settled := fun held => state.settled held ∨ held = type, graph := grown } := by
  have hwithin : state.Within
      { state with settled := fun held => state.settled held ∨ held = type, graph := grown } :=
    ⟨fun _ h => Or.inl h, fun _ _ h => h,
      fun held hsettled => hgrows.node?_eq held (hvisit.has held hsettled)⟩
  refine ⟨⟨hvisit.grows.trans hgrows, hwell, ?_, ?_, fun held h => Or.inl (hvisit.old held h),
    hbare, hinterned, ?_, ?_, fun id held hheld hleads =>
      Or.inl (hvisit.settles id held hheld hleads), ?_⟩, hwithin⟩
  · intro held hheld
    rcases hheld with hheld | rfl
    · exact hgrows.has (hvisit.has held hheld)
    · exact hhas
  · intro held selector part hheld hpart
    rcases hheld with hheld | rfl
    · rw [hgrows.field?_eq (hvisit.has held hheld)] at hpart
      exact Or.inl (hvisit.closed held selector part hheld hpart)
    · exact Or.inl (hparts selector part hpart)
  · intro id hopen
    -- The added type is settled or new, and the node of an open object is neither.
    obtain ⟨held, hheld, hunsettled, hunique⟩ := hvisit.opened id hopen
    refine ⟨held, hheld, not_or.mpr ⟨hunsettled, ?_⟩, hunique⟩
    intro heq
    subst heq
    rcases hnew with hold | hnew
    · exact hunsettled hold
    · exact hnew (hvisit.has_reified hheld)
  · intro id held hheld
    obtain ⟨object, hobject, hclass⟩ := hvisit.objects id held hheld
    exact ⟨object, hobject, by rw [hgrows.className?_eq (hvisit.has_reified hheld), hclass]⟩
  · intro id held object hheld hobject hopen
    exact hvisit.draws_mono hwithin (hgrows.node?_eq held (hvisit.has_reified hheld))
      (hvisit.draws id held object hheld hobject hopen)

/-- An object has a settled type that draws it. -/
theorem insert (hvisit : frame.Visit start opens state) {id : AllocId} {object : Allocation}
    (hobject : frame.localObject? (.fresh id) = some object)
    (hnew : state.reified.get? id = none) {type : TypeId} (hsettled : state.settled type)
    (hdraws : frame.Draws start state object type) :
    frame.Visit start opens { state with reified := state.reified.insert id type } ∧
      state.Within { state with reified := state.reified.insert id type } := by
  have hne : ∀ other held, state.reified.get? other = some held → other ≠ id := by
    intro other held hreified heq
    rw [heq, hnew] at hreified
    exact nomatch hreified
  have hwithin : state.Within { state with reified := state.reified.insert id type } := by
    refine ⟨fun _ h => h, fun other held hheld => ?_, fun _ _ => rfl⟩
    rw [OrderedMap.get?_insert, if_neg (hne other held hheld), hheld]
  refine ⟨⟨hvisit.grows, hvisit.wellFormed, hvisit.has, hvisit.closed, hvisit.old, hvisit.bare,
    hvisit.interned, ?_, ?_, ?_, ?_⟩, hwithin⟩
  · intro other hopen
    obtain ⟨held, hheld, hunsettled, hunique⟩ := hvisit.opened other hopen
    refine ⟨held, hwithin.reified other held hheld, hunsettled, fun third hthird => ?_⟩
    rw [OrderedMap.get?_insert] at hthird
    split at hthird
    · exact absurd (Option.some.inj hthird ▸ hsettled) hunsettled
    · exact hunique third hthird
  · intro other held hheld
    rw [OrderedMap.get?_insert] at hheld
    split at hheld
    · rename_i heq
      obtain ⟨fields, hnode, -⟩ := hdraws
      exact ⟨object, heq ▸ hobject, TypeGraph.className?_eq_some_iff.mpr
        ⟨fields, Option.some.inj hheld ▸ hnode⟩⟩
    · exact hvisit.objects other held hheld
  · intro other held hheld hleads
    rw [OrderedMap.get?_insert] at hheld
    split at hheld
    · exact Option.some.inj hheld ▸ hsettled
    · exact hvisit.settles other held hheld hleads
  · intro other held object' hheld hobject' hopen
    rw [OrderedMap.get?_insert] at hheld
    split at hheld
    · rename_i heq
      obtain rfl := Option.some.inj hheld
      obtain rfl := Option.some.inj ((heq ▸ hobject).symm.trans hobject')
      exact hvisit.draws_mono hwithin rfl hdraws
    · exact hvisit.draws_mono hwithin rfl (hvisit.draws other held object' hheld hobject' hopen)

/-- An object without parts has the type without parts of its class. -/
theorem plainObject (hvisit : frame.Visit start opens state) (className : String) :
    ∃ settled, frame.Visit start opens
        { state with settled, graph := (state.graph.plainObject className).2 } ∧
      state.Within { state with settled, graph := (state.graph.plainObject className).2 } ∧
      settled (state.graph.plainObject className).1 := by
  have hadds := TypeGraph.plainObject_adds hvisit.wellFormed className
  have hnode := TypeGraph.plainObject_node? hvisit.wellFormed className
  have hadded := hvisit.add hadds.grows hadds.wellFormed hadds.has ?_ ?_ ?_ ?_
  · exact ⟨_, hadded.1, hadded.2, Or.inr rfl⟩
  · unfold TypeGraph.plainObject
    split
    · rename_i type hbare
      exact Or.inl (hvisit.bare className type hbare)
    · exact Or.inr (TypeGraph.not_has_push_fst state.graph (.object className ∅))
  · intro selector part hpart
    rw [TypeGraph.field?_eq_of_node? hnode] at hpart
    cases hpart
  · intro other type hbare
    unfold TypeGraph.plainObject at hbare ⊢
    split at hbare
    · exact Or.inl (hvisit.bare other type hbare)
    · simp only
      rw [OrderedMap.get?_insert] at hbare
      split at hbare
      · exact Or.inr (Option.some.inj hbare).symm
      · exact Or.inl (hvisit.bare other type hbare)
  · intro entry hmem
    unfold TypeGraph.plainObject at hmem
    split at hmem <;> exact Or.inl (hvisit.interned entry hmem)

/-- An object that is on no circle has a shared type. -/
theorem share (hvisit : frame.Visit start opens state) {id : AllocId} {object : Allocation}
    (hobject : frame.localObject? (.fresh id) = some object)
    (hnew : state.reified.get? id = none) (hempty : object.fields.isEmpty = false)
    (haround : ∀ other, opens other → ¬ frame.Encloses id other) {fields : Fields}
    (hfields : frame.HeldFields start state object fields) :
    ∃ settled, frame.Visit start opens ⟨settled,
        state.reified.insert id (state.graph.intern object.className fields).1,
        (state.graph.intern object.className fields).2⟩ ∧
      state.Within ⟨settled,
        state.reified.insert id (state.graph.intern object.className fields).1,
        (state.graph.intern object.className fields).2⟩ := by
  have hsettled : ∀ selector part, fields.get? selector = some part → state.settled part := by
    intro selector part hpart
    obtain ⟨operand, hoperand⟩ := (object.fields.mem_keys_iff selector).mp
      ((hfields.1 selector).mp ((fields.mem_keys_iff selector).mpr ⟨part, hpart⟩))
    exact hvisit.settles_part (fun _ h => h) hvisit.settles hobject haround hoperand
      (hfields.2 selector operand part hoperand hpart)
  have hparts := hvisit.hasParts hfields
  have hnonempty : fields.isEmpty = false :=
    (OrderedMap.isEmpty_eq_of_mem_keys_iff hfields.1).trans hempty
  have hadds := TypeGraph.intern_adds hvisit.wellFormed object.className hparts
  obtain ⟨held, hnode, hkeys, hlooks⟩ :=
    TypeGraph.intern_looksLike hvisit.wellFormed object.className hparts
  have hcases := TypeGraph.intern_cases state.graph object.className hnonempty
  -- A node that is found is settled, and a new one has the parts that it is made of.
  have hinner : ∀ selector part,
      (state.graph.intern object.className fields).2.field?
        (state.graph.intern object.className fields).1 selector = some part →
          state.settled part := by
    intro selector part hpart
    rcases hcases with hfound | hnew
    · obtain ⟨entry, hentry, hintern, -⟩ := hfound
      rw [hintern] at hpart
      exact hvisit.closed entry.2 selector part (hvisit.interned entry hentry) hpart
    · obtain ⟨sketch, hintern⟩ := hnew
      rw [hintern] at hpart
      have hpushed : (state.graph.push (.object object.className fields)).2.field?
        (state.graph.push (.object object.className fields)).1 selector = some part := hpart
      rw [TypeGraph.field?_eq_of_node? (TypeGraph.node?_push_self _ _)] at hpushed
      exact hsettled selector part hpushed
  have hadded := hvisit.add hadds.grows hadds.wellFormed hadds.has ?_ hinner ?_ ?_
  · obtain ⟨hadded, hwithin⟩ := hadded
    have hinserted := hadded.insert hobject hnew (Or.inr rfl)
      ⟨held, hnode, fun selector => (hkeys selector).trans (hfields.1 selector), ?_⟩
    · exact ⟨_, hinserted.1, hwithin.trans hinserted.2⟩
    -- A shared node need not have the given parts, but parts with the same unfoldings.
    · intro selector operand other hoperand hother
      obtain ⟨part, hpart⟩ := (fields.mem_keys_iff selector).mp
        ((hkeys selector).mp ((held.mem_keys_iff selector).mpr ⟨other, hother⟩))
      have hsettledOther : state.settled other := by
        refine hinner selector other ?_
        rw [TypeGraph.field?_eq_of_node? hnode]
        exact hother
      exact ⟨part, (hfields.2 selector operand part hoperand hpart).mono hwithin,
        Or.inr ⟨Or.inl hsettledOther, Or.inl (hsettled selector part hpart),
          (hlooks selector part other hpart hother).symm⟩⟩
  · rcases hcases with hfound | hnew
    · obtain ⟨entry, hentry, hintern, -⟩ := hfound
      rw [hintern]
      exact Or.inl (hvisit.interned entry hentry)
    · obtain ⟨sketch, hintern⟩ := hnew
      rw [hintern]
      exact Or.inr (TypeGraph.not_has_push_fst state.graph (.object object.className fields))
  · intro className type hbare
    rcases hcases with hfound | hnew
    · obtain ⟨entry, hentry, hintern, -⟩ := hfound
      rw [hintern] at hbare
      exact Or.inl (hvisit.bare className type hbare)
    · obtain ⟨sketch, hintern⟩ := hnew
      rw [hintern] at hbare
      exact Or.inl (hvisit.bare className type hbare)
  · intro entry hmem
    rcases hcases with hfound | hnew
    · obtain ⟨_, -, hintern, -⟩ := hfound
      rw [hintern] at hmem
      exact Or.inl (hvisit.interned entry hmem)
    · obtain ⟨sketch, hintern⟩ := hnew
      rw [hintern] at hmem ⊢
      rcases List.mem_cons.mp hmem with rfl | hmem
      · exact Or.inr rfl
      · exact Or.inl (hvisit.interned entry hmem)

end Visit

/-! ## What a visit gives -/

variable {declarations : Declarations} {span : Span} {root : AllocId}

/-- Graphs grow and stay well-formed while the objects below `root` are visited, and a step
fails only if something below `root` cannot be looked at. -/
def visiting (frame : Frame) (start : TypeGraph) (root : AllocId) : Discipline TypeGraph where
  Grows := TypeGraph.Grows
  Calm := TypeGraph.WellFormed
  Excused failure := failure.Harmless ∧ ¬ frame.Navigable start root
  refl := TypeGraph.Grows.refl
  trans := TypeGraph.Grows.trans

theorem visiting_refines (frame : Frame) (start : TypeGraph) (root : AllocId) :
    (frame.visiting start root).Refines growing :=
  ⟨fun _ _ hgrows => hgrows, fun _ hcalm => hcalm, fun _ hexcused => hexcused.1⟩

/-- The visit goes on, and gives types only to objects of a certain kind. -/
structure Continues (frame : Frame) (start : TypeGraph) (opens reach : AllocId → Prop)
    (state later : VisitState) : Prop where
  visit : frame.Visit start opens later
  within : state.Within later
  fresh : ∀ other type, later.reified.get? other = some type →
    state.reified.get? other = some type ∨ reach other

/-- The objects of `around`, inside of which an object is met, enclose it, and something stands
behind it if everything below `root` can be looked at. -/
structure Met (frame : Frame) (start : TypeGraph) (root : AllocId) (around : List AllocId)
    (id : AllocId) : Prop where
  nodup : around.Nodup
  encloses : frame.isLocal id = true → ∀ other ∈ around, frame.Encloses other id
  leads : frame.isLocal id = true → frame.LeadsTo root id
  stands : frame.Navigable start root → frame.Stands start (.fresh id)

/-- The objects around whose nodes are reserved. -/
def opensIn (frame : Frame) (around : List AllocId) (other : AllocId) : Prop :=
  other ∈ around ∧ frame.isOnCircle other = true

theorem Met.initial (frame : Frame) (start : TypeGraph) (root : AllocId) :
    frame.Met start root [] root :=
  ⟨List.nodup_nil, fun _ _ hmem => absurd hmem List.not_mem_nil, fun _ => .refl,
    fun hnavigable => hnavigable.stands⟩

/-- A part of an object is met inside the object. -/
theorem Met.part {around : List AllocId} {id child : AllocId} {object : Allocation}
    {selector : Selector} (hmet : frame.Met start root around id) (hnew : id ∉ around)
    (hobject : frame.localObject? (.fresh id) = some object)
    (hpart : object.fields.get? selector = some (.fresh child)) :
    frame.Met start root (id :: around) child := by
  have hlocal : frame.isLocal id = true := isLocal_iff.mpr ⟨object, hobject⟩
  have hholds : frame.isLocal child = true → frame.Holds id child := by
    intro hchild
    obtain ⟨held, hheld⟩ := isLocal_iff.mp hchild
    exact holds_iff.mpr ⟨object, held, selector, hobject, hpart, hheld⟩
  refine ⟨List.nodup_cons.mpr ⟨hnew, hmet.nodup⟩, fun hchild other hother => ?_,
    fun hchild => (hmet.leads hlocal).tail (hholds hchild), fun hnavigable =>
      hnavigable.parts id object selector _ (hmet.leads hlocal) hobject hpart⟩
  rcases List.mem_cons.mp hother with rfl | hother
  · exact .single (hholds hchild)
  · exact (hmet.encloses hlocal other hother).tail (hholds hchild)

/-- What can be reached from a part is enclosed by the object. -/
theorem encloses_of_part {id child other : AllocId} {object held : Allocation}
    {selector : Selector} (hobject : frame.localObject? (.fresh id) = some object)
    (hpart : object.fields.get? selector = some (.fresh child))
    (hother : frame.localObject? (.fresh other) = some held)
    (hleads : frame.LeadsTo child other) : frame.Encloses id other := by
  have hlocal : ∃ held, frame.localObject? (.fresh child) = some held := by
    rcases hleads.cases_head with rfl | hhead
    · exact ⟨held, hother⟩
    · obtain ⟨_, hholds, -⟩ := hhead
      exact isLocal_iff.mp hholds.1
  obtain ⟨childObject, hchild⟩ := hlocal
  exact .head' (holds_iff.mpr ⟨object, childObject, selector, hobject, hpart, hchild⟩) hleads

theorem placeType_harmless (declarations : Declarations) (span : Span) {graph : TypeGraph}
    (hclosed : graph.Closed)
    (htypes : frame.HasTypes graph) (place : AccessPath) :
    Checked.Harmless (frame.placeType declarations graph span place) fun _ => True := by
  refine (frame.slotType_safe place.root).bind fun type htype => ?_
  have hhas := htypes.slots type (List.mem_of_getElem? htype.2)
  exact (Sound.foldl_partType hclosed place.selectors hhas).mono fun _ _ => trivial

/-- The type of a place is found if something stands behind the place. -/
theorem placeType_visits {graph : TypeGraph} (hwell : start.WellFormed)
    (htypes : frame.HasTypes start) (hgrows : start.Grows graph) (hclosed : graph.Closed)
    {place : AccessPath}
    (hplace : frame.Navigable start root → ∃ type, frame.placeType? start place = some type) :
    Checked.Safe (visiting frame start root).Excused
      (frame.placeType declarations graph span place)
      fun type => frame.placeType? start place = some type := by
  have hharmless := placeType_harmless declarations span hclosed (htypes.mono hgrows) place
  have hsame := placeType?_eq_of_grows hgrows hwell.closed htypes place
  cases hresult : frame.placeType declarations graph span place with
  | ok type => exact hsame ▸ placeType_eq_ok_iff.mp hresult
  | error failure =>
    rw [hresult] at hharmless
    refine ⟨hharmless, fun hnavigable => ?_⟩
    obtain ⟨type, htype⟩ := hplace hnavigable
    have hok : frame.placeType declarations graph span place = .ok type :=
      placeType_eq_ok_iff.mpr (hsame.trans htype)
    exact nomatch hresult.symm.trans hok

/-- The type that is given for an operand, and what else was built for it. -/
def Gives (frame : Frame) (start : TypeGraph) (opens reach : AllocId → Prop)
    (state : VisitState) (operand : Operand) (result : TypeId × Reified) (grown : TypeGraph) :
    Prop :=
  ∃ settled, frame.Continues start opens reach state ⟨settled, result.2, grown⟩ ∧
    frame.HeldAs start ⟨settled, result.2, grown⟩ operand result.1

theorem Continues.refl {opens reach : AllocId → Prop} (hvisit : frame.Visit start opens state) :
    frame.Continues start opens reach state state :=
  ⟨hvisit, .refl state, fun _ _ hreified => Or.inl hreified⟩

theorem Continues.trans {opens reach : AllocId → Prop} {last : VisitState}
    (hfirst : frame.Continues start opens reach state later)
    (hsecond : frame.Continues start opens reach later last) :
    frame.Continues start opens reach state last where
  visit := hsecond.visit
  within := hfirst.within.trans hsecond.within
  fresh other type hreified :=
    (hsecond.fresh other type hreified).elim (hfirst.fresh other type) Or.inr

section Parts

variable {opens : AllocId → Prop} {visit : AllocId → StateT Reified Building TypeId} {id : AllocId}
  {object : Allocation}

/-- What the visit of an object is asked for its parts. -/
structure VisitsParts (frame : Frame) (start : TypeGraph) (root : AllocId)
    (opens : AllocId → Prop) (visit : AllocId → StateT Reified Building TypeId)
    (object : Allocation) : Prop where
  stands : frame.Navigable start root → ∀ selector operand,
    object.fields.get? selector = some operand → frame.Stands start operand
  visits : ∀ selector child, object.fields.get? selector = some (.fresh child) →
    ∀ state, frame.Visit start opens state →
      (visiting frame start root).Ends state.graph (visit child state.reified state.graph)
        (frame.Gives start opens (frame.LeadsTo child) state (.fresh child))

theorem heldType_visits (hwell : start.WellFormed) (htypes : frame.HasTypes start)
    (hobject : frame.localObject? (.fresh id) = some object)
    (hparts : frame.VisitsParts start root opens visit object)
    (hvisit : frame.Visit start opens state) {selector : Selector} {operand : Operand}
    (hoperand : object.fields.get? selector = some operand) :
    (visiting frame start root).Ends state.graph
      (frame.heldType declarations span visit operand state.reified state.graph)
      (frame.Gives start opens (frame.Encloses id) state operand) := by
  cases operand with
  | type type =>
    obtain ⟨hat, -⟩ := localObject?_fresh_iff.mp hobject
    exact .run_pure ⟨state.settled, .refl hvisit,
      .found rfl (htypes.parts id.index object selector type hat hoperand)⟩
  | path place =>
    refine .getBase_bind (Discipline.Ends.mono (Discipline.Ends.checked hvisit.wellFormed
      (placeType_visits hwell htypes hvisit.grows hvisit.wellFormed.closed
        fun hnavigable => ?_)) ?_)
    · rcases hparts.stands hnavigable selector _ hoperand with hfound | hlocal
      · exact hfound
      · obtain ⟨held, hheld⟩ := hlocal
        exact nomatch hheld
    · intro result grown _ hresult
      obtain ⟨type, reified⟩ := result
      obtain ⟨rfl, rfl, hplace⟩ := hresult
      exact ⟨state.settled, .refl hvisit,
        .found hplace (has_placeType? hwell.closed htypes hplace)⟩
  | fresh child =>
    refine Discipline.Ends.mono (hparts.visits selector child hoperand state hvisit) ?_
    intro result grown _ hresult
    obtain ⟨settled, hcontinues, hgiven⟩ := hresult
    refine ⟨settled, ⟨hcontinues.visit, hcontinues.within, fun other type hother => ?_⟩, hgiven⟩
    obtain ⟨held, hheld, -⟩ := hcontinues.visit.objects other type hother
    exact (hcontinues.fresh other type hother).imp_right
      (encloses_of_part hobject hoperand hheld)

/-- One part after the other; what was given for the first ones still holds at the end. -/
theorem heldImages_visits (hwell : start.WellFormed) (htypes : frame.HasTypes start)
    (hobject : frame.localObject? (.fresh id) = some object)
    (hparts : frame.VisitsParts start root opens visit object)
    {entries : List (Selector × Operand)}
    (hentries : ∀ entry ∈ entries, object.fields.get? entry.1 = some entry.2)
    (hvisit : frame.Visit start opens state) :
    (visiting frame start root).Ends state.graph
      ((entries.mapM fun entry => do
          pure (entry.1, ← frame.heldType declarations span visit entry.2) :
        StateT Reified Building (List (Selector × TypeId))) state.reified state.graph)
      fun result grown => ∃ settled,
        frame.Continues start opens (frame.Encloses id) state ⟨settled, result.2, grown⟩ ∧
          List.Forall₂ (fun entry image => image.1 = entry.1 ∧
            frame.HeldAs start ⟨settled, result.2, grown⟩ entry.2 image.2) entries result.1 := by
  induction entries generalizing state with
  | nil => exact .run_pure ⟨state.settled, .refl hvisit, .nil⟩
  | cons entry rest ih =>
    have hfirst : (visiting frame start root).Ends state.graph
        ((do pure (entry.1, ← frame.heldType declarations span visit entry.2) :
          StateT Reified Building (Selector × TypeId)) state.reified state.graph)
        fun result grown => result.1.1 = entry.1 ∧
          frame.Gives start opens (frame.Encloses id) state entry.2 (result.1.2, result.2) grown :=
      Discipline.Ends.run_bind (heldType_visits hwell htypes hobject hparts hvisit
        (hentries entry List.mem_cons_self)) fun _ _ _ _ hgiven => .run_pure ⟨rfl, hgiven⟩
    rw [List.mapM_cons]
    refine Discipline.Ends.run_bind hfirst ?_
    intro image reified grown _ himage
    obtain ⟨hkey, settled, hcontinues, hgiven⟩ := himage
    refine Discipline.Ends.run_bind (ih
      (fun other hother => hentries other (List.mem_cons_of_mem _ hother)) hcontinues.visit) ?_
    intro images reified' grown' _ himages
    obtain ⟨settled', hcontinues', himages⟩ := himages
    exact .run_pure ⟨settled', hcontinues.trans hcontinues',
      .cons ⟨hkey, hgiven.mono hcontinues'.within⟩ himages⟩

theorem heldTypes_visits (hwell : start.WellFormed) (htypes : frame.HasTypes start)
    (hobject : frame.localObject? (.fresh id) = some object)
    (hparts : frame.VisitsParts start root opens visit object)
    (hvisit : frame.Visit start opens state) :
    (visiting frame start root).Ends state.graph
      (frame.heldTypes declarations span visit object.fields state.reified state.graph)
      fun result grown => ∃ settled,
        frame.Continues start opens (frame.Encloses id) state ⟨settled, result.2, grown⟩ ∧
          frame.HeldFields start ⟨settled, result.2, grown⟩ object result.1 := by
  unfold heldTypes
  refine Discipline.Ends.run_bind (heldImages_visits hwell htypes hobject hparts
    (fun entry hentry => (object.fields.get?_eq_some_iff entry.1 entry.2).mpr hentry) hvisit) ?_
  intro images reified grown _ himages
  obtain ⟨settled, hcontinues, himages⟩ := himages
  have hentries := OrderedMap.entries_ofList_images _ object.fields himages
  refine .run_pure ⟨settled, hcontinues, fun selector => ?_,
    fun selector operand part hoperand hpart => ?_⟩
  · rw [OrderedMap.keys, hentries, OrderedMap.map_fst_images _ himages]
    rfl
  · obtain ⟨held, hheld, hgiven⟩ := OrderedMap.exists_of_get?_images _ object.fields himages hpart
    obtain rfl := Option.some.inj (hoperand.symm.trans hheld)
    exact hgiven

end Parts

/-! ## Visits of objects -/

section Around

variable {around : List AllocId} {id : AllocId} {object : Allocation}

/-- An object around itself would be on a circle, and known. -/
theorem Met.not_mem (hmet : frame.Met start root around id)
    (hvisit : frame.Visit start (frame.opensIn around) state)
    (hobject : frame.localObject? (.fresh id) = some object)
    (hnew : state.reified.get? id = none) : id ∉ around := by
  intro hmem
  have hcircle := hmet.encloses (isLocal_iff.mpr ⟨object, hobject⟩) id hmem
  obtain ⟨type, hreified, -⟩ := hvisit.opened id ⟨hmem, isOnCircle_iff.mpr hcircle⟩
  rw [hnew] at hreified
  exact nomatch hreified

/-- There is room for one more object as long as one is not around. -/
theorem Met.length_lt (hmet : frame.Met start root around id) (hnew : id ∉ around)
    (hobject : frame.localObject? (.fresh id) = some object) :
    around.length < frame.allocations.size := by
  have hlocal : frame.isLocal id = true := isLocal_iff.mpr ⟨object, hobject⟩
  have hpresent : ∀ other ∈ id :: around, other.index < frame.allocations.size := by
    intro other hother
    have hother' : frame.isLocal other = true := by
      rcases List.mem_cons.mp hother with rfl | hother
      · exact hlocal
      · obtain ⟨_, hholds, -⟩ := Relation.TransGen.head'_iff.mp (hmet.encloses hlocal other hother)
        exact hholds.1
    obtain ⟨held, hheld⟩ := isLocal_iff.mp hother'
    obtain ⟨hat, -⟩ := localObject?_fresh_iff.mp hheld
    exact (Array.getElem?_eq_some_iff.mp hat).1
  -- The object and those around it are distinct, and all of them are allocated.
  exact AllocId.length_le_of_nodup (List.nodup_cons.mpr ⟨hnew, hmet.nodup⟩) hpresent

theorem opensIn_cons (frame : Frame) (around : List AllocId) (id : AllocId) :
    frame.opensIn (id :: around) = fun other =>
      frame.opensIn around other ∨ other = id ∧ frame.isOnCircle id = true := by
  funext other
  refine propext ⟨fun hopen => ?_, fun hopen => ?_⟩
  · obtain ⟨hmem, hcircle⟩ := hopen
    rcases List.mem_cons.mp hmem with rfl | hmem
    · exact Or.inr ⟨rfl, hcircle⟩
    · exact Or.inl ⟨hmem, hcircle⟩
  · rcases hopen with ⟨hmem, hcircle⟩ | ⟨rfl, hcircle⟩
    · exact ⟨List.mem_cons_of_mem _ hmem, hcircle⟩
    · exact ⟨List.mem_cons_self, hcircle⟩

theorem allocation_visits (hstands : frame.Navigable start root → frame.Stands start (.fresh id)) :
    Checked.Safe (visiting frame start root).Excused (frame.allocation id) fun object =>
      frame.allocations[id.index]? = some object := by
  unfold allocation
  cases hat : frame.allocations[id.index]? with
  | some object => exact rfl
  | none =>
    refine ⟨trivial, fun hnavigable => ?_⟩
    rcases hstands hnavigable with ⟨type, htype⟩ | ⟨object, hobject⟩
    · simp [foundType?, hat] at htype
    · simp [localObject?, hat] at hobject

end Around

section Object

variable {opens : AllocId → Prop} {visit : AllocId → StateT Reified Building TypeId} {id : AllocId}
  {object : Allocation}

/-- The visit of an object on a circle, inside of which it is open. -/
theorem circle_visits (hwell : start.WellFormed) (htypes : frame.HasTypes start)
    (hobject : frame.localObject? (.fresh id) = some object)
    (hparts : frame.VisitsParts start root (fun other => opens other ∨ other = id) visit object)
    (hvisit : frame.Visit start opens state) (hclosed : ¬ opens id)
    (hnew : state.reified.get? id = none) :
    (visiting frame start root).Ends state.graph
      ((do
        let type ← modifyGetThe TypeGraph (TypeGraph.reserve object.className)
        modifyThe Reified fun reified => reified.insert id type
        let fields ← frame.heldTypes declarations span visit object.fields
        modifyThe TypeGraph (TypeGraph.fill type fields)
        pure type : StateT Reified Building TypeId) state.reified state.graph)
      (frame.Gives start opens (frame.LeadsTo id) state (.fresh id)) := by
  obtain ⟨hreserved, hwithin⟩ := hvisit.reserve hobject hnew
  have hgrows : state.graph.Grows (state.graph.reserve object.className).2 := .push _ _
  refine .modifyGetBase_bind (.modify_bind (.run_bind_from hgrows
    (heldTypes_visits hwell htypes hobject hparts hreserved) ?_))
  intro fields reified grown hgrown hheld
  obtain ⟨settled, hcontinues, hfields⟩ := hheld
  have hreified : reified.get? id = some (state.graph.reserve object.className).1 :=
    hcontinues.within.reified id _ (by rw [OrderedMap.get?_insert, if_pos rfl])
  obtain ⟨settled', hdone, hwithin'⟩ :=
    hcontinues.visit.close hobject hclosed hreified hfields
  refine .modifyBase_bind ⟨(hgrows.trans hgrown).fill (TypeGraph.not_has_push_fst _ _) fields,
    settled', ⟨hdone, (hwithin.trans hcontinues.within).trans hwithin',
      fun other type hother => ?_⟩,
    .visited hreified⟩
  rcases hcontinues.fresh other type hother with hold | hencloses
  -- The object itself has been given the reserved node.
  · rw [OrderedMap.get?_insert] at hold
    split at hold
    · rename_i heq
      exact Or.inr (heq ▸ .refl)
    · exact Or.inl hold
  · exact Or.inr hencloses.to_reflTransGen

/-- The visit of an object on no circle, whose type is shared. -/
theorem shared_visits (hwell : start.WellFormed) (htypes : frame.HasTypes start)
    (hobject : frame.localObject? (.fresh id) = some object)
    (hempty : object.fields.isEmpty = false)
    (hparts : frame.VisitsParts start root opens visit object)
    (hvisit : frame.Visit start opens state)
    (haround : ∀ other, opens other → ¬ frame.Encloses id other)
    (hcircle : ¬ frame.Encloses id id) (hnew : state.reified.get? id = none) :
    (visiting frame start root).Ends state.graph
      ((do
        let fields ← frame.heldTypes declarations span visit object.fields
        let type ← modifyGetThe TypeGraph (TypeGraph.intern object.className fields)
        modifyThe Reified fun reified => reified.insert id type
        pure type : StateT Reified Building TypeId) state.reified state.graph)
      (frame.Gives start opens (frame.LeadsTo id) state (.fresh id)) := by
  refine Discipline.Ends.run_bind (heldTypes_visits hwell htypes hobject hparts hvisit) ?_
  intro fields reified grown _ hheld
  obtain ⟨settled, hcontinues, hfields⟩ := hheld
  -- On no circle, the object is not met again while its parts are visited.
  have hnew' : reified.get? id = none := by
    cases hreified : reified.get? id with
    | none => rfl
    | some type =>
      rcases hcontinues.fresh id type hreified with hold | hencloses
      · exact nomatch hnew.symm.trans hold
      · exact absurd hencloses hcircle
  obtain ⟨settled', hshared, hwithin⟩ :=
    hcontinues.visit.share hobject hnew' hempty haround hfields
  have hgrows := (TypeGraph.intern_adds hcontinues.visit.wellFormed object.className
    (hcontinues.visit.hasParts hfields)).grows
  refine .modifyGetBase_bind (.from_grown hgrows (.modify_bind (.run_pure
    ⟨settled', ⟨hshared, hcontinues.within.trans hwithin, fun other type hother => ?_⟩,
      .visited (by rw [OrderedMap.get?_insert, if_pos rfl])⟩)))
  rw [OrderedMap.get?_insert] at hother
  split at hother
  · rename_i heq
    exact Or.inr (heq ▸ .refl)
  · exact (hcontinues.fresh other type hother).imp_right fun hencloses =>
      hencloses.to_reflTransGen

end Object

/-- What a visit of an object gives, told of the visits with less room. -/
theorem reifyWithin_visits (hwell : start.WellFormed) (htypes : frame.HasTypes start)
    (room : Nat) (around : List AllocId) (id : AllocId)
    (hroom : frame.allocations.size ≤ room + around.length)
    (hmet : frame.Met start root around id)
    (hvisit : frame.Visit start (frame.opensIn around) state) :
    (visiting frame start root).Ends state.graph
      (frame.reifyWithin declarations span room around id state.reified state.graph)
      (frame.Gives start (frame.opensIn around) (frame.LeadsTo id) state (.fresh id)) := by
  induction room using Nat.strongRecOn generalizing around id state with
  | ind room ih =>
    unfold reifyWithin
    refine .get_bind ?_
    cases hknown : state.reified.get? id with
    | some type => exact .run_pure ⟨state.settled, .refl hvisit, .visited hknown⟩
    | none =>
      refine .checked_bind hvisit.wellFormed (allocation_visits hmet.stands) fun object hat => ?_
      cases hhome : object.home? with
      | some home =>
        -- An object with a home is told by its place, and nothing is built.
        have hfound : frame.foundType? start (.fresh id) = frame.placeType? start home := by
          simp [foundType?, hat, hhome]
        have hplace : frame.Navigable start root →
            ∃ type, frame.placeType? start home = some type := by
          intro hnavigable
          rcases hmet.stands hnavigable with ⟨type, htype⟩ | ⟨held, hheld⟩
          · exact ⟨type, hfound ▸ htype⟩
          · simp [localObject?, hat, hhome] at hheld
        refine .getBase_bind (Discipline.Ends.mono (Discipline.Ends.checked hvisit.wellFormed
          (placeType_visits hwell htypes hvisit.grows hvisit.wellFormed.closed hplace)) ?_)
        intro result grown _ hresult
        obtain ⟨type, reified⟩ := result
        obtain ⟨rfl, rfl, htype⟩ := hresult
        exact ⟨state.settled, .refl hvisit,
          .found (hfound.trans htype) (has_placeType? hwell.closed htypes htype)⟩
      | none =>
        have hobject : frame.localObject? (.fresh id) = some object :=
          localObject?_fresh_iff.mpr ⟨hat, hhome⟩
        have hnew := hmet.not_mem hvisit hobject hknown
        have hlength := hmet.length_lt hnew hobject
        dsimp only
        split
        · rename_i hempty
          obtain ⟨settled, hplain, hwithin, hsettled⟩ := hvisit.plainObject object.className
          have hadds := TypeGraph.plainObject_adds hvisit.wellFormed object.className
          have hnode := TypeGraph.plainObject_node? hvisit.wellFormed object.className
          exact ⟨hadds.grows, settled, ⟨hplain, hwithin, fun _ _ h => Or.inl h⟩,
            .bare hobject hempty hsettled hnode⟩
        · rename_i hempty
          rw [Bool.not_eq_true] at hempty
          cases room with
          -- Without room all objects would be around, this one among them.
          | zero => omega
          | succ room =>
            have hparts : ∀ opens, frame.opensIn (id :: around) = opens →
                frame.VisitsParts start root opens
                  (frame.reifyWithin declarations span room (id :: around)) object := by
              intro opens heq
              subst heq
              refine ⟨fun hnavigable selector operand hoperand => ?_,
                fun selector child hchild state hvisit => ?_⟩
              · exact hnavigable.parts id object selector operand
                  (hmet.leads (isLocal_iff.mpr ⟨object, hobject⟩)) hobject hoperand
              · refine ih room (Nat.lt_succ_self room) (id :: around) child ?_
                  (hmet.part hnew hobject hchild) hvisit
                rw [List.length_cons]
                omega
            have hopens := opensIn_cons frame around id
            dsimp only
            rw [if_neg (by simpa using hnew)]
            split
            · rename_i hcircle
              simp only [hcircle, and_true] at hopens
              exact circle_visits hwell htypes hobject (hparts _ hopens) hvisit
                (fun hopen => hnew hopen.1) hknown
            · rename_i hcircle
              -- Open objects enclose this one; if it enclosed one of them, it would be on a circle.
              have haround : ∀ other, frame.opensIn around other → ¬ frame.Encloses id other := by
                intro other hopen hencloses
                have hother := hmet.encloses (isLocal_iff.mpr ⟨object, hobject⟩) other hopen.1
                exact hcircle (isOnCircle_iff.mpr (hencloses.trans hother))
              simp only [hcircle, Bool.false_eq_true, and_false, or_false] at hopens
              exact shared_visits hwell htypes hobject hempty (hparts _ hopens) hvisit haround
                (fun hencloses => hcircle (isOnCircle_iff.mpr hencloses)) hknown

/-! ## The type of an object -/

theorem opensIn_nil (frame : Frame) : frame.opensIn [] = fun _ => False := by
  funext other
  simp [opensIn]

/-- When no visit is open, what was given for an operand shows the operand. -/
theorem Visit.shows (hwell : start.WellFormed) (htypes : frame.HasTypes start)
    (hvisit : frame.Visit start (fun _ => False) state) {operand : Operand} {type : TypeId}
    (hheld : frame.HeldAs start state operand type) : frame.Shows state.graph operand type := by
  refine ⟨fun operand type => ∃ given, frame.HeldAs start state operand given ∧
    SameUnfolding state.graph given state.graph type, ?_,
    type, hheld, .refl hvisit.wellFormed.closed (hvisit.has_heldAs hheld)⟩
  intro operand type hrelated
  obtain ⟨given, hgiven, hsame⟩ := hrelated
  cases hgiven with
  | found hfound _ =>
    refine Or.inl ⟨given, ?_, hsame⟩
    rw [foundType?_eq_of_grows hvisit.grows hwell.closed htypes, hfound]
  | @bare id object _ hobject hempty _ hnode =>
    obtain ⟨_, node, hgivenNode, htypeNode, halike⟩ := hsame.alike
    obtain rfl := Option.some.inj (hnode.symm.trans hgivenNode)
    rw [OrderedMap.isEmpty_eq_true_iff] at hempty
    cases node with
    | scalar => exact halike.elim
    | object className fields =>
      obtain ⟨rfl, hkeys⟩ := halike
      exact Or.inr ⟨object, fields, hobject, htypeNode, fun selector => by
        rw [hempty, ← hkeys selector]; rfl, fun selector operand part hoperand => by
        rw [hempty] at hoperand; exact nomatch hoperand⟩
  | @visited id _ hreified =>
    obtain ⟨object, hobject, -⟩ := hvisit.objects id given hreified
    obtain ⟨drawn, hdrawn, hdrawnKeys, hdraws⟩ :=
      hvisit.draws id given object hreified hobject (fun h => h)
    obtain ⟨_, node, hgivenNode, htypeNode, halike⟩ := hsame.alike
    obtain rfl := Option.some.inj (hdrawn.symm.trans hgivenNode)
    cases node with
    | scalar => exact halike.elim
    | object className fields =>
      obtain ⟨rfl, hkeys⟩ := halike
      refine Or.inr ⟨object, fields, hobject, htypeNode,
        fun selector => (hkeys selector).symm.trans (hdrawnKeys selector),
        fun selector operand part hoperand hpart => ?_⟩
      -- The part of the drawn node under this selector leads on to the given type.
      obtain ⟨middle, hmiddle⟩ := (drawn.mem_keys_iff selector).mp
        ((hkeys selector).mpr ((fields.mem_keys_iff selector).mpr ⟨part, hpart⟩))
      obtain ⟨inner, hinner, hagrees⟩ := hdraws selector operand middle hoperand hmiddle
      have hmiddleSame : SameUnfolding state.graph middle state.graph part :=
        hsame.part (by rw [TypeGraph.field?_eq_of_node? hdrawn]; exact hmiddle)
          (by rw [TypeGraph.field?_eq_of_node? htypeNode]; exact hpart)
      rcases hagrees with rfl | hagrees
      · exact ⟨middle, hinner, hmiddleSame⟩
      · exact ⟨inner, hinner, hagrees.2.2.symm.trans hmiddleSame⟩

/-- The type of an object shows the object, and there is one if the object and everything that
is reached from it can be looked at. -/
theorem reify_shows (declarations : Declarations) (span : Span) (hwell : start.WellFormed)
    (htypes : frame.HasTypes start) (id : AllocId) :
    (visiting frame start id).Ends start (frame.reify declarations span id start)
      fun type grown => grown.WellFormed ∧ frame.Shows grown (.fresh id) type := by
  have hinitial : frame.Visit start (frame.opensIn []) ⟨start.Has, ∅, start⟩ := by
    rw [opensIn_nil]
    exact .initial hwell
  refine Discipline.Ends.run' (reifyWithin_visits hwell htypes frame.allocations.size [] id
    (Nat.le_add_right _ _) (.initial frame start id) hinitial) ?_
  intro type reified grown hgives
  obtain ⟨settled, hcontinues, hheld⟩ := hgives
  have hvisit := hcontinues.visit
  rw [opensIn_nil] at hvisit
  exact ⟨hvisit.wellFormed, hvisit.shows hwell htypes hheld⟩

end Frame

end ShapeFlow
