import ShapeFlow.Proofs.EndingWalks
import ShapeFlow.Proofs.FaithfulLog
import ShapeFlow.Proofs.PlacedWalks
import ShapeFlow.Proofs.ReifiedObjects

/-!
# Circles of objects, and visits inside visits

The type of an object is read off by a visit, which visits the objects without homes that the object
holds, and so on.  Only for an object on a circle (`Frame.isOnCircle`) is a node reserved before its
parts are visited; the visit of any other object leaves no trace until it is over.  So the visits
come to an end because the search for a circle finds every chain of parts that leads back
(`Frame.isOnCircle_iff_exists_objectAt?`).

`Frame.Enters` tells which visits are made, each with the visits that are still open around it, and
with what has been given and built when it begins.  It is read off the run: the parts of an object
are visited one after the other, each in the state in which the parts before it have left things.
The types of the parts depend on the visits that are entered, and on no others
(`Frame.Enters.openedTypes_eq`).  Every object around a visit encloses the object that is visited,
and so an object around itself is on a circle.
-/

namespace ShapeFlow

theorem run_bind_congr {α β σ τ : Type} {first second : StateT σ (EStateM Failure τ) α}
    {next : α → StateT σ (EStateM Failure τ) β} {state : σ} {start : τ}
    (hstep : first state start = second state start) :
    (first >>= next) state start = (second >>= next) state start := by
  simp only [bind, StateT.bind, EStateM.bind, hstep]

/-- Steps one after the other do as other steps do if each of them does so in the state to which the
steps before it lead. -/
theorem mapM_eq_of_reached {α β σ τ : Type} {first second : α → StateT σ (EStateM Failure τ) β}
    (items : List α) (state : σ) (start : τ)
    (hsteps : ∀ before item after, items = before ++ item :: after → ∀ images later final,
      before.mapM second state start = .ok (images, later) final →
        first item later final = second item later final) :
    items.mapM first state start = items.mapM second state start := by
  induction items generalizing state start with
  | nil => rfl
  | cons item rest ih =>
    have hitem : first item state start = second item state start :=
      hsteps [] item rest rfl [] state start rfl
    rw [List.mapM_cons, List.mapM_cons]
    cases hresult : second item state start with
    | error failure final =>
      rw [run_bind_of_error hresult, run_bind_of_error (hitem.trans hresult)]
    | ok answer final =>
      obtain ⟨image, later⟩ := answer
      rw [run_bind_of_ok hresult, run_bind_of_ok (hitem.trans hresult)]
      have hrest : rest.mapM first later final = rest.mapM second later final := by
        refine ih later final fun before other after hsplit images later' final' hbefore => ?_
        refine hsteps (item :: before) other after (congrArg (item :: ·) hsplit) (image :: images)
          later' final' ?_
        rw [List.mapM_cons, run_bind_of_ok hresult, run_bind_of_ok hbefore]
        rfl
      cases hend : rest.mapM second later final with
      | error failure final' =>
        rw [run_bind_of_error hend, run_bind_of_error (hrest.trans hend)]
      | ok answer final' =>
        rw [run_bind_of_ok hend, run_bind_of_ok (hrest.trans hend)]

namespace Frame

variable {frame : Frame} {declarations : Declarations} {span : Span}

/-! ## Circles -/

/-- A chain of at least one part, all of them without homes, is one that can be followed. -/
theorem encloses_iff_exists_objectAt? {first id : AllocId} :
    frame.Encloses first id ↔ ∃ chain, chain ≠ [] ∧ frame.objectAt? first chain = some id := by
  constructor
  · intro hencloses
    obtain ⟨other, hleads, hholds⟩ := Relation.TransGen.tail'_iff.mp hencloses
    obtain ⟨chain, hchain⟩ := leadsTo_iff_exists_objectAt?.mp hleads
    obtain ⟨selector, hpart⟩ := holds_iff_exists_localPart?.mp hholds
    refine ⟨chain ++ [selector], by simp, ?_⟩
    rw [objectAt?_concat, hchain]
    exact hpart
  · rintro ⟨chain, hne, hchain⟩
    obtain ⟨before, selector, rfl⟩ := (List.eq_nil_or_concat chain).resolve_left hne
    rw [List.concat_eq_append] at hchain
    rw [objectAt?_concat, Option.bind_eq_some_iff] at hchain
    obtain ⟨other, hother, hpart⟩ := hchain
    exact Relation.TransGen.tail' (leadsTo_iff_exists_objectAt?.mpr ⟨before, hother⟩)
      (holds_iff_exists_localPart?.mpr ⟨selector, hpart⟩)

/-- The search finds a circle exactly where a chain of parts leads back. -/
theorem isOnCircle_iff_exists_objectAt? {id : AllocId} : frame.isOnCircle id = true ↔
    ∃ chain, chain ≠ [] ∧ frame.objectAt? id chain = some id :=
  isOnCircle_iff.trans encloses_iff_exists_objectAt?

/-! ## The visits that are made -/

/-- The type of a part, beside the part. -/
def heldEntry (frame : Frame) (declarations : Declarations) (span : Span)
    (visit : AllocId → StateT Reified Building TypeId) (entry : Selector × Operand) :
    StateT Reified Building (Selector × TypeId) := do
  pure (entry.1, ← frame.heldType declarations span visit entry.2)

/-- What has been given and built when the parts of an object are visited: the node of an object on
a circle is there by then. -/
def opening (frame : Frame) (id : AllocId) (object : Allocation) (reified : Reified)
    (graph : TypeGraph) : Reified × TypeGraph :=
  if frame.isOnCircle id then
    (reified.insert id (graph.reserve object.className).1, (graph.reserve object.className).2)
  else (reified, graph)

/-- What the types of the parts of an object come to, where `visit` answers for objects. -/
def openedTypes (frame : Frame) (declarations : Declarations) (span : Span)
    (visit : AllocId → StateT Reified Building TypeId) (id : AllocId) (object : Allocation)
    (reified : Reified) (graph : TypeGraph) : EStateM.Result Failure TypeGraph (Fields × Reified) :=
  frame.heldTypes declarations span visit object.fields
    (frame.opening id object reified graph).1 (frame.opening id object reified graph).2

/-- A visit that is made while the type of `root` is read off: its room, the objects whose visits
are open around it, the object that is visited, and what has been given and built so far. -/
inductive Enters (frame : Frame) (declarations : Declarations) (span : Span) (root : AllocId)
    (start : TypeGraph) : Nat → List AllocId → AllocId → Reified → TypeGraph → Prop
  | root : Enters frame declarations span root start frame.allocations.size [] root ∅ start
  | part {room : Nat} {around : List AllocId} {id child : AllocId} {object : Allocation}
      {reified later : Reified} {graph grown : TypeGraph} {before after : List (Selector × Operand)}
      {selector : Selector} {types : List (Selector × TypeId)} :
      Enters frame declarations span root start (room + 1) around id reified graph →
      reified.get? id = none → frame.localObject? (.fresh id) = some object → id ∉ around →
      object.fields.entries = before ++ (selector, .fresh child) :: after →
      before.mapM (frame.heldEntry declarations span
          (frame.reifyWithin declarations span room (id :: around)))
        (frame.opening id object reified graph).1 (frame.opening id object reified graph).2 =
          .ok (types, later) grown →
      Enters frame declarations span root start room (id :: around) child later grown

namespace Enters

variable {root : AllocId} {start : TypeGraph} {room : Nat} {around : List AllocId} {id : AllocId}
  {reified : Reified} {graph : TypeGraph}

/-- The types of the parts of an object depend on the visits that are entered, and on no others. -/
theorem openedTypes_eq {object : Allocation} {visit : AllocId → StateT Reified Building TypeId}
    (henters : frame.Enters declarations span root start (room + 1) around id reified graph)
    (hnew : reified.get? id = none) (hobject : frame.localObject? (.fresh id) = some object)
    (haround : id ∉ around)
    (hvisit : ∀ child later grown,
      frame.Enters declarations span root start room (id :: around) child later grown →
        visit child later grown =
          frame.reifyWithin declarations span room (id :: around) child later grown) :
    frame.openedTypes declarations span visit id object reified graph =
      frame.openedTypes declarations span (frame.reifyWithin declarations span room (id :: around))
        id object reified graph := by
  have himages : object.fields.entries.mapM (frame.heldEntry declarations span visit)
        (frame.opening id object reified graph).1 (frame.opening id object reified graph).2 =
      object.fields.entries.mapM (frame.heldEntry declarations span
          (frame.reifyWithin declarations span room (id :: around)))
        (frame.opening id object reified graph).1 (frame.opening id object reified graph).2 := by
    refine mapM_eq_of_reached _ _ _ fun before entry after hsplit types later grown hbefore => ?_
    obtain ⟨selector, operand⟩ := entry
    cases operand with
    | type type => rfl
    | path place => rfl
    | fresh child =>
      have hchild := hvisit child later grown (.part henters hnew hobject haround hsplit hbefore)
      simp only [heldEntry, heldType, bind, StateT.bind, EStateM.bind, hchild]
  exact run_bind_congr himages

/-- The objects around a visit enclose the object that is visited. -/
theorem met (henters : frame.Enters declarations span root start room around id reified graph) :
    frame.Met start root around id := by
  induction henters with
  | root => exact .initial frame start root
  | @part room around id child object _ _ _ _ before after selector _ _ _ hobject haround hsplit _
      ih =>
    have hpart : object.fields.get? selector = some (.fresh child) := by
      rw [OrderedMap.get?_eq_some_iff, hsplit]
      exact List.mem_append_right before List.mem_cons_self
    exact ih.part haround hobject hpart

/-- The objects around a visit have no homes. -/
theorem isLocal_around
    (henters : frame.Enters declarations span root start room around id reified graph) :
    ∀ other ∈ around, frame.isLocal other = true := by
  induction henters with
  | root => simp
  | part _ _ hobject _ _ _ ih => exact List.forall_mem_cons.mpr ⟨isLocal_iff.mpr ⟨_, hobject⟩, ih⟩

/-- An object around itself is on a circle. -/
theorem isOnCircle_of_mem
    (henters : frame.Enters declarations span root start room around id reified graph)
    (hmem : id ∈ around) : frame.isOnCircle id = true :=
  isOnCircle_iff.mpr (henters.met.encloses (henters.isLocal_around id hmem) id hmem)

end Enters

/-- The search for a circle comes to an end after it has looked at each object at most once, and it
finds a circle exactly where a chain of parts, all of them objects without homes, leads from the
object back to it.  While the type of an object is read off, an object on no circle is not visited
inside its own visit: it is not among the objects around it, and however such a visit were answered,
the types of the parts would be the same. -/
theorem circles_found (frame : Frame) (id : AllocId) :
    (∃ count ≤ frame.allocations.size,
      Explores (fun met => if met = id then none else some (frame.localParts met)) count
        ([] : List AllocId) (frame.localParts id) (!frame.isOnCircle id)) ∧
    (frame.isOnCircle id = true ↔ ∃ chain, chain ≠ [] ∧ frame.objectAt? id chain = some id) ∧
    ∀ declarations span root start room around reified graph,
      frame.Enters declarations span root start room around id reified graph →
        (frame.isOnCircle id = false → id ∉ around) ∧
        ∀ object fewer (visit : AllocId → StateT Reified Building TypeId), room = fewer + 1 →
          reified.get? id = none → frame.localObject? (.fresh id) = some object → id ∉ around →
          (∀ child, (child ∈ id :: around → frame.isOnCircle child = true) →
            visit child = frame.reifyWithin declarations span fewer (id :: around) child) →
          frame.openedTypes declarations span visit id object reified graph =
            frame.openedTypes declarations span
              (frame.reifyWithin declarations span fewer (id :: around)) id object reified graph := by
  refine ⟨frame.explores_isOnCircle id, isOnCircle_iff_exists_objectAt?, ?_⟩
  intro declarations span root start room around reified graph henters
  refine ⟨fun hcircle hmem => ?_, fun object fewer visit hroom hnew hobject haround hvisit => ?_⟩
  · rw [henters.isOnCircle_of_mem hmem] at hcircle
    exact nomatch hcircle
  · subst hroom
    refine henters.openedTypes_eq hnew hobject haround fun child later grown hchild => ?_
    rw [hvisit child hchild.isOnCircle_of_mem]

end Frame

/-- The leaf that the two nodes share is visited inside both of them, which are on a circle. -/
theorem tangleFrame_circles_found :
    tangleFrame.isOnCircle ⟨0⟩ = true ∧
      (∃ chain, chain ≠ [] ∧ tangleFrame.objectAt? ⟨0⟩ chain = some ⟨0⟩) ∧
      tangleFrame.isOnCircle ⟨2⟩ = false ∧
      ∃ reified graph,
        tangleFrame.Enters {} ⟨0, 0⟩ ⟨0⟩ tangleGraph 2 [⟨1⟩, ⟨0⟩] ⟨2⟩ reified graph ∧
          (⟨2⟩ : AllocId) ∉ [(⟨1⟩ : AllocId), ⟨0⟩] := by
  have hcircle : tangleFrame.isOnCircle ⟨0⟩ = true := by decide
  have hleaf : tangleFrame.isOnCircle ⟨2⟩ = false := by decide
  have hnext : tangleFrame.Enters {} ⟨0, 0⟩ ⟨0⟩ tangleGraph 3 [⟨0⟩] ⟨1⟩ (.ofList [(⟨0⟩, ⟨4⟩)])
      (tangleGraph.reserve "Node").2 := by
    have hsplit : tangleFrame.allocations[0].fields.entries =
        [] ++ (.field "@next", .fresh ⟨1⟩) :: tangleFrame.allocations[0].fields.entries.tail := rfl
    exact .part .root rfl rfl List.not_mem_nil hsplit rfl
  have hshared : ∃ reified graph,
      tangleFrame.Enters {} ⟨0, 0⟩ ⟨0⟩ tangleGraph 2 [⟨1⟩, ⟨0⟩] ⟨2⟩ reified graph := by
    have hsplit : tangleFrame.allocations[1].fields.entries =
        [(.field "@next", .fresh ⟨0⟩), (.field "@box", .fresh ⟨3⟩)] ++
          (.field "@leaf", .fresh ⟨2⟩) :: [(.field "@ring", .type ⟨3⟩)] := rfl
    have hpasses : passes (fun _ _ => true)
        ([(Selector.field "@next", Operand.fresh ⟨0⟩), (.field "@box", .fresh ⟨3⟩)].mapM
          (tangleFrame.heldEntry {} ⟨0, 0⟩ (tangleFrame.reifyWithin {} ⟨0, 0⟩ 2 [⟨1⟩, ⟨0⟩]))
          (.ofList [(⟨0⟩, ⟨4⟩), (⟨1⟩, ⟨5⟩)])
            ((tangleGraph.reserve "Node").2.reserve "Node").2) = true := by
      decide +kernel
    obtain ⟨_, _, hbefore, -⟩ := exists_of_passes _ hpasses
    exact ⟨_, _, .part hnext rfl rfl (by decide) hsplit hbefore⟩
  obtain ⟨reified, graph, henters⟩ := hshared
  exact ⟨hcircle, (tangleFrame.circles_found ⟨0⟩).2.1.mp hcircle, hleaf, reified, graph, henters,
    ((tangleFrame.circles_found ⟨2⟩).2.2 _ _ _ _ _ _ _ _ henters).1 hleaf⟩

end ShapeFlow
