import ShapeFlow.Proofs.CanonicalTypes
import ShapeFlow.Proofs.Stores

/-!
# Steps keep graphs tidy

`Tidying` says of a step in a state that it keeps the canonical types and a tidy graph tidy,
whether it succeeds or fails.  Most steps leave the graph alone (`Still`).  The others build types
from what the frame holds, and have to be told that this is in the graph, so the rule for a
sequence hands on that its first step has succeeded: the soundness lemmas of that step then tell
what is known between the two.

The hard case is the visit of an object (`Frame.reifyWithin_tidying`).  While it is under way the
graph has nodes that are still to be filled, and shared types are sought and added meanwhile.  All
of the shared types are settled, so filling a node changes the unfolding of none of them.
-/

namespace ShapeFlow

open TypeGraph (SameUnfolding)

section Rules

variable {σ τ α β ι : Type} [Typed τ]

/-- The step leaves the graph alone. -/
class Still (step : StateT σ (EStateM Failure τ) α) : Prop where
  graph_eq : ∀ frame state, Typed.graph (endOf (step frame state)) = Typed.graph state

/-- In this state the step keeps the canonical types, and a tidy graph tidy. -/
def Tidying (step : StateT σ (EStateM Failure τ) α) (frame : σ) (state : τ) : Prop :=
  (Typed.graph state).Tidies (Typed.graph (endOf (step frame state)))

omit [Typed τ] in
theorem endOf_bind (step : StateT σ (EStateM Failure τ) α)
    (next : α → StateT σ (EStateM Failure τ) β) (frame : σ) (state : τ) :
    endOf ((step >>= next) frame state) = match step frame state with
      | .ok (value, changed) later => endOf (next value changed later)
      | .error _ later => later := by
  simp only [Bind.bind, StateT.bind, EStateM.bind]
  cases step frame state <;> rfl

namespace Still

instance pure (value : α) : Still (Pure.pure value : StateT σ (EStateM Failure τ) α) :=
  ⟨fun _ _ => rfl⟩

instance bind (step : StateT σ (EStateM Failure τ) α) (next : α → StateT σ (EStateM Failure τ) β)
    [hstep : Still step] [hnext : ∀ value, Still (next value)] : Still (step >>= next) where
  graph_eq frame state := by
    have hfirst := hstep.graph_eq frame state
    rw [endOf_bind]
    cases hresult : step frame state with
    | ok result later =>
      rw [hresult] at hfirst
      exact ((hnext result.1).graph_eq result.2 later).trans hfirst
    | error failure later =>
      rw [hresult] at hfirst
      exact hfirst

theorem seq {step : StateT σ (EStateM Failure τ) α} {next : α → StateT σ (EStateM Failure τ) β}
    (hstep : Still step) (hnext : ∀ value, Still (next value)) : Still (step >>= next) :=
  bind step next

instance keep (step : Checked α) : Still (liftM step : StateT σ (EStateM Failure τ) α) :=
  ⟨fun _ _ => by cases step <;> rfl⟩

instance get : Still (getThe σ : StateT σ (EStateM Failure τ) σ) := ⟨fun _ _ => rfl⟩

instance getBase : Still (getThe τ : StateT σ (EStateM Failure τ) τ) := ⟨fun _ _ => rfl⟩

instance modify (change : σ → σ) :
    Still (modifyThe σ change : StateT σ (EStateM Failure τ) PUnit) := ⟨fun _ _ => rfl⟩

instance modifyGet (change : σ → α × σ) :
    Still (modifyGetThe σ change : StateT σ (EStateM Failure τ) α) := ⟨fun _ _ => rfl⟩

instance set (value : σ) : Still (MonadStateOf.set value : StateT σ (EStateM Failure τ) PUnit) :=
  ⟨fun _ _ => rfl⟩

instance reject (cause : Cause) : Still (ShapeFlow.reject cause : StateT σ (EStateM Failure τ) α) :=
  ⟨fun _ _ => rfl⟩

instance broken (reference : Reference) :
    Still (ShapeFlow.broken reference : StateT σ (EStateM Failure τ) α) := ⟨fun _ _ => rfl⟩

instance mapM (step : ι → StateT σ (EStateM Failure τ) α) [hstep : ∀ item, Still (step item)]
    (items : List ι) : Still (items.mapM step) := by
  induction items with
  | nil => exact pure []
  | cons item rest ih =>
    rw [List.mapM_cons]
    infer_instance

instance forM (step : ι → StateT σ (EStateM Failure τ) PUnit)
    [hstep : ∀ item, Still (step item)] (items : List ι) : Still (items.forM step) := by
  induction items with
  | nil => exact pure PUnit.unit
  | cons item rest ih => exact inferInstanceAs (Still (step item >>= fun _ => rest.forM step))

instance ite (condition : Prop) [Decidable condition]
    (first second : StateT σ (EStateM Failure τ) α) [Still first] [Still second] :
    Still (if condition then first else second) := by
  split <;> infer_instance

instance (question : TypeGraph → Frame → Checked α) : Still (inspect question) where
  graph_eq frame graph := by
    unfold inspect
    split <;> rfl

instance (step : TypeGraph → StateT Frame Checked α) : Still (reading step) where
  graph_eq frame graph := by
    unfold reading
    split <;> rfl

end Still

namespace Tidying

variable {step : StateT σ (EStateM Failure τ) α} {next : α → StateT σ (EStateM Failure τ) β}
  {frame : σ} {state : τ}

theorem still [hstill : Still step] : Tidying step frame state := by
  rw [Tidying, hstill.graph_eq]
  exact .refl _

theorem pure (value : α) :
    Tidying (Pure.pure value : StateT σ (EStateM Failure τ) α) frame state := .still

/-- The steps behind a step start from where it has led to. -/
theorem bind (hstep : Tidying step frame state)
    (hnext : ∀ value changed later, step frame state = .ok (value, changed) later →
      Tidying (next value) changed later) : Tidying (step >>= next) frame state := by
  unfold Tidying at hstep ⊢
  rw [endOf_bind]
  cases hresult : step frame state with
  | ok result later =>
    rw [hresult] at hstep
    exact hstep.trans (hnext result.1 result.2 later hresult)
  | error failure later =>
    rw [hresult] at hstep
    exact hstep

theorem after [Still step] (hnext : ∀ value changed later,
    step frame state = .ok (value, changed) later → Tidying (next value) changed later) :
    Tidying (step >>= next) frame state := .bind .still hnext

theorem before [∀ value, Still (next value)] (hstep : Tidying step frame state) :
    Tidying (step >>= next) frame state := hstep.bind fun _ _ _ _ => .still

/-- The rounds of a loop are told what the rounds before them have kept. -/
theorem mapM {body : ι → StateT σ (EStateM Failure τ) α} (items : List ι)
    (invariant : σ → τ → Prop) (hstart : invariant frame state)
    (hbody : ∀ item ∈ items, ∀ frame state, invariant frame state →
      Tidying (body item) frame state ∧ ∀ value changed later,
        body item frame state = .ok (value, changed) later → invariant changed later) :
    Tidying (items.mapM body) frame state := by
  induction items generalizing frame state with
  | nil => exact .pure []
  | cons item rest ih =>
    rw [List.mapM_cons]
    obtain ⟨hfirst, hkept⟩ := hbody item List.mem_cons_self frame state hstart
    refine hfirst.bind fun value changed later hrun => .before ?_
    exact ih (hkept value changed later hrun) fun other hother =>
      hbody other (List.mem_cons_of_mem item hother)

omit [Typed τ] in
theorem invariant_of_mapM {body : ι → StateT σ (EStateM Failure τ) α} {items : List ι}
    {invariant : σ → τ → Prop} (hstart : invariant frame state)
    (hbody : ∀ item ∈ items, ∀ frame state, invariant frame state →
      ∀ value changed later, body item frame state = .ok (value, changed) later →
        invariant changed later) {values : List α} {changed : σ} {later : τ}
    (hrun : items.mapM body frame state = .ok (values, changed) later) :
    invariant changed later := by
  induction items generalizing frame state values with
  | nil =>
    cases hrun
    exact hstart
  | cons item rest ih =>
    rw [List.mapM_cons] at hrun
    obtain ⟨value, middle, between, hfirst, hrest⟩ := exists_of_run_bind hrun
    obtain ⟨_, _, _, hlast, hpure⟩ := exists_of_run_bind hrest
    cases hpure
    exact ih (hbody item List.mem_cons_self frame state hstart value middle between hfirst)
      (fun other hother => hbody other (List.mem_cons_of_mem item hother)) hlast

/-- The steps behind a loop. -/
theorem mapM_bind {body : ι → StateT σ (EStateM Failure τ) α}
    {next : List α → StateT σ (EStateM Failure τ) β} (items : List ι)
    (invariant : σ → τ → Prop) (hstart : invariant frame state)
    (hbody : ∀ item ∈ items, ∀ frame state, invariant frame state →
      Tidying (body item) frame state ∧ ∀ value changed later,
        body item frame state = .ok (value, changed) later → invariant changed later)
    (hnext : ∀ values changed later, invariant changed later →
      Tidying (next values) changed later) :
    Tidying (items.mapM body >>= next) frame state :=
  (mapM items invariant hstart hbody).bind fun values changed later hrun =>
    hnext values changed later (invariant_of_mapM hstart
      (fun item hitem frame state hinvariant => (hbody item hitem frame state hinvariant).2) hrun)

theorem forM {body : ι → StateT σ (EStateM Failure τ) PUnit} (items : List ι)
    (invariant : σ → τ → Prop) (hstart : invariant frame state)
    (hbody : ∀ item ∈ items, ∀ frame state, invariant frame state →
      Tidying (body item) frame state ∧ ∀ value changed later,
        body item frame state = .ok (value, changed) later → invariant changed later) :
    Tidying (items.forM body) frame state := by
  induction items generalizing frame state with
  | nil => exact .pure PUnit.unit
  | cons item rest ih =>
    obtain ⟨hfirst, hkept⟩ := hbody item List.mem_cons_self frame state hstart
    refine hfirst.bind fun value changed later hrun => ?_
    exact ih (hkept value changed later hrun) fun other hother =>
      hbody other (List.mem_cons_of_mem item hother)

/-- A step that carries nothing besides the state. -/
theorem lift {step : EStateM Failure τ α}
    (hstep : (Typed.graph state).Tidies (Typed.graph (endOf (step state)))) :
    Tidying (liftM step : StateT σ (EStateM Failure τ) α) frame state := by
  have hend : endOf ((liftM step : StateT σ (EStateM Failure τ) α) frame state) =
      endOf (step state) := by
    simp only [liftM, monadLift, MonadLift.monadLift, StateT.lift, Bind.bind, EStateM.bind]
    cases step state <;> rfl
  rw [Tidying, hend]
  exact hstep

end Tidying

end Rules

/-! ## Visits of objects -/

namespace Frame

variable {frame : Frame} {start : TypeGraph} {state : VisitState} {opens : AllocId → Prop}
  {declarations : Declarations} {span : Span} {root : AllocId}

/-- Settled types lead to settled types. -/
theorem Visit.settled_of_follow? (hvisit : frame.Visit start opens state) {type last : TypeId}
    (hsettled : state.settled type) {chain : List Selector}
    (hchain : state.graph.follow? type chain = some last) : state.settled last := by
  induction chain generalizing type with
  | nil =>
    rw [TypeGraph.follow?_nil, Option.some.injEq] at hchain
    exact hchain ▸ hsettled
  | cons selector rest ih =>
    rw [TypeGraph.follow?_cons, Option.bind_eq_some_iff] at hchain
    obtain ⟨part, hpart, hrest⟩ := hchain
    exact ih (hvisit.closed type selector part hsettled hpart) hrest

/-- A node that is not settled may be filled: shared types are settled. -/
theorem Visit.fill_tidies (hvisit : frame.Visit start opens state) {type : TypeId}
    (hunsettled : ¬ state.settled type) {fields : Fields} (hparts : state.graph.HasParts fields) :
    state.graph.Tidies (state.graph.fill type fields) :=
  TypeGraph.fill_tidies hvisit.wellFormed hparts
    (fun className hbare => hunsettled (hvisit.bare className type hbare))
    fun entry hmem _ hchain =>
      hunsettled (hvisit.settled_of_follow? (hvisit.interned entry hmem) hchain)

section Parts

variable {visit : AllocId → StateT Reified Building TypeId} {id : AllocId} {object : Allocation}

/-- The visits of the parts of an object keep the graph tidy. -/
def TidyParts (frame : Frame) (start : TypeGraph) (opens : AllocId → Prop)
    (visit : AllocId → StateT Reified Building TypeId) (object : Allocation) : Prop :=
  ∀ selector child, object.fields.get? selector = some (.fresh child) →
    ∀ state, frame.Visit start opens state → Tidying (visit child) state.reified state.graph

theorem heldTypes_tidying (hwell : start.WellFormed) (htypes : frame.HasTypes start)
    (hobject : frame.localObject? (.fresh id) = some object)
    (hparts : frame.VisitsParts start root opens visit object)
    (htidy : frame.TidyParts start opens visit object)
    (hvisit : frame.Visit start opens state) :
    Tidying (frame.heldTypes declarations span visit object.fields) state.reified state.graph := by
  unfold heldTypes
  refine .before (.mapM object.fields.entries
    (fun reified graph => ∃ settled, frame.Visit start opens ⟨settled, reified, graph⟩)
    ⟨state.settled, hvisit⟩ fun entry hentry reified graph hinvariant => ?_)
  obtain ⟨selector, operand⟩ := entry
  obtain ⟨settled, hvisit⟩ := hinvariant
  have hoperand := (object.fields.get?_eq_some_iff selector operand).mpr hentry
  refine ⟨.before ?_, fun value changed later hrun => ?_⟩
  · cases operand with
    | type type => exact .pure type
    | path place => exact .after fun graph _ _ _ => .still
    | fresh child => exact htidy selector child hoperand _ hvisit
  · obtain ⟨type, _, _, hheld, hpure⟩ := exists_of_run_bind hrun
    cases hpure
    obtain ⟨-, settled', hcontinues, -⟩ :=
      (heldType_visits hwell htypes hobject hparts hvisit hoperand).of_eq_ok hheld
    exact ⟨settled', hcontinues.visit⟩

/-- The visit of an object on a circle.  The reserved node is not settled until it is filled. -/
theorem circle_tidying (hwell : start.WellFormed) (htypes : frame.HasTypes start)
    (hobject : frame.localObject? (.fresh id) = some object)
    (hparts : frame.VisitsParts start root (fun other => opens other ∨ other = id) visit object)
    (htidy : frame.TidyParts start (fun other => opens other ∨ other = id) visit object)
    (hvisit : frame.Visit start opens state) (hnew : state.reified.get? id = none) :
    Tidying (do
      let type ← modifyGetThe TypeGraph (TypeGraph.reserve object.className)
      modifyThe Reified fun reified => reified.insert id type
      let fields ← frame.heldTypes declarations span visit object.fields
      modifyThe TypeGraph (TypeGraph.fill type fields)
      pure type : StateT Reified Building TypeId) state.reified state.graph := by
  obtain ⟨hreserved, hwithin⟩ := hvisit.reserve hobject hnew
  have hadded := TypeGraph.reserve_tidies hvisit.wellFormed object.className
  refine .bind hadded fun type reified graph hrun => ?_
  cases hrun
  refine .after fun _ reified graph hrun => ?_
  cases hrun
  refine .bind (heldTypes_tidying hwell htypes hobject hparts htidy hreserved)
    fun fields reified grown hrun => .before ?_
  obtain ⟨-, settled, hcontinues, hfields⟩ :=
    (heldTypes_visits hwell htypes hobject hparts hreserved).of_eq_ok hrun
  obtain ⟨type, htype, hunsettled, -⟩ := hcontinues.visit.opened id (Or.inr rfl)
  have hreified : reified.get? id = some (state.graph.reserve object.className).1 :=
    hcontinues.within.reified id _ (by rw [OrderedMap.get?_insert, if_pos rfl])
  obtain rfl := Option.some.inj (hreified.symm.trans htype)
  exact hcontinues.visit.fill_tidies hunsettled (hcontinues.visit.hasParts hfields)

/-- The visit of an object on no circle. -/
theorem shared_tidying (hwell : start.WellFormed) (htypes : frame.HasTypes start)
    (hobject : frame.localObject? (.fresh id) = some object)
    (hparts : frame.VisitsParts start root opens visit object)
    (htidy : frame.TidyParts start opens visit object) (hvisit : frame.Visit start opens state) :
    Tidying (do
      let fields ← frame.heldTypes declarations span visit object.fields
      let type ← modifyGetThe TypeGraph (TypeGraph.intern object.className fields)
      modifyThe Reified fun reified => reified.insert id type
      pure type : StateT Reified Building TypeId) state.reified state.graph := by
  refine .bind (heldTypes_tidying hwell htypes hobject hparts htidy hvisit)
    fun fields reified grown hrun => ?_
  obtain ⟨-, settled, hcontinues, hfields⟩ :=
    (heldTypes_visits hwell htypes hobject hparts hvisit).of_eq_ok hrun
  have hintern := TypeGraph.intern_tidies hcontinues.visit.wellFormed object.className
    (hcontinues.visit.hasParts hfields)
  exact .before hintern

end Parts

/-- The visit of an object keeps the graph tidy. -/
theorem reifyWithin_tidying (hwell : start.WellFormed) (htypes : frame.HasTypes start)
    (room : Nat) (around : List AllocId) (id : AllocId)
    (hroom : frame.allocations.size ≤ room + around.length)
    (hmet : frame.Met start root around id)
    (hvisit : frame.Visit start (frame.opensIn around) state) :
    Tidying (frame.reifyWithin declarations span room around id) state.reified state.graph := by
  induction room using Nat.strongRecOn generalizing around id state with
  | ind room ih =>
    unfold reifyWithin
    refine .after fun reified _ _ hrun => ?_
    cases hrun
    cases hknown : state.reified.get? id with
    | some type => exact .pure type
    | none =>
      refine .after fun object _ _ hrun => ?_
      obtain ⟨rfl, rfl, hat⟩ := (Discipline.Ends.checked hvisit.wellFormed
        (allocation_visits hmet.stands)).of_eq_ok hrun |>.2
      cases hhome : object.home? with
      | some home => exact .after fun _ _ _ _ => .still
      | none =>
        have hobject : frame.localObject? (.fresh id) = some object :=
          localObject?_fresh_iff.mpr ⟨hat, hhome⟩
        have hnew := hmet.not_mem hvisit hobject hknown
        have hlength := hmet.length_lt hnew hobject
        dsimp only
        split
        · exact TypeGraph.plainObject_tidies hvisit.wellFormed object.className
        · cases room with
          | zero => omega
          | succ room =>
            have hsmaller : frame.allocations.size ≤ room + (id :: around).length := by
              rw [List.length_cons]
              omega
            have hparts : ∀ opens, frame.opensIn (id :: around) = opens →
                frame.VisitsParts start root opens
                  (frame.reifyWithin declarations span room (id :: around)) object := by
              intro opens heq
              subst heq
              refine ⟨fun hnavigable selector operand hoperand => ?_,
                fun selector child hchild state hvisit => ?_⟩
              · exact hnavigable.parts id object selector operand
                  (hmet.leads (isLocal_iff.mpr ⟨object, hobject⟩)) hobject hoperand
              · exact reifyWithin_visits hwell htypes room (id :: around) child hsmaller
                  (hmet.part hnew hobject hchild) hvisit
            have htidy : ∀ opens, frame.opensIn (id :: around) = opens →
                frame.TidyParts start opens
                  (frame.reifyWithin declarations span room (id :: around)) object := by
              intro opens heq selector child hchild state hvisit
              subst heq
              exact ih room (Nat.lt_succ_self room) (id :: around) child hsmaller
                (hmet.part hnew hobject hchild) hvisit
            have hopens := opensIn_cons frame around id
            dsimp only
            rw [if_neg (by simpa using hnew)]
            split
            · rename_i hcircle
              simp only [hcircle, and_true] at hopens
              exact circle_tidying hwell htypes hobject (hparts _ hopens) (htidy _ hopens) hvisit
                hknown
            · rename_i hcircle
              simp only [hcircle, Bool.false_eq_true, and_false, or_false] at hopens
              exact shared_tidying hwell htypes hobject (hparts _ hopens) (htidy _ hopens) hvisit

theorem reify_tidies {graph : TypeGraph} (hwell : graph.WellFormed) (htypes : frame.HasTypes graph)
    (id : AllocId) : graph.Tidies (endOf (frame.reify declarations span id graph)) := by
  have hinitial : frame.Visit graph (frame.opensIn []) ⟨graph.Has, ∅, graph⟩ := by
    rw [opensIn_nil]
    exact .initial hwell
  have hend : endOf (frame.reify declarations span id graph) =
      endOf (frame.reifyWithin declarations span frame.allocations.size [] id ∅ graph) := by
    simp only [reify, StateT.run', Functor.map, EStateM.map]
    cases frame.reifyWithin declarations span frame.allocations.size [] id ∅ graph <;> rfl
  rw [hend]
  exact reifyWithin_tidying hwell htypes frame.allocations.size [] id (Nat.le_add_right _ _)
    (.initial frame graph id) hinitial

theorem typeOf_tidies {graph : TypeGraph} (hwell : graph.WellFormed)
    (htypes : frame.HasTypes graph) (operand : Operand) :
    graph.Tidies (endOf (frame.typeOf declarations span operand graph)) := by
  unfold typeOf
  cases hresolve : frame.resolve operand with
  | error failure => exact .refl graph
  | ok resolved =>
    cases resolved with
    | type type => exact .refl graph
    | path place =>
      change graph.Tidies (endOf (Checked.keep (frame.placeType declarations graph span place)
        graph))
      cases frame.placeType declarations graph span place <;> exact .refl graph
    | fresh id => exact reify_tidies hwell htypes id

end Frame

end ShapeFlow
