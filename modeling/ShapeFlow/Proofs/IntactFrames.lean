import ShapeFlow.Proofs.Shapes

/-!
# Intact frames

A frame is intact if every object that it names is there, and all objects have admitted classes and
parts (`Frame.Intact`).  In an intact frame no reference leads nowhere: the root of a place is a
slot, as the place is rooted in an argument; types lead to types; objects are there.  So a step
fails only by rejecting the program (`Failure.Rejects`).

The type of an allocated object is read off in a walk through the objects that it holds.  An object
that is met again inside itself is on a circle, and its type is known by then; so the objects
around an object are distinct, and there is room for one more (`Frame.reify_unbroken`).
-/

namespace ShapeFlow

variable {shapes : Shapes} {declarations : Declarations} {span : Span} {arguments : List TypeId}
  {start graph grown : TypeGraph} {frame later : Frame} {operand : Operand}

/-- The program is rejected. -/
def Failure.Rejects : Failure → Prop
  | .rejected _ => True
  | .broken _ => False

/-- A step that only reads answers as told, or rejects the program. -/
abbrev Checked.Unbroken {α : Type} (step : Checked α) (post : α → Prop) : Prop :=
  Checked.Safe Failure.Rejects step post

/-- What a step is known to answer is answered by a step that does not fail otherwise. -/
theorem Checked.Safe.and_of {α : Type} {excused : Failure → Prop} {step : Checked α}
    {first second : α → Prop} (hfirst : Checked.Safe excused step first)
    (hsecond : Checked.Unbroken step second) :
    Checked.Unbroken step fun value => first value ∧ second value := by
  cases step with
  | ok value => exact ⟨hfirst, hsecond⟩
  | error failure => exact hsecond

/-- What a step answers is its answer. -/
theorem Checked.Safe.told {α : Type} {excused : Failure → Prop} {step : Checked α}
    {post : α → Prop} (hstep : Checked.Safe excused step post) :
    Checked.Safe excused step fun value => step = .ok value ∧ post value := by
  cases step with
  | ok value => exact ⟨rfl, hstep⟩
  | error failure => exact hstep

theorem Discipline.Ends.told {τ α : Type} {discipline : Discipline τ} {state : τ}
    {outcome : EStateM.Result Failure τ α} {post : α → τ → Prop}
    (hends : discipline.Ends state outcome post) :
    discipline.Ends state outcome fun value final => outcome = .ok value final ∧
      discipline.Grows state final ∧ post value final := by
  cases outcome with
  | ok value final => exact ⟨hends.1, rfl, hends⟩
  | error failure final => exact hends

/-- The object that the operand names is there. -/
def Operand.ExistsIn (frame : Frame) (operand : Operand) : Prop :=
  ∀ id, operand = .fresh id → ∃ object, frame.allocations[id.index]? = some object

/-- The class and the parts of the object are admitted, and what it holds is there. -/
structure Allocation.Intact (shapes : Shapes) (frame : Frame) (object : Allocation) : Prop where
  admitted : shapes.Class object.className
  parts : ∀ selector operand, object.fields.get? selector = some operand →
    shapes.Part object.className selector ∧ operand.ExistsIn frame

/-- What the frame names is there, and the objects of the frame are as admitted. -/
structure Frame.Intact (shapes : Shapes) (graph : TypeGraph) (frame : Frame) : Prop where
  locals : ∀ name operand, frame.locals.get? name = some operand → operand.ExistsIn frame
  objects : ∀ (id : Nat) (object : Allocation), frame.allocations[id]? = some object →
    object.Intact shapes frame
  calls : ∀ call ∈ frame.calls, ∀ type ∈ call.signature.arguments, graph.Has type

/-! ## Changes of a frame -/

theorem Operand.existsIn_type (frame : Frame) (type : TypeId) :
    (Operand.type type).ExistsIn frame := fun _ heq => nomatch heq

theorem Operand.existsIn_path (frame : Frame) (place : AccessPath) :
    (Operand.path place).ExistsIn frame := fun _ heq => nomatch heq

theorem Operand.existsIn_fresh {id : AllocId} {object : Allocation}
    (hobject : frame.allocations[id.index]? = some object) :
    (Operand.fresh id).ExistsIn frame := by
  intro other heq
  cases heq
  exact ⟨object, hobject⟩

theorem Operand.ExistsIn.kept (hexists : operand.ExistsIn frame)
    (hkeeps : frame.KeepsObjects later) : operand.ExistsIn later := by
  intro id heq
  obtain ⟨object, hobject⟩ := hexists id heq
  obtain ⟨after, hafter, -⟩ := hkeeps id.index object hobject
  exact ⟨after, hafter⟩

theorem Allocation.Intact.kept {object : Allocation} (hintact : object.Intact shapes frame)
    (hkeeps : frame.KeepsObjects later) : object.Intact shapes later where
  admitted := hintact.admitted
  parts selector operand hpart :=
    ⟨(hintact.parts selector operand hpart).1, (hintact.parts selector operand hpart).2.kept hkeeps⟩

namespace Frame

/-- A new frame names nothing. -/
theorem intact_start (shapes : Shapes) (graph : TypeGraph) (slots : List TypeId) :
    ({ slots } : Frame).Intact shapes graph where
  locals _ _ hlocal := nomatch hlocal
  objects _ _ hobject := nomatch hobject
  calls := nofun

namespace Intact

/-- Nothing happens to the objects. -/
theorem of_allocations_eq (hintact : frame.Intact shapes graph)
    (hsame : later.allocations = frame.allocations)
    (hlocals : ∀ name operand, later.locals.get? name = some operand → operand.ExistsIn frame)
    (hcalls : ∀ call ∈ later.calls, ∀ type ∈ call.signature.arguments, graph.Has type) :
    later.Intact shapes graph := by
  have hkeeps : frame.KeepsObjects later :=
    fun id object hobject => ⟨object, by rw [hsame, hobject], rfl⟩
  exact ⟨fun name operand hlocal => (hlocals name operand hlocal).kept hkeeps,
    fun id object hobject => (hintact.objects id object (hsame ▸ hobject)).kept hkeeps, hcalls⟩

theorem mono (hintact : frame.Intact shapes graph) (hgrows : graph.Grows grown) :
    frame.Intact shapes grown :=
  { hintact with calls := fun call hmem type htype => hgrows.has (hintact.calls call hmem type htype) }

theorem setLocal (hintact : frame.Intact shapes graph) (name : String)
    (hoperand : operand.ExistsIn frame) : (frame.setLocal name operand).Intact shapes graph := by
  refine hintact.of_allocations_eq rfl (fun other held hheld => ?_) hintact.calls
  rw [Frame.setLocal, OrderedMap.get?_insert] at hheld
  split at hheld
  · exact Option.some.inj hheld ▸ hoperand
  · exact hintact.locals other held hheld

theorem record (hintact : frame.Intact shapes graph) (target : AccessPath) (value : Value) :
    (frame.record target value).Intact shapes graph :=
  hintact.of_allocations_eq rfl hintact.locals hintact.calls

theorem recordCall (hintact : frame.Intact shapes graph) {call : CallRecord}
    (htypes : ∀ type ∈ call.signature.arguments, graph.Has type) :
    (frame.recordCall call).Intact shapes graph := by
  refine hintact.of_allocations_eq rfl hintact.locals fun other hmem => ?_
  rcases List.mem_append.mp hmem with hmem | hmem
  · exact hintact.calls other hmem
  · exact List.mem_singleton.mp hmem ▸ htypes

theorem allocate (hintact : frame.Intact shapes graph) {object : Allocation}
    (hobject : object.Intact shapes frame) (hnone : object.home? = none) :
    (frame.allocate object).2.Intact shapes graph := by
  have hkeeps := (Quiet.allocate frame hnone).objects
  refine ⟨fun name operand hlocal => (hintact.locals name operand hlocal).kept hkeeps,
    fun id held hheld => ?_, hintact.calls⟩
  rw [Frame.allocate, Array.getElem?_push] at hheld
  split at hheld
  · exact Option.some.inj hheld ▸ hobject.kept hkeeps
  · exact (hintact.objects id held hheld).kept hkeeps

/-- An object is changed that keeps its class. -/
theorem update (hintact : frame.Intact shapes graph) (id : AllocId)
    {change : Allocation → Allocation}
    (hchange : ∀ object, frame.allocations[id.index]? = some object →
      (change object).className = object.className ∧ (change object).Intact shapes frame) :
    (frame.update id change).Intact shapes graph := by
  have hkeeps : frame.KeepsObjects (frame.update id change) := by
    intro other object hobject
    rw [Frame.update, Array.getElem?_modify]
    split
    · rename_i heq
      subst heq
      exact ⟨change object, by rw [hobject]; rfl, (hchange object hobject).1⟩
    · exact ⟨object, hobject, rfl⟩
  refine ⟨fun name operand hlocal => (hintact.locals name operand hlocal).kept hkeeps,
    fun other object hobject => ?_, hintact.calls⟩
  rw [Frame.update, Array.getElem?_modify] at hobject
  split at hobject
  · rename_i heq
    subst heq
    obtain ⟨before, hbefore, rfl⟩ := Option.map_eq_some_iff.mp hobject
    exact (hchange before hbefore).2.kept hkeeps
  · exact (hintact.objects other object hobject).kept hkeeps

end Intact

end Frame

/-! ## Look-ups -/

theorem TypeGraph.node_unbroken {type : TypeId} (hhas : graph.Has type) :
    Checked.Unbroken (graph.node type) fun node => graph.node? type = some node := by
  obtain ⟨node, hnode⟩ := (TypeGraph.has_iff_exists_node graph type).mp hhas
  rw [TypeGraph.node, hnode]
  exact rfl

/-- A part of a type that was there from the start was there as well. -/
theorem TypeGraph.partType_unbroken (hclosed : start.Closed) (hgrows : start.Grows graph)
    {type : TypeId} (hhas : start.Has type) (selector : Selector) :
    Checked.Unbroken (graph.partType declarations span type selector) start.Has := by
  refine (TypeGraph.node_unbroken (hgrows.has hhas)).bind fun node hnode => ?_
  rw [hgrows.node?_eq type hhas] at hnode
  cases node with
  | scalar => exact trivial
  | object className fields =>
    dsimp only
    split
    · rename_i part hpart
      exact hclosed hnode hpart
    · exact trivial

namespace Frame

theorem slotType_unbroken (hsound : frame.Sound graph arguments) {slot : Nat} (hpositive : 0 < slot)
    (hslot : slot ≤ arguments.length) : Checked.Unbroken (frame.slotType slot) graph.Has := by
  cases slot with
  | zero => exact absurd hpositive (Nat.lt_irrefl 0)
  | succ slot =>
    have hlt : slot < frame.slots.length := by
      rw [hsound.length_slots]
      omega
    rw [Frame.slotType, List.getElem?_eq_getElem hlt]
    exact (hsound.slots slot _ (List.getElem?_eq_getElem hlt)).1

/-- The type of a place is found unless the program is rejected. -/
theorem placeType_unbroken (hsound : frame.Sound start arguments) (hgrows : start.Grows graph)
    {place : AccessPath} (hplace : place.RootedIn start arguments) :
    Checked.Unbroken (frame.placeType declarations graph span place) start.Has := by
  obtain ⟨slot, type, -, hroot, hslot, -⟩ := hplace
  obtain ⟨hlt, -⟩ := List.getElem?_eq_some_iff.mp hslot
  unfold placeType
  rw [hroot]
  refine (slotType_unbroken hsound (Nat.succ_pos slot) hlt).bind fun type hhas => ?_
  exact Checked.Safe.foldlM place.selectors start.Has hhas fun selector _ type hhas =>
    TypeGraph.partType_unbroken hsound.wellFormed.closed hgrows hhas selector

theorem allocation_unbroken {id : AllocId} (hexists : (Operand.fresh id).ExistsIn frame) :
    Checked.Unbroken (frame.allocation id) fun object =>
      frame.allocations[id.index]? = some object := by
  obtain ⟨object, hobject⟩ := hexists id rfl
  rw [allocation, hobject]
  exact rfl

theorem resolve_unbroken (hexists : operand.ExistsIn frame) :
    Checked.Unbroken (frame.resolve operand) (Operand.ExistsIn frame) := by
  cases operand with
  | type type => exact Operand.existsIn_type frame type
  | path place => exact Operand.existsIn_path frame place
  | fresh id =>
    refine (allocation_unbroken hexists).bind fun object hobject => ?_
    cases object.home? with
    | some home => exact Operand.existsIn_path frame home
    | none => exact hexists

/-- An operand that is rooted and there is so too where it stands. -/
theorem resolved_unbroken (hsound : frame.Sound graph arguments)
    (hrooted : operand.RootedIn graph arguments) (hexists : operand.ExistsIn frame) :
    Checked.Unbroken (frame.resolve operand) fun resolved =>
      resolved.RootedIn graph arguments ∧ resolved.ExistsIn frame :=
  (hsound.resolve hrooted).and_of (resolve_unbroken hexists)

theorem classOf?_unbroken (hsound : frame.Sound graph arguments)
    (hrooted : operand.RootedIn graph arguments) (hexists : operand.ExistsIn frame) :
    Checked.Unbroken (frame.classOf? declarations graph span operand) fun _ => True := by
  cases operand with
  | type type => exact (TypeGraph.node_unbroken hrooted).bind fun _ _ => trivial
  | path place =>
    exact (placeType_unbroken hsound (.refl graph) hrooted).bind fun type hhas =>
      (TypeGraph.node_unbroken hhas).bind fun _ _ => trivial
  | fresh id => exact (allocation_unbroken hexists).bind fun _ _ => trivial

theorem slotOperand_unbroken (hsound : frame.Sound graph arguments) {slot : Nat}
    (hpositive : 0 < slot) (hslot : slot ≤ arguments.length) :
    Checked.Unbroken (frame.slotOperand graph slot) (Operand.ExistsIn frame) := by
  refine (slotType_unbroken hsound hpositive hslot).bind fun type hhas => ?_
  refine (TypeGraph.node_unbroken hhas).bind fun node _ => ?_
  cases node with
  | scalar => exact Operand.existsIn_type frame type
  | object className fields => exact Operand.existsIn_path frame ⟨slot, []⟩

/-! ## Reading parts -/

/-- A step that reads the types leads to an intact frame and answers an operand that is there. -/
abbrev ReadsIntact (shapes : Shapes) (graph : TypeGraph) (outcome : Checked (Operand × Frame)) :
    Prop :=
  Checked.Unbroken outcome fun result =>
    result.2.Intact shapes graph ∧ result.1.ExistsIn result.2

theorem expand?_unbroken (hintact : frame.Intact shapes graph) (hconforms : graph.Conforms shapes)
    {type : TypeId} (hhas : graph.Has type) :
    Checked.Unbroken (expand? graph type frame) fun result => result.2.Intact shapes graph ∧
      frame.KeepsObjects result.2 ∧ ∀ id, result.1 = some id → (Operand.fresh id).ExistsIn result.2 := by
  unfold expand?
  refine (TypeGraph.node_unbroken hhas).lift_bind fun node hnode => ?_
  cases node with
  | scalar => exact ⟨hintact, fun _ object hobject => ⟨object, hobject, rfl⟩, nofun⟩
  | object className fields =>
    have hobject : Allocation.Intact shapes frame
        { className, fields := fields.mapValues .type } := by
      refine ⟨hconforms.classes type className fields hnode, fun selector operand hpart => ?_⟩
      rw [OrderedMap.get?_mapValues, Option.map_eq_some_iff] at hpart
      obtain ⟨part, hpart, rfl⟩ := hpart
      exact ⟨hconforms.parts type className fields selector part hnode hpart,
        Operand.existsIn_type frame part⟩
    refine ⟨hintact.allocate hobject rfl, (Quiet.allocate frame rfl).objects, fun id hid => ?_⟩
    obtain rfl := Option.some.inj hid
    exact Operand.existsIn_fresh Array.getElem?_push_size

/-- A part that the class of the object may have is bound. -/
theorem setPart_unbroken (hintact : frame.Intact shapes graph) {id : AllocId} {object : Allocation}
    (hobject : frame.allocations[id.index]? = some object) {selector : Selector}
    (hpart : shapes.Part object.className selector) (hoperand : operand.ExistsIn frame) :
    Checked.Unbroken (setPart id selector operand frame) fun result =>
      result.2.Intact shapes graph ∧ frame.KeepsObjects result.2 := by
  unfold setPart
  refine Checked.Safe.get_bind ?_
  refine (allocation_unbroken (Operand.existsIn_fresh hobject)).lift_bind fun _ _ => ?_
  have hquiet : frame.Quiet (frame.update id fun object =>
      { object with fields := object.fields.insert selector operand }) :=
    .update frame id (fun _ => rfl) fun _ _ hhome => hhome
  refine ⟨hintact.update id fun held hheld => ⟨rfl, ?_⟩, hquiet.objects⟩
  obtain rfl := Option.some.inj (hobject.symm.trans hheld)
  have hbefore := hintact.objects id.index object hobject
  refine ⟨hbefore.admitted, fun other held hheld => ?_⟩
  rw [OrderedMap.get?_insert] at hheld
  split at hheld
  · rename_i heq
    subst heq
    exact ⟨hpart, Option.some.inj hheld ▸ hoperand⟩
  · exact hbefore.parts other held hheld

theorem read_unbroken (hsound : frame.Sound graph arguments) (hintact : frame.Intact shapes graph)
    (hconforms : graph.Conforms shapes) {base : Operand} (hrooted : base.RootedIn graph arguments)
    (hexists : base.ExistsIn frame) (selector : Selector) :
    ReadsIntact shapes graph (read declarations span graph base selector frame) := by
  have hclosed := hsound.wellFormed.closed
  unfold read
  refine Checked.Safe.get_bind ?_
  refine (resolved_unbroken hsound hrooted hexists).lift_bind fun base hbase => ?_
  obtain ⟨hrooted, hexists⟩ := hbase
  cases base with
  | path place =>
    refine (placeType_unbroken hsound (.refl graph) hrooted).lift_bind fun object hobject => ?_
    refine (TypeGraph.partType_unbroken hclosed (.refl graph) hobject selector).lift_bind
      fun part hpart => ?_
    refine (TypeGraph.node_unbroken hpart).lift_bind fun node _ => ?_
    cases node with
    | scalar => exact ⟨hintact, Operand.existsIn_type frame part⟩
    | object className fields => exact ⟨hintact, Operand.existsIn_path frame _⟩
  | type object =>
    refine (TypeGraph.partType_unbroken hclosed (.refl graph) hrooted selector).lift_bind
      fun part _ => ?_
    exact ⟨hintact, Operand.existsIn_type frame part⟩
  | fresh id =>
    refine (allocation_unbroken hexists).lift_bind fun object hobject => ?_
    cases hpart : object.fields.get? selector with
    | none => exact trivial
    | some operand =>
      obtain ⟨hadmitted, hthere⟩ := (hintact.objects id.index object hobject).parts selector operand
        hpart
      have hheld := (hsound.objects id.index object hobject).parts selector operand hpart
      cases operand with
      | type part =>
        refine (expand?_unbroken hintact hconforms hheld).run_bind fun child? later hpost => ?_
        obtain ⟨hlater, hkeeps, hchild⟩ := hpost
        cases child? with
        | none => exact ⟨hlater, Operand.existsIn_type later part⟩
        | some child =>
          obtain ⟨after, hafter, hclass⟩ := hkeeps id.index object hobject
          refine (setPart_unbroken hlater hafter (hclass ▸ hadmitted) (hchild child rfl)).run_bind
            fun _ last hpost => ?_
          exact ⟨hpost.1, (hchild child rfl).kept hpost.2⟩
      | path place => exact ⟨hintact, Operand.existsIn_path frame place⟩
      | fresh child =>
        refine (resolve_unbroken hthere).lift.mono fun result hpost => ?_
        obtain ⟨operand, later⟩ := result
        obtain ⟨rfl, hoperand⟩ := hpost
        exact ⟨hintact, hoperand⟩

end Frame

/-! ## The types of allocated objects -/

/-- Graphs grow and conform to the shapes, and a step fails only by rejecting the program. -/
def conforming (shapes : Shapes) : Discipline TypeGraph where
  Grows := TypeGraph.Grows
  Calm := TypeGraph.Conforms shapes
  Excused := Failure.Rejects
  refl := TypeGraph.Grows.refl
  trans := TypeGraph.Grows.trans

namespace Frame

/-- A walk inside the objects of `around` goes on: those of them that are on circles have got their
types. -/
structure Walks (shapes : Shapes) (frame : Frame) (start : TypeGraph) (around : List AllocId)
    (reified : Reified) (graph : TypeGraph) : Prop where
  grows : start.Grows graph
  conforms : graph.Conforms shapes
  known : ∀ other ∈ around, frame.isOnCircle other = true → (reified.get? other).isSome = true

section Walks

variable {around : List AllocId} {reified : Reified}
  {visit : AllocId → StateT Reified Building TypeId} {id : AllocId} {object : Allocation}

theorem Walks.insert (hwalks : frame.Walks shapes start around reified graph) (id : AllocId)
    (type : TypeId) : frame.Walks shapes start around (reified.insert id type) graph :=
  { hwalks with
    known := by
      intro other hmem hcircle
      rw [OrderedMap.get?_insert]
      split
      · rfl
      · exact hwalks.known other hmem hcircle }

/-- The visits of the parts of an object go on with the walk. -/
def WalksOn (shapes : Shapes) (frame : Frame) (start : TypeGraph) (around : List AllocId)
    (visit : AllocId → StateT Reified Building TypeId) (object : Allocation) : Prop :=
  ∀ selector child, object.fields.get? selector = some (.fresh child) →
    ∀ reified graph, frame.Walks shapes start around reified graph →
      (conforming shapes).Ends graph (visit child reified graph) fun result grown =>
        frame.Walks shapes start around result.2 grown

theorem heldType_walks (hsound : frame.Sound start arguments)
    (hobject : object.RootedIn start arguments)
    (hvisit : frame.WalksOn shapes start around visit object)
    (hwalks : frame.Walks shapes start around reified graph) {selector : Selector}
    (hoperand : object.fields.get? selector = some operand) :
    (conforming shapes).Ends graph (frame.heldType declarations span visit operand reified graph)
      fun result grown => frame.Walks shapes start around result.2 grown := by
  cases operand with
  | type type => exact .run_pure hwalks
  | path place =>
    refine .getBase_bind (Discipline.Ends.mono (Discipline.Ends.checked hwalks.conforms
      (placeType_unbroken hsound hwalks.grows (hobject.parts selector _ hoperand))) ?_)
    intro result grown _ hpost
    obtain ⟨rfl, rfl, -⟩ := hpost
    exact hwalks
  | fresh child => exact hvisit selector child hoperand reified graph hwalks

/-- The parts of an object get types, and no other parts do. -/
theorem heldTypes_walks (hsound : frame.Sound start arguments)
    (hobject : object.RootedIn start arguments)
    (hvisit : frame.WalksOn shapes start around visit object)
    (hwalks : frame.Walks shapes start around reified graph) :
    (conforming shapes).Ends graph
      (frame.heldTypes declarations span visit object.fields reified graph)
      fun result grown => frame.Walks shapes start around result.2 grown ∧
        ∀ selector part, result.1.get? selector = some part →
          ∃ operand, object.fields.get? selector = some operand := by
  unfold heldTypes
  refine (Discipline.Ends.mapM object.fields.entries
    (fun reified graph => frame.Walks shapes start around reified graph)
    (fun (entry : Selector × Operand) (image : Selector × TypeId) _ => image.1 = entry.1 ∧ True)
    hwalks (fun _ _ _ _ _ hkey => hkey)
    fun entry hentry reified graph hwalks => ?_).run_bind ?_
  · refine (heldType_walks hsound hobject hvisit hwalks
      ((object.fields.get?_eq_some_iff entry.1 entry.2).mpr hentry)).run_bind ?_
    intro type reified grown _ hwalks'
    exact .run_pure ⟨hwalks', rfl, trivial⟩
  · intro images reified grown _ hpost
    obtain ⟨hwalks', himages⟩ := hpost
    refine .run_pure ⟨hwalks', fun selector part hpart => ?_⟩
    obtain ⟨operand, hoperand, -⟩ :=
      OrderedMap.exists_of_get?_images (fun _ _ => True) object.fields himages hpart
    exact ⟨operand, hoperand⟩

/-- The visit of an object on a circle, whose node is filled in the end. -/
theorem circle_walks (hsound : frame.Sound start arguments)
    (hobject : object.RootedIn start arguments) (hintact : object.Intact shapes frame)
    (hvisit : frame.WalksOn shapes start (id :: around) visit object)
    (hwalks : frame.Walks shapes start around reified graph)
    [∀ child, RunDrifts (visit child)] :
    (conforming shapes).Ends graph
      ((do
        let type ← modifyGetThe TypeGraph (TypeGraph.reserve object.className)
        modifyThe Reified fun reified => reified.insert id type
        let fields ← frame.heldTypes declarations span visit object.fields
        modifyThe TypeGraph (TypeGraph.fill type fields)
        pure type : StateT Reified Building TypeId) reified graph)
      fun result grown => frame.Walks shapes start around result.2 grown := by
  have hreserved : graph.Grows (graph.reserve object.className).2 := .push graph _
  have hnew := TypeGraph.not_has_push_fst graph (.object object.className ∅)
  have hinside : frame.Walks shapes start (id :: around)
      (reified.insert id (graph.reserve object.className).1)
      (graph.reserve object.className).2 := by
    refine ⟨hwalks.grows.trans hreserved, hwalks.conforms.reserve hintact.admitted,
      fun other hmem hcircle => ?_⟩
    rw [OrderedMap.get?_insert]
    split
    · rfl
    · rename_i hne
      exact hwalks.known other ((List.mem_cons.mp hmem).resolve_left hne) hcircle
  refine .modifyGetBase_bind (.modify_bind (.run_bind_from hreserved
    (heldTypes_walks hsound hobject hvisit hinside) ?_))
  intro fields reified' grown hgrown hpost
  obtain ⟨hwalks', hkeys⟩ := hpost
  have hclass : grown.className? (graph.reserve object.className).1 = some object.className :=
    TypeGraph.className?_eq_some_iff.mpr
      ⟨∅, hgrown.node? (TypeGraph.node?_push_self graph (.object object.className ∅))⟩
  have hfilled := (hreserved.trans hgrown).fill hnew fields
  refine .modifyBase_bind ⟨hfilled, hwalks.grows.trans hfilled, ?_,
    fun other hmem => hwalks'.known other (List.mem_cons_of_mem id hmem)⟩
  refine hwalks'.conforms.fill hclass fun selector part hpart => ?_
  obtain ⟨operand, hoperand⟩ := hkeys selector part hpart
  exact (hintact.parts selector operand hoperand).1

/-- The visit of an object on no circle, whose type is shared. -/
theorem shared_walks (hsound : frame.Sound start arguments)
    (hobject : object.RootedIn start arguments) (hintact : object.Intact shapes frame)
    (hvisit : frame.WalksOn shapes start (id :: around) visit object)
    (hwalks : frame.Walks shapes start around reified graph)
    (hcircle : ¬ frame.isOnCircle id = true) :
    (conforming shapes).Ends graph
      ((do
        let fields ← frame.heldTypes declarations span visit object.fields
        let type ← modifyGetThe TypeGraph (TypeGraph.intern object.className fields)
        modifyThe Reified fun reified => reified.insert id type
        pure type : StateT Reified Building TypeId) reified graph)
      fun result grown => frame.Walks shapes start around result.2 grown := by
  have hinside : frame.Walks shapes start (id :: around) reified graph :=
    { hwalks with
      known := by
        intro other hmem hon
        rcases List.mem_cons.mp hmem with rfl | hmem
        · exact absurd hon hcircle
        · exact hwalks.known other hmem hon }
  refine (heldTypes_walks hsound hobject hvisit hinside).run_bind ?_
  intro fields reified' grown _ hpost
  obtain ⟨hwalks', hkeys⟩ := hpost
  have hgrows := TypeGraph.Grows.intern grown object.className fields
  refine .modifyGetBase_bind (.from_grown hgrows (.modify_bind (.run_pure (.insert ?_ id _))))
  refine ⟨hwalks'.grows.trans hgrows, hwalks'.conforms.intern hintact.admitted
    fun selector part hpart => ?_,
    fun other hmem => hwalks'.known other (List.mem_cons_of_mem id hmem)⟩
  obtain ⟨operand, hoperand⟩ := hkeys selector part hpart
  exact (hintact.parts selector operand hoperand).1

/-- The walk finds room for every object that it meets, and none inside itself that it does not
know. -/
theorem reifyWithin_walks (hsound : frame.Sound start arguments)
    (hintact : frame.Intact shapes start) {root : AllocId} (room : Nat) (around : List AllocId)
    (id : AllocId) (hroom : frame.allocations.size ≤ room + around.length)
    (hmet : frame.Met start root around id) (hexists : (Operand.fresh id).ExistsIn frame)
    (hwalks : frame.Walks shapes start around reified graph) :
    (conforming shapes).Ends graph
      (frame.reifyWithin declarations span room around id reified graph) fun result grown =>
        frame.Walks shapes start around result.2 grown := by
  induction room using Nat.strongRecOn generalizing around id reified graph with
  | ind room ih =>
    unfold reifyWithin
    refine .get_bind ?_
    cases hknown : reified.get? id with
    | some type => exact .run_pure hwalks
    | none =>
      refine .checked_bind hwalks.conforms (allocation_unbroken hexists) fun object hat => ?_
      have hrooted := hsound.objects id.index object hat
      have hadmitted := hintact.objects id.index object hat
      cases hhome : object.home? with
      | some home =>
        refine .getBase_bind (Discipline.Ends.mono (Discipline.Ends.checked hwalks.conforms
          (placeType_unbroken hsound hwalks.grows (hrooted.home home hhome))) ?_)
        intro result grown _ hpost
        obtain ⟨rfl, rfl, -⟩ := hpost
        exact hwalks
      | none =>
        have hobject : frame.localObject? (.fresh id) = some object :=
          localObject?_fresh_iff.mpr ⟨hat, hhome⟩
        -- Inside itself the object would be on a circle, and known.
        have hnew : id ∉ around := by
          intro hmem
          have hcircle := hmet.encloses (isLocal_iff.mpr ⟨object, hobject⟩) id hmem
          have hsome := hwalks.known id hmem (isOnCircle_iff.mpr hcircle)
          simp [hknown] at hsome
        have hlength := hmet.length_lt hnew hobject
        dsimp only
        split
        · have hgrows := TypeGraph.Grows.plainObject graph object.className
          exact ⟨hgrows, hwalks.grows.trans hgrows, hwalks.conforms.plainObject hadmitted.admitted,
            hwalks.known⟩
        · cases room with
          | zero => omega
          | succ room =>
            have hvisit : frame.WalksOn shapes start (id :: around)
                (frame.reifyWithin declarations span room (id :: around)) object := by
              intro selector child hchild reified graph hwalks
              refine ih room (Nat.lt_succ_self room) (id :: around) child ?_
                (hmet.part hnew hobject hchild) (hadmitted.parts selector _ hchild).2 hwalks
              rw [List.length_cons]
              omega
            dsimp only
            rw [if_neg (by simpa using hnew)]
            split
            · exact circle_walks hsound hrooted hadmitted hvisit hwalks
            · rename_i hcircle
              exact shared_walks hsound hrooted hadmitted hvisit hwalks hcircle

end Walks

/-- The type of an object is found unless the program is rejected. -/
theorem reify_unbroken (hsound : frame.Sound graph arguments) (hintact : frame.Intact shapes graph)
    (hconforms : graph.Conforms shapes) {id : AllocId} (hexists : (Operand.fresh id).ExistsIn frame) :
    (conforming shapes).Ends graph (frame.reify declarations span id graph) fun _ grown =>
      grown.Conforms shapes := by
  have hwalks : frame.Walks shapes graph [] ∅ graph := ⟨.refl graph, hconforms, nofun⟩
  exact Discipline.Ends.run' (reifyWithin_walks hsound hintact frame.allocations.size [] id
    (Nat.le_add_right _ _) (.initial frame graph id) hexists hwalks)
    fun _ _ _ hpost => hpost.conforms

theorem typeOf_unbroken (hsound : frame.Sound graph arguments) (hintact : frame.Intact shapes graph)
    (hconforms : graph.Conforms shapes) (hrooted : operand.RootedIn graph arguments)
    (hexists : operand.ExistsIn frame) :
    (conforming shapes).Ends graph (frame.typeOf declarations span operand graph) fun _ grown =>
      grown.Conforms shapes := by
  unfold typeOf
  refine .keep_bind hconforms (resolved_unbroken hsound hrooted hexists) fun resolved hresolved => ?_
  obtain ⟨hrooted, hexists⟩ := hresolved
  cases resolved with
  | type type => exact .pure hconforms
  | path place =>
    refine Discipline.Ends.mono (Discipline.Ends.keep hconforms
      (placeType_unbroken hsound (.refl graph) hrooted)) ?_
    intro type later _ hpost
    obtain ⟨rfl, -⟩ := hpost
    exact hconforms
  | fresh id => exact reify_unbroken hsound hintact hconforms hexists

end Frame

end ShapeFlow
