import ShapeFlow.Proofs.LastingHomes

/-!
# No write is lost

A write to a part of an operand of which only the type is known would leave no trace: there is no
object of the frame and no place of the callers to which the part belongs.  Types of objects do
stand for values, as parts of allocated objects and as what a callee has written; but they are
never at hand.  What is read is told by its place or made an object of its own, what stands for a
slot or a local is so told from the start, and what is rebound when a place is vacated is read off
the copy.  So an operand that is at hand and known by its type alone is primitive
(`Operand.Identified`), and a write that succeeds binds a part of an object without a home, or
rebuilds a slot and records itself (`Frame.Registers`).

Where a call repeats the writes of its callee, each of them is such a write: none has an empty chain
of selectors, which would be passed over (`Binding.writes_repeated`).
-/

namespace ShapeFlow

variable {declarations : Declarations} {span : Span} {graph grown final : TypeGraph}
  {arguments : List TypeId} {frame later : Frame} {operand base value : Operand}
  {selector : Selector} {α β ι : Type}

/-! ## Operands that are at hand -/

/-- The operand is an object of the frame or told by its place, or else it is primitive. -/
def Operand.Identified (graph : TypeGraph) (operand : Operand) : Prop :=
  ∀ type, operand = .type type → graph.node? type = some .scalar

/-- What the locals hold is identified. -/
def Frame.Identified (graph : TypeGraph) (frame : Frame) : Prop :=
  ∀ name operand, frame.locals.get? name = some operand → operand.Identified graph

namespace Operand.Identified

theorem path (graph : TypeGraph) (place : AccessPath) : (Operand.path place).Identified graph :=
  nofun

theorem fresh (graph : TypeGraph) (id : AllocId) : (Operand.fresh id).Identified graph := nofun

theorem type {held : TypeId} (hnode : graph.node? held = some .scalar) :
    (Operand.type held).Identified graph := by
  rintro _ ⟨⟩
  exact hnode

theorem grow (hidentified : operand.Identified graph) (hgrows : graph.Grows grown) :
    operand.Identified grown := fun held heq => hgrows.node? (hidentified held heq)

/-- What an object is told by is identified with the object. -/
theorem resolve (hidentified : operand.Identified graph) {resolved : Operand}
    (hresolve : frame.resolve operand = .ok resolved) : resolved.Identified graph := by
  cases operand with
  | type held =>
    cases hresolve
    exact hidentified
  | path place =>
    cases hresolve
    exact .path graph place
  | fresh id =>
    obtain ⟨object, -, rfl⟩ := Frame.resolve_fresh_eq_ok_iff.mp hresolve
    cases object.home? with
    | none => exact .fresh graph id
    | some home => exact .path graph home

end Operand.Identified

namespace Frame.Identified

theorem grow (hidentified : frame.Identified graph) (hgrows : graph.Grows grown) :
    frame.Identified grown :=
  fun name operand hlocal => (hidentified name operand hlocal).grow hgrows

theorem of_locals_eq (hidentified : frame.Identified graph) (hsame : later.locals = frame.locals) :
    later.Identified graph := by
  intro name operand hlocal
  rw [hsame] at hlocal
  exact hidentified name operand hlocal

theorem setLocal (hidentified : frame.Identified graph) (name : String)
    (hoperand : operand.Identified graph) : (frame.setLocal name operand).Identified graph := by
  intro other held hlocal
  rw [Frame.setLocal, OrderedMap.get?_insert] at hlocal
  split at hlocal
  · exact Option.some.inj hlocal ▸ hoperand
  · exact hidentified other held hlocal

end Frame.Identified

/-! ## Steps that bind no local -/

/-- Where the step succeeds, the locals hold what they held. -/
class LeavesLocals (step : Framed α) : Prop where
  run : ∀ {frame graph value later final},
    step frame graph = .ok (value, later) final → later.locals = frame.locals

namespace LeavesLocals

/-- A step after which the locals are as before. -/
theorem of_result {step : Framed α}
    (hstep : ∀ frame graph, match step frame graph with
      | .ok result _ => result.2.locals = frame.locals
      | .error _ _ => True) : LeavesLocals step where
  run {frame graph value later final} hrun := by
    have hkept := hstep frame graph
    rw [hrun] at hkept
    exact hkept

instance pure (value : α) : LeavesLocals (Pure.pure value : Framed α) := .of_result fun _ _ => rfl

instance bind (step : Framed α) (next : α → Framed β) [hstep : LeavesLocals step]
    [hnext : ∀ value, LeavesLocals (next value)] : LeavesLocals (step >>= next) where
  run hrun := by
    obtain ⟨value, changed, middle, hfirst, hrest⟩ := exists_of_run_bind hrun
    exact ((hnext value).run hrest).trans (hstep.run hfirst)

theorem seq {step : Framed α} {next : α → Framed β} (hstep : LeavesLocals step)
    (hnext : ∀ value, LeavesLocals (next value)) : LeavesLocals (step >>= next) := bind step next

instance lift (step : Building α) : LeavesLocals (liftM step : Framed α) where
  run hrun := by
    obtain ⟨value, later, -, hpure⟩ := exists_of_bind hrun
    cases hpure
    rfl

instance get : LeavesLocals (getThe Frame : Framed Frame) := .of_result fun _ _ => rfl

instance getBase : LeavesLocals (getThe TypeGraph : Framed TypeGraph) := .of_result fun _ _ => rfl

instance broken (reference : Reference) : LeavesLocals (ShapeFlow.broken reference : Framed α) :=
  .of_result fun _ _ => trivial

instance inspect (question : TypeGraph → Frame → Checked α) :
    LeavesLocals (ShapeFlow.inspect question) where
  run hrun := by rw [(inspect_eq_ok_iff.mp hrun).2.1]

instance record (target : AccessPath) (value : Value) :
    LeavesLocals (modifyThe Frame (Frame.record target value) : Framed PUnit) :=
  .of_result fun _ _ => rfl

instance release (id : AllocId) (fields : OrderedMap Selector Operand) :
    LeavesLocals (modifyThe Frame (Frame.release id fields) : Framed PUnit) :=
  .of_result fun _ _ => rfl

instance allocate (object : Allocation) :
    LeavesLocals (modifyGetThe Frame (Frame.allocate object) : Framed AllocId) :=
  .of_result fun _ _ => rfl

instance mapM (step : ι → Framed α) [hstep : ∀ item, LeavesLocals (step item)] (items : List ι) :
    LeavesLocals (items.mapM step) := by
  induction items with
  | nil => exact pure []
  | cons item rest ih =>
    rw [List.mapM_cons]
    infer_instance

instance forM (step : ι → Framed PUnit) [hstep : ∀ item, LeavesLocals (step item)]
    (items : List ι) : LeavesLocals (items.forM step) := by
  induction items with
  | nil => exact pure PUnit.unit
  | cons item rest ih =>
    exact inferInstanceAs (LeavesLocals (step item >>= fun _ => rest.forM step))

instance ite (condition : Prop) [Decidable condition] (first second : Framed α)
    [LeavesLocals first] [LeavesLocals second] :
    LeavesLocals (if condition then first else second) := by
  split <;> infer_instance

end LeavesLocals

/-- Types are added, and only answers have to be as told. -/
def adding : Discipline TypeGraph where
  Grows := TypeGraph.Grows
  Calm _ := True
  Excused _ := True
  refl := .refl
  trans := .trans

/-- A step that binds no local adds types and leaves the locals as they are. -/
theorem adding_ends (step : Framed α) [hdrifts : RunDrifts step] [hleaves : LeavesLocals step]
    (frame : Frame) (graph : TypeGraph) :
    adding.Ends graph (step frame graph) fun result _ => result.2.locals = frame.locals := by
  have hgrows := (hdrifts.run frame).grows graph
  cases hrun : step frame graph with
  | ok result final =>
    rw [hrun] at hgrows
    exact ⟨hgrows, hleaves.run hrun⟩
  | error failure final =>
    rw [hrun] at hgrows
    exact ⟨hgrows, trivial, trivial⟩

namespace Frame

instance (base : AccessPath) (operand : Operand) (part : TypeId) :
    LeavesLocals (isCurrent declarations span base operand part) := by
  unfold isCurrent
  infer_instance

instance (base : AccessPath) (existing? : Option AllocId) (selector : Selector) (part : TypeId) :
    LeavesLocals (keptPart declarations span base existing? selector part) := by
  unfold keptPart
  refine .seq inferInstance fun previous? => ?_
  split <;> infer_instance

instance (base : AccessPath) (leaving : List (AllocId × AccessPath))
    (copy : AccessPath → Framed Operand) [∀ place, LeavesLocals (copy place)]
    (existing? : Option AllocId) (place : AccessPath) :
    LeavesLocals (copyParts declarations span base leaving copy existing? place) := by
  unfold copyParts
  infer_instance

instance (base : AccessPath) (leaving : List (AllocId × AccessPath))
    (inner : AccessPath → Framed Operand) [∀ place, LeavesLocals (inner place)]
    (place : AccessPath) : LeavesLocals (copyAt declarations span base leaving inner place) := by
  unfold copyAt
  split
  · infer_instance
  · refine .seq inferInstance fun type => .seq inferInstance fun node => ?_
    split <;> infer_instance

instance (base : AccessPath) (leaving : List (AllocId × AccessPath)) (room : Nat)
    (place : AccessPath) : LeavesLocals (copy declarations span base leaving room place) := by
  induction room generalizing place with
  | zero =>
    unfold copy
    infer_instance
  | succ room ih =>
    unfold copy
    infer_instance

instance (operand : Operand) : LeavesLocals (currentType declarations span operand) := by
  unfold currentType
  infer_instance

instance (operand : Operand) : LeavesLocals (express declarations span operand) := by
  unfold express
  refine .seq inferInstance fun resolved => ?_
  split <;> infer_instance

instance (target : AccessPath) (selector : Selector) (part : TypeId) :
    LeavesLocals (setPlaceType span target selector part) where
  run hrun := by
    obtain ⟨slot, current, updated, -, rfl⟩ := exists_of_setPlaceType hrun
    rfl

end Frame

theorem Placement.locals_visitPart {visit : Placement → AllocId → AccessPath → Checked Placement}
    (hvisit : ∀ walk id place, Checked.Safe (fun _ => True) (visit walk id place) fun later =>
      later.frame.locals = walk.frame.locals)
    (walk : Placement) (target : AccessPath) (operand : Operand) :
    Checked.Safe (fun _ => True) (Placement.visitPart visit walk target operand) fun later =>
      later.frame.locals = walk.frame.locals := by
  unfold Placement.visitPart
  refine (Checked.safe_true fun _ => trivial).bind fun resolved _ => ?_
  cases resolved with
  | type held => exact rfl
  | path source => exact rfl
  | fresh child => exact hvisit walk child target

/-- A walk through the objects that are being placed binds no local. -/
theorem Placement.locals_visit (settling : Bool) (room : Nat) (walk : Placement) (id : AllocId)
    (place : AccessPath) :
    Checked.Safe (fun _ => True) (Placement.visit settling room walk id place) fun later =>
      later.frame.locals = walk.frame.locals := by
  induction room generalizing walk id place with
  | zero =>
    unfold Placement.visit
    split
    · exact rfl
    · exact (Checked.safe_true fun _ => trivial).bind fun _ _ => trivial
  | succ room ih =>
    unfold Placement.visit
    split
    · exact rfl
    · refine (Checked.safe_true fun _ => trivial).bind fun object _ => ?_
      refine Checked.Safe.bind (Checked.Safe.foldlM object.fields.entries (fun later =>
        later.frame.locals = walk.frame.locals) rfl fun entry _ later hlater => ?_)
        fun later hlater => ?_
      · exact (locals_visitPart ih later (place.child entry.1) entry.2).mono fun last hlast =>
          hlast.trans hlater
      · cases settling <;> exact hlater

theorem Placement.locals_place (settling : Bool) (id : AllocId) (target : AccessPath)
    (frame : Frame) : Checked.Safe (fun _ => True) (frame.place settling id target) fun later =>
      later.locals = frame.locals :=
  (locals_visit settling frame.allocations.size { frame } id target).bind fun _ hlater => hlater

instance (target : AccessPath) (operand : Operand) :
    LeavesLocals (Frame.recordOperand declarations span target operand) where
  run {frame graph _ later final} hrun := by
    cases operand with
    | type held =>
      cases hrun
      rfl
    | path place =>
      cases hrun
      rfl
    | fresh id =>
      obtain ⟨type, -, hplace⟩ := Frame.exists_of_recordOperand_fresh hrun
      have hplaced := (Placement.locals_place true id target _).of_eq_ok hplace
      exact hplaced

/-! ## Steps that answer identified operands -/

namespace Frame

theorem setPart_locals (id : AllocId) (selector : Selector) (operand : Operand) (frame : Frame) :
    Checked.Safe (fun _ => True) (setPart id selector operand frame) fun result =>
      result.2.locals = frame.locals :=
  (setPart_updates id selector operand frame).mono fun _ hupdated => by rw [hupdated, update]

/-- What is known by its type and not made an object is primitive. -/
theorem expand?_primitive (graph : TypeGraph) (type : TypeId) (frame : Frame) :
    Checked.Safe (fun _ => True) (expand? graph type frame) fun result =>
      result.1 = none → graph.node? type = some .scalar := by
  unfold expand?
  refine Checked.Safe.lift_bind (graph.node_safe type).leniently fun node hnode => ?_
  cases node with
  | scalar => exact fun _ => hnode
  | object className fields => exact fun hnone => nomatch hnone

/-- What is read off an identified operand is identified. -/
theorem read_identified (hbase : base.Identified graph) (selector : Selector) (frame : Frame) :
    Checked.Safe (fun _ => True) (read declarations span graph base selector frame)
      fun result => result.1.Identified graph := by
  unfold read
  refine Checked.Safe.get_bind (Checked.Safe.lift_bind (resolve_told frame base)
    fun resolved hresolve => ?_)
  have hidentified := hbase.resolve hresolve
  cases resolved with
  | path place =>
    refine Checked.Safe.lift_bind (Checked.safe_true fun _ => trivial) fun _ _ => ?_
    refine Checked.Safe.lift_bind (Checked.safe_true fun _ => trivial) fun part _ => ?_
    refine Checked.Safe.lift_bind (graph.node_safe part).leniently fun node hnode => ?_
    cases node with
    | scalar => exact .type hnode
    | object className fields => exact .path graph _
  | type object =>
    -- The base is primitive, so it has no parts.
    have hpart : Checked.Safe (fun _ => True) (graph.partType declarations span object selector)
        fun _ => False := by
      unfold TypeGraph.partType TypeGraph.node
      rw [hidentified object rfl]
      exact trivial
    exact Checked.Safe.lift_bind hpart fun _ hfalse => hfalse.elim
  | fresh id =>
    refine Checked.Safe.lift_bind (Checked.safe_true fun _ => trivial) fun object _ => ?_
    cases object.fields.get? selector with
    | none => exact trivial
    | some held =>
      have htold : ∀ {held : Operand}, held.Identified graph → Checked.Safe (fun _ => True)
          ((liftM (frame.resolve held) : StateT Frame Checked Operand) frame)
          fun result => result.1.Identified graph := fun hheld =>
        (Checked.Safe.lift (resolve_told frame _)).mono fun _ hpost => hheld.resolve hpost.2
      cases held with
      | type part =>
        refine (expand?_primitive graph part frame).run_bind fun child? _ hprimitive => ?_
        cases child? with
        | none => exact .type (hprimitive rfl)
        | some child =>
          exact Checked.Safe.run_bind (Checked.safe_true fun _ => trivial) fun _ _ _ =>
            Operand.Identified.fresh graph child
      | path place => exact htold (.path graph place)
      | fresh child => exact htold (.fresh graph child)

theorem readAlong_identified (selectors : List Selector) (hbase : base.Identified graph)
    (frame : Frame) :
    Checked.Safe (fun _ => True) (readAlong declarations span graph base selectors frame)
      fun result => result.1.Identified graph := by
  induction selectors generalizing base frame with
  | nil => exact hbase
  | cons selector rest ih =>
    rw [readAlong, List.foldlM_cons]
    exact (read_identified hbase selector frame).run_bind fun _ later hoperand => ih hoperand later

/-- What is found by following a place through an identified copy is identified, and no local is
bound on the way. -/
theorem retrace_identified (hbase : base.Identified graph) (vacated place : AccessPath)
    (frame : Frame) :
    adding.Ends graph (retrace declarations span base vacated place frame graph)
      fun result grown => graph = grown ∧ result.2.locals = frame.locals ∧
        result.1.Identified graph := by
  unfold retrace
  cases place.below? vacated with
  | none => exact ⟨.refl graph, trivial, trivial⟩
  | some selectors =>
    have hread : Checked.Safe adding.Excused
        (readAlong declarations span graph base selectors frame) fun result =>
          result.2.locals = frame.locals ∧ result.1.Identified graph :=
      (readAlong_reads (fun _ _ _ => True) (fun _ _ _ _ _ _ _ _ => trivial) base selectors
        frame).told.mono fun _ hpost =>
          ⟨hpost.2.2.1, (readAlong_identified selectors hbase frame).of_eq_ok hpost.1⟩
    exact Discipline.Ends.reading trivial hread

/-- The copy of a place is an object of the frame, or else primitive. -/
theorem copy_identified (vacated : AccessPath) (leaving : List (AllocId × AccessPath)) (room : Nat)
    (place : AccessPath) (frame : Frame) (graph : TypeGraph) :
    adding.Ends graph (copy declarations span vacated leaving room place frame graph)
      fun result grown => result.2.locals = frame.locals ∧ result.1.Identified grown := by
  have hcopyAt : ∀ inner : AccessPath → Framed Operand, ∀ result later final,
      copyAt declarations span vacated leaving inner place frame graph =
        .ok (result, later) final → result.Identified final := by
    intro inner result later final hrun
    unfold copyAt at hrun
    cases hfind : leaving.find? fun resident => resident.2 = place with
    | some resident =>
      rw [hfind] at hrun
      cases hrun
      exact .fresh _ _
    | none =>
      rw [hfind] at hrun
      obtain ⟨type, -, hrun⟩ := exists_of_inspect_bind hrun
      obtain ⟨node, hnode, hrun⟩ := exists_of_inspect_bind hrun
      cases node with
      | scalar =>
        cases hrun
        exact .type ((graph.node_safe type).of_eq_ok hnode)
      | object className fields =>
        obtain ⟨_, _, _, -, hrun⟩ := exists_of_run_bind hrun
        cases hrun
        exact .fresh _ _
  have hends := adding_ends (copy declarations span vacated leaving room place) frame graph
  cases hrun : copy declarations span vacated leaving room place frame graph with
  | error failure final =>
    rw [hrun] at hends
    exact hends
  | ok result final =>
    rw [hrun] at hends
    refine ⟨hends.1, hends.2, ?_⟩
    cases room <;> exact hcopyAt _ _ _ _ hrun

/-- Vacating a place leaves what the locals hold identified, and the value, if it was. -/
theorem vacate_identified (hframe : frame.Identified graph) (vacated : AccessPath)
    (value : Operand) :
    adding.Ends graph (vacate declarations span vacated value frame graph)
      fun result grown => result.2.Identified grown ∧
        (value.Identified graph → result.1.Identified grown) := by
  unfold vacate
  refine .get_bind ?_
  dsimp only
  split
  · exact .run_pure ⟨hframe, id⟩
  · refine (adding_ends _ frame graph).run_bind fun rebuilt changed grown hgrows hlocals => ?_
    replace hframe := (hframe.of_locals_eq hlocals).grow hgrows
    refine (copy_identified vacated _ _ vacated changed grown).run_bind ?_
    rintro root copied final hgrows' ⟨hlocals, hroot⟩
    replace hframe := (hframe.of_locals_eq hlocals).grow hgrows'
    refine (adding_ends _ copied final).run_bind fun _ released last hgrows'' hlocals => ?_
    replace hframe := (hframe.of_locals_eq hlocals).grow hgrows''
    replace hroot := hroot.grow hgrows''
    -- The types stay as they are from here on.
    refine (Discipline.Ends.forM (frame.localsWithin vacated) (fun later grown =>
      last = grown ∧ later.Identified grown) ⟨rfl, hframe⟩ ?_).run_bind ?_
    · rintro binding _ changed _ ⟨rfl, hframe⟩
      refine (retrace_identified hroot vacated binding.2 changed).run_bind ?_
      rintro operand retraced _ - ⟨rfl, hlocals, hoperand⟩
      exact ⟨.refl last, rfl, (hframe.of_locals_eq hlocals).setLocal binding.1 hoperand⟩
    rintro _ bound _ - ⟨rfl, hframe⟩
    refine .get_bind ((Discipline.Ends.forM (bound.partsWithin vacated) (fun later grown =>
      last = grown ∧ later.Identified grown) ⟨rfl, hframe⟩ ?_).run_bind ?_)
    · rintro part _ changed _ ⟨rfl, hframe⟩
      refine (retrace_identified hroot vacated part.2.2 changed).run_bind ?_
      rintro operand retraced _ - ⟨rfl, hlocals, -⟩
      have hset : Checked.Safe adding.Excused (setPart part.1 part.2.1 operand retraced)
          fun result => result.2.Identified last :=
        (setPart_locals part.1 part.2.1 operand retraced).mono fun _ hset =>
          hframe.of_locals_eq (hset.trans hlocals)
      have hends : adding.Ends last
          (reading (fun _ => setPart part.1 part.2.1 operand) retraced last)
          fun result grown => last = grown ∧ result.2.Identified last := .reading trivial hset
      refine hends.mono ?_
      rintro result _ - ⟨rfl, hframe⟩
      exact ⟨rfl, hframe⟩
    rintro _ rebound _ - ⟨rfl, hframe⟩
    cases value.placeWithin? vacated with
    | none =>
      exact .run_pure ⟨hframe, fun hvalue => hvalue.grow ((hgrows.trans hgrows').trans hgrows'')⟩
    | some place =>
      refine (retrace_identified hroot vacated place rebound).mono ?_
      rintro result _ - ⟨rfl, hlocals, hoperand⟩
      exact ⟨hframe.of_locals_eq hlocals, fun _ => hoperand⟩

/-! ## Writes that succeed -/

/-- A write has bound a part of an object without a home, or it has rebuilt the slot of a place with
the part and recorded a write to the part first of all. -/
inductive Registers (frame : Frame) (graph : TypeGraph) (base : Operand) (selector : Selector)
    (value : Operand) (later : Frame) (final : TypeGraph) : Prop
  | part {id : AllocId} {object : Allocation} {held : Operand}
      (hbase : frame.resolve base = .ok (.fresh id))
      (hobject : frame.allocations[id.index]? = some object) (hhome : object.home? = none)
      (hvalue : frame.resolve value = .ok held)
      (hlater : later = frame.update id fun object =>
        { object with fields := object.fields.insert selector held })
      (hfinal : final = graph) : Registers frame graph base selector value later final
  | place {place : AccessPath} {slot : Nat} {current part updated : TypeId}
      {built grown : TypeGraph} {told : Value} {others : List Write}
      (hbase : frame.resolve base = .ok (.path place)) (hroot : place.root = slot + 1)
      (hheld : frame.slots[slot]? = some current) (hgrows : graph.Grows built)
      (hbind : built.bindAt? current (place.child selector).selectors part = some (updated, grown))
      (hslots : later.slots = frame.slots.set slot updated)
      (hwrites : later.writes = frame.writes ++ ⟨place.child selector, told⟩ :: others) :
      Registers frame graph base selector value later final

/-- The first write that is recorded of an operand is the one to the target. -/
theorem recordOperand_writes {target : AccessPath} (hsettled : frame.Settled operand)
    {answer : PUnit}
    (hrun : recordOperand declarations span target operand frame graph =
      .ok (answer, later) final) :
    later.slots = frame.slots ∧
      ∃ told others, later.writes = frame.writes ++ ⟨target, told⟩ :: others := by
  cases operand with
  | type held =>
    cases hrun
    exact ⟨rfl, .type held, [], rfl⟩
  | path place =>
    cases hrun
    exact ⟨rfl, .path place, [], rfl⟩
  | fresh id =>
    obtain ⟨type, -, hplace⟩ := exists_of_recordOperand_fresh hrun
    have hlocal : (frame.record target (.type type)).isLocal id = true :=
      isLocal_iff_exists_object.mpr (settled_fresh_iff.mp hsettled)
    obtain ⟨stops, told, walk, htour, rfl, -⟩ :=
      (Placement.place_tours hlocal target true).of_eq_ok hplace
    refine ⟨htour.slots, .type type, told, ?_⟩
    rw [htour.writes]
    exact List.append_assoc _ _ _

theorem target_of_mem_stores {place : AccessPath} (hbase : frame.resolve base = .ok (.path place))
    {store : Store} (hstore : store ∈ stores declarations span base selector value frame graph) :
    store.target = place.child selector := by
  unfold stores at hstore
  rw [hbase] at hstore
  split at hstore
  · rename_i other held heq _
    cases heq
    split at hstore
    · rw [List.mem_singleton] at hstore
      rw [hstore]
    · exact nomatch hstore
  · exact nomatch hstore

/-- A write to a part of an identified operand leaves its trace. -/
theorem write_registers (hsound : frame.Sound graph arguments) (hbase : base.Identified graph)
    (hvalue : value.RootedIn graph arguments) {result : Operand}
    (hrun : write declarations span base selector value frame graph =
      .ok (result, later) final) :
    frame.Registers graph base selector value later final := by
  have hwrite := hrun
  unfold write at hrun
  obtain ⟨resolved, hresolved, hrun⟩ := exists_of_inspect_bind hrun
  obtain ⟨told, htold, hrun⟩ := exists_of_inspect_bind hrun
  obtain ⟨className?, hclass, hrun⟩ := exists_of_inspect_bind hrun
  cases className? with
  | none => cases hrun
  | some className =>
    cases resolved with
    | type held =>
      -- The base is primitive, and has no class.
      have hnode := (hbase.resolve hresolved) held rfl
      simp [classOf?, TypeGraph.node, found, hnode, TypeNode.className?, bind, Except.bind, pure,
        Except.pure] at hclass
    | fresh id =>
      dsimp only at hrun
      split at hrun
      · obtain ⟨_, written, _, hset, hpure⟩ := exists_of_run_bind hrun
        obtain ⟨hpart, rfl⟩ := reading_eq_ok_iff.mp hset
        cases hpure
        obtain ⟨object, hobject, hhome⟩ := settled_fresh_iff.mp (resolve_settled hresolved)
        exact .part hresolved hobject hhome htold
          ((setPart_updates id selector _ frame).of_eq_ok hpart) rfl
      · cases hrun
    | path place =>
      obtain ⟨store, hstores, hrewrites⟩ := write_path hsound hresolved hvalue hwrite
      obtain ⟨part, built, slot, current, updated, grown, hbuilt, hbuiltSound, hshows, hrebinds,
        hrebound, hrecord⟩ := exists_of_rebind hrewrites.sound hrewrites.selectors selector
          hrewrites.rooted hrewrites.settled hrewrites.run
      have htarget := target_of_mem_stores hresolved (hstores ▸ List.mem_singleton_self store)
      have hsettled := hrewrites.settled.withSlot slot updated
      obtain ⟨hslots, told, others, hwrites⟩ := recordOperand_writes hsettled hrecord
      obtain ⟨hroot, hheld, hbind⟩ := hrebinds
      rw [htarget] at hroot hbind hwrites
      rw [hrewrites.quiet.slots] at hheld
      rw [withSlot, hrewrites.quiet.slots] at hslots
      rw [withSlot, hrewrites.quiet.writes] at hwrites
      exact .place hresolved hroot hheld (hrewrites.grows.trans hbuilt) hbind hslots hwrites

/-- A write leaves what the locals hold identified, and so is what it answers if the value was. -/
theorem write_identified (hframe : frame.Identified graph) {result : Operand}
    (hrun : write declarations span base selector value frame graph =
      .ok (result, later) final) :
    later.Identified final ∧ (value.Identified graph → result.Identified final) := by
  unfold write at hrun
  obtain ⟨resolved, hresolved, hrun⟩ := exists_of_inspect_bind hrun
  obtain ⟨told, htold, hrun⟩ := exists_of_inspect_bind hrun
  obtain ⟨className?, -, hrun⟩ := exists_of_inspect_bind hrun
  cases className? with
  | none => cases hrun
  | some className =>
    dsimp only at hrun
    split at hrun
    · cases resolved with
      | type held =>
        cases hrun
        exact ⟨hframe, fun hvalue => hvalue.resolve htold⟩
      | fresh id =>
        obtain ⟨_, written, _, hset, hpure⟩ := exists_of_run_bind hrun
        obtain ⟨hpart, rfl⟩ := reading_eq_ok_iff.mp hset
        cases hpure
        exact ⟨hframe.of_locals_eq ((setPart_locals id selector _ frame).of_eq_ok hpart),
          fun hvalue => hvalue.resolve htold⟩
      | path place =>
        obtain ⟨moved, vacated, grown, hvacate, hrun⟩ := exists_of_run_bind hrun
        obtain ⟨-, hvacated, -⟩ :=
          (vacate_identified hframe (place.child selector) told).of_eq_ok hvacate
        obtain ⟨hgrows, hlocals⟩ := (adding_ends _ vacated grown).of_eq_ok hrun
        refine ⟨(hvacated.of_locals_eq hlocals).grow hgrows, fun _ => ?_⟩
        obtain ⟨_, _, _, -, hrun⟩ := exists_of_run_bind hrun
        obtain ⟨_, _, _, -, hrun⟩ := exists_of_run_bind hrun
        obtain ⟨_, _, _, -, hrun⟩ := exists_of_run_bind hrun
        obtain ⟨_, _, _, -, hpure⟩ := exists_of_run_bind hrun
        cases hpure
        exact .path final _
    · cases hrun

/-- What stands for a slot at the start of an expression is identified. -/
theorem slotOperand_identified (slot : Nat) :
    Checked.Safe (fun _ => True) (frame.slotOperand graph slot)
      fun operand => operand.Identified graph := by
  unfold slotOperand
  refine (Checked.safe_true fun _ => trivial).bind fun type _ => ?_
  refine (graph.node_safe type).leniently.bind fun node hnode => ?_
  cases node with
  | scalar => exact .type hnode
  | object className fields => exact .path graph _

end Frame

/-! ## Everywhere in a body -/

/-- What is at hand and what the locals hold is identified; what is written need not be. -/
def Regime.identified : Regime where
  World _ := True
  Frames _ graph frame := frame.Identified graph
  Fits _ graph _ operand := operand.Identified graph
  Suits _ _ _ _ := True
  Excused _ := True

/-- Only answers have to be identified. -/
theorem Regime.identified_obeys {outcome : EStateM.Result Failure TypeGraph (α × Frame)}
    {post : α → Frame → TypeGraph → Prop}
    (hanswers : ∀ value later final, outcome = .ok (value, later) final →
      later.Identified final ∧ post value later final) :
    Regime.identified.Obeys arguments graph outcome post := by
  cases outcome with
  | ok result final =>
    obtain ⟨hframe, hpost⟩ := hanswers result.1 result.2 final rfl
    exact ⟨trivial, trivial, hframe, hpost⟩
  | error failure final => exact ⟨trivial, trivial, trivial⟩

/-- A step that binds no local. -/
theorem Regime.identified_of_leaves (step : Framed α) [RunDrifts step] [LeavesLocals step]
    (hframe : frame.Identified graph) :
    Regime.identified.Obeys arguments graph (step frame graph) fun _ _ _ => True :=
  identified_obeys fun _ _ _ hrun => by
    obtain ⟨hgrows, hlocals⟩ := (adding_ends step frame graph).of_eq_ok hrun
    exact ⟨(hframe.of_locals_eq hlocals).grow hgrows, trivial⟩

theorem Regime.identified_lawful (declarations : Declarations) :
    Regime.identified.Lawful declarations where
  rejected _ := trivial
  start _ _ _ := nofun
  grown hstands hgrows _ := hstands.frames.grow hgrows
  fits_kept _ hgrows _ hadmits := hadmits.fits.grow hgrows
  suits_kept _ _ _ _ := trivial
  suits _ _ := trivial
  typed _ _ := trivial
  scalar _ hnode := .type hnode
  object _ _ := .fresh _ _
  heldLocal hstands hlocal := hstands.frames _ _ hlocal
  slotOperand _ _ _ := Frame.slotOperand_identified _
  resolve _ hadmits := (Frame.resolve_told _ _).mono fun _ hresolve => hadmits.fits.resolve hresolve
  classOf? _ _ _ := Checked.safe_true fun _ => trivial
  read _ selector hstands hadmits := (Frame.read_reads _ selector _).told.mono fun _ hpost =>
    ⟨hstands.frames.of_locals_eq hpost.2.locals,
      (Frame.read_identified hadmits.fits selector _).of_eq_ok hpost.1⟩
  expand? hstands _ := (Frame.expand?_allocates _ _).mono fun result hpost => by
    refine ⟨hstands.frames.of_locals_eq ?_, fun id _ => .fresh _ id⟩
    rcases hpost with rfl | ⟨className, types, rfl⟩ <;> rfl
  setLocal name hstands hadmits := hstands.frames.setLocal name hadmits.fits
  allocate hstands _ := hstands.frames.of_locals_eq rfl
  setElement hstands _ _ _ := (Frame.setPart_locals _ _ _ _).mono fun _ hlocals =>
    hstands.frames.of_locals_eq hlocals
  recordCall hstands _ := hstands.frames.of_locals_eq rfl
  currentType _ hstands _ := identified_of_leaves _ hstands.frames
  express _ hstands _ := identified_of_leaves _ hstands.frames
  expressResult _ _ _ := lenient_any _ _ _
  write _ _ hstands _ _ := identified_obeys fun _ _ _ hrun =>
    Frame.write_identified hstands.frames hrun

/-! ## Repeated writes -/

/-- At the point a part is written with success, and it is the part at the end of the chain. -/
def Point.Writes (declarations : Declarations) (span : Span) (selectors : List Selector)
    (point : Point) : Prop :=
  ∃ base last value result later final, selectors.getLast? = some last ∧
    point.act = .writes base last value ∧
      Frame.write declarations span base last value point.frame point.graph =
        .ok (result, later) final

/-- A write along a chain that is not empty is one to the part at its end. -/
theorem Frame.writeAlong_writes {selectors : List Selector} (hselectors : selectors ≠ [])
    {answer : Unit}
    (hrun : Frame.writeAlong declarations span base selectors value frame graph =
      .ok (answer, later) final) :
    ∃ point ∈ Frame.pointsToWrite declarations span base selectors value frame graph,
      point.Writes declarations span selectors := by
  have hlast := List.getLast?_eq_some_getLast hselectors
  unfold Frame.writeAlong at hrun
  unfold Frame.pointsToWrite
  rw [hlast] at hrun ⊢
  obtain ⟨object, changed, grown, hread, hrun⟩ := exists_of_run_bind hrun
  obtain ⟨result, written, reached, hwrite, -⟩ := exists_of_run_bind hrun
  refine ⟨⟨changed, grown, .writes object _ value⟩, List.mem_append_right _ ?_,
    object, _, value, result, written, reached, hlast, rfl, hwrite⟩
  rw [hread]
  exact List.mem_cons_self

namespace Binding

variable (binding : Binding)

theorem write_writes {write : Write} (hselectors : write.target.selectors ≠ []) {answer : Unit}
    (hrun : binding.write write frame graph = .ok (answer, later) final) :
    ∃ point ∈ binding.writePoints write frame graph,
      point.Writes binding.declarations binding.span write.target.selectors := by
  unfold Binding.write at hrun
  obtain ⟨base, first, between, hbase, hrun⟩ := exists_of_run_bind hrun
  obtain ⟨value, second, last, hvalue, hrun⟩ := exists_of_run_bind hrun
  obtain ⟨point, hmem, hwrites⟩ := Frame.writeAlong_writes hselectors hrun
  refine ⟨point, ?_, hwrites⟩
  unfold writePoints pointsAfter
  refine List.mem_append_right _ ?_
  simp only [hbase]
  refine List.mem_append_right _ ?_
  simp only [hvalue]
  exact hmem

/-- None of the writes of a callee is passed over when they are repeated: each has its point, one
after the other. -/
theorem writes_repeated {writes : List Write}
    (hselectors : ∀ write ∈ writes, write.target.selectors ≠ []) {answer : PUnit}
    (hrun : writes.forM binding.write frame graph = .ok (answer, later) final) :
    ∃ points, points.Sublist (binding.writesPoints writes frame graph) ∧
      List.Forall₂ (fun write point =>
        point.Writes binding.declarations binding.span write.target.selectors) writes points := by
  induction writes generalizing frame graph with
  | nil => exact ⟨[], List.nil_sublist _, .nil⟩
  | cons write rest ih =>
    obtain ⟨hwrite, hrest⟩ := List.forall_mem_cons.mp hselectors
    obtain ⟨_, changed, grown, hfirst, hrun⟩ := exists_of_run_bind hrun
    obtain ⟨point, hmem, hwrites⟩ := binding.write_writes hwrite hfirst
    obtain ⟨points, hsublist, hpoints⟩ := ih hrest hrun
    refine ⟨point :: points, ?_, .cons hwrites hpoints⟩
    unfold writesPoints pointsThen
    rw [hfirst]
    exact (List.singleton_sublist.mpr hmem).append hsublist

/-- What a slot of the callee stands for is identified with the arguments. -/
theorem slot?_identified
    (harguments : ∀ argument ∈ binding.arguments, argument.Identified graph) {slot : Nat}
    (hslot : binding.slot? slot = some operand) : operand.Identified graph := by
  cases slot with
  | zero =>
    obtain ⟨id, -, rfl⟩ := Option.map_eq_some_iff.mp hslot
    exact .fresh graph id
  | succ position => exact harguments operand (List.mem_of_getElem? hslot)

end Binding

/-! ## Sessions -/

/-- What a sound summary writes, it writes to parts. -/
theorem Summary.WellFormed.selectors_ne {summary : Summary} (hsummary : summary.WellFormed graph) :
    ∀ write ∈ summary.writes, write.target.selectors ≠ [] := by
  obtain ⟨own, returned, hwrites, hown, hreturned, -⟩ := hsummary.writes
  rw [hwrites]
  exact List.forall_mem_append.mpr
    ⟨fun write hmem => (hown write hmem).selectors,
      fun write hmem => (hreturned write hmem).selectors⟩

/-- In a session, at all points of all bodies, what the locals hold and what is at hand is never
known by an object type alone, and neither is what the slots of a callee stand for.  So every write
that succeeds binds a part of an object without a home, or rebuilds a slot and records a write to
the part.  No summary has a write with an empty chain of selectors, so a call that repeats the
writes of a summary makes each of them. -/
theorem Engine.session_registers {program : Program} {limit : Nat} {engine : Engine}
    {history : List Moment} (hsession : Engine.Session program limit engine history) :
    (∀ moment ∈ history, ∀ task point, moment.Passes (.ofProgram program) limit task point →
      (∀ name operand, point.frame.locals.get? name = some operand →
        operand.Identified point.graph) ∧
      (∀ operand ∈ point.act.operands, operand.Identified point.graph) ∧
      ∀ base selector value, point.act = .writes base selector value →
        ∀ span result later final,
          Frame.write (.ofProgram program) span base selector value point.frame point.graph =
              .ok (result, later) final →
            point.frame.Registers point.graph base selector value later final) ∧
    (∀ moment ∈ history, ∀ summary ∈ moment.knowledge.summaries, ∀ write ∈ summary.writes,
      write.target.selectors ≠ []) ∧
    ∀ (binding : Binding) frame graph,
      ((∀ argument ∈ binding.arguments, argument.Identified graph) →
        ∀ slot operand, binding.slot? slot = some operand → operand.Identified graph) ∧
      ∀ writes : List Write, (∀ write ∈ writes, write.target.selectors ≠ []) →
        ∀ later final, writes.forM binding.write frame graph = .ok (⟨⟩, later) final →
          ∃ points, points.Sublist (binding.writesPoints writes frame graph) ∧
            List.Forall₂ (fun write point => point.Writes binding.declarations binding.span
              write.target.selectors) writes points := by
  have hrules := (Shapes.admit_all (.ofProgram program)).rules
  refine ⟨fun moment hmem task point hpasses => ?_, fun moment hmem summary hsummary => ?_,
    fun binding frame graph => ⟨fun harguments _ _ hslot =>
      binding.slot?_identified harguments hslot, fun writes hselectors _ _ hrun =>
        binding.writes_repeated hselectors hrun⟩⟩
  · have hmeets := (Regime.session_holdsAt ⟨Regime.identified_lawful _, hrules.owned,
      hrules.arrays⟩ (fun _ => trivial) hsession moment hmem).meets task point hpasses
    refine ⟨hmeets.stands.frames, fun operand hoperand => (hmeets.operands operand hoperand).fits,
      fun base selector value hact span result later final hrun => ?_⟩
    have hbase := (hmeets.operands base (by rw [hact]; exact List.mem_singleton_self base)).fits
    have hvalue := (hmeets.value value (by rw [hact]; rfl)).rooted
    exact Frame.write_registers hmeets.stands.sound hbase hvalue hrun
  · obtain ⟨id, hid⟩ := Array.mem_iff_getElem?.mp hsummary
    have hsound := (hsession.follows.moments moment hmem).knowledge
    exact (hsound.summaries id summary hid).1.selectors_ne

/-- When the rack is put onto the stand, the slot of the stand is rebuilt and the write recorded. -/
theorem standEngine_registers : ∃ history moment point result later final,
    Engine.Session standProgram 4 standEngine history ∧ moment ∈ history ∧
      moment.Passes (.ofProgram standProgram) 4 standTask point ∧
        point.act = .writes (.path ⟨1, []⟩) (.field "@on") (.fresh ⟨0⟩) ∧
          Frame.write (.ofProgram standProgram) {} (.path ⟨1, []⟩) (.field "@on") (.fresh ⟨0⟩)
            point.frame point.graph = .ok (result, later) final ∧
            point.frame.Registers point.graph (.path ⟨1, []⟩) (.field "@on") (.fresh ⟨0⟩) later
              final ∧
              later.slots ≠ point.frame.slots := by
  let declarations : Declarations := .ofProgram standProgram
  have hany : (standTask.points declarations 4 3 standStart.knowledge).any (fun point =>
      point.act = .writes (.path ⟨1, []⟩) (.field "@on") (.fresh ⟨0⟩) ∧
        passes (fun result _ => result.2.slots ≠ point.frame.slots)
          (Frame.write declarations {} (.path ⟨1, []⟩) (.field "@on") (.fresh ⟨0⟩) point.frame
            point.graph)) = true := by
    decide +kernel
  obtain ⟨history, hsession, hmoments⟩ := standEngine_session
  obtain ⟨moment, hmem, point, hpasses, htested⟩ := Task.exists_passes [] hany
  rw [decide_eq_true_eq] at htested
  obtain ⟨hact, hwrite⟩ := htested
  obtain ⟨⟨result, later⟩, final, hrun, hslots⟩ := exists_of_passes _ hwrite
  obtain ⟨-, -, hregisters⟩ := (Engine.session_registers hsession).1 moment (hmoments moment hmem)
    standTask point hpasses
  exact ⟨history, moment, point, result, later, final, hsession, hmoments moment hmem, hpasses,
    hact, hrun, hregisters _ _ _ hact {} result later final hrun, of_decide_eq_true hslots⟩

end ShapeFlow
