import ShapeFlow.Proofs.IntactCopies

/-!
# Writes keep frames intact

The walk that places an object meets every object at most once, so there is room for each of them
(`Frame.place_unbroken`).  A write to a part of a place rebuilds the type of the slot.  The place
leads to an object, as the class of the object has been asked for, and the class declares the part;
so there is something to rebuild, and the result conforms (`Frame.setPlaceType_obeys`).

So the shapes that are admitted make up a lawful regime (`Shapes.lawful`).
-/

namespace ShapeFlow

variable {shapes : Shapes} {declarations : Declarations} {span : Span} {arguments : List TypeId}
  {graph grown : TypeGraph} {frame later : Frame} {operand : Operand}

/-! ## Placing objects -/

theorem Operand.ExistsIn.of_size (hexists : operand.ExistsIn frame)
    (hsize : later.allocations.size = frame.allocations.size) : operand.ExistsIn later := by
  intro id heq
  obtain ⟨object, hobject⟩ := hexists id heq
  have hlt := (Array.getElem?_eq_some_iff.mp hobject).1
  rw [← hsize] at hlt
  exact ⟨_, Array.getElem?_eq_getElem hlt⟩

namespace Placement

variable {size : Nat} {walk : Placement}

/-- The walk has met distinct objects of the frame, and the frame is intact. -/
structure Roams (shapes : Shapes) (graph : TypeGraph) (size : Nat) (walk : Placement) : Prop where
  intact : walk.frame.Intact shapes graph
  kept : walk.frame.allocations.size = size
  nodup : walk.met.Nodup
  present : ∀ id ∈ walk.met, id.index < size

/-- One more object is met. -/
theorem Roams.meet (hroams : walk.Roams shapes graph size) {id : AllocId} {object : Allocation}
    (hobject : walk.frame.allocations[id.index]? = some object)
    (hnew : ¬ walk.met.contains id = true) :
    Roams shapes graph size { walk with met := id :: walk.met } where
  intact := hroams.intact
  kept := hroams.kept
  nodup := List.nodup_cons.mpr ⟨by simpa using hnew, hroams.nodup⟩
  present := List.forall_mem_cons.mpr
    ⟨hroams.kept ▸ (Array.getElem?_eq_some_iff.mp hobject).1, hroams.present⟩

theorem Roams.settle (hroams : walk.Roams shapes graph size) (id : AllocId) (home : AccessPath) :
    (walk.settle id home).Roams shapes graph size :=
  { hroams with
    intact := hroams.intact.update id fun object hobject =>
      ⟨rfl, (hroams.intact.objects _ object hobject).admitted,
        (hroams.intact.objects _ object hobject).parts⟩
    kept := Array.size_modify.trans hroams.kept }

/-- A step of a walk goes on with it, and forgets no object that was met. -/
abbrev RoamsOn (shapes : Shapes) (graph : TypeGraph) (size : Nat) (walk : Placement)
    (outcome : Checked Placement) : Prop :=
  Checked.Unbroken outcome fun later =>
    later.Roams shapes graph size ∧ walk.met.length ≤ later.met.length

theorem visitPart_unbroken {visit : Placement → AllocId → AccessPath → Checked Placement}
    (hroams : walk.Roams shapes graph size) (hexists : operand.ExistsIn walk.frame)
    {target : AccessPath}
    (hvisit : ∀ child, (Operand.fresh child).ExistsIn walk.frame →
      RoamsOn shapes graph size walk (visit walk child target)) :
    RoamsOn shapes graph size walk (visitPart visit walk target operand) := by
  unfold visitPart
  refine (Frame.resolve_unbroken hexists).bind fun resolved hresolved => ?_
  cases resolved with
  | type held => exact ⟨hroams, le_rfl⟩
  | path source =>
    exact ⟨{ hroams with intact := hroams.intact.record target (.path source) }, le_rfl⟩
  | fresh child => exact hvisit child hresolved

/-- There is room for all objects that were not met. -/
theorem visit_unbroken (settling : Bool) (room : Nat) {id : AllocId} {place : AccessPath}
    (hroom : size ≤ room + walk.met.length) (hroams : walk.Roams shapes graph size)
    (hexists : (Operand.fresh id).ExistsIn walk.frame) :
    RoamsOn shapes graph size walk (visit settling room walk id place) := by
  induction room generalizing walk id place with
  | zero =>
    unfold visit
    split
    · exact ⟨hroams, le_rfl⟩
    · rename_i hnew
      refine (Frame.allocation_unbroken hexists).bind fun object hobject => ?_
      -- All objects of the frame were met, and this one was not.
      have hmet := hroams.meet hobject hnew
      have hle := AllocId.length_le_of_nodup hmet.nodup hmet.present
      rw [List.length_cons] at hle
      omega
  | succ room ih =>
    unfold visit
    split
    · exact ⟨hroams, le_rfl⟩
    · rename_i hnew
      refine (Frame.allocation_unbroken hexists).bind fun object hobject => ?_
      have hparts := (hroams.intact.objects _ object hobject).parts
      dsimp only
      refine Checked.Safe.bind (Checked.Safe.foldlM object.fields.entries
        (fun later => later.Roams shapes graph size ∧ walk.met.length + 1 ≤ later.met.length)
        ⟨hroams.meet hobject hnew, le_rfl⟩ fun entry hentry later hlater => ?_)
        fun later hlater => ?_
      · have hheld := hparts _ _ ((object.fields.get?_eq_some_iff entry.1 entry.2).mpr hentry)
        have hpart := hheld.2.of_size (hlater.1.kept.trans hroams.kept.symm)
        refine (visitPart_unbroken hlater.1 hpart fun child hchild =>
          ih (by omega) hlater.1 hchild).mono fun last hlast => ?_
        exact ⟨hlast.1, hlater.2.trans hlast.2⟩
      · have hle := Nat.le_of_succ_le hlater.2
        cases settling with
        | false => exact ⟨hlater.1, hle⟩
        | true => exact ⟨hlater.1.settle id place, hle⟩

end Placement

namespace Frame

theorem place_unbroken (hintact : frame.Intact shapes graph) (settling : Bool) {id : AllocId}
    (target : AccessPath) (hexists : (Operand.fresh id).ExistsIn frame) :
    Checked.Unbroken (frame.place settling id target) (Intact shapes graph) := by
  have hstart : Placement.Roams shapes graph frame.allocations.size { frame } :=
    ⟨hintact, rfl, .nil, nofun⟩
  exact (Placement.visit_unbroken settling frame.allocations.size (Nat.le_add_right _ _) hstart
    hexists).bind fun _ hlater => hlater.1.intact

/-! ## Writing -/

theorem recordOperand_obeys (hsound : frame.Sound graph arguments)
    (hintact : frame.Intact shapes graph) (hconforms : graph.Conforms shapes)
    (target : AccessPath) (hexists : operand.ExistsIn frame) :
    shapes.Obeys graph (recordOperand declarations span target operand frame graph)
      fun _ _ _ => True := by
  cases operand with
  | type held => exact ⟨.refl graph, hconforms, hintact.record target _, trivial⟩
  | path source => exact ⟨.refl graph, hconforms, hintact.record target _, trivial⟩
  | fresh id =>
    unfold recordOperand
    refine .get_bind (.lift_bind (reify_unbroken hsound hintact hconforms hexists) ?_)
    intro type grown hgrows hconforms'
    have hrecorded := (hintact.mono hgrows).record target (.type type)
    refine .modify_bind (.get_bind (.checked_bind hconforms'
      (place_unbroken hrecorded true target hexists) ?_))
    intro later hlater
    exact ⟨.refl grown, hconforms', hlater, trivial⟩

end Frame

/-- A chain that ends at an object can be rebuilt with one more part. -/
theorem TypeGraph.exists_of_classAt? {type : TypeId} {chain : List Selector} {className : String}
    (hclass : graph.classAt? type chain = some className) (last : Selector) (part : TypeId) :
    ∃ result, graph.bindAt? type (chain ++ [last]) part = some result := by
  induction chain generalizing type with
  | nil =>
    obtain ⟨fields, hnode⟩ := className?_eq_some_iff.mp hclass
    exact ⟨_, by rw [List.nil_append, bindAt?, bindField?, hnode]⟩
  | cons selector rest ih =>
    rw [classAt?_cons, Option.bind_eq_some_iff] at hclass
    obtain ⟨inner, hinner, hclass⟩ := hclass
    obtain ⟨rebuilt, hrebuilt⟩ := ih hclass
    obtain ⟨node, hnode, hheld⟩ := field?_eq_some_iff.mp hinner
    cases node with
    | scalar => simp [TypeNode.fields] at hheld
    | object outer fields =>
      refine ⟨rebuilt.2.intern outer (fields.insert selector rebuilt.1), ?_⟩
      rw [List.cons_append, bindAt?_cons (fun _ => hinner) hrebuilt, bindField?,
        (Grows.bindAt? hrebuilt).node? hnode]

namespace Frame

variable {place : AccessPath} {className : String}

/-- The current type of the slot from which a place leads to an object. -/
theorem exists_slotType (hclass : frame.classAt? graph place = some className) :
    ∃ current, frame.slotType place.root = .ok current ∧
      graph.classAt? current place.selectors = some className := by
  unfold classAt? placeType? at hclass
  split at hclass
  · cases hclass
  · rename_i slot hroot
    rw [Option.bind_assoc, Option.bind_eq_some_iff] at hclass
    obtain ⟨current, hcurrent, hclass⟩ := hclass
    exact ⟨current, by rw [hroot, slotType, hcurrent]; rfl, hclass⟩

theorem setPlaceType_obeys (hintact : frame.Intact shapes graph) (hconforms : graph.Conforms shapes)
    (hclass : frame.classAt? graph place = some className) {selector : Selector}
    (hpart : shapes.Part className selector) (part : TypeId) :
    shapes.Obeys graph (setPlaceType span (place.child selector) selector part frame graph)
      fun _ later _ => later.allocations = frame.allocations := by
  obtain ⟨current, hcurrent, hfound⟩ := exists_slotType hclass
  obtain ⟨result, hbind⟩ := TypeGraph.exists_of_classAt? hfound selector part
  have hasked : Checked.Unbroken (frame.slotType (place.child selector).root) (· = current) := by
    rw [show frame.slotType (place.child selector).root = .ok current from hcurrent]
    exact rfl
  unfold setPlaceType
  refine (Discipline.Ends.inspect _ hconforms hasked).run_bind ?_
  rintro _ _ _ - ⟨rfl, rfl, rfl⟩
  refine .getBase_bind ?_
  rw [show (place.child selector).selectors = place.selectors ++ [selector] from rfl, hbind]
  refine ⟨.bindAt? hbind, hconforms.bindAt? ?_ hbind,
    (hintact.mono (.bindAt? hbind)).of_allocations_eq rfl hintact.locals
      (hintact.mono (.bindAt? hbind)).calls, rfl⟩
  intro chain last found heq hlast
  obtain ⟨rfl, hsame⟩ := List.append_inj' heq rfl
  obtain rfl := List.singleton_inj.mp hsame
  exact Option.some.inj (hfound.symm.trans hlast) ▸ hpart

/-- The outcome of a step under the regime. -/
theorem ended_of_runs {α : Type} {step : Framed α} {own : Frame → TypeGraph → List Point}
    {post : α → Frame → TypeGraph → Prop}
    (hruns : shapes.regime.Runs arguments step own frame graph post) :
    shapes.regime.calm.Ends graph (step frame graph) fun result grown =>
      graph.Grows grown ∧ shapes.regime.Stands arguments grown result.2 ∧
        frame.KeepsObjects result.2 ∧ post result.1 result.2 grown := by
  have hends := hruns.ends
  cases hresult : step frame graph with
  | ok result final =>
    rw [hresult] at hends
    exact ⟨trivial, hends⟩
  | error failure final =>
    rw [hresult] at hends
    exact ⟨trivial, hends⟩

section Laws

variable (hstands : shapes.regime.Stands arguments graph frame)

include hstands

/-- The type of an operand is taken. -/
theorem typeOf_ended (hoperand : shapes.regime.Admits arguments graph frame operand) :
    shapes.regime.calm.Ends graph (frame.typeOf declarations span operand graph)
      fun type grown => graph.Grows grown ∧ grown.WellFormed ∧ grown.Has type ∧
        grown.Conforms shapes := by
  have hends : (conforming shapes).Ends graph (frame.typeOf declarations span operand graph)
      fun _ grown => grown.Conforms shapes :=
    typeOf_unbroken hstands.sound hstands.frames hstands.world hoperand.rooted hoperand.fits
  refine Discipline.Ends.under (conforming_refines shapes) (hends.told.mono ?_)
  rintro type grown hgrows ⟨hrun, -, hconforms⟩
  obtain ⟨-, hwell, hhas⟩ :=
    (typeOf_ends hstands.sound hoperand.rooted).of_eq_ok hrun
  exact ⟨hgrows, hwell, hhas, hconforms⟩

/-- The write to a part of a place: the place is vacated, its slot is rebuilt, and the value is
recorded. -/
theorem rewrite_obeys (hplace : place.RootedIn graph arguments)
    (hclass : frame.classAt? graph place = some className) {selector : Selector}
    (hpart : shapes.Part className selector)
    (hoperand : shapes.regime.Admits arguments graph frame operand) :
    shapes.regime.Obeys arguments graph ((do
      let value ← vacate declarations span (place.child selector) operand
      let part ← (← getThe Frame).typeOf declarations span value
      setPlaceType span (place.child selector) selector part
      recordOperand declarations span (place.child selector) value
      pure (.path (place.child selector)) : Framed Operand) frame graph)
      fun written later _ => written.ExistsIn later := by
  have htarget := AccessPath.RootedIn.child hplace selector
  have hselectors := place.child_selectors_ne selector
  refine (ended_of_runs (vacate_runs hstands htarget hoperand)).told.run_bind ?_
  rintro value vacated later - ⟨hvacate, -, hgrows, hstands', -, hvalue⟩
  have hquiet : frame.Quiet vacated := RunsQuietly.run hvacate
  refine .get_bind (.lift_bind (typeOf_ended hstands' hvalue) ?_)
  rintro part typed - ⟨hgrows', hwell, hhas, hconforms⟩
  have hsound := hstands'.sound.mono hgrows' hwell
  -- Vacating the place leaves its class, which is that of the object around it.
  have hfound : vacated.classAt? typed place = some className := by
    rw [classAt?_eq_of_grows hstands'.sound.grounded hgrows', classAt?_eq_of_slots hquiet.slots,
      classAt?_eq_of_grows hstands.sound.grounded hgrows, hclass]
  have hset : shapes.regime.calm.Ends typed
      (setPlaceType span (place.child selector) selector part vacated typed) fun result grown =>
        typed.Grows grown ∧ grown.Conforms shapes ∧ result.2.Intact shapes grown ∧
          result.2.allocations = vacated.allocations :=
    Discipline.Ends.under (conforming_refines shapes)
      ((setPlaceType_obeys (hstands'.frames.mono hgrows') hconforms hfound hpart part).mono
        fun _ _ hgrows hpost => ⟨hgrows, hpost⟩)
  refine hset.told.run_bind ?_
  rintro _ placed grown - ⟨hrun, -, hgrown, hconforms', hintact, hsame⟩
  obtain ⟨-, hplaced, -⟩ := (setPlaceType_keeps hsound hselectors selector hhas).of_eq_ok hrun
  have hexists : value.ExistsIn placed :=
    Operand.ExistsIn.of_size hvalue.fits (congrArg Array.size hsame)
  refine (Discipline.Ends.under (conforming_refines shapes)
    (recordOperand_obeys hplaced hintact hconforms' (place.child selector) hexists)).run_bind ?_
  rintro _ recorded final - ⟨hconforms'', hintact', -⟩
  exact .run_pure ⟨hconforms'', hintact', Operand.existsIn_path recorded _⟩

theorem write_obeys (hallowed : shapes.Admit declarations) {base : Operand} {selector : Selector}
    (hbase : shapes.regime.Admits arguments graph frame base)
    (hoperand : shapes.regime.Admits arguments graph frame operand) :
    shapes.regime.Obeys arguments graph
      (write declarations span base selector operand frame graph)
      fun written later _ => written.ExistsIn later := by
  unfold write
  refine (Discipline.Ends.inspect _ hstands.world
    (resolved_unbroken hstands.sound hbase.rooted hbase.fits)).run_bind ?_
  rintro base _ _ - ⟨rfl, rfl, hrooted, hexists⟩
  refine (Discipline.Ends.inspect _ hstands.world
    (resolved_unbroken hstands.sound hoperand.rooted hoperand.fits)).run_bind ?_
  rintro value _ _ - ⟨rfl, rfl, hvalue⟩
  refine (Discipline.Ends.inspect _ hstands.world
    (classOf?_unbroken hstands.sound hrooted hexists).told).run_bind ?_
  rintro className? _ _ - ⟨rfl, rfl, hclassOf, -⟩
  cases className? with
  | none => exact .reject hstands.world trivial
  | some className =>
    have hisOf : frame.IsOf graph className base := isOf_of_classOf? hclassOf
    dsimp only
    split
    · rename_i hdeclares
      have hpart := hallowed.parts className selector hdeclares
      cases base with
      | type held => exact .run_pure ⟨hstands.world, hstands.frames, hvalue.2⟩
      | path place => exact rewrite_obeys hstands hrooted hisOf hpart ⟨hvalue.1, hvalue.2⟩
      | fresh id =>
        obtain ⟨object, hobject, rfl⟩ := hisOf
        refine (ended_of_runs (setPart_runs hstands hobject hpart
          ⟨hvalue.1, hvalue.2⟩)).run_bind ?_
        rintro _ changed later - ⟨-, hstands', hkeeps, -⟩
        exact .run_pure ⟨hstands'.world, hstands'.frames, Operand.ExistsIn.kept hvalue.2 hkeeps⟩
    · exact .reject hstands.world trivial

/-! ## Telling operands to the callers -/

theorem currentType_obeys (hoperand : shapes.regime.Admits arguments graph frame operand) :
    shapes.regime.Obeys arguments graph (currentType declarations span operand frame graph)
      fun _ _ _ => True := by
  refine .get_bind ((Discipline.Ends.lift (typeOf_ended hstands hoperand)).mono ?_)
  rintro ⟨type, changed⟩ grown - ⟨rfl, hgrows, -, -, hconforms⟩
  exact ⟨hconforms, hstands.frames.mono hgrows, trivial⟩

theorem reify_ended {id : AllocId} (hexists : (Operand.fresh id).ExistsIn frame) :
    shapes.regime.calm.Ends graph (frame.reify declarations span id graph)
      fun _ grown => graph.Grows grown ∧ grown.Conforms shapes :=
  Discipline.Ends.under (conforming_refines shapes)
    ((reify_unbroken hstands.sound hstands.frames hstands.world hexists).mono
      fun _ _ hgrows hconforms => ⟨hgrows, hconforms⟩)

theorem express_obeys (hoperand : shapes.regime.Admits arguments graph frame operand) :
    shapes.regime.Obeys arguments graph (express declarations span operand frame graph)
      fun _ _ _ => True := by
  unfold express
  refine (Discipline.Ends.inspect _ hstands.world (resolve_unbroken hoperand.fits)).run_bind ?_
  rintro resolved _ _ - ⟨rfl, rfl, hexists⟩
  cases resolved with
  | type held => exact .run_pure ⟨hstands.world, hstands.frames, trivial⟩
  | path place => exact .run_pure ⟨hstands.world, hstands.frames, trivial⟩
  | fresh id =>
    refine .get_bind (.lift_bind (reify_ended hstands hexists) ?_)
    rintro type grown - ⟨hgrows, hconforms⟩
    exact .run_pure ⟨hconforms, hstands.frames.mono hgrows, trivial⟩

theorem expressResult_ended (hoperand : shapes.regime.Admits arguments graph frame operand) :
    shapes.regime.calm.Ends graph (expressResult declarations span operand frame graph)
      fun _ grown => grown.Conforms shapes := by
  have htold : ∀ resolved : Operand, shapes.regime.Admits arguments graph frame resolved →
      shapes.regime.calm.Ends graph (express declarations span resolved frame graph)
        fun _ grown => grown.Conforms shapes :=
    fun resolved hresolved => (express_obeys hstands hresolved).mono fun _ _ _ hpost => hpost.1
  unfold expressResult
  refine (Discipline.Ends.inspect _ hstands.world
    (resolved_unbroken hstands.sound hoperand.rooted hoperand.fits)).run_bind ?_
  rintro resolved _ _ - ⟨rfl, rfl, hrooted, hexists⟩
  cases resolved with
  | type held => exact htold (.type held) ⟨hrooted, hexists⟩
  | path place => exact htold (.path place) ⟨hrooted, hexists⟩
  | fresh id =>
    refine .get_bind (.lift_bind (reify_ended hstands hexists) ?_)
    rintro type grown - ⟨hgrows, hconforms⟩
    refine .get_bind (.checked_bind hconforms
      (place_unbroken (hstands.frames.mono hgrows) false _ hexists) ?_)
    intro placed _
    exact ⟨trivial, hconforms⟩

end Laws

end Frame

/-! ## The regime -/

/-- Where what is declared is admitted, all steps of a body keep graphs conforming and frames
intact, and fail only by rejecting the program. -/
theorem Shapes.lawful (hallowed : shapes.Admit declarations) :
    shapes.regime.Lawful declarations where
  rejected _ := trivial
  start _ _ _ := Frame.intact_start shapes _ _
  grown hstands hgrows _ := Frame.Intact.mono hstands.frames hgrows
  fits_kept _ _ hkeeps hadmits := Operand.ExistsIn.kept hadmits.fits hkeeps
  suits_kept _ _ hkeeps htakes := Operand.ExistsIn.kept htakes.suits hkeeps
  suits _ hadmits := hadmits.fits
  typed _ _ := Operand.existsIn_type _ _
  scalar _ _ := Operand.existsIn_type _ _
  object _ hobject := Operand.existsIn_fresh hobject
  heldLocal hstands hlocal := Frame.Intact.locals hstands.frames _ _ hlocal
  slotOperand hstands hpositive hslot :=
    Frame.slotOperand_unbroken hstands.sound hpositive hslot
  resolve _ hadmits := Frame.resolve_unbroken hadmits.fits
  classOf? _ hstands hadmits := Frame.classOf?_unbroken hstands.sound hadmits.rooted hadmits.fits
  read _ selector hstands hadmits := Frame.read_unbroken hstands.sound hstands.frames hstands.world
    hadmits.rooted hadmits.fits selector
  expand? hstands hhas :=
    (Frame.expand?_unbroken hstands.frames hstands.world hhas).mono fun _ hpost =>
      ⟨hpost.1, hpost.2.2⟩
  setLocal name hstands hadmits := Frame.Intact.setLocal hstands.frames name hadmits.fits
  allocate hstands hdeclared := Frame.Intact.allocate hstands.frames
    ⟨hallowed.classes _ hdeclared, fun _ _ hpart => absurd hpart (by simp)⟩ rfl
  setElement hstands hobject hclass hadmits :=
    (Frame.setPart_unbroken hstands.frames hobject (by rw [hclass]; exact hallowed.elements)
      hadmits.fits).mono fun _ hpost => hpost.1
  recordCall hstands htypes := Frame.Intact.recordCall hstands.frames htypes
  currentType _ hstands hadmits := Frame.currentType_obeys hstands hadmits
  express _ hstands hadmits := Frame.express_obeys hstands hadmits
  expressResult _ hstands hadmits := Frame.expressResult_ended hstands hadmits
  write _ _ hstands hbase hvalue := (Frame.write_obeys hstands hallowed hbase
    ⟨hvalue.rooted, hvalue.suits⟩).mono fun _ _ _ hpost => ⟨hpost.1, hpost.2.1, fun _ => hpost.2.2⟩

end ShapeFlow
