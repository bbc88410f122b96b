import ShapeFlow.Proofs.FrameSteps

/-!
# Writes keep frames sound

A write to a part of a place moves operands about in the whole frame: what stood at the
place is copied, operands that were told by the place are rebound to the copy, and the
object that is written is walked through and given homes.  None of this invents a place.  The
operands of a copy come from parts that the frame held before, and each home and each
recorded target extends the place that is written.

A walk through a returned object records targets in the result slot.  `Frame.Records` says of
a walk what it adds to the record, for walks of both kinds.
-/

namespace ShapeFlow

variable {graph : TypeGraph} {arguments : List TypeId} {frame : Frame}
  {declarations : Declarations} {span : Span}

/-! ## Vacating a place -/

namespace Frame

/-- The copies that a step makes hold only places that are rooted in the arguments. -/
def CopiesSoundly (arguments : List TypeId) (copy : AccessPath → Framed Operand) : Prop :=
  ∀ place frame graph, Frame.Sound graph arguments frame →
    Keeps graph arguments (copy place frame graph) fun operand grown =>
      operand.RootedIn grown arguments

/-- The operands of a field map are rooted in the arguments. -/
def RootedParts (graph : TypeGraph) (arguments : List TypeId)
    (fields : OrderedMap Selector Operand) : Prop :=
  ∀ selector operand, fields.get? selector = some operand → operand.RootedIn graph arguments

theorem isCurrent_keeps (hsound : frame.Sound graph arguments) {base : AccessPath}
    {operand : Operand} (hrooted : operand.RootedIn graph arguments) (part : TypeId) :
    Keeps graph arguments (isCurrent declarations span base operand part frame graph)
      fun _ _ => True := by
  unfold isCurrent
  split
  · exact .run_pure ⟨hsound, trivial⟩
  · refine .get_bind (.lift_bind (typeOf_ends hsound hrooted) ?_)
    intro type grown hgrows hpost
    obtain ⟨hwell, -⟩ := hpost
    exact .run_pure ⟨hsound.mono hgrows hwell, trivial⟩

theorem keptPart_keeps (hsound : frame.Sound graph arguments) {base : AccessPath}
    {existing? : Option AllocId} {selector : Selector} {part : TypeId} (hpart : graph.Has part) :
    Keeps graph arguments (keptPart declarations span base existing? selector part frame graph)
      fun operand grown => operand.RootedIn grown arguments := by
  have hwell := hsound.wellFormed
  unfold keptPart
  refine (Discipline.Ends.inspect (fun previous? =>
    ∀ previous, previous? = some previous → previous.RootedIn graph arguments) hwell ?_).run_bind ?_
  · cases existing? with
    | none => exact fun previous hprevious => nomatch hprevious
    | some id =>
      refine (frame.allocation_safe id).bind fun object hobject => ?_
      exact fun previous hprevious =>
        (hsound.objects id.index object hobject).parts selector previous hprevious
  · intro previous? changed later _ hpost
    obtain ⟨rfl, rfl, hprevious⟩ := hpost
    cases previous? with
    | none => exact .run_pure ⟨hsound, hpart⟩
    | some previous =>
      have hrooted := hprevious previous rfl
      refine (isCurrent_keeps hsound hrooted part).run_bind ?_
      intro current changed later hgrows hpost
      obtain ⟨hlater, -⟩ := hpost
      cases current with
      | false => exact .run_pure ⟨hlater, hgrows.has hpart⟩
      | true => exact .run_pure ⟨hlater, hrooted.mono hgrows⟩

theorem copyParts_keeps (hsound : frame.Sound graph arguments) {base : AccessPath}
    {leaving : List (AllocId × AccessPath)} {copy : AccessPath → Framed Operand}
    (hcopy : CopiesSoundly arguments copy) (existing? : Option AllocId) (place : AccessPath) :
    Keeps graph arguments
      (copyParts declarations span base leaving copy existing? place frame graph)
      fun fields grown => RootedParts grown arguments fields := by
  have hwell := hsound.wellFormed
  unfold copyParts
  refine (Discipline.Ends.inspect _ hwell (hsound.placeType place)).run_bind ?_
  intro type changed later _ hpost
  obtain ⟨rfl, rfl, -⟩ := hpost
  refine (Discipline.Ends.inspect _ hwell (graph.node_safe type)).run_bind ?_
  intro node changed later _ hpost
  obtain ⟨rfl, rfl, hnode⟩ := hpost
  refine (Discipline.Ends.mapM node.fields.entries
    (fun changed later => graph.Grows later ∧ changed.Sound later arguments)
    (fun entry copied later => copied.1 = entry.1 ∧ copied.2.RootedIn later arguments)
    ⟨.refl graph, hsound⟩ ?_ ?_).run_bind ?_
  · intro entry copied earlier later hgrows hpost
    obtain ⟨hkey, hrooted⟩ := hpost
    exact ⟨hkey, hrooted.mono hgrows⟩
  · intro result hentry changed later hpost
    obtain ⟨selector, part⟩ := result
    obtain ⟨hgrows, hchanged⟩ := hpost
    have hpart := hwell.closed hnode ((node.fields.get?_eq_some_iff selector part).mpr hentry)
    dsimp only
    split
    · refine (hcopy (place.child selector) changed later hchanged).run_bind ?_
      intro operand last final hgrows' hpost
      obtain ⟨hlast, hrooted⟩ := hpost
      exact .run_pure ⟨⟨hgrows.trans hgrows', hlast⟩, rfl, hrooted⟩
    · refine (keptPart_keeps hchanged (hgrows.has hpart)).run_bind ?_
      intro operand last final hgrows' hpost
      obtain ⟨hlast, hrooted⟩ := hpost
      exact .run_pure ⟨⟨hgrows.trans hgrows', hlast⟩, rfl, hrooted⟩
  · intro parts changed later _ hpost
    obtain ⟨⟨-, hchanged⟩, hparts⟩ := hpost
    refine .run_pure ⟨hchanged, fun selector operand hoperand => ?_⟩
    obtain ⟨-, -, hrooted⟩ := OrderedMap.exists_of_get?_images _ node.fields hparts hoperand
    exact hrooted

theorem copyAt_keeps (hsound : frame.Sound graph arguments) {base : AccessPath}
    {leaving : List (AllocId × AccessPath)} {inner : AccessPath → Framed Operand}
    (hinner : CopiesSoundly arguments inner) (place : AccessPath) :
    Keeps graph arguments (copyAt declarations span base leaving inner place frame graph)
      fun operand grown => operand.RootedIn grown arguments := by
  have hwell := hsound.wellFormed
  unfold copyAt
  cases leaving.find? fun resident => resident.2 = place with
  | some resident =>
    obtain ⟨id, home⟩ := resident
    exact .run_pure ⟨hsound, trivial⟩
  | none =>
    refine (Discipline.Ends.inspect _ hwell (hsound.placeType place)).run_bind ?_
    intro type changed later _ hpost
    obtain ⟨rfl, rfl, hhas⟩ := hpost
    refine (Discipline.Ends.inspect _ hwell (graph.node_safe type)).run_bind ?_
    intro node changed later _ hpost
    obtain ⟨rfl, rfl, -⟩ := hpost
    cases node with
    | scalar => exact .run_pure ⟨hsound, hhas⟩
    | object className fields =>
      refine (copyParts_keeps hsound hinner none place).run_bind ?_
      intro fields changed later _ hpost
      obtain ⟨hchanged, hfields⟩ := hpost
      exact .run_pure ⟨hchanged.allocate ⟨hfields, fun home hhome => nomatch hhome⟩, trivial⟩

theorem copy_keeps {base : AccessPath} {leaving : List (AllocId × AccessPath)} (room : Nat) :
    CopiesSoundly arguments (copy declarations span base leaving room) := by
  induction room with
  | zero =>
    intro place frame graph hsound
    exact copyAt_keeps hsound (fun _ _ _ hinner => .broken hinner.wellFormed trivial) place
  | succ room ih =>
    intro place frame graph hsound
    exact copyAt_keeps hsound ih place

theorem retrace_keeps (hsound : frame.Sound graph arguments) {root : Operand}
    (hroot : root.RootedIn graph arguments) (base place : AccessPath) :
    Keeps graph arguments (retrace declarations span root base place frame graph)
      fun operand grown => operand.RootedIn grown arguments := by
  unfold retrace
  cases place.below? base with
  | none => exact .broken hsound.wellFormed trivial
  | some selectors =>
    exact readAlong_keeps hsound hroot selectors

theorem RootedParts.mono {grown : TypeGraph} {fields : OrderedMap Selector Operand}
    (hfields : RootedParts graph arguments fields) (hgrows : graph.Grows grown) :
    RootedParts grown arguments fields := fun selector operand hoperand =>
  (hfields selector operand hoperand).mono hgrows

theorem Sound.release (hsound : frame.Sound graph arguments) (id : AllocId)
    {fields : OrderedMap Selector Operand} (hfields : RootedParts graph arguments fields) :
    (frame.release id fields).Sound graph arguments :=
  hsound.update id fun _ _ => ⟨hfields, fun _ hhome => nomatch hhome⟩

theorem Operand.placeWithin?_eq {base place : AccessPath} {operand : Operand}
    (hplace : operand.placeWithin? base = some place) : operand = .path place := by
  unfold Operand.placeWithin? at hplace
  split at hplace
  · split at hplace
    · exact congrArg Operand.path (Option.some.inj hplace)
    · simp at hplace
  · simp at hplace
  · simp at hplace

/-- After the copy is made, everything told by the place is rebound to it. -/
theorem vacate_keeps (hsound : frame.Sound graph arguments) (base : AccessPath) {value : Operand}
    (hvalue : value.RootedIn graph arguments) :
    Keeps graph arguments (vacate declarations span base value frame graph) fun operand grown =>
      operand.RootedIn grown arguments := by
  unfold vacate
  refine .get_bind ?_
  dsimp only
  split
  · exact .run_pure ⟨hsound, hvalue⟩
  -- The parts of all residents are copied before the first of them is released.
  · refine (Discipline.Ends.mapM_forall (frame.residents base)
      (fun changed later => graph.Grows later ∧ changed.Sound later arguments)
      (fun rebuilt later => RootedParts later arguments rebuilt.2)
      ⟨.refl graph, hsound⟩ ?_ ?_).run_bind ?_
    · intro rebuilt earlier later hgrows hfields
      exact hfields.mono hgrows
    · intro resident _ changed later hpost
      obtain ⟨hgrows, hchanged⟩ := hpost
      refine (copyParts_keeps hchanged (copy_keeps _) (some resident.1) resident.2).run_bind ?_
      intro fields last final hgrows' hpost
      obtain ⟨hlast, hfields⟩ := hpost
      exact .run_pure ⟨⟨hgrows.trans hgrows', hlast⟩, hfields⟩
    intro rebuilt changed later _ hpost
    obtain ⟨⟨hgrows, hchanged⟩, -, hrebuilt⟩ := hpost
    refine (copy_keeps _ base changed later hchanged).run_bind ?_
    intro root copied grown hgrown hpost
    obtain ⟨hcopied, hroot⟩ := hpost
    have hrebound : ∀ final, grown.Grows final → root.RootedIn final arguments :=
      fun final hfinal => hroot.mono hfinal
    -- Graphs only grow from here on, so the copy stays rooted through the three loops.
    refine (Discipline.Ends.forM rebuilt (fun frame final =>
      grown.Grows final ∧ frame.Sound final arguments) ⟨.refl grown, hcopied⟩ ?_).run_bind ?_
    · intro object hobject changed final hpost
      obtain ⟨hfinal, hchanged⟩ := hpost
      refine ⟨.refl final, hfinal, hchanged.release object.1 ?_⟩
      exact (hrebuilt object hobject).mono (hgrown.trans hfinal)
    intro _ released final _ hpost
    obtain ⟨hfinal, hreleased⟩ := hpost
    refine (Discipline.Ends.forM (frame.localsWithin base) (fun frame final =>
      grown.Grows final ∧ frame.Sound final arguments) ⟨hfinal, hreleased⟩ ?_).run_bind ?_
    · intro binding _ changed final hpost
      obtain ⟨hfinal, hchanged⟩ := hpost
      refine (retrace_keeps hchanged (hrebound final hfinal) base binding.2).run_bind ?_
      intro operand last later hgrows' hpost
      obtain ⟨hlast, hoperand⟩ := hpost
      exact ⟨.refl later, hfinal.trans hgrows', hlast.setLocal binding.1 hoperand⟩
    intro _ renamed final _ hpost
    obtain ⟨hfinal, hrenamed⟩ := hpost
    refine .get_bind ((Discipline.Ends.forM (renamed.partsWithin base) (fun frame final =>
      grown.Grows final ∧ frame.Sound final arguments) ⟨hfinal, hrenamed⟩ ?_).run_bind ?_)
    · intro part _ changed final hpost
      obtain ⟨hfinal, hchanged⟩ := hpost
      refine (retrace_keeps hchanged (hrebound final hfinal) base part.2.2).run_bind ?_
      intro operand last later hgrows' hpost
      obtain ⟨hlast, hoperand⟩ := hpost
      refine (setPart_keeps hlast part.1 part.2.1 hoperand).mono ?_
      intro result final hgrown' hpost
      obtain ⟨hset, -⟩ := hpost
      exact ⟨(hfinal.trans hgrows').trans hgrown', hset⟩
    intro _ rebound final _ hpost
    obtain ⟨hfinal, hbound⟩ := hpost
    -- The value to be written may itself be told by the place.
    cases hplace : value.placeWithin? base with
    | none =>
      exact .run_pure ⟨hbound, hvalue.mono (hgrows.trans (hgrown.trans hfinal))⟩
    | some place => exact retrace_keeps hbound (hrebound final hfinal) base place

end Frame

/-! ## Placing an object -/

namespace Frame

/-- What a walk through an object adds to the record: writes below the root, each with a
place as its value.  But for the record the frame stays sound. -/
def Records (graph : TypeGraph) (arguments : List TypeId) (root : Nat) (frame later : Frame) :
    Prop :=
  ({ later with writes := frame.writes } : Frame).Sound graph arguments ∧
    ∃ writes : List Write, later.writes = frame.writes ++ writes ∧
      ∀ write ∈ writes, write.target.root = root ∧ write.target.selectors ≠ [] ∧
        ∃ source : AccessPath, write.value = .path source ∧ source.RootedIn graph arguments

theorem Records.refl (hsound : frame.Sound graph arguments) (root : Nat) :
    frame.Records graph arguments root frame :=
  ⟨hsound, [], by simp, by simp⟩

theorem Records.record {later : Frame} {root : Nat}
    (hrecords : frame.Records graph arguments root later) {target source : AccessPath}
    (htarget : target.root = root) (hselectors : target.selectors ≠ [])
    (hsource : source.RootedIn graph arguments) :
    frame.Records graph arguments root (later.record target (.path source)) := by
  obtain ⟨hsound, writes, hwrites, hall⟩ := hrecords
  refine ⟨hsound, writes ++ [⟨target, .path source⟩], ?_, ?_⟩
  · simp [Frame.record, hwrites]
  · intro write hmem
    rcases List.mem_append.mp hmem with hmem | hmem
    · exact hall write hmem
    · obtain rfl := List.mem_singleton.mp hmem
      exact ⟨htarget, hselectors, source, rfl, hsource⟩

theorem Records.settle {walk : Placement} {root : Nat}
    (hrecords : frame.Records graph arguments root walk.frame) (id : AllocId)
    {home : AccessPath} (hhome : home.RootedIn graph arguments) :
    frame.Records graph arguments root (walk.settle id home).frame := by
  obtain ⟨hsound, hwrites⟩ := hrecords
  have hsettled : ∀ object : Allocation, object.RootedIn graph arguments →
      ({ object with home? := some home } : Allocation).RootedIn graph arguments :=
    fun object hobject => ⟨hobject.parts, fun other hother => Option.some.inj hother ▸ hhome⟩
  exact ⟨hsound.update id hsettled, hwrites⟩

/-- A record below an argument is one that the frame may have. -/
theorem Records.sound {later : Frame} {target : AccessPath}
    (hrecords : frame.Records graph arguments target.root later)
    (hsound : frame.Sound graph arguments) (htarget : target.RootedIn graph arguments) :
    later.Sound graph arguments := by
  obtain ⟨hlater, writes, hwrites, hall⟩ := hrecords
  refine { hlater with writes := fun write hmem => ?_ }
  rw [hwrites] at hmem
  rcases List.mem_append.mp hmem with hmem | hmem
  · exact hsound.writes write hmem
  · obtain ⟨hroot, hselectors, source, hsource, hrooted⟩ := hall write hmem
    exact ⟨htarget.of_root_eq hroot, hselectors, hsource ▸ hrooted⟩

theorem visitPart_safe {root : Nat}
    {visit : Placement → AllocId → AccessPath → Checked Placement} {walk : Placement}
    (hvisit : ∀ walk id place, place.root = root →
      frame.Records graph arguments root walk.frame →
      Checked.Harmless (visit walk id place) fun later =>
        frame.Records graph arguments root later.frame)
    (hrecords : frame.Records graph arguments root walk.frame) {target : AccessPath}
    (htarget : target.root = root) (hselectors : target.selectors ≠ []) {operand : Operand}
    (hrooted : operand.RootedIn graph arguments) :
    Checked.Harmless (Placement.visitPart visit walk target operand) fun later =>
      frame.Records graph arguments root later.frame := by
  unfold Placement.visitPart
  refine Checked.Safe.bind (hrecords.1.resolve hrooted) fun resolved hresolved => ?_
  cases resolved with
  | type held => exact hrecords
  | path source => exact hrecords.record htarget hselectors hresolved
  | fresh child => exact hvisit walk child target htarget hrecords

theorem visit_safe {settling : Bool} (room : Nat) (walk : Placement) (id : AllocId)
    (place : AccessPath) (hsettling : settling = true → place.RootedIn graph arguments)
    (hrecords : frame.Records graph arguments place.root walk.frame) :
    Checked.Harmless (Placement.visit settling room walk id place) fun later =>
      frame.Records graph arguments place.root later.frame := by
  induction room generalizing walk id place with
  | zero =>
    unfold Placement.visit
    split
    · exact hrecords
    · exact (walk.frame.allocation_safe id).bind fun _ _ => trivial
  | succ room ih =>
    unfold Placement.visit
    split
    · exact hrecords
    · refine (walk.frame.allocation_safe id).bind fun object hobject => ?_
      have hparts := (hrecords.1.objects id.index object hobject).parts
      dsimp only
      refine Checked.Safe.bind (Checked.Safe.foldlM object.fields.entries (fun later =>
        frame.Records graph arguments place.root later.frame) hrecords
        fun entry hentry later hlater => ?_) fun later hlater => ?_
      -- A walk never leaves the slot in which it began.
      · have hroot : (place.child entry.1).root = place.root := rfl
        refine visitPart_safe (fun walk child target htarget hwalk => ?_) hlater hroot
          (place.child_selectors_ne entry.1)
          (hparts entry.1 entry.2 ((object.fields.get?_eq_some_iff entry.1 entry.2).mpr hentry))
        rw [← htarget] at hwalk ⊢
        exact ih walk child target (fun htrue => (hsettling htrue).of_root_eq htarget) hwalk
      · cases settling with
        | false => exact hlater
        | true => exact hlater.settle id (hsettling rfl)

theorem place_safe (hsound : frame.Sound graph arguments) {settling : Bool} (id : AllocId)
    (target : AccessPath) (hsettling : settling = true → target.RootedIn graph arguments) :
    Checked.Harmless (frame.place settling id target)
      (frame.Records graph arguments target.root) :=
  (visit_safe frame.allocations.size { frame } id target hsettling (.refl hsound target.root)).bind
    fun _ hlater => hlater

/-! ## Writing -/

theorem recordOperand_keeps (hsound : frame.Sound graph arguments) {target : AccessPath}
    (htarget : target.RootedIn graph arguments) (hselectors : target.selectors ≠ [])
    {operand : Operand} (hrooted : operand.RootedIn graph arguments) :
    Keeps graph arguments (recordOperand declarations span target operand frame graph)
      fun _ _ => True := by
  cases operand with
  | type held =>
    exact ⟨.refl graph, hsound.record ⟨htarget, hselectors, hrooted⟩, trivial⟩
  | path source =>
    exact ⟨.refl graph, hsound.record ⟨htarget, hselectors, hrooted⟩, trivial⟩
  | fresh id =>
    unfold recordOperand
    refine .get_bind (.lift_bind (reify_ends hsound id) ?_)
    intro type grown hgrows hpost
    obtain ⟨hwell, htype⟩ := hpost
    have hwrite : Write.RootedIn grown arguments ⟨target, .type type⟩ :=
      ⟨htarget.mono hgrows, hselectors, htype.1⟩
    have hrecorded := (hsound.mono hgrows hwell).record hwrite
    refine .modify_bind (.get_bind (.checked_bind hwell
      (place_safe hrecorded id target fun _ => htarget.mono hgrows) ?_))
    intro later hlater
    exact ⟨.refl grown, hlater.sound hrecorded (htarget.mono hgrows), trivial⟩

theorem setPlaceType_keeps (hsound : frame.Sound graph arguments) {target : AccessPath}
    (hselectors : target.selectors ≠ []) (selector : Selector) {part : TypeId}
    (hpart : graph.Has part) :
    Keeps graph arguments (setPlaceType span target selector part frame graph)
      fun _ _ => True := by
  have hwell := hsound.wellFormed
  unfold setPlaceType
  refine (Discipline.Ends.inspect _ hwell (frame.slotType_safe target.root)).run_bind ?_
  intro current changed later _ hpost
  obtain ⟨rfl, rfl, -, hcurrent⟩ := hpost
  refine .getBase_bind ?_
  cases hbind : graph.bindAt? current target.selectors part with
  | none => exact .reject hwell (harmless_cause (by simp))
  | some result =>
    obtain ⟨updated, grown⟩ := result
    obtain ⟨className, hclass, hadds⟩ := TypeGraph.bindAt?_adds hwell hpart hselectors hbind
    have hhas := TypeGraph.has_of_className? hclass
    refine ⟨hadds.grows, (hsound.mono hadds.grows hadds.wellFormed).setSlot hcurrent hadds.has ?_,
      trivial⟩
    rw [hadds.className?, hadds.grows.className?_eq hhas, hclass]

theorem write_keeps (hsound : frame.Sound graph arguments) {base value : Operand}
    (hbase : base.RootedIn graph arguments) (selector : Selector)
    (hvalue : value.RootedIn graph arguments) :
    Keeps graph arguments (write declarations span base selector value frame graph)
      fun operand grown => operand.RootedIn grown arguments := by
  have hwell := hsound.wellFormed
  unfold write
  refine (Discipline.Ends.inspect _ hwell (hsound.resolve hbase)).run_bind ?_
  intro base changed later _ hpost
  obtain ⟨rfl, rfl, hbase⟩ := hpost
  refine (Discipline.Ends.inspect _ hwell (hsound.resolve hvalue)).run_bind ?_
  intro value changed later _ hpost
  obtain ⟨rfl, rfl, hvalue⟩ := hpost
  refine (Discipline.Ends.inspect _ hwell (hsound.classOf? base)).run_bind ?_
  intro className? changed later _ hpost
  obtain ⟨rfl, rfl, -⟩ := hpost
  cases className? with
  | none => exact .reject hwell (harmless_cause (by simp))
  | some className =>
    dsimp only
    split
    · cases base with
      | type held => exact .run_pure ⟨hsound, hvalue⟩
      | fresh id =>
        refine (setPart_keeps hsound id selector hvalue).run_bind ?_
        intro _ changed later hgrows hpost
        obtain ⟨hset, -⟩ := hpost
        exact .run_pure ⟨hset, hvalue.mono hgrows⟩
      | path place =>
        have htarget := AccessPath.RootedIn.child hbase selector
        have hselectors := place.child_selectors_ne selector
        -- What is told by the place leaves it first; then the slot gets its new type, and the
        -- write is recorded.
        refine (vacate_keeps hsound (place.child selector) hvalue).run_bind ?_
        intro value vacated later hgrows hpost
        obtain ⟨hvacated, hvalue⟩ := hpost
        refine .get_bind (.lift_bind (typeOf_ends hvacated hvalue) ?_)
        intro part typed hgrows' hpost
        obtain ⟨hwell', hpart⟩ := hpost
        refine (setPlaceType_keeps (hvacated.mono hgrows' hwell') hselectors selector
          hpart).run_bind ?_
        intro _ placed grown hgrown hpost
        obtain ⟨hplaced, -⟩ := hpost
        have htarget' := ((htarget.mono hgrows).mono hgrows').mono hgrown
        refine (recordOperand_keeps hplaced htarget' hselectors
          ((hvalue.mono hgrows').mono hgrown)).run_bind ?_
        intro _ recorded final hfinal hpost
        obtain ⟨hrecorded, -⟩ := hpost
        exact .run_pure ⟨hrecorded, htarget'.mono hfinal⟩
    · exact .reject hwell (harmless_cause (by simp))

theorem writeAlong_keeps (hsound : frame.Sound graph arguments) {base value : Operand}
    (hbase : base.RootedIn graph arguments) (selectors : List Selector)
    (hvalue : value.RootedIn graph arguments) :
    Keeps graph arguments (writeAlong declarations span base selectors value frame graph)
      fun _ _ => True := by
  unfold writeAlong
  cases selectors.getLast? with
  | none => exact .run_pure ⟨hsound, trivial⟩
  | some last =>
    refine (readAlong_keeps hsound hbase selectors.dropLast).run_bind ?_
    intro object changed later hgrows hpost
    obtain ⟨hchanged, hobject⟩ := hpost
    refine (write_keeps hchanged hobject last (hvalue.mono hgrows)).run_bind ?_
    intro _ written grown _ hpost
    obtain ⟨hwritten, -⟩ := hpost
    exact .run_pure ⟨hwritten, trivial⟩

/-! ## Telling operands to the callers -/

theorem currentType_keeps (hsound : frame.Sound graph arguments) {operand : Operand}
    (hrooted : operand.RootedIn graph arguments) :
    Keeps graph arguments (currentType declarations span operand frame graph)
      fun type grown => grown.Has type := by
  refine .get_bind ((Discipline.Ends.lift (typeOf_ends hsound hrooted)).mono ?_)
  intro result grown hgrows hpost
  obtain ⟨type, changed⟩ := result
  obtain ⟨rfl, hwell, hhas⟩ := hpost
  exact ⟨hsound.mono hgrows hwell, hhas⟩

theorem express_keeps (hsound : frame.Sound graph arguments) {operand : Operand}
    (hrooted : operand.RootedIn graph arguments) :
    Keeps graph arguments (express declarations span operand frame graph)
      fun value grown => value.RootedIn grown arguments := by
  have hwell := hsound.wellFormed
  unfold express
  refine (Discipline.Ends.inspect _ hwell (hsound.resolve hrooted)).run_bind ?_
  intro operand changed later _ hpost
  obtain ⟨rfl, rfl, hrooted⟩ := hpost
  cases operand with
  | type held => exact .run_pure ⟨hsound, hrooted⟩
  | path place => exact .run_pure ⟨hsound, hrooted⟩
  | fresh id =>
    refine .get_bind (.lift_bind (reify_ends hsound id) ?_)
    intro type grown hgrows hpost
    obtain ⟨hwell, htype⟩ := hpost
    exact .run_pure ⟨hsound.mono hgrows hwell, htype.1⟩

end Frame

/-- A write that says that the returned object holds something of the caller's. -/
structure Write.OfResult (graph : TypeGraph) (arguments : List TypeId) (write : Write) :
    Prop where
  target : write.target.root = AccessPath.resultSlot
  selectors : write.target.selectors ≠ []
  value : ∃ source : AccessPath, write.value = .path source ∧ source.RootedIn graph arguments

/-- What a summary tells its callers makes sense in terms of its slots.  Writes to parts of
the result stand behind the others, and there are none unless the result is an object. -/
structure Summary.WellFormed (graph : TypeGraph) (summary : Summary) : Prop where
  has_arguments : ∀ type ∈ summary.signature.arguments, graph.Has type
  result : summary.result.RootedIn graph summary.signature.arguments
  writes : ∃ own returned : List Write, summary.writes = own ++ returned ∧
    (∀ write ∈ own, write.RootedIn graph summary.signature.arguments) ∧
    (∀ write ∈ returned, write.OfResult graph summary.signature.arguments) ∧
    (returned ≠ [] → ∃ type className, summary.result = .type type ∧
      graph.className? type = some className)
  calls : ∀ call ∈ summary.calls, call.value.RootedIn graph summary.signature.arguments

namespace Frame

/-- A resolved operand that is an allocated object has no home. -/
theorem Sound.resolve_fresh (hsound : frame.Sound graph arguments) {operand : Operand}
    (hrooted : operand.RootedIn graph arguments) :
    Checked.Harmless (frame.resolve operand) fun resolved =>
      resolved.RootedIn graph arguments ∧ ∀ id, resolved = .fresh id →
        ∃ object : Allocation, frame.allocations[id.index]? = some object ∧
          object.home? = none := by
  cases operand with
  | type held => exact ⟨hrooted, fun id heq => nomatch heq⟩
  | path place => exact ⟨hrooted, fun id heq => nomatch heq⟩
  | fresh id =>
    refine (frame.allocation_safe id).bind fun object hobject => ?_
    cases hhome : object.home? with
    | some home =>
      have hplace := (hsound.objects id.index object hobject).home home hhome
      exact ⟨hplace, fun id heq => nomatch heq⟩
    | none =>
      refine ⟨trivial, fun other heq => ?_⟩
      cases heq
      exact ⟨object, hobject, hhome⟩

theorem expressResult_ends (signature : Signature)
    (hsound : frame.Sound graph signature.arguments) {operand : Operand}
    (hrooted : operand.RootedIn graph signature.arguments) :
    growing.Ends graph (expressResult declarations span operand frame graph) fun result grown =>
      grown.WellFormed ∧
        Summary.WellFormed grown ⟨signature, result.1, result.2.writes, result.2.calls⟩ := by
  have hwell := hsound.wellFormed
  unfold expressResult
  refine (Discipline.Ends.inspect _ hwell (hsound.resolve_fresh hrooted)).run_bind ?_
  intro operand changed later _ hpost
  obtain ⟨rfl, rfl, hrooted, hfresh⟩ := hpost
  -- Unless an object is returned, no write is added for the result.
  have htold : ∀ operand : Operand, operand.RootedIn graph signature.arguments →
      growing.Ends graph (express declarations span operand frame graph) fun result grown =>
        grown.WellFormed ∧
          Summary.WellFormed grown ⟨signature, result.1, result.2.writes, result.2.calls⟩ := by
    intro operand hrooted
    refine (express_keeps hsound hrooted).mono ?_
    intro result grown _ hpost
    obtain ⟨value, changed⟩ := result
    obtain ⟨hchanged, hvalue⟩ := hpost
    exact ⟨hchanged.wellFormed, hchanged.has_arguments, hvalue,
      ⟨changed.writes, [], by simp, hchanged.writes, by simp, by simp⟩, hchanged.calls⟩
  cases operand with
  | type held => exact htold (.type held) hrooted
  | path place => exact htold (.path place) hrooted
  | fresh id =>
    obtain ⟨object, hobject, hhome⟩ := hfresh id rfl
    refine .get_bind (.lift_bind (reify_ends hsound id) ?_)
    intro type grown hgrows hpost
    obtain ⟨hwell, hhas, hclass⟩ := hpost
    have hgrown := hsound.mono hgrows hwell
    refine .get_bind (.checked_bind hwell (place_safe hgrown id _ fun heq => nomatch heq) ?_)
    intro later hpost
    obtain ⟨hlater, returned, hwrites, hreturned⟩ := hpost
    refine ⟨.refl grown, hwell, hgrown.has_arguments, hhas,
      ⟨frame.writes, returned, hwrites, hgrown.writes, ?_, fun _ => ?_⟩, hlater.calls⟩
    · intro write hmem
      obtain ⟨hroot, hselectors, hvalue⟩ := hreturned write hmem
      exact ⟨hroot, hselectors, hvalue⟩
    · exact ⟨type, object.className, rfl, hclass object hobject hhome⟩

end Frame

end ShapeFlow
