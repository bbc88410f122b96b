import ShapeFlow.Proofs.FaithfulLog
import ShapeFlow.Proofs.PlacedWalks

/-!
# Where the objects of a written object come to be at home

A write of an object without a home to a part of a place gives homes to the object and to all
objects that it leads to: the target, followed by a chain of parts that led there.  The type of the
slot was rebuilt before, with the type of the written object.  So at each of the new homes the slot
has the type that the object there had by itself, whatever circles and shared parts the objects form
(`Engine.session_settles`).

`Store.Settles` says all that the write does once the target has been vacated.
-/

namespace ShapeFlow

open TypeGraph (SameUnfolding)

variable {frame later : Frame} {graph grown left right final : TypeGraph} {arguments : List TypeId}
  {declarations : Declarations} {span : Span} {operand : Operand} {target : AccessPath}
  {id other : AllocId} {chain : List Selector} {type : TypeId}

namespace Frame

/-! ## Types along chains of parts -/

/-- Along a chain of parts, a type that shows an object leads to one that shows what the chain leads
to. -/
theorem Shows.objectAt? (hshows : frame.Shows graph (.fresh id) type)
    (hchain : frame.objectAt? id chain = some other) :
    ∃ inner, graph.follow? type chain = some inner ∧ frame.Shows graph (.fresh other) inner := by
  induction chain using List.reverseRecOn generalizing other with
  | nil => exact ⟨type, rfl, Option.some.inj hchain ▸ hshows⟩
  | append_singleton chain selector ih =>
    rw [objectAt?_concat, Option.bind_eq_some_iff] at hchain
    obtain ⟨holder, hholder, hpart⟩ := hchain
    obtain ⟨inner, hinner, hshows'⟩ := ih hholder
    obtain ⟨hlocal, ⟨object, hobject, hheld⟩, -⟩ := localPart?_eq_some_iff.mp hpart
    obtain ⟨held, hheld', hhome⟩ := isLocal_iff_exists_object.mp hlocal
    obtain rfl := Option.some.inj (hobject.symm.trans hheld')
    obtain ⟨part, hpart, hshows''⟩ :=
      hshows'.part (localObject?_fresh_iff.mpr ⟨hobject, hhome⟩) hheld
    refine ⟨part, ?_, hshows''⟩
    rw [TypeGraph.follow?_append, hinner, Option.bind_some, TypeGraph.follow?_cons, hpart]
    rfl

/-- Types that show the same operand have the same unfolding, also if they were built in different
ways. -/
theorem Shows.sameUnfolding_of_grows (hclosed : graph.Closed) (htypes : frame.HasTypes graph)
    (hleft : graph.Grows left) (hright : graph.Grows right) (hclosedLeft : left.Closed)
    (hclosedRight : right.Closed) {first second : TypeId}
    (hfirst : frame.Shows left (.fresh id) first) (hsecond : frame.Shows right (.fresh id) second) :
    SameUnfolding left first right second := by
  rw [TypeGraph.sameUnfolding_iff_endAt? hclosedLeft hclosedRight hfirst.has hsecond.has]
  intro chain
  calc left.endAt? first chain = frame.endOf? left (.fresh id) chain := hfirst.endAt?_eq chain
    _ = frame.endOf? graph (.fresh id) chain :=
      endOf?_eq_of_grows hleft hclosed htypes (by simp) chain
    _ = frame.endOf? right (.fresh id) chain :=
      (endOf?_eq_of_grows hright hclosed htypes (by simp) chain).symm
    _ = right.endAt? second chain := (hsecond.endAt?_eq chain).symm

/-! ## The steps of recording an object -/

/-- An object is recorded with its type and walked through. -/
theorem exists_of_recordOperand_fresh {value : PUnit}
    (hrun : recordOperand declarations span target (.fresh id) frame graph =
      .ok (value, later) final) :
    ∃ type, frame.reify declarations span id graph = .ok type final ∧
      (frame.record target (.type type)).place true id target = .ok later := by
  unfold recordOperand at hrun
  dsimp only at hrun
  rw [getFrame_bind_eq] at hrun
  obtain ⟨type, built, htype, hrun⟩ := exists_of_lift_bind hrun
  rw [modify_bind_eq, getFrame_bind_eq] at hrun
  obtain ⟨placed, hplace, hset⟩ := exists_of_checked_bind hrun
  cases hset
  exact ⟨type, htype, hplace⟩

end Frame

/-! ## What a write of an object brings about -/

/-- From the moment at which the target was vacated on, the write of the object has led to the later
frame and types, where `before` is the frame in which it began.

The objects to which the written one leads have their homes below the target, at chains of parts
that led to them and none twice, and the types found there have the unfoldings that the objects had;
all other objects are as they were.  The write is recorded with an object type, and after it only
writes to parts of the target whose values are places. -/
structure Store.Settles (declarations : Declarations) (span : Span) (store : Store) (id : AllocId)
    (before later : Frame) (final : TypeGraph) : Prop where
  homes : ∀ other, store.frame.LeadsTo id other → ∃ chain,
    store.frame.objectAt? id chain = some other ∧ store.frame.Direct id chain ∧
      later.HasHome other (store.target.append chain)
  distinct : ∀ first second home, store.frame.LeadsTo id first → store.frame.LeadsTo id second →
    later.HasHome first home → later.HasHome second home → first = second
  types : ∀ other home, store.frame.LeadsTo id other → later.HasHome other home →
    ∃ type grown found, store.frame.reify declarations span other store.graph = .ok type grown ∧
      later.placeType? final home = some found ∧ SameUnfolding grown type final found
  others : ∀ other, ¬ store.frame.LeadsTo id other →
    later.allocations[other.index]? = store.frame.allocations[other.index]?
  writes : ∃ type told, later.writes = before.writes ++ ⟨store.target, .type type⟩ :: told ∧
    (final.className? type).isSome = true ∧ ∀ write ∈ told, ∃ selectors place, selectors ≠ [] ∧
      write = ⟨store.target.append selectors, .path place⟩

namespace Frame

variable {store : Store}

/-- What a write of an object without a home brings about. -/
theorem Rewrites.settles {selector : Selector} {result : Operand}
    (hrewrites : Rewrites declarations span arguments selector store frame graph result later final)
    (hvalue : store.value = .fresh id) : store.Settles declarations span id frame later final := by
  obtain ⟨part, built, slot, current, updated, rebuilt, hbuilt, hsound, hshows, hrebinds, hrebound,
    hrecord⟩ := exists_of_rebind hrewrites.sound hrewrites.selectors selector hrewrites.rooted
      hrewrites.settled hrewrites.run
  rw [hvalue] at hshows hrecord
  obtain ⟨type, hreify, hplace⟩ := exists_of_recordOperand_fresh hrecord
  have hstart := hrewrites.sound
  have hlocal : store.frame.isLocal id = true :=
    isLocal_iff_exists_object.mpr (settled_fresh_iff.mp (hvalue ▸ hrewrites.settled))
  -- Rebuilding a slot and recording a write leave the objects alone.
  have hplaced : ((store.frame.withSlot slot updated).record store.target (.type type)).isLocal id =
      true := hlocal
  obtain ⟨stops, told, walk, htour, rfl, hmet⟩ :=
    (Placement.place_tours hplaced store.target true).of_eq_ok hplace
  obtain ⟨hgrows, hfinal, hshowsType⟩ :=
    (reify_shows declarations span hrebound.wellFormed hrebound.hasTypes id).of_eq_ok hreify
  have hmem : ∀ other, store.frame.LeadsTo id other → ∃ stop ∈ stops, stop.id = other :=
    fun other hleads => List.mem_map.mp ((htour.mem_ids_iff hmet).mpr hleads)
  have hhome : ∀ stop ∈ stops, ∀ home, walk.frame.HasHome stop.id home →
      home = store.target.append stop.chain := fun stop hstop home hhas =>
    Option.some.inj (hhas.symm.trans (htour.hasHome hlocal hstop))
  refine ⟨fun other hleads => ?_, fun first second home hfirst hsecond hfirstHome hsecondHome => ?_,
    fun other home hleads hother => ?_, fun other hleads => ?_, type, told, ?_, ?_, ?_⟩
  · obtain ⟨stop, hstop, rfl⟩ := hmem other hleads
    exact ⟨stop.chain, htour.leads stop hstop, htour.direct hstop, htour.hasHome hlocal hstop⟩
  · obtain ⟨one, hone, rfl⟩ := hmem first hfirst
    obtain ⟨two, htwo, rfl⟩ := hmem second hsecond
    have heq := (hhome one hone home hfirstHome).symm.trans (hhome two htwo home hsecondHome)
    have hchains : one.chain = two.chain := by simpa [AccessPath.append] using heq
    rw [htour.eq_of_chain_eq hone htwo hchains]
  · obtain ⟨stop, hstop, rfl⟩ := hmem other hleads
    rw [hhome stop hstop home hother]
    obtain ⟨inner, hinner, hshowsInner⟩ := hshows.objectAt? (htour.leads stop hstop)
    have hnavigable :=
      hshowsInner.navigable.of_grows hbuilt hstart.wellFormed.closed hstart.hasTypes
    obtain ⟨held, grown, hheld, hgrown, hwell, hshowsHeld⟩ :=
      exists_reify declarations span hstart.wellFormed hstart.hasTypes hnavigable
    obtain ⟨reached, hreached, hsame⟩ := hrebinds.placeType?_target hsound hshows.has
    obtain ⟨found, hfound, hsameFound⟩ := hsame.follow? hinner
    have hplaceFound : (store.frame.withSlot slot updated).placeType? rebuilt
        (store.target.append stop.chain) = some found := by
      rw [placeType?_append, hreached]
      exact hfound
    have hsameHeld : SameUnfolding grown held built inner :=
      hshowsHeld.sameUnfolding_of_grows hstart.wellFormed.closed hstart.hasTypes hgrown hbuilt
        hwell.closed hsound.wellFormed.closed hshowsInner
    refine ⟨held, grown, found, hheld, ?_, (hsameHeld.trans hsameFound).trans ?_⟩
    · rw [placeType?_eq_of_slots htour.slots]
      exact (placeType?_eq_of_grows hgrows hrebound.wellFormed.closed hrebound.hasTypes _).trans
        hplaceFound
    · exact hgrows.sameUnfolding hrebound.wellFormed.closed
        (has_placeType? hrebound.wellFormed.closed hrebound.hasTypes hplaceFound)
  · refine htour.others other fun _ stop hstop heq => absurd ?_ hleads
    exact (htour.mem_ids_iff hmet).mp (heq ▸ List.mem_map_of_mem hstop)
  · rw [htour.writes, ← hrewrites.quiet.writes]
    exact List.append_assoc _ _ _
  · obtain ⟨object, hobject⟩ := isLocal_iff.mp hlocal
    rw [hshowsType.className?_eq hobject]
    rfl
  · intro write hwrite
    cases htour.accounts write hwrite with
    | held hstop htells =>
      exact ⟨_, _, List.append_ne_nil_of_right_ne_nil _ (List.cons_ne_nil _ _), rfl⟩
    | settled hsettling hstop hother hholds =>
      exact ⟨_, _, List.append_ne_nil_of_right_ne_nil _ (List.cons_ne_nil _ _), rfl⟩

end Frame

/-! ## In a session -/

/-- In a session, whenever an object without a home is written to a part of a place and the write
succeeds, the object and all that it leads to come to be at home at and below the part, and nothing
else becomes of any object once the part has been vacated. -/
theorem Engine.session_settles {program : Program} {limit : Nat} {engine : Engine}
    {history : List Moment} (hsession : Engine.Session program limit engine history) :
    ∀ moment ∈ history, ∀ task point, moment.Passes (.ofProgram program) limit task point →
      ∀ base selector value, point.act = .writes base selector value →
        ∀ span, ∀ store ∈ Frame.stores (.ofProgram program) span base selector value point.frame
            point.graph,
          ∀ id, store.value = .fresh id → ∀ result later final,
            Frame.write (.ofProgram program) span base selector value point.frame point.graph =
                .ok (result, later) final →
              store.Settles (.ofProgram program) span id point.frame later final := by
  intro moment hmem task point hpasses base selector value hact span store hstore id hvalue result
    later final hrun
  have hmeets := (Regime.session_holdsAt (Shapes.admit_all (.ofProgram program)).rules
    TypeGraph.conforms_all hsession moment hmem).meets task point hpasses
  have htakes := hmeets.value value (by rw [hact]; rfl)
  exact (Frame.rewrites_of_mem_stores hmeets.stands.sound htakes.rooted hstore hrun).settles hvalue

/-- When the rack is put onto the stand, the tool that it holds on two sides gets its home at the
left one. -/
theorem standEngine_settles : ∃ history moment point store result later final,
    Engine.Session standProgram 4 standEngine history ∧ moment ∈ history ∧
      moment.Passes (.ofProgram standProgram) 4 standTask point ∧
        point.act = .writes (.path ⟨1, []⟩) (.field "@on") (.fresh ⟨0⟩) ∧
          store ∈ Frame.stores (.ofProgram standProgram) {} (.path ⟨1, []⟩) (.field "@on")
            (.fresh ⟨0⟩) point.frame point.graph ∧
            store.value = .fresh ⟨0⟩ ∧
              Frame.write (.ofProgram standProgram) {} (.path ⟨1, []⟩) (.field "@on") (.fresh ⟨0⟩)
                point.frame point.graph = .ok (result, later) final ∧
                store.Settles (.ofProgram standProgram) {} ⟨0⟩ point.frame later final ∧
                  store.frame.LeadsTo ⟨0⟩ ⟨1⟩ ∧
                    later.HasHome ⟨1⟩ ⟨1, [.field "@on", .field "@left"]⟩ := by
  let declarations : Declarations := .ofProgram standProgram
  have hany : (standTask.points declarations 4 3 standStart.knowledge).any (fun point =>
      point.act = .writes (.path ⟨1, []⟩) (.field "@on") (.fresh ⟨0⟩) ∧
        (Frame.stores declarations {} (.path ⟨1, []⟩) (.field "@on") (.fresh ⟨0⟩) point.frame
          point.graph).any (fun store => store.value = .fresh ⟨0⟩ ∧
            store.frame.objectAt? ⟨0⟩ [.field "@left"] = some ⟨1⟩) ∧
          passes (fun result _ => result.2.HasHome ⟨1⟩ ⟨1, [.field "@on", .field "@left"]⟩)
            (Frame.write declarations {} (.path ⟨1, []⟩) (.field "@on") (.fresh ⟨0⟩) point.frame
              point.graph)) = true := by
    decide +kernel
  obtain ⟨history, hsession, hmoments⟩ := standEngine_session
  obtain ⟨moment, hmem, point, hpasses, htested⟩ := Task.exists_passes [] hany
  rw [decide_eq_true_eq] at htested
  obtain ⟨hact, hstores, hwrite⟩ := htested
  obtain ⟨store, hstore, htested⟩ := List.any_eq_true.mp hstores
  rw [decide_eq_true_eq] at htested
  obtain ⟨hvalue, hleft⟩ := htested
  obtain ⟨⟨result, later⟩, final, hrun, hhome⟩ := exists_of_passes _ hwrite
  have hsettles := Engine.session_settles hsession moment (hmoments moment hmem) standTask point
    hpasses _ _ _ hact {} store hstore ⟨0⟩ hvalue result later final hrun
  exact ⟨history, moment, point, store, result, later, final, hsession, hmoments moment hmem,
    hpasses, hact, hstore, hvalue, hrun, hsettles,
    Frame.leadsTo_iff_exists_objectAt?.mpr ⟨_, hleft⟩, of_decide_eq_true hhome⟩

end ShapeFlow
