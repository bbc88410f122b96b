import ShapeFlow.Proofs.RetracedPlaces

/-!
# Vacating a place in any order of the locals

The locals that are told by a vacated place are rebound one after the other, in the order in which
they happen to be listed.  Each of them is found by a reading from the same copy, and each reading
may make objects of parts that the next one passes.  Since readings commute
(`Frame.Founded.commute_readAlong`), another order leads to the same frame, up to a renaming of the
objects that have been made (`Frame.Rereads.rebindLocals_perm`): this is an induction on how one
order is turned into the other by exchanging neighbours.

All that is done before is done without a look at the locals (`Frame.copyOut`), and all that is done
afterwards is done in the renamed frame as it is done in the frame (`Frame.Founded.rebindAll_perm`).
So the whole of it does not depend on the order (`Frame.vacate_reordered`), for all frames in which
the places that are held lead somewhere.
-/

namespace ShapeFlow

variable {declarations : Declarations} {span : Span} {start frame later other last : Frame}
  {graph : TypeGraph} {root : Operand} {base : AccessPath} {names : Equiv.Perm AllocId}

namespace Frame

/-! ## Locals in another order -/

/-- Two locals may be rebound in either order. -/
theorem Rereads.swap_rebindLocal (hrereads : start.Rereads graph frame)
    (hroot : start.Refers graph root) (declarations : Declarations) (span : Span)
    {first second : String × AccessPath} (hne : first.1 ≠ second.1)
    (hfirst : start.Retraces graph root base first.2)
    (hsecond : start.Retraces graph root base second.2) :
    ∃ names later last,
      [first, second].forM (Frame.rebindLocal declarations span root base) frame graph =
          .ok (⟨⟩, later) graph ∧
        [second, first].forM (Frame.rebindLocal declarations span root base) frame graph =
            .ok (⟨⟩, last) graph ∧
          Mirrors names later last ∧ KeepsBelow frame.allocations.size names := by
  obtain ⟨name, place⟩ := first
  obtain ⟨name', place'⟩ := second
  have hfounded := hrereads.founded
  have hroot' := hrereads.refers root hroot
  obtain ⟨chain, found, left, rfl, hread⟩ := hfounded.exists_retrace hroot' declarations span
    (hfirst.mono hroot hrereads.toRearranges)
  obtain ⟨chain', found', right, rfl, hread'⟩ := hfounded.exists_retrace hroot' declarations span
    (hsecond.mono hroot hrereads.toRearranges)
  obtain ⟨names, again, after, before, hafter, hbefore, rfl, hrenames, hkeeps⟩ :=
    hfounded.commute_readAlong hroot' hroot' declarations span chain chain' found left found' right
      hread hread'
  have hleft := (hfounded.reaches hroot' hread).promotes
  have hright := (hfounded.reaches hroot' hread').promotes
  -- The second reading is made in a frame in which the first local has been set.
  have hagain := readAlong_withLocals hleft.complete hafter (left.setLocal name found).locals
  have hagain' := readAlong_withLocals hright.complete hbefore
    (right.setLocal name' (again.rename names)).locals
  refine ⟨names, _, _,
    (run_bind_of_ok (rebindLocal_of_ok hread)).trans (run_bind_of_ok (rebindLocal_of_ok hagain)),
    (run_bind_of_ok (rebindLocal_of_ok hread')).trans (run_bind_of_ok (rebindLocal_of_ok hagain')),
    { hrenames with locals := fun key => ?_ }, hkeeps⟩
  simp only [Frame.setLocal, withLocals, OrderedMap.get?_insert, hleft.locals, hright.locals]
  by_cases hname : key = name
  · subst hname
    rw [if_pos rfl, if_neg hne, if_pos rfl, Option.map_some]
  · rw [if_neg hname, if_neg hname]
    split
    · rfl
    · cases hheld : frame.locals.get? key with
      | none => rfl
      | some held =>
        rw [Option.map_some, (hfounded.locals key held hheld).rename_eq hkeeps]

theorem forM_append_of_ok {ι : Type} {body : ι → Framed PUnit} {items rest : List ι}
    (hrun : items.forM body frame graph = .ok (⟨⟩, later) graph) :
    (items ++ rest).forM body frame graph = rest.forM body later graph := by
  have hsplit : (items ++ rest).forM body = items.forM body >>= fun _ => rest.forM body :=
    List.forM_append
  rw [hsplit]
  exact run_bind_of_ok hrun

/-- The locals may be rebound in any order. -/
theorem Rereads.rebindLocals_perm {bindings bindings' : List (String × AccessPath)}
    (hperm : bindings.Perm bindings') (hnodup : (bindings.map Prod.fst).Nodup)
    (hretraces : ∀ binding ∈ bindings, start.Retraces graph root base binding.2)
    (hrereads : start.Rereads graph frame) (hroot : start.Refers graph root)
    (hrun : bindings.forM (Frame.rebindLocal declarations span root base) frame graph =
      .ok (⟨⟩, later) graph)
    (hrun' : bindings'.forM (Frame.rebindLocal declarations span root base) frame graph =
      .ok (⟨⟩, last) graph) :
    ∃ names, Mirrors names later last ∧ KeepsBelow start.allocations.size names := by
  induction hperm generalizing frame later last with
  | nil =>
    cases hrun
    cases hrun'
    exact ⟨Equiv.refl AllocId, .refl _, .refl _⟩
  | cons binding hperm ih =>
    obtain ⟨hbinding, hrest⟩ := List.forall_mem_cons.mp hretraces
    obtain ⟨middle, hproceeds, hmiddle⟩ :=
      hrereads.exists_rebindLocal hroot declarations span hbinding
    exact ih (List.nodup_cons.mp hnodup).2 hrest hmiddle
      ((run_bind_of_ok hproceeds.run).symm.trans hrun)
      ((run_bind_of_ok hproceeds.run).symm.trans hrun')
  | swap second first rest =>
    obtain ⟨hfirst, hothers⟩ := List.forall_mem_cons.mp hretraces
    obtain ⟨hsecond, hrest⟩ := List.forall_mem_cons.mp hothers
    have hne : first.1 ≠ second.1 := by
      rintro heq
      simp [heq] at hnodup
    obtain ⟨names, left, right, hleft, hright, hmirrors, hkeeps⟩ :=
      hrereads.swap_rebindLocal hroot declarations span hne hfirst hsecond
    obtain ⟨_, hboth, hrereads'⟩ := hrereads.exists_rebindLocals hroot declarations span
      (List.forall_mem_cons.mpr ⟨hfirst, List.forall_mem_singleton.mpr hsecond⟩)
    cases hleft.symm.trans hboth.run
    obtain ⟨_, hproceeds, -⟩ := hrereads'.exists_rebindLocals hroot declarations span hrest
    have hkeeps' := hkeeps.mono hrereads.amends.size_le
    obtain ⟨_, hlast, hmirrors'⟩ := hproceeds.mirrored names right hmirrors hkeeps'
    cases hrun.symm.trans ((forM_append_of_ok hleft).trans hproceeds.run)
    cases hrun'.symm.trans ((forM_append_of_ok hright).trans hlast)
    exact ⟨names, hmirrors', hkeeps'⟩
  | trans hfirst hsecond ih ih' =>
    obtain ⟨middle, hproceeds, -⟩ := hrereads.exists_rebindLocals hroot declarations span
      fun binding hmem => hretraces binding (hfirst.mem_iff.mpr hmem)
    obtain ⟨names, hmirrors, hkeeps⟩ := ih hnodup hretraces hrereads hrun hproceeds.run
    obtain ⟨names', hmirrors', hkeeps'⟩ := ih' ((hfirst.map Prod.fst).nodup_iff.mp hnodup)
      (fun binding hmem => hretraces binding (hfirst.mem_iff.mpr hmem)) hrereads hproceeds.run hrun'
    exact ⟨names.trans names', hmirrors.trans hmirrors', hkeeps.trans hkeeps'⟩

/-! ## All that is told by the place -/

/-- The locals, the parts and the value that are told by the place are found in the copy. -/
def rebindAll (declarations : Declarations) (span : Span) (root : Operand) (base : AccessPath)
    (bindings : List (String × AccessPath)) (value : Operand) : Framed Operand := do
  bindings.forM (rebindLocal declarations span root base)
  ((← getThe Frame).partsWithin base).forM (rebindPart declarations span root base)
  retraceValue declarations span root base value

theorem rebindAll_of_ok {bindings : List (String × AccessPath)} {value : Operand}
    (hlocals : bindings.forM (rebindLocal declarations span root base) frame graph =
      .ok (⟨⟩, later) graph)
    (hparts : (later.partsWithin base).forM (rebindPart declarations span root base) later graph =
      .ok (⟨⟩, last) graph) :
    rebindAll declarations span root base bindings value frame graph =
      retraceValue declarations span root base value last graph := by
  unfold rebindAll
  rw [run_bind_of_ok hlocals, getFrame_bind_eq]
  exact run_bind_of_ok hparts

/-- A part that holds a place is a part of an object that was there before the readings. -/
theorem Rereads.names_part (hrereads : start.Rereads graph frame)
    {part : AllocId × Selector × AccessPath} (hpart : part ∈ frame.partsWithin base)
    (hkeeps : KeepsBelow start.allocations.size names) : names part.1 = part.1 := by
  obtain ⟨-, after, hafter, hheld⟩ := part_of_mem_partsWithin hpart
  obtain ⟨object, hobject, -⟩ := hrereads.amends.path_part hafter hheld
  exact hkeeps part.1 (Array.getElem?_eq_some_iff.mp hobject).1

/-- All is rebound in the same way in whatever order the locals are listed. -/
theorem Founded.rebindAll_perm {value : Operand} {bindings bindings' : List (String × AccessPath)}
    (hfounded : start.Founded graph) (hstands : start.StandsIn graph base start graph root)
    (hperm : bindings.Perm bindings') (hnodup : (bindings.map Prod.fst).Nodup)
    (hbase : start.Refers graph (.path base))
    (hbindings : ∀ binding ∈ bindings, start.Refers graph (.path binding.2) ∧
      binding.2.liesWithin base = true)
    (hvalue : start.Refers graph value) (hmirrors : Mirrors (Equiv.refl AllocId) start other)
    (declarations : Declarations) (span : Span) :
    ∃ names moved later last,
      rebindAll declarations span root base bindings value start graph =
          .ok (moved, later) graph ∧
        rebindAll declarations span root base bindings' value other graph =
            .ok (moved.rename names, last) graph ∧
          Mirrors names later last ∧ KeepsBelow start.allocations.size names := by
  have hroot := hstands.refers
  have hstart : start.Rereads graph start := ⟨.refl hfounded, .refl _ start⟩
  have hretraces : ∀ binding ∈ bindings, start.Retraces graph root base binding.2 :=
    fun binding hmem => hstands.retraces hfounded (hbindings binding hmem).1
      (hbindings binding hmem).2
  obtain ⟨renamed, hlocals, hrereads⟩ :=
    hstart.exists_rebindLocals hroot declarations span hretraces
  obtain ⟨renamed', hlocals', -⟩ := hstart.exists_rebindLocals hroot declarations span
    fun binding hmem => hretraces binding (hperm.mem_iff.mpr hmem)
  obtain ⟨names, hbetween, hkeeps⟩ :=
    hstart.rebindLocals_perm hperm hnodup hretraces hroot hlocals.run hlocals'.run
  obtain ⟨again, hagain, hsame⟩ := hlocals'.mirrored _ other hmirrors (.refl _)
  have hrenamed := hbetween.trans hsame
  rw [Equiv.trans_refl] at hrenamed
  -- The objects that the readings have made hold no places, so the same parts are listed.
  have hparts : again.partsWithin base = renamed.partsWithin base :=
    hrenamed.partsWithin_eq hkeeps fun id object hobject hle selector held hheld => by
      cases (hrereads.amends.new id object hobject hle).2 selector held hheld <;> rfl
  obtain ⟨rebound, hrebound, haugments⟩ := exists_proceeds_forM (renamed.partsWithin base)
    (fun frame => renamed.Augments graph frame graph) hrereads.founded (.refl hrereads.founded)
    fun part hmem frame _ haugments => haugments.exists_rebindPart hrereads.founded
      ((hstands.trans hrereads.toRearranges).now hrereads.toRearranges hbase) hmem
      (fun names hkeeps => ⟨hroot.rename_eq hkeeps, hrereads.names_part hmem hkeeps⟩)
      declarations span
  obtain ⟨last, hlast, hmirrored⟩ := hrebound.mirrored names again hrenamed hkeeps
  obtain ⟨moved, later, hmoved, hmoves⟩ :=
    (hrereads.toRearranges.trans haugments.toRearranges).exists_retraceValue hfounded hstands hvalue
      declarations span
  obtain ⟨after, hafter, hmirrored'⟩ := hmoves names last hmirrored (hroot.rename_eq hkeeps)
    (hvalue.rename_eq hkeeps)
  rw [← hparts] at hlast
  exact ⟨names, moved, later, after, (rebindAll_of_ok hlocals.run hrebound.run).trans hmoved,
    (rebindAll_of_ok hagain hlast).trans hafter, hmirrored', hkeeps⟩

/-! ## The whole -/

/-- The copy is made, and then the objects that stand within the base give up their homes.  The
answer is the copy of the base. -/
def copyOut (declarations : Declarations) (span : Span) (base : AccessPath)
    (leaving : List (AllocId × AccessPath)) : Framed Operand := do
  let room := (leaving.map fun resident => resident.2.selectors.length).foldl max 0
  let rebuilt ← leaving.mapM fun resident => do
    let fields ← copyParts declarations span base leaving
      (copy declarations span base leaving room) (some resident.1) resident.2
    pure (resident.1, fields)
  let root ← copy declarations span base leaving room base
  rebuilt.forM fun object => modifyThe Frame (release object.1 object.2)
  pure root

instance (leaving : List (AllocId × AccessPath)) :
    OverlooksLocals (copyOut declarations span base leaving) := by
  unfold copyOut
  infer_instance

theorem vacate_of_untold {value : Operand} (huntold : frame.Untold base value) :
    vacate declarations span base value frame graph = .ok (value, frame) graph := by
  unfold Untold at huntold
  unfold vacate
  rw [getFrame_bind_eq]
  dsimp only
  rw [if_pos huntold]
  rfl

theorem vacate_of_copyOut {value : Operand} {grown : TypeGraph}
    (huntold : ¬ frame.Untold base value)
    (hcopy : copyOut declarations span base (frame.residents base) frame graph =
      .ok (root, later) grown) :
    vacate declarations span base value frame graph =
      rebindAll declarations span root base (frame.localsWithin base) value later grown := by
  have hrest : (copyOut declarations span base (frame.residents base) >>= fun root =>
      rebindAll declarations span root base (frame.localsWithin base) value) frame graph =
        rebindAll declarations span root base (frame.localsWithin base) value later grown :=
    run_bind_of_ok hcopy
  rw [← hrest]
  unfold Untold at huntold
  unfold vacate copyOut rebindAll
  rw [getFrame_bind_eq]
  dsimp only
  rw [if_neg huntold]
  simp only [bind_assoc, pure_bind]
  rfl

/-- The copy stands in for the place once the objects have given up their homes. -/
theorem Founded.copyOut_supplies (hfounded : frame.Founded graph)
    (hbase : frame.Refers graph (.path base)) (declarations : Declarations) (span : Span) :
    surely.Ends graph (copyOut declarations span base (frame.residents base) frame graph)
      fun result grown => frame.Rearranges graph result.2 grown ∧
        result.2.StandsIn grown base result.2 grown result.1 := by
  have hroom := reach_max (frame.residents base)
  unfold copyOut
  refine (rebuildAll_spells hfounded hroom).run_bind ?_
  rintro rebuilt changed middle - ⟨haugments, hrebuilt⟩
  have hbase' := haugments.refers _ hbase
  refine (copy_supplies _ (hroom base) haugments.founded
    ((atHome_residents frame base).of_sameHomes haugments.homes) hbase').run_bind ?_
  rintro root copied grown - ⟨hcopied, hstands⟩
  refine (releaseAll_rearranges hcopied.founded fun object hmem => ?_).run_bind ?_
  · obtain ⟨hrefers, hspells⟩ := hrebuilt object hmem
    exact ⟨hcopied.refers _ hrefers, hcopied.toRearranges.spells hrefers hspells⟩
  rintro _ released _ - ⟨hreleased, rfl⟩
  have hwhole := haugments.toRearranges.trans (hcopied.toRearranges.trans hreleased)
  exact .run_pure ⟨hwhole, ((hstands.now hcopied.toRearranges hbase').trans hreleased).now hreleased
    (hcopied.refers _ hbase')⟩

/-- No local is listed twice. -/
theorem nodup_localsWithin (frame : Frame) (base : AccessPath) :
    ((frame.localsWithin base).map Prod.fst).Nodup := by
  refine List.pairwise_map.mpr ((List.pairwise_map.mp frame.locals.nodup_keys).filterMap _ ?_)
  rintro first second hne binding hbinding other hother
  obtain ⟨_, -, rfl⟩ := Option.map_eq_some_iff.mp hbinding
  obtain ⟨_, -, rfl⟩ := Option.map_eq_some_iff.mp hother
  exact hne

section Reordering

variable {value : Operand} {locals : OrderedMap String Operand}
  (hperm : frame.locals.entries.Perm locals.entries)

include hperm

/-- The same locals within the base are listed, in another order. -/
theorem localsWithin_perm (base : AccessPath) :
    (frame.localsWithin base).Perm ((frame.withLocals locals).localsWithin base) :=
  hperm.filterMap _

theorem untold_withLocals_iff : (frame.withLocals locals).Untold base value ↔
    frame.Untold base value := by
  have hempty := (localsWithin_perm hperm base).isEmpty_eq
  unfold Untold
  rw [hempty]
  rfl

theorem mirrors_withLocals : Mirrors (Equiv.refl AllocId) frame (frame.withLocals locals) :=
  { Renames.refl frame with
    locals := fun name => by
      have hsame : (frame.withLocals locals).locals.get? name = frame.locals.get? name :=
        OrderedMap.get?_eq_of_perm hperm name
      rw [hsame]
      exact (Mirrors.refl frame).locals name }

end Reordering

/-- To vacate a place does not depend on the order of the locals: if the places that are held lead
somewhere, then it succeeds in every order, with the same types of the slots, the same writes and
the same graph.  What the locals hold, the objects and the answer are the same up to the names of
the objects that have been made meanwhile. -/
theorem vacate_reordered {value : Operand} {locals : OrderedMap String Operand}
    (hperm : frame.locals.entries.Perm locals.entries) (hfounded : frame.Founded graph)
    (hvalue : frame.Refers graph value) (declarations : Declarations) (span : Span)
    (base : AccessPath) :
    ∃ names moved later other grown,
      vacate declarations span base value frame graph = .ok (moved, later) grown ∧
        vacate declarations span base value (frame.withLocals locals) graph =
            .ok (moved.rename names, other) grown ∧
          Mirrors names later other ∧ KeepsBelow frame.allocations.size names := by
  by_cases huntold : frame.Untold base value
  · refine ⟨Equiv.refl AllocId, value, frame, frame.withLocals locals, graph,
      vacate_of_untold huntold, ?_, mirrors_withLocals hperm, .refl _⟩
    rw [Operand.rename_refl]
    exact vacate_of_untold ((untold_withLocals_iff hperm).mpr huntold)
  have hbase := hfounded.refers_of_within hvalue huntold
  obtain ⟨⟨root, released⟩, grown, hcopy, -, hreleased, hstands⟩ :=
    (hfounded.copyOut_supplies hbase declarations span).exists_ok
  have hcopy' := OverlooksLocals.run hcopy locals
  have hlocals : released.locals = frame.locals := OverlooksLocals.locals_eq hcopy
  have hbindings : ∀ binding ∈ frame.localsWithin base,
      released.Refers grown (.path binding.2) ∧ binding.2.liesWithin base = true :=
    fun binding hmem => ⟨hreleased.refers _ (hfounded.locals _ _ (local_of_mem_localsWithin hmem)),
      within_of_mem_localsWithin hmem⟩
  obtain ⟨names, moved, later, last, hrun, hrun', hmirrors, hkeeps⟩ :=
    hreleased.founded.rebindAll_perm hstands (localsWithin_perm hperm base)
      (frame.nodup_localsWithin base) (hreleased.refers _ hbase) hbindings
      (hreleased.refers value hvalue) (mirrors_withLocals (hlocals ▸ hperm)) declarations span
  exact ⟨names, moved, later, last, grown, (vacate_of_copyOut huntold hcopy).trans hrun,
    (vacate_of_copyOut (mt (untold_withLocals_iff hperm).mp huntold) hcopy').trans hrun', hmirrors,
    hkeeps.mono hreleased.size_le⟩

end Frame

/-- The locals of the shelf in another order. -/
def shelfLocals : OrderedMap String Operand :=
  .ofList [("rest", .fresh ⟨2⟩),
    ("ring", .path ⟨1, [.field "@v", .field "@label", .field "@next", .field "@next"]⟩),
    ("box", .path ⟨1, [.field "@v", .field "@box"]⟩)]

theorem shelfFrame_vacate_reordered :
    shelfFrame.Founded shelfGraph ∧
      shelfFrame.Refers shelfGraph (.path ⟨1, [.field "@v", .field "@box", .field "@label"]⟩) ∧
      shelfFrame.locals.entries.Perm shelfLocals.entries ∧
      ∃ names moved later other grown,
        Frame.vacate {} ⟨0, 0⟩ ⟨1, [.field "@v"]⟩
            (.path ⟨1, [.field "@v", .field "@box", .field "@label"]⟩) shelfFrame shelfGraph =
          .ok (moved, later) grown ∧
        Frame.vacate {} ⟨0, 0⟩ ⟨1, [.field "@v"]⟩
            (.path ⟨1, [.field "@v", .field "@box", .field "@label"]⟩)
            (shelfFrame.withLocals shelfLocals) shelfGraph =
          .ok (moved.rename names, other) grown ∧
        Frame.Mirrors names later other ∧ KeepsBelow 4 names := by
  have hcoherent : shelfFrame.Coherent shelfGraph := by decide +kernel
  have hvalue : shelfFrame.Refers shelfGraph
      (.path ⟨1, [.field "@v", .field "@box", .field "@label"]⟩) := by decide +kernel
  have hperm : shelfFrame.locals.entries.Perm shelfLocals.entries := by decide +kernel
  exact ⟨hcoherent.founded, hvalue, hperm, Frame.vacate_reordered hperm hcoherent.founded hvalue {}
    ⟨0, 0⟩ ⟨1, [.field "@v"]⟩⟩

end ShapeFlow
