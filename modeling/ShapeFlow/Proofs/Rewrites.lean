import ShapeFlow.Proofs.PlacedObjects

/-!
# Writing to a part of a place

What a write does is said here once.  A write to a part of an object that has no home, or of a
type, is quiet.  A write to a part of a place vacates the part, so that no object is at home there
(`Frame.vacate_vacant`); rebuilds the slot with the type of the value, which shows the value as it
is before the change; and records the value (`Frame.write_cases`, `Frame.exists_of_rebind`).
-/

namespace ShapeFlow

open TypeGraph (SameUnfolding)

variable {frame later : Frame} {graph final : TypeGraph} {arguments : List TypeId}
  {declarations : Declarations} {span : Span} {operand : Operand} {target : AccessPath}

namespace Frame

/-! ## The type of an operand shows it -/

/-- The type at which an operand is found shows it. -/
theorem Shows.of_found {found : TypeId} (hfound : frame.foundType? graph operand = some found)
    (hclosed : graph.Closed) (hhas : graph.Has found) : frame.Shows graph operand found :=
  ⟨fun held type => held = operand ∧ type = found, fun held type hpair => by
    obtain ⟨rfl, rfl⟩ := hpair
    exact Or.inl ⟨type, hfound, .refl hclosed hhas⟩, rfl, rfl⟩

/-- A place is asked for its type. -/
theorem placeType_found (hsound : frame.Sound graph arguments) (place : AccessPath) :
    Checked.Harmless (frame.placeType declarations graph span place) fun type =>
      frame.placeType? graph place = some type ∧ graph.Has type := by
  have hsafe : Checked.Harmless (frame.placeType declarations graph span place) graph.Has :=
    hsound.placeType place
  cases hresult : frame.placeType declarations graph span place with
  | error failure =>
    rw [hresult] at hsafe
    exact hsafe
  | ok type =>
    rw [hresult] at hsafe
    exact ⟨placeType_eq_ok_iff.mp hresult, hsafe⟩

theorem typeOf_shows (hsound : frame.Sound graph arguments) (hsettled : frame.Settled operand)
    (hrooted : operand.RootedIn graph arguments) :
    growing.Ends graph (frame.typeOf declarations span operand graph) fun type grown =>
      grown.WellFormed ∧ frame.Shows grown operand type := by
  have hwell := hsound.wellFormed
  have hresolved : Checked.Harmless (frame.resolve operand) (· = operand) := by
    rw [show frame.resolve operand = .ok operand from hsettled]
    rfl
  unfold typeOf
  refine .keep_bind hwell hresolved fun resolved hresolved => ?_
  subst hresolved
  cases resolved with
  | type held => exact .pure ⟨hwell, .of_found rfl hwell.closed hrooted⟩
  | path place =>
    refine (Discipline.Ends.keep hwell (placeType_found hsound place)).mono ?_
    intro type later _ hpost
    obtain ⟨rfl, hfound, hhas⟩ := hpost
    exact ⟨hwell, .of_found hfound hwell.closed hhas⟩
  | fresh id =>
    exact Discipline.Ends.under (visiting_refines frame graph id)
      (reify_shows declarations span hwell hsound.hasTypes id)

/-! ## Vacating a place -/

/-- No object is at home within the place. -/
def Vacant (frame : Frame) (base : AccessPath) : Prop :=
  ∀ (id : Nat) (object : Allocation) (home : AccessPath), frame.allocations[id]? = some object →
    object.home? = some home → home.liesWithin base = false

/-- An object at home within a place is one of its residents. -/
theorem mem_residents {id : Nat} {object : Allocation} {home base : AccessPath}
    (hobject : frame.allocations[id]? = some object) (hhome : object.home? = some home)
    (hwithin : home.liesWithin base = true) : (⟨id⟩, home) ∈ frame.residents base := by
  refine List.mem_filterMap.mpr ⟨(object, id), ?_, by simp [hhome, hwithin]⟩
  rw [List.mem_zipIdx_iff_getElem?, Array.getElem?_toList, hobject]

/-- When a place has been vacated, no object is at home there. -/
theorem vacate_vacant (base : AccessPath) (value : Operand) (frame : Frame) (graph : TypeGraph) :
    (lenient TypeGraph).Ends graph (vacate declarations span base value frame graph)
      fun result _ => result.2.Vacant base := by
  -- It is enough that the residents have lost their homes, as no step gives one.
  have hvacant : ∀ {later : Frame}, frame.Quiet later →
      (∀ resident ∈ frame.residents base, later.Settled (.fresh resident.1)) →
        later.Vacant base := by
    intro later hquiet hreleased id object home hobject hhome
    obtain ⟨before, hbefore, hhome'⟩ := hquiet.homes id object home hobject hhome
    by_contra hwithin
    obtain ⟨after, hafter, hnone⟩ := settled_fresh_iff.mp
      (hreleased _ (mem_residents hbefore hhome' (by simpa using hwithin)))
    obtain rfl := Option.some.inj (hobject.symm.trans hafter)
    exact nomatch hnone.symm.trans hhome
  refine ((lenient_ends _ frame graph).and ?_).mono fun result _ _ hpost =>
    hvacant hpost.1 hpost.2
  unfold vacate
  refine .get_bind ?_
  dsimp only
  split
  · rename_i hempty
    simp only [Bool.and_eq_true, List.isEmpty_iff] at hempty
    refine .run_pure fun resident hmem => ?_
    rw [hempty.1.1.1] at hmem
    exact nomatch hmem
  · refine (rebuildAll_quiet base _ _ _ frame graph).run_bind ?_
    intro rebuilt changed₁ later₁ _ hpost
    obtain ⟨hquiet₁, hrebuilt⟩ := hpost
    refine (lenient_ends _ changed₁ later₁).run_bind ?_
    intro root changed₂ later₂ _ hquiet₂
    refine (releaseAll_settled rebuilt changed₂ later₂).run_bind ?_
    intro _ changed₃ later₃ _ hpost
    obtain ⟨-, hreleased⟩ := hpost
    have hsettled : ∀ resident ∈ frame.residents base, changed₃.Settled (.fresh resident.1) := by
      intro resident hmem
      obtain ⟨object, hobject, heq⟩ := hrebuilt resident hmem
      obtain ⟨held, hheld⟩ := exists_of_mem_residents hmem
      obtain ⟨after, hafter, -⟩ := (hquiet₁.trans hquiet₂).objects _ held hheld
      rw [← heq] at hafter ⊢
      exact hreleased object hobject ⟨after, hafter⟩
    refine (lenient_ends _ changed₃ later₃).run_bind fun _ changed₄ later₄ _ hquiet₄ => ?_
    refine .get_bind ((lenient_ends _ changed₄ later₄).run_bind
      fun _ changed₅ later₅ _ hquiet₅ => ?_)
    have hsettled' : ∀ resident ∈ frame.residents base, changed₅.Settled (.fresh resident.1) :=
      fun resident hmem => hquiet₅.settled (hquiet₄.settled (hsettled resident hmem))
    cases value.placeWithin? base with
    | none => exact .run_pure hsettled'
    | some place =>
      exact (lenient_ends _ changed₅ later₅).mono fun result _ _ hquiet resident hmem =>
        hquiet.settled (hsettled' resident hmem)

/-! ## The steps of a write -/

/-- An object is at home where it was before a slot was rebuilt. -/
theorem Settled.withSlot (hsettled : frame.Settled operand) (slot : Nat) (type : TypeId) :
    (frame.withSlot slot type).Settled operand := by
  unfold Settled at hsettled ⊢
  rw [← hsettled]
  cases operand <;> rfl

/-- The steps after the target of a write has been vacated: its type is that of the value, with
which the slot is rebuilt, and the value is recorded. -/
theorem exists_of_rebind (hsound : frame.Sound graph arguments) (hselectors : target.selectors ≠ [])
    (selector : Selector) (hvalue : operand.RootedIn graph arguments)
    (hsettled : frame.Settled operand) {result : Operand}
    (hrun : (do
      let part ← frame.typeOf declarations span operand
      setPlaceType span target selector part
      recordOperand declarations span target operand
      pure (.path target) : Framed Operand) frame graph = .ok (result, later) final) :
    ∃ part built slot current updated grown, graph.Grows built ∧ frame.Sound built arguments ∧
      frame.Shows built operand part ∧ frame.Rebinds built target part slot current updated grown ∧
      (frame.withSlot slot updated).Sound grown arguments ∧
      recordOperand declarations span target operand (frame.withSlot slot updated) grown =
        .ok (⟨⟩, later) final := by
  obtain ⟨part, typed, built, htype, hrun⟩ := exists_of_run_bind hrun
  obtain ⟨hgrows, hsame, hbuilt, hshows⟩ :=
    (Discipline.Ends.lift (typeOf_shows hsound hsettled hvalue)).of_eq_ok htype
  dsimp only at hsame
  rw [← hsame] at hrun
  obtain ⟨_, changed, grown, hset, hrun⟩ := exists_of_run_bind hrun
  obtain ⟨_, recorded, last, hrecord, hpure⟩ := exists_of_run_bind hrun
  cases hpure
  have hsound' := hsound.mono hgrows hbuilt
  obtain ⟨-, hrebound, -⟩ :=
    (setPlaceType_keeps hsound' hselectors selector hshows.has).of_eq_ok hset
  obtain ⟨slot, current, updated, hrebinds, rfl⟩ := exists_of_setPlaceType hset
  exact ⟨part, built, slot, current, updated, grown, hgrows, hsound', hshows, hrebinds, hrebound,
    hrecord⟩

/-- The write to a part of a place: the part is vacated, its slot is rebuilt, and the value is
recorded. -/
structure Rewrites (declarations : Declarations) (span : Span) (arguments : List TypeId)
    (selector : Selector) (store : Store) (frame : Frame) (graph : TypeGraph) (result : Operand)
    (later : Frame) (final : TypeGraph) : Prop where
  quiet : frame.Quiet store.frame
  grows : graph.Grows store.graph
  sound : store.frame.Sound store.graph arguments
  vacant : store.frame.Vacant store.target
  selectors : store.target.selectors ≠ []
  rooted : store.value.RootedIn store.graph arguments
  settled : store.frame.Settled store.value
  run : (do
    let part ← store.frame.typeOf declarations span store.value
    setPlaceType span store.target selector part
    recordOperand declarations span store.target store.value
    pure (.path store.target) : Framed Operand) store.frame store.graph =
      .ok (result, later) final

/-- A write to a part of a place is listed, and it rewrites the slot. -/
theorem write_path (hsound : frame.Sound graph arguments) {base value result : Operand}
    {selector : Selector} {place : AccessPath} (hbase : frame.resolve base = .ok (.path place))
    (hvalue : value.RootedIn graph arguments)
    (hrun : write declarations span base selector value frame graph =
      .ok (result, later) final) :
    ∃ store, stores declarations span base selector value frame graph = [store] ∧
      Rewrites declarations span arguments selector store frame graph result later final := by
  unfold write at hrun
  obtain ⟨resolved, hresolved, hrun⟩ := exists_of_inspect_bind hrun
  obtain rfl := Except.ok.inj (hbase.symm.trans hresolved)
  obtain ⟨operand, hoperand, hrun⟩ := exists_of_inspect_bind hrun
  obtain ⟨className?, -, hrun⟩ := exists_of_inspect_bind hrun
  have hrooted : operand.RootedIn graph arguments := by
    have hsafe := hsound.resolve hvalue
    rw [hoperand] at hsafe
    exact hsafe
  cases className? with
  | none => cases hrun
  | some className =>
    dsimp only at hrun
    split at hrun
    · obtain ⟨moved, vacated, grown, hvacate, hrun⟩ := exists_of_run_bind hrun
      obtain ⟨hgrows, hvacated, hmoved⟩ :=
        (vacate_keeps hsound (place.child selector) hrooted).of_eq_ok hvacate
      obtain ⟨-, hsettled⟩ :=
        (vacate_settled (place.child selector) (resolve_settled hoperand) graph).of_eq_ok hvacate
      obtain ⟨-, hvacant⟩ :=
        (vacate_vacant (place.child selector) operand frame graph).of_eq_ok hvacate
      exact ⟨⟨vacated, grown, place.child selector, moved⟩,
        by simp only [stores, hresolved, hoperand, hvacate], RunsQuietly.run hvacate, hgrows,
        hvacated, hvacant, place.child_selectors_ne selector, hmoved, hsettled, hrun⟩
    · cases hrun

/-- A write is quiet, or it is one to a part of a place. -/
theorem write_cases (hsound : frame.Sound graph arguments) {base value result : Operand}
    {selector : Selector} (hvalue : value.RootedIn graph arguments)
    (hrun : write declarations span base selector value frame graph =
      .ok (result, later) final) :
    frame.Quiet later ∧ final = graph ∨ ∃ store,
      stores declarations span base selector value frame graph = [store] ∧
        Rewrites declarations span arguments selector store frame graph result later final := by
  have hwrite := hrun
  unfold write at hrun
  obtain ⟨resolved, hresolved, hrun⟩ := exists_of_inspect_bind hrun
  obtain ⟨operand, -, hrun⟩ := exists_of_inspect_bind hrun
  obtain ⟨className?, -, hrun⟩ := exists_of_inspect_bind hrun
  cases resolved with
  | path place => exact Or.inr (write_path hsound hresolved hvalue hwrite)
  | type held =>
    cases className? with
    | none => cases hrun
    | some className =>
      dsimp only at hrun
      split at hrun
      · cases hrun
        exact Or.inl ⟨.refl frame, rfl⟩
      · cases hrun
  | fresh id =>
    cases className? with
    | none => cases hrun
    | some className =>
      dsimp only at hrun
      split at hrun
      · obtain ⟨_, written, _, hset, hpure⟩ := exists_of_run_bind hrun
        obtain ⟨-, hsame⟩ := reading_eq_ok_iff.mp hset
        cases hpure
        exact Or.inl ⟨RunsQuietly.run hset, hsame⟩
      · cases hrun

/-- The frame of a listed write is where the slot is rewritten, if the write succeeds. -/
theorem rewrites_of_mem_stores (hsound : frame.Sound graph arguments)
    {base value result : Operand} {selector : Selector} (hvalue : value.RootedIn graph arguments)
    {store : Store} (hstore : store ∈ stores declarations span base selector value frame graph)
    (hrun : write declarations span base selector value frame graph =
      .ok (result, later) final) :
    Rewrites declarations span arguments selector store frame graph result later final := by
  have hpath : ∃ place, frame.resolve base = .ok (.path place) := by
    unfold stores at hstore
    split at hstore
    · rename_i place _ hbase _
      exact ⟨place, hbase⟩
    · exact nomatch hstore
  obtain ⟨place, hbase⟩ := hpath
  obtain ⟨other, hstores, hrewrites⟩ := write_path hsound hbase hvalue hrun
  rw [hstores, List.mem_singleton] at hstore
  exact hstore ▸ hrewrites

end Frame

end ShapeFlow
