import ShapeFlow.Proofs.OverlookedLocals
import ShapeFlow.Proofs.SwappedReads

/-!
# Steps in mirrored frames

Two frames mirror each other if one becomes the other under new names for its objects: the objects
are the same, and so is what the locals hold, though the locals may be listed in another order
(`Frame.Mirrors`).  Reading goes the same way in both (`Frame.Mirrors.readAlong`), and the frames
still mirror each other if a local or a part is bound to the same operand in both.

When a place is vacated, a list of locals and a list of parts is gone through.  A round for each
item of a list goes the same way in mirrored frames if each single round does
(`Frame.exists_proceeds_forM`), and the parts that are listed are the same as long as the objects
that are called otherwise hold no place (`Frame.Mirrors.partsWithin_eq`).
-/

namespace ShapeFlow

variable {declarations : Declarations} {span : Span} {frame later other last : Frame}
  {graph : TypeGraph} {operand root held : Operand} {base place : AccessPath}
  {chain : List Selector} {names : Equiv.Perm AllocId} {bound : Nat}

/-- What a map holds does not depend on the order of its entries. -/
theorem OrderedMap.get?_eq_of_perm {κ α : Type} [DecidableEq κ] {left right : OrderedMap κ α}
    (hperm : left.entries.Perm right.entries) (key : κ) : right.get? key = left.get? key :=
  Option.ext fun value => by
    rw [right.get?_eq_some_iff, left.get?_eq_some_iff, hperm.mem_iff]

/-- The parts of an object that hold a place within the base, with that place. -/
def Allocation.partsWithin (base : AccessPath) (id : AllocId) (object : Allocation) :
    List (AllocId × Selector × AccessPath) :=
  object.fields.entries.filterMap fun part =>
    (part.2.placeWithin? base).map fun place => (id, part.1, place)

@[simp] theorem Allocation.partsWithin_rename (names : Equiv.Perm AllocId) (base : AccessPath)
    (id : AllocId) (object : Allocation) :
    (object.rename names).partsWithin base id = object.partsWithin base id := by
  simp [partsWithin, rename, OrderedMap.mapValues, List.filterMap_map]

theorem Allocation.partsWithin_eq_nil {object : Allocation} (base : AccessPath) (id : AllocId)
    (houtside : ∀ selector held, object.fields.get? selector = some held →
      held.placeWithin? base = none) : object.partsWithin base id = [] := by
  refine List.filterMap_eq_nil_iff.mpr fun part hpart => ?_
  rw [houtside part.1 part.2 ((object.fields.get?_eq_some_iff _ _).mpr hpart)]
  rfl

namespace Frame

/-! ## Mirrored frames -/

/-- The other frame is the same under new names: its objects are, and so is what the locals hold. -/
structure Mirrors (names : Equiv.Perm AllocId) (frame other : Frame) : Prop
    extends Renames names frame other where
  locals : ∀ name, other.locals.get? name =
    (frame.locals.get? name).map (Operand.rename names)

theorem Refers.rename_eq (hrefers : frame.Refers graph operand)
    (hkeeps : KeepsBelow frame.allocations.size names) : operand.rename names = operand :=
  hrefers.names.rename_eq hkeeps

namespace Mirrors

theorem trans {first second : Equiv.Perm AllocId} (hfirst : Mirrors first frame other)
    (hsecond : Mirrors second other last) : Mirrors (first.trans second) frame last where
  toRenames := hfirst.toRenames.trans hsecond.toRenames
  locals name := by
    rw [hsecond.locals, hfirst.locals, Option.map_map]
    cases frame.locals.get? name <;> simp

theorem refl (frame : Frame) : Mirrors (Equiv.refl AllocId) frame frame where
  toRenames := .refl frame
  locals name := by cases frame.locals.get? name <;> simp

theorem setLocal (hmirrors : Mirrors names frame other) (name : String) (operand : Operand) :
    Mirrors names (frame.setLocal name operand) (other.setLocal name (operand.rename names)) where
  slots := hmirrors.slots
  writes := hmirrors.writes
  calls := hmirrors.calls
  size := hmirrors.size
  objects := hmirrors.objects
  fixes := hmirrors.fixes
  locals key := by
    rw [Frame.setLocal, Frame.setLocal, OrderedMap.get?_insert, OrderedMap.get?_insert]
    split
    · rfl
    · exact hmirrors.locals key

theorem withField (hmirrors : Mirrors names frame other) (id : AllocId) (selector : Selector)
    (operand : Operand) :
    Mirrors names (frame.update id fun object => object.withField selector operand)
      (other.update (names id) fun object =>
        object.withField selector (operand.rename names)) where
  slots := hmirrors.slots
  writes := hmirrors.writes
  calls := hmirrors.calls
  size := Array.size_modify.trans (hmirrors.size.trans Array.size_modify.symm)
  objects held := by
    have hindex : (names id).index = (names held).index ↔ id.index = held.index := by
      rw [AllocId.index_inj, AllocId.index_inj, names.apply_eq_iff_eq]
    simp only [Frame.update, Array.getElem?_modify, hindex, hmirrors.objects]
    split
    · cases frame.allocations[held.index]? with
      | none => rfl
      | some object =>
        exact congrArg some (object.rename_withField names selector operand).symm
    · rfl
  fixes held hle := hmirrors.fixes held (Nat.le_trans (Nat.le_of_eq Array.size_modify.symm) hle)
  locals := hmirrors.locals

end Mirrors

theorem locals_of_readAlong
    (hread : readAlong declarations span graph root chain frame = .ok (operand, later)) :
    later.locals = frame.locals :=
  ((readAlong_reads (fun _ _ _ => True) (fun _ _ _ _ _ _ _ _ => trivial) root chain
    frame).of_eq_ok hread).2.1

theorem Mirrors.readAlong (hmirrors : Mirrors names frame other) (hcomplete : frame.Complete graph)
    (hread : readAlong declarations span graph root chain frame = .ok (operand, later)) :
    ∃ last, readAlong declarations span graph (root.rename names) chain other =
        .ok (operand.rename names, last) ∧ Mirrors names later last := by
  obtain ⟨last, hlast, hrenames⟩ := hmirrors.toRenames.readAlong hcomplete hread
  refine ⟨last, hlast, hrenames, fun name => ?_⟩
  rw [locals_of_readAlong hread, locals_of_readAlong hlast, hmirrors.locals]

/-! ## Steps that go the same way in mirrored frames -/

/-- The step succeeds and rearranges the frame, and goes the same way in a mirrored frame in which
the first names are kept. -/
structure Proceeds (graph : TypeGraph) (bound : Nat) (step : Framed PUnit) (frame later : Frame) :
    Prop where
  run : step frame graph = .ok (⟨⟩, later) graph
  rearranges : frame.Rearranges graph later graph
  mirrored : ∀ names other, Mirrors names frame other → KeepsBelow bound names →
    ∃ last, step other graph = .ok (⟨⟩, last) graph ∧ Mirrors names later last

/-- A round for each item of a list proceeds if each round does. -/
theorem exists_proceeds_forM {ι : Type} {body : ι → Framed PUnit} (items : List ι)
    (invariant : Frame → Prop) (hfounded : frame.Founded graph) (hstart : invariant frame)
    (hbody : ∀ item ∈ items, ∀ frame, frame.Founded graph → invariant frame →
      ∃ later, Proceeds graph bound (body item) frame later ∧ invariant later) :
    ∃ later, Proceeds graph bound (items.forM body) frame later ∧ invariant later := by
  induction items generalizing frame with
  | nil =>
    exact ⟨frame, ⟨rfl, .refl hfounded, fun names other hmirrors _ => ⟨other, rfl, hmirrors⟩⟩,
      hstart⟩
  | cons item rest ih =>
    obtain ⟨hitem, hrest⟩ := List.forall_mem_cons.mp hbody
    obtain ⟨middle, hfirst, hmiddle⟩ := hitem frame hfounded hstart
    obtain ⟨later, hsecond, hlater⟩ := ih hfirst.rearranges.founded hmiddle hrest
    refine ⟨later, ⟨?_, hfirst.rearranges.trans hsecond.rearranges, ?_⟩, hlater⟩
    · exact (run_bind_of_ok hfirst.run).trans hsecond.run
    · intro names other hmirrors hkeeps
      obtain ⟨between, hbetween, hmirrors'⟩ := hfirst.mirrored names other hmirrors hkeeps
      obtain ⟨last, hlast, hmirrors''⟩ := hsecond.mirrored names between hmirrors' hkeeps
      exact ⟨last, (run_bind_of_ok hbetween).trans hlast, hmirrors''⟩

/-! ## Frames with other locals -/

theorem Renames.eq_withLocals (hrenames : Renames (Equiv.refl AllocId) frame other) :
    other = frame.withLocals other.locals := by
  have hobjects : other.allocations = frame.allocations := by
    refine Array.ext_getElem? fun index => ?_
    have hobject := hrenames.objects ⟨index⟩
    rw [Equiv.refl_apply] at hobject
    rw [hobject]
    cases frame.allocations[index]? <;> simp
  obtain ⟨_, _, _, _, _⟩ := other
  obtain ⟨_, _, _, _, _⟩ := frame
  obtain ⟨rfl, rfl, rfl, rfl⟩ := And.intro hrenames.slots
    (And.intro hrenames.writes (And.intro hrenames.calls hobjects))
  rfl

/-- Reading does not look at the locals. -/
theorem readAlong_withLocals (hcomplete : frame.Complete graph)
    (hread : readAlong declarations span graph root chain frame = .ok (operand, later))
    (locals : OrderedMap String Operand) :
    readAlong declarations span graph root chain (frame.withLocals locals) =
      .ok (operand, later.withLocals locals) := by
  have hrenames : Renames (Equiv.refl AllocId) frame (frame.withLocals locals) :=
    { Renames.refl frame with }
  obtain ⟨last, hlast, hsame⟩ := hrenames.readAlong hcomplete hread
  rw [Operand.rename_refl, Operand.rename_refl] at hlast
  rw [hlast, hsame.eq_withLocals, locals_of_readAlong hlast]
  rfl

/-! ## The parts that hold a place -/

/-- The listed parts are told by those of the single objects. -/
theorem partsWithin_congr (hparts : ∀ id : AllocId,
      (other.allocations[id.index]?).map (Allocation.partsWithin base id) =
        (frame.allocations[id.index]?).map (Allocation.partsWithin base id)) :
    other.partsWithin base = frame.partsWithin base := by
  have hlists : ∀ frame : Frame, frame.partsWithin base =
      (frame.allocations.toList.mapIdx fun index => Allocation.partsWithin base ⟨index⟩).flatten :=
    fun frame => by
      rw [List.mapIdx_eq_zipIdx_map, ← List.flatMap_def]
      rfl
  rw [hlists, hlists]
  congr 1
  refine List.ext_getElem? fun index => ?_
  rw [List.getElem?_mapIdx, List.getElem?_mapIdx, Array.getElem?_toList, Array.getElem?_toList]
  exact hparts ⟨index⟩

theorem map_partsWithin_of_none {id : AllocId} (hnone : ∀ object,
      frame.allocations[id.index]? = some object → object.partsWithin base id = []) :
    (frame.allocations[id.index]?).map (Allocation.partsWithin base id) =
      if id.index < frame.allocations.size then some [] else none := by
  split
  · rename_i hlt
    have hobject := Array.getElem?_eq_getElem hlt
    rw [hobject, Option.map_some, hnone _ hobject]
  · rename_i hlt
    rw [Array.getElem?_eq_none (Nat.not_lt.mp hlt), Option.map_none]

/-- Mirrored frames have the same parts within the base if those are parts of objects of which the
names are kept. -/
theorem Mirrors.partsWithin_eq (hmirrors : Mirrors names frame other)
    (hkeeps : KeepsBelow bound names)
    (hnew : ∀ (id : Nat) (object : Allocation), frame.allocations[id]? = some object → bound ≤ id →
      ∀ selector held, object.fields.get? selector = some held → held.placeWithin? base = none) :
    other.partsWithin base = frame.partsWithin base := by
  have hnone : ∀ {id : AllocId} {object : Allocation}, bound ≤ id.index → ∀ held,
      frame.allocations[id.index]? = some object → object.partsWithin base held = [] :=
    fun hle held hobject =>
      Allocation.partsWithin_eq_nil base held (hnew _ _ hobject hle)
  refine partsWithin_congr fun id => ?_
  obtain ⟨before, rfl⟩ := names.surjective id
  by_cases hlt : before.index < bound
  · rw [hmirrors.objects, hkeeps before hlt]
    cases frame.allocations[before.index]? <;> simp
  · have hle : bound ≤ (names before).index := by
      by_contra hkept
      have hsame := names.injective (hkeeps (names before) (Nat.not_le.mp hkept))
      exact hlt (hsame ▸ Nat.not_le.mp hkept)
    rw [map_partsWithin_of_none fun object => hnone hle (names before),
      map_partsWithin_of_none fun object hobject => ?_, hmirrors.size]
    rw [hmirrors.objects] at hobject
    obtain ⟨old, hold, rfl⟩ := Option.map_eq_some_iff.mp hobject
    rw [Allocation.partsWithin_rename, hnone (Nat.not_lt.mp hlt) (names before) hold]

end Frame

end ShapeFlow
