import ShapeFlow.Proofs.FoundedCopies
import ShapeFlow.Proofs.MirroredFrames

/-!
# Places that are found in a copy

Once a copy of a vacated place has been made, each local, part and value that is told by a place
within the vacated one receives what is found by following the same selectors from the copy
(`Frame.Retraces`).  This succeeds as far as the copy stands in for the place
(`Frame.StandsIn.retraces`), and the next one still succeeds after it, because each of these steps
leaves everything leading as far as it did.

Each step goes the same way in a mirrored frame, as long as the copy has the same name in both
(`Frame.Rereads.rebindLocal`, `Frame.Augments.exists_rebindPart`,
`Frame.Rearranges.exists_retraceValue`).
-/

namespace ShapeFlow

variable {declarations : Declarations} {span : Span} {start frame later other last : Frame}
  {graph : TypeGraph} {operand root : Operand} {base place : AccessPath}
  {chain : List Selector} {names : Equiv.Perm AllocId} {bound : Nat}

namespace Frame

/-! ## Places that are found in the copy -/

/-- The place lies within the base, and what lies below the base can be followed from the root. -/
def Retraces (frame : Frame) (graph : TypeGraph) (root : Operand) (base place : AccessPath) :
    Prop :=
  ∃ chain, place = base.append chain ∧ frame.leads graph root chain = true

theorem Retraces.mono (hretraces : frame.Retraces graph root base place)
    (hroot : frame.Refers graph root) (hrearranges : frame.Rearranges graph later graph) :
    later.Retraces graph root base place := by
  obtain ⟨chain, hplace, hleads⟩ := hretraces
  exact ⟨chain, hplace, (hrearranges.leads root hroot chain).trans hleads⟩

/-- A place within the base is found in what stands in for the base. -/
theorem StandsIn.retraces {grown : TypeGraph}
    (hstands : start.StandsIn graph base frame grown root) (hfounded : start.Founded graph)
    (hplace : start.Refers graph (.path place)) (hwithin : place.liesWithin base = true) :
    frame.Retraces grown root base place := by
  obtain ⟨chain, rfl⟩ := (AccessPath.liesWithin_iff place base).mp hwithin
  refine ⟨chain, rfl, (hstands.leads chain).trans ?_⟩
  rw [← List.append_nil chain, ← leads_append]
  exact hfounded.leads_nil hplace

theorem retrace_of_ok
    (hread : readAlong declarations span graph root chain frame = .ok (operand, later)) :
    retrace declarations span root base (base.append chain) frame graph =
      .ok (operand, later) graph := by
  unfold retrace
  rw [AccessPath.below?_append]
  exact reading_of_ok hread

/-- What is found at a place in the copy leads as far as the copy does along the place. -/
theorem Founded.exists_retrace (hfounded : frame.Founded graph) (hroot : frame.Refers graph root)
    (declarations : Declarations) (span : Span)
    (hretraces : frame.Retraces graph root base place) :
    ∃ chain operand later, place = base.append chain ∧
      readAlong declarations span graph root chain frame = .ok (operand, later) := by
  obtain ⟨chain, rfl, hleads⟩ := hretraces
  obtain ⟨operand, later, hread, -⟩ :=
    hfounded.exists_readAlong hroot declarations span hleads
  exact ⟨chain, operand, later, rfl, hread⟩

/-! ## Locals -/

/-- A local receives what is found at its place in the copy. -/
def rebindLocal (declarations : Declarations) (span : Span) (root : Operand) (base : AccessPath)
    (binding : String × AccessPath) : Framed PUnit := do
  let operand ← retrace declarations span root base binding.2
  modifyThe Frame (setLocal binding.1 operand)

theorem rebindLocal_of_ok {name : String}
    (hread : readAlong declarations span graph root chain frame = .ok (operand, later)) :
    rebindLocal declarations span root base (name, base.append chain) frame graph =
      .ok (⟨⟩, later.setLocal name operand) graph := by
  have hretrace : retrace declarations span root base (base.append chain) frame graph = _ :=
    retrace_of_ok hread
  exact run_bind_of_ok hretrace

/-- The frame has come about from the other one by readings and by setting locals. -/
structure Rereads (start : Frame) (graph : TypeGraph) (frame : Frame) : Prop
    extends Rearranges start graph frame graph where
  amends : Amends (fun _ => False) start frame

section RebindingLocals

variable (hrereads : start.Rereads graph frame) (hroot : start.Refers graph root)

include hrereads hroot

/-- A local is rebound in the same way in a mirrored frame. -/
theorem Rereads.rebindLocal
    (hread : readAlong declarations span graph root chain frame = .ok (operand, later))
    (base : AccessPath) (name : String) :
    Proceeds graph start.allocations.size
      (rebindLocal declarations span root base (name, base.append chain)) frame
        (later.setLocal name operand) ∧ start.Rereads graph (later.setLocal name operand) := by
  have hreaches := hrereads.founded.reaches (hrereads.refers root hroot) hread
  have hread' := hrereads.founded.promotes hreaches.promotes
  have hrearranges := hread'.trans (hread'.founded.setLocal name hreaches.refers)
  refine ⟨⟨rebindLocal_of_ok hread, hrearranges, fun names other hmirrors hkeeps => ?_⟩,
    hrereads.toRearranges.trans hrearranges,
    hrereads.amends.trans (hreaches.promotes.amends.trans (.of_allocations_eq rfl))⟩
  obtain ⟨last, hlast, hmirrors'⟩ := hmirrors.readAlong hrereads.founded.complete hread
  rw [hroot.rename_eq hkeeps] at hlast
  exact ⟨_, rebindLocal_of_ok hlast, hmirrors'.setLocal name operand⟩

theorem Rereads.exists_rebindLocal (declarations : Declarations) (span : Span)
    {binding : String × AccessPath} (hretraces : start.Retraces graph root base binding.2) :
    ∃ later, Proceeds graph start.allocations.size
      (Frame.rebindLocal declarations span root base binding) frame later ∧
        start.Rereads graph later := by
  obtain ⟨name, place⟩ := binding
  obtain ⟨chain, operand, later, rfl, hread⟩ := hrereads.founded.exists_retrace
    (hrereads.refers root hroot) declarations span (hretraces.mono hroot hrereads.toRearranges)
  exact ⟨_, hrereads.rebindLocal hroot hread base name⟩

theorem Rereads.exists_rebindLocals (declarations : Declarations) (span : Span)
    {bindings : List (String × AccessPath)}
    (hretraces : ∀ binding ∈ bindings, start.Retraces graph root base binding.2) :
    ∃ later, Proceeds graph start.allocations.size
      (bindings.forM (Frame.rebindLocal declarations span root base)) frame later ∧
        start.Rereads graph later :=
  exists_proceeds_forM bindings (start.Rereads graph) hrereads.founded hrereads
    fun _ hmem _ _ hrereads => hrereads.exists_rebindLocal hroot declarations span
      (hretraces _ hmem)

end RebindingLocals

/-! ## Parts -/

/-- A part receives what is found at its place in the copy. -/
def rebindPart (declarations : Declarations) (span : Span) (root : Operand) (base : AccessPath)
    (part : AllocId × Selector × AccessPath) : Framed PUnit := do
  let operand ← retrace declarations span root base part.2.2
  reading fun _ => setPart part.1 part.2.1 operand

theorem rebindPart_of_ok {id : AllocId} {object : Allocation}
    (hread : readAlong declarations span graph root chain frame = .ok (operand, later))
    (hobject : later.allocations[id.index]? = some object) (selector : Selector) :
    rebindPart declarations span root base (id, selector, base.append chain) frame graph =
      .ok (⟨⟩, later.update id fun object => object.withField selector operand) graph := by
  have hretrace : retrace declarations span root base (base.append chain) frame graph = _ :=
    retrace_of_ok hread
  exact (run_bind_of_ok hretrace).trans (reading_of_ok (setPart_of_ok hobject selector operand))

theorem Promotes.augments (hpromotes : frame.Promotes graph later)
    (hfounded : frame.Founded graph) : frame.Augments graph later graph := by
  refine ⟨hfounded.promotes hpromotes, .refl graph, fun id object hobject => ?_⟩
  obtain ⟨after, hafter, hhome, -⟩ := hpromotes.amends.old id object hobject
  exact ⟨after, hafter, hhome⟩

/-- A part is rebound in the same way in a mirrored frame in which its object keeps its name. -/
theorem Augments.exists_rebindPart (haugments : start.Augments graph frame graph)
    (hfounded : start.Founded graph) (hstands : start.StandsIn graph base start graph root)
    {part : AllocId × Selector × AccessPath} (hpart : part ∈ start.partsWithin base)
    (hkept : ∀ names, KeepsBelow bound names → root.rename names = root ∧ names part.1 = part.1)
    (declarations : Declarations) (span : Span) :
    ∃ later, Proceeds graph bound (rebindPart declarations span root base part) frame later ∧
      start.Augments graph later graph := by
  obtain ⟨id, selector, place⟩ := part
  obtain ⟨hwithin, object, hobject, hheld⟩ := part_of_mem_partsWithin hpart
  have hplace := hfounded.parts _ object _ _ hobject hheld
  have hroot := haugments.refers root hstands.refers
  obtain ⟨chain, operand, middle, rfl, hread⟩ := haugments.founded.exists_retrace hroot declarations
    span ((hstands.retraces hfounded hplace hwithin).mono hstands.refers haugments.toRearranges)
  have hreaches := haugments.founded.reaches hroot hread
  have hpromotes := hreaches.promotes.augments haugments.founded
  have hmiddle := haugments.trans hpromotes
  obtain ⟨after, hafter, hhome⟩ := hmiddle.homes id.index object hobject
  have hleads : after.home? = none → ∀ rest, middle.leads graph operand rest =
      middle.leads graph (.fresh id) (selector :: rest) := by
    intro hnone rest
    have hid : start.Refers graph (.fresh id) := refers_fresh_iff.mpr ⟨object, hobject⟩
    have hlocal := localObject?_fresh_iff.mpr ⟨hobject, hhome.symm.trans hnone⟩
    calc middle.leads graph operand rest
        = frame.leads graph root (chain ++ rest) := congrArg Option.isSome (hreaches.ends rest)
      _ = start.leads graph root (chain ++ rest) := haugments.leads root hstands.refers _
      _ = start.leads graph (.path base) (chain ++ rest) := hstands.leads _
      _ = start.leads graph (.path (base.append chain)) rest := (leads_append ..).symm
      _ = start.leads graph (.fresh id) (selector :: rest) := by
        rw [leads_of_local hlocal, hheld]
        rfl
      _ = middle.leads graph (.fresh id) (selector :: rest) := (hmiddle.leads _ hid _).symm
  have hbound : middle.Augments graph
      (middle.update id fun object => object.withField selector operand) graph :=
    ⟨hmiddle.founded.bindPart hafter hreaches.refers hleads, .refl graph,
      .update middle id fun _ => rfl⟩
  refine ⟨_, ⟨rebindPart_of_ok hread hafter selector, (hpromotes.trans hbound).toRearranges,
    fun names other hmirrors hkeeps => ?_⟩, hmiddle.trans hbound⟩
  obtain ⟨hroot', hid⟩ := hkept names hkeeps
  obtain ⟨last, hlast, hmirrors'⟩ := hmirrors.readAlong haugments.founded.complete hread
  have hobject' := hmirrors'.getElem? hafter
  have hset := hmirrors'.withField id selector operand
  rw [hroot'] at hlast
  rw [hid] at hobject' hset
  exact ⟨_, rebindPart_of_ok hlast hobject' selector, hset⟩

/-! ## The value -/

/-- A value that is told by the place is found in the copy. -/
def retraceValue (declarations : Declarations) (span : Span) (root : Operand) (base : AccessPath)
    (value : Operand) : Framed Operand :=
  match value.placeWithin? base with
  | some place => retrace declarations span root base place
  | none => pure value

/-- The value is found in the same way in a mirrored frame in which it keeps its name. -/
theorem Rearranges.exists_retraceValue {value : Operand}
    (hrearranges : start.Rearranges graph frame graph) (hfounded : start.Founded graph)
    (hstands : start.StandsIn graph base start graph root) (hvalue : start.Refers graph value)
    (declarations : Declarations) (span : Span) :
    ∃ moved later,
      retraceValue declarations span root base value frame graph = .ok (moved, later) graph ∧
        ∀ names other, Mirrors names frame other → root.rename names = root →
          value.rename names = value → ∃ last,
            retraceValue declarations span root base value other graph =
                .ok (moved.rename names, last) graph ∧
              Mirrors names later last := by
  unfold retraceValue
  cases hplace : value.placeWithin? base with
  | none =>
    refine ⟨value, frame, rfl, fun names other hmirrors _ hkept => ⟨other, ?_, hmirrors⟩⟩
    rw [hkept]
    rfl
  | some place =>
    obtain ⟨rfl, hwithin⟩ := eq_path_of_placeWithin? hplace
    have hretraces := (hstands.retraces hfounded hvalue hwithin).mono hstands.refers hrearranges
    obtain ⟨chain, moved, later, rfl, hread⟩ := hrearranges.founded.exists_retrace
      (hrearranges.refers root hstands.refers) declarations span hretraces
    refine ⟨moved, later, retrace_of_ok hread, fun names other hmirrors hroot _ => ?_⟩
    obtain ⟨last, hlast, hmirrors'⟩ := hmirrors.readAlong hrearranges.founded.complete hread
    rw [hroot] at hlast
    exact ⟨last, retrace_of_ok hlast, hmirrors'⟩

end Frame

end ShapeFlow
