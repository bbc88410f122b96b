import ShapeFlow.Proofs.ElaboratedReads
import ShapeFlow.Proofs.VacatedCopies

/-!
# Vacating a place changes no type

A part of the copy that is made when a place is vacated comes from one of four sources: the type of
the slot, an object that loses its home, what the object held before it got its home, or a new
object with copied parts.  All of them look like the part of the place that they stand for
(`Frame.copy_finds`).  For what was held before, this is what the comparison of types is for
(`Frame.isCurrent_ends`).

The parts of all objects that lose their homes are copied while the objects are still told by their
homes, so each list of parts spells out its object, and releasing the objects one after the other
keeps everything looking the same (`Frame.Coherent.release`).  After that the copy is what the place
was, and everything told by the place is rebound to what is found by following the same selectors
from the copy (`Frame.Copied`).  In coherent frames nothing of this fails
(`Frame.vacate_restates`).
-/

namespace ShapeFlow

open TypeGraph (SameUnfolding)

variable {declarations : Declarations} {span : Span} {frame later last : Frame}
  {graph grown final : TypeGraph} {operand value : Operand} {base place : AccessPath}
  {leaving : List (AllocId × AccessPath)} {copier : AccessPath → Framed Operand}

namespace Frame

/-! ## What a part held before -/

/-- The type of an operand is found. -/
theorem typeOf_surely (hcoherent : frame.Coherent graph) (hrefers : frame.Refers graph operand) :
    surely.Ends graph (frame.typeOf declarations span operand graph) fun type grown =>
      grown.WellFormed ∧ grown.Has type ∧
        ∀ chain, grown.endAt? type chain = frame.endOf? graph operand chain := by
  obtain ⟨type, grown, hrun, hgrows, hpost⟩ := exists_typeOf declarations span hcoherent hrefers
  rw [hrun]
  exact ⟨hgrows, hpost⟩

/-- What is kept of a part looks like the part. -/
theorem keptPart_finds (hcoherent : frame.Coherent graph) {existing? : Option AllocId}
    (hexisting : ∀ id, existing? = some id → frame.Refers graph (.fresh id))
    {selector : Selector} {part : TypeId} (hpart : graph.Has part) :
    surely.Ends graph (keptPart declarations span base existing? selector part frame graph)
      fun result grown => frame.Finds graph (graph.endAt? part) result.1 result.2 grown := by
  have htype : ∀ {grown : TypeGraph}, graph.Grows grown → grown.WellFormed →
      frame.Finds graph (graph.endAt? part) (.type part) frame grown := fun hgrows hwell =>
    ⟨.of_grows hcoherent hgrows hwell, hgrows.has hpart, fun chain => by
      rw [endOf?_type, hgrows.endAt?_eq hcoherent.wellFormed.closed hpart]⟩
  unfold keptPart
  refine (Discipline.Ends.inspect (fun previous? => ∀ previous, previous? = some previous →
    frame.Refers graph previous) trivial ?_).run_bind ?_
  · cases existing? with
    | none => exact fun previous hprevious => nomatch hprevious
    | some id =>
      obtain ⟨object, hobject⟩ := refers_fresh_iff.mp (hexisting id rfl)
      have hallocation : Checked.Surely (frame.allocation id) (object = ·) :=
        Checked.surely_of_eq ((found_eq_ok_iff _ _ object).mpr hobject) rfl
      refine hallocation.bind ?_
      rintro _ rfl
      exact fun previous hprevious =>
        hcoherent.parts id.index object selector previous hobject hprevious
  · rintro previous? _ _ - ⟨rfl, rfl, hprevious⟩
    cases previous? with
    | none => exact .run_pure (htype (.refl graph) hcoherent.wellFormed)
    | some previous =>
      have hrefers := hprevious previous rfl
      refine (isCurrent_ends hcoherent.wellFormed (fun hgrows => hgrows)
        (typeOf_surely hcoherent hrefers) hpart).run_bind ?_
      rintro current _ grown hgrows ⟨rfl, hwell, hcurrent⟩
      cases current with
      | false => exact .run_pure (htype hgrows hwell)
      | true =>
        refine .run_pure ⟨.of_grows hcoherent hgrows hwell, hrefers.mono hgrows hcoherent,
          fun chain => ?_⟩
        rw [← (hcurrent rfl).2, hcoherent.sameEnds_mono hgrows hrefers]

/-! ## Copies -/

/-- The objects that lose their homes are still at home. -/
def AtHome (leaving : List (AllocId × AccessPath)) (frame : Frame) : Prop :=
  ∀ resident ∈ leaving, ∃ object, frame.allocations[resident.1.index]? = some object ∧
    object.home? = some resident.2

theorem AtHome.of_sameHomes (hhome : AtHome leaving frame) (hhomes : frame.SameHomes later) :
    AtHome leaving later := by
  intro resident hmem
  obtain ⟨object, hobject, hsome⟩ := hhome resident hmem
  obtain ⟨after, hafter, hkept⟩ := hhomes resident.1.index object hobject
  exact ⟨after, hafter, hkept.trans hsome⟩

theorem atHome_residents (frame : Frame) (base : AccessPath) :
    AtHome (frame.residents base) frame := by
  intro resident hmem
  obtain ⟨object, hobject, hhome, -⟩ := home_of_mem_residents hmem
  exact ⟨object, hobject, hhome⟩

/-- The copier finds the parts of a place at or below which an object loses its home. -/
def FindsParts (leaving : List (AllocId × AccessPath)) (copier : AccessPath → Framed Operand)
    (place : AccessPath) : Prop :=
  ∀ selector, (leaving.any fun resident => resident.2.liesWithin (place.child selector)) = true →
    ∀ frame graph, frame.Coherent graph → AtHome leaving frame →
      frame.Refers graph (.path (place.child selector)) →
        surely.Ends graph (copier (place.child selector) frame graph) fun result grown =>
          frame.Finds graph (frame.endOf? graph (.path (place.child selector))) result.1 result.2
            grown

/-- An operand of the later frame looks like the part of a place. -/
def StandsForPart (frame : Frame) (graph : TypeGraph) (place : AccessPath) (later : Frame)
    (grown : TypeGraph) (entry : Selector × TypeId) (held : Operand) : Prop :=
  later.Refers grown held ∧ SameEnds frame graph (.path (place.child entry.1)) later grown held

/-- Images of the parts of a place, each of which looks like the part, spell out the place. -/
theorem spellsOut_of_images (hrestates : frame.Restates graph later grown) {type : TypeId}
    {node : TypeNode} (hfound : frame.placeType? graph place = some type)
    (hnode : graph.node? type = some node) {parts : List (Selector × Operand)}
    (hparts : List.Forall₂ (fun entry part => part.1 = entry.1 ∧
      StandsForPart frame graph place later grown entry part.2) node.fields.entries parts) :
    later.SpellsOut grown (.ofList parts) (.path place) := by
  have hplace : frame.Refers graph (.path place) := refers_path_iff.mpr ⟨type, hfound⟩
  have hstep : ∀ selector rest, later.endOf? grown (.path place) (selector :: rest) =
      (node.fields.get? selector).bind fun part => graph.endAt? part rest := by
    intro selector rest
    rw [← hrestates.operands _ hplace, endOf?_path, hfound, Option.bind_some,
      TypeGraph.endAt?_cons, TypeGraph.field?_eq_of_node? hnode]
  refine ⟨fun selector held hheld => ?_, fun selector rest => ?_⟩
  · obtain ⟨_, -, hrefers, -⟩ := OrderedMap.exists_of_get?_images
      (StandsForPart frame graph place later grown) node.fields hparts hheld
    exact hrefers
  · cases hheld : (OrderedMap.ofList parts).get? selector with
    | some held =>
      obtain ⟨_, -, -, hsame⟩ := OrderedMap.exists_of_get?_images
        (StandsForPart frame graph place later grown) node.fields hparts hheld
      rw [Option.bind_some, ← hsame, endOf?_child, hrestates.operands _ hplace]
    | none =>
      -- The images have the keys of the parts, so the place has no such part either.
      have hnone := (OrderedMap.get?_ofList_images_eq_none_iff
        (StandsForPart frame graph place later grown) node.fields hparts).mp hheld
      rw [hstep, hnone, Option.bind_none, Option.bind_none]

/-- The copy of an object has parts that spell out the place. -/
theorem copyParts_spellsOut (hcopier : FindsParts leaving copier place)
    (hcoherent : frame.Coherent graph) (hhome : AtHome leaving frame) {existing? : Option AllocId}
    (hexisting : ∀ id, existing? = some id → frame.Refers graph (.fresh id))
    (hplace : frame.Refers graph (.path place)) :
    surely.Ends graph
      (copyParts declarations span base leaving copier existing? place frame graph)
      fun result grown => frame.Elaborates graph result.2 grown ∧
        result.2.SpellsOut grown result.1 (.path place) := by
  unfold copyParts
  refine (Discipline.Ends.inspect _ trivial (placeType_surely hplace)).run_bind ?_
  rintro type _ _ - ⟨rfl, rfl, hfound⟩
  have hhas := has_placeType? hcoherent.wellFormed.closed hcoherent.hasTypes hfound
  refine (Discipline.Ends.inspect _ trivial (TypeGraph.node_surely hhas)).run_bind ?_
  rintro node _ _ - ⟨rfl, rfl, hnode⟩
  refine (Discipline.Ends.mapM_along node.fields.entries Elaborates (fun entry part later grown =>
    part.1 = entry.1 ∧ StandsForPart frame graph place later grown entry part.2)
    (.refl hcoherent) (fun hlater => .refl hlater.coherent) Elaborates.trans ?_ ?_).run_bind ?_
  · rintro entry part middle between later grown helaborates ⟨hkey, hrefers, hsame⟩
    exact ⟨hkey, helaborates.refers _ hrefers,
      hsame.trans (helaborates.operands _ hrefers)⟩
  · rintro ⟨selector, part⟩ hentry later grown helaborates
    have hpart := (node.fields.get?_eq_some_iff selector part).mpr hentry
    have hfield : graph.field? type selector = some part :=
      (TypeGraph.field?_eq_of_node? hnode selector).trans hpart
    have hinner := placeType?_child hfound hfield
    have hrefers : frame.Refers graph (.path (place.child selector)) :=
      refers_path_iff.mpr ⟨part, hinner⟩
    have hyields : ∀ {held : Operand} {last : Frame} {final : TypeGraph},
        later.Finds grown (later.endOf? grown (.path (place.child selector))) held last final →
          later.Elaborates grown last final ∧ selector = selector ∧
            StandsForPart frame graph place last final (selector, part) held :=
      fun hfinds => ⟨hfinds.elaborates, rfl, hfinds.refers, fun chain => by
        rw [hfinds.ends, helaborates.operands _ hrefers]⟩
    dsimp only
    split
    · rename_i hany
      refine (hcopier selector hany later grown helaborates.coherent
        (hhome.of_sameHomes helaborates.homes) (helaborates.refers _ hrefers)).run_bind ?_
      rintro held last final - hfinds
      exact .run_pure (hyields hfinds)
    · have hpartHas : grown.Has part := helaborates.refers (.type part)
        (hcoherent.wellFormed.closed.has_field? hfield)
      refine (keptPart_finds helaborates.coherent
        (fun id hid => helaborates.refers _ (hexisting id hid)) hpartHas).run_bind ?_
      rintro held last final - hfinds
      have hends : ∀ chain, grown.endAt? part chain =
          later.endOf? grown (.path (place.child selector)) chain := by
        intro chain
        have hkept := helaborates.operands (.type part)
          (hcoherent.wellFormed.closed.has_field? hfield) chain
        rw [endOf?_type, endOf?_type] at hkept
        rw [← hkept, ← helaborates.operands _ hrefers, endOf?_path, hinner, Option.bind_some]
      exact .run_pure (hyields ⟨hfinds.elaborates, hfinds.refers, fun chain =>
        (hfinds.ends chain).trans (hends chain)⟩)
  · rintro parts later grown - ⟨helaborates, hparts⟩
    exact .run_pure ⟨helaborates, spellsOut_of_images helaborates.toRestates hfound hnode hparts⟩

/-- The copy of what is found at a place looks like the place. -/
theorem copyAt_finds (hcopier : FindsParts leaving copier place)
    (hcoherent : frame.Coherent graph) (hhome : AtHome leaving frame)
    (hplace : frame.Refers graph (.path place)) :
    surely.Ends graph (copyAt declarations span base leaving copier place frame graph)
      fun result grown => frame.Finds graph (frame.endOf? graph (.path place)) result.1 result.2
        grown := by
  unfold copyAt
  cases hfind : leaving.find? fun resident => resident.2 = place with
  | some resident =>
    obtain ⟨object, hobject, hsome⟩ := hhome resident (List.mem_of_find?_eq_some hfind)
    obtain rfl : resident.2 = place := by simpa using List.find?_some hfind
    exact .run_pure ⟨.refl hcoherent, refers_fresh_iff.mpr ⟨object, hobject⟩,
      sameEnds_home hobject hsome⟩
  | none =>
    refine (Discipline.Ends.inspect _ trivial (placeType_surely hplace)).run_bind ?_
    rintro type _ _ - ⟨rfl, rfl, hfound⟩
    have hhas := has_placeType? hcoherent.wellFormed.closed hcoherent.hasTypes hfound
    refine (Discipline.Ends.inspect _ trivial (TypeGraph.node_surely hhas)).run_bind ?_
    rintro node _ _ - ⟨rfl, rfl, hnode⟩
    cases node with
    | scalar =>
      exact .run_pure ⟨.refl hcoherent, hhas, fun chain => by
        rw [endOf?_type, endOf?_path, hfound, Option.bind_some]⟩
    | object className types =>
      refine (copyParts_spellsOut hcopier hcoherent hhome
        (fun id hid => absurd hid.symm (Option.some_ne_none id)) hplace).run_bind ?_
      rintro fields later grown hgrows ⟨helaborates, hspells⟩
      have hclass : later.endOf? grown (.path place) [] = some (some className) := by
        rw [← helaborates.operands _ hplace, endOf?_path, hfound, Option.bind_some,
          TypeGraph.endAt?_nil, TypeGraph.className?_eq_some_iff.mpr ⟨types, hnode⟩]
      have hlater := helaborates.coherent
      have hsame := hlater.allocate_sameEnds (helaborates.refers _ hplace) hclass hspells
      refine ⟨.refl grown, helaborates.trans (hlater.allocate className hspells.refers),
        by simp [Refers], fun chain => ?_⟩
      exact (hsame chain).symm.trans (helaborates.operands _ hplace chain).symm

/-- There is room for the copy of a place, and the copy looks like the place. -/
theorem copy_finds (room : Nat) (hreach : Reach leaving room place)
    (hcoherent : frame.Coherent graph) (hhome : AtHome leaving frame)
    (hplace : frame.Refers graph (.path place)) :
    surely.Ends graph (copy declarations span base leaving room place frame graph)
      fun result grown => frame.Finds graph (frame.endOf? graph (.path place)) result.1 result.2
        grown := by
  induction room generalizing place frame graph with
  | zero =>
    refine copyAt_finds (fun selector hany => ?_) hcoherent hhome hplace
    rw [hreach.of_room_zero selector] at hany
    exact nomatch hany
  | succ room ih =>
    exact copyAt_finds (fun selector _ frame graph hcoherent hhome hplace =>
      ih (hreach.child selector) hcoherent hhome hplace) hcoherent hhome hplace

/-! ## Vacating a place -/

/-- A place around one that leads somewhere leads somewhere. -/
theorem Refers.of_within (hplace : frame.Refers graph (.path place))
    (hwithin : place.liesWithin base = true) : frame.Refers graph (.path base) := by
  obtain ⟨selectors, rfl⟩ := (AccessPath.liesWithin_iff place base).mp hwithin
  rw [Refers, placeType?_append] at hplace
  exact Option.isSome_of_isSome_bind hplace

/-- Nothing is told by the place, or by one below it. -/
def Untold (frame : Frame) (base : AccessPath) (value : Operand) : Prop :=
  ((frame.residents base).isEmpty && (frame.localsWithin base).isEmpty &&
    (value.placeWithin? base).isNone && (frame.partsWithin base).isEmpty) = true

/-- A place leads somewhere if anything is told by it, or by a place below it. -/
theorem Founded.refers_of_within (hfounded : frame.Founded graph)
    (hvalue : frame.Refers graph value) (htold : ¬ frame.Untold base value) :
    frame.Refers graph (.path base) := by
  simp only [Untold, Bool.and_eq_true, not_and_or, List.isEmpty_iff] at htold
  rcases htold with ((hresidents | hlocals) | hplace) | hparts
  · obtain ⟨resident, hmem⟩ := List.exists_mem_of_ne_nil _ hresidents
    obtain ⟨object, hobject, hhome, hwithin⟩ := home_of_mem_residents hmem
    exact (hfounded.homes _ object _ hobject hhome).of_within hwithin
  · obtain ⟨binding, hmem⟩ := List.exists_mem_of_ne_nil _ hlocals
    exact (hfounded.locals _ _ (local_of_mem_localsWithin hmem)).of_within
      (within_of_mem_localsWithin hmem)
  · rw [Option.isNone_iff_eq_none, ← ne_eq, Option.ne_none_iff_exists'] at hplace
    obtain ⟨place, hplace⟩ := hplace
    obtain ⟨rfl, hwithin⟩ := eq_path_of_placeWithin? hplace
    exact hvalue.of_within hwithin
  · obtain ⟨part, hmem⟩ := List.exists_mem_of_ne_nil _ hparts
    obtain ⟨hwithin, object, hobject, hheld⟩ := part_of_mem_partsWithin hmem
    exact (hfounded.parts _ object _ _ hobject hheld).of_within hwithin

/-- The later frame restates the frame, and an operand of it looks like the place. -/
structure Copied (frame : Frame) (graph : TypeGraph) (base : AccessPath) (root : Operand)
    (later : Frame) (grown : TypeGraph) : Prop where
  restates : frame.Restates graph later grown
  refers : later.Refers grown root
  sameEnds : SameEnds frame graph (.path base) later grown root

section Rebinding

variable {root : Operand}

theorem Copied.trans (hcopied : frame.Copied graph base root later grown)
    (hrestates : later.Restates grown last final) : frame.Copied graph base root last final :=
  ⟨hcopied.restates.trans hrestates, hrestates.refers _ hcopied.refers,
    hcopied.sameEnds.trans (hrestates.operands _ hcopied.refers)⟩

/-- A place within the one that was copied is found in the copy. -/
theorem Copied.retrace (hcopied : frame.Copied graph base root later grown)
    (hplace : frame.Refers graph (.path place)) (hwithin : place.liesWithin base = true) :
    surely.Ends grown (retrace declarations span root base place later grown)
      fun result final => later.Finds grown (frame.endOf? graph (.path place)) result.1 result.2
        final := by
  have hbase := hplace.of_within hwithin
  refine (retrace_finds hcopied.restates.coherent hcopied.refers
    (hcopied.sameEnds.symm.trans (hcopied.restates.operands _ hbase)) hwithin
    (hcopied.restates.refers _ hplace)).mono fun result final _ hfinds => ?_
  exact ⟨hfinds.elaborates, hfinds.refers, fun chain =>
    (hfinds.ends chain).trans (hcopied.restates.operands _ hplace chain).symm⟩

/-- All objects that lose their homes get parts that spell them out. -/
theorem rebuildAll_spellsOut (hcoherent : frame.Coherent graph) {room : Nat}
    (hroom : ∀ place, Reach (frame.residents base) room place) :
    surely.Ends graph
      (((frame.residents base).mapM fun resident => do
        let fields ← copyParts declarations span base (frame.residents base)
          (copy declarations span base (frame.residents base) room) (some resident.1) resident.2
        pure (resident.1, fields) : Framed _) frame graph)
      fun result grown => frame.Elaborates graph result.2 grown ∧
        ∀ object ∈ result.1, result.2.Refers grown (.fresh object.1) ∧
          result.2.SpellsOut grown object.2 (.fresh object.1) := by
  have hhome := atHome_residents frame base
  refine (Discipline.Ends.mapM_along (frame.residents base) Elaborates
    (fun resident (object : AllocId × OrderedMap Selector Operand) later grown =>
      object.1 = resident.1 ∧ later.Refers grown (.fresh object.1) ∧
        later.SpellsOut grown object.2 (.fresh object.1))
    (.refl hcoherent) (fun hlater => .refl hlater.coherent) Elaborates.trans ?_ ?_).mono ?_
  · rintro resident object between middle later grown helaborates ⟨hid, hrefers, hspells⟩
    exact ⟨hid, helaborates.refers _ hrefers, hspells.restated hrefers helaborates.toRestates⟩
  · intro resident hmem later grown helaborates
    obtain ⟨object, hobject, hsome⟩ := hhome resident hmem
    have hplace := hcoherent.refers_home hobject hsome
    have hfresh : frame.Refers graph (.fresh resident.1) := refers_fresh_iff.mpr ⟨object, hobject⟩
    have hrefers := helaborates.refers _ hfresh
    refine (copyParts_spellsOut (fun selector _ frame graph hcoherent hhome hplace =>
      copy_finds room (hroom _) hcoherent hhome hplace) helaborates.coherent
      (hhome.of_sameHomes helaborates.homes)
      (fun id (hid : some resident.1 = some id) => Option.some.inj hid ▸ hrefers)
      (helaborates.refers _ hplace)).run_bind ?_
    rintro fields last final - ⟨hlast, hspells⟩
    have hsame : SameEnds last final (.path resident.2) last final (.fresh resident.1) :=
      (helaborates.toRestates.trans hlast.toRestates).sameEnds hplace hfresh
        (sameEnds_home hobject hsome).symm
    exact .run_pure ⟨hlast, rfl, hlast.refers _ hrefers, hspells.of_sameEnds hsame⟩
  · rintro ⟨rebuilt, later⟩ grown - ⟨helaborates, hrebuilt⟩
    refine ⟨helaborates, fun object hmem => ?_⟩
    obtain ⟨resident, -, -, hobject⟩ := exists_mem_of_forall₂ hrebuilt hmem
    exact hobject

/-- The objects give up their homes one after the other. -/
theorem releaseAll_restates (hcoherent : frame.Coherent graph)
    {rebuilt : List (AllocId × OrderedMap Selector Operand)}
    (hrebuilt : ∀ object ∈ rebuilt, frame.Refers graph (.fresh object.1) ∧
      frame.SpellsOut graph object.2 (.fresh object.1)) :
    surely.Ends graph
      ((rebuilt.forM fun object => modifyThe Frame (release object.1 object.2) : Framed PUnit)
        frame graph)
      fun result grown => frame.Restates graph result.2 grown := by
  refine Discipline.Ends.forM rebuilt (fun later grown => frame.Restates graph later grown)
    (Elaborates.refl hcoherent).toRestates fun object hmem later grown hrestates => ?_
  obtain ⟨hrefers, hspells⟩ := hrebuilt object hmem
  exact ⟨.refl grown, hrestates.trans (hrestates.coherent.release
    (hrestates.refers _ hrefers) (hspells.restated hrefers hrestates))⟩

/-- The locals that were told by the place, or by one below it, are rebound. -/
theorem rebindLocals_copied (hcoherent : frame.Coherent graph)
    (hcopied : frame.Copied graph base root later grown) :
    surely.Ends grown
      (((frame.localsWithin base).forM fun binding => do
        let operand ← Frame.retrace declarations span root base binding.2
        modifyThe Frame (setLocal binding.1 operand) : Framed PUnit) later grown)
      fun result final => frame.Copied graph base root result.2 final := by
  refine Discipline.Ends.forM (frame.localsWithin base)
    (fun later grown => frame.Copied graph base root later grown) hcopied
    fun binding hmem later grown hcopied => ?_
  have hlocal := local_of_mem_localsWithin hmem
  have hwithin := within_of_mem_localsWithin hmem
  have hplace := hcoherent.locals _ _ hlocal
  refine (hcopied.retrace hplace hwithin).run_bind ?_
  rintro operand last final - hfinds
  have hcopied' := hcopied.trans hfinds.elaborates.toRestates
  obtain ⟨after, hafter, hsame⟩ := hcopied'.restates.locals _ _ hlocal
  have hbound := hcopied'.restates.coherent.setLocal hafter hfinds.refers
    (hsame.symm.trans fun chain => (hfinds.ends chain).symm)
  exact ⟨.refl final, hcopied'.trans hbound.toRestates⟩

/-- The copy looks like the place in the frame that there is now. -/
theorem Copied.now (hcopied : frame.Copied graph base root later grown)
    (hbase : frame.Refers graph (.path base)) : later.Copied grown base root later grown :=
  ⟨(Elaborates.refl hcopied.restates.coherent).toRestates, hcopied.refers,
    (hcopied.restates.operands _ hbase).symm.trans hcopied.sameEnds⟩

/-- The parts that are told by the place, or by one below it, are rebound.  How such a part looks is
told by its object only if that has no home, so it matters that no home is given up meanwhile. -/
theorem rebindParts_elaborates (hcopied : frame.Copied graph base root frame graph) :
    surely.Ends graph
      (((frame.partsWithin base).forM fun part => do
        let operand ← Frame.retrace declarations span root base part.2.2
        reading fun _ => setPart part.1 part.2.1 operand : Framed PUnit) frame graph)
      fun result grown => frame.Elaborates graph result.2 grown := by
  have hcoherent := hcopied.restates.coherent
  refine Discipline.Ends.forM (frame.partsWithin base)
    (fun later grown => frame.Elaborates graph later grown) (.refl hcoherent)
    fun part hmem later grown helaborates => ?_
  obtain ⟨hwithin, object, hobject, hheld⟩ := part_of_mem_partsWithin hmem
  have hid : frame.Refers graph (.fresh part.1) := refers_fresh_iff.mpr ⟨object, hobject⟩
  have hplace := hcoherent.parts _ object _ _ hobject hheld
  refine ((hcopied.trans helaborates.toRestates).retrace hplace hwithin).run_bind ?_
  rintro held last final - hfinds
  have hlast := helaborates.trans hfinds.elaborates
  obtain ⟨after, hafter, hhome⟩ := hlast.homes _ object hobject
  refine (Discipline.Ends.reading trivial (setPart_elaborates hlast.coherent hafter hfinds.refers
    fun hnone rest => ?_)).mono ?_
  · have hlocal := localObject?_fresh_iff.mpr ⟨hobject, hhome.symm.trans hnone⟩
    rw [hfinds.ends, ← hlast.operands _ hid, endOf?_cons_of_local hlocal, hheld, Option.bind_some]
  · rintro result graph' - ⟨rfl, hset⟩
    exact hlast.trans hset

end Rebinding

/-- A coherent frame in which a place has been vacated looks as before. -/
theorem vacate_restates (hcoherent : frame.Coherent graph) (hvalue : frame.Refers graph value)
    (base : AccessPath) :
    surely.Ends graph (vacate declarations span base value frame graph) fun result grown =>
      frame.Restates graph result.2 grown ∧ result.2.Refers grown result.1 ∧
        SameEnds frame graph value result.2 grown result.1 := by
  unfold vacate
  refine .get_bind ?_
  dsimp only
  split
  · exact .run_pure ⟨(Elaborates.refl hcoherent).toRestates, hvalue, .refl frame graph value⟩
  · rename_i htold
    have hbase := hcoherent.founded.refers_of_within hvalue htold
    have hroom := reach_max (frame.residents base)
    refine (rebuildAll_spellsOut hcoherent hroom).run_bind ?_
    rintro rebuilt changed later - ⟨helaborates, hrebuilt⟩
    refine (copy_finds _ (hroom base) helaborates.coherent
      ((atHome_residents frame base).of_sameHomes helaborates.homes)
      (helaborates.refers _ hbase)).run_bind ?_
    rintro root copied grown - hroot
    have hcopied : frame.Copied graph base root copied grown :=
      ⟨(helaborates.trans hroot.elaborates).toRestates, hroot.refers, fun chain =>
        (helaborates.operands _ hbase chain).trans (hroot.ends chain).symm⟩
    refine (releaseAll_restates hcopied.restates.coherent fun object hmem => ?_).run_bind ?_
    · obtain ⟨hrefers, hspells⟩ := hrebuilt object hmem
      exact ⟨hroot.elaborates.refers _ hrefers,
        hspells.restated hrefers hroot.elaborates.toRestates⟩
    rintro _ released grown₁ - hreleased
    refine (rebindLocals_copied hcoherent (hcopied.trans hreleased)).run_bind ?_
    rintro _ renamed grown₂ - hrenamed
    refine .get_bind ((rebindParts_elaborates (hrenamed.now hbase)).run_bind ?_)
    rintro _ rebound grown₃ - hrebound
    have hfinal := hrenamed.trans hrebound.toRestates
    cases hplace : value.placeWithin? base with
    | none =>
      exact .run_pure ⟨hfinal.restates, hfinal.restates.refers _ hvalue,
        hfinal.restates.operands _ hvalue⟩
    | some place =>
      obtain ⟨rfl, hwithin⟩ := eq_path_of_placeWithin? hplace
      refine (hfinal.retrace hvalue hwithin).mono fun result final _ hfinds => ?_
      exact ⟨hfinal.restates.trans hfinds.elaborates.toRestates, hfinds.refers, fun chain =>
        (hfinds.ends chain).symm⟩

/-! ## The types before and after -/

/-- The type of an operand of the frame and that of an operand of the later one are answered, and
they look the same. -/
def SameTypes (declarations : Declarations) (span : Span) (frame : Frame) (graph : TypeGraph)
    (operand : Operand) (later : Frame) (grown : TypeGraph) (other : Operand) : Prop :=
  ∃ type built again final, frame.typeOf declarations span operand graph = .ok type built ∧
    later.typeOf declarations span other grown = .ok again final ∧
      SameUnfolding built type final again

theorem SameEnds.sameTypes {other : Operand}
    (hsame : SameEnds frame graph operand later grown other) (hcoherent : frame.Coherent graph)
    (hoperand : frame.Refers graph operand) (hlater : later.Coherent grown)
    (hother : later.Refers grown other) :
    SameTypes declarations span frame graph operand later grown other := by
  obtain ⟨type, built, hrun, -, hbuilt, hhas, hends⟩ :=
    exists_typeOf declarations span hcoherent hoperand
  obtain ⟨again, final, hagain, -, hfinal, hhas', hends'⟩ :=
    exists_typeOf declarations span hlater hother
  refine ⟨type, built, again, final, hrun, hagain,
    (TypeGraph.sameUnfolding_iff_endAt? hbuilt.closed hfinal.closed hhas hhas').mpr fun chain => ?_⟩
  rw [hends, hsame, hends']

/-- In a frame in which something stands behind everything that is referred to, a place is vacated
without a failure, and neither the types of the slots nor the list of writes is touched.  Every
local, every object and the given value have a type afterwards that looks like the one before. -/
theorem vacate_keeps_types (hcoherent : frame.Coherent graph) (hvalue : frame.Refers graph value)
    (declarations : Declarations) (span : Span) (base : AccessPath) :
    ∃ moved later grown,
      vacate declarations span base value frame graph = .ok (moved, later) grown ∧
      graph.Grows grown ∧ later.slots = frame.slots ∧ later.writes = frame.writes ∧
      later.locals.keys = frame.locals.keys ∧
      (∀ name held, frame.locals.get? name = some held → ∃ after,
        later.locals.get? name = some after ∧
          SameTypes declarations span frame graph held later grown after) ∧
      (∀ id : AllocId, id.index < frame.allocations.size →
        SameTypes declarations span frame graph (.fresh id) later grown (.fresh id)) ∧
      SameTypes declarations span frame graph value later grown moved := by
  obtain ⟨⟨moved, later⟩, grown, hrun, hgrows, hrestates, hmoved, hsame⟩ :=
    (vacate_restates hcoherent hvalue base).exists_ok
  have hlater := hrestates.coherent
  refine ⟨moved, later, grown, hrun, hgrows, hrestates.slots, hrestates.writes, hrestates.names,
    fun name held hheld => ?_, fun id hid => ?_,
    hsame.sameTypes hcoherent hvalue hlater hmoved⟩
  · obtain ⟨after, hafter, hsame⟩ := hrestates.locals name held hheld
    exact ⟨after, hafter, hsame.sameTypes hcoherent (hcoherent.locals name held hheld) hlater
      (hlater.locals name after hafter)⟩
  · have hrefers : frame.Refers graph (.fresh id) := hid
    exact (hrestates.operands _ hrefers).sameTypes hcoherent hrefers hlater
      (hrestates.refers _ hrefers)

end Frame

/-- A holder of a shelf with a box and a label; the label is a node that is its own next one. -/
def shelfGraph : TypeGraph where
  nodes := #[.scalar,
    .object "Holder" (.ofList [(.field "@v", ⟨2⟩)]),
    .object "Shelf" (.ofList [(.field "@box", ⟨3⟩), (.field "@label", ⟨4⟩)]),
    .object "Box" (.ofList [(.field "@w", ⟨0⟩), (.field "@label", ⟨4⟩)]),
    .object "Node" (.ofList [(.field "@next", ⟨4⟩)])]

/-- The shelf that is held by the argument has no allocated object, but its box and its label do.
One of the two still has the parts from before it got its home, a third object holds it and a place
below the shelf, and so do two of the locals. -/
def shelfFrame : Frame where
  slots := [⟨1⟩]
  locals := .ofList [("box", .path ⟨1, [.field "@v", .field "@box"]⟩),
    ("ring", .path ⟨1, [.field "@v", .field "@label", .field "@next", .field "@next"]⟩),
    ("rest", .fresh ⟨2⟩)]
  allocations := #[
    { className := "Box", home? := some ⟨1, [.field "@v", .field "@box"]⟩,
      fields := .ofList [(.field "@w", .fresh ⟨2⟩), (.field "@label", .fresh ⟨3⟩)] },
    { className := "Node", home? := some ⟨1, [.field "@v", .field "@label"]⟩ },
    { className := "Rest", fields := .ofList [(.field "@box", .fresh ⟨0⟩),
        (.field "@label", .path ⟨1, [.field "@v", .field "@label"]⟩)] },
    { className := "Node", fields := .ofList [(.field "@next", .fresh ⟨3⟩)] }]

theorem shelfFrame_vacate_keeps_types :
    shelfFrame.Coherent shelfGraph ∧
      shelfFrame.Refers shelfGraph (.path ⟨1, [.field "@v", .field "@box", .field "@label"]⟩) ∧
      ∃ moved later grown,
        Frame.vacate {} ⟨0, 0⟩ ⟨1, [.field "@v"]⟩
            (.path ⟨1, [.field "@v", .field "@box", .field "@label"]⟩) shelfFrame shelfGraph =
          .ok (moved, later) grown ∧
        Frame.SameTypes {} ⟨0, 0⟩ shelfFrame shelfGraph (.fresh ⟨2⟩) later grown (.fresh ⟨2⟩) ∧
        Frame.SameTypes {} ⟨0, 0⟩ shelfFrame shelfGraph
          (.path ⟨1, [.field "@v", .field "@box", .field "@label"]⟩) later grown moved := by
  have hcoherent : shelfFrame.Coherent shelfGraph := by decide +kernel
  have hvalue : shelfFrame.Refers shelfGraph
      (.path ⟨1, [.field "@v", .field "@box", .field "@label"]⟩) := by decide +kernel
  obtain ⟨moved, later, grown, hrun, -, -, -, -, -, hobjects, hmoved⟩ :=
    Frame.vacate_keeps_types hcoherent hvalue {} ⟨0, 0⟩ ⟨1, [.field "@v"]⟩
  exact ⟨hcoherent, hvalue, moved, later, grown, hrun, hobjects ⟨2⟩ (by decide), hmoved⟩

end ShapeFlow
