import ShapeFlow.Proofs.FoundedFrames
import ShapeFlow.Proofs.VacatedFrames

/-!
# Copies in founded frames

The objects that stand at or below a place that is being vacated need not fit their homes for the
copy to succeed.  It is enough that all places lead somewhere: then the copy of a place leads as far
as the place (`Frame.copy_supplies`), and so do the parts that the objects are given before they
give up their homes (`Frame.rebuildAll_spells`, `Frame.releaseAll_rearranges`).
-/

namespace ShapeFlow

variable {declarations : Declarations} {span : Span} {frame later last : Frame}
  {graph grown final : TypeGraph} {operand : Operand} {base place : AccessPath}
  {leaving : List (AllocId × AccessPath)} {copier : AccessPath → Framed Operand}

namespace Frame

/-- Every operand leads as far as it did, and no object has moved. -/
structure Augments (frame : Frame) (graph : TypeGraph) (later : Frame) (grown : TypeGraph) : Prop
    extends Rearranges frame graph later grown where
  grows : graph.Grows grown
  homes : frame.SameHomes later

namespace Augments

theorem of_grows (hfounded : frame.Founded graph) (hgrows : graph.Grows grown)
    (hwell : grown.WellFormed) : frame.Augments graph frame grown :=
  ⟨.of_grows hfounded hgrows hwell, hgrows, .refl frame⟩

theorem refl (hfounded : frame.Founded graph) : frame.Augments graph frame graph :=
  of_grows hfounded (.refl graph) hfounded.wellFormed

theorem trans (hfirst : frame.Augments graph later grown)
    (hsecond : later.Augments grown last final) : frame.Augments graph last final :=
  ⟨hfirst.toRearranges.trans hsecond.toRearranges, hfirst.grows.trans hsecond.grows,
    hfirst.homes.trans hsecond.homes⟩

/-- Places lead to the types that they led to. -/
theorem placeType?_eq (haugments : frame.Augments graph later grown)
    (hfounded : frame.Founded graph) (place : AccessPath) :
    later.placeType? grown place = frame.placeType? graph place :=
  (placeType?_eq_of_slots haugments.slots place).trans
    (placeType?_eq_of_grows haugments.grows hfounded.wellFormed.closed hfounded.hasTypes place)

end Augments

/-- What a step answers stands in for a place, and no more has happened than that types and objects
have been added. -/
def Supplies (frame : Frame) (graph : TypeGraph) (place : AccessPath) (result : Operand × Frame)
    (grown : TypeGraph) : Prop :=
  frame.Augments graph result.2 grown ∧ frame.StandsIn graph place result.2 grown result.1

/-- What a part held before stands in for the part if it is kept, and so does the type of the part.
-/
theorem keptPart_supplies (hfounded : frame.Founded graph) {existing? : Option AllocId}
    (hexisting : ∀ id, existing? = some id → frame.Refers graph (.fresh id))
    {selector : Selector} {part : TypeId} (hplace : frame.placeType? graph place = some part) :
    surely.Ends graph (keptPart declarations span base existing? selector part frame graph)
      (frame.Supplies graph place) := by
  have hclosed := hfounded.wellFormed.closed
  have hpart := has_placeType? hclosed hfounded.hasTypes hplace
  have htype : ∀ {grown : TypeGraph}, graph.Grows grown → grown.WellFormed →
      frame.Supplies graph place (.type part, frame) grown := by
    intro grown hgrows hwell
    refine ⟨.of_grows hfounded hgrows hwell, hgrows.has hpart, fun chain => ?_⟩
    rw [leads, leads, endOf?_type, endOf?_path, hplace, Option.bind_some,
      hgrows.endAt?_eq hclosed hpart]
  unfold keptPart
  refine (Discipline.Ends.inspect (fun previous? => ∀ previous, previous? = some previous →
    frame.Refers graph previous) trivial ?_).run_bind ?_
  · cases existing? with
    | none => exact fun previous hprevious => absurd hprevious.symm (Option.some_ne_none previous)
    | some id =>
      obtain ⟨object, hobject⟩ := refers_fresh_iff.mp (hexisting id rfl)
      have hallocation : Checked.Surely (frame.allocation id) (object = ·) :=
        Checked.surely_of_eq (allocation_eq_ok hobject) rfl
      refine hallocation.bind ?_
      rintro _ rfl
      exact fun previous hprevious =>
        hfounded.parts id.index object selector previous hobject hprevious
  · rintro previous? _ _ - ⟨rfl, rfl, hprevious⟩
    cases previous? with
    | none => exact .run_pure (htype (.refl graph) hfounded.wellFormed)
    | some previous =>
      have hrefers := hprevious previous rfl
      have htypeOf : surely.Ends graph (frame.typeOf declarations span previous graph)
          fun type grown => grown.WellFormed ∧ grown.Has type ∧
            ∀ chain, grown.endAt? type chain = frame.endOf? graph previous chain := by
        obtain ⟨type, grown, hrun, hgrows, hpost⟩ := hfounded.complete.exists_typeOf declarations
          span hrefers.names (hfounded.known hrefers)
        rw [hrun]
        exact ⟨hgrows, hpost⟩
      refine (isCurrent_ends hfounded.wellFormed (fun hgrows => hgrows) htypeOf hpart).run_bind ?_
      rintro current _ grown hgrows ⟨rfl, hwell, hcurrent⟩
      cases current with
      | false => exact .run_pure (htype hgrows hwell)
      | true =>
        have haugments := Augments.of_grows hfounded hgrows hwell
        refine .run_pure ⟨haugments, haugments.refers previous hrefers, fun chain => ?_⟩
        rw [haugments.leads previous hrefers, leads, (hcurrent rfl).2, leads, endOf?_path, hplace,
          Option.bind_some]

/-! ## Copies -/

/-- The copier answers for the parts of a place at or below which an object loses its home. -/
def SuppliesParts (leaving : List (AllocId × AccessPath)) (copier : AccessPath → Framed Operand)
    (place : AccessPath) : Prop :=
  ∀ selector, (leaving.any fun resident => resident.2.liesWithin (place.child selector)) = true →
    ∀ frame graph, frame.Founded graph → AtHome leaving frame →
      frame.Refers graph (.path (place.child selector)) →
        surely.Ends graph (copier (place.child selector) frame graph)
          (frame.Supplies graph (place.child selector))

/-- The operand of the later frame leads as far as the part of the place. -/
def StandsInPart (frame : Frame) (graph : TypeGraph) (place : AccessPath) (later : Frame)
    (grown : TypeGraph) (entry : Selector × TypeId) (held : Operand) : Prop :=
  frame.StandsIn graph (place.child entry.1) later grown held

/-- Images that stand in for the parts of a place spell out the place. -/
theorem Rearranges.spells_of_images (hrearranges : frame.Rearranges graph later grown)
    {type : TypeId} {node : TypeNode} (hfound : frame.placeType? graph place = some type)
    (hnode : graph.node? type = some node) {parts : List (Selector × Operand)}
    (hparts : List.Forall₂ (fun entry part => part.1 = entry.1 ∧
      StandsInPart frame graph place later grown entry part.2) node.fields.entries parts) :
    later.Spells grown (.ofList parts) (.path place) := by
  have hplace : frame.Refers graph (.path place) := refers_path_iff.mpr ⟨type, hfound⟩
  have hstands : ∀ {selector held}, (OrderedMap.ofList parts).get? selector = some held →
      frame.StandsIn graph (place.child selector) later grown held := by
    intro selector held hheld
    obtain ⟨_, -, hheld⟩ := OrderedMap.exists_of_get?_images
      (StandsInPart frame graph place later grown) node.fields hparts hheld
    exact hheld
  refine ⟨fun selector held hheld => (hstands hheld).refers, fun selector rest => ?_⟩
  rw [hrearranges.leads _ hplace, ← leads_child]
  cases hheld : (OrderedMap.ofList parts).get? selector with
  | some held => exact (hstands hheld).leads rest
  | none =>
    -- The images have the keys of the parts, so the place has no such part either.
    have hnone := (OrderedMap.get?_ofList_images_eq_none_iff
      (StandsInPart frame graph place later grown) node.fields hparts).mp hheld
    rw [leads_child, Frame.leads, endOf?_path, hfound, Option.bind_some,
      TypeGraph.endAt?_cons, TypeGraph.field?_eq_of_node? hnode, hnone]
    rfl

/-- The copy of an object has parts that spell out the place. -/
theorem copyParts_spells (hcopier : SuppliesParts leaving copier place)
    (hfounded : frame.Founded graph) (hhome : AtHome leaving frame) {existing? : Option AllocId}
    (hexisting : ∀ id, existing? = some id → frame.Refers graph (.fresh id))
    (hplace : frame.Refers graph (.path place)) :
    surely.Ends graph
      (copyParts declarations span base leaving copier existing? place frame graph)
      fun result grown => frame.Augments graph result.2 grown ∧
        result.2.Spells grown result.1 (.path place) := by
  unfold copyParts
  refine (Discipline.Ends.inspect _ trivial (placeType_surely hplace)).run_bind ?_
  rintro type _ _ - ⟨rfl, rfl, hfound⟩
  have hhas := has_placeType? hfounded.wellFormed.closed hfounded.hasTypes hfound
  refine (Discipline.Ends.inspect _ trivial (TypeGraph.node_surely hhas)).run_bind ?_
  rintro node _ _ - ⟨rfl, rfl, hnode⟩
  refine (Discipline.Ends.mapM_along node.fields.entries Augments (fun entry part later grown =>
    part.1 = entry.1 ∧ StandsInPart frame graph place later grown entry part.2)
    (.refl hfounded) (fun hlater => .refl hlater.founded) Augments.trans ?_ ?_).run_bind ?_
  · rintro entry part middle between later grown haugments ⟨hkey, hstands⟩
    exact ⟨hkey, hstands.trans haugments.toRearranges⟩
  · rintro ⟨selector, part⟩ hentry later grown haugments
    have hpart := (node.fields.get?_eq_some_iff selector part).mpr hentry
    have hinner : frame.placeType? graph (place.child selector) = some part :=
      placeType?_child hfound ((TypeGraph.field?_eq_of_node? hnode selector).trans hpart)
    have hrefers : frame.Refers graph (.path (place.child selector)) :=
      refers_path_iff.mpr ⟨part, hinner⟩
    have hyields : ∀ {result : Operand × Frame} {final : TypeGraph},
        later.Supplies grown (place.child selector) result final →
          later.Augments grown result.2 final ∧ selector = selector ∧
            frame.StandsIn graph (place.child selector) result.2 final result.1 :=
      fun hsupplies => ⟨hsupplies.1, rfl, hsupplies.2.from_start haugments.toRearranges hrefers⟩
    dsimp only
    split
    · rename_i hany
      refine (hcopier selector hany later grown haugments.founded
        (hhome.of_sameHomes haugments.homes) (haugments.refers _ hrefers)).run_bind ?_
      rintro held last final - hsupplies
      exact .run_pure (hyields hsupplies)
    · have hlater := (haugments.placeType?_eq hfounded (place.child selector)).trans hinner
      refine (keptPart_supplies haugments.founded
        (fun id hid => haugments.refers _ (hexisting id hid)) hlater).run_bind ?_
      rintro held last final - hsupplies
      exact .run_pure (hyields hsupplies)
  · rintro parts later grown - ⟨haugments, hparts⟩
    exact .run_pure ⟨haugments, haugments.toRearranges.spells_of_images hfound hnode hparts⟩

/-- The copy of what is found at a place stands in for the place. -/
theorem copyAt_supplies (hcopier : SuppliesParts leaving copier place)
    (hfounded : frame.Founded graph) (hhome : AtHome leaving frame)
    (hplace : frame.Refers graph (.path place)) :
    surely.Ends graph (copyAt declarations span base leaving copier place frame graph)
      (frame.Supplies graph place) := by
  unfold copyAt
  cases hfind : leaving.find? fun resident => resident.2 = place with
  | some resident =>
    obtain ⟨object, hobject, hsome⟩ := hhome resident (List.mem_of_find?_eq_some hfind)
    obtain rfl : resident.2 = place := by simpa using List.find?_some hfind
    exact .run_pure ⟨.refl hfounded, refers_fresh_iff.mpr ⟨object, hobject⟩,
      (sameEnds_home hobject hsome).leads_eq⟩
  | none =>
    refine (Discipline.Ends.inspect _ trivial (placeType_surely hplace)).run_bind ?_
    rintro type _ _ - ⟨rfl, rfl, hfound⟩
    have hhas := has_placeType? hfounded.wellFormed.closed hfounded.hasTypes hfound
    refine (Discipline.Ends.inspect _ trivial (TypeGraph.node_surely hhas)).run_bind ?_
    rintro node _ _ - ⟨rfl, rfl, hnode⟩
    cases node with
    | scalar =>
      exact .run_pure ⟨.refl hfounded, hhas, fun chain => by
        rw [leads, leads, endOf?_type, endOf?_path, hfound, Option.bind_some]⟩
    | object className types =>
      refine (copyParts_spells hcopier hfounded hhome
        (fun id hid => absurd hid.symm (Option.some_ne_none id)) hplace).run_bind ?_
      rintro fields later grown - ⟨haugments, hspells⟩
      have hlater := haugments.founded
      have hallocated : later.Augments grown (later.allocate { className, fields }).2 grown :=
        ⟨hlater.allocate className hspells.refers, .refl grown,
          fun _ object hobject => ⟨object, getElem?_allocate hobject _, rfl⟩⟩
      refine ⟨.refl grown, haugments.trans hallocated, by simp [Refers], fun chain => ?_⟩
      exact (hlater.leads_allocate (haugments.refers _ hplace) className hspells chain).trans
        (haugments.leads _ hplace chain)

/-- There is room for the copy of a place, and the copy stands in for the place. -/
theorem copy_supplies (room : Nat) (hreach : Reach leaving room place)
    (hfounded : frame.Founded graph) (hhome : AtHome leaving frame)
    (hplace : frame.Refers graph (.path place)) :
    surely.Ends graph (copy declarations span base leaving room place frame graph)
      (frame.Supplies graph place) := by
  induction room generalizing place frame graph with
  | zero =>
    refine copyAt_supplies (fun selector hany => ?_) hfounded hhome hplace
    rw [hreach.of_room_zero selector] at hany
    exact nomatch hany
  | succ room ih =>
    exact copyAt_supplies (fun selector _ frame graph hfounded hhome hplace =>
      ih (hreach.child selector) hfounded hhome hplace) hfounded hhome hplace

/-! ## Objects that give up their homes -/

/-- All objects that lose their homes get parts that lead as far as the objects do. -/
theorem rebuildAll_spells (hfounded : frame.Founded graph) {room : Nat}
    (hroom : ∀ place, Reach (frame.residents base) room place) :
    surely.Ends graph
      (((frame.residents base).mapM fun resident => do
        let fields ← copyParts declarations span base (frame.residents base)
          (copy declarations span base (frame.residents base) room) (some resident.1) resident.2
        pure (resident.1, fields) : Framed _) frame graph)
      fun result grown => frame.Augments graph result.2 grown ∧
        ∀ object ∈ result.1, result.2.Refers grown (.fresh object.1) ∧
          result.2.Spells grown object.2 (.fresh object.1) := by
  have hhome := atHome_residents frame base
  refine (Discipline.Ends.mapM_along (frame.residents base) Augments
    (fun resident (object : AllocId × OrderedMap Selector Operand) later grown =>
      object.1 = resident.1 ∧ later.Refers grown (.fresh object.1) ∧
        later.Spells grown object.2 (.fresh object.1))
    (.refl hfounded) (fun hlater => .refl hlater.founded) Augments.trans ?_ ?_).mono ?_
  · rintro resident object between middle later grown haugments ⟨hid, hrefers, hspells⟩
    exact ⟨hid, haugments.refers _ hrefers, haugments.toRearranges.spells hrefers hspells⟩
  · intro resident hmem later grown haugments
    obtain ⟨object, hobject, hsome⟩ := hhome resident hmem
    have hplace := hfounded.homes _ object _ hobject hsome
    have hfresh : frame.Refers graph (.fresh resident.1) := refers_fresh_iff.mpr ⟨object, hobject⟩
    have hrefers := haugments.refers _ hfresh
    refine (copyParts_spells (fun selector _ frame graph hfounded hhome hplace =>
      copy_supplies room (hroom _) hfounded hhome hplace) haugments.founded
      (hhome.of_sameHomes haugments.homes)
      (fun id (hid : some resident.1 = some id) => Option.some.inj hid ▸ hrefers)
      (haugments.refers _ hplace)).run_bind ?_
    rintro fields last final - ⟨hlast, hspells⟩
    have hwhole := haugments.trans hlast
    refine .run_pure ⟨hlast, rfl, hlast.refers _ hrefers, hspells.refers, fun key rest => ?_⟩
    -- The object leads as far as its home does, which is where its parts have been copied from.
    rw [hspells.leads, hwhole.leads _ hplace, hwhole.leads _ hfresh,
      (sameEnds_home hobject hsome).leads_eq]
  · rintro ⟨rebuilt, later⟩ grown - ⟨haugments, hrebuilt⟩
    refine ⟨haugments, fun object hmem => ?_⟩
    obtain ⟨resident, -, -, hobject⟩ := exists_mem_of_forall₂ hrebuilt hmem
    exact hobject

/-- The objects give up their homes one after the other. -/
theorem releaseAll_rearranges (hfounded : frame.Founded graph)
    {rebuilt : List (AllocId × OrderedMap Selector Operand)}
    (hrebuilt : ∀ object ∈ rebuilt, frame.Refers graph (.fresh object.1) ∧
      frame.Spells graph object.2 (.fresh object.1)) :
    surely.Ends graph
      ((rebuilt.forM fun object => modifyThe Frame (release object.1 object.2) : Framed PUnit)
        frame graph)
      fun result grown => frame.Rearranges graph result.2 grown ∧ graph = grown := by
  refine Discipline.Ends.forM rebuilt
    (fun later grown => frame.Rearranges graph later grown ∧ graph = grown) ⟨.refl hfounded, rfl⟩
    ?_
  rintro object hmem later _ ⟨hrearranges, rfl⟩
  obtain ⟨hrefers, hspells⟩ := hrebuilt object hmem
  exact ⟨.refl graph, hrearranges.trans (hrearranges.founded.release
    (hrearranges.refers _ hrefers) (hrearranges.spells hrefers hspells)), rfl⟩

end Frame

end ShapeFlow
