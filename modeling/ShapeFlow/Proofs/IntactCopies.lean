import Mathlib.Data.List.Fold
import Mathlib.Data.List.MinMax
import ShapeFlow.Proofs.IntactFrames

/-!
# Copies of intact frames

That graphs of types conform to the shapes and that frames are intact is a regime
(`Shapes.regime`).  Here it is seen to hold while a place is vacated.

What stands at the place is copied first.  Whether a part of the copy is copied further is decided
by the homes below it, so the copy never goes deeper than the longest home does (`Frame.copy_runs`),
and it has just the parts that the copied object has (`Frame.copyParts_runs`).  An object that loses
its home has the class that is found there, so the parts that it is given are admitted.  What is
rebound to the copy was told by the place, or by one below it.
-/

namespace ShapeFlow

variable {shapes : Shapes} {declarations : Declarations} {span : Span} {arguments : List TypeId}
  {graph grown : TypeGraph} {frame later : Frame} {operand : Operand}

/-- Graphs of types conform to the shapes, frames are intact, and operands are there. -/
def Shapes.regime (shapes : Shapes) : Regime where
  World := TypeGraph.Conforms shapes
  Frames _ graph frame := frame.Intact shapes graph
  Fits _ _ frame operand := operand.ExistsIn frame
  Suits _ _ frame operand := operand.ExistsIn frame
  Excused := Failure.Rejects

theorem conforming_refines (shapes : Shapes) : (conforming shapes).Refines shapes.regime.calm :=
  ⟨fun _ _ _ => trivial, fun _ hcalm => hcalm, fun _ hexcused => hexcused⟩

/-- An operand that is at hand stays so. -/
theorem Shapes.admits_kept (hadmits : shapes.regime.Admits arguments graph frame operand)
    (hgrows : graph.Grows grown) (hkeeps : frame.KeepsObjects later) :
    shapes.regime.Admits arguments grown later operand :=
  ⟨hadmits.rooted.mono hgrows, Operand.ExistsIn.kept hadmits.fits hkeeps⟩

/-- The outcome of a step conforms to the shapes and leaves the frame intact. -/
abbrev Shapes.Obeys {α : Type} (shapes : Shapes) (graph : TypeGraph)
    (outcome : EStateM.Result Failure TypeGraph (α × Frame))
    (post : α → Frame → TypeGraph → Prop) : Prop :=
  (conforming shapes).Ends graph outcome fun result grown =>
    grown.Conforms shapes ∧ result.2.Intact shapes grown ∧ post result.1 result.2 grown

namespace Frame

section Steps

variable (hstands : shapes.regime.Stands arguments graph frame)

include hstands

theorem Keeps.runs {α : Type} {step : Framed α} [RunsQuietly step] {told : α → TypeGraph → Prop}
    {post : α → Frame → TypeGraph → Prop}
    (hkeeps : Keeps graph arguments (step frame graph) told)
    (hobeys : shapes.Obeys graph (step frame graph) post) :
    shapes.regime.Runs arguments step noPoints frame graph fun value later grown =>
      told value grown ∧ post value later grown :=
  .quiet hstands hkeeps (Discipline.Ends.under (conforming_refines shapes) hobeys)

theorem placeType_runs {place : AccessPath} (hplace : place.RootedIn graph arguments) :
    shapes.regime.Runs arguments
      (inspect fun graph frame => frame.placeType declarations graph span place) noPoints frame graph
      fun type later grown => frame = later ∧ graph = grown ∧ graph.Has type ∧
        frame.placeType? graph place = some type := by
  have hunbroken : Checked.Unbroken (frame.placeType declarations graph span place) graph.Has :=
    placeType_unbroken hstands.sound (.refl graph) hplace
  exact .inspect hstands (hunbroken.told.mono fun type hpost =>
    ⟨hpost.2, placeType_eq_ok_iff.mp hpost.1⟩)

theorem node_runs {type : TypeId} (hhas : graph.Has type) :
    shapes.regime.Runs arguments (inspect fun graph _ => graph.node type) noPoints frame graph
      fun node later grown => frame = later ∧ graph = grown ∧ graph.node? type = some node :=
  .inspect hstands (TypeGraph.node_unbroken hhas)

/-! ## Copies -/

theorem isCurrent_obeys {base : AccessPath} (hrooted : operand.RootedIn graph arguments)
    (hexists : operand.ExistsIn frame) (part : TypeId) :
    (conforming shapes).Ends graph (isCurrent declarations span base operand part frame graph)
      fun result grown => frame = result.2 ∧ grown.Conforms shapes := by
  unfold isCurrent
  split
  · exact .run_pure ⟨rfl, hstands.world⟩
  · refine .get_bind (.lift_bind
      (typeOf_unbroken hstands.sound hstands.frames hstands.world hrooted hexists) ?_)
    intro type grown _ hconforms
    exact .run_pure ⟨rfl, hconforms⟩

theorem keptPart_runs {base : AccessPath} {existing? : Option AllocId}
    (hexisting : ∀ id, existing? = some id → (Operand.fresh id).ExistsIn frame)
    {selector : Selector} {part : TypeId} (hpart : graph.Has part) :
    shapes.regime.Runs arguments (keptPart declarations span base existing? selector part) noPoints
      frame graph fun operand later grown => shapes.regime.Admits arguments grown later operand := by
  have hobeys : shapes.Obeys graph
      (keptPart declarations span base existing? selector part frame graph)
      fun operand later _ => operand.ExistsIn later := by
    unfold keptPart
    refine (Discipline.Ends.inspect (fun previous? => ∀ previous, previous? = some previous →
      previous.RootedIn graph arguments ∧ previous.ExistsIn frame) hstands.world ?_).run_bind ?_
    · cases existing? with
      | none => exact fun previous hprevious => nomatch hprevious
      | some id =>
        refine (allocation_unbroken (hexisting id rfl)).bind fun object hobject => ?_
        exact fun previous hprevious =>
          ⟨(hstands.sound.objects id.index object hobject).parts selector previous hprevious,
            ((hstands.frames.objects id.index object hobject).parts selector previous hprevious).2⟩
    · intro previous? changed later _ hpost
      obtain ⟨rfl, rfl, hprevious⟩ := hpost
      cases previous? with
      | none => exact .run_pure ⟨hstands.world, hstands.frames, Operand.existsIn_type frame part⟩
      | some previous =>
        obtain ⟨hrooted, hexists⟩ := hprevious previous rfl
        refine (isCurrent_obeys hstands hrooted hexists part).run_bind ?_
        intro current changed later hgrows hpost
        obtain ⟨rfl, hconforms⟩ := hpost
        have hintact := hstands.frames.mono hgrows
        cases current with
        | false => exact .run_pure ⟨hconforms, hintact, Operand.existsIn_type frame part⟩
        | true => exact .run_pure ⟨hconforms, hintact, hexists⟩
  exact (Keeps.runs hstands (keptPart_keeps hstands.sound hpart) hobeys).mono
    fun _ _ _ _ hpost => ⟨hpost.1, hpost.2⟩

end Steps

section Copies

variable {base place : AccessPath} {leaving : List (AllocId × AccessPath)}
  {copier : AccessPath → Framed Operand}

/-- The objects that lose their homes are there. -/
def Present (leaving : List (AllocId × AccessPath)) (frame : Frame) : Prop :=
  ∀ resident ∈ leaving, (Operand.fresh resident.1).ExistsIn frame

theorem Present.kept (hleaving : Present leaving frame) (hkeeps : frame.KeepsObjects later) :
    Present leaving later := fun resident hmem => (hleaving resident hmem).kept hkeeps

/-- The copier answers for a part of the place at or below which an object loses its home. -/
def CopiesParts (shapes : Shapes) (arguments : List TypeId) (leaving : List (AllocId × AccessPath))
    (copier : AccessPath → Framed Operand) (place : AccessPath) : Prop :=
  ∀ selector, (leaving.any fun resident => resident.2.liesWithin (place.child selector)) = true →
    ∀ frame graph, shapes.regime.Stands arguments graph frame → Present leaving frame →
      (place.child selector).RootedIn graph arguments →
        shapes.regime.Runs arguments (copier (place.child selector)) noPoints frame graph
          fun operand later grown => shapes.regime.Admits arguments grown later operand

/-- The copy of an object has the parts that the object has. -/
theorem copyParts_runs [∀ place, RunsQuietly (copier place)]
    (hcopier : CopiesParts shapes arguments leaving copier place)
    (hstands : shapes.regime.Stands arguments graph frame)
    (hleaving : Present leaving frame)
    {existing? : Option AllocId}
    (hexisting : ∀ id, existing? = some id → (Operand.fresh id).ExistsIn frame)
    (hplace : place.RootedIn graph arguments) :
    shapes.regime.Runs arguments
      (copyParts declarations span base leaving copier existing? place) noPoints frame graph
      fun fields later grown => ∀ selector operand, fields.get? selector = some operand →
        shapes.regime.Admits arguments grown later operand ∧
          ∀ className, frame.classAt? graph place = some className →
            shapes.Part className selector := by
  unfold copyParts
  refine (placeType_runs hstands hplace).before ?_
  rintro type _ _ - - - - ⟨rfl, rfl, hhas, hfound⟩
  refine (node_runs hstands hhas).before ?_
  rintro node _ _ - - - - ⟨rfl, rfl, hnode⟩
  have hparts : shapes.regime.Runs arguments (node.fields.entries.mapM fun entry => do
      if leaving.any fun resident => resident.2.liesWithin (place.child entry.1) then
        pure (entry.1, ← copier (place.child entry.1))
      else
        pure (entry.1, ← keptPart declarations span base existing? entry.1 entry.2))
      noPoints frame graph fun parts later grown => ∀ part ∈ parts,
        shapes.regime.Admits arguments grown later part.2 ∧
          ∃ held, node.fields.get? part.1 = some held := by
    refine .mapM node.fields.entries hstands (fun part _ _ _ _ _ hgrows hkeeps hpart =>
      ⟨Shapes.admits_kept hpart.1 hgrows hkeeps, hpart.2⟩) ?_
    intro entry hentry changed later hgrows hstands' hquiet
    obtain ⟨selector, part⟩ := entry
    have hheld := (node.fields.get?_eq_some_iff selector part).mpr hentry
    dsimp only
    split
    · rename_i hany
      refine (hcopier selector hany changed later hstands' (hleaving.kept hquiet.objects)
        ((AccessPath.RootedIn.child hplace selector).mono hgrows)).before ?_
      intro operand last final _ _ hstands'' _ hoperand
      exact .pure hstands'' ⟨hoperand, part, hheld⟩
    · refine (keptPart_runs hstands' (fun id hid => (hexisting id hid).kept hquiet.objects)
        (TypeGraph.Grows.has hgrows
          (hstands.sound.wellFormed.closed hnode hheld))).before ?_
      intro operand last final _ _ hstands'' _ hoperand
      exact .pure hstands'' ⟨hoperand, part, hheld⟩
  refine hparts.before ?_
  intro parts last final _ _ hstands' _ hpost
  refine .pure hstands' fun selector operand hoperand => ?_
  obtain ⟨hadmits, held, hheld⟩ := hpost _
    ((OrderedMap.mem_or_get?_of_insertAll hoperand).resolve_right (by simp))
  refine ⟨hadmits, fun className hclass => ?_⟩
  -- The copied object has the part, and its type conforms.
  rw [classAt?, hfound, Option.bind_some] at hclass
  obtain ⟨fields, hobject⟩ := TypeGraph.className?_eq_some_iff.mp hclass
  obtain rfl := Option.some.inj (hnode.symm.trans hobject)
  exact hstands.world.parts type className fields selector held hobject hheld

theorem copyAt_runs [∀ place, RunsQuietly (copier place)]
    (hcopier : CopiesParts shapes arguments leaving copier place)
    (hstands : shapes.regime.Stands arguments graph frame)
    (hleaving : Present leaving frame)
    (hplace : place.RootedIn graph arguments) :
    shapes.regime.Runs arguments (copyAt declarations span base leaving copier place) noPoints
      frame graph fun operand later grown => shapes.regime.Admits arguments grown later operand := by
  unfold copyAt
  cases hfind : leaving.find? fun resident => resident.2 = place with
  | some resident =>
    exact .pure hstands ⟨trivial, hleaving resident (List.mem_of_find?_eq_some hfind)⟩
  | none =>
    refine (placeType_runs hstands hplace).before ?_
    rintro type _ _ - - - - ⟨rfl, rfl, hhas, hfound⟩
    refine (node_runs hstands hhas).before ?_
    rintro node _ _ - - - - ⟨rfl, rfl, hnode⟩
    cases node with
    | scalar => exact .pure hstands ⟨hhas, Operand.existsIn_type frame type⟩
    | object className fields =>
      refine (copyParts_runs hcopier hstands hleaving
        (fun id hid => absurd hid.symm (Option.some_ne_none id)) hplace).before ?_
      intro fields changed later _ hgrows hstands' _ hfields
      have hclass : frame.classAt? graph place = some className := by
        rw [classAt?, hfound, Option.bind_some]
        exact TypeGraph.className?_eq_some_iff.mpr ⟨_, hnode⟩
      have hadmitted : shapes.Class className :=
        hstands.world.classes type className _ hnode
      have hallocated : shapes.regime.Runs arguments
          (modifyGetThe Frame (allocate { className, fields })) noPoints changed later
          fun id last _ => (Operand.fresh id).ExistsIn last :=
        .change hstands' rfl (.allocate changed rfl)
          (hstands'.sound.allocate ⟨fun selector operand hoperand =>
            (hfields selector operand hoperand).1.rooted,
            fun home hhome => absurd hhome.symm (Option.some_ne_none home)⟩)
          (hstands'.frames.allocate ⟨hadmitted, fun selector operand hoperand =>
            ⟨(hfields selector operand hoperand).2 className hclass,
              (hfields selector operand hoperand).1.fits⟩⟩ rfl)
          (Operand.existsIn_fresh Array.getElem?_push_size)
      refine hallocated.before ?_
      intro id last final _ _ hstands'' _ hexists
      exact .pure hstands'' ⟨trivial, hexists⟩

/-- The homes of the leaving objects are at most this much longer than the place. -/
def Reach (leaving : List (AllocId × AccessPath)) (room : Nat) (place : AccessPath) : Prop :=
  ∀ resident ∈ leaving, resident.2.selectors.length ≤ room + place.selectors.length

theorem Reach.of_room_zero (hreach : Reach leaving 0 place) (selector : Selector) :
    (leaving.any fun resident => resident.2.liesWithin (place.child selector)) = false := by
  refine List.any_eq_false.mpr fun resident hmem hwithin => ?_
  obtain ⟨selectors, heq⟩ := (AccessPath.liesWithin_iff _ _).mp hwithin
  have hlength := hreach resident hmem
  simp only [heq, AccessPath.append, AccessPath.child, List.length_append,
    List.length_singleton] at hlength
  omega

theorem Reach.child {room : Nat} (hreach : Reach leaving (room + 1) place) (selector : Selector) :
    Reach leaving room (place.child selector) := by
  intro resident hmem
  have hlength := hreach resident hmem
  simp only [AccessPath.child, List.length_append, List.length_singleton]
  omega

/-- There is room for the copy of a place. -/
theorem copy_runs (room : Nat) (hreach : Reach leaving room place)
    (hstands : shapes.regime.Stands arguments graph frame) (hleaving : Present leaving frame)
    (hplace : place.RootedIn graph arguments) :
    shapes.regime.Runs arguments (copy declarations span base leaving room place) noPoints
      frame graph fun operand later grown => shapes.regime.Admits arguments grown later operand := by
  induction room generalizing place frame graph with
  | zero =>
    refine copyAt_runs (fun selector hany => ?_) hstands hleaving hplace
    rw [hreach.of_room_zero selector] at hany
    exact nomatch hany
  | succ room ih =>
    exact copyAt_runs (fun selector _ frame graph hstands hleaving hplace =>
      ih (hreach.child selector) hstands hleaving hplace) hstands hleaving hplace

end Copies

/-! ## Vacating a place -/

section Vacating

variable {base place : AccessPath}

theorem readAlong_unbroken (hsound : frame.Sound graph arguments)
    (hintact : frame.Intact shapes graph) (hconforms : graph.Conforms shapes)
    (hrooted : operand.RootedIn graph arguments) (hexists : operand.ExistsIn frame)
    (selectors : List Selector) :
    ReadsIntact shapes graph (readAlong declarations span graph operand selectors frame) := by
  unfold readAlong
  induction selectors generalizing operand frame with
  | nil => exact ⟨hintact, hexists⟩
  | cons selector rest ih =>
    rw [List.foldlM_cons]
    refine ((read_safe hsound hrooted selector).and_of
      (read_unbroken hsound hintact hconforms hrooted hexists selector)).run_bind ?_
    rintro part later ⟨⟨hsound', hrooted'⟩, hintact', hexists'⟩
    exact ih hsound' hintact' hrooted' hexists'

theorem retrace_runs (hstands : shapes.regime.Stands arguments graph frame)
    (hroot : shapes.regime.Admits arguments graph frame operand)
    (hwithin : place.liesWithin base = true) :
    shapes.regime.Runs arguments (retrace declarations span operand base place) noPoints
      frame graph fun part later grown => shapes.regime.Admits arguments grown later part := by
  obtain ⟨selectors, rfl⟩ := (AccessPath.liesWithin_iff place base).mp hwithin
  have hobeys : shapes.regime.Obeys arguments graph
      (reading (fun graph => readAlong declarations span graph operand selectors) frame graph)
      fun part later _ => part.ExistsIn later :=
    .reading hstands (readAlong_unbroken hstands.sound hstands.frames hstands.world hroot.rooted
      hroot.fits selectors)
  unfold retrace
  rw [AccessPath.below?_append]
  exact (Regime.Runs.quiet hstands (readAlong_keeps hstands.sound hroot.rooted selectors)
    hobeys).mono fun _ _ _ _ hpost => ⟨hpost.1, hpost.2⟩

theorem setPart_runs (hstands : shapes.regime.Stands arguments graph frame) {id : AllocId}
    {object : Allocation} (hobject : frame.allocations[id.index]? = some object)
    {selector : Selector} (hpart : shapes.Part object.className selector)
    (hoperand : shapes.regime.Admits arguments graph frame operand) :
    shapes.regime.Runs arguments (reading fun _ => setPart id selector operand) noPoints
      frame graph fun _ _ _ => True := by
  have hobeys : shapes.regime.Obeys arguments graph
      (reading (fun _ => setPart id selector operand) frame graph) fun _ _ _ => True :=
    .reading hstands ((setPart_unbroken hstands.frames hobject hpart hoperand.fits).mono
      fun _ hpost => ⟨hpost.1, trivial⟩)
  exact (Regime.Runs.quiet hstands (setPart_keeps hstands.sound id selector hoperand.rooted)
    hobeys).mono fun _ _ _ _ _ => trivial

/-- An object and the parts that it may be given. -/
def Rebuilds (shapes : Shapes) (arguments : List TypeId) (graph : TypeGraph) (frame : Frame)
    (rebuilt : AllocId × OrderedMap Selector Operand) : Prop :=
  ∃ object, frame.allocations[rebuilt.1.index]? = some object ∧
    ∀ selector operand, rebuilt.2.get? selector = some operand →
      shapes.regime.Admits arguments graph frame operand ∧ shapes.Part object.className selector

theorem Rebuilds.kept {rebuilt : AllocId × OrderedMap Selector Operand}
    (hrebuilds : Rebuilds shapes arguments graph frame rebuilt) (hgrows : graph.Grows grown)
    (hkeeps : frame.KeepsObjects later) : Rebuilds shapes arguments grown later rebuilt := by
  obtain ⟨object, hobject, hparts⟩ := hrebuilds
  obtain ⟨after, hafter, hclass⟩ := hkeeps _ object hobject
  refine ⟨after, hafter, fun selector operand hoperand => ?_⟩
  obtain ⟨hadmits, hpart⟩ := hparts selector operand hoperand
  exact ⟨Shapes.admits_kept hadmits hgrows hkeeps, hclass ▸ hpart⟩

theorem release_runs (hstands : shapes.regime.Stands arguments graph frame)
    {rebuilt : AllocId × OrderedMap Selector Operand}
    (hrebuilds : Rebuilds shapes arguments graph frame rebuilt) :
    shapes.regime.Runs arguments (modifyThe Frame (release rebuilt.1 rebuilt.2)) noPoints
      frame graph fun _ _ _ => True := by
  obtain ⟨object, hobject, hparts⟩ := hrebuilds
  refine .change hstands rfl (.release frame rebuilt.1 rebuilt.2)
    (hstands.sound.release rebuilt.1 fun selector operand hoperand =>
      (hparts selector operand hoperand).1.rooted)
    (Intact.update hstands.frames rebuilt.1 fun held hheld => ⟨rfl, ?_⟩) trivial
  obtain rfl := Option.some.inj (hobject.symm.trans hheld)
  exact ⟨(hstands.frames.objects _ object hobject).admitted, fun selector operand hoperand =>
    ⟨(hparts selector operand hoperand).2, (hparts selector operand hoperand).1.fits⟩⟩

theorem home_of_mem_residents {resident : AllocId × AccessPath}
    (hmem : resident ∈ frame.residents base) : ∃ object,
      frame.allocations[resident.1.index]? = some object ∧ object.home? = some resident.2 ∧
        resident.2.liesWithin base = true := by
  obtain ⟨⟨object, index⟩, hentry, hresident⟩ := List.mem_filterMap.mp hmem
  have hat := List.mem_zipIdx_iff_getElem?.mp hentry
  rw [Array.getElem?_toList] at hat
  dsimp only at hresident
  split at hresident
  · rename_i home hhome
    split at hresident
    · rename_i hwithin
      obtain rfl := Option.some.inj hresident
      exact ⟨object, hat, hhome, hwithin⟩
    · cases hresident
  · cases hresident

theorem eq_path_of_placeWithin? {operand : Operand}
    (hplace : operand.placeWithin? base = some place) :
    operand = .path place ∧ place.liesWithin base = true := by
  obtain rfl := Operand.placeWithin?_eq hplace
  refine ⟨rfl, ?_⟩
  by_contra hwithin
  simp [Operand.placeWithin?, hwithin] at hplace

theorem within_of_mem_localsWithin {binding : String × AccessPath}
    (hmem : binding ∈ frame.localsWithin base) : binding.2.liesWithin base = true := by
  obtain ⟨entry, -, hbinding⟩ := List.mem_filterMap.mp hmem
  obtain ⟨place, hplace, rfl⟩ := Option.map_eq_some_iff.mp hbinding
  exact (eq_path_of_placeWithin? hplace).2

theorem local_of_mem_localsWithin {binding : String × AccessPath}
    (hmem : binding ∈ frame.localsWithin base) :
    frame.locals.get? binding.1 = some (.path binding.2) := by
  obtain ⟨⟨name, held⟩, hentry, hbinding⟩ := List.mem_filterMap.mp hmem
  obtain ⟨place, hplace, rfl⟩ := Option.map_eq_some_iff.mp hbinding
  obtain ⟨rfl, -⟩ := eq_path_of_placeWithin? hplace
  exact (frame.locals.get?_eq_some_iff name _).mpr hentry

theorem placeWithin?_path (hwithin : place.liesWithin base = true) :
    (Operand.path place).placeWithin? base = some place := if_pos hwithin

/-- An operand lies outside of the base if it is told by no place within. -/
theorem placeWithin?_eq_none_iff {operand : Operand} : operand.placeWithin? base = none ↔
    ∀ place, operand = .path place → place.liesWithin base = false := by
  constructor
  · rintro houtside place rfl
    by_contra hwithin
    rw [placeWithin?_path (by simpa using hwithin)] at houtside
    exact Option.some_ne_none place houtside
  · intro hoperand
    by_contra hsome
    obtain ⟨place, hplace⟩ := Option.ne_none_iff_exists'.mp hsome
    obtain ⟨rfl, hwithin⟩ := eq_path_of_placeWithin? hplace
    exact Bool.false_ne_true ((hoperand place rfl).symm.trans hwithin)

/-- A local that is told by a place within the base is listed. -/
theorem mem_localsWithin {name : String} (hlocal : frame.locals.get? name = some (.path place))
    (hwithin : place.liesWithin base = true) : (name, place) ∈ frame.localsWithin base :=
  List.mem_filterMap.mpr ⟨(name, .path place), (frame.locals.get?_eq_some_iff name _).mp hlocal,
    by rw [placeWithin?_path hwithin]; rfl⟩

theorem part_of_mem_partsWithin {part : AllocId × Selector × AccessPath}
    (hmem : part ∈ frame.partsWithin base) : part.2.2.liesWithin base = true ∧ ∃ object,
      frame.allocations[part.1.index]? = some object ∧
        object.fields.get? part.2.1 = some (.path part.2.2) := by
  obtain ⟨⟨object, index⟩, hentry, hpart⟩ := List.mem_flatMap.mp hmem
  have hat := List.mem_zipIdx_iff_getElem?.mp hentry
  rw [Array.getElem?_toList] at hat
  obtain ⟨⟨selector, operand⟩, hheld, hpart⟩ := List.mem_filterMap.mp hpart
  obtain ⟨place, hplace, rfl⟩ := Option.map_eq_some_iff.mp hpart
  obtain ⟨rfl, hwithin⟩ := eq_path_of_placeWithin? hplace
  exact ⟨hwithin, object, hat, (object.fields.get?_eq_some_iff selector _).mpr hheld⟩

/-- A part that is told by a place within the base is listed. -/
theorem mem_partsWithin {id : Nat} {object : Allocation} {selector : Selector}
    (hobject : frame.allocations[id]? = some object)
    (hheld : object.fields.get? selector = some (.path place))
    (hwithin : place.liesWithin base = true) :
    (⟨id⟩, selector, place) ∈ frame.partsWithin base := by
  refine List.mem_flatMap.mpr ⟨(object, id), ?_, List.mem_filterMap.mpr ⟨(selector, .path place),
    (object.fields.get?_eq_some_iff selector _).mp hheld, ?_⟩⟩
  · rw [List.mem_zipIdx_iff_getElem?, Array.getElem?_toList, hobject]
  · rw [placeWithin?_path hwithin]
    rfl

/-- The room that is left for the copies is enough for all homes. -/
theorem reach_max (leaving : List (AllocId × AccessPath)) (place : AccessPath) :
    Reach leaving ((leaving.map fun resident => resident.2.selectors.length).foldl max 0)
      place := by
  intro resident hmem
  have hle : resident.2.selectors.length ≤
      (leaving.map fun resident => resident.2.selectors.length).foldl max 0 := by
    rw [List.foldl_eq_foldr]
    exact List.le_max_of_le' 0 (List.mem_map_of_mem hmem) le_rfl
  exact Nat.le_add_right_of_le hle

/-- The parts that the objects at home within a place are given. -/
theorem rebuildAll_runs (hstands : shapes.regime.Stands arguments graph frame) {room : Nat}
    (hroom : ∀ place, Reach (frame.residents base) room place) :
    shapes.regime.Runs arguments ((frame.residents base).mapM fun resident => do
        let fields ← copyParts declarations span base (frame.residents base)
          (copy declarations span base (frame.residents base) room) (some resident.1) resident.2
        pure (resident.1, fields))
      noPoints frame graph fun rebuilt later grown =>
        ∀ object ∈ rebuilt, Rebuilds shapes arguments grown later object := by
  have hleaving : Present (frame.residents base) frame := fun resident hmem => by
    obtain ⟨object, hobject, -⟩ := home_of_mem_residents hmem
    exact Operand.existsIn_fresh hobject
  refine .mapM (frame.residents base) hstands
    (fun _ _ _ _ _ _ hgrows hkeeps hrebuilds => hrebuilds.kept hgrows hkeeps) ?_
  intro resident hmem changed later hgrows hstands' hquiet
  obtain ⟨object, hobject, hhome, -⟩ := home_of_mem_residents hmem
  have hplace := (hstands.sound.objects _ object hobject).home resident.2 hhome
  obtain ⟨after, hafter, hclass⟩ := hquiet.objects _ object hobject
  -- The object has the class that is found at its home.
  have hfound : changed.classAt? later resident.2 = some object.className := by
    rw [classAt?_eq_of_slots hquiet.slots,
      classAt?_eq_of_grows hstands.sound.grounded (show graph.Grows later from hgrows)]
    exact hstands.housed _ object resident.2 hobject hhome
  refine (copyParts_runs (fun selector _ frame graph hstands hleaving hplace =>
    copy_runs room (hroom _) hstands hleaving hplace) hstands' (hleaving.kept hquiet.objects)
    (fun id (hid : some resident.1 = some id) =>
      Option.some.inj hid ▸ (hleaving resident hmem).kept hquiet.objects)
    (hplace.mono hgrows)).before ?_
  intro fields last final _ _ hstands'' hkeeps hfields
  obtain ⟨held, hheld, hclass'⟩ := hkeeps _ after hafter
  refine .pure hstands'' ⟨held, hheld, fun selector operand hoperand => ?_⟩
  obtain ⟨hadmits, hpart⟩ := hfields selector operand hoperand
  exact ⟨hadmits, (hclass'.trans hclass) ▸ hpart _ hfound⟩

theorem rebindLocals_runs (hstands : shapes.regime.Stands arguments graph frame)
    (hroot : shapes.regime.Admits arguments graph frame operand)
    {bindings : List (String × AccessPath)}
    (hwithin : ∀ binding ∈ bindings, binding.2.liesWithin base = true) :
    shapes.regime.Runs arguments (bindings.forM fun binding => do
        let operand ← retrace declarations span operand base binding.2
        modifyThe Frame (setLocal binding.1 operand))
      noPoints frame graph fun _ _ _ => True := by
  refine .forM bindings hstands fun binding hmem changed later hgrows hstands' hquiet => ?_
  have hroot' := Shapes.admits_kept hroot hgrows hquiet.objects
  refine (retrace_runs hstands' hroot' (hwithin binding hmem)).before ?_
  intro part last final _ _ hstands'' _ hpart
  exact .change hstands'' rfl (.setLocal last binding.1 part)
    (hstands''.sound.setLocal binding.1 hpart.rooted)
    (Intact.setLocal hstands''.frames binding.1 hpart.fits) trivial

theorem rebindParts_runs (hstands : shapes.regime.Stands arguments graph frame)
    (hroot : shapes.regime.Admits arguments graph frame operand) :
    shapes.regime.Runs arguments ((frame.partsWithin base).forM fun part => do
        let operand ← retrace declarations span operand base part.2.2
        reading fun _ => setPart part.1 part.2.1 operand)
      noPoints frame graph fun _ _ _ => True := by
  refine .forM (frame.partsWithin base) hstands
    fun part hmem changed later hgrows hstands' hquiet => ?_
  obtain ⟨hwithin, object, hobject, hheld⟩ := part_of_mem_partsWithin hmem
  have hadmitted := ((hstands.frames.objects _ object hobject).parts _ _ hheld).1
  have hroot' := Shapes.admits_kept hroot hgrows hquiet.objects
  refine (retrace_runs hstands' hroot' hwithin).before ?_
  intro rebound last final _ _ hstands'' hkeeps hrebound
  obtain ⟨after, hafter, hclass⟩ := KeepsObjects.trans hquiet.objects hkeeps _ object hobject
  exact setPart_runs hstands'' hafter (hclass ▸ hadmitted) hrebound

/-- A place is vacated unless the program is rejected. -/
theorem vacate_runs (hstands : shapes.regime.Stands arguments graph frame)
    (hbase : base.RootedIn graph arguments)
    (hvalue : shapes.regime.Admits arguments graph frame operand) :
    shapes.regime.Runs arguments (vacate declarations span base operand) noPoints frame graph
      fun moved later grown => shapes.regime.Admits arguments grown later moved := by
  unfold vacate
  refine .get_bind ?_
  dsimp only
  split
  · exact .pure hstands hvalue
  · have hroom := reach_max (frame.residents base)
    have hleaving : Present (frame.residents base) frame := fun resident hmem => by
      obtain ⟨object, hobject, -⟩ := home_of_mem_residents hmem
      exact Operand.existsIn_fresh hobject
    refine (rebuildAll_runs hstands hroom).before ?_
    intro rebuilt changed₁ later₁ _ hgrows₁ hstands₁ hkeeps₁ hrebuilt
    refine (copy_runs _ (hroom base) hstands₁ (hleaving.kept hkeeps₁)
      (hbase.mono hgrows₁)).before ?_
    intro root changed₂ later₂ _ hgrows₂ hstands₂ hkeeps₂ hroot
    have hreleased : shapes.regime.Runs arguments
        (rebuilt.forM fun object => modifyThe Frame (release object.1 object.2)) noPoints
        changed₂ later₂ fun _ _ _ => True :=
      .forM rebuilt hstands₂ fun object hmem last final hgrows hstands' hquiet =>
        release_runs hstands' ((hrebuilt object hmem).kept (hgrows₂.trans hgrows)
          (hkeeps₂.trans hquiet.objects))
    -- The copy stays what it is while everything told by the place is rebound to it.
    refine hreleased.before ?_
    intro _ changed₃ later₃ _ hgrows₃ hstands₃ hkeeps₃ _
    have hroot₃ := Shapes.admits_kept hroot hgrows₃ hkeeps₃
    refine (rebindLocals_runs hstands₃ hroot₃ fun binding hmem =>
      within_of_mem_localsWithin hmem).before ?_
    intro _ changed₄ later₄ _ hgrows₄ hstands₄ hkeeps₄ _
    have hroot₄ := Shapes.admits_kept hroot₃ hgrows₄ hkeeps₄
    refine .get_bind ((rebindParts_runs hstands₄ hroot₄).before ?_)
    intro _ changed₅ later₅ _ hgrows₅ hstands₅ hkeeps₅ _
    cases hplace : operand.placeWithin? base with
    | none =>
      have hgrows := hgrows₁.trans (hgrows₂.trans (hgrows₃.trans (hgrows₄.trans hgrows₅)))
      have hkeeps := hkeeps₁.trans (hkeeps₂.trans (hkeeps₃.trans (hkeeps₄.trans hkeeps₅)))
      exact .pure hstands₅ (Shapes.admits_kept hvalue hgrows hkeeps)
    | some place =>
      exact retrace_runs hstands₅ (Shapes.admits_kept hroot₄ hgrows₅ hkeeps₅)
        (eq_path_of_placeWithin? hplace).2

end Vacating

end Frame

end ShapeFlow
