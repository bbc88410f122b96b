import ShapeFlow.Proofs.PlacedObjects
import ShapeFlow.Proofs.SubstitutedPlaces

/-!
# Steps that added types do not sway

Types may be added to a graph without any bearing on a frame, which goes on to name the types of the
old graph only.  A step on the frame is *unswayed* if it ends alike whichever types have been added:
it fails each time, or it answers the same and leaves the very same frame, which still names types
of the old graph only (`Frame.Unswayed`).

Reading is unswayed because old types keep their nodes.  Vacating a place is, although it builds
types on its way, under names that depend on those that are there: it compares each of them with an
old type and forgets it, and the comparison looks at unfoldings only (`Frame.isCurrent_unswayed`).
-/

namespace ShapeFlow

open TypeGraph (SameUnfolding)

variable {base graph grown : TypeGraph} {arguments : List TypeId} {frame later : Frame}
  {declarations : Declarations} {span : Span} {operand : Operand}

/-! ## Looking at old types -/

namespace TypeGraph

variable {type part : TypeId}

theorem Grows.node_eq (hgrows : base.Grows graph) (hhas : base.Has type) :
    graph.node type = base.node type := by
  unfold TypeGraph.node
  rw [hgrows.node?_eq type hhas]

theorem Grows.partType_eq (hgrows : base.Grows graph) (hhas : base.Has type)
    (selector : Selector) : graph.partType declarations span type selector =
      base.partType declarations span type selector := by
  unfold TypeGraph.partType
  rw [hgrows.node_eq hhas]

theorem Grows.foldlM_partType_eq (hgrows : base.Grows graph) (hclosed : base.Closed)
    (hhas : base.Has type) (chain : List Selector) :
    chain.foldlM (graph.partType declarations span) type =
      chain.foldlM (base.partType declarations span) type := by
  induction chain generalizing type with
  | nil => rfl
  | cons selector rest ih =>
    rw [List.foldlM_cons, List.foldlM_cons, hgrows.partType_eq hhas]
    cases hpart : base.partType declarations span type selector with
    | error failure => rfl
    | ok part => exact ih (hclosed.has_field? (partType_eq_ok_iff.mp hpart))

end TypeGraph

namespace Frame

section Reading

variable (hsound : frame.Sound base arguments) (hgrows : base.Grows graph)

include hsound hgrows

theorem Sound.placeType_eq (place : AccessPath) : frame.placeType declarations graph span place =
    frame.placeType declarations base span place := by
  unfold Frame.placeType
  cases hslot : frame.slotType place.root with
  | error failure => rfl
  | ok type =>
    have hhas := (hsound.slotType place.root).of_eq_ok hslot
    exact hgrows.foldlM_partType_eq hsound.wellFormed.closed hhas _

theorem Sound.classOf?_eq (hrooted : operand.RootedIn base arguments) :
    frame.classOf? declarations graph span operand =
      frame.classOf? declarations base span operand := by
  cases operand with
  | type type =>
    simp only [Frame.classOf?]
    rw [hgrows.node_eq hrooted]
  | path place =>
    simp only [Frame.classOf?]
    rw [hsound.placeType_eq hgrows]
    cases htype : frame.placeType declarations base span place with
    | error failure => rfl
    | ok type =>
      have hhas := (hsound.placeType place).of_eq_ok htype
      simp only [bind, Except.bind]
      rw [hgrows.node_eq hhas]
  | fresh id => rfl

theorem Sound.read_eq (hrooted : operand.RootedIn base arguments) (selector : Selector) :
    read declarations span graph operand selector frame =
      read declarations span base operand selector frame := by
  have hclosed := hsound.wellFormed.closed
  unfold read
  rw [Checked.run_get, Checked.run_get]
  cases hresolve : frame.resolve operand with
  | error failure => rfl
  | ok resolved =>
    have hresolved := (hsound.resolve hrooted).of_eq_ok hresolve
    rw [Checked.run_lift_of_ok rfl, Checked.run_lift_of_ok rfl]
    cases resolved with
    | path place =>
      dsimp only
      rw [hsound.placeType_eq hgrows]
      cases htype : frame.placeType declarations base span place with
      | error failure => rfl
      | ok type =>
        have hhas := (hsound.placeType place).of_eq_ok htype
        rw [Checked.run_lift_of_ok rfl, Checked.run_lift_of_ok rfl, hgrows.partType_eq hhas]
        cases hpart : base.partType declarations span type selector with
        | error failure => rfl
        | ok part =>
          have hpartHas := hclosed.has_field? (TypeGraph.partType_eq_ok_iff.mp hpart)
          rw [Checked.run_lift_of_ok rfl, Checked.run_lift_of_ok rfl, hgrows.node_eq hpartHas]
    | type type =>
      dsimp only
      rw [hgrows.partType_eq hresolved]
    | fresh id =>
      dsimp only
      cases hobject : frame.allocation id with
      | error failure => rfl
      | ok object =>
        rw [Checked.run_lift_of_ok rfl, Checked.run_lift_of_ok rfl]
        cases hheld : object.fields.get? selector with
        | none => rfl
        | some held =>
          cases held with
          | path place => rfl
          | fresh child => rfl
          | type part =>
            have hobject' := (found_eq_ok_iff _ _ object).mp hobject
            have hhas := (hsound.objects id.index object hobject').parts selector _ hheld
            dsimp only
            unfold expand?
            rw [hgrows.node_eq hhas]

theorem Sound.readAlong_eq (hrooted : operand.RootedIn base arguments)
    (selectors : List Selector) :
    readAlong declarations span graph operand selectors frame =
      readAlong declarations span base operand selectors frame := by
  induction selectors generalizing operand frame with
  | nil => rfl
  | cons selector rest ih =>
    have hread : read declarations span graph operand selector frame =
        read declarations span base operand selector frame :=
      hsound.read_eq hgrows hrooted selector
    cases hresult : read declarations span base operand selector frame with
    | error failure =>
      rw [readAlong_cons_of_error hresult, readAlong_cons_of_error (hread.trans hresult)]
    | ok result =>
      obtain ⟨hlater, hpart⟩ := (read_safe hsound hrooted selector).of_eq_ok hresult
      rw [readAlong_cons_of_ok (hread.trans hresult), readAlong_cons_of_ok hresult]
      exact ih hlater hpart

end Reading

/-! ## Unswayed steps -/

/-- A step has failed, or it has come to the given answer and frame, and types have been added. -/
inductive EndsAs {α : Type} (base : TypeGraph) :
    Option (α × Frame) → EStateM.Result Failure TypeGraph (α × Frame) → Prop
  | ok {result : α × Frame} {graph : TypeGraph} : base.Grows graph → graph.WellFormed →
      EndsAs base (some result) (.ok result graph)
  | error {failure : Failure} {graph : TypeGraph} : EndsAs base none (.error failure graph)

/-- Whatever types have been added to the graph, the step ends alike: it fails, or it answers the
same and leaves the same frame, in which there are only types of the graph. -/
def Unswayed {α : Type} (base : TypeGraph) (arguments : List TypeId) (step : Framed α)
    (post : α → Prop) (frame : Frame) : Prop :=
  ∃ outcome : Option (α × Frame),
    (∀ graph, base.Grows graph → graph.WellFormed → EndsAs base outcome (step frame graph)) ∧
      ∀ result, outcome = some result → result.2.Sound base arguments ∧ post result.1

namespace Unswayed

variable {α β ι : Type} {post : α → Prop} {post' : β → Prop}

theorem pure {value : α} (hsound : frame.Sound base arguments) (hpost : post value) :
    Unswayed base arguments (Pure.pure value) post frame :=
  ⟨some (value, frame), fun _ hgrows hwell => .ok hgrows hwell, fun result hresult => by
    obtain rfl := Option.some.inj hresult
    exact ⟨hsound, hpost⟩⟩

theorem broken {reference : Reference} :
    Unswayed base arguments (ShapeFlow.broken reference : Framed α) post frame :=
  ⟨none, fun _ _ _ => .error, nofun⟩

theorem mono {weaker : α → Prop} {step : Framed α}
    (hstep : Unswayed base arguments step post frame)
    (hweaker : ∀ value, post value → weaker value) :
    Unswayed base arguments step weaker frame := by
  obtain ⟨outcome, hends, hpost⟩ := hstep
  exact ⟨outcome, hends, fun result hresult =>
    ⟨(hpost result hresult).1, hweaker result.1 (hpost result hresult).2⟩⟩

theorem bind {step : Framed α} {next : α → Framed β}
    (hstep : Unswayed base arguments step post frame)
    (hnext : ∀ value later, later.Sound base arguments → post value →
      Unswayed base arguments (next value) post' later) :
    Unswayed base arguments (step >>= next) post' frame := by
  obtain ⟨outcome, hends, hpost⟩ := hstep
  cases outcome with
  | none =>
    refine ⟨none, fun graph hgrows hwell => ?_, nofun⟩
    have hfirst := hends graph hgrows hwell
    simp only [Bind.bind, StateT.bind, EStateM.bind]
    cases hrun : step frame graph with
    | error failure final => exact .error
    | ok result final =>
      rw [hrun] at hfirst
      cases hfirst
  | some first =>
    obtain ⟨hsound, hvalue⟩ := hpost first rfl
    obtain ⟨outcome, hrest, hpost'⟩ := hnext first.1 first.2 hsound hvalue
    refine ⟨outcome, fun graph hgrows hwell => ?_, hpost'⟩
    have hfirst := hends graph hgrows hwell
    simp only [Bind.bind, StateT.bind, EStateM.bind]
    cases hrun : step frame graph with
    | error failure final =>
      rw [hrun] at hfirst
      cases hfirst
    | ok result final =>
      rw [hrun] at hfirst
      cases hfirst with
      | ok hgrows' hwell' => exact hrest final hgrows' hwell'

theorem get_bind {next : Frame → Framed β}
    (hnext : Unswayed base arguments (next frame) post' frame) :
    Unswayed base arguments (getThe Frame >>= next) post' frame := hnext

theorem modify {change : Frame → Frame} (hsound : (change frame).Sound base arguments) :
    Unswayed base arguments (modifyThe Frame change) (fun _ => True) frame :=
  ⟨some (⟨⟩, change frame), fun _ hgrows hwell => .ok hgrows hwell, fun result hresult => by
    obtain rfl := Option.some.inj hresult
    exact ⟨hsound, trivial⟩⟩

theorem modifyGet {change : Frame → α × Frame} (hsound : (change frame).2.Sound base arguments)
    (hpost : post (change frame).1) :
    Unswayed base arguments (modifyGetThe Frame change) post frame :=
  ⟨some (change frame), fun _ hgrows hwell => .ok hgrows hwell, fun result hresult => by
    obtain rfl := Option.some.inj hresult
    exact ⟨hsound, hpost⟩⟩

/-- A question to which added types make no difference. -/
theorem inspect {question : TypeGraph → Frame → Checked α} (hsound : frame.Sound base arguments)
    (hsame : ∀ graph, base.Grows graph → question graph frame = question base frame)
    (hanswer : Checked.Harmless (question base frame) post) :
    Unswayed base arguments (ShapeFlow.inspect question) post frame := by
  cases hbase : question base frame with
  | error failure =>
    refine ⟨none, fun graph hgrows hwell => ?_, nofun⟩
    unfold ShapeFlow.inspect
    rw [hsame graph hgrows, hbase]
    exact .error
  | ok value =>
    refine ⟨some (value, frame), fun graph hgrows hwell => ?_, fun result hresult => ?_⟩
    · unfold ShapeFlow.inspect
      rw [hsame graph hgrows, hbase]
      exact .ok hgrows hwell
    · obtain rfl := Option.some.inj hresult
      exact ⟨hsound, hanswer.of_eq_ok hbase⟩

/-- A step that reads the types, to which added ones make no difference. -/
theorem reading {step : TypeGraph → StateT Frame Checked α}
    (hsame : ∀ graph, base.Grows graph → step graph frame = step base frame)
    (hanswer : Checked.Harmless (step base frame) fun result =>
      result.2.Sound base arguments ∧ post result.1) :
    Unswayed base arguments (ShapeFlow.reading step) post frame := by
  cases hbase : step base frame with
  | error failure =>
    refine ⟨none, fun graph hgrows hwell => ?_, nofun⟩
    unfold ShapeFlow.reading
    rw [hsame graph hgrows, hbase]
    exact .error
  | ok value =>
    refine ⟨some value, fun graph hgrows hwell => ?_, fun result hresult => ?_⟩
    · unfold ShapeFlow.reading
      rw [hsame graph hgrows, hbase]
      exact .ok hgrows hwell
    · obtain rfl := Option.some.inj hresult
      exact hanswer.of_eq_ok hbase

theorem mapM (related : ι → α → Prop) {body : ι → Framed α} (items : List ι)
    (hsound : frame.Sound base arguments)
    (hbody : ∀ item ∈ items, ∀ later : Frame, later.Sound base arguments →
      Unswayed base arguments (body item) (related item) later) :
    Unswayed base arguments (items.mapM body) (List.Forall₂ related items) frame := by
  induction items generalizing frame with
  | nil => exact .pure hsound .nil
  | cons item rest ih =>
    obtain ⟨hitem, hrest⟩ := List.forall_mem_cons.mp hbody
    rw [List.mapM_cons]
    refine (hitem frame hsound).bind fun value later hlater hvalue => ?_
    refine (ih hlater hrest).bind fun values last hlast hvalues => ?_
    exact .pure hlast (.cons hvalue hvalues)

theorem forM {body : ι → Framed PUnit} (items : List ι) (hsound : frame.Sound base arguments)
    (hbody : ∀ item ∈ items, ∀ later : Frame, later.Sound base arguments →
      Unswayed base arguments (body item) (fun _ => True) later) :
    Unswayed base arguments (items.forM body) (fun _ => True) frame := by
  induction items generalizing frame with
  | nil => exact .pure hsound trivial
  | cons item rest ih =>
    obtain ⟨hitem, hrest⟩ := List.forall_mem_cons.mp hbody
    exact (hitem frame hsound).bind fun _ later hlater _ => ih hlater hrest

end Unswayed

/-! ## Types of operands -/

theorem Known.of_grows (hknown : frame.Known graph operand) (hgrows : base.Grows graph)
    (hclosed : base.Closed) (htypes : frame.HasTypes base) : frame.Known base operand := by
  cases operand with
  | type type => trivial
  | path place =>
    obtain ⟨type, htype⟩ := hknown
    exact ⟨type, (placeType?_eq_of_grows hgrows hclosed htypes place).symm.trans htype⟩
  | fresh id => exact Navigable.of_grows hknown hgrows hclosed htypes

section Typing

variable (hsound : frame.Sound base arguments) (hrooted : operand.RootedIn base arguments)

include hsound hrooted

/-- An operand has a type if it is known, and then its unfolding is that of the operand, as it is
without the types that have been added. -/
theorem Sound.typeOf_known (declarations : Declarations) (span : Span)
    (hknown : frame.Known base operand) (hgrows : base.Grows graph) (hwell : graph.WellFormed) :
    ∃ type final, frame.typeOf declarations span operand graph = .ok type final ∧
      graph.Grows final ∧ final.WellFormed ∧ final.Has type ∧
        ∀ chain, final.endAt? type chain = frame.endOf? base operand chain := by
  have hclosed := hsound.wellFormed.closed
  have hhas : ∀ type, operand = .type type → base.Has type := by
    rintro type rfl
    exact hrooted
  obtain ⟨type, final, hrun, hgrown, hwell', hfinal, hends⟩ :=
    (hknown.mono hgrows hclosed hsound.hasTypes).exists_typeOf declarations span hwell
      (hsound.hasTypes.mono hgrows) fun type heq => hgrows.has (hhas type heq)
  refine ⟨type, final, hrun, hgrown, hwell', hfinal, fun chain => ?_⟩
  rw [hends, endOf?_eq_of_grows hgrows hclosed hsound.hasTypes hhas]

theorem isCurrent_unswayed (place : AccessPath) {part : TypeId} (hpart : base.Has part) :
    Unswayed base arguments (isCurrent declarations span place operand part) (fun _ => True)
      frame := by
  unfold isCurrent
  split
  · exact .pure hsound trivial
  have hclosed := hsound.wellFormed.closed
  refine .get_bind ?_
  by_cases hknown : frame.Known base operand
  · obtain ⟨type, final, hrun, hgrown, hwell, hhas, hends⟩ :=
      hsound.typeOf_known hrooted declarations span hknown (.refl base) hsound.wellFormed
    refine ⟨some (final.sameShape type part, frame), fun graph hgrows hwell' => ?_,
      fun result hresult => ?_⟩
    · obtain ⟨type', final', hrun', hgrown', hwell'', hhas', hends'⟩ :=
        hsound.typeOf_known hrooted declarations span hknown hgrows hwell'
      have hbase := hgrows.trans hgrown'
      have hsame : SameUnfolding final' type' final type :=
        (TypeGraph.sameUnfolding_iff_endAt? hwell''.closed hwell.closed hhas' hhas).mpr
          fun chain => (hends' chain).trans (hends chain).symm
      have hsamePart : SameUnfolding final' part final part :=
        (SameUnfolding.refl hclosed hpart).mono hbase hgrown
      -- The two types have different names, but each is compared in its own graph.
      have hanswer : final'.sameShape type' part = final.sameShape type part := by
        rw [Bool.eq_iff_iff, TypeGraph.sameShape_iff hwell''.closed hhas' (hbase.has hpart),
          TypeGraph.sameShape_iff hwell.closed hhas (hgrown.has hpart)]
        exact ⟨fun h => (hsame.symm.trans h).trans hsamePart,
          fun h => (hsame.trans h).trans hsamePart.symm⟩
      rw [← hanswer]
      simp only [liftM, monadLift, MonadLift.monadLift, StateT.lift, Bind.bind, StateT.bind,
        EStateM.bind, hrun']
      exact .ok hbase hwell''
    · obtain rfl := Option.some.inj hresult
      exact ⟨hsound, trivial⟩
  · refine ⟨none, fun graph hgrows hwell => ?_, by rintro _ ⟨⟩⟩
    simp only [liftM, monadLift, MonadLift.monadLift, StateT.lift, Bind.bind, StateT.bind,
      EStateM.bind]
    cases hrun : frame.typeOf declarations span operand graph with
    | error failure final => exact .error
    | ok type final =>
      have hlater := known_of_typeOf hwell (hsound.hasTypes.mono hgrows) hrun
      exact absurd (hlater.of_grows hgrows hclosed hsound.hasTypes) hknown

end Typing

/-! ## Vacating a place -/

section Vacating

variable (hsound : frame.Sound base arguments)

include hsound

theorem keptPart_unswayed (place : AccessPath) (existing? : Option AllocId) (selector : Selector)
    {part : TypeId} (hpart : base.Has part) :
    Unswayed base arguments (keptPart declarations span place existing? selector part)
      (·.RootedIn base arguments) frame := by
  unfold keptPart
  refine (show Unswayed base arguments _ (fun previous? : Option Operand =>
    ∀ previous, previous? = some previous → previous.RootedIn base arguments) frame from
      .inspect hsound (fun _ _ => rfl) ?_).bind fun previous? later hlater hprevious => ?_
  · cases existing? with
    | none => exact fun previous hprevious => nomatch hprevious
    | some id =>
      exact (frame.allocation_safe id).bind fun object hobject previous hprevious =>
        (hsound.objects id.index object hobject).parts selector previous hprevious
  · cases previous? with
    | none => exact .pure hlater hpart
    | some previous =>
      have hrooted := hprevious previous rfl
      refine (isCurrent_unswayed hlater hrooted place hpart).bind fun current last hlast _ => ?_
      cases current with
      | false => exact .pure hlast hpart
      | true => exact .pure hlast hrooted

end Vacating

/-- The copies that a step makes are unswayed. -/
def CopiesUnswayed (base : TypeGraph) (arguments : List TypeId)
    (copy : AccessPath → Framed Operand) : Prop :=
  ∀ place (frame : Frame), frame.Sound base arguments →
    Unswayed base arguments (copy place) (·.RootedIn base arguments) frame

section Copies

variable (hsound : frame.Sound base arguments) (leaving : List (AllocId × AccessPath))

include hsound

theorem copyParts_unswayed (target : AccessPath) {copy : AccessPath → Framed Operand}
    (hcopy : CopiesUnswayed base arguments copy) (existing? : Option AllocId)
    (place : AccessPath) :
    Unswayed base arguments (copyParts declarations span target leaving copy existing? place)
      (RootedParts base arguments) frame := by
  have hclosed := hsound.wellFormed.closed
  unfold copyParts
  refine (Unswayed.inspect hsound (fun _ hgrows => hsound.placeType_eq hgrows place)
    (hsound.placeType place)).bind fun type later hlater htype => ?_
  refine (Unswayed.inspect hlater (fun _ hgrows => hgrows.node_eq htype)
    (base.node_safe type)).bind fun node later hlater hnode => ?_
  refine (Unswayed.mapM (fun entry image => image.1 = entry.1 ∧ image.2.RootedIn base arguments)
    node.fields.entries hlater ?_).bind ?_
  · intro entry hentry changed hchanged
    have hpart := hclosed hnode ((node.fields.get?_eq_some_iff entry.1 entry.2).mpr hentry)
    dsimp only
    split
    · exact (hcopy _ changed hchanged).bind fun operand last hlast hoperand =>
        .pure hlast ⟨rfl, hoperand⟩
    · exact (keptPart_unswayed hchanged target existing? entry.1 hpart).bind
        fun operand last hlast hoperand => .pure hlast ⟨rfl, hoperand⟩
  · intro parts last hlast hparts
    refine .pure hlast fun selector operand hoperand => ?_
    obtain ⟨-, -, hrooted⟩ := OrderedMap.exists_of_get?_images
      (fun _ operand => operand.RootedIn base arguments) node.fields hparts hoperand
    exact hrooted

theorem copyAt_unswayed (target : AccessPath) {inner : AccessPath → Framed Operand}
    (hinner : CopiesUnswayed base arguments inner) (place : AccessPath) :
    Unswayed base arguments (copyAt declarations span target leaving inner place)
      (·.RootedIn base arguments) frame := by
  unfold copyAt
  cases leaving.find? fun resident => resident.2 = place with
  | some resident => exact .pure hsound trivial
  | none =>
    refine (Unswayed.inspect hsound (fun _ hgrows => hsound.placeType_eq hgrows place)
      (hsound.placeType place)).bind fun type later hlater htype => ?_
    refine (Unswayed.inspect hlater (fun _ hgrows => hgrows.node_eq htype)
      (base.node_safe type)).bind fun node later hlater hnode => ?_
    cases node with
    | scalar => exact .pure hlater htype
    | object className fields =>
      refine (copyParts_unswayed hlater leaving target hinner none place).bind
        fun fields last hlast hfields => ?_
      have hobject : Allocation.RootedIn base arguments { className, fields } :=
        ⟨hfields, fun home hhome => nomatch hhome⟩
      have hallocate : Unswayed base arguments (modifyGetThe Frame (allocate { className, fields }))
          (fun _ => True) last := .modifyGet (hlast.allocate hobject) trivial
      exact hallocate.bind fun id final hfinal _ => .pure hfinal trivial

omit hsound in
theorem copy_unswayed (target : AccessPath) (room : Nat) :
    CopiesUnswayed base arguments (copy declarations span target leaving room) := by
  induction room with
  | zero => exact fun place frame hsound =>
      copyAt_unswayed hsound leaving target (fun _ _ _ => .broken) place
  | succ room ih => exact fun place frame hsound =>
      copyAt_unswayed hsound leaving target ih place

end Copies

section Vacated

variable (hsound : frame.Sound base arguments)

include hsound

theorem retrace_unswayed {root : Operand} (hroot : root.RootedIn base arguments)
    (target place : AccessPath) :
    Unswayed base arguments (retrace declarations span root target place)
      (·.RootedIn base arguments) frame := by
  unfold retrace
  cases place.below? target with
  | none => exact .broken
  | some selectors =>
    exact .reading (fun graph hgrows => hsound.readAlong_eq hgrows hroot selectors)
      (readAlong_safe hsound hroot selectors)

/-- A place is vacated in the same way whatever types have been added, and the value is rebound to
the same operand. -/
theorem vacate_unswayed (target : AccessPath) {value : Operand}
    (hvalue : value.RootedIn base arguments) :
    Unswayed base arguments (vacate declarations span target value)
      (·.RootedIn base arguments) frame := by
  unfold vacate
  refine .get_bind ?_
  dsimp only
  split
  · exact .pure hsound hvalue
  refine (Unswayed.mapM (fun _ rebuilt => RootedParts base arguments rebuilt.2)
    (frame.residents target) hsound fun resident _ changed hchanged => ?_).bind
      fun rebuilt copied hcopied hrebuilt => ?_
  · exact (copyParts_unswayed hchanged _ target (copy_unswayed _ target _) (some resident.1)
      resident.2).bind fun fields last hlast hfields => .pure hlast hfields
  refine (copy_unswayed _ target _ target copied hcopied).bind fun root rooted hrooted hroot => ?_
  refine (Unswayed.forM rebuilt hrooted fun object hobject changed hchanged => ?_).bind
    fun _ released hreleased _ => ?_
  · obtain ⟨resident, -, hfields⟩ := exists_mem_of_forall₂ hrebuilt hobject
    exact .modify (hchanged.release object.1 hfields)
  refine (Unswayed.forM (frame.localsWithin target) hreleased
    fun binding _ changed hchanged => ?_).bind fun _ renamed hrenamed _ => .get_bind ?_
  · exact (retrace_unswayed hchanged hroot target binding.2).bind fun operand last hlast hoperand =>
      .modify (hlast.setLocal binding.1 hoperand)
  refine (Unswayed.forM (renamed.partsWithin target) hrenamed
    fun part _ changed hchanged => ?_).bind fun _ rebound hrebound _ => ?_
  · exact (retrace_unswayed hchanged hroot target part.2.2).bind fun operand last hlast hoperand =>
      .reading (fun _ _ => rfl) ((setPart_safe hlast part.1 part.2.1 hoperand).mono
        fun _ hset => ⟨hset, trivial⟩)
  -- The value to be written may itself be told by the place.
  cases value.placeWithin? target with
  | none => exact .pure hrebound hvalue
  | some place => exact retrace_unswayed hrebound hroot target place

end Vacated

end Frame

end ShapeFlow
