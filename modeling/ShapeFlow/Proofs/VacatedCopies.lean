import ShapeFlow.Proofs.AmendedFrames
import ShapeFlow.Proofs.IntactCopies
import ShapeFlow.Proofs.ReifiedObjects

/-!
# Where the parts of a copy come from

When a place is vacated, what stands there is copied first.  The copy is made of the objects that
are about to lose their homes and of new objects around them (`Frame.CopyOf`).  An object that loses
its home is given parts that belong to the copy, or it retains what it held before it got its home,
where that lies outside of the place and looks like the part (`Frame.Retains`).

So once the objects have lost their homes, all that can be found out about the frame is told by the
frame before and by what the objects retain (`Frame.Released`, `Frame.Refilled.released`).
-/

namespace ShapeFlow

variable {shapes : Shapes} {declarations : Declarations} {span : Span} {arguments : List TypeId}
  {graph grown final : TypeGraph} {frame later last : Frame} {operand held : Operand}
  {base place : AccessPath} {selector : Selector} {id : AllocId}

namespace Frame

/-! ## The types of operands in sound frames -/

/-- The type of an operand, if it is answered, has the unfolding of the operand. -/
theorem typeOf_ends_alike (hsound : frame.Sound graph arguments)
    (hrooted : operand.RootedIn graph arguments) :
    growing.Ends graph (frame.typeOf declarations span operand graph) fun type grown =>
      grown.WellFormed ∧ grown.Has type ∧
        ∀ chain, grown.endAt? type chain = frame.endOf? graph operand chain := by
  have hends : growing.Ends graph (frame.typeOf declarations span operand graph)
      fun type grown => grown.WellFormed ∧ grown.Has type := typeOf_ends hsound hrooted
  cases hresolve : frame.resolve operand with
  | error failure =>
    unfold typeOf at hends ⊢
    rw [hresolve] at hends ⊢
    exact hends
  | ok resolved =>
    have hresolved : resolved.RootedIn graph arguments := by
      have hsafe := hsound.resolve hrooted
      rw [hresolve] at hsafe
      exact hsafe
    have hsame : SameEnds frame graph operand frame graph resolved := by
      cases operand with
      | type type => cases hresolve; exact .refl frame graph _
      | path place => cases hresolve; exact .refl frame graph _
      | fresh id =>
        obtain ⟨object, hobject, rfl⟩ := resolve_fresh_eq_ok_iff.mp hresolve
        cases hhome : object.home? with
        | none => exact .refl frame graph _
        | some home => exact sameEnds_home hobject hhome
    rw [typeOf_eq_of_resolve hresolve] at hends ⊢
    refine (hends.and (typeOf_shows hsound (resolve_settled hresolve) hresolved)).mono ?_
    rintro type grown hgrows ⟨⟨hwell, hhas⟩, -, hshows⟩
    refine ⟨hwell, hhas, fun chain => ?_⟩
    rw [hshows.endAt?_eq, hsame, endOf?_eq_of_grows hgrows hsound.wellFormed.closed hsound.hasTypes]
    rintro type rfl
    exact hresolved

/-! ## Frames with more objects -/

/-- Types have been added, and objects without homes, none of which holds what is told by the base
or by a place below it. -/
structure Extends (arguments : List TypeId) (base : AccessPath) (frame : Frame) (graph : TypeGraph)
    (later : Frame) (grown : TypeGraph) : Prop where
  grows : graph.Grows grown
  sound : later.Sound grown arguments
  slots : later.slots = frame.slots
  locals : later.locals = frame.locals
  old : ∀ (id : Nat) (object : Allocation), frame.allocations[id]? = some object →
    later.allocations[id]? = some object
  new : ∀ (id : Nat) (after : Allocation), later.allocations[id]? = some after →
    frame.allocations[id]? = none → after.home? = none ∧
      ∀ selector held, after.fields.get? selector = some held → held.placeWithin? base = none

namespace Extends

theorem of_grows (hsound : frame.Sound graph arguments) (hgrows : graph.Grows grown)
    (hwell : grown.WellFormed) (base : AccessPath) :
    frame.Extends arguments base graph frame grown where
  grows := hgrows
  sound := hsound.mono hgrows hwell
  slots := rfl
  locals := rfl
  old _ _ hobject := hobject
  new _ _ hafter hnone := nomatch hafter.symm.trans hnone

theorem refl (hsound : frame.Sound graph arguments) (base : AccessPath) :
    frame.Extends arguments base graph frame graph :=
  of_grows hsound (.refl graph) hsound.wellFormed base

theorem trans (hfirst : frame.Extends arguments base graph later grown)
    (hsecond : later.Extends arguments base grown last final) :
    frame.Extends arguments base graph last final where
  grows := hfirst.grows.trans hsecond.grows
  sound := hsecond.sound
  slots := hsecond.slots.trans hfirst.slots
  locals := hsecond.locals.trans hfirst.locals
  old id object hobject := hsecond.old id object (hfirst.old id object hobject)
  new id after hafter hnone := by
    cases hmiddle : later.allocations[id]? with
    | none => exact hsecond.new id after hafter hmiddle
    | some middle =>
      obtain rfl := Option.some.inj (hafter.symm.trans (hsecond.old id middle hmiddle))
      exact hfirst.new id after hmiddle hnone

theorem allocate (hextends : frame.Extends arguments base graph later grown) {object : Allocation}
    (hnone : object.home? = none)
    (hparts : ∀ selector held, object.fields.get? selector = some held →
      held.RootedIn grown arguments ∧ held.placeWithin? base = none) :
    frame.Extends arguments base graph (later.allocate object).2 grown := by
  refine hextends.trans ⟨.refl grown, hextends.sound.allocate
    ⟨fun selector held hheld => (hparts selector held hheld).1,
      fun home hhome => nomatch hnone.symm.trans hhome⟩, rfl, rfl,
    fun id before hbefore => getElem?_allocate hbefore object, fun id after hafter hbefore => ?_⟩
  rw [Frame.allocate, Array.getElem?_push] at hafter
  split at hafter
  · obtain rfl := Option.some.inj hafter
    exact ⟨hnone, fun selector held hheld => (hparts selector held hheld).2⟩
  · exact absurd (hafter.symm.trans hbefore) (Option.some_ne_none after)

end Extends

/-- What an operand that is there looks like is not changed by new objects. -/
theorem endOf?_eq_of_old (hintact : frame.Intact shapes graph) (hslots : later.slots = frame.slots)
    (hold : ∀ (id : Nat) (object : Allocation), frame.allocations[id]? = some object →
      later.allocations[id]? = some object) (hexists : operand.ExistsIn frame)
    (chain : List Selector) :
    later.endOf? graph operand chain = frame.endOf? graph operand chain := by
  have hsame : ∀ {operand : Operand}, operand.ExistsIn frame →
      later.localObject? operand = frame.localObject? operand ∧
        later.foundType? graph operand = frame.foundType? graph operand := by
    intro operand hexists
    cases operand with
    | type type => exact ⟨rfl, rfl⟩
    | path place => exact ⟨rfl, placeType?_eq_of_slots hslots place⟩
    | fresh id =>
      obtain ⟨object, hobject⟩ := hexists id rfl
      have hafter := hold id.index object hobject
      refine ⟨by simp only [localObject?, hobject, hafter], ?_⟩
      simp only [foundType?, hobject, hafter, placeType?_eq_of_slots hslots]
  induction chain generalizing operand with
  | nil =>
    obtain ⟨hlocal, hfound⟩ := hsame hexists
    rw [endOf?, endOf?, hlocal, hfound]
  | cons selector rest ih =>
    obtain ⟨hlocal, hfound⟩ := hsame hexists
    rw [endOf?, endOf?, hlocal, hfound]
    cases hobject : frame.localObject? operand with
    | none => rfl
    | some object =>
      obtain ⟨id, -, hat, -⟩ := localObject?_eq_some_iff.mp hobject
      exact Option.bind_congr fun held hheld =>
        ih ((hintact.objects id.index object hat).parts selector held hheld).2

theorem Extends.endOf?_eq (hextends : frame.Extends arguments base graph later grown)
    (hsound : frame.Sound graph arguments) (hintact : frame.Intact shapes graph)
    (hhas : ∀ type, operand = .type type → graph.Has type) (hexists : operand.ExistsIn frame)
    (chain : List Selector) :
    later.endOf? grown operand chain = frame.endOf? graph operand chain := by
  rw [endOf?_eq_of_old (hintact.mono hextends.grows) hextends.slots hextends.old hexists,
    endOf?_eq_of_grows hextends.grows hsound.wellFormed.closed hsound.hasTypes hhas]

/-! ## What an object retains -/

/-- The part of the object is the operand. -/
def PartHolds (frame : Frame) (id : AllocId) (selector : Selector) (held : Operand) : Prop :=
  ∃ object, frame.allocations[id.index]? = some object ∧ object.fields.get? selector = some held

/-- The object is at home at the place, within the base, and still holds what it held before it got
this home: the part lies outside of the base and looks like what is found there now, and no object
at or below it loses its home. -/
structure Retains (frame : Frame) (graph : TypeGraph) (base : AccessPath) (id : AllocId)
    (place : AccessPath) (selector : Selector) (held : Operand) : Prop where
  resident : (id, place) ∈ frame.residents base
  holds : frame.PartHolds id selector held
  apart : ∀ other ∈ frame.residents base, other.2.liesWithin (place.child selector) = false
  outside : held.placeWithin? base = none
  looks : SameEnds frame graph held frame graph (.path (place.child selector))

/-- What belongs to the copy of a place: a type, an object that loses its home there, or a new
object whose parts belong to the copy. -/
inductive CopyOf (start : Frame) (base : AccessPath) (frame : Frame) : AccessPath → Operand → Prop
  | type (place : AccessPath) (type : TypeId) : CopyOf start base frame place (.type type)
  | resident {id : AllocId} {place : AccessPath} (hmem : (id, place) ∈ start.residents base) :
      CopyOf start base frame place (.fresh id)
  | new {id : AllocId} {object : Allocation} {place : AccessPath}
      (hnew : start.allocations[id.index]? = none)
      (hobject : frame.allocations[id.index]? = some object) (hnone : object.home? = none)
      (hparts : ∀ selector held, object.fields.get? selector = some held →
        CopyOf start base frame (place.child selector) held) :
      CopyOf start base frame place (.fresh id)

variable {start : Frame} {first : TypeGraph}

/-- What was there before belongs to the copy only if it loses its home. -/
theorem CopyOf.mem_residents {object : Allocation}
    (hcopy : CopyOf start base frame place (.fresh id))
    (hobject : start.allocations[id.index]? = some object) :
    (id, place) ∈ start.residents base := by
  cases hcopy with
  | resident hmem => exact hmem
  | new hmissing => exact nomatch hmissing.symm.trans hobject

/-- The parts of a new object of the copy belong to the copy. -/
theorem CopyOf.part {object : Allocation} (hcopy : CopyOf start base frame place (.fresh id))
    (hmissing : start.allocations[id.index]? = none)
    (hobject : frame.allocations[id.index]? = some object)
    (hheld : object.fields.get? selector = some held) :
    CopyOf start base frame (place.child selector) held := by
  cases hcopy with
  | resident hmem =>
    obtain ⟨_, hbefore, -⟩ := home_of_mem_residents hmem
    exact nomatch hmissing.symm.trans hbefore
  | new _ hobject' _ hparts =>
    obtain rfl := Option.some.inj (hobject.symm.trans hobject')
    exact hparts selector held hheld

theorem CopyOf.outside (hcopy : CopyOf start base frame place operand) :
    operand.placeWithin? base = none := by
  cases hcopy <;> rfl

/-- New objects stay what they are. -/
theorem CopyOf.mono (hcopy : CopyOf start base frame place operand)
    (hnew : ∀ (id : Nat) (object : Allocation), start.allocations[id]? = none →
      frame.allocations[id]? = some object → later.allocations[id]? = some object) :
    CopyOf start base later place operand := by
  induction hcopy with
  | type place type => exact .type place type
  | resident hmem => exact .resident hmem
  | new hmissing hobject hnone _ ih => exact .new hmissing (hnew _ _ hmissing hobject) hnone ih

/-- What an object is given as a part of what is found at a place. -/
def Refills (start : Frame) (first : TypeGraph) (base : AccessPath) (existing? : Option AllocId)
    (frame : Frame) (place : AccessPath) (selector : Selector) (held : Operand) : Prop :=
  CopyOf start base frame (place.child selector) held ∨
    ∃ id, existing? = some id ∧ start.Retains first base id place selector held

theorem Refills.mono {existing? : Option AllocId}
    (hrefills : start.Refills first base existing? frame place selector held)
    (hnew : ∀ (id : Nat) (object : Allocation), start.allocations[id]? = none →
      frame.allocations[id]? = some object → later.allocations[id]? = some object) :
    start.Refills first base existing? later place selector held :=
  hrefills.imp_left fun hcopy => hcopy.mono hnew

theorem Refills.outside {existing? : Option AllocId}
    (hrefills : start.Refills first base existing? frame place selector held) :
    held.placeWithin? base = none := by
  rcases hrefills with hcopy | ⟨_, -, hretains⟩
  · exact hcopy.outside
  · exact Retains.outside hretains

/-- The list has the objects that lose their homes, with what they are given. -/
def Refilled (start : Frame) (first : TypeGraph) (base : AccessPath) (frame : Frame)
    (rebuilt : List (AllocId × OrderedMap Selector Operand)) : Prop :=
  List.Forall₂ (fun resident object => object.1 = resident.1 ∧
    ∀ selector held, object.2.get? selector = some held →
      start.Refills first base (some resident.1) frame resident.2 selector held)
    (start.residents base) rebuilt

theorem Refilled.mono {rebuilt : List (AllocId × OrderedMap Selector Operand)}
    (hrebuilt : start.Refilled first base frame rebuilt)
    (hold : ∀ (id : Nat) (object : Allocation), frame.allocations[id]? = some object →
      later.allocations[id]? = some object) : start.Refilled first base later rebuilt :=
  List.Forall₂.imp (fun _ _ hobject => ⟨hobject.1, fun selector held hheld =>
    (hobject.2 selector held hheld).mono fun id object _ => hold id object⟩) hrebuilt

/-! ## Copies -/

/-- What is taken for current lies outside of the place and looks like the part, if the type that
it is compared by has the unfolding of the operand. -/
theorem isCurrent_ends {discipline : Discipline TypeGraph} (hwell : graph.WellFormed)
    (hgrows : ∀ {graph grown : TypeGraph}, discipline.Grows graph grown → graph.Grows grown)
    (htype : discipline.Ends graph (frame.typeOf declarations span operand graph)
      fun type grown => grown.WellFormed ∧ grown.Has type ∧
        ∀ chain, grown.endAt? type chain = frame.endOf? graph operand chain)
    {part : TypeId} (hpart : graph.Has part) :
    discipline.Ends graph (isCurrent declarations span base operand part frame graph)
      fun result grown => frame = result.2 ∧ grown.WellFormed ∧ (result.1 = true →
        operand.placeWithin? base = none ∧
          ∀ chain, frame.endOf? graph operand chain = graph.endAt? part chain) := by
  unfold isCurrent
  split
  · exact .run_pure ⟨rfl, hwell, fun htrue => absurd htrue (by simp)⟩
  · rename_i houtside
    refine .get_bind (.lift_bind htype ?_)
    rintro type grown hgrown ⟨hwell', hhas, hends⟩
    replace hgrown := hgrows hgrown
    refine .getBase_bind (.run_pure ⟨rfl, hwell', fun htrue => ⟨?_, fun chain => ?_⟩⟩)
    · simpa using houtside
    · have hsame := (TypeGraph.sameShape_iff hwell'.closed hhas (hgrown.has hpart)).mp htrue
      rw [← hends, hsame.endAt?_eq, hgrown.endAt?_eq hwell.closed hpart]

/-- The copier answers for the parts at or below which an object loses its home, with what belongs
to the copy. -/
def CopiesFrom (start : Frame) (first : TypeGraph) (arguments : List TypeId) (base : AccessPath)
    (copier : AccessPath → Framed Operand) (place : AccessPath) : Prop :=
  ∀ selector, ((start.residents base).any fun resident =>
      resident.2.liesWithin (place.child selector)) = true →
    ∀ frame graph, start.Extends arguments base first frame graph →
      growing.Ends graph (copier (place.child selector) frame graph) fun result grown =>
        frame.Extends arguments base graph result.2 grown ∧
          CopyOf start base result.2 (place.child selector) result.1 ∧
            result.1.RootedIn grown arguments

section Copying

variable (hintact : start.Intact shapes first) (hsound : start.Sound first arguments)

include hintact hsound

/-- What is kept of a part is a type, or what the object retains. -/
theorem keptPart_retains (hextends : start.Extends arguments base first frame graph)
    {existing? : Option AllocId}
    (hexisting : ∀ id, existing? = some id → (id, place) ∈ start.residents base)
    (hapart : ∀ other ∈ start.residents base, other.2.liesWithin (place.child selector) = false)
    {part : TypeId} (hfound : frame.placeType? graph (place.child selector) = some part) :
    growing.Ends graph (keptPart declarations span base existing? selector part frame graph)
      fun result grown => frame.Extends arguments base graph result.2 grown ∧
        start.Refills first base existing? result.2 place selector result.1 := by
  have hcurrent := hextends.sound
  have hwell := hcurrent.wellFormed
  have hhas := has_placeType? hwell.closed hcurrent.hasTypes hfound
  have htype : ∀ {later : Frame}, start.Refills first base existing? later place selector
      (.type part) := Or.inl (.type _ part)
  unfold keptPart
  refine (Discipline.Ends.inspect (fun previous? => ∀ previous, previous? = some previous →
    ∃ id object, existing? = some id ∧ start.allocations[id.index]? = some object ∧
      object.fields.get? selector = some previous) hwell ?_).run_bind ?_
  · cases existing? with
    | none => exact fun previous hprevious => nomatch hprevious
    | some id =>
      refine (frame.allocation_safe id).bind fun object hobject previous hprevious => ?_
      obtain ⟨before, hbefore, -⟩ := home_of_mem_residents (hexisting id rfl)
      obtain rfl := Option.some.inj (hobject.symm.trans (hextends.old _ before hbefore))
      exact ⟨id, object, rfl, hbefore, hprevious⟩
  · rintro previous? _ _ - ⟨rfl, rfl, hprevious⟩
    cases previous? with
    | none => exact .run_pure ⟨.refl hcurrent base, htype⟩
    | some previous =>
      obtain ⟨id, object, hid, hobject, hheld⟩ := hprevious previous rfl
      have hrooted := (hsound.objects _ object hobject).parts selector previous hheld
      have hexists := ((hintact.objects _ object hobject).parts selector previous hheld).2
      have hheldType : ∀ type, previous = .type type → first.Has type := by
        rintro type rfl
        exact hrooted
      refine (isCurrent_ends hwell (fun hgrows => hgrows)
        (typeOf_ends_alike hcurrent (hrooted.mono hextends.grows)) hhas).run_bind ?_
      rintro current _ grown hgrows ⟨rfl, hgrown, hcurrent'⟩
      have hgrown' := Extends.of_grows hcurrent hgrows hgrown base
      cases current with
      | false => exact .run_pure ⟨hgrown', htype⟩
      | true =>
        obtain ⟨houtside, hlooks⟩ := hcurrent' rfl
        refine .run_pure ⟨hgrown', Or.inr ⟨id, hid, hexisting id hid, ⟨object, hobject, hheld⟩,
          hapart, houtside, fun chain => ?_⟩⟩
        -- Seen in the frame as it is now, the part looks like the place; so it did at the start.
        calc start.endOf? first previous chain = frame.endOf? graph previous chain :=
              (hextends.endOf?_eq hsound hintact hheldType hexists chain).symm
          _ = graph.endAt? part chain := hlooks chain
          _ = frame.endOf? graph (.path (place.child selector)) chain := by
              rw [endOf?_path, hfound, Option.bind_some]
          _ = start.endOf? first (.path (place.child selector)) chain :=
              hextends.endOf?_eq hsound hintact (by simp) (Operand.existsIn_path start _) chain

variable {copier : AccessPath → Framed Operand}

/-- The parts of what is found at a place, and what they are given. -/
theorem copyParts_refills
    (hcopier : CopiesFrom start first arguments base copier place)
    (hextends : start.Extends arguments base first frame graph) {existing? : Option AllocId}
    (hexisting : ∀ id, existing? = some id → (id, place) ∈ start.residents base) :
    growing.Ends graph
      (copyParts declarations span base (start.residents base) copier existing? place frame graph)
      fun result grown => frame.Extends arguments base graph result.2 grown ∧
        ∀ selector held, result.1.get? selector = some held →
          start.Refills first base existing? result.2 place selector held ∧
            held.RootedIn grown arguments := by
  have hcurrent := hextends.sound
  have hwell := hcurrent.wellFormed
  unfold copyParts
  refine (Discipline.Ends.inspect _ hwell (placeType_found hcurrent place)).run_bind ?_
  rintro type _ _ - ⟨rfl, rfl, hfound, hhas⟩
  refine (Discipline.Ends.inspect _ hwell (graph.node_safe type)).run_bind ?_
  rintro node _ _ - ⟨rfl, rfl, hnode⟩
  refine (Discipline.Ends.mapM_along node.fields.entries (Extends arguments base)
    (fun _ part later grown => start.Refills first base existing? later place part.1 part.2 ∧
      part.2.RootedIn grown arguments) (.refl hcurrent base) (fun hlater => .refl hlater.sound base)
    Extends.trans ?_ ?_).run_bind ?_
  · rintro _ part middle _ later _ hlater ⟨hrefills, hrooted⟩
    exact ⟨hrefills.mono fun id object _ => hlater.old id object, hrooted.mono hlater.grows⟩
  · rintro ⟨selector, part⟩ hentry later grown hlater
    have hpart := (node.fields.get?_eq_some_iff selector part).mpr hentry
    have hfound' : later.placeType? grown (place.child selector) = some part := by
      rw [placeType?_eq_of_slots hlater.slots,
        placeType?_eq_of_grows hlater.grows hwell.closed hcurrent.hasTypes]
      exact placeType?_child hfound ((TypeGraph.field?_eq_of_node? hnode selector).trans hpart)
    dsimp only
    split
    · rename_i hany
      refine (hcopier selector hany later grown (hextends.trans hlater)).run_bind ?_
      rintro held last final - ⟨hlast, hcopy, hrooted⟩
      exact .run_pure ⟨hlast, Or.inl hcopy, hrooted⟩
    · rename_i hnone
      have hapart : ∀ other ∈ start.residents base,
          other.2.liesWithin (place.child selector) = false := by simpa using hnone
      have hhas := hlater.grows.has (hwell.closed hnode hpart)
      refine ((keptPart_keeps hlater.sound hhas).and (keptPart_retains hintact hsound
        (hextends.trans hlater) hexisting hapart hfound')).run_bind ?_
      rintro held last final - ⟨⟨-, hrooted⟩, hlast, hrefills⟩
      exact .run_pure ⟨hlast, hrefills, hrooted⟩
  · rintro parts later grown - ⟨hlater, hparts⟩
    refine .run_pure ⟨hlater, fun selector held hheld => ?_⟩
    have hmem := (OrderedMap.mem_or_get?_of_insertAll hheld).resolve_right (by simp)
    obtain ⟨_, -, hpart⟩ := exists_mem_of_forall₂ hparts hmem
    exact hpart

theorem copyAt_copies (hcopier : CopiesFrom start first arguments base copier place)
    (hextends : start.Extends arguments base first frame graph) :
    growing.Ends graph
      (copyAt declarations span base (start.residents base) copier place frame graph)
      fun result grown => frame.Extends arguments base graph result.2 grown ∧
        CopyOf start base result.2 place result.1 ∧ result.1.RootedIn grown arguments := by
  have hcurrent := hextends.sound
  have hwell := hcurrent.wellFormed
  unfold copyAt
  cases hfind : (start.residents base).find? fun resident => resident.2 = place with
  | some resident =>
    obtain rfl : resident.2 = place := by simpa using List.find?_some hfind
    exact .run_pure ⟨.refl hcurrent base, .resident (List.mem_of_find?_eq_some hfind), trivial⟩
  | none =>
    refine (Discipline.Ends.inspect _ hwell (placeType_found hcurrent place)).run_bind ?_
    rintro type _ _ - ⟨rfl, rfl, -, hhas⟩
    refine (Discipline.Ends.inspect _ hwell (graph.node_safe type)).run_bind ?_
    rintro node _ _ - ⟨rfl, rfl, -⟩
    cases node with
    | scalar => exact .run_pure ⟨.refl hcurrent base, .type place type, hhas⟩
    | object className types =>
      refine (copyParts_refills hintact hsound hcopier hextends
        (fun id hid => absurd hid.symm (Option.some_ne_none id))).run_bind ?_
      rintro fields later grown - ⟨hlater, hfields⟩
      have hallocated : frame.Extends arguments base graph
          (later.allocate { className, fields }).2 grown :=
        hlater.allocate rfl fun selector held hheld =>
          ⟨(hfields selector held hheld).2, (hfields selector held hheld).1.outside⟩
      have hmissing : start.allocations[later.allocations.size]? = none := by
        cases hobject : start.allocations[later.allocations.size]? with
        | none => rfl
        | some object =>
          have hat := (hextends.trans hlater).old _ object hobject
          exact absurd (Array.getElem?_eq_some_iff.mp hat).1 (Nat.lt_irrefl _)
      refine ⟨.refl grown, hallocated, .new hmissing Array.getElem?_push_size rfl
        fun selector held hheld => ?_, trivial⟩
      rcases (hfields selector held hheld).1 with hcopy | ⟨id, hid, -⟩
      · exact hcopy.mono fun id object _ hobject => getElem?_allocate hobject _
      · exact nomatch hid

/-- The copy of a place is made of new objects, of objects that lose their homes and of types. -/
theorem copy_copies (room : Nat) (place : AccessPath) {frame : Frame} {graph : TypeGraph}
    (hextends : start.Extends arguments base first frame graph) :
    growing.Ends graph
      (copy declarations span base (start.residents base) room place frame graph)
      fun result grown => frame.Extends arguments base graph result.2 grown ∧
        CopyOf start base result.2 place result.1 ∧ result.1.RootedIn grown arguments := by
  induction room generalizing place frame graph with
  | zero => exact copyAt_copies hintact hsound (fun _ _ _ _ hlater =>
      .broken hlater.sound.wellFormed trivial) hextends
  | succ room ih => exact copyAt_copies hintact hsound (fun selector _ _ _ hlater =>
      ih (place.child selector) hlater) hextends

/-- Each object that loses its home is given its parts. -/
theorem rebuildAll_refills (room : Nat) :
    growing.Ends first
      (((start.residents base).mapM fun resident => do
        let fields ← copyParts declarations span base (start.residents base)
          (copy declarations span base (start.residents base) room) (some resident.1) resident.2
        pure (resident.1, fields) : Framed _) start first)
      fun result grown => start.Extends arguments base first result.2 grown ∧
        start.Refilled first base result.2 result.1 := by
  refine Discipline.Ends.mapM_along (start.residents base) (Extends arguments base)
    (fun resident (object : AllocId × OrderedMap Selector Operand) later _ =>
      object.1 = resident.1 ∧ ∀ selector held, object.2.get? selector = some held →
        start.Refills first base (some resident.1) later resident.2 selector held)
    (.refl hsound base) (fun hlater => .refl hlater.sound base) Extends.trans ?_ ?_
  · rintro resident object middle _ later _ hlater ⟨hid, hrefills⟩
    exact ⟨hid, fun selector held hheld =>
      (hrefills selector held hheld).mono fun id object _ => hlater.old id object⟩
  · rintro resident hmem later grown hlater
    refine (copyParts_refills hintact hsound (fun selector _ _ _ hlast =>
      copy_copies hintact hsound room (resident.2.child selector) hlast) hlater
      (fun id (hid : some resident.1 = some id) => Option.some.inj hid ▸ hmem)).run_bind ?_
    rintro fields last final - ⟨hlast, hfields⟩
    exact .run_pure ⟨hlast, rfl, fun selector held hheld => (hfields selector held hheld).1⟩

end Copying

/-! ## Objects that give up their homes -/

/-- The objects of the list have given up their homes and have been given their parts. -/
structure Releases (rebuilt : List (AllocId × OrderedMap Selector Operand)) (frame later : Frame) :
    Prop where
  locals : later.locals = frame.locals
  others : ∀ id : AllocId, (∀ object ∈ rebuilt, object.1 ≠ id) →
    later.allocations[id.index]? = frame.allocations[id.index]?
  listed : ∀ object ∈ rebuilt, ∀ before, frame.allocations[object.1.index]? = some before →
    ∃ other ∈ rebuilt, other.1 = object.1 ∧ later.allocations[object.1.index]? =
      some { before with fields := other.2, home? := none }

theorem releaseAll_releases (rebuilt : List (AllocId × OrderedMap Selector Operand))
    (frame : Frame) (graph : TypeGraph) :
    (lenient TypeGraph).Ends graph
      ((rebuilt.forM fun object => modifyThe Frame (release object.1 object.2) : Framed PUnit)
        frame graph)
      fun result _ => Releases rebuilt frame result.2 := by
  induction rebuilt generalizing frame with
  | nil => exact .run_pure ⟨rfl, fun _ _ => rfl, by simp⟩
  | cons head rest ih =>
    refine Discipline.Ends.modify_bind ((ih (frame.release head.1 head.2)).mono ?_)
    rintro ⟨_, later⟩ _ - ⟨hlocals, hothers, hlisted⟩
    have hhead : ∀ before, frame.allocations[head.1.index]? = some before →
        (frame.release head.1 head.2).allocations[head.1.index]? =
          some { before with fields := head.2, home? := none } := by
      intro before hbefore
      simp [release, update, Array.getElem?_modify, hbefore]
    have hother : ∀ id : AllocId, head.1 ≠ id →
        (frame.release head.1 head.2).allocations[id.index]? = frame.allocations[id.index]? := by
      intro id hne
      have hindex : head.1.index ≠ id.index := fun heq => hne (AllocId.index_inj.mp heq)
      rw [release, update, Array.getElem?_modify, if_neg hindex]
    refine ⟨hlocals, fun id hnot => ?_, fun object hmem before hbefore => ?_⟩
    · rw [List.forall_mem_cons] at hnot
      rw [hothers id hnot.2, hother id hnot.1]
    · by_cases hrest : ∃ other ∈ rest, other.1 = object.1
      · -- It is released again later, with the parts that it is given then.
        obtain ⟨other, hother', heq⟩ := hrest
        rw [← heq] at hbefore ⊢
        have hagain : ∃ again, (frame.release head.1 head.2).allocations[other.1.index]? =
            some again ∧ again.className = before.className := by
          by_cases hsame : head.1 = other.1
          · rw [← hsame] at hbefore ⊢
            exact ⟨_, hhead before hbefore, rfl⟩
          · exact ⟨before, (hother _ hsame).trans hbefore, rfl⟩
        obtain ⟨again, hat, hclass⟩ := hagain
        obtain ⟨last, hlast, hid, hafter⟩ := hlisted other hother' again hat
        exact ⟨last, List.mem_cons_of_mem _ hlast, hid, by rw [hafter, hclass]⟩
      · have hnot : ∀ other ∈ rest, other.1 ≠ object.1 := fun other hother' heq =>
          hrest ⟨other, hother', heq⟩
        rcases List.mem_cons.mp hmem with rfl | hmem
        · exact ⟨object, List.mem_cons_self, rfl, (hothers _ hnot).trans (hhead before hbefore)⟩
        · exact absurd rfl (hnot object hmem)

/-- All objects within the base have lost their homes and have been given their parts, types and new
objects have been added, and nothing else has changed. -/
structure Released (start : Frame) (first : TypeGraph) (base : AccessPath) (frame : Frame) :
    Prop where
  locals : frame.locals = start.locals
  stays : ∀ (id : Nat) (object : Allocation), start.allocations[id]? = some object →
    (∀ home, object.home? = some home → home.liesWithin base = false) →
      frame.allocations[id]? = some object
  refilled : ∀ resident ∈ start.residents base, ∃ after,
    frame.allocations[resident.1.index]? = some after ∧ after.home? = none ∧
      ∀ selector held, after.fields.get? selector = some held →
        start.Refills first base (some resident.1) frame resident.2 selector held
  new : ∀ (id : Nat) (after : Allocation), frame.allocations[id]? = some after →
    start.allocations[id]? = none → after.home? = none ∧
      ∀ selector held, after.fields.get? selector = some held → held.placeWithin? base = none

/-- A resident is at home where it is listed. -/
theorem home_of_resident {object : Allocation} (hmem : (id, place) ∈ frame.residents base)
    (hobject : frame.allocations[id.index]? = some object) :
    object.home? = some place ∧ place.liesWithin base = true := by
  obtain ⟨_, hobject', hhome⟩ := home_of_mem_residents hmem
  obtain rfl := Option.some.inj (hobject.symm.trans hobject')
  exact hhome

/-- An object is found at one home only. -/
theorem home_unique {other : AccessPath} (hplace : (id, place) ∈ frame.residents base)
    (hother : (id, other) ∈ frame.residents base) : place = other := by
  obtain ⟨object, hobject, hhome, -⟩ := home_of_mem_residents hplace
  exact Option.some.inj (hhome.symm.trans (home_of_resident hother hobject).1)

/-- An object that is not at home within the base is none of the residents. -/
theorem not_mem_residents {object : Allocation}
    (hobject : frame.allocations[id.index]? = some object)
    (houtside : ∀ home, object.home? = some home → home.liesWithin base = false) :
    (id, place) ∉ frame.residents base := by
  intro hmem
  obtain ⟨hhome, hwithin⟩ := home_of_resident hmem hobject
  exact nomatch hwithin.symm.trans (houtside place hhome)

section Releasing

variable {rebuilt : List (AllocId × OrderedMap Selector Operand)}
  (hrebuilt : start.Refilled first base frame rebuilt) (hreleases : Releases rebuilt frame later)

include hrebuilt hreleases

/-- Only what is at home within the base loses its home. -/
theorem Refilled.others (id : AllocId) (hnot : ∀ place, (id, place) ∉ start.residents base) :
    later.allocations[id.index]? = frame.allocations[id.index]? := by
  refine hreleases.others id fun object hmem heq => ?_
  obtain ⟨resident, hresident, hid, -⟩ := exists_mem_of_forall₂ hrebuilt hmem
  refine hnot resident.2 ?_
  rwa [← heq, hid]

theorem Refilled.missing {id : Nat} (hnone : start.allocations[id]? = none) :
    later.allocations[id]? = frame.allocations[id]? := by
  refine hrebuilt.others hreleases ⟨id⟩ fun place hmem => ?_
  obtain ⟨object, hobject, -⟩ := home_of_mem_residents hmem
  exact nomatch hobject.symm.trans hnone

theorem Refilled.released (hextends : start.Extends arguments base first frame graph) :
    start.Released first base later := by
  refine ⟨hreleases.locals.trans hextends.locals, fun id object hobject houtside => ?_,
    fun resident hmem => ?_, fun id after hafter hnone => ?_⟩
  · rw [hrebuilt.others hreleases ⟨id⟩ fun _ => not_mem_residents hobject houtside,
      hextends.old id object hobject]
  · obtain ⟨before, hbefore, -⟩ := home_of_mem_residents hmem
    obtain ⟨object, hobject, hid, -⟩ := exists_mem_of_forall₂ hrebuilt.flip hmem
    have hat := hextends.old _ before hbefore
    rw [← hid] at hat ⊢
    obtain ⟨other, hother, heq, hafter⟩ := hreleases.listed object hobject before hat
    refine ⟨_, hafter, rfl, fun selector held hheld => ?_⟩
    obtain ⟨resident', hmem', hid', hrefills⟩ := exists_mem_of_forall₂ hrebuilt hother
    obtain ⟨id', place'⟩ := resident'
    obtain rfl : id' = resident.1 := hid'.symm.trans (heq.trans hid)
    obtain rfl := home_unique hmem' hmem
    exact hid ▸ (hrefills selector held hheld).mono fun _ _ hnone hobject =>
      (hrebuilt.missing hreleases hnone).trans hobject
  · exact hextends.new id after
      ((hrebuilt.missing hreleases hnone).symm.trans hafter) hnone

/-- The copy stays what it is when the objects lose their homes. -/
theorem Refilled.copyOf (hcopy : CopyOf start base frame place operand) :
    CopyOf start base later place operand :=
  hcopy.mono fun _ _ hnone hobject =>
    (hrebuilt.missing hreleases hnone).trans hobject

end Releasing

theorem Released.of_residents_eq_nil (hnone : start.residents base = []) :
    start.Released first base start where
  locals := rfl
  stays _ _ hobject _ := hobject
  refilled resident hmem := by simp [hnone] at hmem
  new _ _ hafter hmissing := nomatch hafter.symm.trans hmissing

/-- What has become of an object: it is new, it is what it was, or it has lost its home. -/
inductive Fate (start : Frame) (first : TypeGraph) (base : AccessPath) (frame : Frame)
    (id : AllocId) (after : Allocation) : Prop
  | new (hmissing : start.allocations[id.index]? = none) (hnone : after.home? = none)
      (houtside : ∀ selector held, after.fields.get? selector = some held →
        held.placeWithin? base = none) : Fate start first base frame id after
  | same (hbefore : start.allocations[id.index]? = some after)
      (houtside : ∀ home, after.home? = some home → home.liesWithin base = false) :
      Fate start first base frame id after
  | homeless {place : AccessPath} (hmem : (id, place) ∈ start.residents base)
      (hnone : after.home? = none)
      (hrefills : ∀ selector held, after.fields.get? selector = some held →
        start.Refills first base (some id) frame place selector held) :
      Fate start first base frame id after

theorem Released.fate (hreleased : start.Released first base frame) {after : Allocation}
    (hafter : frame.allocations[id.index]? = some after) :
    Fate start first base frame id after := by
  cases hobject : start.allocations[id.index]? with
  | none =>
    obtain ⟨hnone, houtside⟩ := hreleased.new _ after hafter hobject
    exact .new hobject hnone houtside
  | some object =>
    by_cases hresident : ∃ place, (id, place) ∈ start.residents base
    · obtain ⟨place, hmem⟩ := hresident
      obtain ⟨_, hafter', hnone, hrefills⟩ := hreleased.refilled _ hmem
      obtain rfl := Option.some.inj (hafter.symm.trans hafter')
      exact .homeless hmem hnone hrefills
    · have houtside : ∀ home, object.home? = some home → home.liesWithin base = false := by
        intro home hhome
        by_contra hwithin
        exact hresident ⟨home, mem_residents hobject hhome (by simpa using hwithin)⟩
      obtain rfl := Option.some.inj
        (hafter.symm.trans (hreleased.stays _ object hobject houtside))
      exact .same hobject houtside

/-- All objects are still there. -/
theorem Released.exists_object (hreleased : start.Released first base frame) {id : Nat}
    {object : Allocation} (hobject : start.allocations[id]? = some object) :
    ∃ after, frame.allocations[id]? = some after := by
  by_cases houtside : ∀ home, object.home? = some home → home.liesWithin base = false
  · exact ⟨object, hreleased.stays id object hobject houtside⟩
  · push Not at houtside
    obtain ⟨home, hhome, hwithin⟩ := houtside
    obtain ⟨after, hafter, -⟩ :=
      hreleased.refilled _ (mem_residents hobject hhome (by simpa using hwithin))
    exact ⟨after, hafter⟩

/-- No object is at home within the base any more. -/
theorem Released.vacant (hreleased : start.Released first base frame) : frame.Vacant base := by
  intro id after home hafter hhome
  have hfate : Fate start first base frame ⟨id⟩ after := hreleased.fate hafter
  cases hfate with
  | new _ hnone => exact nomatch hnone.symm.trans hhome
  | same _ houtside => exact houtside home hhome
  | homeless _ hnone => exact nomatch hnone.symm.trans hhome

theorem Vacant.not_resident (hvacant : frame.Vacant base) :
    (id, place) ∉ frame.residents base := by
  intro hmem
  obtain ⟨object, hobject, hhome, hwithin⟩ := home_of_mem_residents hmem
  exact nomatch hwithin.symm.trans (hvacant _ object _ hobject hhome)

end Frame

end ShapeFlow
