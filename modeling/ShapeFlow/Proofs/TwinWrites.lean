import ShapeFlow.Proofs.TwinFrames

/-!
# Writes to twin frames

A write to a place vacates the place first: what was told by it, or by one below it, is rebound
to a copy of what stood there.  Twin frames tell the same operands by places, so the same
operands are rebound on both sides, and the copies are twins as well, since the types that they
are made from list their parts in the same order.
-/

namespace ShapeFlow

open TypeGraph (SameUnfolding)

variable {declarations : Declarations} {span : Span} {left right : TypeGraph}
  {first second : Frame}

/-! ## What a place is told by -/

theorem Operand.Twin.placeWithin?_eq {operand other : Operand}
    (hoperand : operand.Twin left right other) (base : AccessPath) :
    operand.placeWithin? base = other.placeWithin? base := by
  cases hoperand <;> rfl

section Lists

variable {α β γ : Type*} {related : α → β → Prop} {lefts : List α} {rights : List β}

theorem filterMap_eq_of_forall₂ (hall : List.Forall₂ related lefts rights) {f : α → Option γ}
    {g : β → Option γ} (heq : ∀ value other, related value other → f value = g other) :
    lefts.filterMap f = rights.filterMap g := by
  induction hall with
  | nil => rfl
  | cons hfirst _ ih => rw [List.filterMap_cons, List.filterMap_cons, heq _ _ hfirst, ih]

theorem flatMap_eq_of_forall₂ (hall : List.Forall₂ related lefts rights) {f : α → List γ}
    {g : β → List γ} (heq : ∀ value other, related value other → f value = g other) :
    lefts.flatMap f = rights.flatMap g := by
  induction hall with
  | nil => rfl
  | cons hfirst _ ih => rw [List.flatMap_cons, List.flatMap_cons, heq _ _ hfirst, ih]

theorem forall₂_zipIdx (hall : List.Forall₂ related lefts rights) (start : Nat) :
    List.Forall₂ (fun entry other => related entry.1 other.1 ∧ entry.2 = other.2)
      (lefts.zipIdx start) (rights.zipIdx start) := by
  induction hall generalizing start with
  | nil => exact .nil
  | cons hfirst _ ih => exact .cons ⟨hfirst, rfl⟩ (ih (start + 1))

end Lists

namespace Frame.Twin

theorem residents_eq (htwin : first.Twin left right second) (base : AccessPath) :
    first.residents base = second.residents base := by
  refine filterMap_eq_of_forall₂ (forall₂_zipIdx htwin.objects 0) fun entry other hentry => ?_
  rw [hentry.1.home, hentry.2]

theorem localsWithin_eq (htwin : first.Twin left right second) (base : AccessPath) :
    first.localsWithin base = second.localsWithin base := by
  refine filterMap_eq_of_forall₂ htwin.locals fun entry other hentry => ?_
  rw [hentry.1, hentry.2.placeWithin?_eq]

theorem partsWithin_eq (htwin : first.Twin left right second) (base : AccessPath) :
    first.partsWithin base = second.partsWithin base := by
  refine flatMap_eq_of_forall₂ (forall₂_zipIdx htwin.objects 0) fun entry other hentry => ?_
  refine filterMap_eq_of_forall₂ hentry.1.fields fun part part' hpart => ?_
  rw [hpart.1, hpart.2.placeWithin?_eq, hentry.2]

/-! ## Copies -/

theorem isCurrent_follows (htwin : first.Twin left right second) (base : AccessPath)
    {operand other : Operand} (hoperand : operand.Twin left right other) {part part' : TypeId}
    (hpart : SameUnfolding left part right part') :
    Frame.Follows (isCurrent declarations span base operand part first left)
      (isCurrent declarations span base other part' second right)
      fun answer answer' _ _ => answer = answer' := by
  unfold isCurrent
  rw [hoperand.placeWithin?_eq]
  split
  · exact .pure htwin rfl
  · refine .get_bind (.lift_bind (htwin.typeOf_follows hoperand) ?_)
    intro held held' left' right' hgrown htwin' hheld
    refine .getGraph_bind (.pure htwin' ?_)
    have hpart' := hpart.grow hgrown
    -- Both sides compare types of one graph, and the answers agree because unfoldings do.
    rw [Bool.eq_iff_iff, TypeGraph.sameShape_iff htwin'.wellLeft.closed hheld.has_left
      hpart'.has_left, TypeGraph.sameShape_iff htwin'.wellRight.closed hheld.has_right
      hpart'.has_right]
    constructor
    · intro hsame
      exact (hheld.symm.trans hsame).trans hpart'
    · intro hsame
      exact (hheld.trans hsame).trans hpart'.symm

theorem keptPart_follows (htwin : first.Twin left right second) (base : AccessPath)
    (existing? : Option AllocId) (selector : Selector) {part part' : TypeId}
    (hpart : SameUnfolding left part right part') :
    Frame.Follows (keptPart declarations span base existing? selector part first left)
      (keptPart declarations span base existing? selector part' second right)
      fun operand operand' later last => operand.Twin later last operand' := by
  unfold keptPart
  refine Frame.Follows.inspect_bind ?_ fun previous? previous?'
    (hprevious : Option.Rel (Operand.Twin left right) previous? previous?') => ?_
  · cases existing? with
    | none => exact .ok .none
    | some id =>
      exact (htwin.allocation_follows id).bind fun object object' hobject =>
        .ok (hobject.fields.get? selector)
  · cases hprevious with
    | none => exact .pure htwin (.type hpart)
    | some hheld =>
      refine (htwin.isCurrent_follows base hheld hpart).bind ?_
      intro answer answer' first' second' left' right' hgrown htwin' heq
      subst heq
      split
      · exact .pure htwin' (hheld.grow hgrown)
      · exact .pure htwin' (.type (hpart.grow hgrown))

/-- On both sides a copy of what is found at a place can be made. -/
def Copies (leftCopy rightCopy : AccessPath → Framed Operand) : Prop :=
  ∀ place (first second : Frame) (left right : TypeGraph), first.Twin left right second →
    Frame.Follows (leftCopy place first left) (rightCopy place second right)
      fun operand operand' later last => operand.Twin later last operand'

theorem copyParts_follows (htwin : first.Twin left right second) (base : AccessPath)
    (leaving : List (AllocId × AccessPath)) {leftCopy rightCopy : AccessPath → Framed Operand}
    [∀ place, RunDrifts (leftCopy place)] [∀ place, RunDrifts (rightCopy place)]
    (hcopy : Copies leftCopy rightCopy) (existing? : Option AllocId) (place : AccessPath) :
    Frame.Follows (copyParts declarations span base leaving leftCopy existing? place first left)
      (copyParts declarations span base leaving rightCopy existing? place second right)
      fun fields fields' later last => fields.Twin (Operand.Twin later last) fields' := by
  refine .clearly fun horder => ?_
  unfold copyParts
  refine .inspect_bind (htwin.placeType_follows place) fun type type' hsame => ?_
  refine .inspect_bind hsame.node_follows fun node node' hnodes => ?_
  obtain ⟨hnode, hnode', -⟩ := hnodes
  have hfields := horder.fields_twin hsame
  rw [TypeGraph.fields, TypeGraph.fields, hnode, hnode'] at hfields
  refine (Frame.Follows.mapM
    (fun (entry entry' : Selector × TypeId) left right =>
      entry.1 = entry'.1 ∧ SameUnfolding left entry.2 right entry'.2)
    (fun (part part' : Selector × Operand) left right =>
      part.1 = part'.1 ∧ part.2.Twin left right part'.2)
    htwin hfields (fun _ _ _ _ _ _ hgrown hentry => ⟨hentry.1, hentry.2.grow hgrown⟩)
    (fun _ _ _ _ _ _ hgrown hpart => ⟨hpart.1, hpart.2.grow hgrown⟩) ?_).bind ?_
  · intro entry entry' first second left right htwin hentry
    rw [hentry.1]
    split
    · refine (hcopy _ _ _ _ _ htwin).bind ?_
      intro operand operand' first' second' left' right' _ htwin' hoperand
      exact .pure htwin' ⟨rfl, hoperand⟩
    · refine (htwin.keptPart_follows base existing? entry'.1 hentry.2).bind ?_
      intro operand operand' first' second' left' right' _ htwin' hoperand
      exact .pure htwin' ⟨rfl, hoperand⟩
  · intro parts parts' first' second' left' right' _ htwin' hparts
    exact .pure htwin' (OrderedMap.Twin.ofList hparts)

theorem copyAt_follows (base : AccessPath) (leaving : List (AllocId × AccessPath))
    {leftInner rightInner : AccessPath → Framed Operand}
    [∀ place, RunDrifts (leftInner place)] [∀ place, RunDrifts (rightInner place)]
    (hinner : Copies leftInner rightInner) :
    Copies (copyAt declarations span base leaving leftInner)
      (copyAt declarations span base leaving rightInner) := by
  intro place first second left right htwin
  unfold copyAt
  cases leaving.find? fun resident => resident.2 = place with
  | some resident => exact .pure htwin (.fresh _)
  | none =>
    refine .inspect_bind (htwin.placeType_follows place) fun type type' hsame => ?_
    refine .inspect_bind hsame.node_follows fun node node' hnodes => ?_
    obtain ⟨-, -, htwinNode⟩ := hnodes
    cases htwinNode with
    | scalar => exact .pure htwin (.type hsame)
    | object className _ =>
      refine (htwin.copyParts_follows base leaving hinner none place).bind ?_
      intro fields fields' first' second' left' right' _ htwin' hfields
      have hobject : Allocation.Twin left' right' { className, fields }
        { className, fields := fields' } := ⟨rfl, hfields, rfl⟩
      obtain ⟨hid, hallocated⟩ := htwin'.allocate hobject
      have hnew : Operand.Twin left' right'
          (.fresh (first'.allocate { className, fields }).1)
          (.fresh (second'.allocate { className, fields := fields' }).1) := by
        rw [hid]
        exact .fresh _
      exact .pure hallocated hnew

theorem copy_follows (base : AccessPath) (leaving : List (AllocId × AccessPath)) (room : Nat) :
    Copies (copy declarations span base leaving room)
      (copy declarations span base leaving room) := by
  induction room with
  | zero =>
    intro place
    unfold copy
    have hbroken : Copies (fun inner => broken (.place inner place))
      (fun inner => broken (.place inner place)) := fun _ _ _ _ _ _ => .error
    exact copyAt_follows base leaving hbroken place
  | succ room ih =>
    intro place
    unfold copy
    exact copyAt_follows base leaving ih place

/-! ## Vacating a place -/

theorem retrace_follows (htwin : first.Twin left right second) {root root' : Operand}
    (hroot : root.Twin left right root') (base place : AccessPath) :
    Frame.Follows (retrace declarations span root base place first left)
      (retrace declarations span root' base place second right)
      fun operand operand' later last => operand.Twin later last operand' := by
  unfold retrace
  cases place.below? base with
  | none => exact .error
  | some selectors =>
    exact .reading fun horder => htwin.readAlong_follows horder hroot selectors

/-- Objects with the parts that they are released with. -/
def Rebuilt (left right : TypeGraph) (object other : AllocId × OrderedMap Selector Operand) :
    Prop :=
  object.1 = other.1 ∧ object.2.Twin (Operand.Twin left right) other.2

theorem Rebuilt.grow {left right left' right' : TypeGraph}
    {object other : AllocId × OrderedMap Selector Operand}
    (hobject : Rebuilt left right object other)
    (hgrown : left.GrowBoth right left' right') : Rebuilt left' right' object other :=
  ⟨hobject.1, hobject.2.mono fun _ _ hpart => hpart.grow hgrown⟩

theorem rebuild_follows (htwin : first.Twin left right second) (base : AccessPath)
    (leaving : List (AllocId × AccessPath)) (room : Nat) :
    Frame.Follows
      ((leaving.mapM fun resident => do
        let fields ← copyParts declarations span base leaving
          (copy declarations span base leaving room) (some resident.1) resident.2
        pure (resident.1, fields) : Framed (List (AllocId × OrderedMap Selector Operand)))
        first left)
      ((leaving.mapM fun resident => do
        let fields ← copyParts declarations span base leaving
          (copy declarations span base leaving room) (some resident.1) resident.2
        pure (resident.1, fields) : Framed (List (AllocId × OrderedMap Selector Operand)))
        second right)
      fun rebuilt rebuilt' later last => List.Forall₂ (Rebuilt later last) rebuilt rebuilt' := by
  refine Frame.Follows.mapM (fun resident resident' _ _ => resident = resident')
    (fun object object' left right => Rebuilt left right object object') htwin
    (List.forall₂_same.mpr fun _ _ => rfl) (fun _ _ _ _ _ _ _ heq => heq)
    (fun _ _ _ _ _ _ hgrown hobject => hobject.grow hgrown) ?_
  intro resident resident' first second left right htwin heq
  subst heq
  refine (htwin.copyParts_follows base leaving (copy_follows base leaving room) _ _).bind ?_
  intro fields fields' first' second' left' right' _ htwin' hfields
  exact .pure htwin' ⟨rfl, hfields⟩

theorem releaseAll_follows (htwin : first.Twin left right second)
    {rebuilt rebuilt' : List (AllocId × OrderedMap Selector Operand)}
    (hrebuilt : List.Forall₂ (Rebuilt left right) rebuilt rebuilt') :
    Frame.Follows
      ((rebuilt.forM fun object => modifyThe Frame (Frame.release object.1 object.2) : Framed PUnit)
        first left)
      ((rebuilt'.forM fun object =>
          modifyThe Frame (Frame.release object.1 object.2) : Framed PUnit)
        second right) fun _ _ _ _ => True := by
  refine Frame.Follows.forM (fun object object' left right => Rebuilt left right object object')
    htwin hrebuilt (fun _ _ _ _ _ _ hgrown hobject => hobject.grow hgrown) ?_
  intro object object' first second left right htwin hobject
  rw [hobject.1]
  exact .pure (htwin.release object'.1 hobject.2) trivial

theorem retraceLocals_follows (htwin : first.Twin left right second) {root root' : Operand}
    (hroot : root.Twin left right root') (base : AccessPath)
    (locals : List (String × AccessPath)) :
    Frame.Follows
      ((locals.forM fun binding => do
        let operand ← retrace declarations span root base binding.2
        modifyThe Frame (Frame.setLocal binding.1 operand) : Framed PUnit) first left)
      ((locals.forM fun binding => do
        let operand ← retrace declarations span root' base binding.2
        modifyThe Frame (Frame.setLocal binding.1 operand) : Framed PUnit) second right)
      fun _ _ _ _ => True := by
  refine Frame.Follows.forM (fun binding binding' left right => binding = binding' ∧
    root.Twin left right root') htwin (List.forall₂_same.mpr fun _ _ => ⟨rfl, hroot⟩)
    (fun _ _ _ _ _ _ hgrown hbinding => ⟨hbinding.1, hbinding.2.grow hgrown⟩) ?_
  intro binding binding' first second left right htwin hbinding
  obtain ⟨rfl, hroot⟩ := hbinding
  refine (htwin.retrace_follows hroot base binding.2).bind ?_
  intro operand operand' first' second' left' right' _ htwin' hoperand
  exact .pure (htwin'.setLocal binding.1 hoperand) trivial

theorem retraceParts_follows (htwin : first.Twin left right second) {root root' : Operand}
    (hroot : root.Twin left right root') (base : AccessPath)
    (parts : List (AllocId × Selector × AccessPath)) :
    Frame.Follows
      ((parts.forM fun part => do
        let operand ← retrace declarations span root base part.2.2
        reading fun _ => setPart part.1 part.2.1 operand : Framed PUnit) first left)
      ((parts.forM fun part => do
        let operand ← retrace declarations span root' base part.2.2
        reading fun _ => setPart part.1 part.2.1 operand : Framed PUnit) second right)
      fun _ _ _ _ => True := by
  refine Frame.Follows.forM (fun part part' left right => part = part' ∧
    root.Twin left right root') htwin (List.forall₂_same.mpr fun _ _ => ⟨rfl, hroot⟩)
    (fun _ _ _ _ _ _ hgrown hpart => ⟨hpart.1, hpart.2.grow hgrown⟩) ?_
  intro part part' first second left right htwin hpart
  obtain ⟨rfl, hroot⟩ := hpart
  refine (htwin.retrace_follows hroot base part.2.2).bind ?_
  intro operand operand' first' second' left' right' _ htwin' hoperand
  exact .reading fun _ => (htwin'.setPart_follows part.1 part.2.1 hoperand).mono
    fun _ _ hset => ⟨hset, trivial⟩

/-- On both sides the same operands are rebound, to twin copies. -/
theorem vacate_follows (htwin : first.Twin left right second) (base : AccessPath)
    {value value' : Operand} (hvalue : value.Twin left right value') :
    Frame.Follows (vacate declarations span base value first left)
      (vacate declarations span base value' second right)
      fun operand operand' later last => operand.Twin later last operand' := by
  unfold vacate
  refine .get_bind ?_
  -- What is told by the place is the same on both sides, and so are the steps to be taken.
  rw [htwin.residents_eq, htwin.localsWithin_eq, htwin.partsWithin_eq, hvalue.placeWithin?_eq]
  dsimp only
  split
  · exact .pure htwin hvalue
  refine (htwin.rebuild_follows base _ _).bind ?_
  intro rebuilt rebuilt' copied copied' left₁ right₁ hgrown₁ htwin₁ hrebuilt
  refine (copy_follows base _ _ base _ _ _ _ htwin₁).bind ?_
  intro root root' rooted rooted' left₂ right₂ hgrown₂ htwin₂ hroot
  refine (htwin₂.releaseAll_follows (hrebuilt.imp fun _ _ h => h.grow hgrown₂)).bind ?_
  intro _ _ released released' left₃ right₃ hgrown₃ htwin₃ _
  refine (htwin₃.retraceLocals_follows (hroot.grow hgrown₃) base _).bind ?_
  intro _ _ bound bound' left₄ right₄ hgrown₄ htwin₄ _
  have hroot₄ := (hroot.grow hgrown₃).grow hgrown₄
  refine .get_bind ?_
  rw [htwin₄.partsWithin_eq]
  refine (htwin₄.retraceParts_follows hroot₄ base _).bind ?_
  intro _ _ held held' left₅ right₅ hgrown₅ htwin₅ _
  cases value'.placeWithin? base with
  | some place => exact htwin₅.retrace_follows (hroot₄.grow hgrown₅) base place
  | none =>
    have hgrown := (hgrown₁.trans hgrown₂).trans ((hgrown₃.trans hgrown₄).trans hgrown₅)
    exact .pure htwin₅ (hvalue.grow hgrown)

end Frame.Twin

/-! ## Rebuilding the types of slots -/

namespace TypeGraph

theorem bindField?_follows (hleft : left.WellFormed) (hright : right.WellFormed)
    {type type' part part' : TypeId} {selector : Selector} {result : TypeId × TypeGraph}
    (hsame : SameUnfolding left type right type') (hpart : SameUnfolding left part right part')
    (hbind : left.bindField? type selector part = some result) :
    ∃ result', right.bindField? type' selector part' = some result' ∧
      result.2.WellFormed ∧ result'.2.WellFormed ∧
        SameUnfolding result.2 result.1 result'.2 result'.1 := by
  obtain ⟨className, fields, hnode, hlooks⟩ := bindField?_looksLike hleft hpart.has_left hbind
  obtain ⟨node, node', hheld, hheld', htwin⟩ := hsame.exists_twin
  obtain rfl := Option.some.inj (hnode.symm.trans hheld)
  cases htwin with
  | @object _ _ fields' hparts =>
    have hbind' : right.bindField? type' selector part' =
        some (right.intern className (fields'.insert selector part')) := by
      rw [bindField?, hheld']
    -- Interning may answer with another node, so the results are compared with the nodes that were
    -- asked for.
    obtain ⟨_, _, hnode', hlooks'⟩ := bindField?_looksLike hright hpart.has_right hbind'
    cases hheld'.symm.trans hnode'
    obtain ⟨_, -, hadds⟩ := bindField?_adds hleft hpart.has_left hbind
    obtain ⟨_, -, hadds'⟩ := bindField?_adds hright hpart.has_right hbind'
    refine ⟨_, hbind', hadds.wellFormed, hadds'.wellFormed, hlooks.sameUnfolding hlooks' ?_ ?_⟩
    · intro other
      have hother := hparts other
      simp only [OrderedMap.mem_keys_iff, OrderedMap.get?_insert]
      split
      · simp
      · cases hpart' : fields.get? other with
        | none => simp [eq_none_of_rel hother hpart']
        | some held =>
          obtain ⟨held', hheld', -⟩ := exists_of_rel hother hpart'
          simp [hheld']
    · intro other held held' hfield hfield'
      refine SameUnfolding.mono ?_ hadds.grows hadds'.grows
      rw [OrderedMap.get?_insert] at hfield hfield'
      split at hfield
      · rename_i heq
        rw [if_pos heq] at hfield'
        cases hfield
        cases hfield'
        exact hpart
      · rename_i hne
        rw [if_neg hne] at hfield'
        obtain ⟨_, hother, hsame⟩ := exists_of_rel (hparts other) hfield
        obtain rfl := Option.some.inj (hfield'.symm.trans hother)
        exact hsame

theorem bindAt?_follows (hleft : left.WellFormed) (hright : right.WellFormed)
    {type type' part part' : TypeId} {selectors : List Selector} {result : TypeId × TypeGraph}
    (hsame : SameUnfolding left type right type') (hpart : SameUnfolding left part right part')
    (hbind : left.bindAt? type selectors part = some result) :
    ∃ result', right.bindAt? type' selectors part' = some result' ∧
      result.2.WellFormed ∧ result'.2.WellFormed ∧
        SameUnfolding result.2 result.1 result'.2 result'.1 := by
  induction selectors generalizing type type' result with
  | nil =>
    obtain rfl := Option.some.inj hbind
    exact ⟨_, rfl, hleft, hright, hpart⟩
  | cons selector rest ih =>
    cases rest with
    | nil => exact bindField?_follows hleft hright hsame hpart hbind
    | cons next rest =>
      simp only [bindAt?, Option.bind_eq_bind, Option.bind_eq_some_iff] at hbind ⊢
      obtain ⟨inner, hfield, rebuilt, hinner, hbind⟩ := hbind
      obtain ⟨inner', hfield', hsameInner⟩ := hsame.exists_part hfield
      obtain ⟨rebuilt', hinner', hwell, hwell', hrebuilt⟩ := ih hsameInner hinner
      have hgrown := hsame.mono (.bindAt? hinner) (.bindAt? hinner')
      obtain ⟨result', hbind', hends⟩ := bindField?_follows hwell hwell' hgrown hrebuilt hbind
      exact ⟨result', ⟨inner', hfield', rebuilt', hinner', hbind'⟩, hends⟩

end TypeGraph

namespace Frame.Twin

theorem setPlaceType_follows (htwin : first.Twin left right second) (target : AccessPath)
    (selector : Selector) {part part' : TypeId} (hpart : SameUnfolding left part right part') :
    Frame.Follows (setPlaceType span target selector part first left)
      (setPlaceType span target selector part' second right) fun _ _ _ _ => True := by
  unfold setPlaceType
  refine .inspect_bind (htwin.slotType_follows target.root) fun current current' hcurrent => ?_
  refine .getGraph_bind ?_
  cases hbind : left.bindAt? current target.selectors part with
  | none => exact .error
  | some result =>
    obtain ⟨result', hbind', hwell, hwell', hsame⟩ :=
      TypeGraph.bindAt?_follows htwin.wellLeft htwin.wellRight hcurrent hpart hbind
    rw [hbind']
    have htwin' := htwin.grow ⟨.bindAt? hbind, .bindAt? hbind'⟩ hwell hwell'
    exact .ok ⟨htwin'.setSlot (target.root - 1) hsame, trivial⟩

end Frame.Twin

/-! ## Placing objects -/

/-- Walks through the same objects of twin frames. -/
structure Placement.Twin (left right : TypeGraph) (walk other : Placement) : Prop where
  frame : walk.frame.Twin left right other.frame
  met : walk.met = other.met

namespace Placement

variable {walk other : Placement}

theorem Twin.settle (htwin : walk.Twin left right other) (id : AllocId) (home : AccessPath) :
    (walk.settle id home).Twin left right (other.settle id home) where
  frame := htwin.frame.update id fun _ _ hobject => ⟨hobject.className, hobject.fields, rfl⟩
  met := htwin.met

theorem visitPart_follows {visit : Placement → AllocId → AccessPath → Checked Placement}
    (hvisit : ∀ (walk other : Placement) id place, walk.Twin left right other →
      Checked.Follows (visit walk id place) (visit other id place) (Twin left right))
    (htwin : walk.Twin left right other) (target : AccessPath) {operand operand' : Operand}
    (hoperand : operand.Twin left right operand') :
    Checked.Follows (visitPart visit walk target operand) (visitPart visit other target operand')
      (Twin left right) := by
  unfold visitPart
  refine (htwin.frame.resolve_follows hoperand).bind fun resolved resolved' hresolved => ?_
  cases hresolved with
  | type _ => exact .ok htwin
  | path source => exact .ok ⟨htwin.frame.record target (.path source), htwin.met⟩
  | fresh child => exact hvisit walk other child target htwin

theorem visit_follows (settling : Bool) (room : Nat) (htwin : walk.Twin left right other)
    (id : AllocId) (place : AccessPath) :
    Checked.Follows (visit settling room walk id place) (visit settling room other id place)
      (Twin left right) := by
  induction room generalizing walk other id place with
  | zero =>
    unfold visit
    rw [htwin.met]
    split
    · exact .ok htwin
    · exact (htwin.frame.allocation_follows id).bind fun _ _ _ => .error
  | succ room ih =>
    unfold visit
    rw [htwin.met]
    split
    · exact .ok htwin
    refine (htwin.frame.allocation_follows id).bind fun object object' hobject => ?_
    have hstart : Twin left right { walk with met := id :: walk.met }
        { other with met := id :: other.met } :=
      ⟨htwin.frame, congrArg (List.cons id) htwin.met⟩
    refine (Checked.Follows.foldlM hobject.fields ?_ (htwin.met ▸ hstart)).bind ?_
    · intro entry entry' walk other hentry htwin
      rw [hentry.1]
      exact visitPart_follows (fun _ _ id place htwin => ih htwin id place) htwin _ hentry.2
    · intro walk other htwin
      split
      · exact .ok (htwin.settle id place)
      · exact .ok htwin

end Placement

namespace Frame.Twin

theorem place_follows (htwin : first.Twin left right second) (settling : Bool) (id : AllocId)
    (target : AccessPath) :
    Checked.Follows (first.place settling id target) (second.place settling id target)
      fun frame frame' => frame.Twin left right frame' := by
  have hstart : Placement.Twin left right { frame := first } { frame := second } := ⟨htwin, rfl⟩
  unfold place
  rw [htwin.size_eq]
  exact (Placement.visit_follows settling _ hstart id target).bind fun walk other hwalk =>
    .ok hwalk.frame

theorem recordOperand_follows (htwin : first.Twin left right second) (target : AccessPath)
    {operand other : Operand} (hoperand : operand.Twin left right other) :
    Frame.Follows (recordOperand declarations span target operand first left)
      (recordOperand declarations span target other second right) fun _ _ _ _ => True := by
  cases hoperand with
  | type hsame => exact .pure (htwin.record target (.type hsame)) trivial
  | path source => exact .pure (htwin.record target (.path source)) trivial
  | fresh id =>
    unfold recordOperand
    refine .get_bind (.lift_bind (htwin.reify_follows id) ?_)
    intro type type' left' right' _ htwin' hsame
    refine .modify_bind (.get_bind (.checked_bind
      ((htwin'.record target (.type hsame)).place_follows true id target)
        fun frame frame' hplaced => ?_))
    exact .ok ⟨hplaced, trivial⟩

theorem expressResult_follows (htwin : first.Twin left right second) {operand other : Operand}
    (hoperand : operand.Twin left right other) :
    Frame.Follows (expressResult declarations span operand first left)
      (expressResult declarations span other second right)
      fun value value' later last => value.Twin later last value' := by
  unfold expressResult
  refine .inspect_bind (htwin.resolve_follows hoperand) fun resolved resolved' hresolved => ?_
  cases hresolved with
  | type hsame => exact htwin.express_follows (.type hsame)
  | path place => exact htwin.express_follows (.path place)
  | fresh id =>
    refine .get_bind (.lift_bind (htwin.reify_follows id) ?_)
    intro type type' left' right' _ htwin' hsame
    refine .get_bind (.checked_bind (htwin'.place_follows false id _)
      fun frame frame' hplaced => ?_)
    exact .ok ⟨hplaced, .type hsame⟩

/-! ## Writing parts -/

theorem write_follows (htwin : first.Twin left right second) {base base' : Operand}
    (hbase : base.Twin left right base') (selector : Selector) {value value' : Operand}
    (hvalue : value.Twin left right value') :
    Frame.Follows (write declarations span base selector value first left)
      (write declarations span base' selector value' second right)
      fun operand operand' later last => operand.Twin later last operand' := by
  unfold write
  refine .inspect_bind (htwin.resolve_follows hbase) fun base base' hbase => ?_
  refine .inspect_bind (htwin.resolve_follows hvalue) fun value value' hvalue => ?_
  refine .inspect_bind (htwin.classOf?_follows hbase) fun className? className?' heq => ?_
  subst heq
  cases className? with
  | none => exact .error
  | some className =>
    dsimp only
    split
    · cases hbase with
      | path place =>
        refine (htwin.vacate_follows (place.child selector) hvalue).bind ?_
        intro operand operand' vacated vacated' left₁ right₁ hgrown₁ htwin₁ hoperand
        refine .get_bind (.lift_bind (htwin₁.typeOf_follows hoperand) ?_)
        intro part part' left₂ right₂ hgrown₂ htwin₂ hpart
        refine (htwin₂.setPlaceType_follows _ selector hpart).bind ?_
        intro _ _ changed changed' left₃ right₃ hgrown₃ htwin₃ _
        refine (htwin₃.recordOperand_follows _ ((hoperand.grow hgrown₂).grow hgrown₃)).bind ?_
        intro _ _ recorded recorded' left₄ right₄ hgrown₄ htwin₄ _
        exact .pure htwin₄ (.path _)
      | fresh id =>
        have hset : Frame.Follows
            (ShapeFlow.reading (fun _ => setPart id selector value) first left)
            (ShapeFlow.reading (fun _ => setPart id selector value') second right)
            fun _ _ _ _ => True :=
          .reading fun _ => (htwin.setPart_follows id selector hvalue).mono
            fun _ _ hset => ⟨hset, trivial⟩
        refine hset.bind ?_
        intro _ _ changed changed' left' right' hgrown htwin' _
        exact .pure htwin' (hvalue.grow hgrown)
      | type _ => exact .pure htwin hvalue
    · exact .error

theorem writeAlong_follows (htwin : first.Twin left right second) {base base' : Operand}
    (hbase : base.Twin left right base') (selectors : List Selector) {value value' : Operand}
    (hvalue : value.Twin left right value') :
    Frame.Follows (writeAlong declarations span base selectors value first left)
      (writeAlong declarations span base' selectors value' second right)
      fun _ _ _ _ => True := by
  unfold writeAlong
  cases selectors.getLast? with
  | none => exact .pure htwin trivial
  | some last =>
    have hread : Frame.Follows
        (ShapeFlow.reading (fun graph =>
          readAlong declarations span graph base selectors.dropLast) first left)
        (ShapeFlow.reading (fun graph =>
          readAlong declarations span graph base' selectors.dropLast) second right)
        fun operand operand' later last => operand.Twin later last operand' :=
      .reading fun horder => htwin.readAlong_follows horder hbase selectors.dropLast
    refine hread.bind ?_
    intro object object' read read' left' right' hgrown htwin' hobject
    refine (htwin'.write_follows hobject last (hvalue.grow hgrown)).bind ?_
    intro _ _ written written' left'' right'' _ htwin'' _
    exact .pure htwin'' trivial

end Frame.Twin

end ShapeFlow
