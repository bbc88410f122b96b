import ShapeFlow.Proofs.BuiltTypes
import ShapeFlow.Proofs.ObjectShapes

/-!
# Frames that tell the same story

Two analyses of one definition may run in different universes of types.  At corresponding
points their frames are twins: they agree in everything but the names of types, and types that
correspond have the same unfolding, each in the graph of its own run.

What can be looked at in one of two twin frames can be looked at in the other, with the same
result, and types that show corresponding operands have the same unfolding
(`Frame.Twin.sameUnfolding_of_shows`).
-/

namespace ShapeFlow

universe u v w

namespace OrderedMap

variable {κ : Type u} {α : Type v} {β : Type w} {related : α → β → Prop}

/-- The same keys in the same order, with related values. -/
def Twin (related : α → β → Prop) (left : OrderedMap κ α) (right : OrderedMap κ β) : Prop :=
  List.Forall₂ (fun first second => first.1 = second.1 ∧ related first.2 second.2)
    left.entries right.entries

namespace Twin

variable {left : OrderedMap κ α} {right : OrderedMap κ β}

theorem empty : (∅ : OrderedMap κ α).Twin related (∅ : OrderedMap κ β) := List.Forall₂.nil

theorem mono {weaker : α → β → Prop} (htwin : left.Twin related right)
    (hrelated : ∀ first second, related first second → weaker first second) :
    left.Twin weaker right :=
  List.Forall₂.imp (fun _ _ h => ⟨h.1, hrelated _ _ h.2⟩) htwin

theorem symm (htwin : left.Twin related right) :
    right.Twin (fun second first => related first second) left :=
  List.Forall₂.flip (List.Forall₂.imp (fun _ _ h => ⟨h.1.symm, h.2⟩) htwin)

theorem keys_eq (htwin : left.Twin related right) : left.keys = right.keys := by
  obtain ⟨lefts, hleft⟩ := left
  obtain ⟨rights, hright⟩ := right
  simp only [Twin, keys] at htwin ⊢
  clear hleft hright
  induction htwin with
  | nil => rfl
  | cons hentry _ ih => rw [List.map_cons, List.map_cons, hentry.1, ih]

variable [DecidableEq κ]

theorem get? (htwin : left.Twin related right) (key : κ) :
    Option.Rel related (left.get? key) (right.get? key) := by
  obtain ⟨lefts, hleft⟩ := left
  obtain ⟨rights, hright⟩ := right
  simp only [Twin, OrderedMap.get?] at htwin ⊢
  clear hleft hright
  induction htwin with
  | nil => exact .none
  | @cons first second firsts seconds hentry _ ih =>
    rw [valueAt, valueAt, hentry.1]
    split
    · exact .some hentry.2
    · exact ih

theorem insert (htwin : left.Twin related right) (key : κ) {first : α} {second : β}
    (hvalue : related first second) :
    (left.insert key first).Twin related (right.insert key second) := by
  obtain ⟨lefts, hleft⟩ := left
  obtain ⟨rights, hright⟩ := right
  simp only [Twin, OrderedMap.insert] at htwin ⊢
  clear hleft hright
  induction htwin with
  | nil => exact .cons ⟨rfl, hvalue⟩ .nil
  | @cons leftEntry rightEntry lefts rights hentry hrest ih =>
    rw [insertEntry, insertEntry, hentry.1]
    split
    · exact .cons ⟨rfl, hvalue⟩ hrest
    · exact .cons hentry ih

theorem ofList {lefts : List (κ × α)} {rights : List (κ × β)}
    (hentries : List.Forall₂ (fun first second => first.1 = second.1 ∧
      related first.2 second.2) lefts rights) :
    (OrderedMap.ofList lefts).Twin related (OrderedMap.ofList rights) := by
  have hall : ∀ (left : OrderedMap κ α) (right : OrderedMap κ β), left.Twin related right →
      (left.insertAll lefts).Twin related (right.insertAll rights) := by
    induction hentries with
    | nil => exact fun _ _ htwin => htwin
    | @cons first second _ _ hentry _ ih =>
      intro left right htwin
      have hkey : second.1 = first.1 := hentry.1.symm
      simp only [insertAll, List.foldl_cons, hkey]
      exact ih _ _ (htwin.insert first.1 hentry.2)
  exact hall _ _ empty

omit [DecidableEq κ] in
theorem mapValues {α' β' : Type*} {related' : α' → β' → Prop} {f : α → α'} {g : β → β'}
    (htwin : left.Twin related right)
    (hvalues : ∀ first second, related first second → related' (f first) (g second)) :
    (left.mapValues f).Twin related' (right.mapValues g) := by
  obtain ⟨lefts, hleft⟩ := left
  obtain ⟨rights, hright⟩ := right
  simp only [Twin, OrderedMap.mapValues] at htwin ⊢
  clear hleft hright
  induction htwin with
  | nil => exact .nil
  | cons hentry _ ih => exact .cons ⟨hentry.1, hvalues _ _ hentry.2⟩ ih

/-- Maps with the same keys in the same order are twins if the values under each key are
related. -/
theorem of_keys_eq (hkeys : left.keys = right.keys)
    (hvalues : ∀ key first second, left.get? key = some first → right.get? key = some second →
      related first second) : left.Twin related right := by
  obtain ⟨lefts, hleft⟩ := left
  obtain ⟨rights, hright⟩ := right
  simp only [keys, OrderedMap.get?, Twin] at hkeys hvalues ⊢
  induction lefts generalizing rights with
  | nil =>
    cases rights with
    | nil => exact .nil
    | cons entry rest => simp at hkeys
  | cons entry rest ih =>
    cases rights with
    | nil => simp at hkeys
    | cons other others =>
      rw [List.map_cons, List.map_cons, List.cons.injEq] at hkeys
      rw [List.map_cons, List.nodup_cons] at hleft hright
      refine .cons ⟨hkeys.1, hvalues entry.1 entry.2 other.2 ?_ ?_⟩ (ih hleft.2 others hright.2
        hkeys.2 fun key first second hfirst hsecond => hvalues key first second ?_ ?_)
      · simp [valueAt]
      · simp [valueAt, hkeys.1]
      · have hne : entry.1 ≠ key := by
          intro heq
          subst heq
          rw [(valueAt_eq_none_iff _ _).mpr hleft.1] at hfirst
          cases hfirst
        rw [valueAt, if_neg hne, hfirst]
      · have hne : other.1 ≠ key := by
          intro heq
          subst heq
          rw [(valueAt_eq_none_iff _ _).mpr hright.1] at hsecond
          cases hsecond
        rw [valueAt, if_neg hne, hsecond]

end Twin

end OrderedMap

theorem forall₂_getElem? {α β : Type*} {related : α → β → Prop} {lefts : List α} {rights : List β}
    (hall : List.Forall₂ related lefts rights) (index : Nat) :
    Option.Rel related lefts[index]? rights[index]? := by
  induction hall generalizing index with
  | nil => exact .none
  | cons hfirst _ ih =>
    cases index with
    | zero => exact .some hfirst
    | succ index => exact ih index

section Options

variable {α β : Type*} {related : α → β → Prop}

theorem exists_of_rel {first : Option α} {second : Option β} {value : α}
    (hrel : Option.Rel related first second) (hfirst : first = some value) :
    ∃ other, second = some other ∧ related value other := by
  cases hrel with
  | some hvalue => exact ⟨_, rfl, Option.some.inj hfirst ▸ hvalue⟩
  | none => exact nomatch hfirst

theorem eq_none_of_rel {first : Option α} {second : Option β}
    (hrel : Option.Rel related first second) (hfirst : first = none) : second = none := by
  cases hrel with
  | some hvalue => exact nomatch hfirst
  | none => rfl

theorem rel_refl (option : Option α) : Option.Rel Eq option option := by
  cases option with
  | some value => exact .some rfl
  | none => exact .none

theorem rel_bind {γ δ : Type*} {related' : γ → δ → Prop} {first : Option α} {second : Option β}
    {f : α → Option γ} {g : β → Option δ} (hrel : Option.Rel related first second)
    (hnext : ∀ value other, related value other → Option.Rel related' (f value) (g other)) :
    Option.Rel related' (first.bind f) (second.bind g) := by
  cases hrel with
  | some hvalue => exact hnext _ _ hvalue
  | none => exact .none

end Options

open TypeGraph (SameUnfolding)

/-- Chains lead to types with the same unfolding, or nowhere on both sides. -/
theorem TypeGraph.SameUnfolding.rel_follow? {left right : TypeGraph} {type other : TypeId}
    (hsame : SameUnfolding left type right other) (chain : List Selector) :
    Option.Rel (fun first second => SameUnfolding left first right second)
      (left.follow? type chain) (right.follow? other chain) := by
  have hends := (hsame chain).isSome_eq
  cases hfirst : left.follow? type chain with
  | some last =>
    obtain ⟨last', hsecond, hsame'⟩ := hsame.follow? hfirst
    exact hsecond ▸ .some hsame'
  | none =>
    cases hsecond : right.follow? other chain with
    | none => exact .none
    | some last => simp [hfirst, hsecond] at hends

/-- Operands that stand for the same thing. -/
inductive Operand.Twin (left right : TypeGraph) : Operand → Operand → Prop
  | type {first second : TypeId} : SameUnfolding left first right second →
      Operand.Twin left right (.type first) (.type second)
  | path (place : AccessPath) : Operand.Twin left right (.path place) (.path place)
  | fresh (id : AllocId) : Operand.Twin left right (.fresh id) (.fresh id)

/-- Values that say the same thing. -/
inductive Value.Twin (left right : TypeGraph) : Value → Value → Prop
  | type {first second : TypeId} : SameUnfolding left first right second →
      Value.Twin left right (.type first) (.type second)
  | path (place : AccessPath) : Value.Twin left right (.path place) (.path place)

/-- Writes of values that say the same thing to one place. -/
structure Write.Twin (left right : TypeGraph) (first second : Write) : Prop where
  target : first.target = second.target
  value : first.value.Twin left right second.value

/-- Objects with parts that stand for the same things. -/
structure Allocation.Twin (left right : TypeGraph) (first second : Allocation) : Prop where
  className : first.className = second.className
  fields : first.fields.Twin (Operand.Twin left right) second.fields
  home : first.home? = second.home?

/-- Frames that tell the same story, each about the types of its own graph. -/
structure Frame.Twin (left right : TypeGraph) (first second : Frame) : Prop where
  wellLeft : left.WellFormed
  wellRight : right.WellFormed
  slots : List.Forall₂ (fun type other => SameUnfolding left type right other)
    first.slots second.slots
  locals : first.locals.Twin (Operand.Twin left right) second.locals
  objects : List.Forall₂ (Allocation.Twin left right) first.allocations.toList
    second.allocations.toList
  writes : List.Forall₂ (Write.Twin left right) first.writes second.writes

/-- Two graphs grow, each into one of the later graphs. -/
structure TypeGraph.GrowBoth (left right left' right' : TypeGraph) : Prop where
  growsLeft : left.Grows left'
  growsRight : right.Grows right'

theorem TypeGraph.GrowBoth.trans {left right left' right' left'' right'' : TypeGraph}
    (hfirst : left.GrowBoth right left' right') (hsecond : left'.GrowBoth right' left'' right'') :
    left.GrowBoth right left'' right'' :=
  ⟨hfirst.growsLeft.trans hsecond.growsLeft, hfirst.growsRight.trans hsecond.growsRight⟩

section Growth

variable {left right left' right' : TypeGraph}

theorem TypeGraph.SameUnfolding.grow {type other : TypeId}
    (hsame : SameUnfolding left type right other) (hgrow : left.GrowBoth right left' right') :
    SameUnfolding left' type right' other :=
  hsame.mono hgrow.growsLeft hgrow.growsRight

theorem Operand.Twin.grow {first second : Operand} (htwin : first.Twin left right second)
    (hgrow : left.GrowBoth right left' right') : first.Twin left' right' second := by
  cases htwin with
  | type hsame => exact .type (hsame.grow hgrow)
  | path place => exact .path place
  | fresh id => exact .fresh id

theorem Value.Twin.grow {first second : Value} (htwin : first.Twin left right second)
    (hgrow : left.GrowBoth right left' right') : first.Twin left' right' second := by
  cases htwin with
  | type hsame => exact .type (hsame.grow hgrow)
  | path place => exact .path place

theorem Write.Twin.grow {first second : Write} (htwin : first.Twin left right second)
    (hgrow : left.GrowBoth right left' right') : first.Twin left' right' second :=
  ⟨htwin.target, htwin.value.grow hgrow⟩

theorem Allocation.Twin.grow {first second : Allocation} (htwin : first.Twin left right second)
    (hgrow : left.GrowBoth right left' right') : first.Twin left' right' second :=
  ⟨htwin.className, htwin.fields.mono fun _ _ hheld => hheld.grow hgrow, htwin.home⟩

theorem Frame.Twin.grow {first second : Frame} (htwin : first.Twin left right second)
    (hgrow : left.GrowBoth right left' right') (hleft : left'.WellFormed)
    (hright : right'.WellFormed) : first.Twin left' right' second where
  wellLeft := hleft
  wellRight := hright
  slots := htwin.slots.imp fun _ _ hsame => TypeGraph.SameUnfolding.grow hsame hgrow
  locals := htwin.locals.mono fun _ _ hheld => hheld.grow hgrow
  objects := htwin.objects.imp fun _ _ hobject => hobject.grow hgrow
  writes := htwin.writes.imp fun _ _ hwrite => hwrite.grow hgrow

end Growth

section Symmetry

variable {left right : TypeGraph}

theorem Operand.Twin.symm {first second : Operand} (htwin : first.Twin left right second) :
    second.Twin right left first := by
  cases htwin with
  | type hsame => exact .type hsame.symm
  | path place => exact .path place
  | fresh id => exact .fresh id

theorem Operand.Twin.trans {last : TypeGraph} {first second third : Operand}
    (hfirst : first.Twin left right second) (hsecond : second.Twin right last third) :
    first.Twin left last third := by
  cases hfirst with
  | type hsame =>
    cases hsecond with
    | type hsame' => exact .type (hsame.trans hsame')
  | path place =>
    cases hsecond
    exact .path place
  | fresh id =>
    cases hsecond
    exact .fresh id

theorem Value.Twin.symm {first second : Value} (htwin : first.Twin left right second) :
    second.Twin right left first := by
  cases htwin with
  | type hsame => exact .type hsame.symm
  | path place => exact .path place

theorem Write.Twin.symm {first second : Write} (htwin : first.Twin left right second) :
    second.Twin right left first :=
  ⟨htwin.target.symm, htwin.value.symm⟩

theorem Allocation.Twin.symm {first second : Allocation} (htwin : first.Twin left right second) :
    second.Twin right left first :=
  ⟨htwin.className.symm, htwin.fields.symm.mono fun _ _ hheld => hheld.symm, htwin.home.symm⟩

end Symmetry

namespace Frame.Twin

variable {left right : TypeGraph} {first second : Frame}

theorem object? (htwin : first.Twin left right second) (id : Nat) :
    Option.Rel (Allocation.Twin left right) first.allocations[id]? second.allocations[id]? := by
  have hobjects := forall₂_getElem? htwin.objects id
  rwa [Array.getElem?_toList, Array.getElem?_toList] at hobjects

theorem size_eq (htwin : first.Twin left right second) :
    first.allocations.size = second.allocations.size := htwin.objects.length_eq

/-! ### What can be looked at -/

theorem placeType? (htwin : first.Twin left right second) (place : AccessPath) :
    Option.Rel (fun type other => SameUnfolding left type right other)
      (first.placeType? left place) (second.placeType? right place) := by
  unfold Frame.placeType?
  split
  · exact .none
  · exact rel_bind (forall₂_getElem? htwin.slots _) fun _ _ hsame => hsame.rel_follow? _

theorem foundType? (htwin : first.Twin left right second) {operand other : Operand}
    (hoperand : operand.Twin left right other) :
    Option.Rel (fun type type' => SameUnfolding left type right type')
      (first.foundType? left operand) (second.foundType? right other) := by
  cases hoperand with
  | type hsame => exact .some hsame
  | path place => exact htwin.placeType? place
  | fresh id =>
    refine rel_bind (htwin.object? id.index) fun object object' hobject => ?_
    rw [hobject.home]
    exact rel_bind (rel_refl _) fun home home' heq => heq ▸ htwin.placeType? home

theorem localObject? (htwin : first.Twin left right second) {operand other : Operand}
    (hoperand : operand.Twin left right other) :
    Option.Rel (Allocation.Twin left right) (first.localObject? operand)
      (second.localObject? other) := by
  cases hoperand with
  | type _ => exact .none
  | path _ => exact .none
  | fresh id =>
    refine rel_bind (htwin.object? id.index) fun object object' hobject => ?_
    rw [hobject.home]
    split
    · exact .some hobject
    · exact .none

theorem hasTypes (htwin : first.Twin left right second) : first.HasTypes left where
  slots type hmem := by
    obtain ⟨slot, hslot⟩ := List.mem_iff_getElem?.mp hmem
    obtain ⟨other, -, hsame⟩ := exists_of_rel (forall₂_getElem? htwin.slots slot) hslot
    exact hsame.has_left
  parts id object selector type hobject hpart := by
    obtain ⟨object', -, hobject'⟩ := exists_of_rel (htwin.object? id) hobject
    obtain ⟨held, -, hheld⟩ := exists_of_rel (hobject'.fields.get? selector) hpart
    cases hheld with
    | type hsame => exact hsame.has_left

theorem holds (htwin : first.Twin left right second) {id child : AllocId}
    (hholds : first.Holds id child) : second.Holds id child := by
  obtain ⟨object, held, selector, hobject, hpart, hheld⟩ := holds_iff.mp hholds
  obtain ⟨object', hobject', htwinObject⟩ := exists_of_rel (htwin.localObject? (.fresh id)) hobject
  obtain ⟨held', hheld', -⟩ := exists_of_rel (htwin.localObject? (.fresh child)) hheld
  obtain ⟨operand, hpart', hoperand⟩ := exists_of_rel (htwinObject.fields.get? selector) hpart
  cases hoperand with
  | fresh child => exact holds_iff.mpr ⟨object', held', selector, hobject', hpart', hheld'⟩

theorem leadsTo (htwin : first.Twin left right second) {id other : AllocId}
    (hleads : first.LeadsTo id other) : second.LeadsTo id other := by
  induction hleads with
  | refl => exact .refl
  | tail _ hholds ih => exact ih.tail (htwin.holds hholds)

theorem stands (htwin : first.Twin left right second) {operand other : Operand}
    (hoperand : operand.Twin left right other) (hstands : first.Stands left operand) :
    second.Stands right other := by
  rcases hstands with hfound | hlocal
  · obtain ⟨type, hfound⟩ := hfound
    obtain ⟨type', hfound', -⟩ := exists_of_rel (htwin.foundType? hoperand) hfound
    exact Or.inl ⟨type', hfound'⟩
  · obtain ⟨object, hobject⟩ := hlocal
    obtain ⟨object', hobject', -⟩ := exists_of_rel (htwin.localObject? hoperand) hobject
    exact Or.inr ⟨object', hobject'⟩

theorem symm (htwin : first.Twin left right second) : second.Twin right left first where
  wellLeft := htwin.wellRight
  wellRight := htwin.wellLeft
  slots := (htwin.slots.imp fun _ _ hsame => TypeGraph.SameUnfolding.symm hsame).flip
  locals := htwin.locals.symm.mono fun _ _ hheld => hheld.symm
  objects := (htwin.objects.imp fun _ _ hobject => hobject.symm).flip
  writes := (htwin.writes.imp fun _ _ hwrite => hwrite.symm).flip

/-- What can be looked at in one frame can be looked at in the other. -/
theorem navigable (htwin : first.Twin left right second) {id : AllocId}
    (hnavigable : first.Navigable left id) : second.Navigable right id := by
  refine ⟨htwin.stands (.fresh id) hnavigable.stands, ?_⟩
  intro other object selector operand hleads hobject hoperand
  obtain ⟨object', hobject', htwinObject⟩ :=
    exists_of_rel (htwin.symm.localObject? (.fresh other)) hobject
  obtain ⟨operand', hoperand', hheld⟩ := exists_of_rel (htwinObject.fields.get? selector) hoperand
  exact htwin.stands hheld.symm
    (hnavigable.parts other object' selector operand' (htwin.symm.leadsTo hleads) hobject'
      hoperand')

/-- Types that show corresponding operands have the same unfolding. -/
theorem sameUnfolding_of_shows (htwin : first.Twin left right second) {operand other : Operand}
    (hoperand : operand.Twin left right other) {type type' : TypeId}
    (hfirst : first.Shows left operand type) (hsecond : second.Shows right other type') :
    SameUnfolding left type right type' := by
  obtain ⟨firstRelated, hfirstDepicts, hfirst⟩ := hfirst
  obtain ⟨secondRelated, hsecondDepicts, hsecond⟩ := hsecond
  -- Either the types were found in both frames, or there is an object behind each of them.
  have hcases : ∀ operand other type type', operand.Twin left right other →
      firstRelated operand type → secondRelated other type' →
      SameUnfolding left type right type' ∨ ∃ object object' fields fields',
        Allocation.Twin left right object object' ∧
        left.node? type = some (.object object.className fields) ∧
        right.node? type' = some (.object object'.className fields') ∧
        (∀ selector, selector ∈ fields.keys ↔ selector ∈ object.fields.keys) ∧
        (∀ selector, selector ∈ fields'.keys ↔ selector ∈ object'.fields.keys) ∧
        (∀ selector held part, object.fields.get? selector = some held →
          fields.get? selector = some part → firstRelated held part) ∧
        ∀ selector held part, object'.fields.get? selector = some held →
          fields'.get? selector = some part → secondRelated held part := by
    intro operand other type type' hoperand hfirst hsecond
    rcases hfirstDepicts operand type hfirst with hfound | hlocal
    · obtain ⟨found, hfound, hsame⟩ := hfound
      obtain ⟨found', hfound', hsameFound⟩ := exists_of_rel (htwin.foundType? hoperand) hfound
      rcases hsecondDepicts other type' hsecond with hother | hother
      · obtain ⟨found'', hfound'', hsame'⟩ := hother
        obtain rfl := Option.some.inj (hfound'.symm.trans hfound'')
        exact Or.inl ((hsame.symm.trans hsameFound).trans hsame')
      · obtain ⟨object, -, hobject, -⟩ := hother
        exact nomatch hfound'.symm.trans (foundType?_eq_none hobject)
    · obtain ⟨object, fields, hobject, hnode, hkeys, hparts⟩ := hlocal
      obtain ⟨object', hobject', htwinObject⟩ := exists_of_rel (htwin.localObject? hoperand) hobject
      rcases hsecondDepicts other type' hsecond with hother | hother
      · obtain ⟨found, hfound, -⟩ := hother
        exact nomatch hfound.symm.trans (foundType?_eq_none hobject')
      · obtain ⟨object'', fields', hobject'', hnode', hkeys', hparts'⟩ := hother
        obtain rfl := Option.some.inj (hobject'.symm.trans hobject'')
        exact Or.inr ⟨object, object', fields, fields', htwinObject, hnode, hnode', hkeys, hkeys',
          hparts, hparts'⟩
  refine SameUnfolding.of_bisimulation (fun type type' =>
    (∃ operand other, operand.Twin left right other ∧ firstRelated operand type ∧
      secondRelated other type') ∨ SameUnfolding left type right type') ?_ ?_
    (Or.inl ⟨operand, other, hoperand, hfirst, hsecond⟩)
  · intro type type' hrelated
    rcases hrelated with hrelated | hsame
    · obtain ⟨operand, other, hoperand, hfirst, hsecond⟩ := hrelated
      rcases hcases operand other type type' hoperand hfirst hsecond with hsame | hobjects
      · exact hsame.alike
      · obtain ⟨object, object', fields, fields', htwinObject, hnode, hnode', hkeys, hkeys', -⟩ :=
          hobjects
        refine ⟨_, _, hnode, hnode', htwinObject.className, fun selector => ?_⟩
        rw [hkeys, hkeys', htwinObject.fields.keys_eq]
    · exact hsame.alike
  · intro type type' selector part part' hrelated hpart hpart'
    rcases hrelated with hrelated | hsame
    · obtain ⟨operand, other, hoperand, hfirst, hsecond⟩ := hrelated
      rcases hcases operand other type type' hoperand hfirst hsecond with hsame | hobjects
      · exact Or.inr (hsame.part hpart hpart')
      · obtain ⟨object, object', fields, fields', htwinObject, hnode, hnode', hkeys, hkeys',
          hparts, hparts'⟩ := hobjects
        rw [TypeGraph.field?_eq_of_node? hnode] at hpart
        rw [TypeGraph.field?_eq_of_node? hnode'] at hpart'
        obtain ⟨held, hheld⟩ := (object.fields.mem_keys_iff selector).mp
          ((hkeys selector).mp ((fields.mem_keys_iff selector).mpr ⟨part, hpart⟩))
        obtain ⟨held', hheld', htwinHeld⟩ := exists_of_rel (htwinObject.fields.get? selector) hheld
        exact Or.inl ⟨held, held', htwinHeld, hparts selector held part hheld hpart,
          hparts' selector held' part' hheld' hpart'⟩
    · exact Or.inr (hsame.part hpart hpart')

end Frame.Twin

end ShapeFlow
