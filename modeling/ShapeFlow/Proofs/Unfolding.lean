import Mathlib.Data.List.Forall2
import ShapeFlow.TypeGraph.Equality

/-!
# The unfolding of a type

What can be observed of a type is its unfolding: for each chain of selectors, whether the
chain can be followed, and whether it then ends at the primitive type or at an object of a
certain class with certain bound parts.  The unfolding of a type that refers back to itself
is infinite.

`SameUnfolding` compares the unfoldings of types of two graphs, which need not be the same
graph.  `SameUnfolding.of_bisimulation` is the way to establish it: a relation whose pairs
look alike, and whose parts are related again, relates only types with the same unfolding.
-/

namespace ShapeFlow

universe u v w

/-- Each of the values to which items are related one by one is that of an item. -/
theorem exists_mem_of_forall₂ {α : Type u} {β : Type v} {related : α → β → Prop} {items : List α}
    {values : List β} (hrelated : List.Forall₂ related items values) {value : β}
    (hmem : value ∈ values) : ∃ item ∈ items, related item value := by
  induction hrelated with
  | nil => simp at hmem
  | cons hfirst _ ih =>
    rcases List.mem_cons.mp hmem with rfl | hmem
    · exact ⟨_, List.mem_cons_self, hfirst⟩
    · obtain ⟨item, hitem, hvalue⟩ := ih hmem
      exact ⟨item, List.mem_cons_of_mem _ hitem, hvalue⟩

namespace OrderedMap

variable {κ : Type u} {α : Type v} [DecidableEq κ]

theorem valueAt_eq_some_iff {key : κ} {value : α} {entries : List (κ × α)}
    (hnodup : (entries.map Prod.fst).Nodup) :
    valueAt key entries = some value ↔ (key, value) ∈ entries := by
  induction entries with
  | nil => simp [valueAt]
  | cons entry rest ih =>
    obtain ⟨first, held⟩ := entry
    rw [List.map_cons, List.nodup_cons] at hnodup
    by_cases hkey : first = key
    · subst hkey
      have hrest : (first, value) ∉ rest := fun hmem =>
        hnodup.1 (List.mem_map.mpr ⟨_, hmem, rfl⟩)
      simp [valueAt, hrest, eq_comm]
    · have hkey' : ¬ key = first := fun h => hkey h.symm
      simp [valueAt, hkey, hkey', ih hnodup.2]

/-- The value under a key is the one of its entry. -/
theorem get?_eq_some_iff (map : OrderedMap κ α) (key : κ) (value : α) :
    map.get? key = some value ↔ (key, value) ∈ map.entries :=
  valueAt_eq_some_iff map.nodup_keys

@[simp] theorem get?_emptyCollection (key : κ) : (∅ : OrderedMap κ α).get? key = none := rfl

theorem mem_keys_iff (map : OrderedMap κ α) (key : κ) :
    key ∈ map.keys ↔ ∃ value, map.get? key = some value := by
  rw [← contains_iff_mem_keys, contains, Option.isSome_iff_exists]

omit [DecidableEq κ] in
theorem isEmpty_eq_true_iff (map : OrderedMap κ α) : map.isEmpty = true ↔ map = ∅ := by
  constructor
  · intro hempty
    obtain ⟨entries, hnodup⟩ := map
    obtain rfl : entries = [] := by simpa [isEmpty] using hempty
    rfl
  · intro hempty
    rw [hempty]
    rfl

omit [DecidableEq κ] in
/-- Maps with the same keys are empty together. -/
theorem isEmpty_eq_of_mem_keys_iff {β : Type w} {left : OrderedMap κ α} {right : OrderedMap κ β}
    (hkeys : ∀ key, key ∈ left.keys ↔ key ∈ right.keys) : left.isEmpty = right.isEmpty := by
  have hempty : left.keys = [] ↔ right.keys = [] := by
    simp only [List.eq_nil_iff_forall_not_mem, hkeys]
  rw [Bool.eq_iff_iff]
  simpa [isEmpty, keys] using hempty

theorem insertEntry_of_not_mem {key : κ} {value : α} {entries : List (κ × α)}
    (hnew : key ∉ entries.map Prod.fst) :
    insertEntry key value entries = entries ++ [(key, value)] := by
  induction entries with
  | nil => rfl
  | cons entry rest ih =>
    rw [List.map_cons, List.mem_cons, not_or] at hnew
    rw [insertEntry, if_neg (Ne.symm hnew.1), ih hnew.2, List.cons_append]

theorem entries_insertAll (map : OrderedMap κ α) {entries : List (κ × α)}
    (hnodup : ((map.entries ++ entries).map Prod.fst).Nodup) :
    (map.insertAll entries).entries = map.entries ++ entries := by
  induction entries generalizing map with
  | nil => simp [insertAll]
  | cons entry rest ih =>
    have hnew : entry.1 ∉ map.entries.map Prod.fst := by
      rw [List.map_append, List.nodup_append] at hnodup
      exact fun hmem => hnodup.2.2 _ hmem _ (by simp) rfl
    have hinsert : (map.insert entry.1 entry.2).entries = map.entries ++ [entry] :=
      insertEntry_of_not_mem hnew
    rw [insertAll, List.foldl_cons, ← insertAll, ih _ (by simpa [hinsert] using hnodup), hinsert,
      List.append_assoc, List.singleton_append]

/-- A list of entries with distinct keys is kept as it is. -/
theorem entries_ofList {entries : List (κ × α)} (hnodup : (entries.map Prod.fst).Nodup) :
    (ofList entries).entries = entries := by
  calc (ofList entries).entries = [] ++ entries :=
        entries_insertAll empty (by simpa [empty] using hnodup)
    _ = entries := List.nil_append entries

section Images

variable {β : Type w} {entries : List (κ × α)} {images : List (κ × β)}
  (yields : κ × α → β → Prop)

omit [DecidableEq κ] in
theorem map_fst_images
    (himages : List.Forall₂ (fun entry image => image.1 = entry.1 ∧ yields entry image.2)
      entries images) : images.map Prod.fst = entries.map Prod.fst := by
  induction himages with
  | nil => rfl
  | cons himage _ ih => simp [himage.1, ih]

omit [DecidableEq κ] in
theorem exists_mem_of_images {image : κ × β}
    (himages : List.Forall₂ (fun entry image => image.1 = entry.1 ∧ yields entry image.2)
      entries images) (hmem : image ∈ images) :
    ∃ entry ∈ entries, entry.1 = image.1 ∧ yields entry image.2 := by
  obtain ⟨entry, hentry, hkey, hyields⟩ := exists_mem_of_forall₂ himages hmem
  exact ⟨entry, hentry, hkey.symm, hyields⟩

/-- The images of the entries of a map, one after the other, are the entries of a map with
the same keys. -/
theorem entries_ofList_images (map : OrderedMap κ α)
    (himages : List.Forall₂ (fun entry image => image.1 = entry.1 ∧ yields entry image.2)
      map.entries images) : (ofList images).entries = images :=
  entries_ofList (by rw [map_fst_images yields himages]; exact map.nodup_keys)

theorem exists_of_get?_images (map : OrderedMap κ α) {key : κ} {value : β}
    (himages : List.Forall₂ (fun entry image => image.1 = entry.1 ∧ yields entry image.2)
      map.entries images) (hvalue : (ofList images).get? key = some value) :
    ∃ held, map.get? key = some held ∧ yields (key, held) value := by
  rw [get?_eq_some_iff, entries_ofList_images yields map himages] at hvalue
  obtain ⟨⟨_, held⟩, hentry, rfl, hyields⟩ := exists_mem_of_images yields himages hvalue
  exact ⟨held, (map.get?_eq_some_iff _ held).mpr hentry, hyields⟩

theorem get?_ofList_images_eq_none_iff (map : OrderedMap κ α) {key : κ}
    (himages : List.Forall₂ (fun entry image => image.1 = entry.1 ∧ yields entry image.2)
      map.entries images) : (ofList images).get? key = none ↔ map.get? key = none := by
  rw [get?_eq_none_iff, get?_eq_none_iff, keys, keys, entries_ofList_images yields map himages,
    map_fst_images yields himages]

end Images

end OrderedMap

/-- Two nodes that look alike: both primitive, or objects of one class with the same bound
parts. -/
def TypeNode.Alike : TypeNode → TypeNode → Prop
  | .scalar, .scalar => True
  | .object leftClass leftFields, .object rightClass rightFields =>
    leftClass = rightClass ∧ ∀ selector, selector ∈ leftFields.keys ↔ selector ∈ rightFields.keys
  | _, _ => False

namespace TypeNode.Alike

theorem refl (node : TypeNode) : node.Alike node := by
  cases node <;> simp [Alike]

theorem symm {left right : TypeNode} (halike : left.Alike right) : right.Alike left := by
  cases left <;> cases right <;> simp_all [Alike]

theorem trans {first second third : TypeNode} (hfirst : first.Alike second)
    (hsecond : second.Alike third) : first.Alike third := by
  cases first <;> cases second <;> cases third <;> simp_all [Alike]

theorem className?_eq {left right : TypeNode} (halike : left.Alike right) :
    left.className? = right.className? := by
  cases left <;> cases right <;> simp_all [Alike, className?]

theorem mem_keys_iff {left right : TypeNode} (halike : left.Alike right) (selector : Selector) :
    selector ∈ left.fields.keys ↔ selector ∈ right.fields.keys := by
  cases left <;> cases right <;> simp_all [Alike, fields]

end TypeNode.Alike

namespace TypeGraph

/-- All types that occur as parts have nodes. -/
def Closed (graph : TypeGraph) : Prop :=
  ∀ ⦃type node⦄, graph.node? type = some node →
    ∀ ⦃selector part⦄, node.fields.get? selector = some part → graph.Has part

theorem has_iff_exists_node (graph : TypeGraph) (type : TypeId) :
    graph.Has type ↔ ∃ node, graph.node? type = some node := by
  rw [← node?_isSome_iff, Option.isSome_iff_exists]

theorem field?_eq_of_node? {graph : TypeGraph} {type : TypeId} {node : TypeNode}
    (hnode : graph.node? type = some node) (selector : Selector) :
    graph.field? type selector = node.fields.get? selector := by
  simp [field?, fields, hnode]

theorem field?_eq_some_iff {graph : TypeGraph} {type part : TypeId} {selector : Selector} :
    graph.field? type selector = some part ↔
      ∃ node, graph.node? type = some node ∧ node.fields.get? selector = some part := by
  cases hnode : graph.node? type with
  | none => simp [field?, fields, hnode, show (∅ : Fields).get? selector = none from rfl]
  | some node => simp [field?_eq_of_node? hnode]

theorem Closed.has_field? {graph : TypeGraph} (hclosed : graph.Closed) {type part : TypeId}
    {selector : Selector} (hfield : graph.field? type selector = some part) : graph.Has part := by
  obtain ⟨node, hnode, hpart⟩ := field?_eq_some_iff.mp hfield
  exact hclosed hnode hpart

theorem Closed.has_follow? {graph : TypeGraph} (hclosed : graph.Closed) {type last : TypeId}
    {chain : List Selector} (hhas : graph.Has type)
    (hfollow : graph.follow? type chain = some last) :
    graph.Has last := by
  induction chain generalizing type with
  | nil =>
    rw [follow?_nil, Option.some.injEq] at hfollow
    exact hfollow ▸ hhas
  | cons selector rest ih =>
    rw [follow?_cons, Option.bind_eq_some_iff] at hfollow
    obtain ⟨inner, hinner, hrest⟩ := hfollow
    exact ih (hclosed.has_field? hinner) hrest

theorem closed_iff_forall_mem (graph : TypeGraph) :
    graph.Closed ↔ ∀ node ∈ graph.nodes.toList, ∀ entry ∈ node.fields.entries,
      graph.Has entry.2 := by
  constructor
  · intro hclosed node hnode entry hentry
    obtain ⟨index, hindex, hat⟩ := List.getElem_of_mem hnode
    refine @hclosed ⟨index⟩ node ?_ entry.1 entry.2
      ((OrderedMap.get?_eq_some_iff _ entry.1 entry.2).mpr hentry)
    rw [node?, ← Array.getElem?_toList, List.getElem?_eq_getElem hindex, hat]
  · intro hall type node hnode selector part hpart
    refine hall node ?_ (selector, part) ((OrderedMap.get?_eq_some_iff _ selector part).mp hpart)
    exact Array.mem_toList_iff.mpr (Array.mem_of_getElem? hnode)

instance (graph : TypeGraph) : Decidable graph.Closed :=
  decidable_of_iff _ (closed_iff_forall_mem graph).symm

/-! ## Types with one unfolding -/

/-- Neither of two chains leads anywhere, or both lead to nodes that look alike. -/
def AlikeEnds (left : TypeGraph) (left? : Option TypeId) (right : TypeGraph)
    (right? : Option TypeId) : Prop :=
  match left?, right? with
  | none, none => True
  | some leftEnd, some rightEnd => ∃ leftNode rightNode, left.node? leftEnd = some leftNode ∧
      right.node? rightEnd = some rightNode ∧ leftNode.Alike rightNode
  | _, _ => False

/-- A type of one graph and a type of another one that no chain of selectors tells apart. -/
def SameUnfolding (left : TypeGraph) (leftType : TypeId) (right : TypeGraph)
    (rightType : TypeId) : Prop :=
  ∀ chain, AlikeEnds left (left.follow? leftType chain) right (right.follow? rightType chain)

variable {left right third : TypeGraph}

theorem AlikeEnds.symm {left? right? : Option TypeId} (hends : AlikeEnds left left? right right?) :
    AlikeEnds right right? left left? := by
  cases left? <;> cases right? <;> simp only [AlikeEnds] at hends ⊢
  obtain ⟨leftNode, rightNode, hleft, hright, halike⟩ := hends
  exact ⟨rightNode, leftNode, hright, hleft, halike.symm⟩

theorem AlikeEnds.trans {left? right? third? : Option TypeId}
    (hfirst : AlikeEnds left left? right right?) (hsecond : AlikeEnds right right? third third?) :
    AlikeEnds left left? third third? := by
  cases left? <;> cases right? <;> cases third? <;> simp only [AlikeEnds] at hfirst hsecond ⊢
  obtain ⟨leftNode, rightNode, hleft, hright, halike⟩ := hfirst
  obtain ⟨rightNode', thirdNode, hright', hthird, halike'⟩ := hsecond
  rw [hright, Option.some.injEq] at hright'
  subst hright'
  exact ⟨leftNode, thirdNode, hleft, hthird, halike.trans halike'⟩

theorem AlikeEnds.isSome_eq {left? right? : Option TypeId}
    (hends : AlikeEnds left left? right right?) : left?.isSome = right?.isSome := by
  cases left? <;> cases right? <;> simp_all [AlikeEnds]

namespace SameUnfolding

theorem refl (hclosed : left.Closed) {type : TypeId} (hhas : left.Has type) :
    SameUnfolding left type left type := by
  intro chain
  cases hfollow : left.follow? type chain with
  | none => trivial
  | some last =>
    obtain ⟨node, hnode⟩ := (has_iff_exists_node left last).mp (hclosed.has_follow? hhas hfollow)
    exact ⟨node, node, hnode, hnode, .refl node⟩

theorem symm {leftType rightType : TypeId} (hsame : SameUnfolding left leftType right rightType) :
    SameUnfolding right rightType left leftType := fun chain => (hsame chain).symm

theorem trans {first second last : TypeId} (hfirst : SameUnfolding left first right second)
    (hsecond : SameUnfolding right second third last) : SameUnfolding left first third last :=
  fun chain => (hfirst chain).trans (hsecond chain)

/-- Types with the same unfolding have nodes that look alike. -/
theorem alike {leftType rightType : TypeId} (hsame : SameUnfolding left leftType right rightType) :
    ∃ leftNode rightNode, left.node? leftType = some leftNode ∧
      right.node? rightType = some rightNode ∧ leftNode.Alike rightNode := hsame []

theorem className?_eq {leftType rightType : TypeId}
    (hsame : SameUnfolding left leftType right rightType) :
    left.className? leftType = right.className? rightType := by
  obtain ⟨leftNode, rightNode, hleft, hright, halike⟩ := hsame.alike
  simp [className?, hleft, hright, halike.className?_eq]

/-- Parts under one selector have the same unfolding again. -/
theorem part {leftType rightType leftPart rightPart : TypeId} {selector : Selector}
    (hsame : SameUnfolding left leftType right rightType)
    (hleft : left.field? leftType selector = some leftPart)
    (hright : right.field? rightType selector = some rightPart) :
    SameUnfolding left leftPart right rightPart := by
  intro chain
  have hchain := hsame (selector :: chain)
  rwa [follow?_cons, follow?_cons, hleft, hright] at hchain

/-- A part that is bound on one side is bound on the other one. -/
theorem exists_part {leftType rightType leftPart : TypeId} {selector : Selector}
    (hsame : SameUnfolding left leftType right rightType)
    (hleft : left.field? leftType selector = some leftPart) :
    ∃ rightPart, right.field? rightType selector = some rightPart ∧
      SameUnfolding left leftPart right rightPart := by
  have hends := (hsame [selector]).isSome_eq
  simp only [follow?_cons, hleft, follow?_nil, Option.bind_some, Option.isSome_some] at hends
  cases hright : right.field? rightType selector with
  | none => simp [hright] at hends
  | some rightPart => exact ⟨rightPart, rfl, hsame.part hleft hright⟩

/-- Chains lead to types with the same unfolding, or nowhere on both sides. -/
theorem follow? {leftType rightType leftEnd : TypeId} {chain : List Selector}
    (hsame : SameUnfolding left leftType right rightType)
    (hleft : left.follow? leftType chain = some leftEnd) :
    ∃ rightEnd, right.follow? rightType chain = some rightEnd ∧
      SameUnfolding left leftEnd right rightEnd := by
  induction chain generalizing leftType rightType with
  | nil =>
    rw [follow?_nil, Option.some.injEq] at hleft
    exact ⟨rightType, rfl, hleft ▸ hsame⟩
  | cons selector rest ih =>
    rw [follow?_cons, Option.bind_eq_some_iff] at hleft
    obtain ⟨leftPart, hpart, hrest⟩ := hleft
    obtain ⟨rightPart, hright, hsame'⟩ := hsame.exists_part hpart
    obtain ⟨rightEnd, hend, hsame''⟩ := ih hsame' hrest
    exact ⟨rightEnd, by rw [follow?_cons, hright]; exact hend, hsame''⟩

/-- A relation whose pairs look alike and whose parts are related again relates only types
with the same unfolding. -/
theorem of_bisimulation (related : TypeId → TypeId → Prop)
    (hnodes : ∀ leftType rightType, related leftType rightType →
      ∃ leftNode rightNode, left.node? leftType = some leftNode ∧
        right.node? rightType = some rightNode ∧ leftNode.Alike rightNode)
    (hparts : ∀ leftType rightType selector leftPart rightPart, related leftType rightType →
      left.field? leftType selector = some leftPart →
      right.field? rightType selector = some rightPart → related leftPart rightPart)
    {leftType rightType : TypeId} (hrelated : related leftType rightType) :
    SameUnfolding left leftType right rightType := by
  intro chain
  induction chain generalizing leftType rightType with
  | nil => exact hnodes _ _ hrelated
  | cons selector rest ih =>
    obtain ⟨leftNode, rightNode, hleft, hright, halike⟩ := hnodes _ _ hrelated
    have hkeys := halike.mem_keys_iff selector
    rw [OrderedMap.mem_keys_iff, OrderedMap.mem_keys_iff, ← field?_eq_of_node? hleft,
      ← field?_eq_of_node? hright] at hkeys
    rw [follow?_cons, follow?_cons]
    cases hleftPart : left.field? leftType selector with
    | none =>
      cases hrightPart : right.field? rightType selector with
      | none => trivial
      | some rightPart => simp [hleftPart, hrightPart] at hkeys
    | some leftPart =>
      cases hrightPart : right.field? rightType selector with
      | none => simp [hleftPart, hrightPart] at hkeys
      | some rightPart => exact ih (hparts _ _ _ _ _ hrelated hleftPart hrightPart)

end SameUnfolding

end TypeGraph

end ShapeFlow
