import Mathlib.Data.List.Perm.Subperm
import ShapeFlow.Proofs.Unfolding

/-!
# Equality of types is equality of unfoldings

`TypeGraph.sameShape` walks through the pairs of types that one chain of selectors reaches
from its two sides, and passes over a pair that it has met.  On a graph in which all parts
have nodes, `sameShape_iff_sameUnfolding` says that the answer is yes exactly when no chain
of selectors tells the two types apart.

The two directions are about the set of pairs that can be reached.

* If no pair is refused, the reached pairs, together with all pairs of a type with itself,
  form a bisimulation (`sameUnfolding_of_accepted`).  The pairs of a type with itself are
  needed because `zipParts?` leaves them out.
* If the unfoldings agree, they agree at every reached pair (`Reaches.sameUnfolding`), and a
  pair whose unfoldings agree is not refused (`pairParts?_isSome_iff`).
-/

namespace ShapeFlow

namespace TypeGraph

/-! ## One step of the comparison -/

/-- All parts on the left are bound on the right, and the pairs that are answered are those
of the parts that differ. -/
theorem zipParts?_eq_some_iff {entries : List (Selector × TypeId)} {fields : Fields}
    {pairs : List (TypeId × TypeId)} (hzip : zipParts? entries fields = some pairs) :
    (∀ entry ∈ entries, ∃ right, fields.get? entry.1 = some right ∧
      (entry.2 = right ∨ (entry.2, right) ∈ pairs)) ∧
    ∀ pair ∈ pairs, ∃ entry ∈ entries, entry.2 = pair.1 ∧ fields.get? entry.1 = some pair.2 := by
  induction entries generalizing pairs with
  | nil =>
    rw [zipParts?, Option.some.injEq] at hzip
    subst hzip
    simp
  | cons entry rest ih =>
    rw [zipParts?] at hzip
    cases hright : fields.get? entry.1 with
    | none => simp [hright] at hzip
    | some right =>
      cases hrest : zipParts? rest fields with
      | none => simp [hright, hrest] at hzip
      | some restPairs =>
        obtain ⟨hfound, hfrom⟩ := ih hrest
        simp only [hright, hrest] at hzip
        split at hzip <;> rw [Option.some.injEq] at hzip <;> subst hzip
        · rename_i heq
          refine ⟨fun other hother => ?_, fun pair hpair => ?_⟩
          · rcases List.mem_cons.mp hother with rfl | hother
            · exact ⟨right, hright, Or.inl heq⟩
            · exact hfound other hother
          · obtain ⟨other, hother, hpair⟩ := hfrom pair hpair
            exact ⟨other, List.mem_cons_of_mem _ hother, hpair⟩
        · refine ⟨fun other hother => ?_, fun pair hpair => ?_⟩
          · rcases List.mem_cons.mp hother with rfl | hother
            · exact ⟨right, hright, Or.inr List.mem_cons_self⟩
            · obtain ⟨part, hpart, hin⟩ := hfound other hother
              exact ⟨part, hpart, hin.imp_right (List.mem_cons_of_mem _)⟩
          · rcases List.mem_cons.mp hpair with rfl | hpair
            · exact ⟨entry, List.mem_cons_self, rfl, hright⟩
            · obtain ⟨other, hother, hpair⟩ := hfrom pair hpair
              exact ⟨other, List.mem_cons_of_mem _ hother, hpair⟩

theorem exists_zipParts? {entries : List (Selector × TypeId)} {fields : Fields}
    (hbound : ∀ entry ∈ entries, (fields.get? entry.1).isSome = true) :
    ∃ pairs, zipParts? entries fields = some pairs := by
  induction entries with
  | nil => exact ⟨[], rfl⟩
  | cons entry rest ih =>
    obtain ⟨pairs, hpairs⟩ := ih fun other hother => hbound other (List.mem_cons_of_mem _ hother)
    obtain ⟨right, hright⟩ :=
      Option.isSome_iff_exists.mp (hbound entry List.mem_cons_self)
    rw [zipParts?, hright, hpairs]
    dsimp only
    split
    · exact ⟨pairs, rfl⟩
    · exact ⟨_, rfl⟩

/-- Field maps of one size have the same keys as soon as one has those of the other. -/
theorem mem_keys_iff_of_size_eq {left right : Fields} (hsize : left.size = right.size)
    (hsub : ∀ selector ∈ left.keys, selector ∈ right.keys) (selector : Selector) :
    selector ∈ left.keys ↔ selector ∈ right.keys := by
  refine ⟨hsub selector, fun hmem => ?_⟩
  have hperm : left.keys.Perm right.keys := by
    refine (List.Nodup.subperm left.nodup_keys hsub).perm_of_length_le ?_
    simp only [OrderedMap.size] at hsize
    simp [OrderedMap.keys, hsize]
  exact hperm.mem_iff.mpr hmem

variable {graph : TypeGraph}

/-- A pair is accepted exactly when its nodes look alike. -/
theorem pairParts?_isSome_iff {left right : TypeId} {leftNode rightNode : TypeNode}
    (hleft : graph.node? left = some leftNode) (hright : graph.node? right = some rightNode) :
    (graph.pairParts? (left, right)).isSome = true ↔ leftNode.Alike rightNode := by
  cases leftNode with
  | scalar => cases rightNode <;> simp [pairParts?, hleft, hright, TypeNode.Alike]
  | object leftClass leftFields =>
    cases rightNode with
    | scalar => simp [pairParts?, hleft, hright, TypeNode.Alike]
    | object rightClass rightFields =>
      simp only [pairParts?, hleft, hright, TypeNode.Alike]
      constructor
      · intro hsome
        split at hsome
        · rename_i hagree
          obtain ⟨pairs, hpairs⟩ := Option.isSome_iff_exists.mp hsome
          refine ⟨hagree.1, mem_keys_iff_of_size_eq hagree.2 fun selector hmem => ?_⟩
          obtain ⟨entry, hentry, rfl⟩ := List.mem_map.mp hmem
          obtain ⟨part, hpart, -⟩ := (zipParts?_eq_some_iff hpairs).1 entry hentry
          exact (rightFields.mem_keys_iff entry.1).mpr ⟨part, hpart⟩
        · simp at hsome
      · intro hpost
        obtain ⟨hclass, hkeys⟩ := hpost
        have hsize : leftFields.size = rightFields.size := by
          have hperm : leftFields.keys.Perm rightFields.keys :=
            (List.perm_ext_iff_of_nodup leftFields.nodup_keys rightFields.nodup_keys).mpr hkeys
          simpa [OrderedMap.keys, OrderedMap.size] using hperm.length_eq
        rw [if_pos ⟨hclass, hsize⟩, Option.isSome_iff_exists]
        refine exists_zipParts? fun entry hentry => ?_
        have hmem := (hkeys entry.1).mp (List.mem_map.mpr ⟨entry, hentry, rfl⟩)
        exact Option.isSome_iff_exists.mpr ((rightFields.mem_keys_iff entry.1).mp hmem)

/-- Parts of an accepted pair under one selector are one type, or a pair that is reached. -/
theorem eq_or_mem_of_pairParts? {left right leftPart rightPart : TypeId} {selector : Selector}
    {pairs : List (TypeId × TypeId)} (hpairs : graph.pairParts? (left, right) = some pairs)
    (hleft : graph.field? left selector = some leftPart)
    (hright : graph.field? right selector = some rightPart) :
    leftPart = rightPart ∨ (leftPart, rightPart) ∈ pairs := by
  obtain ⟨leftNode, hleftNode, hleftPart⟩ := field?_eq_some_iff.mp hleft
  obtain ⟨rightNode, hrightNode, hrightPart⟩ := field?_eq_some_iff.mp hright
  cases leftNode with
  | scalar => simp [TypeNode.fields, show (∅ : Fields).get? selector = none from rfl] at hleftPart
  | object leftClass leftFields =>
    cases rightNode with
    | scalar =>
      simp [TypeNode.fields, show (∅ : Fields).get? selector = none from rfl] at hrightPart
    | object rightClass rightFields =>
      simp only [pairParts?, hleftNode, hrightNode] at hpairs
      split at hpairs
      · obtain ⟨part, hpart, hin⟩ := (zipParts?_eq_some_iff hpairs).1 (selector, leftPart)
          ((leftFields.get?_eq_some_iff selector leftPart).mp hleftPart)
        have hsame : part = rightPart := Option.some.inj (hpart.symm.trans hrightPart)
        exact hsame ▸ hin
      · simp at hpairs

/-- A pair that is reached next consists of parts under one selector. -/
theorem exists_selector_of_mem_pairParts? {pair part : TypeId × TypeId}
    {pairs : List (TypeId × TypeId)} (hpairs : graph.pairParts? pair = some pairs)
    (hmem : part ∈ pairs) :
    ∃ selector, graph.field? pair.1 selector = some part.1 ∧
      graph.field? pair.2 selector = some part.2 := by
  unfold pairParts? at hpairs
  split at hpairs
  · rw [Option.some.injEq] at hpairs
    subst hpairs
    simp at hmem
  · rename_i leftClass leftFields rightClass rightFields hleft hright
    split at hpairs
    · obtain ⟨entry, hentry, hfirst, hsecond⟩ := (zipParts?_eq_some_iff hpairs).2 part hmem
      refine ⟨entry.1, ?_, ?_⟩
      · rw [field?_eq_of_node? hleft, TypeNode.fields, ← hfirst, OrderedMap.get?_eq_some_iff]
        exact hentry
      · rw [field?_eq_of_node? hright, TypeNode.fields, hsecond]
    · simp at hpairs
  · simp at hpairs

/-! ## The walk -/

/-- The pairs of types that have nodes. -/
def pairsOf (graph : TypeGraph) : List (TypeId × TypeId) :=
  let types := (List.range graph.size).map TypeId.mk
  types.flatMap fun left => types.map fun right => (left, right)

theorem mem_pairsOf {left right : TypeId} :
    (left, right) ∈ graph.pairsOf ↔ graph.Has left ∧ graph.Has right := by
  have hmem : ∀ type : TypeId, type ∈ (List.range graph.size).map TypeId.mk ↔ graph.Has type := by
    intro result
    obtain ⟨index⟩ := result
    simp [Has]
  simp only [pairsOf, List.mem_flatMap, List.mem_map (f := fun right => (_, right)), hmem]
  simp [and_comm]

theorem length_pairsOf : graph.pairsOf.length = graph.size * graph.size := by
  simp [pairsOf, List.length_flatMap, Function.comp_def]

/-- The comparison stays among the pairs of types of the graph, which are as many as it has room
for. -/
theorem compared_in_pairsOf (hclosed : graph.Closed) :
    ∀ pair ∈ graph.pairsOf, ∀ pairs, graph.pairParts? pair = some pairs →
      ∀ part ∈ pairs, part ∈ graph.pairsOf := by
  intro pair _ pairs hpairs part hmem
  obtain ⟨selector, hfirst, hsecond⟩ := exists_selector_of_mem_pairParts? hpairs hmem
  exact mem_pairsOf.mpr ⟨hclosed.has_field? hfirst, hclosed.has_field? hsecond⟩

/-- Types of which every reached pair is accepted have the same unfolding. -/
theorem sameUnfolding_of_accepted (hclosed : graph.Closed) {left right : TypeId}
    (haccepted : ∀ last, Reaches graph.pairParts? (left, right) last →
      (graph.pairParts? last).isSome = true) :
    SameUnfolding graph left graph right := by
  -- A type paired with itself is never reached, so it is related on its own account.
  refine SameUnfolding.of_bisimulation
    (fun first second => Reaches graph.pairParts? (left, right) (first, second) ∨
      (first = second ∧ graph.Has first)) ?_ ?_ (Or.inl (.refl _))
  · rintro first second (hreaches | ⟨rfl, hhas⟩)
    · have hsome := haccepted _ hreaches
      cases hfirst : graph.node? first with
      | none => simp [pairParts?, hfirst] at hsome
      | some firstNode =>
        cases hsecond : graph.node? second with
        | none => cases firstNode <;> simp [pairParts?, hfirst, hsecond] at hsome
        | some secondNode =>
          exact ⟨firstNode, secondNode, rfl, rfl, (pairParts?_isSome_iff hfirst hsecond).mp hsome⟩
    · obtain ⟨node, hnode⟩ := (has_iff_exists_node graph first).mp hhas
      exact ⟨node, node, hnode, hnode, .refl node⟩
  · intro first second selector firstPart secondPart hrelated hfirst hsecond
    rcases hrelated with hreaches | ⟨rfl, -⟩
    · obtain ⟨pairs, hpairs⟩ := Option.isSome_iff_exists.mp (haccepted _ hreaches)
      rcases eq_or_mem_of_pairParts? hpairs hfirst hsecond with rfl | hmem
      · exact Or.inr ⟨rfl, hclosed.has_field? hfirst⟩
      · exact Or.inl (hreaches.tail hpairs hmem)
    · rw [hfirst, Option.some.injEq] at hsecond
      exact Or.inr ⟨hsecond, hclosed.has_field? hfirst⟩

/-- Unfoldings that agree at a pair agree at every pair that is reached from it. -/
theorem sameUnfolding_of_reaches {first last : TypeId × TypeId}
    (hreaches : Reaches graph.pairParts? first last)
    (hsame : SameUnfolding graph first.1 graph first.2) :
    SameUnfolding graph last.1 graph last.2 := by
  have hparts : ∀ pair, SameUnfolding graph pair.1 graph pair.2 →
      ∀ pairs, graph.pairParts? pair = some pairs → ∀ part ∈ pairs,
        SameUnfolding graph part.1 graph part.2 := by
    intro pair hpair pairs hpairs part hmem
    obtain ⟨selector, hleft, hright⟩ := exists_selector_of_mem_pairParts? hpairs hmem
    exact hpair.part hleft hright
  exact hreaches.mem_of_closed hparts hsame

/-- Two types have the same shape exactly when they have the same unfolding. -/
theorem sameShape_iff (hclosed : graph.Closed) {left right : TypeId} (hleft : graph.Has left)
    (hright : graph.Has right) :
    graph.sameShape left right = true ↔ SameUnfolding graph left graph right := by
  have hwalk := allReachable_iff (σ := PairTable) graph.pairsOf (compared_in_pairsOf hclosed)
    (graph.size * graph.size) (Nat.le_of_eq length_pairsOf) [(left, right)]
    (by simpa using mem_pairsOf.mpr ⟨hleft, hright⟩)
  simp only [List.mem_singleton, forall_eq] at hwalk
  rw [sameShape, Bool.or_eq_true, hwalk, beq_iff_eq]
  constructor
  · rintro (rfl | haccepted)
    · exact .refl hclosed hleft
    · exact sameUnfolding_of_accepted hclosed haccepted
  · intro hsame
    refine Or.inr fun last hreaches => ?_
    obtain ⟨leftNode, rightNode, hleftNode, hrightNode, halike⟩ :=
      (sameUnfolding_of_reaches hreaches hsame).alike
    exact (pairParts?_isSome_iff hleftNode hrightNode).mpr halike

/-- Nodes of one class with the same bindings have the same unfolding, in whatever order the
bindings were made. -/
theorem sameUnfolding_of_get?_eq (hclosed : graph.Closed) {left right : TypeId}
    {className : String} {leftFields rightFields : Fields}
    (hleft : graph.node? left = some (.object className leftFields))
    (hright : graph.node? right = some (.object className rightFields))
    (hfields : ∀ selector, leftFields.get? selector = rightFields.get? selector) :
    SameUnfolding graph left graph right := by
  refine SameUnfolding.of_bisimulation
    (fun first second => first = left ∧ second = right ∨
      first = second ∧ graph.Has first) ?_ ?_ (Or.inl ⟨rfl, rfl⟩)
  · rintro first second (⟨rfl, rfl⟩ | ⟨rfl, hhas⟩)
    · refine ⟨_, _, hleft, hright, rfl, fun selector => ?_⟩
      rw [OrderedMap.mem_keys_iff, OrderedMap.mem_keys_iff, hfields]
    · obtain ⟨node, hnode⟩ := (has_iff_exists_node graph first).mp hhas
      exact ⟨node, node, hnode, hnode, .refl node⟩
  · intro first second selector firstPart secondPart hrelated hfirst hsecond
    refine Or.inr ⟨?_, hclosed.has_field? hfirst⟩
    rcases hrelated with ⟨rfl, rfl⟩ | ⟨rfl, -⟩
    · rw [field?_eq_of_node? hleft, TypeNode.fields, hfields] at hfirst
      rw [field?_eq_of_node? hright, TypeNode.fields, hfirst] at hsecond
      exact Option.some.inj hsecond
    · exact Option.some.inj (hfirst.symm.trans hsecond)

/-- On a graph in which all parts have nodes, comparing two types decides whether their
unfoldings agree.  The order in which parts were bound is not compared, and so the relation
is an equivalence that following chains of selectors preserves. -/
theorem sameShape_decides_unfolding (hclosed : graph.Closed) :
    (∀ left right, graph.Has left → graph.Has right →
      (graph.sameShape left right = true ↔ SameUnfolding graph left graph right)) ∧
    (∀ left right className (leftFields rightFields : Fields),
      graph.node? left = some (.object className leftFields) →
      graph.node? right = some (.object className rightFields) →
      (∀ selector, leftFields.get? selector = rightFields.get? selector) →
      graph.sameShape left right = true) ∧
    (∀ type, graph.sameShape type type = true) ∧
    (∀ left right, graph.Has left → graph.Has right →
      graph.sameShape left right = true → graph.sameShape right left = true) ∧
    (∀ first second third, graph.Has first → graph.Has second → graph.Has third →
      graph.sameShape first second = true → graph.sameShape second third = true →
      graph.sameShape first third = true) ∧
    (∀ left right chain, graph.Has left → graph.Has right →
      graph.sameShape left right = true →
      match graph.follow? left chain, graph.follow? right chain with
      | none, none => True
      | some leftEnd, some rightEnd => graph.sameShape leftEnd rightEnd = true
      | _, _ => False) := by
  refine ⟨fun left right hleft hright => sameShape_iff hclosed hleft hright, ?_,
    graph.sameShape_self, ?_, ?_, ?_⟩
  · intro left right className leftFields rightFields hleft hright hfields
    have hhas := fun type => (has_iff_exists_node graph type).mpr
    exact (sameShape_iff hclosed (hhas left ⟨_, hleft⟩) (hhas right ⟨_, hright⟩)).mpr
      (sameUnfolding_of_get?_eq hclosed hleft hright hfields)
  · intro left right hleft hright hsame
    exact (sameShape_iff hclosed hright hleft).mpr
      ((sameShape_iff hclosed hleft hright).mp hsame).symm
  · intro first second third hfirst hsecond hthird hsame hsame'
    exact (sameShape_iff hclosed hfirst hthird).mpr
      (((sameShape_iff hclosed hfirst hsecond).mp hsame).trans
        ((sameShape_iff hclosed hsecond hthird).mp hsame'))
  · intro left right chain hleft hright hsame
    have hunfold := (sameShape_iff hclosed hleft hright).mp hsame
    cases hleftEnd : graph.follow? left chain with
    | none =>
      have hnone := (hunfold chain).isSome_eq
      rw [hleftEnd] at hnone
      cases hrightEnd : graph.follow? right chain with
      | none => trivial
      | some rightEnd => simp [hrightEnd] at hnone
    | some leftEnd =>
      obtain ⟨rightEnd, hrightEnd, hsame'⟩ := hunfold.follow? hleftEnd
      rw [hrightEnd]
      exact (sameShape_iff hclosed (hclosed.has_follow? hleft hleftEnd)
        (hclosed.has_follow? hright hrightEnd)).mpr hsame'

/-- A ring of one node and the same ring unrolled into two, one of which was bound in the
other order. -/
def unrolledRing : TypeGraph where
  nodes := #[.scalar,
    .object "Node" (.ofList [(.field "@next", ⟨1⟩), (.field "@item", ⟨0⟩)]),
    .object "Node" (.ofList [(.field "@item", ⟨0⟩), (.field "@next", ⟨3⟩)]),
    .object "Node" (.ofList [(.field "@next", ⟨2⟩), (.field "@item", ⟨0⟩)])]

theorem unrolledRing_sameUnfolding :
    unrolledRing.Closed ∧ SameUnfolding unrolledRing ⟨1⟩ unrolledRing ⟨2⟩ :=
  ⟨by decide, ((sameShape_decides_unfolding (by decide)).1 ⟨1⟩ ⟨2⟩ (by decide) (by decide)).mp
    (by decide +kernel)⟩

end TypeGraph

end ShapeFlow
