import ShapeFlow.Proofs.Twins

/-!
# Types after a part is rebound

`TypeGraph.bindAt?` rebuilds the object types along a chain of selectors, so that the chain leads
to a given part.  Interning may answer types that were there before, so what can be said of the
result is said of unfoldings: at the end of the chain the unfolding is that of the part
(`bindAt?_follow?`), a chain that parts from it leads where it led before (`bindAt?_apart`), and
binding a part to what is found there already changes no unfolding (`bindAt?_sameUnfolding`).
-/

namespace ShapeFlow

namespace TypeGraph

variable {graph grown : TypeGraph} {type part : TypeId} {selector : Selector}
  {selectors : List Selector} {result : TypeId × TypeGraph}

/-- A graph and one that it has grown into show the same unfolding of a type to a third one. -/
theorem SameUnfolding.of_grows_left {other : TypeGraph} {right : TypeId}
    (hsame : SameUnfolding grown type other right) (hgrows : graph.Grows grown)
    (hclosed : graph.Closed) (hhas : graph.Has type) : SameUnfolding graph type other right :=
  (hgrows.sameUnfolding hclosed hhas).trans hsame

/-- The parts of a type with one part rebound. -/
theorem bindField?_field? (hwell : graph.WellFormed) (hpart : graph.Has part)
    (hbind : graph.bindField? type selector part = some result) (other : Selector) :
    Option.Rel (fun before after => SameUnfolding graph before result.2 after)
      (if other = selector then some part else graph.field? type other)
      (result.2.field? result.1 other) := by
  have hgrows := Grows.bindField? hbind
  obtain ⟨className, fields, hnode, held, hheld, hkeys, hparts⟩ :=
    bindField?_looksLike hwell hpart hbind
  have hbound : (if other = selector then some part else graph.field? type other) =
      (fields.insert selector part).get? other := by
    rw [OrderedMap.get?_insert, field?_eq_of_node? hnode]
    rfl
  rw [hbound, field?_eq_of_node? hheld]
  have hkey := hkeys other
  rw [OrderedMap.mem_keys_iff, OrderedMap.mem_keys_iff] at hkey
  dsimp only [TypeNode.fields]
  cases hbefore : (fields.insert selector part).get? other with
  | none =>
    cases hafter : held.get? other with
    | none => exact .none
    | some after => simp [hbefore, hafter] at hkey
  | some before =>
    cases hafter : held.get? other with
    | none => simp [hbefore, hafter] at hkey
    | some after =>
      have hhas : graph.Has before :=
        (hwell.closed.hasParts hnode).insert hpart selector other before hbefore
      have hsame := hparts other before after hbefore hafter
      exact .some (hsame.of_grows_left hgrows hwell.closed hhas)

/-- Rebinding at the end of a chain rebinds the first part to what the rest of the chain makes
of it. -/
theorem bindAt?_cons {inner : TypeId} {rebuilt : TypeId × TypeGraph}
    (hinner : selectors ≠ [] → graph.field? type selector = some inner)
    (hrebuilt : graph.bindAt? inner selectors part = some rebuilt) :
    graph.bindAt? type (selector :: selectors) part =
      rebuilt.2.bindField? type selector rebuilt.1 := by
  cases selectors with
  | nil =>
    obtain rfl := Option.some.inj hrebuilt
    rfl
  | cons next rest =>
    simp only [bindAt?, hinner (List.cons_ne_nil next rest), Option.bind_eq_bind,
      Option.bind_some, hrebuilt]

theorem exists_of_bindAt?_cons
    (hbind : graph.bindAt? type (selector :: selectors) part = some result) :
    ∃ inner rebuilt, (selectors ≠ [] → graph.field? type selector = some inner) ∧
      graph.bindAt? inner selectors part = some rebuilt ∧
      rebuilt.2.bindField? type selector rebuilt.1 = some result := by
  cases selectors with
  | nil => exact ⟨type, (part, graph), fun hne => absurd rfl hne, rfl, hbind⟩
  | cons next rest =>
    simp only [bindAt?, Option.bind_eq_bind, Option.bind_eq_some_iff] at hbind
    obtain ⟨inner, hinner, rebuilt, hrebuilt, hbind⟩ := hbind
    exact ⟨inner, rebuilt, fun _ => hinner, hrebuilt, hbind⟩

/-- Whatever is rebound along a chain, the graph stays well-formed and has the result. -/
theorem bindAt?_wellFormed (hwell : graph.WellFormed) (hpart : graph.Has part)
    (hbind : graph.bindAt? type selectors part = some result) :
    result.2.WellFormed ∧ result.2.Has result.1 := by
  cases selectors with
  | nil =>
    obtain rfl := Option.some.inj hbind
    exact ⟨hwell, hpart⟩
  | cons selector rest =>
    obtain ⟨_, -, hadds⟩ := bindAt?_adds hwell hpart (List.cons_ne_nil selector rest) hbind
    exact ⟨hadds.wellFormed, hadds.has⟩

/-- The chain leads to the part. -/
theorem bindAt?_follow? (hwell : graph.WellFormed) (hpart : graph.Has part)
    (hbind : graph.bindAt? type selectors part = some result) :
    ∃ reached, result.2.follow? result.1 selectors = some reached ∧
      SameUnfolding graph part result.2 reached := by
  induction selectors generalizing type result with
  | nil =>
    obtain rfl := Option.some.inj hbind
    exact ⟨part, rfl, .refl hwell.closed hpart⟩
  | cons selector rest ih =>
    obtain ⟨inner, rebuilt, -, hrebuilt, hbind⟩ := exists_of_bindAt?_cons hbind
    obtain ⟨reached, hreached, hsame⟩ := ih hrebuilt
    obtain ⟨hwell', hhas⟩ := bindAt?_wellFormed hwell hpart hrebuilt
    have hfield := bindField?_field? hwell' hhas hbind selector
    rw [if_pos rfl] at hfield
    obtain ⟨first, hfirst, hsameFirst⟩ := exists_of_rel hfield rfl
    obtain ⟨last, hlast, hsameLast⟩ := hsameFirst.follow? hreached
    exact ⟨last, by rw [follow?_cons, hfirst]; exact hlast, hsame.trans hsameLast⟩

/-- A chain that parts from the one that is rebound leads where it led before. -/
theorem bindAt?_apart (hwell : graph.WellFormed) (hpart : graph.Has part) (hhas : graph.Has type)
    (hbind : graph.bindAt? type selectors part = some result) {chain : List Selector}
    (hbelow : ¬ selectors <+: chain) (habove : ¬ chain <+: selectors) :
    Option.Rel (fun before after => SameUnfolding graph before result.2 after)
      (graph.follow? type chain) (result.2.follow? result.1 chain) := by
  induction selectors generalizing type result chain with
  | nil => exact absurd List.nil_prefix hbelow
  | cons selector rest ih =>
    cases chain with
    | nil => exact absurd List.nil_prefix habove
    | cons first chain =>
      obtain ⟨inner, rebuilt, hinner, hrebuilt, hbind⟩ := exists_of_bindAt?_cons hbind
      have hgrows : graph.Grows rebuilt.2 := .bindAt? hrebuilt
      obtain ⟨hwell', hhas'⟩ := bindAt?_wellFormed hwell hpart hrebuilt
      have hfield := bindField?_field? hwell' hhas' hbind first
      rw [follow?_cons, follow?_cons]
      by_cases hfirst : first = selector
      · -- The chains part further on.
        subst hfirst
        rw [List.prefix_cons_inj] at hbelow habove
        have hrest : rest ≠ [] := fun hnil => hbelow (hnil ▸ List.nil_prefix)
        rw [if_pos rfl] at hfield
        obtain ⟨after, hafter, hsame⟩ := exists_of_rel hfield rfl
        rw [hinner hrest, hafter]
        have hends := ih (hwell.closed.has_field? (hinner hrest)) hrebuilt hbelow habove
        cases hbefore : graph.follow? inner chain with
        | none =>
          have hnone := eq_none_of_rel hends hbefore
          have hends' := hsame.rel_follow? chain
          rw [hnone] at hends'
          simp only [Option.bind_some, hbefore, eq_none_of_rel hends' rfl]
          exact .none
        | some before =>
          obtain ⟨middle, hmiddle, hsameMiddle⟩ := exists_of_rel hends hbefore
          obtain ⟨last, hlast, hsameLast⟩ := hsame.follow? hmiddle
          simp only [Option.bind_some, hbefore, hlast]
          exact .some (hsameMiddle.trans hsameLast)
      · rw [if_neg hfirst, hgrows.field?_eq hhas] at hfield
        have hends : Option.Rel (fun before after => SameUnfolding graph before result.2 after)
            (graph.field? type first) (result.2.field? result.1 first) := by
          cases hbefore : graph.field? type first with
          | none =>
            rw [hbefore] at hfield
            rw [eq_none_of_rel hfield rfl]
            exact .none
          | some before =>
            rw [hbefore] at hfield
            obtain ⟨after, hafter, hsame⟩ := exists_of_rel hfield rfl
            rw [hafter]
            exact .some (hsame.of_grows_left hgrows hwell.closed (hwell.closed.has_field? hbefore))
        exact rel_bind hends fun before after hsame => hsame.rel_follow? chain

/-- An object type whose chain leads somewhere can be rebuilt along the chain, and if the part is
what is found there already, the result has the unfolding that was there. -/
theorem bindAt?_sameUnfolding (hwell : graph.WellFormed) (hhas : graph.Has type)
    {found : TypeId} (hfound : graph.follow? type selectors = some found)
    (hsame : SameUnfolding graph found graph part) :
    ∃ result, graph.bindAt? type selectors part = some result ∧
      SameUnfolding graph type result.2 result.1 := by
  have hpart := hsame.has_right
  induction selectors generalizing type with
  | nil =>
    obtain rfl := Option.some.inj hfound
    exact ⟨(part, graph), rfl, hsame⟩
  | cons selector rest ih =>
    rw [follow?_cons, Option.bind_eq_some_iff] at hfound
    obtain ⟨inner, hinner, hfound⟩ := hfound
    obtain ⟨rebuilt, hrebuilt, hsameRebuilt⟩ := ih (hwell.closed.has_field? hinner) hfound
    have hgrows : graph.Grows rebuilt.2 := .bindAt? hrebuilt
    obtain ⟨hwell', hhas'⟩ := bindAt?_wellFormed hwell hpart hrebuilt
    obtain ⟨node, hnode, hheld⟩ := field?_eq_some_iff.mp hinner
    cases node with
    | scalar => simp [TypeNode.fields] at hheld
    | object className fields =>
      have hbind : rebuilt.2.bindField? type selector rebuilt.1 =
          some (rebuilt.2.intern className (fields.insert selector rebuilt.1)) := by
        rw [bindField?, hgrows.node? hnode]
      obtain ⟨_, _, hnode', hlooks⟩ := bindField?_looksLike hwell' hhas' hbind
      cases (hgrows.node? hnode).symm.trans hnode'
      have hgrows' := Grows.bindField? hbind
      refine ⟨_, (bindAt?_cons (fun _ => hinner) hrebuilt).trans hbind,
        (LooksLike.of_node? hwell.closed hnode).sameUnfolding hlooks ?_ ?_⟩
      · -- The part that is rebound was bound before.
        intro other
        simp only [OrderedMap.mem_keys_iff, OrderedMap.get?_insert]
        split
        · rename_i heq
          subst heq
          exact iff_of_true ⟨inner, hheld⟩ ⟨rebuilt.1, rfl⟩
        · rfl
      · intro other before after hbefore hafter
        rw [OrderedMap.get?_insert] at hafter
        split at hafter
        · rename_i heq
          subst heq
          obtain rfl := Option.some.inj (hheld.symm.trans hbefore)
          obtain rfl := Option.some.inj hafter
          exact hsameRebuilt.mono (.refl graph) hgrows'
        · obtain rfl := Option.some.inj (hbefore.symm.trans hafter)
          exact (hgrows.trans hgrows').sameUnfolding hwell.closed (hwell.closed hnode hbefore)

end TypeGraph

end ShapeFlow
