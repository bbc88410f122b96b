/-!
# Checking everything that can be reached

A partial step function answers, for a state, the states that come after it, or
refuses the state.  `allReachable step room met pending` walks, depth first, through
the states that can be reached from the pending ones, and answers whether the step
function accepts each of them.  A state is visited once: a pending state that was met
before is passed over.  The walk ends at the first state that is refused.

Every visit takes one unit of room, and a walk that lacks room answers no.  Where the
states come from a finite collection, room for each of its members is enough, and the
answer is yes exactly when every reachable state is accepted (`allReachable_iff`).  The
room makes the walk structurally recursive; it does not cut it short.

What was met is kept in a `Ledger`, so that a walk can use whatever representation
its states admit.
-/

namespace ShapeFlow

universe u v

/-- Representations of the set of states that a walk has met. -/
class Ledger (σ : Type u) (α : outParam (Type v)) where
  /-- Nothing was met. -/
  blank : σ
  /-- Whether a state was met. -/
  has : σ → α → Bool
  /-- One more state was met. -/
  add : σ → α → σ
  has_blank : ∀ state, has blank state = false
  has_add : ∀ met state other, has (add met state) other = true ↔
    other = state ∨ has met other = true

/-- A list of the states that were met. -/
instance {α : Type u} [DecidableEq α] : Ledger (List α) α where
  blank := []
  has met state := met.contains state
  add met state := state :: met
  has_blank _ := by simp
  has_add _ _ _ := by simp

/-- One state can be reached from another by steps. -/
inductive Reaches {α : Type v} (step : α → Option (List α)) : α → α → Prop
  | refl (state : α) : Reaches step state state
  | head {state later last : α} {laters : List α} : step state = some laters → later ∈ laters →
      Reaches step later last → Reaches step state last

/-- One more step behind the steps that were made. -/
theorem Reaches.tail {α : Type v} {step : α → Option (List α)} {first state last : α}
    {laters : List α} (hreaches : Reaches step first state) (hstep : step state = some laters)
    (hlast : last ∈ laters) : Reaches step first last := by
  induction hreaches with
  | refl state => exact .head hstep hlast (.refl last)
  | head hfirst hlater _ ih => exact .head hfirst hlater (ih hstep)

/-- What a set contains that no step leaves, it contains with everything reached from it. -/
theorem Reaches.mem_of_closed {α : Type v} {step : α → Option (List α)} {member : α → Prop}
    (hclosed : ∀ state, member state → ∀ laters, step state = some laters →
      ∀ later ∈ laters, member later)
    {first last : α} (hreaches : Reaches step first last) (hfirst : member first) :
    member last := by
  induction hreaches with
  | refl => exact hfirst
  | head hstep hlater _ ih => exact ih (hclosed _ hfirst _ hstep _ hlater)

variable {σ : Type u} {α : Type v} [Ledger σ α]

/-- Whether `step` accepts every state that it reaches from the pending ones without
passing through states that were met before. -/
@[specialize]
def allReachable (step : α → Option (List α)) : Nat → σ → List α → Bool
  | room, met, pending =>
    match pending.dropWhile (Ledger.has met) with
    | [] => true
    | state :: rest =>
      match room with
      | 0 => false
      | room + 1 =>
        match step state with
        | none => false
        | some later => allReachable step room (Ledger.add met state) (later ++ rest)

/-- The pending states that `dropWhile` passes over were met. -/
theorem has_of_mem_of_not_mem_dropWhile (met : σ) (pending : List α) {state : α}
    (hmem : state ∈ pending) (hnot : state ∉ pending.dropWhile (Ledger.has met)) :
    Ledger.has met state = true := by
  rw [← List.takeWhile_append_dropWhile (p := Ledger.has met) (l := pending),
    List.mem_append] at hmem
  rcases hmem with hmem | hmem
  · exact List.all_eq_true.mp List.all_takeWhile state hmem
  · exact absurd hmem hnot

/-- A walk that refuses nothing has met a set of accepted states that no step leaves. -/
theorem exists_closed_of_allReachable {step : α → Option (List α)} (room : Nat) (met : σ)
    (pending : List α)
    (hmet : ∀ state, Ledger.has met state = true → ∃ laters, step state = some laters ∧
      ∀ later ∈ laters, Ledger.has met later = true ∨ later ∈ pending)
    (hall : allReachable step room met pending = true) :
    ∃ member : α → Prop, (∀ state, Ledger.has met state = true → member state) ∧
      (∀ state ∈ pending, member state) ∧
      ∀ state, member state → ∃ laters, step state = some laters ∧
        ∀ later ∈ laters, member later := by
  induction room generalizing met pending with
  | zero =>
    rw [allReachable] at hall
    split at hall
    · rename_i hdrop
      have hskipped : ∀ state ∈ pending, Ledger.has met state = true := fun state hmem =>
        has_of_mem_of_not_mem_dropWhile met pending hmem (by simp [hdrop])
      refine ⟨fun state => Ledger.has met state = true, fun _ h => h, hskipped,
        fun state h => ?_⟩
      obtain ⟨laters, hstep, hlaters⟩ := hmet state h
      exact ⟨laters, hstep, fun later hlater => (hlaters later hlater).elim id (hskipped later)⟩
    · simp at hall
  | succ room ih =>
    rw [allReachable] at hall
    split at hall
    · rename_i hdrop
      have hskipped : ∀ state ∈ pending, Ledger.has met state = true := fun state hmem =>
        has_of_mem_of_not_mem_dropWhile met pending hmem (by simp [hdrop])
      refine ⟨fun state => Ledger.has met state = true, fun _ h => h, hskipped,
        fun state h => ?_⟩
      obtain ⟨laters, hstep, hlaters⟩ := hmet state h
      exact ⟨laters, hstep, fun later hlater => (hlaters later hlater).elim id (hskipped later)⟩
    · rename_i first rest hdrop
      have hsplit : ∀ state ∈ pending,
          Ledger.has met state = true ∨ state = first ∨ state ∈ rest := by
        intro state hmem
        by_cases hin : state ∈ pending.dropWhile (Ledger.has met)
        · rw [hdrop] at hin
          exact Or.inr (List.mem_cons.mp hin)
        · exact Or.inl (has_of_mem_of_not_mem_dropWhile met pending hmem hin)
      dsimp only at hall
      split at hall
      · simp at hall
      · rename_i firsts hfirsts
        have hadd := Ledger.has_add met first
        obtain ⟨member, hseen, hpending, hclosed⟩ :=
          ih (Ledger.add met first) (firsts ++ rest) (by
            intro state hstate
            rcases (hadd state).mp hstate with rfl | hstate
            · exact ⟨firsts, hfirsts, fun later hlater => Or.inr (List.mem_append_left _ hlater)⟩
            · obtain ⟨laters, hstep, hlaters⟩ := hmet state hstate
              refine ⟨laters, hstep, fun later hlater => ?_⟩
              rcases hlaters later hlater with hlater | hlater
              · exact Or.inl ((hadd later).mpr (Or.inr hlater))
              · rcases hsplit later hlater with hlater | rfl | hlater
                · exact Or.inl ((hadd later).mpr (Or.inr hlater))
                · exact Or.inl ((hadd later).mpr (Or.inl rfl))
                · exact Or.inr (List.mem_append_right _ hlater)) hall
        have hseen' : ∀ state, Ledger.has met state = true → member state :=
          fun state hstate => hseen state ((hadd state).mpr (Or.inr hstate))
        refine ⟨member, hseen', fun state hmem => ?_, hclosed⟩
        rcases hsplit state hmem with hstate | rfl | hstate
        · exact hseen' state hstate
        · exact hseen state ((hadd state).mpr (Or.inl rfl))
        · exact hpending state (List.mem_append_right _ hstate)

/-- One more member of a bound has been met, and the others are fewer. -/
theorem length_filter_add_lt (bound : List α) {met : σ} {first : α} (hfirst : first ∈ bound)
    (hfresh : Ledger.has met first = false) :
    (bound.filter fun state => !Ledger.has (Ledger.add met first) state).length <
      (bound.filter fun state => !Ledger.has met state).length := by
  have hnarrow : (bound.filter fun state => !Ledger.has (Ledger.add met first) state) =
      (bound.filter fun state => !Ledger.has met state).filter
        fun state => !Ledger.has (Ledger.add met first) state := by
    rw [List.filter_filter]
    refine List.filter_congr fun state _ => ?_
    cases hold : Ledger.has met state
    · simp
    · simp [(Ledger.has_add met first state).mpr (Or.inr hold)]
  rw [hnarrow, List.length_filter_lt_length_iff_exists]
  exact ⟨first, List.mem_filter.mpr ⟨hfirst, by simp [hfresh]⟩,
    by simp [(Ledger.has_add met first first).mpr (Or.inl rfl)]⟩

/-- A walk with room for every member of a bound that no step leaves refuses nothing if
every state that can be reached is accepted. -/
theorem allReachable_of_forall {step : α → Option (List α)} (bound : List α)
    (hbound : ∀ state ∈ bound, ∀ laters, step state = some laters → ∀ later ∈ laters,
      later ∈ bound)
    (room : Nat) (met : σ) (pending : List α) (hpending : ∀ state ∈ pending, state ∈ bound)
    (hroom : (bound.filter fun state => !Ledger.has met state).length ≤ room)
    (haccept : ∀ state ∈ pending, ∀ last, Reaches step state last →
      (step last).isSome = true) :
    allReachable step room met pending = true := by
  induction room generalizing met pending with
  | zero =>
    rw [allReachable]
    split
    · rfl
    · rename_i first rest hdrop
      have hfirst : first ∈ pending :=
        (List.dropWhile_sublist _).subset (hdrop ▸ List.mem_cons_self)
      have hfresh := List.head?_dropWhile_not (Ledger.has met) pending
      rw [hdrop] at hfresh
      have hmem : first ∈ bound.filter fun state => !Ledger.has met state :=
        List.mem_filter.mpr ⟨hpending first hfirst, by simpa using hfresh⟩
      rw [List.length_eq_zero_iff.mp (Nat.le_zero.mp hroom)] at hmem
      simp at hmem
  | succ room ih =>
    rw [allReachable]
    split
    · rfl
    · rename_i first rest hdrop
      have hsub : ∀ state ∈ first :: rest, state ∈ pending := fun state hmem =>
        (List.dropWhile_sublist _).subset (hdrop ▸ hmem)
      have hfirst := hsub first List.mem_cons_self
      have hfresh := List.head?_dropWhile_not (Ledger.has met) pending
      rw [hdrop] at hfresh
      obtain ⟨firsts, hfirsts⟩ :=
        Option.isSome_iff_exists.mp (haccept first hfirst first (.refl first))
      simp only [hfirsts]
      refine ih _ _ ?_ ?_ ?_
      · intro state hmem
        rcases List.mem_append.mp hmem with hmem | hmem
        · exact hbound first (hpending first hfirst) firsts hfirsts state hmem
        · exact hpending state (hsub state (List.mem_cons_of_mem _ hmem))
      · have hlt := length_filter_add_lt bound (hpending first hfirst) (by simpa using hfresh)
        omega
      · intro state hmem last hreaches
        rcases List.mem_append.mp hmem with hmem | hmem
        · exact haccept first hfirst last (.head hfirsts hmem hreaches)
        · exact haccept state (hsub state (List.mem_cons_of_mem _ hmem)) last hreaches

/-- With room for every member of a bound that no step leaves, a walk from states of the
bound answers whether every state that can be reached is accepted. -/
theorem allReachable_iff {step : α → Option (List α)} (bound : List α)
    (hbound : ∀ state ∈ bound, ∀ laters, step state = some laters → ∀ later ∈ laters,
      later ∈ bound)
    (room : Nat) (hroom : bound.length ≤ room) (pending : List α)
    (hpending : ∀ state ∈ pending, state ∈ bound) :
    allReachable step room (Ledger.blank : σ) pending = true ↔
      ∀ state ∈ pending, ∀ last, Reaches step state last → (step last).isSome = true := by
  constructor
  · intro hall state hmem last hreaches
    obtain ⟨member, -, hmember, hclosed⟩ :=
      exists_closed_of_allReachable room (Ledger.blank : σ) pending
        (fun state hstate => by simp [Ledger.has_blank] at hstate) hall
    have hlast : member last := by
      refine hreaches.mem_of_closed (fun state hstate laters hstep => ?_) (hmember state hmem)
      obtain ⟨laters', hstep', hlaters⟩ := hclosed state hstate
      rw [hstep] at hstep'
      cases hstep'
      exact hlaters
    obtain ⟨laters, hstep, -⟩ := hclosed last hlast
    simp [hstep]
  · refine allReachable_of_forall bound hbound room _ pending hpending ?_
    exact Nat.le_trans (List.length_filter_le _ _) hroom

end ShapeFlow
