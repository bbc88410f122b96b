import Mathlib.Data.List.Pairwise
import ShapeFlow.Memo
import ShapeFlow.Proofs.BuiltTypes
import ShapeFlow.Proofs.Sketches

/-!
# Entries of memos

An entry of a memo is found again by any argument types with the same unfoldings, although the
key of the entry was made when its analysis began and types were added since.  So a memo has
at most one entry for argument types with given unfoldings, running or done (`Memo.Sound`), and
what an analysis does to the memo when it begins, ends or fails concerns that entry alone.
-/

namespace ShapeFlow

open TypeGraph (SameUnfolding)

/-! ## Argument types with the same unfoldings -/

/-- The types have the same unfoldings, position by position. -/
def TypeGraph.SameUnfoldings (left : TypeGraph) (types : List TypeId) (right : TypeGraph)
    (others : List TypeId) : Prop :=
  List.Forall₂ (fun type other => SameUnfolding left type right other) types others

namespace TypeGraph.SameUnfoldings

variable {left right third left' right' : TypeGraph} {types others lasts : List TypeId}

theorem refl (hclosed : left.Closed) (hhas : ∀ type ∈ types, left.Has type) :
    SameUnfoldings left types left types :=
  List.forall₂_same.mpr fun type hmem => .refl hclosed (hhas type hmem)

theorem symm (hsame : SameUnfoldings left types right others) :
    SameUnfoldings right others left types :=
  (List.Forall₂.imp (fun _ _ h => SameUnfolding.symm h) hsame).flip

theorem trans (hfirst : SameUnfoldings left types right others)
    (hsecond : SameUnfoldings right others third lasts) :
    SameUnfoldings left types third lasts := by
  unfold SameUnfoldings at *
  induction hfirst generalizing lasts with
  | nil =>
    cases hsecond
    exact .nil
  | cons htype _ ih =>
    cases hsecond with
    | cons hother hrest => exact .cons (SameUnfolding.trans htype hother) (ih hrest)

theorem has_left (hsame : SameUnfoldings left types right others) :
    ∀ type ∈ types, left.Has type := by
  unfold SameUnfoldings at hsame
  induction hsame with
  | nil => exact List.forall_mem_nil _
  | cons htype _ ih => exact List.forall_mem_cons.mpr ⟨SameUnfolding.has_left htype, ih⟩

theorem mono (hsame : SameUnfoldings left types right others) (hleft : left.Grows left')
    (hright : right.Grows right') : SameUnfoldings left' types right' others :=
  List.Forall₂.imp (fun _ _ h => SameUnfolding.mono h hleft hright) hsame

theorem of_grows (hgrows : left.Grows right) (hclosed : left.Closed)
    (hhas : ∀ type ∈ types, left.Has type) : SameUnfoldings left types right types :=
  List.forall₂_same.mpr fun type hmem => hgrows.sameUnfolding hclosed (hhas type hmem)

/-- Types keep their unfoldings, so they had the same ones before types were added. -/
theorem of_grown (hsame : SameUnfoldings left' types right' others) (hleft : left.Grows left')
    (hright : right.Grows right') (hclosed : left.Closed) (hclosed' : right.Closed)
    (hhas : ∀ type ∈ types, left.Has type) (hhas' : ∀ type ∈ others, right.Has type) :
    SameUnfoldings left types right others :=
  ((of_grows hleft hclosed hhas).trans hsame).trans (of_grows hright hclosed' hhas').symm

theorem keyOf_eq (hsame : SameUnfoldings left types right others) :
    Memo.keyOf left types = Memo.keyOf right others := by
  unfold SameUnfoldings at hsame
  unfold Memo.keyOf
  induction hsame with
  | nil => rfl
  | cons htype _ ih => rw [List.map_cons, List.map_cons, htype.sketch?_eq, ih]

end TypeGraph.SameUnfoldings

/-- The comparison of lists of types decides whether they have the same unfoldings. -/
theorem TypeGraph.sameShapes_iff {graph : TypeGraph} (hclosed : graph.Closed)
    {types others : List TypeId} (hhas : ∀ type ∈ types, graph.Has type)
    (hhas' : ∀ type ∈ others, graph.Has type) :
    graph.sameShapes types others = true ↔ SameUnfoldings graph types graph others := by
  unfold SameUnfoldings
  induction types generalizing others with
  | nil => cases others <;> simp [sameShapes]
  | cons type rest ih =>
    cases others with
    | nil => simp [sameShapes]
    | cons other others =>
      rw [List.forall_mem_cons] at hhas hhas'
      rw [sameShapes, Bool.and_eq_true, sameShape_iff hclosed hhas.1 hhas'.1, ih hhas.2 hhas'.2,
        List.forall₂_cons]

open TypeGraph (SameUnfoldings)

/-! ## Sound memos -/

/-- The argument types of the entry are in the graph, and its key is theirs. -/
structure MemoEntry.Sound {α : Type} (graph : TypeGraph) (entry : MemoEntry α) : Prop where
  has : ∀ type ∈ entry.arguments, graph.Has type
  key : entry.key = Memo.keyOf graph entry.arguments

/-- The entries are sound, and no two of them are for argument types with the same unfoldings. -/
structure Memo.Sound {α : Type} (graph : TypeGraph) (memo : Memo α) : Prop where
  entries : ∀ entry ∈ memo.entries, entry.Sound graph
  apart : memo.entries.Pairwise fun first second =>
    ¬ SameUnfoldings graph first.arguments graph second.arguments

variable {α : Type} {graph grown : TypeGraph} {memo : Memo α} {entry other : MemoEntry α}
  {arguments : List TypeId}

theorem MemoEntry.Sound.mono (hentry : entry.Sound graph) (hclosed : graph.Closed)
    (hgrows : graph.Grows grown) : entry.Sound grown where
  has type hmem := hgrows.has (hentry.has type hmem)
  key := hentry.key.trans (SameUnfoldings.of_grows hgrows hclosed hentry.has).keyOf_eq

theorem Memo.Sound.mono (hmemo : memo.Sound graph) (hclosed : graph.Closed)
    (hgrows : graph.Grows grown) : memo.Sound grown where
  entries entry hmem := (hmemo.entries entry hmem).mono hclosed hgrows
  apart := by
    refine hmemo.apart.imp_of_mem fun {first second} hfirst hsecond hunlike hsame => hunlike ?_
    exact hsame.of_grown hgrows hgrows hclosed hclosed (hmemo.entries first hfirst).has
      (hmemo.entries second hsecond).has

namespace Memo

/-- An entry is for the argument types with the unfoldings that it was made for. -/
theorem isFor_iff (hclosed : graph.Closed) (hentry : entry.Sound graph)
    (hhas : ∀ type ∈ arguments, graph.Has type) :
    isFor graph (keyOf graph arguments) arguments entry = true ↔
      SameUnfoldings graph entry.arguments graph arguments := by
  rw [isFor, Bool.and_eq_true, beq_iff_eq, TypeGraph.sameShapes_iff hclosed hentry.has hhas]
  constructor
  · intro hfor
    exact hfor.2
  · intro hsame
    exact ⟨hentry.key.trans hsame.keyOf_eq, hsame⟩

theorem isRunningFor_iff (hclosed : graph.Closed) (hentry : entry.Sound graph)
    (hhas : ∀ type ∈ arguments, graph.Has type) :
    isRunningFor graph (keyOf graph arguments) arguments entry = true ↔
      entry.progress = .running ∧ SameUnfoldings graph entry.arguments graph arguments := by
  rw [isRunningFor, Bool.and_eq_true, isFor_iff hclosed hentry hhas]
  cases entry.progress <;> simp [Progress.isRunning]

/-- Argument types with given unfoldings have one entry. -/
theorem eq_of_sameUnfoldings (hmemo : memo.Sound graph) (hfirst : entry ∈ memo.entries)
    (hsecond : other ∈ memo.entries)
    (hsame : SameUnfoldings graph entry.arguments graph other.arguments) : entry = other := by
  by_contra hne
  have hsymm : Std.Symm fun first second : MemoEntry α =>
      ¬ SameUnfoldings graph first.arguments graph second.arguments :=
    ⟨fun _ _ hunlike hsame => hunlike hsame.symm⟩
  exact hmemo.apart.forall hfirst hsecond hne hsame

section Lookups

variable (hclosed : graph.Closed) (hmemo : memo.Sound graph)
  (hhas : ∀ type ∈ arguments, graph.Has type)

include hclosed hmemo hhas

/-- What is found is the progress of an entry for argument types with these unfoldings. -/
theorem exists_of_find? {progress : Progress α}
    (hfound : memo.find? graph arguments = some progress) :
    ∃ entry ∈ memo.entries, entry.progress = progress ∧
      SameUnfoldings graph entry.arguments graph arguments := by
  obtain ⟨entry, hentry, hprogress⟩ := Option.map_eq_some_iff.mp hfound
  have hmem := List.mem_of_find?_eq_some hentry
  exact ⟨entry, hmem, hprogress,
    (isFor_iff hclosed (hmemo.entries entry hmem) hhas).mp (List.find?_some hentry)⟩

/-- Nothing is found only if no entry is for argument types with these unfoldings. -/
theorem unlike_of_find? (hfound : memo.find? graph arguments = none) (hmem : entry ∈ memo.entries) :
    ¬ SameUnfoldings graph entry.arguments graph arguments := by
  intro hsame
  have hnone := List.find?_eq_none.mp (Option.map_eq_none_iff.mp hfound) entry hmem
  exact hnone ((isFor_iff hclosed (hmemo.entries entry hmem) hhas).mpr hsame)

theorem sound_start (hfound : memo.find? graph arguments = none) :
    (memo.start graph arguments).Sound graph where
  entries entry hmem := by
    rcases List.mem_append.mp hmem with hmem | hmem
    · exact hmemo.entries entry hmem
    · obtain rfl := List.mem_singleton.mp hmem
      exact ⟨hhas, rfl⟩
  apart := by
    refine List.pairwise_append.mpr ⟨hmemo.apart, List.pairwise_singleton _ _, ?_⟩
    intro first hfirst second hsecond
    obtain rfl := List.mem_singleton.mp hsecond
    exact unlike_of_find? hclosed hmemo hhas hfound hfirst

end Lookups

theorem mem_answers_iff {answer : α} : answer ∈ memo.answers ↔
    ∃ entry ∈ memo.entries, entry.progress = .done answer := by
  have hanswer : ∀ progress : Progress α, progress.answer? = some answer ↔
      progress = .done answer := by
    intro progress
    cases progress <;> simp [Progress.answer?]
  simp only [answers, List.mem_filterMap, hanswer]

/-! ### Ends of analyses -/

/-- An answer goes to the one entry that a test accepts. -/
theorem mem_answerFirst_iff {accepts : MemoEntry α → Bool} {answer : α}
    {entries : List (MemoEntry α)} {started : MemoEntry α}
    (hone : entries.Pairwise fun first second => ¬ (accepts first = true ∧ accepts second = true))
    (hmem : started ∈ entries) (haccepts : accepts started = true) :
    entry ∈ answerFirst accepts answer entries ↔
      entry = { started with progress := .done answer } ∨
        entry ∈ entries ∧ accepts entry = false := by
  induction entries with
  | nil => simp at hmem
  | cons first rest ih =>
    obtain ⟨hfirst, hrest⟩ := List.pairwise_cons.mp hone
    rw [answerFirst]
    split
    -- The first entry is the accepted one, and all others are refused.
    · rename_i hfirstAccepts
      have hrefused : ∀ other ∈ rest, accepts other = false := by
        intro other hother
        rw [Bool.eq_false_iff]
        exact fun haccepts => hfirst other hother ⟨hfirstAccepts, haccepts⟩
      rcases List.mem_cons.mp hmem with rfl | hmem
      · rw [List.mem_cons, List.mem_cons]
        constructor
        · intro hentry
          exact hentry.imp id fun hmem => ⟨Or.inr hmem, hrefused entry hmem⟩
        · intro hentry
          refine hentry.imp id fun hmem => hmem.1.resolve_left ?_
          intro heq
          rw [heq, hfirstAccepts] at hmem
          cases hmem.2
      · rw [hrefused started hmem] at haccepts
        cases haccepts
    -- The first entry is passed over, so the accepted one is among the others.
    · rename_i hfirstRefused
      rw [Bool.not_eq_true] at hfirstRefused
      have hmem : started ∈ rest := by
        rcases List.mem_cons.mp hmem with rfl | hmem
        · rw [hfirstRefused] at haccepts
          cases haccepts
        · exact hmem
      rw [List.mem_cons, ih hrest hmem, List.mem_cons]
      constructor
      · intro hentry
        rcases hentry with rfl | hanswered | hkept
        · exact Or.inr ⟨Or.inl rfl, hfirstRefused⟩
        · exact Or.inl hanswered
        · exact Or.inr ⟨Or.inr hkept.1, hkept.2⟩
      · intro hentry
        rcases hentry with hanswered | ⟨heq | hmem, hrefused⟩
        · exact Or.inr (Or.inl hanswered)
        · exact Or.inl heq
        · exact Or.inr (Or.inr ⟨hmem, hrefused⟩)

theorem map_arguments_answerFirst (accepts : MemoEntry α → Bool) (answer : α)
    (entries : List (MemoEntry α)) :
    (answerFirst accepts answer entries).map MemoEntry.arguments =
      entries.map MemoEntry.arguments := by
  induction entries with
  | nil => rfl
  | cons entry rest ih =>
    rw [answerFirst]
    split
    · rfl
    · rw [List.map_cons, List.map_cons, ih]

theorem sound_abort (hmemo : memo.Sound graph)
    (arguments : List TypeId) : (memo.abort graph arguments).Sound graph where
  entries entry hmem := hmemo.entries entry (List.mem_filter.mp hmem).1
  apart := hmemo.apart.filter _

section Ends

variable {started : MemoEntry α} (hclosed : graph.Closed) (hmemo : memo.Sound graph)
  (hstarted : started ∈ memo.entries) (hrunning : started.progress = .running)

include hclosed hmemo hstarted hrunning

/-- The running analysis for the argument types of an entry is the one of the entry. -/
theorem isRunningFor_iff_eq (hmem : entry ∈ memo.entries) :
    isRunningFor graph (keyOf graph started.arguments) started.arguments entry = true ↔
      entry = started := by
  rw [isRunningFor_iff hclosed (hmemo.entries entry hmem) (hmemo.entries started hstarted).has]
  constructor
  · intro hentry
    exact eq_of_sameUnfoldings hmemo hmem hstarted hentry.2
  · intro heq
    subst heq
    exact ⟨hrunning, .refl hclosed (hmemo.entries entry hmem).has⟩

theorem mem_finish_iff (answer : α) :
    entry ∈ (memo.finish graph started.arguments answer).entries ↔
      entry = { started with progress := .done answer } ∨
        entry ∈ memo.entries ∧ entry ≠ started := by
  have haccepts := fun (other : MemoEntry α) (hother : other ∈ memo.entries) =>
    isRunningFor_iff_eq hclosed hmemo hstarted hrunning hother
  have hone : memo.entries.Pairwise fun first second =>
      ¬ (isRunningFor graph (keyOf graph started.arguments) started.arguments first = true ∧
        isRunningFor graph (keyOf graph started.arguments) started.arguments second = true) := by
    refine hmemo.apart.imp_of_mem fun {first second} hfirst hsecond hunlike hboth => hunlike ?_
    rw [(haccepts first hfirst).mp hboth.1, (haccepts second hsecond).mp hboth.2]
    exact .refl hclosed (hmemo.entries started hstarted).has
  rw [finish, mem_answerFirst_iff hone hstarted ((haccepts started hstarted).mpr rfl)]
  refine or_congr_right (and_congr_right fun hmem => ?_)
  rw [ne_eq, ← haccepts entry hmem, Bool.not_eq_true]

theorem mem_abort_iff :
    entry ∈ (memo.abort graph started.arguments).entries ↔
      entry ∈ memo.entries ∧ entry ≠ started := by
  rw [abort, List.mem_filter]
  refine and_congr_right fun hmem => ?_
  rw [ne_eq, ← isRunningFor_iff_eq hclosed hmemo hstarted hrunning hmem, Bool.not_eq_true,
    Bool.not_eq_true']

theorem sound_finish (answer : α) : (memo.finish graph started.arguments answer).Sound graph where
  entries entry hmem := by
    rcases (mem_finish_iff hclosed hmemo hstarted hrunning answer).mp hmem with rfl | hkept
    · exact ⟨(hmemo.entries started hstarted).has, (hmemo.entries started hstarted).key⟩
    · exact hmemo.entries entry hkept.1
  apart := by
    have hapart := hmemo.apart
    rw [← List.pairwise_map (f := MemoEntry.arguments)
      (R := fun first second => ¬ SameUnfoldings graph first graph second)] at hapart ⊢
    rwa [finish, map_arguments_answerFirst]

end Ends

end Memo

end ShapeFlow
