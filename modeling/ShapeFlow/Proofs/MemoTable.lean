import ShapeFlow.Proofs.AnalyzedOnce
import ShapeFlow.Proofs.CanonicalTypes

/-!
# Memos as tables

A memo is meant to be a table that has, for each class of argument lists of one shape, an account
of its analyses: how many are running, and which answers were given (`Account`).  The account of a
class is told from the requests that were made for its argument lists, whatever was requested for
others in between.

`MemoUse` puts the requests in any order, also ones that no analysis makes: an analysis may begin
twice, or end without having begun.  So a class may have several entries, and what is found depends
on their order.  The invariant (`MemoUse.Sound`) says it for each class: the answered entries come
first, and the running ones after them.  It is stated for every test that accepts just the argument
lists of one class, so that types may be added between the requests that have the shapes of earlier
ones.
-/

namespace ShapeFlow

open TypeGraph (SameUnfoldings)

/-! ## Requests and accounts -/

/-- What a memo is asked for some argument types. -/
inductive Request (α : Type) where
  | start
  | finish (answer : α)
  | abort
  | lookup
  /-- The answer is read, without counting the look-up. -/
  | read

/-- What a request makes of a memo. -/
def Request.apply {α : Type} (graph : TypeGraph) (arguments : List TypeId) :
    Request α → Memo α → Memo α
  | .start, memo => memo.start graph arguments
  | .finish answer, memo => memo.finish graph arguments answer
  | .abort, memo => memo.abort graph arguments
  | .lookup, memo => (memo.lookup graph arguments).2
  | .read, memo => memo

/-- The analyses for argument types of one class: how many are running, and the answers, oldest
first. -/
structure Account (α : Type) where
  running : Nat := 0
  answers : List α := []
deriving DecidableEq

/-- Requests, newest first, with their argument types. -/
abbrev RequestLog (α : Type) := List (List TypeId × Request α)

variable {α : Type}

namespace Account

/-- A finish answers one of the running analyses, and an abort ends all of them. -/
def record (account : Account α) : Request α → Account α
  | .start => { account with running := account.running + 1 }
  | .finish answer =>
    match account.running with
    | 0 => account
    | left + 1 => { running := left, answers := account.answers ++ [answer] }
  | .abort => { account with running := 0 }
  | .lookup => account
  | .read => account

/-- What a look-up finds: the first answer, or else whether an analysis is running. -/
def find? (account : Account α) : Option (Progress α) :=
  match account.answers with
  | answer :: _ => some (.done answer)
  | [] => if account.running = 0 then none else some .running

/-- The entries of the class in a memo. -/
def entries (account : Account α) : List (Progress α) :=
  account.answers.map .done ++ List.replicate account.running .running

end Account

/-- The account of the argument lists that a test accepts. -/
def accountOf (accepts : List TypeId → Bool) : RequestLog α → Account α
  | [] => {}
  | (arguments, request) :: earlier =>
    if accepts arguments then (accountOf accepts earlier).record request
    else accountOf accepts earlier

/-- A request, with the account that its class had before. -/
structure Report (α : Type) where
  request : Request α
  before : Account α

/-- The reports on the requests of a log. -/
def reports (same : List TypeId → List TypeId → Bool) : RequestLog α → List (Report α)
  | [] => []
  | (arguments, request) :: earlier =>
    ⟨request, accountOf (same arguments) earlier⟩ :: reports same earlier

namespace Report

/-- Whether the request was to finish an analysis while one was running. -/
def answers (report : Report α) : Bool :=
  match report.request with
  | .finish _ => report.before.running != 0
  | _ => false

/-- Whether the request was a look-up that found an answer. -/
def hits (report : Report α) : Bool :=
  match report.request with
  | .lookup => report.before.find?.any fun progress => !progress.isRunning
  | _ => false

/-- Whether the request was a look-up that found nothing. -/
def misses (report : Report α) : Bool :=
  match report.request with
  | .lookup => report.before.find?.isNone
  | _ => false

/-- Whether the request was a look-up that found an analysis running. -/
def recurs (report : Report α) : Bool :=
  match report.request with
  | .lookup => report.before.find?.any Progress.isRunning
  | _ => false

end Report

/-! ## Uses of a memo -/

/-- A memo in use: the types that there are, the memo, and what was requested. -/
structure MemoUse (α : Type) where
  graph : TypeGraph
  memo : Memo α := {}
  log : RequestLog α := []

namespace MemoUse

/-- One more request for argument types. -/
def ask (use : MemoUse α) (arguments : List TypeId) (request : Request α) : MemoUse α :=
  { use with
    memo := request.apply use.graph arguments use.memo
    log := (arguments, request) :: use.log }

/-- A type is built, or the memo is asked for some types that there are. -/
inductive Step : MemoUse α → MemoUse α → Prop where
  | build (use : MemoUse α) {grown : TypeGraph} (hbuilds : use.graph.Builds grown) :
    Step use { use with graph := grown }
  | request (use : MemoUse α) (arguments : List TypeId) (request : Request α)
    (hhas : ∀ type ∈ arguments, use.graph.Has type) : Step use (use.ask arguments request)

/-- The account of the argument lists that have the shapes of the given one. -/
def account (use : MemoUse α) (arguments : List TypeId) : Account α :=
  accountOf (use.graph.sameShapes arguments) use.log

/-- The reports on all requests. -/
def reports (use : MemoUse α) : List (Report α) :=
  ShapeFlow.reports use.graph.sameShapes use.log

end MemoUse

/-! ## Classes of argument lists -/

/-- The test accepts just the argument lists of one class. -/
def TypeGraph.IsClass (graph : TypeGraph) (accepts : List TypeId → Bool) : Prop :=
  ∀ first second, (∀ type ∈ first, graph.Has type) → (∀ type ∈ second, graph.Has type) →
    accepts first = true → (accepts second = true ↔ SameUnfoldings graph first graph second)

section Classes

variable {graph grown : TypeGraph} {accepts : List TypeId → Bool} {arguments : List TypeId}

theorem TypeGraph.isClass_sameShapes (hclosed : graph.Closed)
    (hhas : ∀ type ∈ arguments, graph.Has type) : graph.IsClass (graph.sameShapes arguments) := by
  intro first second hfirst hsecond haccepts
  have hsame := (sameShapes_iff hclosed hhas hfirst).mp haccepts
  rw [sameShapes_iff hclosed hhas hsecond]
  exact ⟨hsame.symm.trans, hsame.trans⟩

/-- A class among more types is one among the earlier types. -/
theorem TypeGraph.IsClass.of_grown (hclass : grown.IsClass accepts) (hgrows : graph.Grows grown)
    (hclosed : graph.Closed) : graph.IsClass accepts := by
  intro first second hfirst hsecond haccepts
  rw [hclass first second (fun type hmem => hgrows.has (hfirst type hmem))
    (fun type hmem => hgrows.has (hsecond type hmem)) haccepts]
  constructor
  · intro hsame
    exact hsame.of_grown hgrows hgrows hclosed hclosed hfirst hsecond
  · intro hsame
    exact hsame.mono hgrows hgrows

theorem sameShapes_of_grows (hclosed : graph.Closed) (hgrows : graph.Grows grown)
    (hclosed' : grown.Closed) {others : List TypeId} (hhas : ∀ type ∈ arguments, graph.Has type)
    (hothers : ∀ type ∈ others, graph.Has type) :
    grown.sameShapes arguments others = graph.sameShapes arguments others := by
  rw [Bool.eq_iff_iff, TypeGraph.sameShapes_iff hclosed hhas hothers,
    TypeGraph.sameShapes_iff hclosed' (fun type hmem => hgrows.has (hhas type hmem))
      (fun type hmem => hgrows.has (hothers type hmem))]
  constructor
  · intro hsame
    exact hsame.of_grown hgrows hgrows hclosed hclosed hhas hothers
  · intro hsame
    exact hsame.mono hgrows hgrows

end Classes

/-! ## Accounts -/

theorem accountOf_congr {accepts others : List TypeId → Bool} {log : RequestLog α}
    (hsame : ∀ entry ∈ log, accepts entry.1 = others entry.1) :
    accountOf accepts log = accountOf others log := by
  induction log with
  | nil => rfl
  | cons entry earlier ih =>
    rw [accountOf, accountOf, hsame entry List.mem_cons_self,
      ih fun other hmem => hsame other (List.mem_cons_of_mem entry hmem)]

theorem reports_congr {same others : List TypeId → List TypeId → Bool} {log : RequestLog α}
    (hsame : ∀ first ∈ log, ∀ second ∈ log, same first.1 second.1 = others first.1 second.1) :
    reports same log = reports others log := by
  induction log with
  | nil => rfl
  | cons entry earlier ih =>
    have haccount : accountOf (same entry.1) earlier = accountOf (others entry.1) earlier :=
      accountOf_congr fun other hmem =>
        hsame entry List.mem_cons_self other (List.mem_cons_of_mem entry hmem)
    rw [reports, reports, haccount, ih fun first hfirst second hsecond =>
      hsame first (List.mem_cons_of_mem entry hfirst) second (List.mem_cons_of_mem entry hsecond)]

namespace Account

variable {account : Account α}

theorem head?_entries (account : Account α) : account.entries.head? = account.find? := by
  unfold entries find?
  cases account.answers with
  | cons answer rest => rfl
  | nil => cases account.running <;> rfl

theorem bind_find? (account : Account α) :
    account.find?.bind Progress.answer? = account.answers.head? := by
  obtain ⟨running, answers⟩ := account
  cases answers with
  | cons answer rest => rfl
  | nil => cases running <;> rfl

theorem find?_of_head? {answer : α} (hfirst : account.answers.head? = some answer) :
    account.find? = some (.done answer) := by
  obtain ⟨running, answers⟩ := account
  cases answers with
  | cons other rest => exact congrArg (Option.map Progress.done) hfirst
  | nil => exact nomatch hfirst

theorem running_mem_entries_iff : Progress.running ∈ account.entries ↔ account.running ≠ 0 := by
  simp [entries]

/-- Give an answer to the first running analysis. -/
def answerRunning (answer : α) : List (Progress α) → List (Progress α)
  | [] => []
  | .running :: rest => .done answer :: rest
  | .done other :: rest => .done other :: answerRunning answer rest

theorem answerRunning_map_done_append (answer : α) (answers : List α)
    (rest : List (Progress α)) : answerRunning answer (answers.map .done ++ rest) =
      answers.map .done ++ answerRunning answer rest := by
  induction answers with
  | nil => rfl
  | cons other others ih =>
    rw [List.map_cons, List.cons_append, answerRunning, ih, List.cons_append]

/-- The running analysis that is answered stands right behind the answered ones. -/
theorem entries_record_finish (account : Account α) (answer : α) :
    (account.record (.finish answer)).entries = answerRunning answer account.entries := by
  obtain ⟨running, answers⟩ := account
  rw [entries, entries, answerRunning_map_done_append]
  cases running with
  | zero => rfl
  | succ left => simp [record, answerRunning, List.replicate_succ]

theorem entries_record_start (account : Account α) :
    (account.record .start).entries = account.entries ++ [.running] := by
  simp [record, entries, List.replicate_succ']

theorem entries_record_abort (account : Account α) :
    (account.record .abort).entries =
      account.entries.filter fun progress => !progress.isRunning := by
  have hdone : (account.answers.map Progress.done).filter (fun progress => !progress.isRunning) =
      account.answers.map Progress.done := by
    simp [Progress.isRunning]
  have hrunning : (List.replicate account.running (Progress.running (α := α))).filter
      (fun progress => !progress.isRunning) = [] := by
    simp [Progress.isRunning]
  simp [record, entries, hdone, hrunning]

/-- The first answer stays the first one. -/
theorem head?_answers_record {answer : α} (hfirst : account.answers.head? = some answer)
    (request : Request α) : (account.record request).answers.head? = some answer := by
  cases request with
  | finish other =>
    obtain ⟨running, answers⟩ := account
    cases running with
    | zero => exact hfirst
    | succ left => simp [record, List.head?_append, hfirst]
  | start => exact hfirst
  | abort => exact hfirst
  | lookup => exact hfirst
  | read => exact hfirst

end Account

/-! ## The entries of a class -/

/-- How far the analyses have come whose argument types a test accepts. -/
def progressOf (accepts : List TypeId → Bool) (entries : List (MemoEntry α)) :
    List (Progress α) :=
  (entries.filter fun entry => accepts entry.arguments).map MemoEntry.progress

section Entries

variable {accepts : List TypeId → Bool} {entries : List (MemoEntry α)}
  {test : MemoEntry α → Bool}

theorem progressOf_append (first second : List (MemoEntry α)) :
    progressOf accepts (first ++ second) =
      progressOf accepts first ++ progressOf accepts second := by
  simp [progressOf]

/-- The answer goes to the first running analysis of the class. -/
theorem progressOf_answerFirst (answer : α)
    (htest : ∀ entry ∈ entries,
      test entry = (entry.progress.isRunning && accepts entry.arguments)) :
    progressOf accepts (Memo.answerFirst test answer entries) =
      Account.answerRunning answer (progressOf accepts entries) := by
  induction entries with
  | nil => rfl
  | cons entry rest ih =>
    obtain ⟨hentry, hrest⟩ := List.forall_mem_cons.mp htest
    have hlater := ih hrest
    unfold progressOf at hlater ⊢
    obtain ⟨arguments, key, progress⟩ := entry
    rw [Memo.answerFirst, hentry]
    cases haccepts : accepts arguments <;> cases progress <;>
      simp [Progress.isRunning, Account.answerRunning, haccepts, hlater]

/-- An answer outside the class leaves the class alone. -/
theorem progressOf_answerFirst_of_apart (answer : α)
    (htest : ∀ entry ∈ entries, test entry = true → accepts entry.arguments = false) :
    progressOf accepts (Memo.answerFirst test answer entries) = progressOf accepts entries := by
  induction entries with
  | nil => rfl
  | cons entry rest ih =>
    obtain ⟨hentry, hrest⟩ := List.forall_mem_cons.mp htest
    have hlater := ih hrest
    unfold progressOf at hlater ⊢
    rw [Memo.answerFirst]
    split
    · rename_i htested
      simp [hentry htested]
    · cases haccepts : accepts entry.arguments <;> simp [haccepts, hlater]

theorem progressOf_filter (htest : ∀ entry ∈ entries,
      test entry = (entry.progress.isRunning && accepts entry.arguments)) :
    progressOf accepts (entries.filter fun entry => !test entry) =
      (progressOf accepts entries).filter fun progress => !progress.isRunning := by
  unfold progressOf
  rw [List.filter_map, List.filter_filter, List.filter_filter]
  refine congrArg _ (List.filter_congr fun entry hmem => ?_)
  rw [htest entry hmem, Function.comp_apply]
  cases accepts entry.arguments <;> simp

theorem progressOf_filter_of_apart
    (htest : ∀ entry ∈ entries, test entry = true → accepts entry.arguments = false) :
    progressOf accepts (entries.filter fun entry => !test entry) = progressOf accepts entries := by
  unfold progressOf
  rw [List.filter_filter]
  refine congrArg _ (List.filter_congr fun entry hmem => ?_)
  have hentry := htest entry hmem
  cases htested : test entry
  · simp
  · simp [hentry htested]

theorem size_eq_countP (memo : Memo α) :
    memo.size = memo.entries.countP fun entry => !entry.progress.isRunning := by
  unfold Memo.size Memo.answers
  rw [List.length_filterMap_eq_countP]
  refine List.countP_congr fun entry _ => ?_
  cases entry.progress <;> simp [Progress.answer?, Progress.isRunning]

/-- There is one more answer if there is an entry for it. -/
theorem countP_answerFirst (answer : α)
    (htest : ∀ entry ∈ entries, test entry = true → entry.progress.isRunning = true) :
    (Memo.answerFirst test answer entries).countP (fun entry => !entry.progress.isRunning) =
      entries.countP (fun entry => !entry.progress.isRunning) +
        if entries.any test then 1 else 0 := by
  induction entries with
  | nil => rfl
  | cons entry rest ih =>
    obtain ⟨hentry, hrest⟩ := List.forall_mem_cons.mp htest
    rw [Memo.answerFirst]
    cases htested : test entry with
    | true =>
      have hrunning := hentry htested
      have hdone : (Progress.done answer).isRunning = false := rfl
      simp [hrunning, hdone, htested]
    | false =>
      simp only [Bool.false_eq_true, if_false, List.countP_cons, List.any_cons, htested,
        Bool.false_or, ih hrest]
      omega

theorem exists_of_mem_answerFirst {answer : α} {entry : MemoEntry α}
    (hmem : entry ∈ Memo.answerFirst test answer entries) :
    ∃ other ∈ entries, entry.arguments = other.arguments ∧ entry.key = other.key := by
  induction entries with
  | nil => exact nomatch hmem
  | cons first rest ih =>
    rw [Memo.answerFirst] at hmem
    split at hmem
    · rcases List.mem_cons.mp hmem with rfl | hmem
      · exact ⟨first, List.mem_cons_self, rfl, rfl⟩
      · exact ⟨entry, List.mem_cons_of_mem first hmem, rfl, rfl⟩
    · rcases List.mem_cons.mp hmem with rfl | hmem
      · exact ⟨entry, List.mem_cons_self, rfl, rfl⟩
      · obtain ⟨other, hother, hsame⟩ := ih hmem
        exact ⟨other, List.mem_cons_of_mem first hother, hsame⟩

end Entries

/-! ## The invariant -/

namespace MemoUse

variable {use later : MemoUse α} {arguments : List TypeId} {accepts : List TypeId → Bool}

/-- What holds of a memo in use. -/
structure Sound (use : MemoUse α) : Prop where
  graph : use.graph.WellFormed
  entries : ∀ entry ∈ use.memo.entries, entry.Sound use.graph
  log : ∀ entry ∈ use.log, ∀ type ∈ entry.1, use.graph.Has type
  /-- The answered entries of each class come first. -/
  classes : ∀ accepts, use.graph.IsClass accepts →
    progressOf accepts use.memo.entries = (accountOf accepts use.log).entries
  size : use.memo.size = use.reports.countP Report.answers
  counts : use.memo.counts =
    { hits := use.reports.countP Report.hits
      misses := use.reports.countP Report.misses
      recursive := use.reports.countP Report.recurs }

theorem account_ask (use : MemoUse α) (arguments others : List TypeId) (request : Request α) :
    (use.ask others request).account arguments =
      if use.graph.sameShapes arguments others then (use.account arguments).record request
      else use.account arguments := rfl

theorem reports_ask (use : MemoUse α) (arguments : List TypeId) (request : Request α) :
    (use.ask arguments request).reports = ⟨request, use.account arguments⟩ :: use.reports := rfl

section Lookups

variable (hsound : use.Sound) (hhas : ∀ type ∈ arguments, use.graph.Has type)

include hsound hhas

/-- An entry is for the argument types if it is one of their class. -/
theorem Sound.isFor_eq (hclass : use.graph.IsClass accepts) (haccepts : accepts arguments = true)
    {entry : MemoEntry α} (hmem : entry ∈ use.memo.entries) :
    Memo.isFor use.graph (Memo.keyOf use.graph arguments) arguments entry =
      accepts entry.arguments := by
  have hentry := hsound.entries entry hmem
  rw [Bool.eq_iff_iff, Memo.isFor_iff hsound.graph.closed hentry hhas,
    hclass arguments entry.arguments hhas hentry.has haccepts]
  exact ⟨SameUnfoldings.symm, SameUnfoldings.symm⟩

theorem Sound.not_accepts (hclass : use.graph.IsClass accepts)
    (haccepts : accepts arguments = false) {entry : MemoEntry α} (hmem : entry ∈ use.memo.entries)
    (hfor : Memo.isFor use.graph (Memo.keyOf use.graph arguments) arguments entry = true) :
    accepts entry.arguments = false := by
  have hentry := hsound.entries entry hmem
  rw [Memo.isFor_iff hsound.graph.closed hentry hhas] at hfor
  rw [Bool.eq_false_iff]
  intro haccepts'
  rw [(hclass entry.arguments arguments hentry.has hhas haccepts').mpr hfor] at haccepts
  exact nomatch haccepts

theorem Sound.accepts_self : use.graph.sameShapes arguments arguments = true :=
  (TypeGraph.sameShapes_iff hsound.graph.closed hhas hhas).mpr (.refl hsound.graph.closed hhas)

/-- What is found is what the account of the class says. -/
theorem Sound.find?_eq : use.memo.find? use.graph arguments = (use.account arguments).find? := by
  have hclass : use.graph.IsClass (use.graph.sameShapes arguments) :=
    TypeGraph.isClass_sameShapes hsound.graph.closed hhas
  have hfilter : use.memo.entries.filter
      (Memo.isFor use.graph (Memo.keyOf use.graph arguments) arguments) =
        use.memo.entries.filter fun entry => use.graph.sameShapes arguments entry.arguments :=
    List.filter_congr fun entry hmem =>
      hsound.isFor_eq hhas hclass (hsound.accepts_self hhas) hmem
  rw [Memo.find?, ← List.head?_filter, hfilter, ← List.head?_map, account,
    ← Account.head?_entries, ← hsound.classes _ hclass, progressOf]

/-- What a request makes of the entries of a class. -/
theorem Sound.progressOf_apply (hclass : use.graph.IsClass accepts) (request : Request α) :
    progressOf accepts (request.apply use.graph arguments use.memo).entries =
      (accountOf accepts ((arguments, request) :: use.log)).entries := by
  have hclasses := hsound.classes accepts hclass
  rw [accountOf]
  cases haccepts : accepts arguments with
  | false =>
    have hapart : ∀ entry ∈ use.memo.entries, Memo.isRunningFor use.graph
        (Memo.keyOf use.graph arguments) arguments entry = true →
          accepts entry.arguments = false := fun entry hmem hrunning =>
      hsound.not_accepts hhas hclass haccepts hmem (Bool.and_eq_true_iff.mp hrunning).2
    rw [if_neg Bool.false_ne_true, ← hclasses]
    cases request with
    | start =>
      rw [Request.apply, Memo.start, progressOf_append]
      simp [progressOf, haccepts]
    | finish answer => exact progressOf_answerFirst_of_apart answer hapart
    | abort => exact progressOf_filter_of_apart hapart
    | lookup => rfl
    | read => rfl
  | true =>
    have hfor : ∀ entry ∈ use.memo.entries, Memo.isRunningFor use.graph
        (Memo.keyOf use.graph arguments) arguments entry =
          (entry.progress.isRunning && accepts entry.arguments) := fun entry hmem => by
      rw [Memo.isRunningFor, hsound.isFor_eq hhas hclass haccepts hmem]
    rw [if_pos rfl]
    cases request with
    | start =>
      rw [Account.entries_record_start, ← hclasses, Request.apply, Memo.start, progressOf_append]
      simp [progressOf, haccepts]
    | finish answer =>
      rw [Account.entries_record_finish, ← hclasses]
      exact progressOf_answerFirst answer hfor
    | abort =>
      rw [Account.entries_record_abort, ← hclasses]
      exact progressOf_filter hfor
    | lookup => exact hclasses
    | read => exact hclasses

/-- There is an entry to finish if the account of the class says that an analysis is running. -/
theorem Sound.any_isRunningFor : use.memo.entries.any (Memo.isRunningFor use.graph
    (Memo.keyOf use.graph arguments) arguments) = ((use.account arguments).running != 0) := by
  have hclass : use.graph.IsClass (use.graph.sameShapes arguments) :=
    TypeGraph.isClass_sameShapes hsound.graph.closed hhas
  rw [Bool.eq_iff_iff, bne_iff_ne, ← Account.running_mem_entries_iff, account,
    ← hsound.classes _ hclass, List.any_eq_true, progressOf, List.mem_map]
  refine exists_congr fun entry => ?_
  rw [List.mem_filter, and_assoc]
  refine and_congr_right fun hmem => ?_
  rw [Memo.isRunningFor, hsound.isFor_eq hhas hclass (hsound.accepts_self hhas) hmem,
    Bool.and_eq_true, and_comm]
  cases entry.progress <;> simp [Progress.isRunning]

theorem Sound.size_apply (request : Request α) :
    (request.apply use.graph arguments use.memo).size =
      use.memo.size + if (Report.mk request (use.account arguments)).answers then 1 else 0 := by
  simp only [size_eq_countP]
  cases request with
  | start => simp [Request.apply, Memo.start, Report.answers, Progress.isRunning]
  | finish answer =>
    rw [Report.answers, ← hsound.any_isRunningFor hhas]
    exact countP_answerFirst answer fun entry _ hrunning => (Bool.and_eq_true_iff.mp hrunning).1
  | abort =>
    simp only [Request.apply, Memo.abort, Report.answers, List.countP_filter]
    refine List.countP_congr fun entry _ => ?_
    cases hprogress : entry.progress <;> simp [Memo.isRunningFor, hprogress, Progress.isRunning]
  | lookup => rfl
  | read => rfl

theorem Sound.counts_apply (request : Request α) :
    (request.apply use.graph arguments use.memo).counts =
      { hits := use.memo.counts.hits +
          if (Report.mk request (use.account arguments)).hits then 1 else 0
        misses := use.memo.counts.misses +
          if (Report.mk request (use.account arguments)).misses then 1 else 0
        recursive := use.memo.counts.recursive +
          if (Report.mk request (use.account arguments)).recurs then 1 else 0 } := by
  cases request with
  | lookup =>
    rw [Request.apply, Memo.lookup, hsound.find?_eq hhas]
    cases hfound : (use.account arguments).find? with
    | none => simp [Memo.count, Report.hits, Report.misses, Report.recurs, hfound]
    | some progress =>
      cases progress <;>
        simp [Memo.count, Report.hits, Report.misses, Report.recurs, hfound, Progress.isRunning]
  | start => rfl
  | finish answer => rfl
  | abort => rfl
  | read => rfl

theorem Sound.entries_apply (request : Request α) :
    ∀ entry ∈ (request.apply use.graph arguments use.memo).entries, entry.Sound use.graph := by
  intro entry hmem
  cases request with
  | start =>
    rcases List.mem_append.mp hmem with hmem | hmem
    · exact hsound.entries entry hmem
    · obtain rfl := List.mem_singleton.mp hmem
      exact ⟨hhas, rfl⟩
  | finish answer =>
    obtain ⟨other, hother, harguments, hkey⟩ := exists_of_mem_answerFirst hmem
    have hheld := hsound.entries other hother
    exact ⟨harguments ▸ hheld.has, by rw [hkey, hheld.key, harguments]⟩
  | abort => exact hsound.entries entry (List.mem_filter.mp hmem).1
  | lookup => exact hsound.entries entry hmem
  | read => exact hsound.entries entry hmem

/-- A request keeps the invariant. -/
theorem Sound.ask (request : Request α) : (use.ask arguments request).Sound where
  graph := hsound.graph
  entries := hsound.entries_apply hhas request
  log := List.forall_mem_cons.mpr ⟨hhas, hsound.log⟩
  classes accepts hclass := hsound.progressOf_apply hhas hclass request
  size := (hsound.size_apply hhas request).trans (by
    rw [hsound.size, reports_ask, List.countP_cons])
  counts := (hsound.counts_apply hhas request).trans (by
    simp only [hsound.counts, reports_ask, List.countP_cons])

theorem Sound.answer?_eq :
    use.memo.answer? use.graph arguments = (use.account arguments).answers.head? := by
  rw [Memo.answer?, hsound.find?_eq hhas, Account.bind_find?]

end Lookups

/-- Types that are added keep the invariant. -/
theorem Sound.grow (hsound : use.Sound) {grown : TypeGraph} (hgrows : use.graph.Grows grown)
    (hwell : grown.WellFormed) : Sound { use with graph := grown } := by
  have hreports : MemoUse.reports { use with graph := grown } = use.reports :=
    reports_congr fun first hfirst second hsecond =>
      sameShapes_of_grows hsound.graph.closed hgrows hwell.closed (hsound.log first hfirst)
        (hsound.log second hsecond)
  exact {
    graph := hwell
    entries := fun entry hmem => (hsound.entries entry hmem).mono hsound.graph.closed hgrows
    log := fun entry hmem type htype => hgrows.has (hsound.log entry hmem type htype)
    classes := fun accepts hclass =>
      hsound.classes accepts (hclass.of_grown hgrows hsound.graph.closed)
    size := by rw [hreports, ← hsound.size]
    counts := by rw [hreports, ← hsound.counts] }

theorem Step.sound (hstep : use.Step later) (hsound : use.Sound) : later.Sound := by
  cases hstep with
  | build hbuilds => exact hsound.grow hbuilds.grows (hbuilds.wellFormed hsound.graph)
  | request arguments request hhas => exact hsound.ask hhas request

theorem sound_new {graph : TypeGraph} (hwell : graph.WellFormed) :
    ({ graph } : MemoUse α).Sound where
  graph := hwell
  entries _ hmem := nomatch hmem
  log _ hmem := nomatch hmem
  classes _ _ := rfl
  size := rfl
  counts := rfl

theorem sound_of_steps (hsound : use.Sound) (hsteps : Relation.ReflTransGen Step use later) :
    later.Sound := by
  induction hsteps with
  | refl => exact hsound
  | tail _ hstep ih => exact hstep.sound ih

theorem Step.grows (hstep : use.Step later) : use.graph.Grows later.graph := by
  cases hstep with
  | build hbuilds => exact hbuilds.grows
  | request arguments request hhas => exact .refl use.graph

/-- The first answer for argument types is what is found for them ever after. -/
theorem Step.head?_answers (hstep : use.Step later) (hsound : use.Sound)
    (hhas : ∀ type ∈ arguments, use.graph.Has type) {answer : α}
    (hfirst : (use.account arguments).answers.head? = some answer) :
    (later.account arguments).answers.head? = some answer := by
  cases hstep with
  | build hbuilds =>
    rename_i grown
    have haccount : MemoUse.account { use with graph := grown } arguments = use.account arguments :=
      accountOf_congr fun entry hmem =>
        sameShapes_of_grows hsound.graph.closed hbuilds.grows
          (hbuilds.wellFormed hsound.graph).closed hhas (hsound.log entry hmem)
    rwa [haccount]
  | request others request _ =>
    rw [account_ask]
    split
    · exact Account.head?_answers_record hfirst request
    · exact hfirst

theorem head?_answers_of_steps (hsound : use.Sound)
    (hsteps : Relation.ReflTransGen Step use later)
    (hhas : ∀ type ∈ arguments, use.graph.Has type) {answer : α}
    (hfirst : (use.account arguments).answers.head? = some answer) :
    (∀ type ∈ arguments, later.graph.Has type) ∧
      (later.account arguments).answers.head? = some answer := by
  induction hsteps with
  | refl => exact ⟨hhas, hfirst⟩
  | tail hbefore hstep ih =>
    obtain ⟨hhas', hfirst'⟩ := ih
    have hgrows := hstep.grows
    exact ⟨fun type hmem => hgrows.has (hhas' type hmem),
      hstep.head?_answers (sound_of_steps hsound hbefore) hhas' hfirst'⟩

/-- A memo that is used in any order is the table of the accounts of all classes.  What a look-up
finds for argument types, and which entries there are for them, is what the account of their class
says; once it has an answer, this is what is found ever after, and requests for other classes
change nothing.  The size is the number of analyses that were finished while they were running, and
the counts are those of the look-ups by what they found. -/
theorem refines_accounts {graph : TypeGraph} (hwell : graph.WellFormed)
    (hused : Relation.ReflTransGen Step { graph } use) :
    (∀ arguments, (∀ type ∈ arguments, use.graph.Has type) →
      (use.memo.lookup use.graph arguments).1 = (use.account arguments).find? ∧
      use.memo.answer? use.graph arguments = (use.account arguments).answers.head? ∧
      progressOf (use.graph.sameShapes arguments) use.memo.entries =
        (use.account arguments).entries ∧
      (∀ answer, (use.account arguments).answers.head? = some answer →
        ∀ later, Relation.ReflTransGen Step use later →
          (later.memo.lookup later.graph arguments).1 = some (.done answer) ∧
            later.memo.answer? later.graph arguments = some answer) ∧
      (∀ others, (∀ type ∈ others, use.graph.Has type) →
        use.graph.sameShapes arguments others = false → ∀ request : Request α,
          (use.ask others request).memo.find? use.graph arguments =
              use.memo.find? use.graph arguments ∧
            progressOf (use.graph.sameShapes arguments) (use.ask others request).memo.entries =
              progressOf (use.graph.sameShapes arguments) use.memo.entries)) ∧
    use.memo.size = use.reports.countP Report.answers ∧
    use.memo.counts =
      { hits := use.reports.countP Report.hits
        misses := use.reports.countP Report.misses
        recursive := use.reports.countP Report.recurs } := by
  have hsound : use.Sound := sound_of_steps (sound_new hwell) hused
  refine ⟨fun arguments hhas => ⟨hsound.find?_eq hhas, hsound.answer?_eq hhas, ?_,
    fun answer hfirst later hsteps => ?_, fun others hothers hapart request => ?_⟩,
    hsound.size, hsound.counts⟩
  · exact hsound.classes _ (TypeGraph.isClass_sameShapes hsound.graph.closed hhas)
  · have hlater := sound_of_steps hsound hsteps
    obtain ⟨hhas', hfirst'⟩ := head?_answers_of_steps hsound hsteps hhas hfirst
    refine ⟨(hlater.find?_eq hhas').trans ?_, (hlater.answer?_eq hhas').trans hfirst'⟩
    exact Account.find?_of_head? hfirst'
  · have hclass : use.graph.IsClass (use.graph.sameShapes arguments) :=
      TypeGraph.isClass_sameShapes hsound.graph.closed hhas
    have haccount : (use.ask others request).account arguments = use.account arguments := by
      rw [account_ask, hapart, if_neg Bool.false_ne_true]
    constructor
    · exact ((hsound.ask hothers request).find?_eq hhas).trans
        (haccount ▸ (hsound.find?_eq hhas).symm)
    · calc progressOf (use.graph.sameShapes arguments) (use.ask others request).memo.entries
          = ((use.ask others request).account arguments).entries :=
            hsound.progressOf_apply hothers hclass request
        _ = (use.account arguments).entries := congrArg Account.entries haccount
        _ = progressOf (use.graph.sameShapes arguments) use.memo.entries :=
            (hsound.classes _ hclass).symm

end MemoUse

/-- Two analyses begin for the objects that hold themselves, which have one shape.  One of them is
finished, and a type is built. -/
def knotUse : MemoUse Nat :=
  let begun : MemoUse Nat :=
    ((MemoUse.mk knotStart.graph {} []).ask [⟨1⟩] .start).ask [⟨2⟩] .start
  let built : MemoUse Nat := { begun with graph := (begun.graph.plainObject "Box").2 }
  (built.ask [⟨2⟩] (.finish 7)).ask [⟨1⟩] .lookup

/-- Then the other analysis is aborted, one is started for the new type, and an answer is given
that no analysis waits for. -/
def knotUseLater : MemoUse Nat :=
  ((knotUse.ask [⟨1⟩] .abort).ask [⟨3⟩] .start).ask [⟨2⟩] (.finish 8)

/-- The answer for both objects is the one that was given while an analysis was running, before and
after the other analysis is aborted. -/
theorem knotUse_refines_accounts :
    Relation.ReflTransGen MemoUse.Step { graph := knotStart.graph } knotUse ∧
      knotUse.account [⟨1⟩] = { running := 1, answers := [7] } ∧
        (knotUse.memo.lookup knotUse.graph [⟨1⟩]).1 = some (.done 7) ∧
          (knotUseLater.memo.lookup knotUseLater.graph [⟨1⟩]).1 = some (.done 7) ∧
            knotUse.memo.size = 1 ∧ knotUse.memo.counts = { hits := 1 } := by
  have hused : Relation.ReflTransGen MemoUse.Step { graph := knotStart.graph } knotUse :=
    .tail (.tail (.tail (.tail (.single (.request _ [⟨1⟩] .start (by decide +kernel)))
      (.request _ [⟨2⟩] .start (by decide +kernel))) (.build _ (.plainObject "Box")))
      (.request _ [⟨2⟩] (.finish 7) (by decide +kernel)))
      (.request _ [⟨1⟩] .lookup (by decide +kernel))
  have hlater : Relation.ReflTransGen MemoUse.Step knotUse knotUseLater :=
    .tail (.tail (.single (.request _ [⟨1⟩] .abort (by decide +kernel)))
      (.request _ [⟨3⟩] .start (by decide +kernel)))
      (.request _ [⟨2⟩] (.finish 8) (by decide +kernel))
  have haccount : knotUse.account [⟨1⟩] = { running := 1, answers := [7] } := by
    decide +kernel
  obtain ⟨hclasses, hsize, hcounts⟩ :=
    MemoUse.refines_accounts knotStart_reachable.idle.2.sound.graph hused
  obtain ⟨hfound, -, -, hever, -⟩ := hclasses [⟨1⟩] (by decide +kernel)
  rw [haccount] at hfound hever
  exact ⟨hused, haccount, hfound, (hever 7 rfl _ hlater).1, hsize.trans (by decide +kernel),
    hcounts.trans (by decide +kernel)⟩

end ShapeFlow
