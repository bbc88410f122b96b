import ShapeFlow.Proofs.Dispatch

/-!
# Look-ups are matched by recorded calls

Each look-up in a memo is made for one call, and each call that succeeds is recorded in one frame.
So when no analysis has failed, the look-ups counted by the memo of a definition are the calls of
the definition recorded in finished summaries, and those found missing are its answers
(`infer_balances`).

A frame is recorded in a summary only at its end, so in between the books do not balance: what is
missing are the calls recorded in the frames of active analyses.  `Knowledge.Balances` says how two
states of knowledge differ, up to calls that were answered on the way and are not yet in a summary.
A body leaves just the calls that its frame has recorded (`Accounted`), and the end of its analysis
puts them in a summary, whose own call is then the only one left (`Knowledge.Balances.answered`).
-/

namespace ShapeFlow

variable {α β : Type} {declarations : Declarations}

/-! ## What is counted -/

/-- Who was called, and the summary that was the answer. -/
def CallRecord.answer (call : CallRecord) : DefId × SummaryId := (call.target, call.summary)

theorem CallRecord.countP_answer (calls : List CallRecord) (target : DefId) :
    (calls.map answer).countP (fun answer => answer.1 = target) =
      calls.countP fun call => call.target = target := by
  rw [List.countP_map]
  rfl

namespace Knowledge

variable (knowledge : Knowledge)

/-- The look-ups in the memo of a definition. -/
def counts (target : DefId) : MemoCounts :=
  (knowledge.memos[target.index]?.map Memo.counts).getD {}

/-- The answers in the memo of a definition. -/
def answersOf (target : DefId) : List SummaryId :=
  (knowledge.memos[target.index]?.map Memo.answers).getD []

/-- The answers in all memos. -/
def completed : List SummaryId := knowledge.memos.toList.flatMap Memo.answers

/-- The calls recorded in a summary. -/
def callsOf (id : SummaryId) : List CallRecord :=
  (knowledge.summaries[id.index]?.map Summary.calls).getD []

/-- How many calls of a definition are recorded in the answers. -/
def callsTo (target : DefId) : Nat :=
  (knowledge.completed.flatMap knowledge.callsOf).countP fun call => call.target = target

/-- A call to the second summary is recorded in the first one. -/
def Calls (caller callee : SummaryId) : Prop :=
  ∃ call ∈ knowledge.callsOf caller, call.summary = callee

/-- The second summary is reached from the first one by recorded calls. -/
def CallsInto : SummaryId → SummaryId → Prop := Relation.ReflTransGen knowledge.Calls

end Knowledge

/-- From the first knowledge to the second one summaries stay, no look-up has found an analysis
running, a definition has got an answer for each look-up that found nothing, and a recorded call
for each look-up, if the given calls are added.  Each new answer is reached from these calls. -/
structure Knowledge.Balances (first second : Knowledge) (pending : List (DefId × SummaryId)) :
    Prop where
  summaries : ∀ (id : Nat) (summary : Summary), first.summaries[id]? = some summary →
    second.summaries[id]? = some summary
  recursive : ∀ target, (second.counts target).recursive = (first.counts target).recursive
  misses : ∀ target, (second.counts target).misses + (first.answersOf target).length =
    (first.counts target).misses + (second.answersOf target).length
  lookups : ∀ target,
    (second.counts target).hits + (second.counts target).misses + first.callsTo target =
      (first.counts target).hits + (first.counts target).misses + second.callsTo target +
        pending.countP fun answer => answer.1 = target
  news : ∀ id ∈ second.completed, id ∈ first.completed ∨
    ∃ answer ∈ pending, second.CallsInto answer.2 id

namespace Knowledge

variable {knowledge first second third later : Knowledge} {target : DefId}
  {memo : Memo SummaryId}

theorem callsOf_eq_of_summaries (hkept : ∀ (id : Nat) (summary : Summary),
      first.summaries[id]? = some summary → second.summaries[id]? = some summary)
    {id : SummaryId} (hindex : id.index < first.summaries.size) :
    second.callsOf id = first.callsOf id := by
  have hsummary := Array.getElem?_eq_getElem hindex
  rw [callsOf, callsOf, hsummary, hkept _ _ hsummary]

theorem index_lt_of_mem_callsOf {id : SummaryId} {call : CallRecord}
    (hmem : call ∈ knowledge.callsOf id) : id.index < knowledge.summaries.size := by
  by_contra hlarge
  rw [callsOf, Array.getElem?_eq_none (Nat.le_of_not_lt hlarge)] at hmem
  exact nomatch hmem

theorem CallsInto.mono (hkept : ∀ (id : Nat) (summary : Summary),
      first.summaries[id]? = some summary → second.summaries[id]? = some summary)
    {id other : SummaryId} (hleads : first.CallsInto id other) : second.CallsInto id other := by
  refine Relation.ReflTransGen.mono (fun caller callee hcalls => ?_) _ _ hleads
  obtain ⟨call, hmem, rfl⟩ := hcalls
  refine ⟨call, ?_, rfl⟩
  rwa [callsOf_eq_of_summaries hkept (index_lt_of_mem_callsOf hmem)]

namespace Balances

variable {pending others : List (DefId × SummaryId)}

/-- Knowledge with more types has the same books. -/
theorem of_extends (hextends : first.Extends second) : first.Balances second [] := by
  obtain ⟨graph, -, rfl⟩ := hextends
  exact ⟨fun _ _ hsummary => hsummary, fun _ => rfl, fun _ => rfl, fun _ => rfl,
    fun _ hmem => Or.inl hmem⟩

theorem trans (hfirst : first.Balances second pending) (hsecond : second.Balances third others) :
    first.Balances third (pending ++ others) where
  summaries id summary hsummary :=
    hsecond.summaries id summary (hfirst.summaries id summary hsummary)
  recursive target := (hsecond.recursive target).trans (hfirst.recursive target)
  misses target := by
    have hfirst := hfirst.misses target
    have hsecond := hsecond.misses target
    omega
  lookups target := by
    have hfirst := hfirst.lookups target
    have hsecond := hsecond.lookups target
    rw [List.countP_append]
    omega
  news id hmem := by
    rcases hsecond.news id hmem with hmem | ⟨answer, hanswer, hleads⟩
    · refine (hfirst.news id hmem).imp_right fun ⟨answer, hanswer, hleads⟩ => ?_
      exact ⟨answer, List.mem_append_left others hanswer, hleads.mono hsecond.summaries⟩
    · exact Or.inr ⟨answer, List.mem_append_right pending hanswer, hleads⟩

end Balances

end Knowledge

/-! ## Bodies -/

/-- A call asks its analyst once and records the answer, and only adds types besides. -/
theorem exists_of_call {analyst : Analyst} {span : Span} {method : String} {target : DefId}
    {arguments : List Operand} {frame changed : Frame} {knowledge later : Knowledge}
    {operand : Operand}
    (hrun : call analyst declarations span method target arguments frame knowledge =
      .ok (operand, changed) later) :
    ∃ types asking id answered summary value, knowledge.Extends asking ∧
      analyst target types asking = .ok id answered ∧
        answered.summaries[id.index]? = some summary ∧ answered.Extends later ∧
          changed.calls =
            frame.calls ++ [⟨method, target, summary.signature, id, value, span⟩] := by
  unfold call at hrun
  obtain ⟨resolved, frame₁, known₁, hresolve, hrun⟩ := exists_of_run_bind hrun
  obtain ⟨types, frame₂, known₂, htypes, hrun⟩ := exists_of_run_bind hrun
  obtain ⟨id, frame₃, known₃, hask, hrun⟩ := exists_of_run_bind hrun
  obtain ⟨known, frame₄, known₄, hget, hrun⟩ := exists_of_run_bind hrun
  cases hget
  obtain ⟨summary, frame₅, known₅, hsummary, hrun⟩ := exists_of_run_bind hrun
  obtain ⟨result?, frame₆, known₆, hexpand, hrun⟩ := exists_of_run_bind hrun
  obtain ⟨value, frame₇, known₇, hreplay, hrun⟩ := exists_of_run_bind hrun
  obtain ⟨told, frame₈, known₈, hexpress, hrun⟩ := exists_of_run_bind hrun
  cases hrun
  obtain ⟨answer, answered, hasked, hpure⟩ := exists_of_bind
    (show (analyst target types >>= fun id => (pure (id, frame₂) : Knowing _)) known₂ = _
      from hask)
  cases hpure
  obtain ⟨hcalls₁, hextends₁⟩ := Aside.run hresolve
  obtain ⟨hcalls₂, hextends₂⟩ := Aside.run htypes
  obtain ⟨hcalls₃, hextends₃⟩ := Aside.run hsummary
  obtain ⟨hcalls₄, hextends₄⟩ := (Aside.expandResult summary.result).run hexpand
  obtain ⟨hcalls₅, hextends₅⟩ := Aside.run hreplay
  obtain ⟨hcalls₆, hextends₆⟩ := Aside.run hexpress
  refine ⟨types, known₂, id, known₃, summary, told, hextends₁.trans hextends₂, hasked, ?_,
    hextends₃.trans (hextends₄.trans (hextends₅.trans hextends₆)), ?_⟩
  · unfold Knowledge.summary at hsummary
    cases hheld : known₃.summaries[id.index]? with
    | none => exact nomatch (hheld ▸ hsummary)
    | some held =>
      rw [hheld] at hsummary
      cases hsummary
      rfl
  · rw [Frame.recordCall, hcalls₆, hcalls₅, hcalls₄, hcalls₃, hcalls₂, hcalls₁]

/-- All steps of a body but its calls leave the records and the answers alone. -/
theorem Scope.Rules.of_aside {scope : Scope} {P : ∀ {α : Type}, Body α → Prop}
    (haside : ∀ {α : Type} (step : Body α), Aside step → P step)
    (hseq : ∀ {α β : Type} {step : Body α} {next : α → Body β}, P step →
      (∀ value, P (next value)) → P (step >>= next))
    (hcall : ∀ span method target arguments, P (scope.call span method target arguments)) :
    Rules (fun _ : Unit => scope) fun step => P (step ()) where
  pure _ := haside _ inferInstance
  seq := hseq
  reject _ := haside _ inferInstance
  setLocal _ _ := haside _ inferInstance
  allocateArray := haside _ inferInstance
  resolve _ := haside _ inferInstance
  this _ := haside _ inferInstance
  name _ _ := haside _ inferInstance
  read _ _ _ := haside _ inferInstance
  write _ _ _ _ := haside _ inferInstance
  dispatch _ _ _ := haside _ inferInstance
  resolveCall _ _ := haside _ inferInstance
  allocate _ _ := haside _ inferInstance
  addElement _ _ _ _ := haside _ inferInstance
  call := hcall

/-- Where the step succeeds, the calls that it records are what the books lack. -/
class Accounted (step : Body α) : Prop where
  run : ∀ {frame : Frame} {knowledge : Knowledge} {value : α} {changed : Frame} {later : Knowledge},
    step frame knowledge = .ok (value, changed) later → ∃ calls : List CallRecord,
      changed.calls = frame.calls ++ calls ∧
        knowledge.Balances later (calls.map CallRecord.answer)

namespace Accounted

instance aside (step : Body α) [hstep : Aside step] : Accounted step where
  run hrun := by
    obtain ⟨hcalls, hextends⟩ := hstep.run hrun
    exact ⟨[], by rw [hcalls, List.append_nil], .of_extends hextends⟩

theorem seq {step : Body α} {next : α → Body β} (hstep : Accounted step)
    (hnext : ∀ value, Accounted (next value)) : Accounted (step >>= next) where
  run hrun := by
    obtain ⟨value, changed, between, hfirst, hlast⟩ := exists_of_run_bind hrun
    obtain ⟨calls, hcalls, hbalances⟩ := hstep.run hfirst
    obtain ⟨calls', hcalls', hbalances'⟩ := (hnext value).run hlast
    refine ⟨calls ++ calls', by rw [hcalls', hcalls, List.append_assoc], ?_⟩
    rw [List.map_append]
    exact hbalances.trans hbalances'

end Accounted

/-- What the analyst answers leaves one call to be recorded. -/
def Analyst.Accounted (analyst : Analyst) : Prop :=
  ∀ target types knowledge id later, analyst target types knowledge = .ok id later →
    knowledge.Balances later [(target, id)]

/-- A call is recorded once, with the answer of the analyst. -/
theorem call_accounted {analyst : Analyst} (hanalyst : analyst.Accounted) {span : Span}
    (method : String) (target : DefId) (arguments : List Operand) :
    Accounted (call analyst declarations span method target arguments) where
  run {frame knowledge operand changed later} hrun := by
    obtain ⟨types, asking, id, answered, summary, value, hbefore, hasked, -, hafter, hcalls⟩ :=
      exists_of_call hrun
    refine ⟨[⟨method, target, summary.signature, id, value, span⟩], hcalls, ?_⟩
    exact ((Knowledge.Balances.of_extends hbefore).trans
      (hanalyst target types asking id answered hasked)).trans (.of_extends hafter)

theorem Scope.accounted_rules {scope : Scope} (hanalyst : scope.analyst.Accounted) :
    Rules (fun _ : Unit => scope) fun step => Accounted (step ()) :=
  .of_aside (fun step _ => .aside step) .seq fun _ => call_accounted hanalyst

/-- The calls of a summary are what the analysis of the body leaves to be recorded. -/
theorem summarize_balances {analyst : Analyst} (hanalyst : analyst.Accounted)
    {definition : Definition} {signature : Signature} {knowledge later : Knowledge}
    {summary : Summary}
    (hrun : summarize analyst declarations definition signature knowledge = .ok summary later) :
    knowledge.Balances later (summary.calls.map CallRecord.answer) := by
  obtain ⟨result, final, hbody, hpure⟩ := exists_of_bind hrun
  obtain ⟨calls, hcalls, hbalances⟩ := (Accounted.seq
    ((Scope.accounted_rules hanalyst).evaluateBody definition.decl.body)
    fun operand => Accounted.aside _).run hbody
  cases hpure
  rw [List.nil_append] at hcalls
  rwa [← hcalls] at hbalances

/-! ## Answers -/

/-- The answer that is given to a running analysis is one more answer. -/
theorem Memo.answers_answerFirst {accepts : MemoEntry α → Bool} {answer : α}
    {entries : List (MemoEntry α)} {started : MemoEntry α} (hmem : started ∈ entries)
    (haccepts : accepts started = true)
    (hrunning : ∀ entry, accepts entry = true → entry.progress.answer? = none) :
    ((answerFirst accepts answer entries).filterMap fun entry => entry.progress.answer?).Perm
      (answer :: entries.filterMap fun entry => entry.progress.answer?) := by
  induction entries with
  | nil => exact nomatch hmem
  | cons entry rest ih =>
    rw [answerFirst]
    split
    · rename_i hentry
      have hnone := hrunning entry hentry
      simp only [List.filterMap_cons, hnone]
      exact .refl _
    · rename_i hrefused
      have hrest : started ∈ rest := by
        rcases List.mem_cons.mp hmem with rfl | hrest
        · exact absurd haccepts hrefused
        · exact hrest
      simp only [List.filterMap_cons]
      cases entry.progress.answer? with
      | none => exact ih hrest
      | some earlier => exact ((ih hrest).cons earlier).trans (.swap answer earlier _)

theorem flatMap_set_perm {f : α → List β} {items : List α} {index : Nat} {old new : α}
    {news : List β} (hold : items[index]? = some old) (hnew : (f new).Perm (news ++ f old)) :
    ((items.set index new).flatMap f).Perm (news ++ items.flatMap f) := by
  induction items generalizing index with
  | nil => exact nomatch hold
  | cons item rest ih =>
    cases index with
    | zero =>
      obtain rfl := Option.some.inj hold
      rw [List.set_cons_zero, List.flatMap_cons, List.flatMap_cons, ← List.append_assoc]
      exact hnew.append_right _
    | succ index =>
      rw [List.set_cons_succ, List.flatMap_cons, List.flatMap_cons]
      have hrest := ih hold
      refine (hrest.append_left (f item)).trans ?_
      rw [← List.append_assoc, ← List.append_assoc]
      exact List.perm_append_comm.append_right _

namespace Knowledge

variable {knowledge later : Knowledge} {target other : DefId} {arguments : List TypeId}
  {memo changed : Memo SummaryId}

section SetMemo

variable (hheld : knowledge.memos[target.index]? = some memo)

include hheld

theorem counts_setMemo : (knowledge.setMemo target changed).counts other =
    if target = other then changed.counts else knowledge.counts other := by
  split
  · rename_i heq
    rw [← heq, counts, memos_setMemo_self hheld]
    rfl
  · rename_i hne
    rw [counts, memos_setMemo_of_ne (Ne.symm hne), counts]

theorem answersOf_setMemo : (knowledge.setMemo target changed).answersOf other =
    if target = other then changed.answers else knowledge.answersOf other := by
  split
  · rename_i heq
    rw [← heq, answersOf, memos_setMemo_self hheld]
    rfl
  · rename_i hne
    rw [answersOf, memos_setMemo_of_ne (Ne.symm hne), answersOf]

/-- A memo with the same answers leaves the answers of all definitions. -/
theorem answersOf_setMemo_of_eq (hsame : changed.answers = memo.answers) :
    (knowledge.setMemo target changed).answersOf other = knowledge.answersOf other := by
  rw [answersOf_setMemo hheld]
  split
  · rename_i heq
    rw [← heq, answersOf, hheld, hsame]
    rfl
  · rfl

theorem completed_setMemo (news : List SummaryId)
    (hnews : changed.answers.Perm (news ++ memo.answers)) :
    (knowledge.setMemo target changed).completed.Perm (news ++ knowledge.completed) := by
  rw [completed, completed, setMemo, Array.toList_setIfInBounds]
  exact flatMap_set_perm (by rwa [Array.getElem?_toList]) hnews

theorem counts_look_of_done {id : SummaryId}
    (hfound : memo.find? knowledge.graph arguments = some (.done id)) :
    (knowledge.look target arguments memo).counts other =
      ⟨(knowledge.counts other).hits + if target = other then 1 else 0,
        (knowledge.counts other).misses, (knowledge.counts other).recursive⟩ := by
  rw [look, counts_setMemo hheld, Memo.lookup, hfound]
  split
  · rename_i heq
    rw [← heq, counts, hheld]
    rfl
  · rfl

theorem counts_begin (hmissing : memo.find? knowledge.graph arguments = none) :
    (knowledge.begin target arguments memo).counts other =
      ⟨(knowledge.counts other).hits,
        (knowledge.counts other).misses + if target = other then 1 else 0,
        (knowledge.counts other).recursive⟩ := by
  rw [begin, counts_setMemo hheld, Memo.lookup, hmissing]
  split
  · rename_i heq
    rw [← heq, counts, hheld]
    rfl
  · rfl

theorem answersOf_begin :
    (knowledge.begin target arguments memo).answersOf other = knowledge.answersOf other :=
  answersOf_setMemo_of_eq hheld (by simp [Memo.answers, Memo.start, Progress.answer?])

theorem completed_begin :
    (knowledge.begin target arguments memo).completed.Perm knowledge.completed :=
  completed_setMemo hheld []
    (.of_eq (by simp [Memo.answers, Memo.start, Progress.answer?]))

theorem counts_finish (summary : Summary) :
    (knowledge.finish target arguments memo summary).counts other = knowledge.counts other := by
  have hadded : (knowledge.addSummary summary).2.memos[target.index]? = some memo := hheld
  rw [finish, counts_setMemo hadded]
  split
  · rename_i heq
    rw [← heq, counts, hheld]
    rfl
  · rfl

end SetMemo

theorem callsOf_finish (summary : Summary) :
    (knowledge.finish target arguments memo summary).callsOf ⟨knowledge.summaries.size⟩ =
      summary.calls := by
  simp [callsOf, finish, setMemo, addSummary]

/-- Answers are summaries. -/
theorem Sound.index_lt_of_mem_completed (hsound : knowledge.Sound declarations) {id : SummaryId}
    (hmem : id ∈ knowledge.completed) : id.index < knowledge.summaries.size := by
  obtain ⟨memo, hmemo, hanswer⟩ := List.mem_flatMap.mp hmem
  obtain ⟨entry, hentry, hdone⟩ := Memo.mem_answers_iff.mp hanswer
  obtain ⟨index, hindex⟩ := List.mem_iff_getElem?.mp hmemo
  rw [Array.getElem?_toList] at hindex
  obtain ⟨-, summary, -, hsummary, -⟩ :=
    hsound.answers ⟨index⟩ entry id ⟨memo, hindex, hentry⟩ hdone
  exact (Array.getElem?_eq_some_iff.mp hsummary).1

theorem callsTo_eq_of_perm {first second : Knowledge}
    (hperm : second.completed.Perm first.completed)
    (hcalls : ∀ id ∈ first.completed, second.callsOf id = first.callsOf id) :
    second.callsTo target = first.callsTo target := by
  rw [callsTo, callsTo, (hperm.flatMap_right second.callsOf).countP_eq,
    List.flatMap_congr hcalls]

/-- A look-up that finds an answer is made for one call. -/
theorem balances_look (hheld : knowledge.memos[target.index]? = some memo) {id : SummaryId}
    (hfound : memo.find? knowledge.graph arguments = some (.done id)) :
    knowledge.Balances (knowledge.look target arguments memo) [(target, id)] := by
  have hcompleted : (knowledge.look target arguments memo).completed.Perm knowledge.completed :=
    completed_setMemo hheld [] (.refl _)
  have hcounts := fun other => @counts_look_of_done knowledge target other arguments
    memo hheld id hfound
  refine ⟨fun _ _ hsummary => hsummary, fun other => ?_, fun other => ?_, fun other => ?_,
    fun other hmem => Or.inl (hcompleted.mem_iff.mp hmem)⟩
  · rw [hcounts]
  · have hanswers : (knowledge.look target arguments memo).answersOf other =
        knowledge.answersOf other := answersOf_setMemo_of_eq hheld rfl
    rw [hcounts, hanswers]
  · rw [hcounts, callsTo_eq_of_perm hcompleted fun _ _ => rfl, List.countP_singleton]
    simp only [decide_eq_true_eq]
    omega

section Finish

variable (hsound : knowledge.Sound declarations)
  (hheld : knowledge.memos[target.index]? = some memo) {started : MemoEntry SummaryId}
  (hstarted : started ∈ memo.entries) (hrunning : started.progress = .running)
  (harguments : started.arguments = arguments) (summary : Summary)

include hsound hheld hstarted hrunning harguments

theorem answers_finish :
    (memo.finish knowledge.graph arguments ⟨knowledge.summaries.size⟩).answers.Perm
      (⟨knowledge.summaries.size⟩ :: memo.answers) := by
  subst harguments
  refine Memo.answers_answerFirst hstarted ?_ fun entry haccepts => ?_
  · exact (Memo.isRunningFor_iff_eq hsound.graph.closed (hsound.memos target memo hheld) hstarted
      hrunning hstarted).mpr rfl
  · have hentry : entry.progress.isRunning = true := (Bool.and_eq_true_iff.mp haccepts).1
    cases hprogress : entry.progress with
    | running => rfl
    | done answer => simp [hprogress, Progress.isRunning] at hentry

theorem length_answersOf_finish :
    ((knowledge.finish target arguments memo summary).answersOf other).length =
      (knowledge.answersOf other).length + if target = other then 1 else 0 := by
  have hadded : (knowledge.addSummary summary).2.memos[target.index]? = some memo := hheld
  rw [finish, answersOf_setMemo hadded]
  split
  · rename_i heq
    rw [(answers_finish hsound hheld hstarted hrunning harguments).length_eq, ← heq, answersOf,
      hheld]
    rfl
  · rfl

theorem completed_finish :
    (knowledge.finish target arguments memo summary).completed.Perm
      (⟨knowledge.summaries.size⟩ :: knowledge.completed) :=
  have hadded : (knowledge.addSummary summary).2.memos[target.index]? = some memo := hheld
  completed_setMemo hadded [_]
    (answers_finish hsound hheld hstarted hrunning harguments)

/-- The calls of the new summary are recorded. -/
theorem callsTo_finish :
    (knowledge.finish target arguments memo summary).callsTo other =
      knowledge.callsTo other + summary.calls.countP fun call => call.target = other := by
  have hperm := completed_finish hsound hheld hstarted hrunning harguments summary
  have hgrows : knowledge.Grows (knowledge.finish target arguments memo summary) :=
    grows_finish hsound hheld hstarted hrunning harguments
  have hold : ∀ id ∈ knowledge.completed,
      (knowledge.finish target arguments memo summary).callsOf id = knowledge.callsOf id := by
    intro id hmem
    exact callsOf_eq_of_summaries hgrows.summaries (hsound.index_lt_of_mem_completed hmem)
  rw [callsTo, (hperm.flatMap_right _).countP_eq, List.flatMap_cons, List.countP_append, callsOf_finish,
    List.flatMap_congr hold, Nat.add_comm]
  rfl

end Finish

/-- The calls recorded in the body come to stand in its summary, and what is left is the call for
which the body was analyzed. -/
theorem Balances.answered {ended : Memo SummaryId} {started : MemoEntry SummaryId}
    {summary : Summary} (hheld : knowledge.memos[target.index]? = some memo)
    (hmissing : memo.find? knowledge.graph arguments = none) (hlater : later.Sound declarations)
    (hended : later.memos[target.index]? = some ended) (hstarted : started ∈ ended.entries)
    (hrunning : started.progress = .running) (harguments : started.arguments = arguments)
    (hbody : (knowledge.begin target arguments memo).Balances later
      (summary.calls.map CallRecord.answer)) :
    knowledge.Balances (later.finish target arguments ended summary)
      [(target, ⟨later.summaries.size⟩)] where
  summaries id held hsummary :=
    (grows_finish hlater hended hstarted hrunning harguments).summaries id held
      (hbody.summaries id held hsummary)
  recursive other := by
    rw [counts_finish hended, hbody.recursive, counts_begin hheld hmissing]
  misses other := by
    have hmisses := hbody.misses other
    rw [counts_begin hheld hmissing, answersOf_begin hheld] at hmisses
    rw [counts_finish hended,
      length_answersOf_finish hlater hended hstarted hrunning harguments]
    dsimp only at hmisses
    omega
  lookups other := by
    have hlookups := hbody.lookups other
    have hcalls : (knowledge.begin target arguments memo).callsTo other =
        knowledge.callsTo other :=
      callsTo_eq_of_perm (completed_begin hheld) fun _ _ => rfl
    have hbegun := @counts_begin knowledge target other arguments memo hheld hmissing
    have hrecorded := @callsTo_finish _ later target other arguments ended hlater hended started
      hstarted hrunning harguments summary
    rw [hcalls, hbegun, CallRecord.countP_answer] at hlookups
    rw [counts_finish hended, hrecorded, List.countP_singleton]
    simp only [decide_eq_true_eq] at hlookups ⊢
    omega
  news id hmem := by
    have hperm := completed_finish hlater hended hstarted hrunning harguments summary
    have hgrows : later.Grows (later.finish target arguments ended summary) :=
      grows_finish hlater hended hstarted hrunning harguments
    rcases List.mem_cons.mp (hperm.mem_iff.mp hmem) with rfl | hmem
    · exact Or.inr ⟨_, List.mem_singleton_self _, .refl⟩
    · refine (hbody.news id hmem).imp (completed_begin hheld).mem_iff.mp fun hnew => ?_
      obtain ⟨answer, hanswer, hleads⟩ := hnew
      obtain ⟨call, hcall, rfl⟩ := List.mem_map.mp hanswer
      refine ⟨_, List.mem_singleton_self _, .head ⟨call, ?_, rfl⟩ (hleads.mono hgrows.summaries)⟩
      rwa [callsOf_finish]

end Knowledge

/-! ## Analyses -/

/-- Whatever an analysis answers, it leaves its own call to be recorded. -/
theorem analyze_accounted (limit room : Nat) :
    ((analyze declarations limit room).guarded declarations).Accounted := by
  induction room using Nat.strongRecOn with
  | ind room ih =>
    intro target arguments knowledge id later hanswer
    obtain ⟨hsound, hhas, hrun⟩ := Analyst.guarded_eq_ok hanswer
    have hgoes : Task.Goes declarations limit room ⟨target, arguments⟩ knowledge
      (Task.analyze declarations limit room ⟨target, arguments⟩ knowledge) :=
      Task.goes hsound hhas limit room
    rw [show Task.analyze declarations limit room ⟨target, arguments⟩ knowledge = _ from hrun]
      at hgoes
    cases hgoes with
    | known memo id hheld hfound => exact Knowledge.balances_look hheld hfound
    | answered definition memo ended left summary later hopens hroom hbody hended hstarted =>
      have hbegun := hsound.begin hopens.held hhas hopens.missing
      obtain ⟨-, hlater⟩ := hopens.summarize_learns hsound hhas limit left
      rw [hbody] at hlater
      have hbalances := summarize_balances (ih left (by omega))
        ((summarize_guarded (analyze_sound limit left) hbegun hhas).trans hbody)
      exact hbalances.answered hopens.held hopens.missing hlater hended hstarted rfl rfl

/-! ## Inference -/

theorem declarations_of_infer {program : Program} {limit : Nat} {id : SummaryId} {engine : Engine}
    (hinfer : infer program limit = .ok (id, engine)) :
    engine.declarations = .ofProgram program := by
  unfold infer at hinfer
  split at hinfer
  · rename_i found reached hmain
    cases hinfer
    exact (congrArg (·.2.declarations) hmain).symm.trans
      (Engine.declarations_analyze (.ofProgram program limit) _ [])
  · exact nomatch hinfer

/-- All that is left when a program is accepted is the call of the main body. -/
theorem balances_of_infer {program : Program} {limit : Nat} {id : SummaryId} {engine : Engine}
    (hinfer : infer program limit = .ok (id, engine)) :
    (Knowledge.initial (.ofProgram program)).Balances engine.knowledge
      [((Declarations.ofProgram program).main, id)] := by
  refine @analyze_accounted (.ofProgram program) limit limit _ [] _ _ _ ?_
  rw [Analyst.guarded, if_pos ⟨Engine.sound_initial _, List.forall_mem_nil _⟩]
  exact analyze_of_infer hinfer

namespace Knowledge

theorem memo_of_initial {target : DefId} {memo : Memo SummaryId}
    (hmemo : (initial declarations).memos[target.index]? = some memo) : memo = {} := by
  simp only [initial, Array.getElem?_map, Option.map_eq_some_iff] at hmemo
  obtain ⟨_, -, rfl⟩ := hmemo
  rfl

theorem counts_initial (target : DefId) : (initial declarations).counts target = {} := by
  unfold counts
  cases hmemo : (initial declarations).memos[target.index]? with
  | none => rfl
  | some memo => rw [memo_of_initial hmemo]; rfl

theorem answersOf_initial (target : DefId) : (initial declarations).answersOf target = [] := by
  unfold answersOf
  cases hmemo : (initial declarations).memos[target.index]? with
  | none => rfl
  | some memo => rw [memo_of_initial hmemo]; rfl

theorem completed_initial : (initial declarations).completed = [] := by
  refine List.eq_nil_iff_forall_not_mem.mpr fun id hmem => ?_
  simpa [initial] using (Engine.sound_initial declarations).index_lt_of_mem_completed hmem

end Knowledge

/-- When a program is accepted, the memo of each definition has found no analysis running, has
missed once for each of its answers, and has been looked up once for each recorded call of the
definition, and once more if it is the main body.  All answers are reached from that of the main
body by recorded calls. -/
theorem infer_balances {program : Program} {limit : Nat} {id : SummaryId} {engine : Engine}
    (hinfer : infer program limit = .ok (id, engine)) :
    (∀ target definition, engine.declarations.definition? target = some definition →
      ∃ memo, engine.knowledge.memos[target.index]? = some memo ∧
        memo.counts.recursive = 0 ∧
        memo.counts.misses = (engine.summaries target).length ∧
        memo.counts.hits + memo.counts.misses = engine.knowledge.callsTo target +
          if target = engine.declarations.main then 1 else 0) ∧
    id ∈ engine.summaries engine.declarations.main ∧
    ∀ target, ∀ other ∈ engine.summaries target, engine.knowledge.CallsInto id other := by
  have hbalances := balances_of_infer hinfer
  have hdeclarations := declarations_of_infer hinfer
  have hends := analyze_sound limit limit (Declarations.ofProgram program).main [] _
    (Engine.sound_initial (.ofProgram program)) (List.forall_mem_nil _)
  rw [analyze_of_infer hinfer] at hends
  obtain ⟨-, hknown, hanswers⟩ := hends
  refine ⟨fun target definition hdefinition => ?_, ?_, fun target other hmem => ?_⟩
  · rw [hdeclarations] at hdefinition ⊢
    obtain ⟨memo, hheld⟩ := hknown.exists_memo hdefinition
    have hcounts : engine.knowledge.counts target = memo.counts := by
      rw [Knowledge.counts, hheld]
      rfl
    have hrecursive := hbalances.recursive target
    have hmisses := hbalances.misses target
    have hlookups := hbalances.lookups target
    have hnone : (Knowledge.initial (.ofProgram program)).callsTo target = 0 := by
      rw [Knowledge.callsTo, Knowledge.completed_initial]
      rfl
    rw [Knowledge.counts_initial, hcounts] at hrecursive hmisses hlookups
    rw [Knowledge.answersOf_initial] at hmisses
    rw [hnone, List.countP_singleton] at hlookups
    simp only [decide_eq_true_eq, @eq_comm _ _ target] at hlookups
    refine ⟨memo, hheld, hrecursive, ?_, ?_⟩
    · show memo.counts.misses = (engine.knowledge.answersOf target).length
      simpa using hmisses
    · simpa using hlookups
  · obtain ⟨entry, ⟨memo, hheld, hentry⟩, hdone, -⟩ := hanswers
    rw [hdeclarations, Engine.summaries, hheld]
    exact Memo.mem_answers_iff.mpr ⟨entry, hentry, hdone⟩
  · have hcompleted : other ∈ engine.knowledge.completed := by
      unfold Engine.summaries at hmem
      cases hheld : engine.knowledge.memos[target.index]? with
      | none => simp [hheld] at hmem
      | some memo =>
        rw [hheld] at hmem
        refine List.mem_flatMap.mpr ⟨memo, ?_, hmem⟩
        exact List.mem_of_getElem? (by rwa [Array.getElem?_toList])
    rcases hbalances.news other hcompleted with hold | ⟨answer, hanswer, hleads⟩
    · rw [Knowledge.completed_initial] at hold
      exact nomatch hold
    · obtain rfl := List.mem_singleton.mp hanswer
      exact hleads

/-- Cells that a function makes, which is called twice by another function and once more by the main
body. -/
def cellProgram : Program where
  classes := [{
    name := "Cell"
    fields := [.field "@v"]
    methods := [{ name := "initialize", parameters := ["v"],
                  body := [.write {} (.this {}) (.field "@v") (.name {} "v")] }] }]
  functions := [
    { name := "make", parameters := ["v"], body := [.create {} "Cell" [.name {} "v"]] },
    { name := "pair", parameters := ["v"],
      body := [.apply {} "make" [.name {} "v"], .apply {} "make" [.name {} "v"]] }]
  main := [.apply {} "pair" [.integer {} 1], .apply {} "make" [.integer {} 2]]

/-- What an accepted program has counted and recorded for a definition. -/
def booksOf (program : Program) (limit : Nat) (target : DefId) :
    Option (MemoCounts × Nat × List SummaryId) :=
  (infer program limit).toOption.map fun result => (result.2.knowledge.counts target,
    result.2.knowledge.callsTo target, result.2.summaries target)

/-- The function that makes cells is analyzed once and looked up for each of its three calls, and
the method that sets up cells is reached from the main body. -/
theorem infer_cellProgram_balances : ∃ id engine, infer cellProgram 4 = .ok (id, engine) ∧
    engine.knowledge.counts ⟨3⟩ = { hits := 2, misses := 1 } ∧
    engine.knowledge.callsTo ⟨3⟩ = 3 ∧
    (∃ memo, engine.knowledge.memos[3]? = some memo ∧ memo.counts.recursive = 0 ∧
      memo.counts.misses = (engine.summaries ⟨3⟩).length) ∧
    id ∈ engine.summaries engine.declarations.main ∧
    ∀ other ∈ engine.summaries ⟨2⟩, engine.knowledge.CallsInto id other := by
  have hshown : booksOf cellProgram 4 ⟨3⟩ = some ({ hits := 2, misses := 1 }, 3, [⟨1⟩]) := by
    decide +kernel
  unfold booksOf at hshown
  cases hinfer : infer cellProgram 4 with
  | error failure => exact nomatch (hinfer ▸ hshown)
  | ok result =>
    obtain ⟨id, engine⟩ := result
    rw [hinfer] at hshown
    obtain ⟨hcounts, hrest⟩ := Prod.mk.inj (Option.some.inj hshown)
    obtain ⟨hcalls, -⟩ := Prod.mk.inj hrest
    obtain ⟨hmemos, hmain, hleads⟩ := infer_balances hinfer
    have hdefined : ((Declarations.ofProgram cellProgram).definition? ⟨3⟩).isSome = true := by
      decide +kernel
    obtain ⟨definition, hdefinition⟩ := Option.isSome_iff_exists.mp hdefined
    rw [← declarations_of_infer hinfer] at hdefinition
    obtain ⟨memo, hheld, hrecursive, hmisses, -⟩ := hmemos ⟨3⟩ definition hdefinition
    exact ⟨id, engine, rfl, hcounts, hcalls, ⟨memo, hheld, hrecursive, hmisses⟩, hmain, hleads ⟨2⟩⟩

end ShapeFlow
