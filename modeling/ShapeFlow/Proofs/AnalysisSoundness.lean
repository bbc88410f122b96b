import ShapeFlow.Proofs.BodySoundness

/-!
# Analyses keep knowledge sound

The analysis of a definition looks its argument types up, and if there is no entry for them it
makes one, analyzes the body, and then either gives the entry its answer or forgets it.  In
between the entry is running, and it stays the only one for argument types with these
unfoldings, so what happens at the end concerns just this entry.

The analysis of a body trusts the analyses of its callees, which have less room, so the proof is
by induction on the room (`analyze_sound`).
-/

namespace ShapeFlow

variable {declarations : Declarations} {knowledge : Knowledge} {target : DefId}
  {definition : Definition} {arguments : List TypeId} {memo : Memo SummaryId}

/-! ## What an analysis comes to -/

section Outcomes

theorem withMemo_eq {α : Type} (hmemo : knowledge.memos[target.index]? = some memo)
    (change : TypeGraph → Memo SummaryId → α × Memo SummaryId) :
    withMemo target change knowledge =
      .ok (change knowledge.graph memo).1
        (knowledge.setMemo target (change knowledge.graph memo).2) := by
  have hlooked : withMemo target change knowledge =
      ((liftM (knowledge.memo target) : Knowing (Memo SummaryId)) >>= fun memo => do
        set (knowledge.setMemo target (change knowledge.graph memo).2)
        pure (change knowledge.graph memo).1) knowledge := rfl
  rw [hlooked, Knowledge.memo, hmemo]
  rfl

theorem withMemo_eq_error {α : Type} (hnone : knowledge.memos[target.index]? = none)
    (change : TypeGraph → Memo SummaryId → α × Memo SummaryId) :
    withMemo target change knowledge = .error (.broken (.definition target)) knowledge := by
  have hlooked : withMemo target change knowledge =
      ((liftM (knowledge.memo target) : Knowing (Memo SummaryId)) >>= fun memo => do
        set (knowledge.setMemo target (change knowledge.graph memo).2)
        pure (change knowledge.graph memo).1) knowledge := rfl
  rw [hlooked, Knowledge.memo, hnone]
  rfl

/-- The look-up of the argument types has been counted. -/
def Knowledge.look (knowledge : Knowledge) (target : DefId) (arguments : List TypeId)
    (memo : Memo SummaryId) : Knowledge :=
  knowledge.setMemo target (memo.lookup knowledge.graph arguments).2

/-- The analysis of the body has succeeded. -/
def Knowledge.finish (knowledge : Knowledge) (target : DefId) (arguments : List TypeId)
    (memo : Memo SummaryId) (summary : Summary) : Knowledge :=
  (knowledge.addSummary summary).2.setMemo target
    (memo.finish knowledge.graph arguments ⟨knowledge.summaries.size⟩)

/-- The analysis of the body has failed. -/
def Knowledge.forget (knowledge : Knowledge) (target : DefId) (arguments : List TypeId)
    (memo : Memo SummaryId) : Knowledge :=
  knowledge.setMemo target (memo.abort knowledge.graph arguments)

/-- The analysis for the argument types has begun. -/
def Knowledge.begin (knowledge : Knowledge) (target : DefId) (arguments : List TypeId)
    (memo : Memo SummaryId) : Knowledge :=
  knowledge.setMemo target
    ((memo.lookup knowledge.graph arguments).2.start knowledge.graph arguments)

theorem memos_setMemo_self (hmemo : knowledge.memos[target.index]? = some memo)
    (changed : Memo SummaryId) :
    (knowledge.setMemo target changed).memos[target.index]? = some changed := by
  obtain ⟨hlt, -⟩ := Array.getElem?_eq_some_iff.mp hmemo
  simp [Knowledge.setMemo, hlt]

theorem memos_setMemo_of_ne {other : DefId} (hne : other ≠ target) (changed : Memo SummaryId) :
    (knowledge.setMemo target changed).memos[other.index]? = knowledge.memos[other.index]? := by
  have hindex : target.index ≠ other.index := by
    intro hindex
    obtain ⟨index⟩ := target
    obtain ⟨otherIndex⟩ := other
    exact hne (congrArg DefId.mk hindex.symm)
  simp [Knowledge.setMemo, hindex]

variable {limit room : Nat}

theorem analyze_of_definition?_eq_none (hnone : declarations.definition? target = none) :
    analyze declarations limit room target arguments knowledge =
      .error (.broken (.definition target)) knowledge := by
  unfold analyze Declarations.definition
  rw [hnone]
  rfl

theorem analyze_of_arity_ne (hdefinition : declarations.definition? target = some definition)
    (harity : definition.arity ≠ arguments.length) :
    analyze declarations limit room target arguments knowledge =
      .error (.rejected (.cause (.arityMismatch definition.qualifiedName definition.arity
        arguments.length))) knowledge := by
  unfold analyze Declarations.definition
  rw [hdefinition]
  simp only [found, liftM, monadLift, MonadLift.monadLift, Bind.bind, EStateM.bind,
    Checked.keep_ok]
  rw [if_pos harity]
  rfl

variable (hdefinition : declarations.definition? target = some definition)
  (harity : definition.arity = arguments.length)

include hdefinition harity

theorem analyze_of_memo_eq_none (hnone : knowledge.memos[target.index]? = none) :
    analyze declarations limit room target arguments knowledge =
      .error (.broken (.definition target)) knowledge := by
  unfold analyze Declarations.definition
  rw [hdefinition]
  simp only [found, liftM, monadLift, MonadLift.monadLift, Bind.bind, EStateM.bind,
    Checked.keep_ok]
  rw [if_neg (not_not.mpr harity)]
  simp only [EStateM.bind, withMemo_eq_error hnone]

variable (hmemo : knowledge.memos[target.index]? = some memo)

include hmemo

/-- After the checks, an analysis goes by what it finds for its argument types. -/
theorem analyze_eq_of_found : analyze declarations limit room target arguments knowledge =
    (match memo.find? knowledge.graph arguments with
    | some (.done id) => pure id
    | some .running => do
      reject (.recursiveSignature ((← get).renderSignature ⟨definition.qualifiedName, arguments⟩))
    | none =>
      match room with
      | 0 => do
        reject (.depthExceeded
          ((← get).renderSignature ⟨definition.qualifiedName, arguments⟩) limit)
      | room + 1 => do
        withMemo target fun graph memo => ((), memo.start graph arguments)
        match ← observe (summarize (analyze declarations limit room) declarations definition
            ⟨definition.qualifiedName, arguments⟩) with
        | .ok summary =>
          let id ← modifyGet (Knowledge.addSummary summary)
          withMemo target fun graph memo => ((), memo.finish graph arguments id)
          pure id
        | .error failure =>
          withMemo target fun graph memo => ((), memo.abort graph arguments)
          throw (failure.within
            ((← get).renderSignature ⟨definition.qualifiedName, arguments⟩)) :
      Knowing SummaryId) (knowledge.look target arguments memo) := by
  unfold analyze Declarations.definition
  rw [hdefinition]
  simp only [found, liftM, monadLift, MonadLift.monadLift, Bind.bind, EStateM.bind,
    Checked.keep_ok]
  rw [if_neg (not_not.mpr harity)]
  simp only [EStateM.bind, withMemo_eq hmemo]
  rfl

theorem analyze_of_done {id : SummaryId}
    (hfound : memo.find? knowledge.graph arguments = some (.done id)) :
    analyze declarations limit room target arguments knowledge =
      .ok id (knowledge.look target arguments memo) := by
  rw [analyze_eq_of_found hdefinition harity hmemo, hfound]
  rfl

theorem analyze_of_running (hfound : memo.find? knowledge.graph arguments = some .running) :
    analyze declarations limit room target arguments knowledge =
      .error (.rejected (.cause (.recursiveSignature
        ((knowledge.look target arguments memo).renderSignature
          ⟨definition.qualifiedName, arguments⟩)))) (knowledge.look target arguments memo) := by
  rw [analyze_eq_of_found hdefinition harity hmemo, hfound]
  rfl

variable (hfound : memo.find? knowledge.graph arguments = none)

include hfound

theorem analyze_zero : analyze declarations limit 0 target arguments knowledge =
    .error (.rejected (.cause (.depthExceeded
      ((knowledge.look target arguments memo).renderSignature
        ⟨definition.qualifiedName, arguments⟩) limit))) (knowledge.look target arguments memo) := by
  rw [analyze_eq_of_found hdefinition harity hmemo, hfound]
  rfl

/-- With room left and nothing found, the body is analyzed. -/
theorem analyze_of_missing : analyze declarations limit (room + 1) target arguments knowledge =
    (do
      match ← observe (summarize (analyze declarations limit room) declarations definition
          ⟨definition.qualifiedName, arguments⟩) with
      | .ok summary =>
        let id ← modifyGet (Knowledge.addSummary summary)
        withMemo target fun graph memo => ((), memo.finish graph arguments id)
        pure id
      | .error failure =>
        withMemo target fun graph memo => ((), memo.abort graph arguments)
        throw (failure.within
          ((← get).renderSignature ⟨definition.qualifiedName, arguments⟩)) :
    Knowing SummaryId) (knowledge.begin target arguments memo) := by
  have hlook : (knowledge.look target arguments memo).memos[target.index]? =
      some (memo.lookup knowledge.graph arguments).2 := memos_setMemo_self hmemo _
  have hbegin : (knowledge.look target arguments memo).setMemo target
      ((memo.lookup knowledge.graph arguments).2.start knowledge.graph arguments) =
        knowledge.begin target arguments memo := by
    simp [Knowledge.look, Knowledge.begin, Knowledge.setMemo]
  rw [analyze_eq_of_found hdefinition harity hmemo, hfound]
  simp only [Bind.bind, EStateM.bind, withMemo_eq hlook]
  rw [show (knowledge.look target arguments memo).graph = knowledge.graph from rfl, hbegin]

variable {ended : Knowledge} {memo' : Memo SummaryId}
  (hended : ended.memos[target.index]? = some memo')

include hended

/-- The body was analyzed, and the entry gets its answer. -/
theorem analyze_of_ok {summary : Summary}
    (hsummarize : summarize (analyze declarations limit room) declarations definition
      ⟨definition.qualifiedName, arguments⟩ (knowledge.begin target arguments memo) =
        .ok summary ended) :
    analyze declarations limit (room + 1) target arguments knowledge =
      .ok ⟨ended.summaries.size⟩ (ended.finish target arguments memo' summary) := by
  have hadded : (ended.addSummary summary).2.memos[target.index]? = some memo' := hended
  have hnumber : (modifyGet (Knowledge.addSummary summary) : Knowing SummaryId) ended =
      .ok ⟨ended.summaries.size⟩ (ended.addSummary summary).2 := rfl
  rw [analyze_of_missing hdefinition harity hmemo hfound]
  simp only [Bind.bind, EStateM.bind, observe, hsummarize, hnumber, withMemo_eq hadded]
  rfl

/-- The analysis of the body failed, and the entry is forgotten. -/
theorem analyze_of_error {failure : Failure}
    (hsummarize : summarize (analyze declarations limit room) declarations definition
      ⟨definition.qualifiedName, arguments⟩ (knowledge.begin target arguments memo) =
        .error failure ended) :
    analyze declarations limit (room + 1) target arguments knowledge =
      .error (failure.within ((ended.forget target arguments memo').renderSignature
        ⟨definition.qualifiedName, arguments⟩)) (ended.forget target arguments memo') := by
  rw [analyze_of_missing hdefinition harity hmemo hfound]
  simp only [Bind.bind, EStateM.bind, observe, hsummarize, withMemo_eq hended]
  rfl

end Outcomes

/-! ## Entries -/

namespace Knowledge

variable {other : DefId} {entry : MemoEntry SummaryId}

theorem hasEntry_setMemo_iff (hmemo : knowledge.memos[target.index]? = some memo)
    (changed : Memo SummaryId) : (knowledge.setMemo target changed).HasEntry other entry ↔
      other = target ∧ entry ∈ changed.entries ∨
        other ≠ target ∧ knowledge.HasEntry other entry := by
  by_cases heq : other = target
  · subst heq
    simp [HasEntry, memos_setMemo_self hmemo]
  · simp [HasEntry, memos_setMemo_of_ne heq, heq]

theorem hasEntry_iff_mem (hmemo : knowledge.memos[target.index]? = some memo) :
    knowledge.HasEntry target entry ↔ entry ∈ memo.entries := by
  simp [HasEntry, hmemo]

/-- The entry of an analysis that begins. -/
def startedEntry (graph : TypeGraph) (arguments : List TypeId) : MemoEntry SummaryId :=
  ⟨arguments, Memo.keyOf graph arguments, .running⟩

theorem hasEntry_begin_iff (hmemo : knowledge.memos[target.index]? = some memo) :
    (knowledge.begin target arguments memo).HasEntry other entry ↔
      knowledge.HasEntry other entry ∨
        other = target ∧ entry = startedEntry knowledge.graph arguments := by
  rw [begin, hasEntry_setMemo_iff hmemo, Memo.start, List.mem_append, List.mem_singleton,
    Memo.entries_lookup, startedEntry]
  by_cases heq : other = target
  · subst heq
    simp [hasEntry_iff_mem hmemo]
  · simp [heq]

theorem hasEntry_look_iff (hmemo : knowledge.memos[target.index]? = some memo) :
    (knowledge.look target arguments memo).HasEntry other entry ↔
      knowledge.HasEntry other entry := by
  rw [look, hasEntry_setMemo_iff hmemo, Memo.entries_lookup]
  by_cases heq : other = target
  · subst heq
    simp [hasEntry_iff_mem hmemo]
  · simp [heq]

section Ends

variable (hsound : knowledge.Sound declarations)
  (hmemo : knowledge.memos[target.index]? = some memo) {started : MemoEntry SummaryId}
  (hstarted : started ∈ memo.entries) (hrunning : started.progress = .running)
  (harguments : started.arguments = arguments)

include hsound hmemo hstarted hrunning harguments

theorem hasEntry_forget_iff :
    (knowledge.forget target arguments memo).HasEntry other entry ↔
      knowledge.HasEntry other entry ∧ ¬ (other = target ∧ entry = started) := by
  subst harguments
  rw [forget, hasEntry_setMemo_iff hmemo, Memo.mem_abort_iff hsound.graph.closed
    (hsound.memos target memo hmemo) hstarted hrunning]
  by_cases heq : other = target
  · subst heq
    simp [hasEntry_iff_mem hmemo]
  · simp [heq]

theorem hasEntry_finish_iff (summary : Summary) :
    (knowledge.finish target arguments memo summary).HasEntry other entry ↔
      other = target ∧ entry = { started with progress := .done ⟨knowledge.summaries.size⟩ } ∨
        knowledge.HasEntry other entry ∧ ¬ (other = target ∧ entry = started) := by
  subst harguments
  have hadded : (knowledge.addSummary summary).2.memos[target.index]? = some memo := hmemo
  rw [finish, hasEntry_setMemo_iff hadded, Memo.mem_finish_iff hsound.graph.closed
    (hsound.memos target memo hmemo) hstarted hrunning]
  by_cases heq : other = target
  · subst heq
    simp [hasEntry_iff_mem hmemo]
  · simp [heq, HasEntry, addSummary]

end Ends

/-! ## What is kept -/

theorem Sound.setMemo (hsound : knowledge.Sound declarations)
    (hmemo : knowledge.memos[target.index]? = some memo) {changed : Memo SummaryId}
    (hchanged : changed.Sound knowledge.graph)
    (hanswers : ∀ entry ∈ changed.entries, ∀ id, entry.progress = .done id →
      ∃ definition summary, declarations.definition? target = some definition ∧
        knowledge.summaries[id.index]? = some summary ∧ summary.Summarizes definition ∧
          summary.signature.arguments = entry.arguments) :
    (knowledge.setMemo target changed).Sound declarations where
  graph := hsound.graph
  size := by
    rw [← hsound.size, Knowledge.setMemo, Array.size_setIfInBounds]
  summaries := hsound.summaries
  memos other held hheld := by
    by_cases heq : other = target
    · subst heq
      rw [memos_setMemo_self hmemo, Option.some.injEq] at hheld
      exact hheld ▸ hchanged
    · rw [memos_setMemo_of_ne heq] at hheld
      exact hsound.memos other held hheld
  answers other entry id hentry hdone := by
    rcases (hasEntry_setMemo_iff hmemo changed).mp hentry with hself | hother
    · obtain ⟨rfl, hmem⟩ := hself
      exact hanswers entry hmem id hdone
    · exact hsound.answers other entry id hother.2 hdone

theorem Sound.look (hsound : knowledge.Sound declarations)
    (hmemo : knowledge.memos[target.index]? = some memo) (arguments : List TypeId) :
    (knowledge.look target arguments memo).Sound declarations :=
  have hheld := hsound.memos target memo hmemo
  hsound.setMemo hmemo ⟨hheld.entries, hheld.apart⟩ fun entry hmem id hdone =>
    hsound.answers target entry id ⟨memo, hmemo, hmem⟩ hdone

theorem Sound.begin (hsound : knowledge.Sound declarations)
    (hmemo : knowledge.memos[target.index]? = some memo)
    (hhas : ∀ type ∈ arguments, knowledge.graph.Has type)
    (hfound : memo.find? knowledge.graph arguments = none) :
    (knowledge.begin target arguments memo).Sound declarations := by
  have hheld := hsound.memos target memo hmemo
  have hlooked : (memo.lookup knowledge.graph arguments).2.Sound knowledge.graph :=
    ⟨hheld.entries, hheld.apart⟩
  refine hsound.setMemo hmemo
    (Memo.sound_start hsound.graph.closed hlooked hhas hfound) fun entry hmem id hdone => ?_
  rcases List.mem_append.mp hmem with hmem | hmem
  · exact hsound.answers target entry id ⟨memo, hmemo, hmem⟩ hdone
  · obtain rfl := List.mem_singleton.mp hmem
    exact nomatch hdone

theorem Sound.forget (hsound : knowledge.Sound declarations)
    (hmemo : knowledge.memos[target.index]? = some memo) (arguments : List TypeId) :
    (knowledge.forget target arguments memo).Sound declarations :=
  hsound.setMemo hmemo (Memo.sound_abort (hsound.memos target memo hmemo) arguments)
    fun entry hmem id hdone =>
      hsound.answers target entry id ⟨memo, hmemo, (List.mem_filter.mp hmem).1⟩ hdone

theorem grows_addSummary (knowledge : Knowledge) (summary : Summary) :
    knowledge.Grows (knowledge.addSummary summary).2 where
  graph := .refl knowledge.graph
  summaries id held hheld := by
    have hlt := (Array.getElem?_eq_some_iff.mp hheld).1
    simp only [addSummary]
    rw [Array.getElem?_push_lt hlt, (Array.getElem?_eq_some_iff.mp hheld).2]
  answers _ _ _ hentry _ := hentry

theorem Sound.addSummary (hsound : knowledge.Sound declarations) {summary : Summary}
    (hwell : summary.WellFormed knowledge.graph)
    (hsummarizes : ∃ definition ∈ declarations.definitions, summary.Summarizes definition) :
    (knowledge.addSummary summary).2.Sound declarations where
  graph := hsound.graph
  size := hsound.size
  summaries id held hheld := by
    simp only [Knowledge.addSummary, Array.getElem?_push] at hheld
    split at hheld
    · obtain rfl := Option.some.inj hheld
      exact ⟨hwell, hsummarizes⟩
    · exact hsound.summaries id held hheld
  memos := hsound.memos
  answers other entry id hentry hdone := by
    obtain ⟨definition, held, hdefinition, hheld, hholds⟩ :=
      hsound.answers other entry id hentry hdone
    exact ⟨definition, held, hdefinition,
      (grows_addSummary knowledge summary).summaries id.index held hheld, hholds⟩

section Finish

variable (hsound : knowledge.Sound declarations)
  (hmemo : knowledge.memos[target.index]? = some memo) {started : MemoEntry SummaryId}
  (hstarted : started ∈ memo.entries) (hrunning : started.progress = .running)
  (harguments : started.arguments = arguments) {summary : Summary}

include hsound hmemo hstarted hrunning harguments

theorem Sound.finish (hwell : summary.WellFormed knowledge.graph)
    (hdefinition : declarations.definition? target = some definition)
    (hsummarizes : summary.Summarizes definition)
    (hsignature : summary.signature.arguments = arguments) :
    (knowledge.finish target arguments memo summary).Sound declarations := by
  subst harguments
  have hadded := hsound.addSummary hwell
    ⟨definition, Array.mem_of_getElem? hdefinition, hsummarizes⟩
  have hheld := hsound.memos target memo hmemo
  refine hadded.setMemo hmemo (Memo.sound_finish hsound.graph.closed hheld hstarted hrunning _)
    fun entry hmem id hdone => ?_
  rcases (Memo.mem_finish_iff hsound.graph.closed hheld hstarted hrunning _).mp hmem with
    rfl | hkept
  · obtain rfl := Progress.done.inj hdone
    exact ⟨definition, summary, hdefinition, by simp [Knowledge.addSummary], hsummarizes,
      hsignature⟩
  · exact hadded.answers target entry id ⟨memo, hmemo, hkept.1⟩ hdone

theorem grows_finish :
    knowledge.Grows (knowledge.finish target arguments memo summary) where
  graph := .refl knowledge.graph
  summaries := (grows_addSummary knowledge summary).summaries
  answers other entry id hentry hdone := by
    refine (hasEntry_finish_iff hsound hmemo hstarted hrunning harguments summary).mpr
      (Or.inr ⟨hentry, ?_⟩)
    intro heq
    rw [heq.2, hrunning] at hdone
    exact nomatch hdone

theorem grows_forget : knowledge.Grows (knowledge.forget target arguments memo) where
  graph := .refl knowledge.graph
  summaries _ _ hsummary := hsummary
  answers other entry id hentry hdone := by
    refine (hasEntry_forget_iff hsound hmemo hstarted hrunning harguments).mpr
      ⟨hentry, fun heq => ?_⟩
    rw [heq.2, hrunning] at hdone
    exact nomatch hdone

end Finish

theorem learns_look (hmemo : knowledge.memos[target.index]? = some memo)
    (arguments : List TypeId) :
    knowledge.Learns declarations (knowledge.look target arguments memo) where
  graph := .refl knowledge.graph
  summaries _ _ hsummary := hsummary
  answers _ _ _ hentry _ := (hasEntry_look_iff hmemo).mpr hentry
  running _ _ _ := hasEntry_look_iff hmemo
  news _ _ _ hentry _ := Or.inl ((hasEntry_look_iff hmemo).mp hentry)

/-- Beginning an analysis adds its entry and nothing else. -/
theorem grows_begin (hmemo : knowledge.memos[target.index]? = some memo)
    (arguments : List TypeId) : knowledge.Grows (knowledge.begin target arguments memo) where
  graph := .refl knowledge.graph
  summaries _ _ hsummary := hsummary
  answers _ _ _ hentry _ := (hasEntry_begin_iff hmemo).mpr (Or.inl hentry)

section Body

variable {ended : Knowledge} {memo' : Memo SummaryId} (hsound : knowledge.Sound declarations)
  (hmemo : knowledge.memos[target.index]? = some memo)
  (hhas : ∀ type ∈ arguments, knowledge.graph.Has type)
  (hfound : memo.find? knowledge.graph arguments = none)
  (hlearns : (knowledge.begin target arguments memo).Learns declarations ended)

include hmemo hlearns in
/-- The entry still stands in the memo when the analysis of the body has ended. -/
theorem exists_memo_of_begin : ∃ memo', ended.memos[target.index]? = some memo' ∧
    startedEntry knowledge.graph arguments ∈ memo'.entries :=
  (hlearns.running target (startedEntry knowledge.graph arguments) rfl).mpr
    ((hasEntry_begin_iff hmemo).mpr (Or.inr ⟨rfl, rfl⟩))

include hsound hmemo hhas hfound in
theorem not_hasEntry_startedEntry :
    ¬ knowledge.HasEntry target (startedEntry knowledge.graph arguments) := by
  intro hentry
  rw [hasEntry_iff_mem hmemo] at hentry
  exact Memo.unlike_of_find? hsound.graph.closed (hsound.memos target memo hmemo) hhas hfound hentry
    (.refl hsound.graph.closed hhas)

/-- What is running once the entry is gone was running before it was made. -/
theorem running_of_begin (hsound : knowledge.Sound declarations)
    (hmemo : knowledge.memos[target.index]? = some memo)
    (hhas : ∀ type ∈ arguments, knowledge.graph.Has type)
    (hfound : memo.find? knowledge.graph arguments = none)
    (hlearns : (knowledge.begin target arguments memo).Learns declarations ended)
    (hrunning : entry.progress = .running) :
    (ended.HasEntry other entry ∧
      ¬ (other = target ∧ entry = startedEntry knowledge.graph arguments)) ↔
      knowledge.HasEntry other entry := by
  rw [hlearns.running other entry hrunning, hasEntry_begin_iff hmemo]
  constructor
  · intro hentry
    exact hentry.1.resolve_right hentry.2
  · intro hentry
    refine ⟨Or.inl hentry, fun heq => ?_⟩
    obtain ⟨rfl, rfl⟩ := heq
    exact not_hasEntry_startedEntry hsound hmemo hhas hfound hentry

variable (hended : ended.Sound declarations) (hmemo' : ended.memos[target.index]? = some memo')
  (hstarted : startedEntry knowledge.graph arguments ∈ memo'.entries)

include hmemo hlearns in
/-- Answers that are there when the body has been analyzed were there before, or are
explained. -/
theorem news_of_begin {id : SummaryId} (hentry : ended.HasEntry other entry)
    (hdone : entry.progress = .done id) : knowledge.HasEntry other entry ∨
      ended.Explains declarations other entry.arguments id := by
  rcases hlearns.news other entry id hentry hdone with hbegin | hexplains
  · rcases (hasEntry_begin_iff hmemo).mp hbegin with hkept | hstarted
    · exact Or.inl hkept
    · rw [hstarted.2] at hdone
      exact nomatch hdone
  · exact Or.inr hexplains

include hsound hmemo hhas hfound hlearns hended hmemo' hstarted

/-- A failed analysis leaves what its callees have learned. -/
theorem learns_forget :
    knowledge.Learns declarations (ended.forget target arguments memo') := by
  have hentries : ∀ other entry, (ended.forget target arguments memo').HasEntry other entry ↔
      ended.HasEntry other entry ∧
        ¬ (other = target ∧ entry = startedEntry knowledge.graph arguments) :=
    fun other entry => hasEntry_forget_iff hended hmemo' hstarted rfl rfl
  have hforget : ended.Grows (ended.forget target arguments memo') :=
    grows_forget hended hmemo' hstarted rfl rfl
  have hgrows : knowledge.Grows ended := (grows_begin hmemo arguments).trans hlearns.toGrows
  refine ⟨hgrows.trans hforget, ?_, ?_⟩
  · intro other entry hrunning
    calc (ended.forget target arguments memo').HasEntry other entry
        ↔ ended.HasEntry other entry ∧
          ¬ (other = target ∧ entry = startedEntry knowledge.graph arguments) :=
          hentries other entry
      _ ↔ knowledge.HasEntry other entry :=
          running_of_begin hsound hmemo hhas hfound hlearns hrunning
  · intro other entry id hentry hdone
    rcases news_of_begin hmemo hlearns ((hentries other entry).mp hentry).1 hdone with
      hkept | hexplains
    · exact Or.inl hkept
    · exact Or.inr (hexplains.mono hforget)

/-- A successful analysis adds its answer, which the run of its body explains. -/
theorem learns_finish {limit room : Nat} {summary : Summary}
    (hdefinition : declarations.definition? target = some definition)
    (hsummarize : summarize (analyze declarations limit room) declarations definition
      ⟨definition.qualifiedName, arguments⟩ (knowledge.begin target arguments memo) =
        .ok summary ended) :
    knowledge.Learns declarations (ended.finish target arguments memo' summary) := by
  have hentries : ∀ other entry,
      (ended.finish target arguments memo' summary).HasEntry other entry ↔
        other = target ∧ entry = { startedEntry knowledge.graph arguments with
          progress := .done ⟨ended.summaries.size⟩ } ∨
        ended.HasEntry other entry ∧
          ¬ (other = target ∧ entry = startedEntry knowledge.graph arguments) :=
    fun other entry => hasEntry_finish_iff hended hmemo' hstarted rfl rfl summary
  have hfinish : ended.Grows (ended.finish target arguments memo' summary) :=
    grows_finish hended hmemo' hstarted rfl rfl
  have hgrows : knowledge.Grows ended := (grows_begin hmemo arguments).trans hlearns.toGrows
  refine ⟨hgrows.trans hfinish, ?_, ?_⟩
  -- The entry that was begun runs no longer, and no other has changed its state.
  · intro other entry hrunning
    rw [hentries, or_iff_right (fun heq => ?_)]
    · exact running_of_begin hsound hmemo hhas hfound hlearns hrunning
    · rw [heq.2] at hrunning
      exact nomatch hrunning
  · intro other entry id hentry hdone
    rcases (hentries other entry).mp hentry with hanswered | hkept
    -- The new answer is explained by the run that has just ended.
    · obtain ⟨rfl, rfl⟩ := hanswered
      obtain rfl := Progress.done.inj hdone
      have hnew : (ended.finish other arguments memo' summary).summaries[ended.summaries.size]? =
          some summary := by
        simp [finish, setMemo, addSummary]
      exact Or.inr ⟨⟨definition, limit, room, _, summary, ended, hdefinition,
        hsound.begin hmemo hhas hfound, hhas, hsummarize⟩, hfinish, rfl, hnew⟩
    · rcases news_of_begin hmemo hlearns hkept.1 hdone with hkept | hexplains
      · exact Or.inl hkept
      · exact Or.inr (hexplains.mono hfinish)

end Body

end Knowledge

/-! ## The analysis of a definition -/

theorem Frame.Sound.start {graph : TypeGraph} {arguments : List TypeId}
    (hwell : graph.WellFormed) (harguments : ∀ type ∈ arguments, graph.Has type) :
    ({ slots := arguments } : Frame).Sound graph arguments where
  wellFormed := hwell
  has_arguments := harguments
  length_slots := rfl
  slots slot type hslot :=
    ⟨harguments type (List.mem_of_getElem? hslot), by rw [hslot, Option.bind_some]⟩
  locals _ _ hlocal := nomatch hlocal
  objects id object hobject := by simp at hobject
  writes _ hmem := nomatch hmem
  calls _ hmem := nomatch hmem

theorem summarize_ends {analyst : Analyst} (hanalyst : analyst.Sound declarations)
    (hsound : knowledge.Sound declarations) (definition : Definition) (signature : Signature)
    (harguments : ∀ type ∈ signature.arguments, knowledge.graph.Has type) :
    (learning declarations).Ends knowledge
      (summarize analyst declarations definition signature knowledge) fun summary later =>
        later.Sound declarations ∧ summary.WellFormed later.graph ∧
          summary.signature = signature := by
  have hstart := Frame.Sound.start hsound.graph harguments
  let scope : Scope := ⟨declarations, definition, analyst⟩
  have hbody : (learning declarations).Ends knowledge
      ((scope.evaluateBody definition.decl.body >>= fun operand =>
        liftM (Frame.expressResult declarations definition.decl.span operand))
        { slots := signature.arguments } knowledge) fun result later =>
          later.Sound declarations ∧ later.graph.WellFormed ∧
            Summary.WellFormed later.graph
              ⟨signature, result.1, result.2.writes, result.2.calls⟩ := by
    refine Discipline.Ends.run_bind
      (Scope.evaluateBody_keeps hanalyst definition.decl.body _ knowledge hsound hstart) ?_
    intro operand changed later _ hpost
    obtain ⟨hlater, hchanged, hoperand⟩ := hpost
    exact Building.within_ends hlater (Frame.expressResult_ends signature hchanged hoperand)
      fun _ _ hpost => hpost.1
  refine Discipline.Ends.bind hbody ?_
  intro result later _ hpost
  obtain ⟨result, frame⟩ := result
  obtain ⟨hlater, -, hsummary⟩ := hpost
  exact .pure ⟨hlater, hsummary, rfl⟩

/-- The body of a definition is analyzed for argument types that are new to its memo. -/
theorem analyze_missing_ends {limit room : Nat}
    (hanalyst : (analyze declarations limit room).Sound declarations)
    (hsound : knowledge.Sound declarations)
    (hhas : ∀ type ∈ arguments, knowledge.graph.Has type)
    (hdefinition : declarations.definition? target = some definition)
    (harity : definition.arity = arguments.length)
    (hmemo : knowledge.memos[target.index]? = some memo)
    (hfound : memo.find? knowledge.graph arguments = none) :
    (learning declarations).Ends knowledge
      (analyze declarations limit (room + 1) target arguments knowledge) fun id later =>
        later.Sound declarations ∧ later.Answers target arguments id := by
  have hends := summarize_ends hanalyst (hsound.begin hmemo hhas hfound) definition
    ⟨definition.qualifiedName, arguments⟩ hhas
  cases hsummarize : summarize (analyze declarations limit room) declarations definition
    ⟨definition.qualifiedName, arguments⟩ (knowledge.begin target arguments memo) with
  -- Either way the entry that was begun still stands, and is taken back or answered.
  | error failure ended =>
    rw [hsummarize] at hends
    obtain ⟨hlearns, hended, hharmless⟩ := hends
    obtain ⟨memo', hmemo', hstarted⟩ := Knowledge.exists_memo_of_begin hmemo hlearns
    rw [analyze_of_error hdefinition harity hmemo hfound hmemo' hsummarize]
    exact ⟨Knowledge.learns_forget hsound hmemo hhas hfound hlearns hended hmemo' hstarted,
      hended.forget hmemo' arguments, hharmless.within _⟩
  | ok summary ended =>
    rw [hsummarize] at hends
    obtain ⟨hlearns, hended, hwell, hsignature⟩ := hends
    obtain ⟨memo', hmemo', hstarted⟩ := Knowledge.exists_memo_of_begin hmemo hlearns
    have hsummarizes : summary.Summarizes definition :=
      ⟨by rw [hsignature], by rw [hsignature, harity]⟩
    rw [analyze_of_ok hdefinition harity hmemo hfound hmemo' hsummarize]
    have hlearned := Knowledge.learns_finish hsound hmemo hhas hfound hlearns hended hmemo'
      hstarted hdefinition hsummarize
    have harguments : summary.signature.arguments = arguments := by rw [hsignature]
    refine ⟨hlearned, hended.finish hmemo' hstarted rfl rfl hwell hdefinition hsummarizes
      harguments, ?_⟩
    refine ⟨_, (Knowledge.hasEntry_finish_iff hended hmemo' hstarted rfl rfl summary).mpr
      (Or.inl ⟨rfl, rfl⟩), rfl, ?_⟩
    exact TypeGraph.SameUnfoldings.refl hended.graph.closed fun type hmem =>
      hlearned.graph.has (hhas type hmem)

/-- With whatever room, an analysis answers with a summary for its argument types, or fails
without blaming a slot.  No analysis is running then that was not running before. -/
theorem analyze_sound (limit room : Nat) :
    (analyze declarations limit room).Sound declarations := by
  induction room using Nat.strongRecOn with
  | ind room ih =>
    intro target arguments knowledge hsound hhas
    cases hdefinition : declarations.definition? target with
    | none =>
      rw [analyze_of_definition?_eq_none hdefinition]
      exact ⟨.refl declarations knowledge, hsound, trivial⟩
    | some definition =>
      by_cases harity : definition.arity = arguments.length
      · cases hmemo : knowledge.memos[target.index]? with
        | none =>
          rw [analyze_of_memo_eq_none hdefinition harity hmemo]
          exact ⟨.refl declarations knowledge, hsound, trivial⟩
        | some memo =>
          have hlooked : knowledge.Learns declarations (knowledge.look target arguments memo) :=
            Knowledge.learns_look hmemo arguments
          have hlooks := hsound.look hmemo arguments
          cases hfound : memo.find? knowledge.graph arguments with
          | some progress =>
            cases progress with
            | done id =>
              -- The types of the entry need not be those asked for, but have the same unfoldings.
              obtain ⟨entry, hmem, hdone, hsame⟩ := Memo.exists_of_find? hsound.graph.closed
                (hsound.memos target memo hmemo) hhas hfound
              rw [analyze_of_done hdefinition harity hmemo hfound]
              exact ⟨hlooked, hlooks, entry,
                (Knowledge.hasEntry_look_iff hmemo).mpr ⟨memo, hmemo, hmem⟩, hdone, hsame⟩
            | running =>
              rw [analyze_of_running hdefinition harity hmemo hfound]
              exact ⟨hlooked, hlooks, harmless_cause (by simp)⟩
          | none =>
            cases room with
            | zero =>
              rw [analyze_zero hdefinition harity hmemo hfound]
              exact ⟨hlooked, hlooks, harmless_cause (by simp)⟩
            | succ room =>
              exact analyze_missing_ends (ih room (Nat.lt_succ_self room)) hsound hhas
                hdefinition harity hmemo hfound
      · rw [analyze_of_arity_ne hdefinition harity]
        exact ⟨.refl declarations knowledge, hsound, harmless_cause (by simp)⟩

end ShapeFlow
