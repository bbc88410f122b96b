import ShapeFlow.Engine
import ShapeFlow.Proofs.FrameWrites
import ShapeFlow.Proofs.MemoEntries

/-!
# Sound knowledge

What is known across analyses is sound if the graph is well-formed, every finished summary makes
sense in terms of its slots, and each memo has at most one entry for argument types with given
unfoldings (`Knowledge.Sound`).

Whatever happens, types, finished summaries and answers stay (`Knowledge.Grows`).  An analysis
that begins on sound knowledge does more (`Knowledge.Learns`): it leaves no analysis running
that was not running before, and behind every answer that it adds stands a run of the analysis
of a body (`Run`).
-/

namespace ShapeFlow

variable {declarations : Declarations}

/-- The summary is one of the definition: it has its name and as many arguments as the
definition has slots. -/
structure Summary.Summarizes (summary : Summary) (definition : Definition) : Prop where
  name : summary.signature.name = definition.qualifiedName
  arity : summary.signature.arguments.length = definition.arity

theorem Summary.WellFormed.mono {graph grown : TypeGraph} {summary : Summary}
    (hsummary : summary.WellFormed graph) (hgrows : graph.Grows grown) :
    summary.WellFormed grown where
  has_arguments type hmem := hgrows.has (hsummary.has_arguments type hmem)
  result := hsummary.result.mono hgrows
  writes := by
    obtain ⟨own, returned, hwrites, hown, hreturned, hobject⟩ := hsummary.writes
    refine ⟨own, returned, hwrites, fun write hmem => (hown write hmem).mono hgrows, ?_, ?_⟩
    · intro write hmem
      obtain ⟨hroot, hselectors, source, hvalue, hsource⟩ := hreturned write hmem
      exact ⟨hroot, hselectors, source, hvalue, hsource.mono hgrows⟩
    · intro hne
      obtain ⟨type, className, hresult, hclass⟩ := hobject hne
      refine ⟨type, className, hresult, ?_⟩
      rw [hgrows.className?_eq (TypeGraph.has_of_className? hclass), hclass]
  calls call hmem := (hsummary.calls call hmem).mono hgrows

namespace Knowledge

/-- The entry stands in the memo of the definition. -/
def HasEntry (knowledge : Knowledge) (target : DefId) (entry : MemoEntry SummaryId) : Prop :=
  ∃ memo, knowledge.memos[target.index]? = some memo ∧ entry ∈ memo.entries

/-- What is known stays known. -/
structure Grows (knowledge later : Knowledge) : Prop where
  graph : knowledge.graph.Grows later.graph
  summaries : ∀ (id : Nat) (summary : Summary), knowledge.summaries[id]? = some summary →
    later.summaries[id]? = some summary
  answers : ∀ target entry id, knowledge.HasEntry target entry → entry.progress = .done id →
    later.HasEntry target entry

/-- The graph and the finished summaries are well-formed, each summary is one of a definition,
each definition has a memo, memos are sound, and the answer for an entry is a summary of the
definition with the argument types of the entry. -/
structure Sound (declarations : Declarations) (knowledge : Knowledge) : Prop where
  graph : knowledge.graph.WellFormed
  size : knowledge.memos.size = declarations.definitions.size
  summaries : ∀ (id : Nat) (summary : Summary), knowledge.summaries[id]? = some summary →
    summary.WellFormed knowledge.graph ∧
      ∃ definition ∈ declarations.definitions, summary.Summarizes definition
  memos : ∀ (target : DefId) (memo : Memo SummaryId),
    knowledge.memos[target.index]? = some memo → memo.Sound knowledge.graph
  answers : ∀ target entry id, knowledge.HasEntry target entry → entry.progress = .done id →
    ∃ definition summary, declarations.definition? target = some definition ∧
      knowledge.summaries[id.index]? = some summary ∧ summary.Summarizes definition ∧
        summary.signature.arguments = entry.arguments

variable {first second third : Knowledge}

theorem Grows.refl (knowledge : Knowledge) : knowledge.Grows knowledge where
  graph := .refl knowledge.graph
  summaries _ _ hsummary := hsummary
  answers _ _ _ hentry _ := hentry

theorem Grows.trans (hfirst : first.Grows second) (hsecond : second.Grows third) :
    first.Grows third where
  graph := hfirst.graph.trans hsecond.graph
  summaries id summary hsummary :=
    hsecond.summaries id summary (hfirst.summaries id summary hsummary)
  answers target entry id hentry hdone :=
    hsecond.answers target entry id (hfirst.answers target entry id hentry hdone) hdone

theorem Grows.of_graph {knowledge : Knowledge} {grown : TypeGraph}
    (hgrows : knowledge.graph.Grows grown) :
    knowledge.Grows { knowledge with graph := grown } where
  graph := hgrows
  summaries _ _ hsummary := hsummary
  answers _ _ _ hentry _ := hentry

/-- There are no fewer summaries than before. -/
theorem Grows.size_le (hgrows : first.Grows second) :
    first.summaries.size ≤ second.summaries.size := by
  by_contra hlt
  have hindex : second.summaries.size < first.summaries.size := by omega
  have hkept := hgrows.summaries _ _ (Array.getElem?_eq_getElem hindex)
  simp at hkept

variable {knowledge : Knowledge}

/-- Knowledge with more types knows the same otherwise. -/
theorem Sound.grow (hsound : knowledge.Sound declarations) {grown : TypeGraph}
    (hgrows : knowledge.graph.Grows grown) (hwell : grown.WellFormed) :
    ({ knowledge with graph := grown } : Knowledge).Sound declarations where
  graph := hwell
  size := hsound.size
  summaries id summary hsummary :=
    ⟨(hsound.summaries id summary hsummary).1.mono hgrows,
      (hsound.summaries id summary hsummary).2⟩
  memos target memo hmemo := (hsound.memos target memo hmemo).mono hsound.graph.closed hgrows
  answers := hsound.answers

/-- Each definition has a memo. -/
theorem Sound.exists_memo {target : DefId} {definition : Definition}
    (hsound : knowledge.Sound declarations)
    (hdefinition : declarations.definition? target = some definition) :
    ∃ memo, knowledge.memos[target.index]? = some memo := by
  have hlt : target.index < declarations.definitions.size :=
    (Array.getElem?_eq_some_iff.mp hdefinition).1
  rw [← hsound.size] at hlt
  exact ⟨_, Array.getElem?_eq_getElem hlt⟩

theorem summary_safe (knowledge : Knowledge) (id : SummaryId) :
    Checked.Harmless (knowledge.summary id) fun summary =>
      knowledge.summaries[id.index]? = some summary :=
  .found trivial fun _ hsummary => hsummary

/-! ## Answers -/

/-- The memo of the definition answers for argument types with these unfoldings. -/
def Answers (knowledge : Knowledge) (target : DefId) (types : List TypeId) (id : SummaryId) :
    Prop :=
  ∃ entry, knowledge.HasEntry target entry ∧ entry.progress = .done id ∧
    knowledge.graph.SameUnfoldings entry.arguments knowledge.graph types

theorem Answers.mono {target : DefId} {types : List TypeId} {id : SummaryId}
    (hanswers : first.Answers target types id) (hgrows : first.Grows second) :
    second.Answers target types id := by
  obtain ⟨entry, hentry, hdone, hsame⟩ := hanswers
  exact ⟨entry, hgrows.answers target entry id hentry hdone, hdone,
    hsame.mono hgrows.graph hgrows.graph⟩

/-- The answer for argument types is a summary with argument types of the same unfoldings. -/
theorem Sound.exists_summary (hsound : knowledge.Sound declarations) {target : DefId}
    {types : List TypeId} {id : SummaryId} (hanswers : knowledge.Answers target types id) :
    ∃ definition summary, declarations.definition? target = some definition ∧
      knowledge.summaries[id.index]? = some summary ∧ summary.Summarizes definition ∧
        knowledge.graph.SameUnfoldings summary.signature.arguments knowledge.graph types := by
  obtain ⟨entry, hentry, hdone, hsame⟩ := hanswers
  obtain ⟨definition, summary, hdefinition, hsummary, hsummarizes, harguments⟩ :=
    hsound.answers target entry id hentry hdone
  exact ⟨definition, summary, hdefinition, hsummary, hsummarizes, harguments ▸ hsame⟩

/-- The summary of an answer may be one for other argument types, but there are as many of them. -/
theorem Sound.exists_answered (hsound : knowledge.Sound declarations) {target : DefId}
    {types : List TypeId} {id : SummaryId} (hanswers : knowledge.Answers target types id) :
    ∃ summary, knowledge.summaries[id.index]? = some summary ∧
      summary.WellFormed knowledge.graph ∧ types.length = summary.signature.arguments.length := by
  obtain ⟨-, summary, -, hsummary, -, hsame⟩ := hsound.exists_summary hanswers
  exact ⟨summary, hsummary, (hsound.summaries id.index summary hsummary).1,
    (List.Forall₂.length_eq hsame).symm⟩

/-- Argument types with the same unfoldings have one answer. -/
theorem Sound.answer_unique (hsound : knowledge.Sound declarations) {target : DefId}
    {types others : List TypeId} {id other : SummaryId}
    (hfirst : knowledge.Answers target types id) (hsecond : knowledge.Answers target others other)
    (hsame : knowledge.graph.SameUnfoldings types knowledge.graph others) : id = other := by
  obtain ⟨entry, ⟨memo, hmemo, hmem⟩, hdone, hentry⟩ := hfirst
  obtain ⟨entry', ⟨memo', hmemo', hmem'⟩, hdone', hentry'⟩ := hsecond
  obtain rfl := Option.some.inj (hmemo.symm.trans hmemo')
  obtain rfl := Memo.eq_of_sameUnfoldings (hsound.memos target memo hmemo) hmem hmem'
    ((hentry.trans hsame).trans hentry'.symm)
  exact Progress.done.inj (hdone.symm.trans hdone')

end Knowledge

/-- A run of the analysis of a body under given argument types. -/
structure Run (declarations : Declarations) (target : DefId) (arguments : List TypeId) where
  definition : Definition
  limit : Nat
  room : Nat
  start : Knowledge
  summary : Summary
  finish : Knowledge
  definition?_eq : declarations.definition? target = some definition
  sound : start.Sound declarations
  has_arguments : ∀ type ∈ arguments, start.graph.Has type
  summarizes : summarize (analyze declarations limit room) declarations definition
    ⟨definition.qualifiedName, arguments⟩ start = .ok summary finish

namespace Knowledge

variable {first second third : Knowledge}

/-- A run of the analysis of the body came to the summary with this number. -/
def Explains (declarations : Declarations) (knowledge : Knowledge) (target : DefId)
    (arguments : List TypeId) (id : SummaryId) : Prop :=
  ∃ run : Run declarations target arguments, run.finish.Grows knowledge ∧
    run.finish.summaries.size = id.index ∧ knowledge.summaries[id.index]? = some run.summary

theorem Explains.mono {target : DefId} {arguments : List TypeId} {id : SummaryId}
    (hexplains : first.Explains declarations target arguments id) (hgrows : first.Grows second) :
    second.Explains declarations target arguments id := by
  obtain ⟨run, hfinish, hsize, hsummary⟩ := hexplains
  exact ⟨run, hfinish.trans hgrows, hsize, hgrows.summaries _ _ hsummary⟩

/-- What is known stays known, the same analyses are running, and each new answer is
explained. -/
structure Learns (declarations : Declarations) (knowledge later : Knowledge) : Prop
    extends knowledge.Grows later where
  running : ∀ target entry, entry.progress = .running →
    (later.HasEntry target entry ↔ knowledge.HasEntry target entry)
  news : ∀ target entry id, later.HasEntry target entry → entry.progress = .done id →
    knowledge.HasEntry target entry ∨ later.Explains declarations target entry.arguments id

/-- Steps that leave the memos alone learn nothing. -/
theorem Grows.learns (hgrows : first.Grows second) (hmemos : second.memos = first.memos) :
    first.Learns declarations second where
  toGrows := hgrows
  running target entry _ := by rw [HasEntry, HasEntry, hmemos]
  news target entry id hentry _ := by
    rw [HasEntry, hmemos] at hentry
    exact Or.inl hentry

theorem Learns.refl (declarations : Declarations) (knowledge : Knowledge) :
    knowledge.Learns declarations knowledge :=
  (Grows.refl knowledge).learns rfl

theorem Learns.trans (hfirst : first.Learns declarations second)
    (hsecond : second.Learns declarations third) : first.Learns declarations third where
  toGrows := hfirst.toGrows.trans hsecond.toGrows
  running target entry hrunning :=
    (hsecond.running target entry hrunning).trans (hfirst.running target entry hrunning)
  news target entry id hentry hdone := by
    rcases hsecond.news target entry id hentry hdone with hsecondEntry | hexplains
    · rcases hfirst.news target entry id hsecondEntry hdone with hfirstEntry | hexplains
      · exact Or.inl hfirstEntry
      · exact Or.inr (hexplains.mono hsecond.toGrows)
    · exact Or.inr hexplains

end Knowledge

/-- Knowledge is learned and stays sound, and no failure blames a slot. -/
def learning (declarations : Declarations) : Discipline Knowledge where
  Grows := Knowledge.Learns declarations
  Calm := Knowledge.Sound declarations
  Excused := Failure.Harmless
  refl := Knowledge.Learns.refl declarations
  trans := Knowledge.Learns.trans

/-- An analyst answers for the argument types that it is asked about. -/
def Analyst.Sound (declarations : Declarations) (analyst : Analyst) : Prop :=
  ∀ target types knowledge, knowledge.Sound declarations →
    (∀ type ∈ types, knowledge.graph.Has type) →
      (learning declarations).Ends knowledge (analyst target types knowledge) fun id later =>
        later.Sound declarations ∧ later.Answers target types id

end ShapeFlow
