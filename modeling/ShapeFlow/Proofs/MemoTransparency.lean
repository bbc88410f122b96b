import ShapeFlow.Proofs.EngineSoundness
import ShapeFlow.Proofs.TwinBodies

/-!
# What was analyzed before does not show

An analysis may find answers in the memos, share types that others have built and hand out
other numbers than it would in a fresh engine.  As long as types with the same unfolding list
their parts in the same order, none of this shows: argument types with the same unfoldings lead
to summaries that say the same (`Engine.analyze_sameSummary`).

There are two reasons why an analysis may not go the way of an earlier one.  The first is that
it finds an answer; behind every answer there is the run that came to it, and runs of one body
are compared by the numbers of their summaries, since a body calls only what has a smaller
number (`Knowledge.sameSummary_of_answers`).  The second is that it finds an analysis running.
That cannot happen to an analysis that follows an earlier one, since the earlier one would have
had to call what has its own number.
-/

namespace ShapeFlow

open TypeGraph (SameUnfolding SameUnfoldings)

variable {declarations : Declarations} {left right : Knowledge} {target : DefId}
  {types others : List TypeId} {id other : SummaryId}

/-! ## Summaries in smaller graphs -/

theorem TypeGraph.SameUnfolding.of_grown {left right left' right' : TypeGraph}
    {type other : TypeId} (hsame : SameUnfolding left' type right' other)
    (hgrow : left.GrowBoth right left' right') (hleft : left.WellFormed)
    (hright : right.WellFormed) (hhas : left.Has type) (hhas' : right.Has other) :
    SameUnfolding left type right other :=
  ((hgrow.growsLeft.sameUnfolding hleft.closed hhas).trans hsame).trans
    (hgrow.growsRight.sameUnfolding hright.closed hhas').symm

section Values

variable {left right left' right' : TypeGraph} {arguments arguments' : List TypeId}

theorem Value.Twin.of_grown {first second : Value} (htwin : first.Twin left' right' second)
    (hgrow : left.GrowBoth right left' right') (hleft : left.WellFormed)
    (hright : right.WellFormed) (hfirst : first.RootedIn left arguments)
    (hsecond : second.RootedIn right arguments') : first.Twin left right second := by
  cases htwin with
  | type hsame => exact .type (hsame.of_grown hgrow hleft hright hfirst hsecond)
  | path place => exact .path place

theorem Summary.WellFormed.written {summary : Summary} (hsummary : summary.WellFormed left)
    {write : Write} (hmem : write ∈ summary.writes) :
    write.value.RootedIn left summary.signature.arguments := by
  obtain ⟨own, returned, hwrites, hown, hreturned, -⟩ := hsummary.writes
  rw [hwrites] at hmem
  rcases List.mem_append.mp hmem with hmem | hmem
  · exact (hown write hmem).value
  · obtain ⟨source, hvalue, hsource⟩ := (hreturned write hmem).value
    rw [hvalue]
    exact hsource

theorem Summary.Twin.of_grown {first second : Summary} (htwin : first.Twin left' right' second)
    (hgrow : left.GrowBoth right left' right') (hleft : left.WellFormed)
    (hright : right.WellFormed) (hfirst : first.WellFormed left)
    (hsecond : second.WellFormed right) : first.Twin left right second where
  result := htwin.result.of_grown hgrow hleft hright hfirst.result hsecond.result
  writes := by
    refine List.forall₂_iff_zip.mpr ⟨htwin.writes.length_eq, fun {write write'} hmem => ?_⟩
    obtain ⟨hwrite, hwrite'⟩ := List.of_mem_zip hmem
    have hsame := List.forall₂_zip htwin.writes hmem
    exact ⟨hsame.target, hsame.value.of_grown hgrow hleft hright (hfirst.written hwrite)
      (hsecond.written hwrite')⟩

end Values

/-- Summaries that are known already said the same before types were added. -/
theorem Knowledge.SameSummary.of_grown {left' right' : Knowledge}
    (hsame : left'.SameSummary id right' other) (hleft : left.Grows left')
    (hright : right.Grows right') (hsound : left.Sound declarations)
    (hsound' : right.Sound declarations) {types others : List TypeId} {target target' : DefId}
    (hid : left.Answers target types id) (hother : right.Answers target' others other) :
    left.SameSummary id right other := by
  obtain ⟨summary, summary', hlater, hlater', htwin⟩ := hsame
  obtain ⟨held, hheld, -⟩ := hsound.exists_answered hid
  obtain ⟨held', hheld', -⟩ := hsound'.exists_answered hother
  obtain rfl := Option.some.inj (hlater.symm.trans (hleft.summaries _ _ hheld))
  obtain rfl := Option.some.inj (hlater'.symm.trans (hright.summaries _ _ hheld'))
  exact ⟨summary, summary', hheld, hheld', htwin.of_grown ⟨hleft.graph, hright.graph⟩ hsound.graph
    hsound'.graph (hsound.summaries _ _ hheld).1 (hsound'.summaries _ _ hheld').1⟩

/-! ## Answers that are known -/

namespace Knowledge

/-- Behind every answer stands a run of the analysis of a body. -/
def Explained (declarations : Declarations) (knowledge : Knowledge) : Prop :=
  ∀ target entry id, knowledge.HasEntry target entry → entry.progress = .done id →
    knowledge.Explains declarations target entry.arguments id

/-- The run behind an answer, for argument types with the same unfoldings. -/
theorem Explained.exists_run {knowledge : Knowledge}
    (hexplained : knowledge.Explained declarations) (hid : knowledge.Answers target types id) :
    ∃ arguments, ∃ run : Run declarations target arguments,
      knowledge.graph.SameUnfoldings arguments knowledge.graph types ∧
        run.finish.Grows knowledge ∧ run.finish.summaries.size = id.index ∧
          knowledge.summaries[id.index]? = some run.summary := by
  obtain ⟨entry, hentry, hdone, hsame⟩ := hid
  obtain ⟨run, hfinish, hsize, hsummary⟩ := hexplained target entry id hentry hdone
  exact ⟨entry.arguments, run, hsame, hfinish, hsize, hsummary⟩

/-- Answers that are known before a run has ended have smaller numbers than its own. -/
theorem Sound.index_lt {known finish : Knowledge} (hsound : known.Sound declarations)
    (hid : known.Answers target types id) (hgrows : known.Grows finish) :
    id.index < finish.summaries.size := by
  obtain ⟨summary, hsummary, -⟩ := hsound.exists_answered hid
  have hlt := (Array.getElem?_eq_some_iff.mp hsummary).1
  have hle := hgrows.size_le
  omega

end Knowledge

theorem Run.grows {arguments : List TypeId} (run : Run declarations target arguments) :
    run.start.Grows run.finish := by
  have hdrifts : Drifts (summarize (analyze declarations run.limit run.room) declarations
    run.definition ⟨run.definition.qualifiedName, arguments⟩) := inferInstance
  have hgrows := hdrifts.grows run.start
  rw [run.summarizes] at hgrows
  exact hgrows

/-- A run is compared with one of which the outcome is known as well. -/
def Run.beside {arguments arguments' : List TypeId} {target' : DefId}
    (run : Run declarations target arguments) (run' : Run declarations target' arguments')
    {right : Knowledge} (horder : run.finish.graph.SameOrder right.graph) :
    BodyComparison declarations where
  Clear known known' := known.Grows run.finish ∧ known'.Grows right
  Excused _ := True
  earlier hgrows hgrows' hclear :=
    ⟨Knowledge.Grows.trans hgrows hclear.1, Knowledge.Grows.trans hgrows' hclear.2⟩
  leftStart := run.start
  rightStart := run'.start
  ordered hclear := horder.earlier hclear.1.graph hclear.2.graph

namespace Knowledge

/-- Answers for argument types with the same unfoldings say the same.  A run calls only what has
a smaller number than its own, so the proof is by induction on the number. -/
theorem sameSummary_of_answers (hexplained : left.Explained declarations)
    (hexplained' : right.Explained declarations) (horder : left.graph.SameOrder right.graph)
    (hid : left.Answers target types id) (hother : right.Answers target others other)
    (hsame : left.graph.SameUnfoldings types right.graph others) :
    left.SameSummary id right other := by
  induction hindex : id.index using Nat.strongRecOn generalizing target types others id other with
  | ind index ih =>
    obtain ⟨arguments, run, harguments, hfinish, hsize, hsummary⟩ := hexplained.exists_run hid
    obtain ⟨arguments', run', harguments', hfinish', -, hsummary'⟩ := hexplained'.exists_run hother
    have horder' : run.finish.graph.SameOrder right.graph :=
      horder.earlier hfinish.graph (.refl right.graph)
    let runs : BodyComparison declarations := run.beside run' horder'
    have hreached : runs.Reached run.start run'.start :=
      ⟨.refl _ _, .refl _ _, run.sound, run'.sound⟩
    -- The two runs may have begun long before the answers are compared, with fewer types around;
    -- what is there already had the same unfoldings then.
    have hstart : SameUnfoldings run.start.graph arguments run'.start.graph arguments' :=
      ((harguments.trans hsame).trans harguments'.symm).of_grown
        (run.grows.trans hfinish).graph (run'.grows.trans hfinish').graph run.sound.graph.closed
        run'.sound.graph.closed run.has_arguments run'.has_arguments
    -- A callee has its answer before the run ends, hence one with a smaller number.
    have hcallees : runs.Callees (analyze declarations run.limit run.room)
        (analyze declarations run'.limit run'.room) := by
      refine ⟨analyze_sound run.limit run.room, analyze_sound run'.limit run'.room, ?_⟩
      intro callee types' others' known known' hknown hsame' id' later hid' hclear
      have hends := analyze_sound run.limit run.room callee types' known hknown.soundLeft
        hsame'.has_left
      have hends' := analyze_sound run'.limit run'.room callee others' known' hknown.soundRight
        hsame'.symm.has_left
      rw [hid'] at hends
      obtain ⟨hlearns, hlater, hanswers⟩ := hends
      cases hother' : analyze declarations run'.limit run'.room callee others' known' with
      | error failure last => trivial
      | ok other' last =>
        rw [hother'] at hends' hclear
        obtain ⟨hlearns', hlast, hanswers'⟩ := hends'
        obtain ⟨hclear, hclear'⟩ := hclear
        have hlt := hlater.index_lt hanswers hclear
        have hgrown := hclear.trans hfinish
        refine SameSummary.of_grown (ih id'.index (by omega) (hanswers.mono hgrown)
          (hanswers'.mono hclear') ?_ rfl) hgrown hclear' hlater hlast hanswers hanswers'
        exact hsame'.mono (hlearns.graph.trans hgrown.graph) (hlearns'.graph.trans hclear'.graph)
    -- Both runs are of the same body, and both have come to an end.
    have hdefinition := Option.some.inj (run.definition?_eq.symm.trans run'.definition?_eq)
    have hfollows := summarize_follows hcallees hreached run.definition
      ⟨run.definition.qualifiedName, arguments⟩ ⟨run.definition.qualifiedName, arguments'⟩ hstart
    have hends : summarize (analyze declarations run'.limit run'.room) declarations run.definition
        ⟨run.definition.qualifiedName, arguments'⟩ run'.start = .ok run'.summary run'.finish := by
      rw [hdefinition]
      exact run'.summarizes
    have hended := hfollows run.summary run.finish run.summarizes
    rw [hends] at hended
    obtain ⟨-, htwin⟩ := hended ⟨.refl run.finish, hfinish'⟩
    exact ⟨run.summary, run'.summary, hsummary, hsummary',
      htwin.grow ⟨hfinish.graph, hfinish'.graph⟩⟩

end Knowledge

/-! ## Analyses that follow an answer -/

/-- The limit on analyses within one another was met. -/
def Failure.MetLimit : Failure → Prop
  | .rejected diagnostic => ∃ signature limit, diagnostic.rootCause = .depthExceeded signature limit
  | .broken _ => False

theorem Failure.MetLimit.within {failure : Failure} (hlimit : failure.MetLimit)
    (signature : String) : (failure.within signature).MetLimit := by
  cases failure with
  | broken reference => exact hlimit.elim
  | rejected diagnostic =>
    obtain ⟨name, limit, hcause⟩ := hlimit
    exact ⟨name, limit, by rw [Diagnostic.rootCause_within, hcause]⟩

namespace Knowledge

/-- None of the analyses that are running on the right is for argument types with an answer on
the left up to the given number. -/
def Unhindered (left right : Knowledge) (index : Nat) : Prop :=
  ∀ target entry, right.HasEntry target entry → entry.progress = .running →
    ∀ types id, left.Answers target types id → id.index ≤ index →
      ¬ SameUnfoldings left.graph types right.graph entry.arguments

section Begun

variable {memo : Memo SummaryId} {known : Knowledge} (hright : right.Sound declarations)
  (hmemo : right.memos[target.index]? = some memo)
  (hlearns : (right.begin target others memo).Learns declarations known)

include hmemo hlearns

theorem Explained.of_begin (hexplained : right.Explained declarations) :
    known.Explained declarations := by
  intro callee entry id hentry hdone
  rcases hlearns.news callee entry id hentry hdone with hbegun | hexplains
  · rcases (hasEntry_begin_iff hmemo).mp hbegun with hkept | hstarted
    · exact (hexplained callee entry id hkept hdone).mono
        ((grows_begin hmemo others).trans hlearns.toGrows)
    · rw [hstarted.2] at hdone
      exact nomatch hdone
  · exact hexplains

include hright

/-- What has begun for argument types with an answer does not hinder analyses that follow smaller
answers, since there is one answer for them only. -/
theorem Unhindered.of_begin (hleft : left.Sound declarations)
    (hunhindered : left.Unhindered right id.index) (hid : left.Answers target types id)
    (hsame : SameUnfoldings left.graph types right.graph others) {index : Nat}
    (hlt : index < id.index) : left.Unhindered known index := by
  intro callee entry hentry hrunning types' id' hid' hle hsame'
  have hgrows : right.Grows known := (grows_begin hmemo others).trans hlearns.toGrows
  have hbegun := (hlearns.running callee entry hrunning).mp hentry
  rcases (hasEntry_begin_iff hmemo).mp hbegun with hkept | hstarted
  -- What ran before hinders nothing up to the larger number.
  · obtain ⟨held, hheld, hmem⟩ := hkept
    have hhas := ((hright.memos callee held hheld).entries entry hmem).has
    refine hunhindered callee entry ⟨held, hheld, hmem⟩ hrunning types' id' hid' (by omega) ?_
    exact hsame'.of_grown (.refl left.graph) hgrows.graph hleft.graph.closed hright.graph.closed
      hsame'.has_left hhas
  -- The entry just begun is for types whose answer has the larger number.
  · obtain ⟨rfl, rfl⟩ := hstarted
    have hanswer := hleft.answer_unique hid' hid
      (hsame'.trans (hsame.mono (.refl left.graph) hgrows.graph).symm)
    subst hanswer
    omega

end Begun

/-- The outcome is a summary that says the same as one that is known, unless the limit on
analyses within one another was met. -/
def SaysSame (left : Knowledge) (id : SummaryId) : EStateM.Result Failure Knowledge SummaryId → Prop
  | .ok other last => left.SameSummary id last other
  | .error failure _ => failure.MetLimit

/-- Wherever nothing hinders it, the analysis for argument types with the same unfoldings follows
the answer. -/
def Leads (declarations : Declarations) (left : Knowledge) (target : DefId) (types : List TypeId)
    (id : SummaryId) : Prop :=
  ∀ limit room others right, Sound declarations right → right.Explained declarations →
    SameUnfoldings left.graph types right.graph others → left.Unhindered right id.index →
      left.graph.SameOrder (endOf (analyze declarations limit room target others right)).graph →
        left.SaysSame id (analyze declarations limit room target others right)

end Knowledge

/-- A run is compared with one that begins in other knowledge. -/
def Run.ahead {arguments : List TypeId} (run : Run declarations target arguments)
    (hfinish : run.finish.Grows left) (begun : Knowledge) : BodyComparison declarations where
  Clear known known' := known.Grows run.finish ∧ left.graph.SameOrder known'.graph
  Excused := Failure.MetLimit
  earlier {known known'} later last hgrows hgrows' hclear := by
    have hgrown : known'.Grows last := hgrows'
    exact ⟨Knowledge.Grows.trans hgrows hclear.1, hclear.2.earlier (.refl left.graph) hgrown.graph⟩
  leftStart := run.start
  rightStart := begun
  ordered hclear := hclear.2.earlier (hclear.1.trans hfinish).graph (.refl _)

/-- A run that begins in other knowledge follows the run behind an answer, if the analyses of
its callees follow the answers with smaller numbers. -/
theorem Run.follows {arguments : List TypeId} (run : Run declarations target arguments)
    (hfinish : run.finish.Grows left) (hleads : ∀ callee types id, left.Answers callee types id →
      id.index < run.finish.summaries.size → left.Leads declarations callee types id)
    {begun : Knowledge} (hbegun : begun.Sound declarations)
    (hexplained : ∀ known, begun.Learns declarations known → known.Explained declarations)
    (hunhindered : ∀ known index, begun.Learns declarations known →
      index < run.finish.summaries.size → left.Unhindered known index)
    (hsame : SameUnfoldings run.start.graph arguments begun.graph others) (limit room : Nat)
    (horder : left.graph.SameOrder (endOf (summarize (analyze declarations limit room)
      declarations run.definition ⟨run.definition.qualifiedName, others⟩ begun)).graph) :
    match summarize (analyze declarations limit room) declarations run.definition
      ⟨run.definition.qualifiedName, others⟩ begun with
    | .ok summary ended => run.summary.Twin left.graph ended.graph summary
    | .error failure _ => failure.MetLimit := by
  let runs : BodyComparison declarations := run.ahead hfinish begun
  have hreached : runs.Reached run.start begun := ⟨.refl _ _, .refl _ _, run.sound, hbegun⟩
  have hcallees : runs.Callees (analyze declarations run.limit run.room)
      (analyze declarations limit room) := by
    refine ⟨analyze_sound run.limit run.room, analyze_sound limit room, ?_⟩
    intro callee types others known known' hknown hsame id later hid hclear
    have hends := analyze_sound run.limit run.room callee types known hknown.soundLeft
      hsame.has_left
    rw [hid] at hends
    obtain ⟨hlearns, hlater, hanswers⟩ := hends
    obtain ⟨hclear, horder⟩ := hclear
    have hlt := hlater.index_lt hanswers hclear
    have hgrown := hclear.trans hfinish
    -- The callee is asked anew on the right, where it may be known, running or missing.
    have hsays := hleads callee types id (hanswers.mono hgrown) hlt limit room others known'
      hknown.soundRight (hexplained known' hknown.learnedRight)
      (hsame.mono (hlearns.graph.trans hgrown.graph) (.refl known'.graph))
      (hunhindered known' id.index hknown.learnedRight hlt) horder
    have hends' := analyze_sound limit room callee others known' hknown.soundRight
      hsame.symm.has_left
    cases hother : analyze declarations limit room callee others known' with
    | error failure last =>
      rw [hother] at hsays
      exact hsays
    | ok other last =>
      rw [hother] at hsays hends'
      obtain ⟨-, hlast, hanswers'⟩ := hends'
      exact Knowledge.SameSummary.of_grown hsays hgrown (.refl last) hlater hlast hanswers hanswers'
  have hfollows := summarize_follows hcallees hreached run.definition
    ⟨run.definition.qualifiedName, arguments⟩ ⟨run.definition.qualifiedName, others⟩ hsame
  have hended := hfollows run.summary run.finish run.summarizes
    ⟨Knowledge.Grows.refl run.finish, horder⟩
  cases hsummarize : summarize (analyze declarations limit room) declarations run.definition
    ⟨run.definition.qualifiedName, others⟩ begun with
  | error failure ended =>
    rw [hsummarize] at hended
    exact hended
  | ok summary ended =>
    rw [hsummarize] at hended
    exact hended.2.grow ⟨hfinish.graph, .refl ended.graph⟩

namespace Knowledge

/-- With nothing found and room left, the body is analyzed, and that follows the run behind the
answer. -/
theorem Explained.saysSame_of_missing (hleft : left.Sound declarations)
    (hexplained : left.Explained declarations) (hid : left.Answers target types id)
    (hsmaller : ∀ callee types smaller, left.Answers callee types smaller →
      smaller.index < id.index → left.Leads declarations callee types smaller)
    (hright : right.Sound declarations) (hexplained' : right.Explained declarations)
    (hsame : SameUnfoldings left.graph types right.graph others)
    (hunhindered : left.Unhindered right id.index) {definition : Definition}
    (hdefinition : declarations.definition? target = some definition)
    (harity : definition.arity = others.length) {memo : Memo SummaryId}
    (hmemo : right.memos[target.index]? = some memo)
    (hfound : memo.find? right.graph others = none) {limit room : Nat}
    (horder : left.graph.SameOrder
      (endOf (analyze declarations limit (room + 1) target others right)).graph) :
    left.SaysSame id (analyze declarations limit (room + 1) target others right) := by
  obtain ⟨arguments, run, harguments, hfinish, hsize, hsummary⟩ := hexplained.exists_run hid
  obtain rfl := Option.some.inj (run.definition?_eq.symm.trans hdefinition)
  have hhas := hsame.symm.has_left
  have hbegun := hright.begin hmemo hhas hfound
  have hgrows := grows_begin hmemo others
  have hstart : SameUnfoldings run.start.graph arguments (right.begin target others memo).graph
      others :=
    (harguments.trans hsame).of_grown (run.grows.trans hfinish).graph (.refl right.graph)
      run.sound.graph.closed hright.graph.closed run.has_arguments hhas
  have hfollows := run.follows hfinish
    (fun callee types smaller hsmall hlt => hsmaller callee types smaller hsmall (hsize ▸ hlt))
    hbegun (fun known hlearns => .of_begin hmemo hlearns hexplained')
    (fun known index hlearns hlt =>
      .of_begin hright hmemo hlearns hleft hunhindered hid hsame (hsize ▸ hlt)) hstart
    limit room
  have hends := summarize_ends (analyze_sound limit room) hbegun run.definition
    ⟨run.definition.qualifiedName, others⟩ hhas
  cases hsummarize : summarize (analyze declarations limit room) declarations run.definition
    ⟨run.definition.qualifiedName, others⟩ (right.begin target others memo) with
  | error failure ended =>
    rw [hsummarize] at hends hfollows
    obtain ⟨memo', hmemo', -⟩ := exists_memo_of_begin hmemo hends.1
    rw [analyze_of_error hdefinition harity hmemo hfound hmemo' hsummarize] at horder ⊢
    exact (hfollows horder).within _
  | ok summary ended =>
    rw [hsummarize] at hends hfollows
    obtain ⟨memo', hmemo', -⟩ := exists_memo_of_begin hmemo hends.1
    rw [analyze_of_ok hdefinition harity hmemo hfound hmemo' hsummarize] at horder ⊢
    have hadded : (ended.finish target others memo' summary).summaries[ended.summaries.size]? =
        some summary := by
      simp [finish, setMemo, addSummary]
    exact ⟨run.summary, summary, hsummary, hadded, hfollows horder⟩

/-- Every analysis that nothing hinders follows what is known. -/
theorem Explained.leads (hleft : left.Sound declarations) (hexplained : left.Explained declarations)
    (hid : left.Answers target types id) : left.Leads declarations target types id := by
  induction hindex : id.index using Nat.strongRecOn generalizing target types id with
  | ind index ih =>
    intro limit room others right hright hexplained' hsame hunhindered horder
    obtain ⟨definition, summary, hdefinition, -, hsummarizes, hsignature⟩ :=
      hleft.exists_summary hid
    have harity : definition.arity = others.length := by
      calc definition.arity = summary.signature.arguments.length := hsummarizes.arity.symm
        _ = types.length := hsignature.length_eq
        _ = others.length := hsame.length_eq
    obtain ⟨memo, hmemo⟩ := hright.exists_memo hdefinition
    have hhas := hsame.symm.has_left
    have hheld := hright.memos target memo hmemo
    cases hfound : memo.find? right.graph others with
    | some progress =>
      obtain ⟨entry, hmem, hprogress, hentry⟩ :=
        Memo.exists_of_find? hright.graph.closed hheld hhas hfound
      cases progress with
      | done other =>
        rw [analyze_of_done hdefinition harity hmemo hfound] at horder ⊢
        have hanswers : right.Answers target others other :=
          ⟨entry, ⟨memo, hmemo, hmem⟩, hprogress, hentry⟩
        have hsays : left.SameSummary id right other :=
          sameSummary_of_answers hexplained hexplained' horder hid hanswers hsame
        exact hsays
      -- An entry that is running would hinder the analysis.
      | running =>
        exact absurd (hsame.trans hentry.symm) (hunhindered target entry ⟨memo, hmemo, hmem⟩
          hprogress types id hid (Nat.le_refl _))
    | none =>
      cases room with
      | zero =>
        rw [analyze_zero hdefinition harity hmemo hfound]
        exact ⟨_, _, rfl⟩
      | succ room =>
        refine hexplained.saysSame_of_missing hleft hid ?_ hright hexplained' hsame hunhindered
          hdefinition harity hmemo hfound horder
        intro callee types' smaller hsmall hlt
        exact ih smaller.index (hindex ▸ hlt) hsmall rfl

end Knowledge

/-! ## Engines -/

theorem TypeGraph.SameOrder.symm {left right : TypeGraph} (horder : left.SameOrder right) :
    right.SameOrder left := fun type other hsame => (horder other type hsame.symm).symm

theorem Knowledge.SameSummary.symm (hsame : left.SameSummary id right other) :
    right.SameSummary other left id := by
  obtain ⟨summary, summary', hid, hother, htwin⟩ := hsame
  refine ⟨summary', summary, hother, hid, htwin.result.symm, ?_⟩
  exact (htwin.writes.imp fun _ _ hwrite => Write.Twin.symm hwrite).flip

namespace Engine

variable {engine other : Engine} {target : DefId} {arguments others : List TypeId}

end Engine

/-! ## Engines with a history -/

theorem Summary.Twin.targets_eq {left right : TypeGraph} {first second : Summary}
    (htwin : first.Twin left right second) :
    first.writes.map Write.target = second.writes.map Write.target := by
  rw [← List.forall₂_eq_eq_eq, List.forall₂_map_left_iff, List.forall₂_map_right_iff]
  exact htwin.writes.imp fun _ _ hwrite => hwrite.target

namespace Engine

/-- The engine with the type of a new object. -/
def addObject (engine : Engine) (className : String) : Engine :=
  engine.withGraph (engine.graph.plainObject className).2

/-- The engine with the type of an object that has got one more part, a primitive value. -/
def addScalar (engine : Engine) (type : TypeId) (selector : Selector) : Engine :=
  match engine.graph.bindField? type selector TypeGraph.scalar with
  | some result => engine.withGraph result.2
  | none => engine

variable {program : Program} {limit : Nat} {engine : Engine}

theorem Reachable.addObject (hreachable : Reachable program limit engine) (className : String) :
    Reachable program limit (engine.addObject className) :=
  .tail hreachable (.object engine className)

theorem Reachable.addScalar (hreachable : Reachable program limit engine) (type : TypeId)
    (selector : Selector) : Reachable program limit (engine.addScalar type selector) := by
  unfold Engine.addScalar
  split
  · rename_i result hbind
    have hpart := hreachable.idle.2.sound.graph.has_scalar
    exact .tail hreachable (.bindField engine type TypeGraph.scalar selector result hpart hbind)
  · exact hreachable

end Engine

/-- A function that returns a pair, and one that fills it anew. -/
def pairProgram : Program where
  classes := [{ name := "Pair", fields := [.field "@left", .field "@right"] }]
  functions := [{
    name := "pair"
    parameters := []
    body := [
      .bind {} "p" (.create {} "Pair" []),
      .write {} (.name {} "p") (.field "@left") (.integer {} 1),
      .write {} (.name {} "p") (.field "@right") (.integer {} 1),
      .name {} "p"] }, {
    name := "wrap"
    parameters := ["x"]
    body := [
      .bind {} "p" (.apply {} "pair" []),
      .write {} (.name {} "p") (.field "@left") (.name {} "x"),
      .write {} (.name {} "p") (.field "@right") (.name {} "x"),
      .name {} "p"] }]

/-- The program with the type of the objects that are wrapped. -/
def pairFresh : Engine := (Engine.ofProgram pairProgram 4).addObject "Object"

/-- The program with the types of a pair that is filled in the given order and of the objects that
are wrapped. -/
def pairBuilt (first second : Selector) : Engine :=
  ((((Engine.ofProgram pairProgram 4).addObject "Pair").addScalar ⟨1⟩ first).addScalar ⟨2⟩
    second).addObject "Object"

/-- The same program with its first function analyzed. -/
def pairKnown (first second : Selector) : Engine := ((pairBuilt first second).analyze ⟨2⟩ []).2

theorem reachable_pairFresh : Engine.Reachable pairProgram 4 pairFresh :=
  Engine.Reachable.addObject .refl "Object"

theorem reachable_pairKnown (first second : Selector) :
    Engine.Reachable pairProgram 4 (pairKnown first second) := by
  have hstart : Engine.Reachable pairProgram 4 (Engine.ofProgram pairProgram 4) := .refl
  have hbuilt : Engine.Reachable pairProgram 4 (pairBuilt first second) :=
    (((hstart.addObject "Pair").addScalar ⟨1⟩ first).addScalar ⟨2⟩ second).addObject "Object"
  exact .tail hbuilt (.analyze _ ⟨2⟩ [] fun _ hmem => nomatch hmem)

/-- The types of the objects that are wrapped have the same unfolding. -/
theorem sameUnfoldings_wrapped {left right : TypeGraph} {type other : TypeId}
    (hleft : left.node? type = some (.object "Object" ∅))
    (hright : right.node? other = some (.object "Object" ∅)) :
    SameUnfoldings left [type] right [other] :=
  .cons (.of_parts hleft hright (fun _ => Iff.rfl) fun _ _ _ hpart => nomatch hpart) .nil

/-- Filled in the other order, the pair is taken apart in the other order, and that shows. -/
theorem pairKnown_writes_differ :
    Engine.Reachable pairProgram 4 pairFresh ∧
      Engine.Reachable pairProgram 4 (pairKnown (.field "@right") (.field "@left")) ∧
      SameUnfoldings pairFresh.graph [⟨1⟩]
        (pairKnown (.field "@right") (.field "@left")).graph [⟨4⟩] ∧
      ∃ summary summary', (pairFresh.analyze ⟨3⟩ [⟨1⟩]).2.summary? ⟨1⟩ = some summary ∧
        ((pairKnown (.field "@right") (.field "@left")).analyze ⟨3⟩ [⟨4⟩]).2.summary? ⟨1⟩ =
          some summary' ∧
        ¬ summary.Twin (pairFresh.analyze ⟨3⟩ [⟨1⟩]).2.graph
          ((pairKnown (.field "@right") (.field "@left")).analyze ⟨3⟩ [⟨4⟩]).2.graph summary' := by
  have hfirst : ((pairFresh.analyze ⟨3⟩ [⟨1⟩]).2.summary? ⟨1⟩).map
      (fun summary => summary.writes.map Write.target) =
        some [⟨0, [.field "@left"]⟩, ⟨0, [.field "@right"]⟩] := by
    decide +kernel
  have hsecond : (((pairKnown (.field "@right") (.field "@left")).analyze ⟨3⟩ [⟨4⟩]).2.summary?
      ⟨1⟩).map (fun summary => summary.writes.map Write.target) =
        some [⟨0, [.field "@right"]⟩, ⟨0, [.field "@left"]⟩] := by
    decide +kernel
  obtain ⟨summary, hsummary, htargets⟩ := Option.map_eq_some_iff.mp hfirst
  obtain ⟨summary', hsummary', htargets'⟩ := Option.map_eq_some_iff.mp hsecond
  refine ⟨reachable_pairFresh, reachable_pairKnown _ _,
    sameUnfoldings_wrapped (by decide +kernel) (by decide +kernel), summary, summary', hsummary,
    hsummary', fun htwin => ?_⟩
  have hsame := htwin.targets_eq
  rw [htargets, htargets'] at hsame
  exact absurd hsame (by decide)

end ShapeFlow
