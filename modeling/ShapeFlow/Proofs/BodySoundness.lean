import ShapeFlow.Proofs.KnowledgeSoundness

/-!
# Bodies keep frames sound

A body works on a frame and on what is known across analyses, and keeps both sound.

What a call repeats is a summary of the callee.  The slots of a well-formed summary all stand
for something at the call: an argument, or the new object if the summary writes to it.  So a
call never misses a slot, and the places of the caller's operands take the place of those of
the summary.  Expressions follow by induction on their structure.
-/

namespace ShapeFlow

variable {declarations : Declarations}

/-- The step leads to sound knowledge and a sound frame and answers as told, or fails without
blaming a slot. -/
abbrev Body.Keeps {α : Type} (declarations : Declarations) (arguments : List TypeId)
    (knowledge : Knowledge) (outcome : EStateM.Result Failure Knowledge (α × Frame))
    (post : α → Knowledge → Prop) : Prop :=
  (learning declarations).Ends knowledge outcome fun result later =>
    later.Sound declarations ∧ result.2.Sound later.graph arguments ∧ post result.1 later

section Layers

variable {arguments : List TypeId} {knowledge : Knowledge} {frame : Frame} {α β : Type}

theorem Building.within_ends {step : Building α} {post : α → TypeGraph → Prop}
    (hsound : knowledge.Sound declarations)
    (hstep : growing.Ends knowledge.graph (step knowledge.graph) post)
    (hwell : ∀ value grown, post value grown → grown.WellFormed) :
    (learning declarations).Ends knowledge (step.within knowledge) fun value later =>
      later.Sound declarations ∧ post value later.graph := by
  unfold Building.within
  cases hresult : step knowledge.graph with
  | ok value grown =>
    rw [hresult] at hstep
    exact ⟨(Knowledge.Grows.of_graph hstep.1).learns rfl,
      hsound.grow hstep.1 (hwell value grown hstep.2), hstep.2⟩
  | error failure grown =>
    rw [hresult] at hstep
    exact ⟨(Knowledge.Grows.of_graph hstep.1).learns rfl, hsound.grow hstep.1 hstep.2.1, hstep.2.2⟩

namespace Body.Keeps

theorem pure {value : α} {post : α → Knowledge → Prop} (hknowledge : knowledge.Sound declarations)
    (hframe : frame.Sound knowledge.graph arguments) (hpost : post value knowledge) :
    Body.Keeps declarations arguments knowledge
      ((Pure.pure value : Body α) frame knowledge) post :=
  Discipline.Ends.run_pure ⟨hknowledge, hframe, hpost⟩

theorem bind {step : Body α} {next : α → Body β} {post : α → Knowledge → Prop}
    {post' : β → Knowledge → Prop}
    (hstep : Body.Keeps declarations arguments knowledge (step frame knowledge) post)
    (hnext : ∀ value changed later, knowledge.Learns declarations later → later.Sound declarations →
      changed.Sound later.graph arguments → post value later →
      Body.Keeps declarations arguments later (next value changed later) post') :
    Body.Keeps declarations arguments knowledge ((step >>= next) frame knowledge) post' :=
  Discipline.Ends.run_bind hstep fun value changed later hgrows ⟨hlater, hchanged, hpost⟩ =>
    hnext value changed later hgrows hlater hchanged hpost

/-- A step on types and frame, as a step of a body. -/
theorem framed {step : Framed α} {post : α → TypeGraph → Prop}
    (hsound : knowledge.Sound declarations)
    (hstep : Frame.Keeps knowledge.graph arguments (step frame knowledge.graph) post) :
    Body.Keeps declarations arguments knowledge ((liftM step : Body α) frame knowledge)
      fun value later => post value later.graph :=
  Building.within_ends hsound hstep fun _ _ hpost => hpost.1.wellFormed

/-- A step on types and frame, before steps of a body. -/
theorem framed_bind {step : Framed α} {next : α → Body β} {post : α → TypeGraph → Prop}
    {post' : β → Knowledge → Prop} (hsound : knowledge.Sound declarations)
    (hstep : Frame.Keeps knowledge.graph arguments (step frame knowledge.graph) post)
    (hnext : ∀ value changed later, knowledge.Learns declarations later → later.Sound declarations →
      changed.Sound later.graph arguments → post value later.graph →
      Body.Keeps declarations arguments later (next value changed later) post') :
    Body.Keeps declarations arguments knowledge
      (((liftM step : Body α) >>= next) frame knowledge) post' :=
  (framed hsound hstep).bind hnext

theorem getKnowledge_bind {next : Knowledge → Body β} {post : β → Knowledge → Prop}
    (hnext : Body.Keeps declarations arguments knowledge (next knowledge frame knowledge) post) :
    Body.Keeps declarations arguments knowledge
      (((getThe Knowledge : Body Knowledge) >>= next) frame knowledge) post := hnext

theorem modifyFrame_bind {change : Frame → Frame} {next : PUnit → Body β}
    {post : β → Knowledge → Prop} (hnext : Body.Keeps declarations arguments knowledge
      (next ⟨⟩ (change frame) knowledge) post) :
    Body.Keeps declarations arguments knowledge
      (((modifyThe Frame change : Body PUnit) >>= next) frame knowledge) post := hnext

theorem modifyGetFrame_bind {change : Frame → α × Frame} {next : α → Body β}
    {post : β → Knowledge → Prop} (hnext : Body.Keeps declarations arguments knowledge
      (next (change frame).1 (change frame).2 knowledge) post) :
    Body.Keeps declarations arguments knowledge
      (((modifyGetThe Frame change : Body α) >>= next) frame knowledge) post := hnext

theorem reject_bind {cause : Cause} {next : α → Body β} {post : β → Knowledge → Prop}
    (hsound : knowledge.Sound declarations)
    (hharmless : (Failure.rejected (.cause cause)).Harmless) :
    Body.Keeps declarations arguments knowledge
      (((reject cause : Body α) >>= next) frame knowledge) post :=
  ⟨.refl declarations knowledge, hsound, hharmless⟩

/-- A step that only reads, before steps of a body. -/
theorem checked_bind {step : Checked α} {next : α → Body β} {post : α → Prop}
    {post' : β → Knowledge → Prop} (hsound : knowledge.Sound declarations)
    (hstep : Checked.Harmless step post)
    (hnext : ∀ value, post value →
      Body.Keeps declarations arguments knowledge (next value frame knowledge) post') :
    Body.Keeps declarations arguments knowledge
      (((liftM step : Body α) >>= next) frame knowledge) post' := by
  cases step with
  | ok value => exact hnext value hstep
  | error failure => exact ⟨.refl declarations knowledge, hsound, hstep⟩

/-- A step on what is known, before steps of a body.  The frame is left alone. -/
theorem knowing_bind {step : Knowing α} {next : α → Body β} {post : α → Knowledge → Prop}
    {post' : β → Knowledge → Prop} (hframe : frame.Sound knowledge.graph arguments)
    (hstep : (learning declarations).Ends knowledge (step knowledge) fun value later =>
      later.Sound declarations ∧ post value later)
    (hnext : ∀ value later, knowledge.Learns declarations later → later.Sound declarations →
      frame.Sound later.graph arguments → post value later →
      Body.Keeps declarations arguments later (next value frame later) post') :
    Body.Keeps declarations arguments knowledge
      (((liftM step : Body α) >>= next) frame knowledge) post' :=
  Discipline.Ends.lift_bind hstep fun value later hgrows ⟨hlater, hpost⟩ =>
    hnext value later hgrows hlater (hframe.mono hgrows.graph hlater.graph) hpost

theorem mapM {ι : Type} {body : ι → Body α} (items : List ι) (holds : α → Knowledge → Prop)
    (hknowledge : knowledge.Sound declarations) (hframe : frame.Sound knowledge.graph arguments)
    (hmono : ∀ value earlier later, earlier.Learns declarations later → holds value earlier →
      holds value later)
    (hbody : ∀ item ∈ items, ∀ frame later, knowledge.Learns declarations later →
      later.Sound declarations →
      frame.Sound later.graph arguments →
      Body.Keeps declarations arguments later (body item frame later) holds) :
    Body.Keeps declarations arguments knowledge (items.mapM body frame knowledge)
      fun values later => values.length = items.length ∧ ∀ value ∈ values, holds value later := by
  refine (Discipline.Ends.mapM_forall items (fun changed later =>
    knowledge.Learns declarations later ∧
    later.Sound declarations ∧ changed.Sound later.graph arguments) holds
    ⟨.refl declarations knowledge, hknowledge, hframe⟩ hmono ?_).mono ?_
  · intro item hmem changed later hpost
    obtain ⟨hgrows, hlater, hchanged⟩ := hpost
    refine Discipline.Ends.mono (hbody item hmem changed later hgrows hlater hchanged) ?_
    intro result final hgrows' hpost
    obtain ⟨hfinal, hlast, hholds⟩ := hpost
    exact ⟨⟨hgrows.trans hgrows', hfinal, hlast⟩, hholds⟩
  · intro result later _ hpost
    obtain ⟨⟨-, hlater, hchanged⟩, hvalues⟩ := hpost
    exact ⟨hlater, hchanged, hvalues⟩

end Body.Keeps

end Layers

/-! ## Calls -/

namespace Binding

variable {graph : TypeGraph} {arguments : List TypeId} {frame : Frame} {binding : Binding}
  {summary : Summary}

/-- The slots of a summary stand for operands of the caller, and the result slot does so if
the summary returns a new object. -/
structure Fits (graph : TypeGraph) (arguments : List TypeId) (summary : Summary)
    (binding : Binding) : Prop where
  rooted : ∀ operand ∈ binding.arguments, operand.RootedIn graph arguments
  length_arguments : binding.arguments.length = summary.signature.arguments.length
  result : ∀ type className, summary.result = .type type →
    graph.className? type = some className → binding.result?.isSome = true

theorem slot_keeps (hfits : binding.Fits graph arguments summary)
    (hsound : frame.Sound graph arguments) {slot : Nat}
    (hslot : (binding.slot? slot).isSome = true) :
    Frame.Keeps graph arguments (binding.slot slot frame graph) fun operand grown =>
      operand.RootedIn grown arguments := by
  obtain ⟨operand, hoperand⟩ := Option.isSome_iff_exists.mp hslot
  have hrooted : operand.RootedIn graph arguments := by
    cases slot with
    | zero =>
      obtain ⟨id, -, rfl⟩ := Option.map_eq_some_iff.mp hoperand
      trivial
    | succ slot => exact hfits.rooted operand (List.mem_of_getElem? hoperand)
  unfold Binding.slot
  rw [hoperand]
  exact Frame.resolve_keeps hsound hrooted

theorem slot?_isSome_of_rootedIn (hfits : binding.Fits graph arguments summary)
    {place : AccessPath} (hplace : place.RootedIn graph summary.signature.arguments) :
    (binding.slot? place.root).isSome = true := by
  obtain ⟨slot, type, className, hroot, hslot, -⟩ := hplace
  obtain ⟨hlt, -⟩ := List.getElem?_eq_some_iff.mp hslot
  rw [← hfits.length_arguments] at hlt
  rw [hroot]
  exact Option.isSome_iff_exists.mpr ⟨_, List.getElem?_eq_getElem hlt⟩

theorem place_keeps (hfits : binding.Fits graph arguments summary)
    (hsound : frame.Sound graph arguments) {place : AccessPath}
    (hplace : place.RootedIn graph summary.signature.arguments) :
    Frame.Keeps graph arguments (binding.place place frame graph) fun operand grown =>
      operand.RootedIn grown arguments := by
  unfold Binding.place
  refine (slot_keeps hfits hsound (slot?_isSome_of_rootedIn hfits hplace)).run_bind ?_
  intro base changed later _ hpost
  obtain ⟨hchanged, hbase⟩ := hpost
  exact Frame.readAlong_keeps hchanged hbase place.selectors

theorem value_keeps (hfits : binding.Fits graph arguments summary)
    (hsound : frame.Sound graph arguments) {value : Value}
    (hvalue : value.RootedIn graph summary.signature.arguments) :
    Frame.Keeps graph arguments (binding.value value frame graph) fun operand grown =>
      operand.RootedIn grown arguments := by
  cases value with
  | type held => exact .run_pure ⟨hsound, hvalue⟩
  | path place => exact place_keeps hfits hsound hvalue

theorem Fits.mono {grown : TypeGraph} (hfits : binding.Fits graph arguments summary)
    (hsummary : summary.WellFormed graph) (hgrows : graph.Grows grown) :
    binding.Fits grown arguments summary where
  rooted operand hmem := (hfits.rooted operand hmem).mono hgrows
  length_arguments := hfits.length_arguments
  result type className hresult hclass := by
    have hhas : graph.Has type := by
      have := hsummary.result
      rwa [hresult] at this
    exact hfits.result type className hresult ((hgrows.className?_eq hhas).symm.trans hclass)

/-- A write of the summary starts from a slot that stands for something, and so does its value:
it is below an argument, or below the result, which was allocated at the call then. -/
theorem Fits.binds (hfits : binding.Fits graph arguments summary)
    (hsummary : summary.WellFormed graph) {write : Write} (hmem : write ∈ summary.writes) :
    (binding.slot? write.target.root).isSome = true ∧
      write.value.RootedIn graph summary.signature.arguments := by
  obtain ⟨own, returned, hwrites, hown, hreturned, hobject⟩ := hsummary.writes
  rw [hwrites] at hmem
  rcases List.mem_append.mp hmem with hmem | hmem
  · exact ⟨slot?_isSome_of_rootedIn hfits (hown write hmem).target, (hown write hmem).value⟩
  · obtain ⟨hroot, -, source, hvalue, hsource⟩ := hreturned write hmem
    obtain ⟨type, className, hresult, hclass⟩ := hobject (List.ne_nil_of_mem hmem)
    refine ⟨?_, hvalue ▸ hsource⟩
    rw [hroot]
    simpa [slot?, AccessPath.resultSlot] using hfits.result type className hresult hclass

theorem write_keeps (hfits : binding.Fits graph arguments summary)
    (hsummary : summary.WellFormed graph) (hsound : frame.Sound graph arguments) {write : Write}
    (hmem : write ∈ summary.writes) :
    Frame.Keeps graph arguments (binding.write write frame graph) fun _ _ => True := by
  obtain ⟨hslot, hvalue⟩ := hfits.binds hsummary hmem
  unfold Binding.write
  refine (slot_keeps hfits hsound hslot).run_bind ?_
  intro base changed later hgrows hpost
  obtain ⟨hchanged, hbase⟩ := hpost
  refine (value_keeps (hfits.mono hsummary hgrows) hchanged (hvalue.mono hgrows)).run_bind ?_
  intro value last final hgrows' hpost
  obtain ⟨hlast, hvalue⟩ := hpost
  exact Frame.writeAlong_keeps hlast (hbase.mono hgrows') write.target.selectors hvalue

theorem replay_keeps (hfits : binding.Fits graph arguments summary)
    (hsummary : summary.WellFormed graph) (hsound : frame.Sound graph arguments) :
    Frame.Keeps graph arguments (binding.replay summary frame graph) fun operand grown =>
      operand.RootedIn grown arguments := by
  unfold replay
  refine (Discipline.Ends.forM summary.writes (fun changed later =>
    graph.Grows later ∧ changed.Sound later arguments) ⟨.refl graph, hsound⟩ ?_).run_bind ?_
  · intro write hmem changed later hpost
    obtain ⟨hgrows, hchanged⟩ := hpost
    refine (write_keeps (hfits.mono hsummary hgrows) (hsummary.mono hgrows) hchanged hmem).mono ?_
    intro result final hgrows' hpost
    obtain ⟨hlast, -⟩ := hpost
    exact ⟨hgrows.trans hgrows', hlast⟩
  · intro _ changed later _ hpost
    obtain ⟨hgrows, hchanged⟩ := hpost
    unfold Binding.result
    cases binding.result? with
    | none => exact value_keeps (hfits.mono hsummary hgrows) hchanged (hsummary.result.mono hgrows)
    | some id =>
      have hrooted : (Operand.fresh id).RootedIn later arguments := trivial
      exact Frame.resolve_keeps hchanged hrooted

end Binding

section Calls

variable {arguments : List TypeId} {knowledge : Knowledge} {frame : Frame}

/-- The new object that a summary returns is allocated at the call. -/
theorem expandResult_keeps {graph : TypeGraph} (hsound : frame.Sound graph arguments)
    (summary : Summary) :
    Frame.Keeps graph arguments
      ((match summary.result with
        | .type type => reading fun graph => Frame.expand? graph type
        | .path _ => pure none : Framed (Option AllocId)) frame graph)
      fun result? _ => ∀ type className, summary.result = .type type →
        graph.className? type = some className → result?.isSome = true := by
  cases summary.result with
  | path place => exact .run_pure ⟨hsound, fun type className hresult => nomatch hresult⟩
  | type type =>
    refine Discipline.Ends.mono (Discipline.Ends.reading hsound.wellFormed
      (Frame.expand?_safe hsound type)) ?_
    intro result later _ hpost
    obtain ⟨rfl, hexpanded, hobject⟩ := hpost
    refine ⟨hexpanded, fun other className hresult hclass => ?_⟩
    cases hresult
    exact hobject className hclass

theorem call_keeps {analyst : Analyst} (hanalyst : analyst.Sound declarations)
    (hsound : knowledge.Sound declarations) (hframe : frame.Sound knowledge.graph arguments)
    {span : Span} {method : String} {target : DefId} {operands : List Operand}
    (hoperands : ∀ operand ∈ operands, operand.RootedIn knowledge.graph arguments) :
    Body.Keeps declarations arguments knowledge
      (call analyst declarations span method target operands frame knowledge)
      fun operand later => operand.RootedIn later.graph arguments := by
  have hrooted : ∀ (operand : Operand) earlier later, Knowledge.Learns declarations earlier later →
      operand.RootedIn earlier.graph arguments → operand.RootedIn later.graph arguments :=
    fun operand earlier later hgrows hoperand => hoperand.mono hgrows.graph
  unfold call
  refine (Body.Keeps.mapM operands _ hsound hframe hrooted fun operand hmem changed later hgrows
    hlater hchanged => ?_).bind ?_
  · exact .framed hlater (Frame.resolve_keeps hchanged
      (hrooted operand _ _ hgrows (hoperands operand hmem)))
  intro resolved changed later hgrows hlater hchanged hpost
  obtain ⟨hlength, hresolved⟩ := hpost
  refine (Body.Keeps.mapM resolved (fun type known => known.graph.Has type) hlater hchanged
    (fun type earlier later hgrows hhas => hgrows.graph.has hhas)
    fun operand hmem frame known hgrows' hknown hframe' => ?_).bind ?_
  · exact .framed hknown (Frame.currentType_keeps hframe'
      (hrooted operand _ _ hgrows' (hresolved operand hmem)))
  intro types typed known hgrows' hknown htyped hpost
  obtain ⟨hlength', htypes⟩ := hpost
  refine .knowing_bind htyped (hanalyst target types known hknown htypes) ?_
  intro id final hgrown hfinal hframe' hanswers
  obtain ⟨summary, hsummary, hwell, hcount⟩ := hfinal.exists_answered hanswers
  refine .getKnowledge_bind (.checked_bind hfinal (final.summary_safe id) fun held hheld => ?_)
  obtain rfl := Option.some.inj (hsummary.symm.trans hheld)
  have hresolved' : ∀ operand ∈ resolved, operand.RootedIn final.graph arguments :=
    fun operand hmem => hrooted operand _ _ (hgrows'.trans hgrown) (hresolved operand hmem)
  refine .framed_bind hfinal (expandResult_keeps hframe' summary) ?_
  intro result? expanded last hgrows₁ hlast hexpanded hresult
  -- From here on the summary is replayed in the frame of the caller.
  let binding : Binding := ⟨declarations, span, method, resolved, result?⟩
  have hfits : binding.Fits final.graph arguments summary :=
    ⟨hresolved', hlength'.symm.trans hcount, hresult⟩
  refine .framed_bind hlast (Binding.replay_keeps (hfits.mono hwell hgrows₁.graph)
    (hwell.mono hgrows₁.graph) hexpanded) ?_
  intro operand replayed later' hgrows₂ hlater' hreplayed hoperand
  refine .framed_bind hlater' (Frame.express_keeps hreplayed hoperand) ?_
  intro value told last' hgrows₃ hlast' htold hvalue
  exact .modifyFrame_bind (.pure hlast' (htold.recordCall hvalue)
    (hrooted operand _ _ hgrows₃ hoperand))

end Calls

/-! ## Expressions -/

namespace Scope

variable {scope : Scope} {arguments : List TypeId}

section Messages

variable {graph : TypeGraph} {frame : Frame} {span : Span}

theorem slotOperand_keeps (hsound : frame.Sound graph arguments) (slot : Nat) :
    Frame.Keeps graph arguments
      (inspect (fun graph frame => frame.slotOperand graph slot) frame graph)
      fun operand grown => operand.RootedIn grown arguments := by
  refine Discipline.Ends.mono (Discipline.Ends.inspect _ hsound.wellFormed
    (hsound.slotOperand slot)) ?_
  intro result later _ hpost
  obtain ⟨operand, changed⟩ := result
  obtain ⟨rfl, rfl, hoperand⟩ := hpost
  exact ⟨hsound, hoperand⟩

theorem this_keeps (hsound : frame.Sound graph arguments) :
    Frame.Keeps graph arguments (scope.this span frame graph) fun operand grown =>
      operand.RootedIn grown arguments := by
  unfold this
  split
  · exact slotOperand_keeps hsound 1
  · exact .reject hsound.wellFormed (harmless_cause (by simp))

theorem name_keeps (hsound : frame.Sound graph arguments) (name : String) :
    Frame.Keeps graph arguments (scope.name span name frame graph) fun operand grown =>
      operand.RootedIn grown arguments := by
  unfold Scope.name
  refine .get_bind ?_
  cases hlocal : frame.locals.get? name with
  | some operand => exact Frame.resolve_keeps hsound (hsound.locals name operand hlocal)
  | none =>
    cases scope.definition.slotOf? name with
    | some slot => exact slotOperand_keeps hsound slot
    | none => exact .reject hsound.wellFormed (harmless_cause (by simp))

theorem read_keeps (hsound : frame.Sound graph arguments) {base : Operand}
    (hbase : base.RootedIn graph arguments) (selector : Selector) :
    Frame.Keeps graph arguments (scope.read span base selector frame graph)
      fun operand grown => operand.RootedIn grown arguments := by
  refine Discipline.Ends.mono (Discipline.Ends.reading hsound.wellFormed
    (Frame.read_safe hsound hbase selector)) ?_
  intro result later _ hpost
  obtain ⟨rfl, hresult⟩ := hpost
  exact hresult

theorem dispatch_keeps (hsound : frame.Sound graph arguments) (receiver : Operand)
    (method : String) :
    Frame.Keeps graph arguments (scope.dispatch span receiver method frame graph)
      fun _ _ => True := by
  have hwell := hsound.wellFormed
  unfold dispatch
  refine (Discipline.Ends.inspect _ hwell (hsound.classOf? receiver)).run_bind ?_
  intro className? changed later _ hpost
  obtain ⟨rfl, rfl, -⟩ := hpost
  cases className? with
  | none => exact .reject hwell (harmless_cause (by simp))
  | some className =>
    dsimp only
    cases scope.declarations.method? className method with
    | some target => exact .run_pure ⟨hsound, trivial⟩
    | none => exact .reject hwell (harmless_cause (by simp))

theorem resolveCall_keeps (hsound : frame.Sound graph arguments) (name : String) :
    Frame.Keeps graph arguments (scope.resolveCall span name frame graph)
      fun result grown => ∀ operand ∈ result.1, operand.RootedIn grown arguments := by
  have hwell := hsound.wellFormed
  unfold resolveCall
  cases scope.definition.owner?.bind fun owner => scope.declarations.method? owner name with
  | some target =>
    refine (this_keeps hsound).run_bind ?_
    intro receiver changed later _ hpost
    obtain ⟨hchanged, hreceiver⟩ := hpost
    exact .run_pure ⟨hchanged, by simpa using hreceiver⟩
  | none =>
    cases scope.declarations.function? name with
    | some target => exact .run_pure ⟨hsound, by simp⟩
    | none => exact .reject hwell (harmless_cause (by simp))

theorem allocate_keeps (hsound : frame.Sound graph arguments) (className : String) :
    Frame.Keeps graph arguments (scope.allocate span className frame graph) fun _ _ => True := by
  unfold Scope.allocate
  cases scope.declarations.class? className with
  | none => exact .reject hsound.wellFormed (harmless_cause (by simp))
  | some info => exact .run_pure ⟨hsound.allocate (.empty className), trivial⟩

theorem addElement_keeps (hsound : frame.Sound graph arguments) (array : AllocId)
    (expected? : Option TypeId) {value : Operand} (hvalue : value.RootedIn graph arguments) :
    Frame.Keeps graph arguments (scope.addElement span array expected? value frame graph)
      fun _ _ => True := by
  unfold addElement
  refine (Frame.currentType_keeps hsound hvalue).run_bind ?_
  intro type changed later hgrows hpost
  obtain ⟨hchanged, -⟩ := hpost
  cases expected? with
  | none =>
    refine (Frame.setPart_keeps hchanged array .element (hvalue.mono hgrows)).run_bind ?_
    intro _ set final _ hpost
    obtain ⟨hset, -⟩ := hpost
    exact .run_pure ⟨hset, trivial⟩
  | some expected =>
    refine .getBase_bind ?_
    dsimp only
    split
    · exact .run_pure ⟨hchanged, trivial⟩
    · exact .reject hchanged.wellFormed (harmless_cause (by simp))

end Messages

/-- Evaluating keeps what is known and the frame sound, and answers an operand that is rooted
in the arguments. -/
def Evaluates {α : Type} (declarations : Declarations) (arguments : List TypeId) (step : Body α)
    (post : α → Knowledge → Prop) : Prop :=
  ∀ frame knowledge, Knowledge.Sound declarations knowledge →
    frame.Sound knowledge.graph arguments →
    Body.Keeps declarations arguments knowledge (step frame knowledge) post

mutual

theorem evaluate_keeps (hanalyst : scope.analyst.Sound scope.declarations) (expr : Expr) :
    Evaluates scope.declarations arguments (scope.evaluate expr) fun operand later =>
      operand.RootedIn later.graph arguments := by
  intro frame knowledge hknown hframe
  cases expr with
  | integer span value =>
    unfold evaluate
    exact .pure hknown hframe hknown.graph.has_scalar
  | name span name =>
    unfold evaluate
    exact .framed hknown (name_keeps hframe name)
  | this span =>
    unfold evaluate
    exact .framed hknown (this_keeps hframe)
  | ownField span name =>
    unfold evaluate
    refine .framed_bind hknown (this_keeps hframe) ?_
    intro object changed later _ hlater hchanged hobject
    exact .framed hlater (read_keeps hchanged hobject (.field name))
  | read span object selector =>
    unfold evaluate
    refine (evaluate_keeps hanalyst object frame knowledge hknown hframe).bind ?_
    intro object changed later _ hlater hchanged hobject
    exact .framed hlater (read_keeps hchanged hobject selector)
  | create span className exprs =>
    unfold evaluate
    refine .framed_bind hknown (allocate_keeps hframe className) ?_
    intro result changed later _ hlater hchanged _
    obtain ⟨id, setUp?⟩ := result
    have hfresh : ∀ graph, (Operand.fresh id).RootedIn graph arguments := fun _ => trivial
    cases setUp? with
    | some setUp =>
      refine (evaluateAll_keeps hanalyst exprs changed later hlater hchanged).bind ?_
      intro operands last known _ hknown' hlast hoperands
      refine (call_keeps hanalyst hknown' hlast
        (List.forall_mem_cons.mpr ⟨hfresh known.graph, hoperands⟩)).bind ?_
      intro _ called final _ hfinal hcalled _
      exact .framed hfinal (Frame.resolve_keeps hcalled (hfresh final.graph))
    | none =>
      dsimp only
      split
      · exact .framed hlater (Frame.resolve_keeps hchanged (hfresh later.graph))
      · exact .reject_bind hlater (harmless_cause (by simp))
  | allocate span className =>
    unfold evaluate
    refine .framed_bind hknown (allocate_keeps hframe className) ?_
    intro result changed later _ hlater hchanged _
    obtain ⟨id, setUp?⟩ := result
    exact .pure hlater hchanged trivial
  | array span elements =>
    unfold evaluate
    refine .modifyGetFrame_bind ?_
    have hallocated := hframe.allocate (.empty Declarations.arrayName)
    refine (evaluateElements_keeps hanalyst _ none elements _ knowledge hknown hallocated).bind ?_
    intro _ changed later _ hlater hchanged _
    exact .pure hlater hchanged trivial
  | bind span name value =>
    unfold evaluate
    refine (evaluate_keeps hanalyst value frame knowledge hknown hframe).bind ?_
    intro operand changed later _ hlater hchanged hoperand
    exact .modifyFrame_bind (.pure hlater (hchanged.setLocal name hoperand) hoperand)
  | write span object selector value =>
    unfold evaluate
    refine (evaluate_keeps hanalyst object frame knowledge hknown hframe).bind ?_
    intro base changed later _ hlater hchanged hbase
    refine (evaluate_keeps hanalyst value changed later hlater hchanged).bind ?_
    intro operand last final hgrows hfinal hlast hoperand
    exact .framed hfinal (Frame.write_keeps hlast (hbase.mono hgrows.graph) selector hoperand)
  | send span object method exprs =>
    unfold evaluate
    refine (evaluate_keeps hanalyst object frame knowledge hknown hframe).bind ?_
    intro receiver changed later _ hlater hchanged hreceiver
    refine .framed_bind hlater (dispatch_keeps hchanged receiver method) ?_
    intro target changed' later' hgrows hlater' hchanged' _
    refine (evaluateAll_keeps hanalyst exprs changed' later' hlater' hchanged').bind ?_
    intro operands last final hgrows' hfinal hlast hoperands
    exact call_keeps hanalyst hfinal hlast (List.forall_mem_cons.mpr
      ⟨hreceiver.mono (hgrows.trans hgrows').graph, hoperands⟩)
  | apply span name exprs =>
    unfold evaluate
    refine .framed_bind hknown (resolveCall_keeps hframe name) ?_
    intro result changed later _ hlater hchanged hreceiver
    obtain ⟨receiver, target⟩ := result
    refine (evaluateAll_keeps hanalyst exprs changed later hlater hchanged).bind ?_
    intro operands last final hgrows hfinal hlast hoperands
    refine call_keeps hanalyst hfinal hlast (List.forall_mem_append.mpr ⟨fun operand hmem => ?_,
      hoperands⟩)
    exact (hreceiver operand hmem).mono hgrows.graph

theorem evaluateAll_keeps (hanalyst : scope.analyst.Sound scope.declarations)
    (exprs : List Expr) :
    Evaluates scope.declarations arguments (scope.evaluateAll exprs) fun operands later =>
      ∀ operand ∈ operands, operand.RootedIn later.graph arguments := by
  intro frame knowledge hknown hframe
  cases exprs with
  | nil =>
    unfold evaluateAll
    exact .pure hknown hframe (by simp)
  | cons expr rest =>
    unfold evaluateAll
    refine (evaluate_keeps hanalyst expr frame knowledge hknown hframe).bind ?_
    intro operand changed later _ hlater hchanged hoperand
    refine (evaluateAll_keeps hanalyst rest changed later hlater hchanged).bind ?_
    intro operands last final hgrows hfinal hlast hoperands
    exact .pure hfinal hlast (List.forall_mem_cons.mpr
      ⟨hoperand.mono hgrows.graph, hoperands⟩)

theorem evaluateElements_keeps (hanalyst : scope.analyst.Sound scope.declarations)
    (array : AllocId) (expected? : Option TypeId) (exprs : List Expr) :
    Evaluates scope.declarations arguments (scope.evaluateElements array expected? exprs)
      fun _ _ => True := by
  intro frame knowledge hknown hframe
  cases exprs with
  | nil =>
    unfold evaluateElements
    exact .pure hknown hframe trivial
  | cons expr rest =>
    unfold evaluateElements
    refine (evaluate_keeps hanalyst expr frame knowledge hknown hframe).bind ?_
    intro operand changed later _ hlater hchanged hoperand
    refine .framed_bind hlater (addElement_keeps hchanged array expected? hoperand) ?_
    intro expected added final _ hfinal hadded _
    exact evaluateElements_keeps hanalyst array (some expected) rest added final hfinal hadded

end

theorem evaluateBody_keeps (hanalyst : scope.analyst.Sound scope.declarations)
    (body : List Expr) :
    Evaluates scope.declarations arguments (scope.evaluateBody body) fun operand later =>
      operand.RootedIn later.graph arguments := by
  intro frame knowledge hknown hframe
  have hstart : (Operand.type TypeGraph.scalar).RootedIn knowledge.graph arguments :=
    hknown.graph.has_scalar
  refine Discipline.Ends.foldlM body (fun (result : Operand × Frame) (later : Knowledge) =>
    later.Sound scope.declarations ∧ result.2.Sound later.graph arguments ∧
      result.1.RootedIn later.graph arguments) ⟨hknown, hframe, hstart⟩ ?_
  intro expr _ operand changed later hpost
  obtain ⟨hlater, hchanged, -⟩ := hpost
  exact evaluate_keeps hanalyst expr changed later hlater hchanged

end Scope

end ShapeFlow
