import ShapeFlow.Proofs.QuietSteps

/-!
# The writes that a body makes

Of all that a body does, callers see its writes to parts of places.  `Scope.stores` lists them
along the rules of evaluation, each with the frame in which it is made: those of an expression
are the ones of its subexpressions, in the order in which these are evaluated, and then its own.
A call makes the writes that it repeats from the summary of the callee.

`Frame.Evolves` says of two frames of one body that the first one has become the second one by
quiet steps and by the listed writes.  The evaluation of an expression evolves the frame by the
writes of the expression (`Scope.evaluate_evolves`), so what quiet steps and writes preserve is
preserved by every body.
-/

namespace ShapeFlow

/-- A write to a part of a place, at the moment at which the place has been vacated. -/
structure Store where
  frame : Frame
  graph : TypeGraph
  /-- The part that is written. -/
  target : AccessPath
  /-- What is written, rebound where it was told by the target. -/
  value : Operand

section Lists

variable {τ α : Type}

/-- The writes of a step and of the steps after it. -/
def storesThen (step : StateT Frame (EStateM Failure τ) α) (own : Frame → τ → List Store)
    (next : α → Frame → τ → List Store) : Frame → τ → List Store := fun frame state =>
  own frame state ++
    match step frame state with
    | .ok (value, later) final => next value later final
    | .error _ _ => []

/-- No writes are made. -/
def noStores : Frame → τ → List Store := fun _ _ => []

/-- The writes of the steps after a quiet one. -/
def storesAfter (step : StateT Frame (EStateM Failure τ) α)
    (next : α → Frame → τ → List Store) : Frame → τ → List Store :=
  storesThen step noStores next

end Lists

namespace Frame

variable (declarations : Declarations) (span : Span)

/-- The write to one part of an operand, if the part is one of a place. -/
def stores (base : Operand) (selector : Selector) (value : Operand) (frame : Frame)
    (graph : TypeGraph) : List Store :=
  match frame.resolve base, frame.resolve value with
  | .ok (.path place), .ok value =>
    match vacate declarations span (place.child selector) value frame graph with
    | .ok (value, vacated) grown => [⟨vacated, grown, place.child selector, value⟩]
    | .error _ _ => []
  | _, _ => []

/-- The write to the part at the end of a chain of selectors. -/
def storesAlong (base : Operand) (selectors : List Selector) (value : Operand) :
    Frame → TypeGraph → List Store :=
  match selectors.getLast? with
  | none => noStores
  | some last =>
    storesAfter (reading fun graph =>
      readAlong declarations span graph base selectors.dropLast) fun object =>
        stores declarations span object last value

end Frame

namespace Binding

variable (binding : Binding)

/-- The writes made when a write of the callee is repeated. -/
def stores (write : Write) : Frame → TypeGraph → List Store :=
  storesAfter (binding.slot write.target.root) fun base =>
    storesAfter (binding.value write.value) fun value =>
      Frame.storesAlong binding.declarations binding.span base write.target.selectors value

/-- The writes made when one write of the callee after the other is repeated. -/
def storesAll : List Write → Frame → TypeGraph → List Store
  | [] => noStores
  | write :: rest => storesThen (binding.write write) (binding.stores write) fun _ =>
    storesAll rest

end Binding

namespace Scope

variable (scope : Scope)

/-- The writes that a call makes. -/
def callStores (span : Span) (method : String) (target : DefId) (arguments : List Operand) :
    Frame → Knowledge → List Store :=
  storesAfter (arguments.mapM fun argument =>
      (inspect fun _ frame => frame.resolve argument : Framed Operand) : Body (List Operand))
    fun arguments =>
  storesAfter (arguments.mapM fun argument =>
      (Frame.currentType scope.declarations span argument : Framed TypeId) :
        Body (List TypeId)) fun types =>
  storesAfter (scope.analyst target types : Body SummaryId) fun id =>
  storesAfter (getThe Knowledge : Body Knowledge) fun knowledge =>
  storesAfter (knowledge.summary id : Body Summary) fun summary =>
  storesAfter ((match summary.result with
    | .type type => reading fun graph => Frame.expand? graph type
    | .path _ => pure none : Framed (Option AllocId)) : Body (Option AllocId))
    fun result? frame knowledge =>
      Binding.storesAll ⟨scope.declarations, span, method, arguments, result?⟩ summary.writes frame
        knowledge.graph

mutual

/-- The writes that the evaluation of an expression makes. -/
def stores : Expr → Frame → Knowledge → List Store
  | .integer _ _ | .name _ _ | .this _ | .ownField _ _ | .allocate _ _ => noStores
  | .read _ object _ => stores object
  | .create span className arguments =>
    storesAfter (scope.allocate span className : Body (AllocId × Option DefId)) fun result =>
      match result.2 with
      | none => noStores
      | some setUp =>
        storesThen (scope.evaluateAll arguments) (storesAll arguments) fun operands =>
          scope.callStores span setUpName setUp (.fresh result.1 :: operands)
  | .array _ elements =>
    storesAfter (modifyGetThe Frame (Frame.allocate { className := Declarations.arrayName }) :
      Body AllocId) fun id => storesElements id none elements
  | .bind _ _ value => stores value
  | .write span object selector value =>
    storesThen (scope.evaluate object) (stores object) fun base =>
      storesThen (scope.evaluate value) (stores value) fun operand frame knowledge =>
        Frame.stores scope.declarations span base selector operand frame knowledge.graph
  | .send span object method arguments =>
    storesThen (scope.evaluate object) (stores object) fun receiver =>
      storesAfter (scope.dispatch span receiver method : Body DefId) fun target =>
        storesThen (scope.evaluateAll arguments) (storesAll arguments) fun operands =>
          scope.callStores span method target (receiver :: operands)
  | .apply span name arguments =>
    storesAfter (scope.resolveCall span name : Body (List Operand × DefId)) fun result =>
      storesThen (scope.evaluateAll arguments) (storesAll arguments) fun operands =>
        scope.callStores span name result.2 (result.1 ++ operands)

/-- The writes that the evaluation of expressions makes, from left to right. -/
def storesAll : List Expr → Frame → Knowledge → List Store
  | [] => noStores
  | expr :: rest =>
    storesThen (scope.evaluate expr) (stores expr) fun _ => storesAll rest

/-- The writes that the evaluation of the elements of an array makes. -/
def storesElements (array : AllocId) : Option TypeId → List Expr → Frame → Knowledge → List Store
  | _, [] => noStores
  | expected?, expr :: rest =>
    storesThen (scope.evaluate expr) (stores expr) fun operand =>
      storesAfter (scope.addElement expr.span array expected? operand : Body TypeId)
        fun expected => storesElements array (some expected) rest

end

/-- The writes that a body makes. -/
def bodyStores (body : List Expr) : Frame → Knowledge → List Store := scope.storesAll body

end Scope

/-! ## Frames evolve by writes -/

/-- Quiet steps and the listed writes lead from one frame of a body to the other. -/
inductive Frame.Evolves (declarations : Declarations) (arguments : List TypeId) :
    Frame → TypeGraph → List Store → Frame → TypeGraph → Prop where
  | quiet {frame later : Frame} {graph grown : TypeGraph} (hgrows : graph.Grows grown)
    (hquiet : frame.Quiet later) : Evolves declarations arguments frame graph [] later grown
  | write {frame later : Frame} {graph grown : TypeGraph} {span : Span}
    {base value result : Operand} {selector : Selector} (hsound : frame.Sound graph arguments)
    (hbase : base.RootedIn graph arguments) (hvalue : value.RootedIn graph arguments)
    (hwrite : write declarations span base selector value frame graph =
      .ok (result, later) grown) :
    Evolves declarations arguments frame graph
      (stores declarations span base selector value frame graph) later grown
  | append {frame later last : Frame} {graph grown final : TypeGraph}
    {first second : List Store}
    (hfirst : Evolves declarations arguments frame graph first later grown)
    (hsecond : Evolves declarations arguments later grown second last final) :
    Evolves declarations arguments frame graph (first ++ second) last final

/-- States that carry a graph of types, which only grows. -/
class Typed (τ : Type) extends Growing τ where
  graph : τ → TypeGraph
  graph_grows : ∀ {first second : τ}, Grows first second → (graph first).Grows (graph second)

instance : Typed TypeGraph where
  graph := id
  graph_grows hgrows := hgrows

instance : Typed Knowledge where
  graph := Knowledge.graph
  graph_grows hgrows := Knowledge.Grows.graph hgrows

/-- Where the step succeeds, it evolves the frame by the listed writes. -/
def Evolving {τ α : Type} [Typed τ] (declarations : Declarations) (arguments : List TypeId)
    (step : StateT Frame (EStateM Failure τ) α) (own : Frame → τ → List Store) (frame : Frame)
    (state : τ) : Prop :=
  ∀ value later final, step frame state = .ok (value, later) final →
    frame.Evolves declarations arguments (Typed.graph state) (own frame state) later
      (Typed.graph final)

/-- A step on types and frame that succeeds in a body. -/
theorem exists_of_framed {α : Type} {step : Framed α} {frame : Frame} {knowledge final : Knowledge}
    {result : α × Frame} (hrun : (liftM step : Body α) frame knowledge = .ok result final) :
    ∃ graph, step frame knowledge.graph = .ok result graph ∧ final = { knowledge with graph } := by
  change Building.within (step frame) knowledge = _ at hrun
  unfold Building.within at hrun
  split at hrun
  · rename_i value graph hresult
    cases hrun
    exact ⟨graph, hresult, rfl⟩
  · cases hrun

namespace Evolving

variable {τ α β : Type} [Typed τ] {declarations : Declarations} {arguments : List TypeId}
  {step : StateT Frame (EStateM Failure τ) α} {next : α → StateT Frame (EStateM Failure τ) β}
  {own : Frame → τ → List Store} {rest : α → Frame → τ → List Store} {frame : Frame} {state : τ}

theorem quiet [hdrifts : RunDrifts step] [hquiet : RunsQuietly step] :
    Evolving declarations arguments step noStores frame state := by
  intro value later final hrun
  have hgrows := (hdrifts.run frame).grows state
  rw [hrun] at hgrows
  exact .quiet (Typed.graph_grows hgrows) (hquiet.run hrun)

theorem bind (hstep : Evolving declarations arguments step own frame state)
    (hnext : ∀ value changed later, step frame state = .ok (value, changed) later →
      Evolving declarations arguments (next value) (rest value) changed later) :
    Evolving declarations arguments (step >>= next) (storesThen step own rest) frame state := by
  intro value later final hrun
  obtain ⟨middle, changed, between, hfirst, hlast⟩ := exists_of_run_bind hrun
  unfold storesThen
  rw [hfirst]
  exact .append (hstep middle changed between hfirst)
    (hnext middle changed between hfirst value later final hlast)

theorem after (hstep : Evolving declarations arguments step noStores frame state)
    (hnext : ∀ value changed later, step frame state = .ok (value, changed) later →
      Evolving declarations arguments (next value) (rest value) changed later) :
    Evolving declarations arguments (step >>= next) (storesAfter step rest) frame state :=
  hstep.bind hnext

/-- Quiet steps behind a step make no writes. -/
theorem before [hdrifts : ∀ value, RunDrifts (next value)]
    [hquiet : ∀ value, RunsQuietly (next value)]
    (hstep : Evolving declarations arguments step own frame state) :
    Evolving declarations arguments (step >>= next) own frame state := by
  intro value later final hrun
  obtain ⟨middle, changed, between, hfirst, hlast⟩ := exists_of_run_bind hrun
  have hevolves := (hstep middle changed between hfirst).append
    (quiet value later final hlast)
  rwa [noStores, List.append_nil] at hevolves

/-- A step on types and frame, as a step of a body. -/
theorem framed {step : Framed α} {own : Frame → TypeGraph → List Store} {knowledge : Knowledge}
    (hstep : Evolving declarations arguments step own frame knowledge.graph) :
    Evolving declarations arguments (liftM step : Body α)
      (fun frame knowledge => own frame knowledge.graph) frame knowledge := by
  intro value later final hrun
  obtain ⟨graph, hresult, rfl⟩ := exists_of_framed hrun
  exact hstep value later graph hresult

end Evolving

/-! ## Calls -/

section Calls

variable {declarations : Declarations} {arguments : List TypeId} {span : Span} {frame : Frame}
  {graph : TypeGraph}

namespace Frame

theorem write_evolving (hsound : frame.Sound graph arguments) {base value : Operand}
    (hbase : base.RootedIn graph arguments) (selector : Selector)
    (hvalue : value.RootedIn graph arguments) :
    Evolving declarations arguments (write declarations span base selector value)
      (stores declarations span base selector value) frame graph :=
  fun _ _ _ hrun => .write hsound hbase hvalue hrun

theorem writeAlong_evolving (hsound : frame.Sound graph arguments) {base value : Operand}
    (hbase : base.RootedIn graph arguments) (selectors : List Selector)
    (hvalue : value.RootedIn graph arguments) :
    Evolving declarations arguments (writeAlong declarations span base selectors value)
      (storesAlong declarations span base selectors value) frame graph := by
  unfold writeAlong storesAlong
  cases selectors.getLast? with
  | none => exact .quiet
  | some last =>
    refine .after .quiet fun object changed later hrun => ?_
    obtain ⟨hgrows, hchanged, hobject⟩ :=
      (readAlong_keeps hsound hbase selectors.dropLast).of_eq_ok hrun
    exact .before (write_evolving hchanged hobject last (hvalue.mono hgrows))

end Frame

namespace Binding

variable {binding : Binding} {summary : Summary}

theorem write_evolving (hfits : binding.Fits graph arguments summary)
    (hsummary : summary.WellFormed graph) (hsound : frame.Sound graph arguments) {write : Write}
    (hmem : write ∈ summary.writes) :
    Evolving binding.declarations arguments (binding.write write) (binding.stores write) frame
      graph := by
  obtain ⟨hslot, hvalue⟩ := hfits.binds hsummary hmem
  unfold Binding.write stores
  refine .after .quiet fun base changed later hrun => ?_
  obtain ⟨hgrows, hchanged, hbase⟩ := (slot_keeps hfits hsound hslot).of_eq_ok hrun
  refine .after .quiet fun value last final hrun => ?_
  obtain ⟨hgrows', hlast, hvalue⟩ := (value_keeps (hfits.mono hsummary hgrows) hchanged
    (hvalue.mono hgrows)).of_eq_ok hrun
  exact Frame.writeAlong_evolving hlast (hbase.mono hgrows') write.target.selectors hvalue

theorem writeAll_evolving (hfits : binding.Fits graph arguments summary)
    (hsummary : summary.WellFormed graph) (hsound : frame.Sound graph arguments)
    {writes : List Write} (hwrites : ∀ write ∈ writes, write ∈ summary.writes) :
    Evolving binding.declarations arguments (writes.forM binding.write)
      (binding.storesAll writes) frame graph := by
  induction writes generalizing frame graph with
  | nil =>
    have hquiet : Evolving binding.declarations arguments (pure ⟨⟩ : Framed PUnit) noStores frame
      graph := .quiet
    exact hquiet
  | cons write rest ih =>
    obtain ⟨hmem, hrest⟩ := List.forall_mem_cons.mp hwrites
    have hnext : ∀ value changed later, binding.write write frame graph =
        .ok (value, changed) later → Evolving binding.declarations arguments
          (rest.forM binding.write) (binding.storesAll rest) changed later := by
      intro value changed later hrun
      obtain ⟨hgrows, hchanged, -⟩ := (write_keeps hfits hsummary hsound hmem).of_eq_ok hrun
      exact ih (hfits.mono hsummary hgrows) (hsummary.mono hgrows) hchanged hrest
    exact (write_evolving hfits hsummary hsound hmem).bind hnext

theorem replay_evolving (hfits : binding.Fits graph arguments summary)
    (hsummary : summary.WellFormed graph) (hsound : frame.Sound graph arguments) :
    Evolving binding.declarations arguments (binding.replay summary)
      (binding.storesAll summary.writes) frame graph := by
  unfold replay
  exact .before (writeAll_evolving hfits hsummary hsound fun _ hmem => hmem)

end Binding

theorem expandResult_evolving (summary : Summary) :
    Evolving declarations arguments
      (match summary.result with
        | .type type => reading fun graph => Frame.expand? graph type
        | .path _ => pure none : Framed (Option AllocId)) noStores frame graph := by
  cases summary.result <;> exact .quiet

end Calls

namespace Scope

variable {scope : Scope} (hanalyst : scope.analyst.Sound scope.declarations)
  {arguments : List TypeId}

include hanalyst

theorem call_evolving [∀ target types, Drifts (scope.analyst target types)]
    {frame : Frame} {knowledge : Knowledge}
    (hsound : knowledge.Sound scope.declarations) (hframe : frame.Sound knowledge.graph arguments)
    (span : Span) (method : String) (target : DefId) {operands : List Operand}
    (hoperands : ∀ operand ∈ operands, operand.RootedIn knowledge.graph arguments) :
    Evolving scope.declarations arguments (scope.call span method target operands)
      (scope.callStores span method target operands) frame knowledge := by
  have hrooted : ∀ (operand : Operand) (earlier later : Knowledge),
      earlier.Learns scope.declarations later → operand.RootedIn earlier.graph arguments →
        operand.RootedIn later.graph arguments :=
    fun operand earlier later hgrows hoperand => hoperand.mono hgrows.graph
  unfold Scope.call ShapeFlow.call callStores
  refine .after .quiet fun resolved changed later hrun => ?_
  obtain ⟨-, hlater, hchanged, hlength, hresolved⟩ := (Body.Keeps.mapM operands _ hsound hframe
    hrooted fun operand hmem frame known hgrows hknown hframe => .framed hknown
      (Frame.resolve_keeps hframe (hrooted operand _ _ hgrows (hoperands operand hmem)))).of_eq_ok
    hrun
  refine .after .quiet fun types typed known hrun => ?_
  obtain ⟨hgrows, hknown, htyped, hlength', htypes⟩ := (Body.Keeps.mapM resolved
    (fun type known => known.graph.Has type) hlater hchanged
    (fun type earlier later hgrows hhas => hgrows.graph.has hhas)
    fun operand hmem frame known hgrows hknown hframe => .framed hknown
      (Frame.currentType_keeps hframe (hrooted operand _ _ hgrows (hresolved operand
        hmem)))).of_eq_ok hrun
  refine .after .quiet fun id asked final hrun => ?_
  obtain ⟨hgrows', ⟨rfl, hfinal, hanswers⟩⟩ :=
    (Discipline.Ends.lift (hanalyst target types known hknown htypes)).of_eq_ok hrun
  obtain ⟨summary, hsummary, hwell, hcount⟩ := hfinal.exists_answered hanswers
  refine .after .quiet fun knowledge same last hrun => ?_
  cases hrun
  refine .after .quiet fun held same last hrun => ?_
  rw [show final.summary id = .ok summary from (found_eq_ok_iff _ _ _).mpr hsummary] at hrun
  cases hrun
  have htyped' := htyped.mono hgrows'.graph hfinal.graph
  refine .after (.framed (expandResult_evolving summary)) fun result? expanded last hrun => ?_
  obtain ⟨hgrown, hlast, hexpanded, hresult⟩ :=
    (Body.Keeps.framed hfinal (expandResult_keeps htyped' summary)).of_eq_ok hrun
  have hfits : Binding.Fits final.graph arguments summary
      ⟨scope.declarations, span, method, resolved, result?⟩ :=
    ⟨fun operand hmem => hrooted operand _ _ (hgrows.trans hgrows') (hresolved operand hmem),
      hlength'.symm.trans hcount, hresult⟩
  exact .before (.framed (Binding.replay_evolving (hfits.mono hwell hgrown.graph)
    (hwell.mono hgrown.graph) hexpanded))

/-! ## Expressions -/

mutual

theorem evaluate_evolving [∀ target types, Drifts (scope.analyst target types)] (expr : Expr)
    {frame : Frame} {knowledge : Knowledge}
    (hknown : knowledge.Sound scope.declarations)
    (hframe : frame.Sound knowledge.graph arguments) :
    Evolving scope.declarations arguments (scope.evaluate expr) (scope.stores expr) frame
      knowledge := by
  cases expr with
  | integer span value =>
    unfold evaluate stores
    exact .quiet
  | name span name =>
    unfold evaluate stores
    exact .quiet
  | this span =>
    unfold evaluate stores
    exact .quiet
  | ownField span name =>
    unfold evaluate stores
    exact .quiet
  | read span object selector =>
    unfold evaluate stores
    exact .before (evaluate_evolving object hknown hframe)
  | create span className exprs =>
    unfold evaluate stores
    refine .after .quiet fun result changed later hrun => ?_
    obtain ⟨-, hlater, hchanged, -⟩ :=
      (Body.Keeps.framed hknown (allocate_keeps hframe className)).of_eq_ok hrun
    obtain ⟨id, setUp?⟩ := result
    cases setUp? with
    | none =>
      dsimp only
      split <;> exact .quiet
    | some setUp =>
      refine .bind (evaluateAll_evolving exprs hlater hchanged) fun operands last known hrun => ?_
      obtain ⟨-, hknown', hlast, hoperands⟩ :=
        (evaluateAll_keeps hanalyst exprs changed later hlater hchanged).of_eq_ok hrun
      have hfresh : (Operand.fresh id).RootedIn known.graph arguments := trivial
      exact .before (call_evolving hanalyst hknown' hlast span setUpName setUp
        (List.forall_mem_cons.mpr ⟨hfresh, hoperands⟩))
  | allocate span className =>
    unfold evaluate stores
    exact .quiet
  | array span elements =>
    unfold evaluate stores
    refine .after .quiet fun id changed later hrun => ?_
    cases hrun
    have hallocated := hframe.allocate (.empty Declarations.arrayName)
    exact .before (evaluateElements_evolving _ none elements hknown hallocated)
  | bind span name value =>
    unfold evaluate stores
    exact .before (evaluate_evolving value hknown hframe)
  | write span object selector value =>
    unfold evaluate stores
    refine .bind (evaluate_evolving object hknown hframe) fun base changed later hrun => ?_
    obtain ⟨-, hlater, hchanged, hbase⟩ :=
      (evaluate_keeps hanalyst object frame knowledge hknown hframe).of_eq_ok hrun
    refine .bind (evaluate_evolving value hlater hchanged) fun operand last final hrun => ?_
    obtain ⟨hgrows, hfinal, hlast, hoperand⟩ :=
      (evaluate_keeps hanalyst value changed later hlater hchanged).of_eq_ok hrun
    exact .framed (Frame.write_evolving hlast (hbase.mono hgrows.graph) selector hoperand)
  | send span object method exprs =>
    unfold evaluate stores
    refine .bind (evaluate_evolving object hknown hframe) fun receiver changed later hrun => ?_
    obtain ⟨-, hlater, hchanged, hreceiver⟩ :=
      (evaluate_keeps hanalyst object frame knowledge hknown hframe).of_eq_ok hrun
    refine .after .quiet fun target changed' later' hrun => ?_
    obtain ⟨hgrows, hlater', hchanged', -⟩ :=
      (Body.Keeps.framed hlater (dispatch_keeps hchanged receiver method)).of_eq_ok hrun
    refine .bind (evaluateAll_evolving exprs hlater' hchanged') fun operands last final hrun => ?_
    obtain ⟨hgrows', hfinal, hlast, hoperands⟩ :=
      (evaluateAll_keeps hanalyst exprs changed' later' hlater' hchanged').of_eq_ok hrun
    exact call_evolving hanalyst hfinal hlast span method target (List.forall_mem_cons.mpr
      ⟨hreceiver.mono (Knowledge.Learns.trans hgrows hgrows').graph, hoperands⟩)
  | apply span name exprs =>
    unfold evaluate stores
    refine .after .quiet fun result changed later hrun => ?_
    obtain ⟨-, hlater, hchanged, hreceiver⟩ :=
      (Body.Keeps.framed hknown (resolveCall_keeps hframe name)).of_eq_ok hrun
    obtain ⟨receiver, target⟩ := result
    refine .bind (evaluateAll_evolving exprs hlater hchanged) fun operands last final hrun => ?_
    obtain ⟨hgrows, hfinal, hlast, hoperands⟩ :=
      (evaluateAll_keeps hanalyst exprs changed later hlater hchanged).of_eq_ok hrun
    refine call_evolving hanalyst hfinal hlast span name target (List.forall_mem_append.mpr
      ⟨fun operand hmem => ?_, hoperands⟩)
    exact (hreceiver operand hmem).mono hgrows.graph

theorem evaluateAll_evolving [∀ target types, Drifts (scope.analyst target types)]
    (exprs : List Expr) {frame : Frame} {knowledge : Knowledge}
    (hknown : knowledge.Sound scope.declarations)
    (hframe : frame.Sound knowledge.graph arguments) :
    Evolving scope.declarations arguments (scope.evaluateAll exprs) (scope.storesAll exprs) frame
      knowledge := by
  cases exprs with
  | nil =>
    unfold evaluateAll storesAll
    exact .quiet
  | cons expr rest =>
    unfold evaluateAll storesAll
    refine .bind (evaluate_evolving expr hknown hframe) fun operand changed later hrun => ?_
    obtain ⟨-, hlater, hchanged, -⟩ :=
      (evaluate_keeps hanalyst expr frame knowledge hknown hframe).of_eq_ok hrun
    exact .before (evaluateAll_evolving rest hlater hchanged)

theorem evaluateElements_evolving [∀ target types, Drifts (scope.analyst target types)]
    (array : AllocId) (expected? : Option TypeId) (exprs : List Expr) {frame : Frame}
    {knowledge : Knowledge}
    (hknown : knowledge.Sound scope.declarations)
    (hframe : frame.Sound knowledge.graph arguments) :
    Evolving scope.declarations arguments (scope.evaluateElements array expected? exprs)
      (scope.storesElements array expected? exprs) frame knowledge := by
  cases exprs with
  | nil =>
    unfold evaluateElements storesElements
    exact .quiet
  | cons expr rest =>
    unfold evaluateElements storesElements
    refine .bind (evaluate_evolving expr hknown hframe) fun operand changed later hrun => ?_
    obtain ⟨-, hlater, hchanged, hoperand⟩ :=
      (evaluate_keeps hanalyst expr frame knowledge hknown hframe).of_eq_ok hrun
    refine .after .quiet fun expected added final hrun => ?_
    obtain ⟨-, hfinal, hadded, -⟩ := (Body.Keeps.framed hlater
      (addElement_keeps hchanged array expected? hoperand)).of_eq_ok hrun
    exact evaluateElements_evolving array (some expected) rest hfinal hadded

end

/-- A body evolves the frame by its writes. -/
theorem evaluateBody_evolving [∀ target types, Drifts (scope.analyst target types)]
    (body : List Expr) {frame : Frame} {knowledge : Knowledge}
    (hknown : knowledge.Sound scope.declarations)
    (hframe : frame.Sound knowledge.graph arguments) :
    Evolving scope.declarations arguments (scope.evaluateBody body) (scope.bodyStores body) frame
      knowledge := by
  have hgeneral : ∀ (operand : Operand), Evolving scope.declarations arguments
      (body.foldlM (fun _ expr => scope.evaluate expr) operand) (scope.bodyStores body) frame
        knowledge := by
    unfold bodyStores
    induction body generalizing frame knowledge with
    | nil =>
      intro operand
      unfold storesAll
      have hquiet : Evolving scope.declarations arguments (pure operand : Body Operand) noStores
        frame knowledge := .quiet
      exact hquiet
    | cons expr rest ih =>
      intro operand
      rw [List.foldlM_cons]
      unfold storesAll
      refine .bind (evaluate_evolving hanalyst expr hknown hframe) fun operand changed later hrun =>
        ?_
      obtain ⟨-, hlater, hchanged, -⟩ :=
        (evaluate_keeps hanalyst expr frame knowledge hknown hframe).of_eq_ok hrun
      exact ih hlater hchanged operand
  exact hgeneral _

end Scope

end ShapeFlow
