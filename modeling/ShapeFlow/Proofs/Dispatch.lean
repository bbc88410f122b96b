import ShapeFlow.Proofs.EngineSoundness
import ShapeFlow.Proofs.FaithfulLog
import ShapeFlow.Proofs.Receivers
import ShapeFlow.Proofs.Sessions

/-!
# Dispatch agrees with the record

The method that a message means is chosen by the class of its receiver before the arguments are
evaluated, and the call is recorded with the types that its operands have afterwards.  Where no
argument overwrites the place of the receiver meanwhile (`Scope.Spares`), the two agree: each
recorded call of a method has an object of the owner as its first argument, and no body of a method
is analyzed with another receiver (`infer_allReceive`).

`Scope.Ready` is what holds at each point of the body of a definition that got a receiver of its
owner.  Every step keeps it (`Scope.Ready.step`), as the frame evolves by writes.  The evaluation of
an expression records only such calls (`Scope.evaluate_receiving`), if the analyst asked for the
callees keeps to them; and that it does is an induction on the room (`analyze_receives`), in which
only the runs matter whose summaries are known in the end.

Whether a message spares its receiver depends on the types.  Where the receiver cannot be
overwritten, or the arguments neither write nor call, the form of the expression tells it
(`Expr.keepsReceivers`).  That the condition is needed shows a message whose argument puts another
object where its receiver is (`infer_pokeFirst_misdirects`).
-/

namespace ShapeFlow

variable {α : Type}

/-! ## Bodies -/

namespace Scope

variable (scope : Scope)

/-- A condition on a step, and on the steps after it where it succeeds. -/
def meetsThen (step : Body α) (own : Frame → Knowledge → Prop)
    (next : α → Frame → Knowledge → Prop) (frame : Frame) (knowledge : Knowledge) : Prop :=
  own frame knowledge ∧ ∀ value changed later, step frame knowledge = .ok (value, changed) later →
    next value changed later

/-- A condition on the steps after a step that has none. -/
def meetsAfter (step : Body α) (next : α → Frame → Knowledge → Prop) :
    Frame → Knowledge → Prop := meetsThen step (fun _ _ => True) next

mutual

/-- The evaluation of the arguments of a message never overwrites the place of its receiver. -/
def Spares : Expr → Frame → Knowledge → Prop
  | .integer _ _ | .name _ _ | .this _ | .ownField _ _ | .allocate _ _ => fun _ _ => True
  | .read _ object _ => Spares object
  | .create span className arguments =>
    meetsAfter (scope.allocate span className : Body (AllocId × Option DefId)) fun _ =>
      SparesAll arguments
  | .array _ elements =>
    meetsAfter (modifyGetThe Frame (Frame.allocate { className := Declarations.arrayName }) :
      Body AllocId) fun id => SparesElements id none elements
  | .bind _ _ value => Spares value
  | .write _ object _ value =>
    meetsThen (scope.evaluate object) (Spares object) fun _ => Spares value
  | .send span object method arguments =>
    meetsThen (scope.evaluate object) (Spares object) fun receiver =>
      meetsAfter (scope.dispatch span receiver method : Body DefId) fun _ frame knowledge =>
        SparesAll arguments frame knowledge ∧
          Frame.Spares receiver (scope.storesAll arguments frame knowledge)
  | .apply span name arguments =>
    meetsAfter (scope.resolveCall span name : Body (List Operand × DefId)) fun _ =>
      SparesAll arguments

/-- No message of the expressions has arguments that overwrite the place of its receiver. -/
def SparesAll : List Expr → Frame → Knowledge → Prop
  | [] => fun _ _ => True
  | expr :: rest => meetsThen (scope.evaluate expr) (Spares expr) fun _ => SparesAll rest

/-- No message of the elements of an array has arguments that overwrite the place of its
receiver. -/
def SparesElements (array : AllocId) :
    Option TypeId → List Expr → Frame → Knowledge → Prop
  | _, [] => fun _ _ => True
  | expected?, expr :: rest =>
    meetsThen (scope.evaluate expr) (Spares expr) fun operand =>
      meetsAfter (scope.addElement expr.span array expected? operand : Body TypeId) fun expected =>
        SparesElements array (some expected) rest

end

/-- What holds at each point of the body of a definition that has got a receiver of its owner. -/
structure Ready (arguments : List TypeId) (frame : Frame) (knowledge : Knowledge) : Prop where
  known : knowledge.Sound scope.declarations
  sound : frame.Sound knowledge.graph arguments
  housed : frame.Housed knowledge.graph
  this : ∀ className, scope.definition.owner? = some className →
    arguments.head?.bind knowledge.graph.className? = some className

variable {scope} {arguments : List TypeId} {frame changed : Frame} {knowledge later : Knowledge}

theorem Ready.step (hready : scope.Ready arguments frame knowledge) {step : Body α}
    {own : Frame → Knowledge → List Store} {post : α → Knowledge → Prop}
    (hkeeps : Body.Keeps scope.declarations arguments knowledge (step frame knowledge) post)
    (hevolving : Evolving scope.declarations arguments step own frame knowledge) {value : α}
    (hrun : step frame knowledge = .ok (value, changed) later) :
    scope.Ready arguments changed later ∧ post value later ∧
      knowledge.graph.Grows later.graph ∧
        Frame.KeepsClasses (own frame knowledge) frame knowledge.graph changed later.graph := by
  obtain ⟨hlearns, hlater, hchanged, hpost⟩ := hkeeps.of_eq_ok hrun
  obtain ⟨-, hhoused, hclasses⟩ :=
    (hevolving value changed later hrun).housed hready.sound.grounded hready.housed
  have hgrows : knowledge.graph.Grows later.graph := hlearns.graph
  exact ⟨⟨hlater, hchanged, hhoused, fun className howner =>
    hgrows.bind_className? (hready.this className howner)⟩, hpost, hgrows, hclasses⟩

/-- The types of the arguments begin with the class of the first one. -/
theorem head?_currentTypes (hready : scope.Ready arguments frame knowledge) {span : Span}
    {operands : List Operand}
    (hrooted : ∀ operand ∈ operands, operand.RootedIn knowledge.graph arguments)
    {className : String}
    (hreceiver : ∃ receiver, operands.head? = some receiver ∧ frame.Settled receiver ∧
      frame.IsOf knowledge.graph className receiver) {types : List TypeId}
    (hrun : (operands.mapM fun operand => (Frame.currentType scope.declarations span operand :
      Framed TypeId) : Body (List TypeId)) frame knowledge = .ok (types, changed) later) :
    types.head?.bind later.graph.className? = some className := by
  obtain ⟨receiver, hhead, hsettled, hisOf⟩ := hreceiver
  cases operands with
  | nil => exact nomatch hhead
  | cons first rest =>
    obtain rfl := Option.some.inj hhead
    rw [List.mapM_cons] at hrun
    obtain ⟨type, typed, between, htype, hrun⟩ := exists_of_run_bind hrun
    have hclass := className?_of_currentType hready.sound (hrooted first List.mem_cons_self)
      hsettled hisOf htype
    obtain ⟨others, typed', last, hrest, hpure⟩ := exists_of_run_bind hrun
    cases hpure
    obtain ⟨-, hextends⟩ := Aside.run hrest
    exact (hextends.grows.graph.className?_eq (TypeGraph.has_of_className? hclass)).trans hclass

/-- A message is sent to an object of the class that owns the method. -/
theorem dispatch_eq_ok (howned : scope.declarations.Owned) {span : Span} {receiver : Operand}
    {method : String} {target : DefId}
    (hrun : (scope.dispatch span receiver method : Body DefId) frame knowledge =
      .ok (target, changed) later) :
    changed = frame ∧ later = knowledge ∧ ∀ className,
      scope.declarations.Owns (some className) target →
        frame.IsOf knowledge.graph className receiver := by
  obtain ⟨graph, hdispatch, rfl⟩ := exists_of_framed hrun
  unfold dispatch at hdispatch
  obtain ⟨className?, hclass, hdispatch⟩ := exists_of_inspect_bind hdispatch
  cases className? with
  | none => exact nomatch hdispatch
  | some className =>
    dsimp only at hdispatch
    cases hmethod : scope.declarations.method? className method with
    | none =>
      rw [hmethod] at hdispatch
      exact nomatch hdispatch
    | some other =>
      rw [hmethod] at hdispatch
      cases hdispatch
      refine ⟨rfl, rfl, fun owner howns => ?_⟩
      obtain rfl := Option.some.inj (howns.unique (howned.of_method? hmethod))
      exact Frame.isOf_of_classOf? hclass

/-- A call without a receiver goes to a method of the running object, or to a function. -/
theorem resolveCall_eq_ok (howned : scope.declarations.Owned) {span : Span} {name : String}
    {receiver : List Operand} {target : DefId}
    (hrun : (scope.resolveCall span name : Body (List Operand × DefId)) frame knowledge =
      .ok ((receiver, target), changed) later) :
    changed = frame ∧ later = knowledge ∧ ∀ className,
      scope.declarations.Owns (some className) target →
        scope.definition.owner? = some className ∧
          ∃ slot, receiver = [slot] ∧ frame.slotOperand knowledge.graph 1 = .ok slot := by
  obtain ⟨graph, hresolve, rfl⟩ := exists_of_framed hrun
  unfold resolveCall at hresolve
  cases hmethod : scope.definition.owner?.bind fun owner =>
      scope.declarations.method? owner name with
  | some other =>
    rw [hmethod] at hresolve
    obtain ⟨slot, _, _, hthis, hpure⟩ := exists_of_run_bind hresolve
    unfold Scope.this at hthis
    split at hthis
    · obtain ⟨hslot, rfl, rfl⟩ := inspect_eq_ok_iff.mp hthis
      cases hpure
      obtain ⟨owner, howner, hother⟩ := Option.bind_eq_some_iff.mp hmethod
      refine ⟨rfl, rfl, fun className howns => ?_⟩
      obtain rfl := Option.some.inj (howns.unique (howned.of_method? hother))
      exact ⟨howner, slot, rfl, hslot⟩
    · exact nomatch hthis
  | none =>
    rw [hmethod] at hresolve
    cases hfunction : scope.declarations.function? name with
    | none =>
      rw [hfunction] at hresolve
      exact nomatch hresolve
    | some other =>
      rw [hfunction] at hresolve
      cases hresolve
      refine ⟨rfl, rfl, fun className howns => ?_⟩
      exact nomatch howns.unique (howned.functions name target hfunction)

/-- The running object is of the class that owns the definition. -/
theorem Ready.isOf_this (hready : scope.Ready arguments frame knowledge) {className : String}
    (howner : scope.definition.owner? = some className) :
    frame.IsOf knowledge.graph className (.path ⟨1, []⟩) := by
  have hthis := hready.this className howner
  rw [List.head?_eq_getElem?] at hthis
  exact (hready.sound.classAt?_slot 0).trans hthis

/-- The running object is told by its slot. -/
theorem Ready.slotOperand_eq (hready : scope.Ready arguments frame knowledge) {className : String}
    (howner : scope.definition.owner? = some className) {slot : Operand}
    (hslot : frame.slotOperand knowledge.graph 1 = .ok slot) : slot = .path ⟨1, []⟩ := by
  have hclass : frame.classAt? knowledge.graph ⟨1, []⟩ = some className :=
    hready.isOf_this howner
  obtain ⟨type, htype, rfl | ⟨hscalar, -⟩⟩ := Frame.slotOperand_eq_ok hslot
  · rfl
  · obtain ⟨position, hfirst, hheld⟩ := Frame.slotType_eq_ok_iff.mp htype
    obtain rfl : position = 0 := by omega
    simp only [Frame.classAt?, Frame.placeType?, hheld, Option.bind_some, TypeGraph.follow?_nil,
      TypeGraph.className?, hscalar] at hclass
    cases hclass

/-- A new object is of the class that owns the method that sets it up. -/
theorem allocate_eq_ok (howned : scope.declarations.Owned) {span : Span} {className : String}
    {id : AllocId} {setUp : DefId}
    (hrun : (scope.allocate span className : Body (AllocId × Option DefId)) frame knowledge =
      .ok ((id, some setUp), changed) later) :
    ∀ owner, scope.declarations.Owns (some owner) setUp →
      changed.IsOf later.graph owner (.fresh id) := by
  intro owner howns
  obtain ⟨graph, hallocate, rfl⟩ := exists_of_framed hrun
  unfold Scope.allocate at hallocate
  cases hclass : scope.declarations.class? className with
  | none =>
    rw [hclass] at hallocate
    exact nomatch hallocate
  | some info =>
    rw [hclass] at hallocate
    obtain ⟨hresult, -⟩ := EStateM.Result.ok.inj hallocate
    obtain ⟨hpair, rfl⟩ := Prod.mk.inj hresult
    obtain ⟨rfl, hsetUp⟩ := Prod.mk.inj hpair
    have hmethod : scope.declarations.method? className setUpName = some setUp := by
      rw [Declarations.method?, hclass]
      exact hsetUp
    obtain rfl := Option.some.inj (howns.unique (howned.of_method? hmethod))
    exact ⟨{ className := owner }, Array.getElem?_push_size, rfl⟩

section Calls

variable [∀ target types, Drifts (scope.analyst target types)]
  {final : Knowledge} (hanalyst : scope.analyst.Receives scope.declarations final)

include hanalyst

/-- The analyst is asked for the types of the arguments, which begin with a receiver of the
owner. -/
theorem ask_receiving (hknown : knowledge.Sound scope.declarations) {target : DefId}
    {types : List TypeId} (htypes : ∀ type ∈ types, knowledge.graph.Has type)
    (hreceives : scope.declarations.Receives knowledge.graph target types) :
    Receiving scope.declarations final (liftM (scope.analyst target types) : Body SummaryId) frame
      knowledge := by
  intro id changed later hrun
  obtain ⟨answer, known, hasked, hpure⟩ := exists_of_bind
    (show (scope.analyst target types >>= fun id => (pure (id, frame) : Knowing _)) knowledge = _
      from hrun)
  cases hpure
  have hgrows : knowledge.Grows later := by
    have hdrift := (inferInstance : Drifts (scope.analyst target types)).grows knowledge
    rwa [hasked] at hdrift
  exact ⟨hgrows, fun hfinal hall => ⟨fun call hmem => (hall.calls call hmem).mono hgrows.graph,
    hanalyst.receives target types knowledge id later hknown htypes hreceives hall.known hasked
      hfinal⟩⟩

/-- A call whose first argument is an object of the owner is recorded with such a signature. -/
theorem call_receiving (hready : scope.Ready arguments frame knowledge) (span : Span)
    (method : String) (target : DefId) {operands : List Operand}
    (hrooted : ∀ operand ∈ operands, operand.RootedIn knowledge.graph arguments)
    (hreceiver : ∀ className, scope.declarations.Owns (some className) target →
      ∃ receiver, operands.head? = some receiver ∧
        frame.IsOf knowledge.graph className receiver) :
    Receiving scope.declarations final (scope.call span method target operands) frame
      knowledge := by
  unfold Scope.call ShapeFlow.call
  refine .bind .aside fun resolved changed later hrun => ?_
  obtain ⟨rfl, rfl, hrooted', hresolved⟩ := mapM_resolve_eq_ok hready.sound hrooted hrun
  refine .bind .aside fun types typed known hrun => ?_
  obtain ⟨-, hknown, -, -, htypes⟩ := (Body.Keeps.mapM resolved
    (fun type known => known.graph.Has type) hready.known hready.sound
    (fun type earlier later hgrows hhas => hgrows.graph.has hhas)
    fun operand hmem frame known hgrows hknown hframe => .framed hknown
      (Frame.currentType_keeps hframe ((hrooted' operand hmem).mono hgrows.graph))).of_eq_ok hrun
  have hreceives : scope.declarations.Receives known.graph target types := by
    intro className howns
    obtain ⟨receiver, hhead, hisOf⟩ := hreceiver className howns
    obtain ⟨told, htold, hresolve⟩ := hresolved receiver hhead
    exact head?_currentTypes hready hrooted' ⟨told, htold, Frame.resolve_settled hresolve,
      hisOf.resolve hready.housed hresolve⟩ hrun
  refine .bind (ask_receiving hanalyst hknown htypes hreceives) fun id asked final hrun => ?_
  obtain ⟨-, ⟨rfl, hfinal, hanswers⟩⟩ :=
    (Discipline.Ends.lift (hanalyst.sound target types known hknown htypes)).of_eq_ok hrun
  obtain ⟨entry, hentry, hdone, -⟩ := hanswers
  obtain ⟨_, summary, -, hsummary, -, harguments⟩ := hfinal.answers target entry id hentry hdone
  refine .bind .aside fun _ same last hrun => ?_
  cases hrun
  refine .bind .aside fun held same last hrun => ?_
  rw [show final.summary id = .ok summary from (found_eq_ok_iff _ _ _).mpr hsummary] at hrun
  cases hrun
  have hexpand := Aside.expandResult summary.result
  refine .bind .aside fun result? expanded later₁ hrun₁ => ?_
  refine .bind .aside fun operand replayed later₂ hrun₂ => ?_
  refine .bind .aside fun value expressed later₃ hrun₃ => ?_
  obtain ⟨graph, hgrows, rfl⟩ :=
    (hexpand.run hrun₁).2.trans ((Aside.run hrun₂).2.trans (Aside.run hrun₃).2)
  -- What is recorded is the signature of an entry of the callee.
  refine .bind (fun _ recorded later hrun => ?_) fun _ _ _ _ => .aside
  cases hrun
  refine ⟨.refl _, fun _ hall => ⟨fun call hmem => ?_, hall.known⟩⟩
  rcases List.mem_append.mp hmem with hmem | hmem
  · exact hall.calls call hmem
  · obtain rfl := List.mem_singleton.mp hmem
    rw [harguments]
    exact hall.known.entries target entry hentry

/-! ### Expressions -/

theorem Ready.evaluate (hready : scope.Ready arguments frame knowledge) (expr : Expr)
    {operand : Operand}
    (hrun : scope.evaluate expr frame knowledge = .ok (operand, changed) later) :
    scope.Ready arguments changed later ∧ operand.RootedIn later.graph arguments ∧
      knowledge.graph.Grows later.graph ∧ Frame.KeepsClasses (scope.stores expr frame knowledge)
        frame knowledge.graph changed later.graph :=
  hready.step (evaluate_keeps hanalyst.sound expr frame knowledge hready.known hready.sound)
    (evaluate_evolving hanalyst.sound expr hready.known hready.sound) hrun

theorem Ready.evaluateAll (hready : scope.Ready arguments frame knowledge) (exprs : List Expr)
    {operands : List Operand}
    (hrun : scope.evaluateAll exprs frame knowledge = .ok (operands, changed) later) :
    scope.Ready arguments changed later ∧
      (∀ operand ∈ operands, operand.RootedIn later.graph arguments) ∧
      knowledge.graph.Grows later.graph ∧ Frame.KeepsClasses (scope.storesAll exprs frame knowledge)
        frame knowledge.graph changed later.graph :=
  hready.step (evaluateAll_keeps hanalyst.sound exprs frame knowledge hready.known hready.sound)
    (evaluateAll_evolving hanalyst.sound exprs hready.known hready.sound) hrun

mutual

theorem evaluate_receiving (howned : scope.declarations.Owned) (expr : Expr) {frame : Frame}
    {knowledge : Knowledge}
    (hready : scope.Ready arguments frame knowledge)
    (hspares : scope.Spares expr frame knowledge) :
    Receiving scope.declarations final (scope.evaluate expr) frame knowledge := by
  cases expr with
  | integer | name | this | ownField | allocate =>
    unfold evaluate
    exact .aside
  | read span object selector =>
    unfold evaluate
    unfold Spares at hspares
    exact .bind (evaluate_receiving howned object hready hspares) fun _ _ _ _ => .aside
  | create span className exprs =>
    unfold evaluate
    unfold Spares at hspares
    refine .bind .aside fun result changed later hrun => ?_
    obtain ⟨hready', -, -, -⟩ := hready.step (.framed hready.known
      (allocate_keeps hready.sound className)) .quiet hrun
    have hspares' := hspares.2 result changed later hrun
    obtain ⟨id, setUp?⟩ := result
    cases setUp? with
    | none =>
      dsimp only
      split <;> exact .aside
    | some setUp =>
      have hisOf := allocate_eq_ok howned hrun
      refine .bind (evaluateAll_receiving howned exprs hready' hspares') fun operands last known
        hrun => ?_
      obtain ⟨hready'', hoperands, hgrows, hkeeps⟩ := hready'.evaluateAll hanalyst exprs hrun
      refine .bind (call_receiving hanalyst hready'' span setUpName setUp
        (List.forall_mem_cons.mpr ⟨trivial, hoperands⟩) fun owner howns => ?_) fun _ _ _ _ => .aside
      exact ⟨_, rfl, (hisOf owner howns).kept hready'.sound hready''.sound hgrows hkeeps nofun⟩
  | array span elements =>
    unfold evaluate
    unfold Spares at hspares
    refine .bind .aside fun id changed later hrun => ?_
    have hspares' := hspares.2 id changed later hrun
    cases hrun
    have hallocated := hready.sound.allocate (.empty Declarations.arrayName)
    have hquiet : frame.Quiet (frame.allocate { className := Declarations.arrayName }).2 :=
      .allocate frame rfl
    exact .bind (evaluateElements_receiving howned _ none elements
      ⟨hready.known, hallocated, hready.housed.quiet hquiet, hready.this⟩ hspares')
      fun _ _ _ _ => .aside
  | bind span name value =>
    unfold evaluate
    unfold Spares at hspares
    exact .bind (evaluate_receiving howned value hready hspares) fun _ _ _ _ => .aside
  | write span object selector value =>
    unfold evaluate
    unfold Spares at hspares
    refine .bind (evaluate_receiving howned object hready hspares.1) fun base changed later
      hrun => ?_
    obtain ⟨hready', -⟩ := hready.evaluate hanalyst object hrun
    exact .bind (evaluate_receiving howned value hready' (hspares.2 base changed later hrun))
      fun _ _ _ _ => .aside
  | send span object method exprs =>
    unfold evaluate
    unfold Spares at hspares
    refine .bind (evaluate_receiving howned object hready hspares.1) fun receiver changed later
      hrun => ?_
    obtain ⟨hready', hreceiver, -, -⟩ := hready.evaluate hanalyst object hrun
    have hspares' := hspares.2 receiver changed later hrun
    refine .bind .aside fun target same last hrun => ?_
    obtain ⟨hsparesAll, hplace⟩ := hspares'.2 target same last hrun
    obtain ⟨rfl, rfl, hisOf⟩ := dispatch_eq_ok howned hrun
    refine .bind (evaluateAll_receiving howned exprs hready' hsparesAll) fun operands called known
      hrun => ?_
    obtain ⟨hready'', hoperands, hgrows, hkeeps⟩ := hready'.evaluateAll hanalyst exprs hrun
    refine call_receiving hanalyst hready'' span method target
      (List.forall_mem_cons.mpr ⟨hreceiver.mono hgrows, hoperands⟩) fun owner howns => ?_
    exact ⟨receiver, rfl,
      (hisOf owner howns).kept hready'.sound hready''.sound hgrows hkeeps hplace⟩
  | apply span name exprs =>
    unfold evaluate
    unfold Spares at hspares
    refine .bind .aside fun result changed later hrun => ?_
    have hspares' := hspares.2 result changed later hrun
    obtain ⟨hready', hreceiver, -, -⟩ := hready.step (.framed hready.known
      (resolveCall_keeps hready.sound name)) .quiet hrun
    obtain ⟨receiver, target⟩ := result
    obtain ⟨rfl, rfl, hthis⟩ := resolveCall_eq_ok howned hrun
    refine .bind (evaluateAll_receiving howned exprs hready hspares') fun operands called known
      hrun => ?_
    obtain ⟨hready'', hoperands, hgrows, -⟩ := hready.evaluateAll hanalyst exprs hrun
    refine call_receiving hanalyst hready'' span name target (List.forall_mem_append.mpr
      ⟨fun operand hmem => (hreceiver operand hmem).mono hgrows, hoperands⟩) fun owner howns => ?_
    obtain ⟨howner, slot, rfl, hslot⟩ := hthis owner howns
    obtain rfl := hready.slotOperand_eq howner hslot
    exact ⟨_, rfl, hready''.isOf_this howner⟩

theorem evaluateAll_receiving (howned : scope.declarations.Owned) (exprs : List Expr)
    {frame : Frame} {knowledge : Knowledge}
    (hready : scope.Ready arguments frame knowledge)
    (hspares : scope.SparesAll exprs frame knowledge) :
    Receiving scope.declarations final (scope.evaluateAll exprs) frame knowledge := by
  cases exprs with
  | nil =>
    unfold Scope.evaluateAll
    exact .aside
  | cons expr rest =>
    unfold Scope.evaluateAll
    unfold SparesAll at hspares
    refine .bind (evaluate_receiving howned expr hready hspares.1) fun operand changed later
      hrun => ?_
    obtain ⟨hready', -⟩ := hready.evaluate hanalyst expr hrun
    exact .bind (evaluateAll_receiving howned rest hready' (hspares.2 operand changed later hrun))
      fun _ _ _ _ => .aside

theorem evaluateElements_receiving (howned : scope.declarations.Owned) (array : AllocId)
    (expected? : Option TypeId) (exprs : List Expr) {frame : Frame} {knowledge : Knowledge}
    (hready : scope.Ready arguments frame knowledge)
    (hspares : scope.SparesElements array expected? exprs frame knowledge) :
    Receiving scope.declarations final (scope.evaluateElements array expected? exprs) frame
      knowledge := by
  cases exprs with
  | nil =>
    unfold evaluateElements
    exact .aside
  | cons expr rest =>
    unfold evaluateElements
    unfold SparesElements at hspares
    refine .bind (evaluate_receiving howned expr hready hspares.1) fun operand changed later
      hrun => ?_
    obtain ⟨hready', hoperand, -, -⟩ := hready.evaluate hanalyst expr hrun
    have hspares' := hspares.2 operand changed later hrun
    refine .bind .aside fun expected added last hrun => ?_
    obtain ⟨hready'', -⟩ := hready'.step (.framed hready'.known
      (addElement_keeps hready'.sound array expected? hoperand)) .quiet hrun
    exact evaluateElements_receiving howned array (some expected) rest hready''
      (hspares'.2 expected added last hrun)

end

/-- Evaluating expressions for their effects, where one for their values was spared. -/
theorem foldlM_receiving (howned : scope.declarations.Owned) (exprs : List Expr) (last : Operand)
    {frame : Frame} {knowledge : Knowledge} (hready : scope.Ready arguments frame knowledge)
    (hspares : scope.SparesAll exprs frame knowledge) :
    Receiving scope.declarations final
      (exprs.foldlM (fun _ expr => scope.evaluate expr) last) frame knowledge := by
  induction exprs generalizing last frame knowledge with
  | nil =>
    rw [List.foldlM_nil]
    exact .aside
  | cons expr rest ih =>
    unfold SparesAll at hspares
    rw [List.foldlM_cons]
    refine .bind (evaluate_receiving hanalyst howned expr hready hspares.1) fun operand changed
      later hrun => ?_
    obtain ⟨hready', -⟩ := hready.evaluate hanalyst expr hrun
    exact ih operand hready' (hspares.2 operand changed later hrun)

end Calls

end Scope

/-! ## Analyses -/

section Analyses

variable {declarations : Declarations} {knowledge later final : Knowledge} {target : DefId}
  {arguments : List TypeId} {definition : Definition} {memo : Memo SummaryId}

namespace Knowledge.AllReceive

theorem look (hall : knowledge.AllReceive declarations)
    (hheld : knowledge.memos[target.index]? = some memo) :
    (knowledge.look target arguments memo).AllReceive declarations where
  calls := hall.calls
  entries other entry hentry := hall.entries other entry ((hasEntry_look_iff hheld).mp hentry)

theorem begin (hall : knowledge.AllReceive declarations)
    (hheld : knowledge.memos[target.index]? = some memo)
    (hreceives : declarations.Receives knowledge.graph target arguments) :
    (knowledge.begin target arguments memo).AllReceive declarations where
  calls := hall.calls
  entries other entry hentry := by
    rcases (hasEntry_begin_iff hheld).mp hentry with hentry | ⟨rfl, rfl⟩
    · exact hall.entries other entry hentry
    · exact hreceives

theorem finish (hall : knowledge.AllReceive declarations) (hsound : knowledge.Sound declarations)
    (hheld : knowledge.memos[target.index]? = some memo) {started : MemoEntry SummaryId}
    (hstarted : started ∈ memo.entries) (hrunning : started.progress = .running)
    (harguments : started.arguments = arguments) {summary : Summary}
    (hcalls : ∀ call ∈ summary.calls,
      declarations.Receives knowledge.graph call.target call.signature.arguments) :
    (knowledge.finish target arguments memo summary).AllReceive declarations where
  calls id held hsummary call hmem := by
    change (knowledge.summaries.push summary)[id]? = some held at hsummary
    rw [Array.getElem?_push] at hsummary
    split at hsummary
    · obtain rfl := Option.some.inj hsummary
      exact hcalls call hmem
    · exact hall.calls id held hsummary call hmem
  entries other entry hentry := by
    have hbefore := hall.entries target started ⟨memo, hheld, hstarted⟩
    rcases (hasEntry_finish_iff hsound hheld hstarted hrunning harguments summary).mp hentry with
      ⟨rfl, rfl⟩ | ⟨hentry, -⟩
    · exact hbefore
    · exact hall.entries other entry hentry

end Knowledge.AllReceive

namespace Run

/-- No message in the body has arguments that overwrite the place of its receiver. -/
def Spares (run : Run declarations target arguments) : Prop :=
  run.scope.SparesAll run.definition.decl.body { slots := arguments } run.start

/-- The run came to a summary that is known. -/
structure LedTo (run : Run declarations target arguments) (knowledge : Knowledge) : Prop where
  grows : run.finish.Grows knowledge
  summary : knowledge.summaries[run.finish.summaries.size]? = some run.summary

/-- If a run spares its receivers and begins with one, it records only calls that reach their
owners. -/
theorem allReceive (run : Run declarations target arguments) (howned : declarations.Owned)
    (hanalyst : (analyze declarations run.limit run.room).Receives declarations final)
    (hspares : run.Spares) (hreceives : declarations.Receives run.start.graph target arguments)
    (hall : run.start.AllReceive declarations) (hfinal : run.finish.Grows final) :
    run.finish.AllReceive declarations ∧ ∀ call ∈ run.summary.calls,
      declarations.Receives run.finish.graph call.target call.signature.arguments := by
  have hready : run.scope.Ready arguments { slots := arguments } run.start :=
    { known := run.sound
      sound := .start run.sound.graph run.has_arguments
      housed := Frame.housed_start _ _
      this := fun className howner => hreceives className ⟨_, run.definition?_eq, howner⟩ }
  obtain ⟨result, last, hbody, hpure⟩ := exists_of_bind run.summarizes
  obtain ⟨-, hreceives'⟩ := Receiving.bind
    (Scope.foldlM_receiving hanalyst howned run.definition.decl.body (.type TypeGraph.scalar)
      hready hspares)
    (fun operand _ _ _ => .aside) _ _ _ hbody
  obtain ⟨hsummary, hfinish⟩ : (_ = run.summary) ∧ (_ = run.finish) := by
    simpa [Pure.pure, EStateM.pure] using hpure
  subst hfinish
  obtain ⟨hcalls, hknown⟩ := hreceives' hfinal ⟨List.forall_mem_nil _, hall⟩
  rw [← hsummary]
  exact ⟨hknown, hcalls⟩

end Run

/-- With whatever room, an analysis keeps to calls that reach their owners, if the bodies behind
the answers spare their receivers. -/
theorem analyze_receives (howned : declarations.Owned)
    (hspares : ∀ target arguments (run : Run declarations target arguments), run.LedTo final →
      run.Spares) (limit room : Nat) :
    (analyze declarations limit room).Receives declarations final := by
  induction room using Nat.strongRecOn with
  | ind room ih =>
    refine ⟨analyze_sound limit room, fun target arguments knowledge id later hsound hhas hreceives
      hall hrun hfinal => ?_⟩
    have hgoes : Task.Goes declarations limit room ⟨target, arguments⟩ knowledge
      (Task.analyze declarations limit room ⟨target, arguments⟩ knowledge) :=
      Task.goes hsound hhas limit room
    rw [show Task.analyze declarations limit room ⟨target, arguments⟩ knowledge = _ from hrun]
      at hgoes
    cases hgoes with
    | known memo id hheld hfound => exact hall.look hheld
    | answered definition memo ended left summary later hopens hroom hbody hended hstarted =>
      have hbegun := hsound.begin hopens.held hhas hopens.missing
      obtain ⟨-, hlater⟩ := hopens.summarize_learns hsound hhas limit left
      rw [hbody] at hlater
      have hgrows : later.Grows (later.finish target arguments ended summary) :=
        Knowledge.grows_finish hlater hended hstarted rfl rfl
      let run : Run declarations target arguments :=
        ⟨definition, limit, left, knowledge.begin target arguments memo, summary, later,
          hopens.defined, hbegun, hhas, hbody⟩
      have hled : run.LedTo final :=
        ⟨hgrows.trans hfinal, hfinal.summaries _ _ (by simp [Knowledge.finish, Knowledge.setMemo,
          Knowledge.addSummary, run])⟩
      obtain ⟨hknown, hcalls⟩ := run.allReceive howned (ih left (by omega))
        (hspares target arguments run hled) hreceives (hall.begin hopens.held hreceives)
        hled.grows
      exact hknown.finish hlater hended hstarted rfl rfl hcalls

end Analyses

/-! ## Programs that spare their receivers -/

namespace Expr

mutual

/-- The expression reads parts and makes objects, and neither writes nor calls. -/
def isPlain : Expr → Bool
  | integer _ _ | name _ _ | this _ | ownField _ _ | allocate _ _ => true
  | read _ object _ => isPlain object
  | bind _ _ value => isPlain value
  | array _ elements => arePlain elements
  | create _ _ _ | write _ _ _ _ | send _ _ _ _ | apply _ _ _ => false

/-- The expressions neither write nor call. -/
def arePlain : List Expr → Bool
  | [] => true
  | expr :: rest => isPlain expr && arePlain rest

end

/-- The expression stands for the running object or for a new one. -/
def isFirm : Expr → Bool
  | this _ | allocate _ _ | array _ _ => true
  | _ => false

mutual

/-- Each message in the expression has a firm receiver or plain arguments. -/
def keepsReceivers : Expr → Bool
  | integer _ _ | name _ _ | this _ | ownField _ _ | allocate _ _ => true
  | read _ object _ => keepsReceivers object
  | bind _ _ value => keepsReceivers value
  | write _ object _ value => keepsReceivers object && keepsReceivers value
  | create _ _ arguments | apply _ _ arguments => keepReceivers arguments
  | array _ elements => keepReceivers elements
  | send _ object _ arguments =>
    keepsReceivers object && keepReceivers arguments && (isFirm object || arePlain arguments)

/-- Each message in the expressions has a firm receiver or plain arguments. -/
def keepReceivers : List Expr → Bool
  | [] => true
  | expr :: rest => keepsReceivers expr && keepReceivers rest

end

end Expr

namespace Scope

variable {scope : Scope} {frame : Frame} {knowledge : Knowledge}

theorem storesThen_eq_nil {τ : Type} {step : StateT Frame (EStateM Failure τ) α}
    {own : Frame → τ → List Store} {next : α → Frame → τ → List Store} {frame : Frame} {state : τ}
    (hown : own frame state = []) (hnext : ∀ value later final, next value later final = []) :
    storesThen step own next frame state = [] := by
  unfold storesThen
  rw [hown, List.nil_append]
  split
  · exact hnext _ _ _
  · rfl

mutual

theorem stores_eq_nil (expr : Expr) (hplain : expr.isPlain = true) (frame : Frame)
    (knowledge : Knowledge) : scope.stores expr frame knowledge = [] := by
  cases expr with
  | integer | name | this | ownField | allocate =>
    unfold stores
    rfl
  | read span object selector =>
    unfold stores
    exact stores_eq_nil object hplain frame knowledge
  | bind span name value =>
    unfold stores
    exact stores_eq_nil value hplain frame knowledge
  | array span elements =>
    unfold stores
    exact storesThen_eq_nil rfl fun id later final =>
      storesElements_eq_nil id none elements hplain later final
  | create | write | send | apply => cases hplain

theorem storesAll_eq_nil (exprs : List Expr) (hplain : Expr.arePlain exprs = true) (frame : Frame)
    (knowledge : Knowledge) : scope.storesAll exprs frame knowledge = [] := by
  cases exprs with
  | nil =>
    unfold storesAll
    rfl
  | cons expr rest =>
    obtain ⟨hexpr, hrest⟩ := (Bool.and_eq_true _ _).mp hplain
    unfold storesAll
    exact storesThen_eq_nil (stores_eq_nil expr hexpr frame knowledge) fun _ later final =>
      storesAll_eq_nil rest hrest later final

theorem storesElements_eq_nil (array : AllocId) (expected? : Option TypeId) (exprs : List Expr)
    (hplain : Expr.arePlain exprs = true) (frame : Frame) (knowledge : Knowledge) :
    scope.storesElements array expected? exprs frame knowledge = [] := by
  cases exprs with
  | nil =>
    unfold storesElements
    rfl
  | cons expr rest =>
    obtain ⟨hexpr, hrest⟩ := (Bool.and_eq_true _ _).mp hplain
    unfold storesElements
    exact storesThen_eq_nil (stores_eq_nil expr hexpr frame knowledge) fun _ later final =>
      storesThen_eq_nil rfl fun expected last final =>
        storesElements_eq_nil array (some expected) rest hrest last final

end

/-- The running object is told by its slot, and a new object by its number. -/
theorem spares_of_isFirm {expr : Expr} (hfirm : expr.isFirm = true) {operand : Operand}
    {frame changed : Frame} {knowledge later : Knowledge}
    (hrun : scope.evaluate expr frame knowledge = .ok (operand, changed) later)
    (stores : List Store) : Frame.Spares operand stores := by
  intro place hplace hpart
  subst hplace
  cases expr with
  | this span =>
    unfold evaluate at hrun
    obtain ⟨graph, hthis, -⟩ := exists_of_framed hrun
    unfold Scope.this at hthis
    split at hthis
    · obtain ⟨hslot, -⟩ := inspect_eq_ok_iff.mp hthis
      obtain ⟨_, -, hpath | ⟨-, htype⟩⟩ := Frame.slotOperand_eq_ok hslot
      · cases hpath
        exact absurd rfl hpart
      · exact nomatch htype
    · exact nomatch hthis
  | allocate span className =>
    unfold evaluate at hrun
    obtain ⟨_, _, _, -, hpure⟩ := exists_of_run_bind hrun
    cases hpure
  | array span elements =>
    unfold evaluate at hrun
    obtain ⟨_, _, _, -, hrun⟩ := exists_of_run_bind hrun
    obtain ⟨_, _, _, -, hpure⟩ := exists_of_run_bind hrun
    cases hpure
  | _ => exact nomatch hfirm

mutual

theorem spares_of_keepsReceivers (expr : Expr) (hkeeps : expr.keepsReceivers = true)
    (frame : Frame) (knowledge : Knowledge) : scope.Spares expr frame knowledge := by
  cases expr with
  | integer | name | this | ownField | allocate =>
    unfold Spares
    trivial
  | read span object selector =>
    unfold Spares
    exact spares_of_keepsReceivers object hkeeps frame knowledge
  | bind span name value =>
    unfold Spares
    exact spares_of_keepsReceivers value hkeeps frame knowledge
  | create _ _ exprs | apply _ _ exprs =>
    unfold Spares
    exact ⟨trivial, fun _ changed later _ => sparesAll_of_keepReceivers exprs hkeeps changed later⟩
  | array span elements =>
    unfold Spares
    exact ⟨trivial, fun id changed later _ =>
      sparesElements_of_keepReceivers id none elements hkeeps changed later⟩
  | write span object selector value =>
    obtain ⟨hobject, hvalue⟩ := (Bool.and_eq_true _ _).mp hkeeps
    unfold Spares
    exact ⟨spares_of_keepsReceivers object hobject frame knowledge, fun _ changed later _ =>
      spares_of_keepsReceivers value hvalue changed later⟩
  | send span object method exprs =>
    obtain ⟨hparts, hsafe⟩ := (Bool.and_eq_true _ _).mp hkeeps
    obtain ⟨hobject, hexprs⟩ := (Bool.and_eq_true _ _).mp hparts
    unfold Spares
    refine ⟨spares_of_keepsReceivers object hobject frame knowledge, fun receiver _ _ hrun =>
      ⟨trivial, fun _ changed later _ =>
        ⟨sparesAll_of_keepReceivers exprs hexprs changed later, ?_⟩⟩⟩
    rcases (Bool.or_eq_true _ _).mp hsafe with hfirm | hplain
    · exact spares_of_isFirm hfirm hrun _
    · rw [storesAll_eq_nil exprs hplain]
      exact fun _ _ _ => nofun

theorem sparesAll_of_keepReceivers (exprs : List Expr) (hkeeps : Expr.keepReceivers exprs = true)
    (frame : Frame) (knowledge : Knowledge) : scope.SparesAll exprs frame knowledge := by
  cases exprs with
  | nil =>
    unfold SparesAll
    trivial
  | cons expr rest =>
    obtain ⟨hexpr, hrest⟩ := (Bool.and_eq_true _ _).mp hkeeps
    unfold SparesAll
    exact ⟨spares_of_keepsReceivers expr hexpr frame knowledge, fun _ changed later _ =>
      sparesAll_of_keepReceivers rest hrest changed later⟩

theorem sparesElements_of_keepReceivers (array : AllocId) (expected? : Option TypeId)
    (exprs : List Expr) (hkeeps : Expr.keepReceivers exprs = true) (frame : Frame)
    (knowledge : Knowledge) : scope.SparesElements array expected? exprs frame knowledge := by
  cases exprs with
  | nil =>
    unfold SparesElements
    trivial
  | cons expr rest =>
    obtain ⟨hexpr, hrest⟩ := (Bool.and_eq_true _ _).mp hkeeps
    unfold SparesElements
    exact ⟨spares_of_keepsReceivers expr hexpr frame knowledge, fun _ _ _ _ =>
      ⟨trivial, fun expected changed later _ =>
        sparesElements_of_keepReceivers array (some expected) rest hrest changed later⟩⟩

end

end Scope

/-- All bodies of the program keep their receivers by their form. -/
def Declarations.keepReceivers (declarations : Declarations) : Bool :=
  declarations.definitions.all fun definition => Expr.keepReceivers definition.decl.body

theorem Run.spares_of_keepReceivers {declarations : Declarations} {target : DefId}
    {arguments : List TypeId} (hkeeps : declarations.keepReceivers = true)
    (run : Run declarations target arguments) : run.Spares := by
  obtain ⟨hindex, hdefinition⟩ := Array.getElem?_eq_some_iff.mp run.definition?_eq
  refine Scope.sparesAll_of_keepReceivers _ ?_ _ _
  rw [← hdefinition]
  exact Array.all_eq_true.mp hkeeps target.index hindex

/-! ## Inference -/

/-- An inference that succeeds is a successful analysis of the main body. -/
theorem analyze_of_infer {program : Program} {limit : Nat} {id : SummaryId} {engine : Engine}
    (hinfer : infer program limit = .ok (id, engine)) :
    analyze (.ofProgram program) limit limit (Declarations.ofProgram program).main []
      (.initial (.ofProgram program)) = .ok id engine.knowledge := by
  unfold infer at hinfer
  split at hinfer
  · rename_i found reached hmain
    cases hinfer
    unfold Engine.analyzeMain Engine.analyze at hmain
    split at hmain
    · rename_i answer knowledge hanalyze
      cases hmain
      exact hanalyze
    · cases hmain
  · cases hinfer

/-- Where no body behind a summary overwrites the place of a receiver by the arguments of the
message, each recorded call of a method has an object of the owner as its first argument, and so
has each analysis of a method. -/
theorem infer_allReceive {program : Program} {limit : Nat} {id : SummaryId} {engine : Engine}
    (hinfer : infer program limit = .ok (id, engine))
    (hspares : ∀ target arguments (run : Run (.ofProgram program) target arguments),
      run.LedTo engine.knowledge → run.Spares) :
    engine.knowledge.AllReceive (.ofProgram program) := by
  obtain ⟨howned, howns⟩ := Declarations.owned_ofProgram program
  have hinitial : (Knowledge.initial (.ofProgram program)).AllReceive (.ofProgram program) :=
    ⟨fun id summary hsummary => by simp [Knowledge.initial] at hsummary,
      fun target entry hentry => absurd hentry (Engine.not_hasEntry_initial _ target entry)⟩
  have hmain : (Declarations.ofProgram program).Receives
      (Knowledge.initial (.ofProgram program)).graph (Declarations.ofProgram program).main [] := by
    intro className hmethod
    cases hmethod.unique howns
  exact (analyze_receives howned hspares limit limit).receives _ [] _ id _ (Engine.sound_initial _)
    (List.forall_mem_nil _) hmain hinitial (analyze_of_infer hinfer) (.refl _)

/-- The targets of the recorded calls, with the classes of their first arguments. -/
def Knowledge.receivers (knowledge : Knowledge) : List (DefId × Option String) :=
  knowledge.summaries.toList.flatMap fun summary => summary.calls.map fun call =>
    (call.target, call.signature.arguments.head?.bind knowledge.graph.className?)

theorem Knowledge.AllReceive.of_mem_receivers {declarations : Declarations} {knowledge : Knowledge}
    (hall : knowledge.AllReceive declarations) {target : DefId} {class? : Option String}
    (hmem : (target, class?) ∈ knowledge.receivers) {className : String}
    (howns : declarations.Owns (some className) target) : class? = some className := by
  obtain ⟨summary, hsummary, hcall⟩ := List.mem_flatMap.mp hmem
  obtain ⟨call, hrecorded, heq⟩ := List.mem_map.mp hcall
  cases heq
  obtain ⟨id, hid⟩ := List.mem_iff_getElem?.mp hsummary
  rw [Array.getElem?_toList] at hid
  exact hall.calls id summary hid call hrecorded className howns

/-- The receivers of an inference, which succeeds. -/
def receiversOf (program : Program) (limit : Nat) : Option (List (DefId × Option String)) :=
  (infer program limit).toOption.map fun result => result.2.knowledge.receivers

theorem exists_of_receiversOf {program : Program} {limit : Nat}
    {receivers : List (DefId × Option String)}
    (hreceivers : receiversOf program limit = some receivers) : ∃ id engine,
      infer program limit = .ok (id, engine) ∧ engine.knowledge.receivers = receivers := by
  unfold receiversOf at hreceivers
  cases hinfer : infer program limit with
  | error failure => exact nomatch (hinfer ▸ hreceivers)
  | ok result =>
    rw [hinfer] at hreceivers
    exact ⟨result.1, result.2, rfl, Option.some.inj hreceivers⟩

/-- A holder of a box, and a function that pokes the box and puts something else in the holder. -/
def holderProgram (body : List Expr) : Program where
  classes := [{ name := "Holder", fields := [.field "@v"] }, {
    name := "Box"
    fields := [.field "@w"]
    methods := [
      { name := "initialize", parameters := ["w"],
        body := [.write {} (.this {}) (.field "@w") (.name {} "w")] },
      { name := "look" },
      { name := "poke", parameters := ["other"], body := [.apply {} "look" []] }] }]
  functions := [{ name := "swap", parameters := ["x"], body }]
  main := [
    .bind {} "h" (.allocate {} "Holder"),
    .write {} (.name {} "h") (.field "@v") (.create {} "Box" [.integer {} 1]),
    .apply {} "swap" [.name {} "h"]]

/-- The box is taken out of the holder before the other object is put there. -/
def pokeLast : List Expr := [
  .bind {} "t" (.read {} (.name {} "x") (.field "@v")),
  .bind {} "u" (.write {} (.name {} "x") (.field "@v") (.allocate {} "Object")),
  .send {} (.name {} "t") "poke" [.name {} "u"]]

/-- The other object is put in the holder while the message waits for its argument. -/
def pokeFirst : List Expr := [
  .send {} (.read {} (.name {} "x") (.field "@v")) "poke"
    [.write {} (.name {} "x") (.field "@v") (.allocate {} "Object")]]

/-- The methods of the box are called with boxes. -/
theorem infer_pokeLast_allReceive : ∃ id engine,
    infer (holderProgram pokeLast) 4 = .ok (id, engine) ∧
      (∀ target arguments (run : Run (.ofProgram (holderProgram pokeLast)) target arguments),
        run.LedTo engine.knowledge → run.Spares) ∧
      engine.knowledge.AllReceive (.ofProgram (holderProgram pokeLast)) ∧
      engine.knowledge.receivers = [(⟨3⟩, some "Box"), (⟨4⟩, some "Box"), (⟨2⟩, some "Box"),
        (⟨5⟩, some "Holder")] := by
  obtain ⟨id, engine, hinfer, hreceivers⟩ := exists_of_receiversOf
    (show receiversOf (holderProgram pokeLast) 4 = some [(⟨3⟩, some "Box"), (⟨4⟩, some "Box"),
      (⟨2⟩, some "Box"), (⟨5⟩, some "Holder")] by decide +kernel)
  have hkeeps : (Declarations.ofProgram (holderProgram pokeLast)).keepReceivers = true := by
    decide +kernel
  have hspares : ∀ target arguments
      (run : Run (.ofProgram (holderProgram pokeLast)) target arguments),
      run.LedTo engine.knowledge → run.Spares :=
    fun _ _ run _ => run.spares_of_keepReceivers hkeeps
  exact ⟨id, engine, hinfer, hspares, infer_allReceive hinfer hspares, hreceivers⟩

/-- The method that was chosen for the box is called with the object that took its place. -/
theorem infer_pokeFirst_misdirects : ∃ id engine,
    infer (holderProgram pokeFirst) 4 = .ok (id, engine) ∧
      (⟨4⟩, some "Object") ∈ engine.knowledge.receivers ∧
      (Declarations.ofProgram (holderProgram pokeFirst)).Owns (some "Box") ⟨4⟩ ∧
      ¬ engine.knowledge.AllReceive (.ofProgram (holderProgram pokeFirst)) := by
  obtain ⟨id, engine, hinfer, hreceivers⟩ := exists_of_receiversOf
    (show receiversOf (holderProgram pokeFirst) 4 = some [(⟨3⟩, some "Object"),
      (⟨4⟩, some "Object"), (⟨2⟩, some "Box"), (⟨5⟩, some "Holder")] by decide +kernel)
  have howns : (Declarations.ofProgram (holderProgram pokeFirst)).Owns (some "Box") ⟨4⟩ :=
    Option.map_eq_some_iff.mp (show ((Declarations.ofProgram (holderProgram pokeFirst)).definition?
      ⟨4⟩).map Definition.owner? = some (some "Box") by decide +kernel)
  have hmem : (⟨4⟩, some "Object") ∈ engine.knowledge.receivers := by
    rw [hreceivers]
    exact .tail _ (.head _)
  exact ⟨id, engine, hinfer, hmem, howns, fun hall => nomatch hall.of_mem_receivers hmem howns⟩

end ShapeFlow
