import ShapeFlow.Proofs.CanonicalSteps
import ShapeFlow.Proofs.Sessions

/-!
# Analyses keep graphs tidy

The steps of a body keep the canonical types and a tidy graph tidy (`Tidying`).  What an operand
refers to is in the graph, because the frame is sound: the soundness lemmas of each step say so for
the steps behind it.  The analysis of callees is a parameter of the rules for expressions, so that
it keeps the graph tidy is one as well (`Analyst.Tidy`).  `analyze_tidy` closes the circle by
induction on the room for analyses within one another.
-/

namespace ShapeFlow

variable {graph : TypeGraph} {arguments : List TypeId} {frame : Frame}
  {declarations : Declarations} {span : Span}

/-! ## Steps on types and frames -/

namespace Frame

instance (root : Operand) (base place : AccessPath) :
    Still (retrace declarations span root base place) := by
  unfold retrace
  split <;> infer_instance

theorem currentType_tidying (hsound : frame.Sound graph arguments) (operand : Operand) :
    Tidying (currentType declarations span operand) frame graph := by
  refine .after fun held _ _ hrun => ?_
  cases hrun
  exact .lift (typeOf_tidies hsound.wellFormed hsound.hasTypes operand)

theorem isCurrent_tidying (hsound : frame.Sound graph arguments) (base : AccessPath)
    (operand : Operand) (part : TypeId) :
    Tidying (isCurrent declarations span base operand part) frame graph := by
  unfold isCurrent
  split
  · exact .still
  · refine .after fun held _ _ hrun => ?_
    cases hrun
    exact .before (.lift (typeOf_tidies hsound.wellFormed hsound.hasTypes operand))

theorem keptPart_tidying (hsound : frame.Sound graph arguments) (base : AccessPath)
    (existing? : Option AllocId) (selector : Selector) (part : TypeId) :
    Tidying (keptPart declarations span base existing? selector part) frame graph := by
  unfold keptPart
  refine .after fun previous? changed later hrun => ?_
  obtain ⟨-, rfl, rfl⟩ := inspect_eq_ok_iff.mp hrun
  cases previous? with
  | none => exact .still
  | some previous => exact .before (isCurrent_tidying hsound base previous part)

/-- The copies that a step makes keep the graph tidy. -/
def CopiesTidily (arguments : List TypeId) (copy : AccessPath → Framed Operand) : Prop :=
  ∀ place frame graph, Frame.Sound graph arguments frame → Tidying (copy place) frame graph

theorem copyParts_tidying (hsound : frame.Sound graph arguments) {base : AccessPath}
    {leaving : List (AllocId × AccessPath)} {copy : AccessPath → Framed Operand}
    (hcopy : CopiesSoundly arguments copy) (htidy : CopiesTidily arguments copy)
    (existing? : Option AllocId) (place : AccessPath) :
    Tidying (copyParts declarations span base leaving copy existing? place) frame graph := by
  unfold copyParts
  refine .after fun type changed later hrun => ?_
  obtain ⟨-, rfl, rfl⟩ := inspect_eq_ok_iff.mp hrun
  refine .after fun node changed later hrun => ?_
  obtain ⟨hnode, rfl, rfl⟩ := inspect_eq_ok_iff.mp hrun
  refine .before (.mapM node.fields.entries
    (fun frame grown => later.Grows grown ∧ frame.Sound grown arguments) ⟨.refl later, hsound⟩ ?_)
  intro entry hentry frame grown hinvariant
  obtain ⟨selector, part⟩ := entry
  obtain ⟨hgrows, hframe⟩ := hinvariant
  have hpart : later.Has part := hsound.wellFormed.closed ((found_eq_ok_iff _ _ _).mp hnode)
    ((node.fields.get?_eq_some_iff selector part).mpr hentry)
  dsimp only
  split
  · refine ⟨.before (htidy (place.child selector) frame grown hframe),
      fun value last final hrun => ?_⟩
    obtain ⟨_, _, _, hrun, hpure⟩ := exists_of_run_bind hrun
    cases hpure
    obtain ⟨hgrows', hlast, -⟩ := (hcopy (place.child selector) frame grown hframe).of_eq_ok hrun
    exact ⟨hgrows.trans hgrows', hlast⟩
  · refine ⟨.before (keptPart_tidying hframe base existing? selector part),
      fun value last final hrun => ?_⟩
    obtain ⟨_, _, _, hrun, hpure⟩ := exists_of_run_bind hrun
    cases hpure
    obtain ⟨hgrows', hlast, -⟩ := (keptPart_keeps hframe (hgrows.has hpart)).of_eq_ok hrun
    exact ⟨hgrows.trans hgrows', hlast⟩

theorem copyAt_tidying (hsound : frame.Sound graph arguments) {base : AccessPath}
    {leaving : List (AllocId × AccessPath)} {inner : AccessPath → Framed Operand}
    (hinner : CopiesSoundly arguments inner) (htidy : CopiesTidily arguments inner)
    (place : AccessPath) :
    Tidying (copyAt declarations span base leaving inner place) frame graph := by
  unfold copyAt
  split
  · exact .still
  · refine .after fun type changed later hrun => ?_
    obtain ⟨-, rfl, rfl⟩ := inspect_eq_ok_iff.mp hrun
    refine .after fun node changed later hrun => ?_
    obtain ⟨-, rfl, rfl⟩ := inspect_eq_ok_iff.mp hrun
    cases node with
    | scalar => exact .still
    | object className fields =>
      exact .before (copyParts_tidying hsound hinner htidy none place)

theorem copy_tidying {base : AccessPath} {leaving : List (AllocId × AccessPath)} (room : Nat) :
    CopiesTidily arguments (copy declarations span base leaving room) := by
  induction room with
  | zero =>
    intro place frame graph hsound
    have hinner : CopiesTidily arguments fun inner => broken (.place inner place) :=
      fun _ _ _ _ => .still
    exact copyAt_tidying hsound (fun _ _ _ hframe => .broken hframe.wellFormed trivial) hinner place
  | succ room ih =>
    intro place frame graph hsound
    exact copyAt_tidying hsound (copy_keeps room) ih place

/-- Types are built only while the copy is made. -/
theorem vacate_tidying (hsound : frame.Sound graph arguments) (base : AccessPath)
    (value : Operand) : Tidying (vacate declarations span base value) frame graph := by
  unfold vacate
  refine .after fun held _ _ hrun => ?_
  cases hrun
  dsimp only
  split
  · exact .still
  · refine .mapM_bind (frame.residents base)
      (fun changed later => changed.Sound later arguments) hsound ?_ ?_
    · intro resident _ changed later hchanged
      refine ⟨.before (copyParts_tidying hchanged (copy_keeps _) (copy_tidying _) (some resident.1)
        resident.2), fun value last final hrun => ?_⟩
      obtain ⟨_, _, _, hrun, hpure⟩ := exists_of_run_bind hrun
      cases hpure
      exact ((copyParts_keeps hchanged (copy_keeps _) (some resident.1)
        resident.2).of_eq_ok hrun).2.1
    · intro rebuilt changed later hchanged
      refine (copy_tidying _ base changed later hchanged).bind fun root copied grown _ => ?_
      refine .after fun _ _ _ _ => .after fun _ _ _ _ => .after fun _ _ _ _ =>
        .after fun _ _ _ _ => ?_
      split <;> exact .still

theorem setPlaceType_tidying (hsound : frame.Sound graph arguments) (target : AccessPath)
    (selector : Selector) {part : TypeId} (hpart : graph.Has part) :
    Tidying (setPlaceType span target selector part) frame graph := by
  unfold setPlaceType
  refine .after fun current changed later hrun => ?_
  obtain ⟨-, rfl, rfl⟩ := inspect_eq_ok_iff.mp hrun
  refine .after fun held _ _ hrun => ?_
  cases hrun
  cases hbind : later.bindAt? current target.selectors part with
  | none => exact .still
  | some result => exact TypeGraph.bindAt?_tidies hsound.wellFormed hpart hbind

theorem recordOperand_tidying (hsound : frame.Sound graph arguments) (target : AccessPath)
    (operand : Operand) :
    Tidying (recordOperand declarations span target operand) frame graph := by
  unfold recordOperand
  cases operand with
  | type held => exact .still
  | path source => exact .still
  | fresh id =>
    refine .after fun held _ _ hrun => ?_
    cases hrun
    exact .before (.lift (reify_tidies hsound.wellFormed hsound.hasTypes id))

/-- A write builds the type of its value, which is rooted in the arguments, and then the type of
the slot. -/
theorem write_tidying (hsound : frame.Sound graph arguments) (base : Operand)
    (selector : Selector) {value : Operand} (hvalue : value.RootedIn graph arguments) :
    Tidying (write declarations span base selector value) frame graph := by
  unfold write
  refine .after fun base changed later hrun => ?_
  obtain ⟨-, rfl, rfl⟩ := inspect_eq_ok_iff.mp hrun
  refine .after fun resolved changed later' hrun => ?_
  obtain ⟨hresolved, rfl, rfl⟩ := inspect_eq_ok_iff.mp hrun
  have hrooted := hsound.resolve hvalue
  rw [hresolved] at hrooted
  refine .after fun className? changed later'' hrun => ?_
  obtain ⟨-, rfl, rfl⟩ := inspect_eq_ok_iff.mp hrun
  cases className? with
  | none => exact .still
  | some className =>
    dsimp only
    split
    · cases base with
      | type held => exact .still
      | fresh id => exact .still
      | path place =>
        refine (vacate_tidying hsound (place.child selector) resolved).bind
          fun value vacated later hrun => ?_
        obtain ⟨-, hvacated, hvalue⟩ :=
          (vacate_keeps hsound (place.child selector) hrooted).of_eq_ok hrun
        refine .after fun held _ _ hrun => ?_
        cases hrun
        refine .bind (.lift (typeOf_tidies hvacated.wellFormed hvacated.hasTypes value))
          fun part typed grown hrun => ?_
        obtain ⟨hgrows, rfl, hwell, hpart⟩ :=
          (Discipline.Ends.lift (typeOf_ends hvacated hvalue)).of_eq_ok hrun
        have htyped := hvacated.mono hgrows hwell
        refine (setPlaceType_tidying htyped (place.child selector) selector hpart).bind
          fun _ placed final hrun => ?_
        obtain ⟨-, hplaced, -⟩ := (setPlaceType_keeps htyped (place.child_selectors_ne selector)
          selector hpart).of_eq_ok hrun
        exact .before (recordOperand_tidying hplaced (place.child selector) value)
    · exact .still

theorem writeAlong_tidying (hsound : frame.Sound graph arguments) {base value : Operand}
    (hbase : base.RootedIn graph arguments) (selectors : List Selector)
    (hvalue : value.RootedIn graph arguments) :
    Tidying (writeAlong declarations span base selectors value) frame graph := by
  unfold writeAlong
  cases selectors.getLast? with
  | none => exact .still
  | some last =>
    refine .after fun object changed later hrun => ?_
    obtain ⟨hgrows, hchanged, -⟩ :=
      (readAlong_keeps hsound hbase selectors.dropLast).of_eq_ok hrun
    exact .before (write_tidying hchanged object last (hvalue.mono hgrows))

theorem express_tidying (hsound : frame.Sound graph arguments) (operand : Operand) :
    Tidying (express declarations span operand) frame graph := by
  unfold express
  refine .after fun operand changed later hrun => ?_
  obtain ⟨-, rfl, rfl⟩ := inspect_eq_ok_iff.mp hrun
  cases operand with
  | type held => exact .still
  | path place => exact .still
  | fresh id =>
    refine .after fun held _ _ hrun => ?_
    cases hrun
    exact .before (.lift (reify_tidies hsound.wellFormed hsound.hasTypes id))

theorem expressResult_tidying (hsound : frame.Sound graph arguments) (operand : Operand) :
    Tidying (expressResult declarations span operand) frame graph := by
  unfold expressResult
  refine .after fun operand changed later hrun => ?_
  obtain ⟨-, rfl, rfl⟩ := inspect_eq_ok_iff.mp hrun
  cases operand with
  | type held => exact express_tidying hsound _
  | path place => exact express_tidying hsound _
  | fresh id =>
    refine .after fun held _ _ hrun => ?_
    cases hrun
    exact .before (.lift (reify_tidies hsound.wellFormed hsound.hasTypes id))

end Frame

/-! ## Calls -/

section Layers

variable {α : Type} {knowledge : Knowledge}

theorem endOf_framed (step : Framed α) (frame : Frame) (knowledge : Knowledge) :
    endOf ((liftM step : Body α) frame knowledge) =
      { knowledge with graph := endOf (step frame knowledge.graph) } := by
  change endOf (Building.within (step frame) knowledge) = _
  unfold Building.within
  cases step frame knowledge.graph <;> rfl

/-- A step on types and frame, as a step of a body. -/
theorem Tidying.framed {step : Framed α} (hstep : Tidying step frame knowledge.graph) :
    Tidying (liftM step : Body α) frame knowledge := by
  rw [Tidying, endOf_framed]
  exact hstep

instance (step : Framed α) [hstep : Still step] : Still (liftM step : Body α) where
  graph_eq frame knowledge := by
    rw [endOf_framed]
    exact hstep.graph_eq frame knowledge.graph

instance (step : Checked α) : Still (liftM step : Body α) :=
  inferInstanceAs (Still (liftM (liftM step : Framed α) : Body α))

end Layers

namespace Binding

section Reading

variable (binding : Binding)

instance (slot : Nat) : Still (binding.slot slot) := by
  unfold Binding.slot
  split <;> infer_instance

instance (place : AccessPath) : Still (binding.place place) := by
  unfold Binding.place
  infer_instance

instance (value : Value) : Still (binding.value value) := by
  unfold Binding.value
  split <;> infer_instance

instance (result : Value) : Still (binding.result result) := by
  unfold Binding.result
  split <;> infer_instance

end Reading

variable {binding : Binding} {summary : Summary}

theorem write_tidying (hfits : binding.Fits graph arguments summary)
    (hsummary : summary.WellFormed graph) (hsound : frame.Sound graph arguments) {write : Write}
    (hmem : write ∈ summary.writes) : Tidying (binding.write write) frame graph := by
  obtain ⟨hslot, hvalue⟩ := hfits.binds hsummary hmem
  unfold Binding.write
  refine .after fun base changed later hrun => ?_
  obtain ⟨hgrows, hchanged, hbase⟩ := (slot_keeps hfits hsound hslot).of_eq_ok hrun
  refine .after fun value last final hrun => ?_
  obtain ⟨hgrows', hlast, hvalue⟩ := (value_keeps (hfits.mono hsummary hgrows) hchanged
    (hvalue.mono hgrows)).of_eq_ok hrun
  exact Frame.writeAlong_tidying hlast (hbase.mono hgrows') write.target.selectors hvalue

theorem replay_tidying (hfits : binding.Fits graph arguments summary)
    (hsummary : summary.WellFormed graph) (hsound : frame.Sound graph arguments) :
    Tidying (binding.replay summary) frame graph := by
  unfold replay
  refine .before (.forM summary.writes (fun changed later =>
    graph.Grows later ∧ changed.Sound later arguments) ⟨.refl graph, hsound⟩ ?_)
  intro write hmem changed later hinvariant
  obtain ⟨hgrows, hchanged⟩ := hinvariant
  have hfits' := hfits.mono hsummary hgrows
  have hsummary' := hsummary.mono hgrows
  refine ⟨write_tidying hfits' hsummary' hchanged hmem, fun _ last final hrun => ?_⟩
  obtain ⟨hgrows', hlast, -⟩ := (write_keeps hfits' hsummary' hchanged hmem).of_eq_ok hrun
  exact ⟨hgrows.trans hgrows', hlast⟩

end Binding

/-- The analyses of callees are sound, and keep the graph tidy. -/
structure Analyst.Tidy (declarations : Declarations) (analyst : Analyst) : Prop where
  sound : analyst.Sound declarations
  tidies : ∀ target arguments knowledge, Knowledge.Sound declarations knowledge →
    (∀ type ∈ arguments, knowledge.graph.Has type) →
      knowledge.graph.Tidies (endOf (analyst target arguments knowledge)).graph

theorem expandResult_tidying (summary : Summary) :
    Tidying (match summary.result with
      | .type type => reading fun graph => Frame.expand? graph type
      | .path _ => pure none : Framed (Option AllocId)) frame graph := by
  cases summary.result <;> exact .still

theorem call_tidying {analyst : Analyst} (hanalyst : analyst.Tidy declarations)
    {knowledge : Knowledge} (hsound : knowledge.Sound declarations)
    (hframe : frame.Sound knowledge.graph arguments)
    (method : String) (target : DefId) {operands : List Operand}
    (hoperands : ∀ operand ∈ operands, operand.RootedIn knowledge.graph arguments) :
    Tidying (call analyst declarations span method target operands) frame knowledge := by
  have hrooted : ∀ (operand : Operand) (earlier later : Knowledge),
      earlier.Learns declarations later → operand.RootedIn earlier.graph arguments →
        operand.RootedIn later.graph arguments :=
    fun operand earlier later hgrows hoperand => hoperand.mono hgrows.graph
  unfold call
  refine .after fun resolved changed later hrun => ?_
  obtain ⟨-, hlater, hchanged, hlength, hresolved⟩ := (Body.Keeps.mapM operands _ hsound hframe
    hrooted fun operand hmem frame known hgrows hknown hframe => .framed hknown
      (Frame.resolve_keeps hframe (hrooted operand _ _ hgrows (hoperands operand hmem)))).of_eq_ok
    hrun
  have htype : ∀ operand ∈ resolved, ∀ frame known, later.Learns declarations known →
      known.Sound declarations → frame.Sound known.graph arguments →
        Body.Keeps declarations arguments known
          ((liftM (Frame.currentType declarations span operand) : Body TypeId) frame known)
          fun type known => known.graph.Has type :=
    fun operand hmem frame known hgrows hknown hframe => .framed hknown
      (Frame.currentType_keeps hframe (hrooted operand _ _ hgrows (hresolved operand hmem)))
  refine .bind (.mapM resolved (fun frame known => later.Learns declarations known ∧
    known.Sound declarations ∧ frame.Sound known.graph arguments)
    ⟨.refl declarations later, hlater, hchanged⟩ ?_) fun types typed known hrun => ?_
  · intro operand hmem frame known hinvariant
    obtain ⟨hgrows, hknown, hframe⟩ := hinvariant
    refine ⟨.framed (Frame.currentType_tidying hframe operand), fun type last final hrun => ?_⟩
    obtain ⟨hgrows', hfinal, hlast, -⟩ := (htype operand hmem frame known hgrows hknown
      hframe).of_eq_ok hrun
    exact ⟨hgrows.trans hgrows', hfinal, hlast⟩
  obtain ⟨hgrows, hknown, htyped, hlength', htypes⟩ := (Body.Keeps.mapM resolved
    (fun type known => known.graph.Has type) hlater hchanged
    (fun type earlier later hgrows hhas => hgrows.graph.has hhas) htype).of_eq_ok hrun
  refine .bind (.lift (hanalyst.tidies target types known hknown htypes))
    fun id asked final hrun => ?_
  obtain ⟨hgrows', ⟨rfl, hfinal, hanswers⟩⟩ :=
    (Discipline.Ends.lift (hanalyst.sound target types known hknown htypes)).of_eq_ok hrun
  obtain ⟨summary, hsummary, hwell, hcount⟩ := hfinal.exists_answered hanswers
  refine .after fun knowledge same last hrun => ?_
  cases hrun
  refine .after fun held same last hrun => ?_
  rw [show final.summary id = .ok summary from (found_eq_ok_iff _ _ _).mpr hsummary] at hrun
  cases hrun
  have htyped' := htyped.mono hgrows'.graph hfinal.graph
  refine .bind (.framed (expandResult_tidying summary)) fun result? expanded last hrun => ?_
  obtain ⟨hgrown, hlast, hexpanded, hresult⟩ :=
    (Body.Keeps.framed hfinal (expandResult_keeps htyped' summary)).of_eq_ok hrun
  have hfits : Binding.Fits final.graph arguments summary
      ⟨declarations, span, method, resolved, result?⟩ :=
    ⟨fun operand hmem => hrooted operand _ _ (hgrows.trans hgrows') (hresolved operand hmem),
      hlength'.symm.trans hcount, hresult⟩
  have hfits' := hfits.mono hwell hgrown.graph
  have hwell' := hwell.mono hgrown.graph
  refine .bind (.framed (Binding.replay_tidying hfits' hwell' hexpanded))
    fun operand replayed final' hrun => ?_
  obtain ⟨-, -, hreplayed, -⟩ := (Body.Keeps.framed hlast
    (Binding.replay_keeps hfits' hwell' hexpanded)).of_eq_ok hrun
  exact .before (.framed (Frame.express_tidying hreplayed operand))

/-! ## Expressions -/

namespace Scope

section Reading

variable (scope : Scope)

instance : Still (scope.this span) := by
  unfold Scope.this
  infer_instance

instance (name : String) : Still (scope.name span name) := by
  unfold Scope.name
  refine .seq .get fun frame => ?_
  split
  · infer_instance
  · split <;> infer_instance

instance (base : Operand) (selector : Selector) : Still (scope.read span base selector) := by
  unfold Scope.read
  infer_instance

instance (receiver : Operand) (method : String) : Still (scope.dispatch span receiver method) := by
  unfold dispatch
  refine .seq inferInstance fun className? => ?_
  split
  · infer_instance
  · split <;> infer_instance

instance (name : String) : Still (scope.resolveCall span name) := by
  unfold resolveCall
  split
  · infer_instance
  · split <;> infer_instance

instance (className : String) : Still (scope.allocate span className) := by
  unfold Scope.allocate
  split <;> infer_instance

end Reading

theorem addElement_tidying {scope : Scope} (hsound : frame.Sound graph arguments) (array : AllocId)
    (expected? : Option TypeId) (value : Operand) :
    Tidying (scope.addElement span array expected? value) frame graph := by
  unfold addElement
  refine .bind (Frame.currentType_tidying hsound value) fun type changed later _ => ?_
  cases expected? with
  | none => exact .still
  | some expected => exact .still

variable {scope : Scope} (hanalyst : scope.analyst.Tidy scope.declarations)

include hanalyst

mutual

theorem evaluate_tidying (expr : Expr) {frame : Frame} {knowledge : Knowledge}
    (hknown : knowledge.Sound scope.declarations)
    (hframe : frame.Sound knowledge.graph arguments) :
    Tidying (scope.evaluate expr) frame knowledge := by
  cases expr with
  | integer span value =>
    unfold evaluate
    exact .still
  | name span name =>
    unfold evaluate
    exact .still
  | this span =>
    unfold evaluate
    exact .still
  | ownField span name =>
    unfold evaluate
    exact .still
  | read span object selector =>
    unfold evaluate
    exact .before (evaluate_tidying object hknown hframe)
  | create span className exprs =>
    unfold evaluate
    refine .after fun result changed later hrun => ?_
    obtain ⟨-, hlater, hchanged, -⟩ :=
      (Body.Keeps.framed hknown (allocate_keeps hframe className)).of_eq_ok hrun
    obtain ⟨id, setUp?⟩ := result
    cases setUp? with
    | none =>
      dsimp only
      split <;> exact .still
    | some setUp =>
      refine .bind (evaluateAll_tidying exprs hlater hchanged) fun operands last known hrun => ?_
      obtain ⟨-, hknown', hlast, hoperands⟩ :=
        (evaluateAll_keeps hanalyst.sound exprs changed later hlater hchanged).of_eq_ok hrun
      have hfresh : (Operand.fresh id).RootedIn known.graph arguments := trivial
      exact .before (call_tidying hanalyst hknown' hlast setUpName setUp
        (List.forall_mem_cons.mpr ⟨hfresh, hoperands⟩))
  | allocate span className =>
    unfold evaluate
    exact .still
  | array span elements =>
    unfold evaluate
    refine .after fun id changed later hrun => ?_
    cases hrun
    have hallocated := hframe.allocate (.empty Declarations.arrayName)
    exact .before (evaluateElements_tidying _ none elements hknown hallocated)
  | bind span name value =>
    unfold evaluate
    exact .before (evaluate_tidying value hknown hframe)
  | write span object selector value =>
    unfold evaluate
    refine .bind (evaluate_tidying object hknown hframe) fun base changed later hrun => ?_
    obtain ⟨-, hlater, hchanged, hbase⟩ :=
      (evaluate_keeps hanalyst.sound object frame knowledge hknown hframe).of_eq_ok hrun
    refine .bind (evaluate_tidying value hlater hchanged) fun operand last final hrun => ?_
    obtain ⟨hgrows, hfinal, hlast, hoperand⟩ :=
      (evaluate_keeps hanalyst.sound value changed later hlater hchanged).of_eq_ok hrun
    exact .framed (Frame.write_tidying hlast base selector hoperand)
  | send span object method exprs =>
    unfold evaluate
    refine .bind (evaluate_tidying object hknown hframe) fun receiver changed later hrun => ?_
    obtain ⟨-, hlater, hchanged, hreceiver⟩ :=
      (evaluate_keeps hanalyst.sound object frame knowledge hknown hframe).of_eq_ok hrun
    refine .after fun target changed' later' hrun => ?_
    obtain ⟨hgrows, hlater', hchanged', -⟩ :=
      (Body.Keeps.framed hlater (dispatch_keeps hchanged receiver method)).of_eq_ok hrun
    refine .bind (evaluateAll_tidying exprs hlater' hchanged') fun operands last final hrun => ?_
    obtain ⟨hgrows', hfinal, hlast, hoperands⟩ :=
      (evaluateAll_keeps hanalyst.sound exprs changed' later' hlater' hchanged').of_eq_ok hrun
    exact call_tidying hanalyst hfinal hlast method target (List.forall_mem_cons.mpr
      ⟨hreceiver.mono (Knowledge.Learns.trans hgrows hgrows').graph, hoperands⟩)
  | apply span name exprs =>
    unfold evaluate
    refine .after fun result changed later hrun => ?_
    obtain ⟨-, hlater, hchanged, hreceiver⟩ :=
      (Body.Keeps.framed hknown (resolveCall_keeps hframe name)).of_eq_ok hrun
    obtain ⟨receiver, target⟩ := result
    refine .bind (evaluateAll_tidying exprs hlater hchanged) fun operands last final hrun => ?_
    obtain ⟨hgrows, hfinal, hlast, hoperands⟩ :=
      (evaluateAll_keeps hanalyst.sound exprs changed later hlater hchanged).of_eq_ok hrun
    refine call_tidying hanalyst hfinal hlast name target (List.forall_mem_append.mpr
      ⟨fun operand hmem => ?_, hoperands⟩)
    exact (hreceiver operand hmem).mono hgrows.graph

theorem evaluateAll_tidying (exprs : List Expr) {frame : Frame} {knowledge : Knowledge}
    (hknown : knowledge.Sound scope.declarations)
    (hframe : frame.Sound knowledge.graph arguments) :
    Tidying (scope.evaluateAll exprs) frame knowledge := by
  cases exprs with
  | nil =>
    unfold evaluateAll
    exact .still
  | cons expr rest =>
    unfold evaluateAll
    refine .bind (evaluate_tidying expr hknown hframe) fun operand changed later hrun => ?_
    obtain ⟨-, hlater, hchanged, -⟩ :=
      (evaluate_keeps hanalyst.sound expr frame knowledge hknown hframe).of_eq_ok hrun
    exact .before (evaluateAll_tidying rest hlater hchanged)

theorem evaluateElements_tidying (array : AllocId) (expected? : Option TypeId) (exprs : List Expr)
    {frame : Frame} {knowledge : Knowledge} (hknown : knowledge.Sound scope.declarations)
    (hframe : frame.Sound knowledge.graph arguments) :
    Tidying (scope.evaluateElements array expected? exprs) frame knowledge := by
  cases exprs with
  | nil =>
    unfold evaluateElements
    exact .still
  | cons expr rest =>
    unfold evaluateElements
    refine .bind (evaluate_tidying expr hknown hframe) fun operand changed later hrun => ?_
    obtain ⟨-, hlater, hchanged, hoperand⟩ :=
      (evaluate_keeps hanalyst.sound expr frame knowledge hknown hframe).of_eq_ok hrun
    refine .bind (.framed (addElement_tidying hchanged array expected? operand))
      fun expected added final hrun => ?_
    obtain ⟨-, hfinal, hadded, -⟩ := (Body.Keeps.framed hlater
      (addElement_keeps hchanged array expected? hoperand)).of_eq_ok hrun
    exact evaluateElements_tidying array (some expected) rest hfinal hadded

end

theorem evaluateBody_tidying (body : List Expr) {frame : Frame} {knowledge : Knowledge}
    (hknown : knowledge.Sound scope.declarations)
    (hframe : frame.Sound knowledge.graph arguments) :
    Tidying (scope.evaluateBody body) frame knowledge := by
  have hgeneral : ∀ (operand : Operand),
      Tidying (body.foldlM (fun _ expr => scope.evaluate expr) operand) frame knowledge := by
    induction body generalizing frame knowledge with
    | nil => exact fun operand => .pure operand
    | cons expr rest ih =>
      intro operand
      rw [List.foldlM_cons]
      refine .bind (evaluate_tidying hanalyst expr hknown hframe)
        fun operand changed later hrun => ?_
      obtain ⟨-, hlater, hchanged, -⟩ :=
        (evaluate_keeps hanalyst.sound expr frame knowledge hknown hframe).of_eq_ok hrun
      exact ih hlater hchanged operand
  exact hgeneral _

end Scope

/-! ## Analyses -/

section Analyses

variable {knowledge : Knowledge}

theorem endOf_summarize (analyst : Analyst) (definition : Definition) (signature : Signature) :
    endOf (summarize analyst declarations definition signature knowledge) =
      endOf (((Scope.mk declarations definition analyst).evaluateBody definition.decl.body >>=
        fun operand => liftM (Frame.expressResult declarations definition.decl.span operand))
          { slots := signature.arguments } knowledge) := by
  simp only [summarize, Bind.bind, EStateM.bind, StateT.run]
  split
  · rename_i hrun
    rw [hrun]
    rfl
  · rename_i hrun
    rw [hrun]
    rfl

theorem summarize_tidies {analyst : Analyst} (hanalyst : analyst.Tidy declarations)
    (hsound : knowledge.Sound declarations) (definition : Definition) (signature : Signature)
    (harguments : ∀ type ∈ signature.arguments, knowledge.graph.Has type) :
    knowledge.graph.Tidies
      (endOf (summarize analyst declarations definition signature knowledge)).graph := by
  have hstart := Frame.Sound.start hsound.graph harguments
  let scope : Scope := ⟨declarations, definition, analyst⟩
  have hscope : scope.analyst.Tidy scope.declarations := hanalyst
  have hbody : Tidying (scope.evaluateBody definition.decl.body >>= fun operand =>
      liftM (Frame.expressResult declarations definition.decl.span operand))
      { slots := signature.arguments } knowledge := by
    refine .bind (Scope.evaluateBody_tidying hscope definition.decl.body hsound hstart)
      fun operand changed later hrun => ?_
    obtain ⟨-, hlater, hchanged, -⟩ := (Scope.evaluateBody_keeps hscope.sound
      definition.decl.body _ knowledge hsound hstart).of_eq_ok hrun
    exact .framed (Frame.expressResult_tidying hchanged operand)
  rw [endOf_summarize]
  exact hbody

/-- With whatever room, an analysis keeps the canonical types, and a tidy graph tidy. -/
theorem analyze_tidy (limit room : Nat) : (analyze declarations limit room).Tidy declarations := by
  induction room using Nat.strongRecOn with
  | ind room ih =>
    refine ⟨analyze_sound limit room, fun target arguments knowledge hsound hhas => ?_⟩
    have hbody : ∀ left definition memo,
        Task.Opens declarations knowledge ⟨target, arguments⟩ definition memo → room = left + 1 →
          knowledge.graph.Tidies (endOf (Task.summarize declarations limit left
            ⟨target, arguments⟩ definition (knowledge.begin target arguments memo))).graph := by
      intro left definition memo hopens hroom
      exact summarize_tidies (ih left (by omega))
        (hsound.begin hopens.held hhas hopens.missing) definition _ hhas
    have hgoes : Task.Goes declarations limit room ⟨target, arguments⟩ knowledge
      (Task.analyze declarations limit room ⟨target, arguments⟩ knowledge) :=
      Task.goes hsound hhas limit room
    change knowledge.graph.Tidies
      (endOf (Task.analyze declarations limit room ⟨target, arguments⟩ knowledge)).graph
    generalize Task.analyze declarations limit room ⟨target, arguments⟩ knowledge = outcome
      at hgoes ⊢
    cases hgoes with
    | unfit failure hunfit => exact .refl _
    | known memo id hheld hfound => exact .refl _
    | recursive memo name hheld hfound => exact .refl _
    | exceeded definition memo name hopens hroom => exact .refl _
    | answered definition memo ended left summary later hopens hroom hsummarize hended hstarted =>
      have hleft := hbody left definition memo hopens hroom
      rw [hsummarize] at hleft
      exact hleft
    | failed definition memo ended left failure name later hopens hroom hsummarize hended
        hstarted =>
      have hleft := hbody left definition memo hopens hroom
      rw [hsummarize] at hleft
      exact hleft

end Analyses

end ShapeFlow
