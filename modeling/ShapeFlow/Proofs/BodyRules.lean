import ShapeFlow.Body.Evaluate

/-!
# Rules for whole bodies

The evaluation of an expression is made of a few kinds of steps, one after the other.  So a
property that all of these steps have, and that sequences of steps have if their parts do, is a
property of the evaluation of every expression and of every body (`Scope.Rules.evaluate`,
`Scope.Rules.evaluateBody`).

The property is one of families of steps, so that it can speak of how a body uses its analyst: the
scopes of a family may differ in their analysts.
-/

namespace ShapeFlow

namespace Scope

variable {ι : Type}

/-- The property holds of the steps of which bodies are made, and is kept by sequencing. -/
structure Rules (scopes : ι → Scope) (P : ∀ {α : Type}, (ι → Body α) → Prop) : Prop where
  pure : ∀ {α : Type} (value : α), P fun _ => (Pure.pure value : Body α)
  seq : ∀ {α β : Type} {step : ι → Body α} {next : ι → α → Body β}, P step →
    (∀ value, P fun index => next index value) → P fun index => step index >>= next index
  reject : ∀ cause, P fun _ => (ShapeFlow.reject cause : Body Unit)
  setLocal : ∀ name operand, P fun _ =>
    (modifyThe Frame (Frame.setLocal name operand) : Body PUnit)
  allocateArray : P fun _ =>
    (modifyGetThe Frame (Frame.allocate { className := Declarations.arrayName }) : Body AllocId)
  resolve : ∀ operand, P fun _ =>
    (liftM (inspect fun _ frame => frame.resolve operand : Framed Operand) : Body Operand)
  this : ∀ span, P fun index => (liftM ((scopes index).this span) : Body Operand)
  name : ∀ span name, P fun index => (liftM ((scopes index).name span name) : Body Operand)
  read : ∀ span base selector, P fun index =>
    (liftM ((scopes index).read span base selector) : Body Operand)
  write : ∀ span base selector value, P fun index =>
    (liftM ((scopes index).write span base selector value) : Body Operand)
  dispatch : ∀ span receiver method, P fun index =>
    (liftM ((scopes index).dispatch span receiver method) : Body DefId)
  resolveCall : ∀ span name, P fun index =>
    (liftM ((scopes index).resolveCall span name) : Body (List Operand × DefId))
  allocate : ∀ span className, P fun index =>
    (liftM ((scopes index).allocate span className) : Body (AllocId × Option DefId))
  addElement : ∀ span array expected? value, P fun index =>
    (liftM ((scopes index).addElement span array expected? value) : Body TypeId)
  call : ∀ span method target arguments, P fun index =>
    (scopes index).call span method target arguments

namespace Rules

variable {scopes : ι → Scope} {P : ∀ {α : Type}, (ι → Body α) → Prop}

mutual

theorem evaluate (rules : Rules scopes P) (expr : Expr) :
    P fun index => (scopes index).evaluate expr := by
  cases expr with
  | integer span value =>
    unfold Scope.evaluate
    exact rules.pure _
  | name span name =>
    unfold Scope.evaluate
    exact rules.name span name
  | this span =>
    unfold Scope.evaluate
    exact rules.this span
  | ownField span name =>
    unfold Scope.evaluate
    exact rules.seq (rules.this span) fun object => rules.read span object (.field name)
  | read span object selector =>
    unfold Scope.evaluate
    exact rules.seq (evaluate rules object) fun object => rules.read span object selector
  | create span className arguments =>
    unfold Scope.evaluate
    refine rules.seq (rules.allocate span className) fun result => ?_
    obtain ⟨id, setUp?⟩ := result
    cases setUp? with
    | some setUp =>
      exact rules.seq (evaluateAll rules arguments) fun arguments =>
        rules.seq (rules.call span setUpName setUp (.fresh id :: arguments)) fun _ =>
          rules.resolve (.fresh id)
    | none =>
      dsimp only
      split
      · exact rules.seq (rules.pure ()) fun _ => rules.resolve (.fresh id)
      · exact rules.seq (rules.reject _) fun _ => rules.resolve (.fresh id)
  | allocate span className =>
    unfold Scope.evaluate
    exact rules.seq (rules.allocate span className) fun result => rules.pure _
  | array span elements =>
    unfold Scope.evaluate
    exact rules.seq rules.allocateArray fun id =>
      rules.seq (evaluateElements rules id none elements) fun _ => rules.pure _
  | bind span name value =>
    unfold Scope.evaluate
    exact rules.seq (evaluate rules value) fun value =>
      rules.seq (rules.setLocal name value) fun _ => rules.pure value
  | write span object selector value =>
    unfold Scope.evaluate
    exact rules.seq (evaluate rules object) fun object =>
      rules.seq (evaluate rules value) fun value => rules.write span object selector value
  | send span object method arguments =>
    unfold Scope.evaluate
    exact rules.seq (evaluate rules object) fun receiver =>
      rules.seq (rules.dispatch span receiver method) fun target =>
        rules.seq (evaluateAll rules arguments) fun arguments =>
          rules.call span method target (receiver :: arguments)
  | apply span name arguments =>
    unfold Scope.evaluate
    exact rules.seq (rules.resolveCall span name) fun result =>
      rules.seq (evaluateAll rules arguments) fun arguments =>
        rules.call span name result.2 (result.1 ++ arguments)

theorem evaluateAll (rules : Rules scopes P) (exprs : List Expr) :
    P fun index => (scopes index).evaluateAll exprs := by
  cases exprs with
  | nil =>
    unfold Scope.evaluateAll
    exact rules.pure _
  | cons expr rest =>
    unfold Scope.evaluateAll
    exact rules.seq (evaluate rules expr) fun operand =>
      rules.seq (evaluateAll rules rest) fun operands => rules.pure (operand :: operands)

theorem evaluateElements (rules : Rules scopes P) (array : AllocId) (expected? : Option TypeId)
    (exprs : List Expr) : P fun index => (scopes index).evaluateElements array expected? exprs := by
  cases exprs with
  | nil =>
    unfold Scope.evaluateElements
    exact rules.pure _
  | cons expr rest =>
    unfold Scope.evaluateElements
    exact rules.seq (evaluate rules expr) fun operand =>
      rules.seq (rules.addElement expr.span array expected? operand) fun expected =>
        evaluateElements rules array (some expected) rest

end

theorem evaluateBody (rules : Rules scopes P) (body : List Expr) :
    P fun index => (scopes index).evaluateBody body := by
  have hfold : ∀ last : Operand, P fun index =>
      body.foldlM (fun _ expr => (scopes index).evaluate expr) last := by
    induction body with
    | nil => exact rules.pure
    | cons expr rest ih =>
      intro last
      simp only [List.foldlM_cons]
      exact rules.seq (rules.evaluate expr) ih
  exact hfold (.type TypeGraph.scalar)

end Rules

end Scope

end ShapeFlow
