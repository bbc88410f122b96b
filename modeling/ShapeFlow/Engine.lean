import ShapeFlow.Body.Evaluate

/-!
# Analyzing definitions

A definition is analyzed when it is first called with given argument types, and the
summary is kept in its memo.  An analysis that comes to need itself is rejected; there
is no iteration to a fixed point.  An analysis that fails leaves no entry in the memo.

How many analyses may run within one another is limited.  `analyze` is structurally
recursive on what is left of the limit, its *room*: the analysis of a body with room
for `room + 1` analyses asks for its callees with room for `room`.
-/

namespace ShapeFlow

/-- Turn the failure of a step into an answer. -/
def observe {α : Type} (step : Knowing α) : Knowing (Except Failure α) := fun knowledge =>
  match step knowledge with
  | .ok value knowledge => .ok (.ok value) knowledge
  | .error failure knowledge => .ok (.error failure) knowledge

/-- Change the memo of a definition, and answer what the change answers. -/
def withMemo {α : Type} (id : DefId) (change : TypeGraph → Memo SummaryId → α × Memo SummaryId) :
    Knowing α := do
  let knowledge ← get
  let memo ← knowledge.memo id
  let (answer, memo) := change knowledge.graph memo
  set (knowledge.setMemo id memo)
  pure answer

/-- The summary of the body of a definition under a signature. -/
def summarize (analyst : Analyst) (declarations : Declarations) (definition : Definition)
    (signature : Signature) : Knowing Summary := do
  let scope : Scope := { declarations, definition, analyst }
  let body : Body Value := do
    let operand ← scope.evaluateBody definition.decl.body
    Frame.expressResult declarations definition.decl.span operand
  let (result, frame) ← body.run { slots := signature.arguments }
  pure { signature, result, writes := frame.writes, calls := frame.calls }

/-- The number of the summary of a definition under the given argument types, which is
analyzed if its memo has no answer, with room for `room` analyses within one another
out of `limit`. -/
def analyze (declarations : Declarations) (limit : Nat) : Nat → Analyst
  | room, target, arguments => do
    let definition ← declarations.definition target
    let signature : Signature := ⟨definition.qualifiedName, arguments⟩
    if definition.arity ≠ arguments.length then
      reject (.arityMismatch signature.name definition.arity arguments.length)
    else
      match ← withMemo target fun graph memo => memo.lookup graph arguments with
      | some (.done id) => pure id
      | some .running =>
        reject (.recursiveSignature ((← get).renderSignature signature))
      | none =>
        match room with
        | 0 => reject (.depthExceeded ((← get).renderSignature signature) limit)
        | room + 1 =>
          withMemo target fun graph memo => ((), memo.start graph arguments)
          match ← observe (summarize (analyze declarations limit room) declarations definition
              signature) with
          | .ok summary =>
            let id ← modifyGet (Knowledge.addSummary summary)
            withMemo target fun graph memo => ((), memo.finish graph arguments id)
            pure id
          | .error failure =>
            -- The entry goes, so that a later look-up finds nothing and tries again.
            withMemo target fun graph memo => ((), memo.abort graph arguments)
            throw (failure.within ((← get).renderSignature signature))

/-- A program under analysis: its declarations, the limit on analyses within one
another, and what is known so far. -/
structure Engine where
  declarations : Declarations
  limit : Nat
  knowledge : Knowledge
deriving Inhabited

namespace Engine

/-- How many analyses may run within one another unless told otherwise. -/
def defaultLimit : Nat := 512

/-- A program about which nothing is known yet. -/
def ofProgram (program : Program) (limit : Nat := defaultLimit) : Engine :=
  let declarations := Declarations.ofProgram program
  { declarations, limit, knowledge := .initial declarations }

/-- The types of the program. -/
def graph (engine : Engine) : TypeGraph := engine.knowledge.graph

/-- The same program with other types. -/
def withGraph (engine : Engine) (graph : TypeGraph) : Engine :=
  { engine with knowledge := { engine.knowledge with graph } }

/-- The number of the summary of a definition under the given argument types, which is
analyzed if it was not before.  What was found out stays known if that fails. -/
def analyze (engine : Engine) (target : DefId) (arguments : List TypeId) :
    Except Failure SummaryId × Engine :=
  match ShapeFlow.analyze engine.declarations engine.limit engine.limit target arguments
      engine.knowledge with
  | .ok id knowledge => (.ok id, { engine with knowledge })
  | .error failure knowledge => (.error failure, { engine with knowledge })

/-- Analyze the main body. -/
def analyzeMain (engine : Engine) : Except Failure SummaryId × Engine :=
  engine.analyze engine.declarations.main []

/-- The number of a summary that is known already. -/
def known? (engine : Engine) (target : DefId) (arguments : List TypeId) : Option SummaryId :=
  engine.knowledge.memos[target.index]?.bind fun memo => memo.answer? engine.graph arguments

/-- The summary with a number. -/
def summary? (engine : Engine) (id : SummaryId) : Option Summary :=
  engine.knowledge.summaries[id.index]?

/-- The summaries known of a definition. -/
def summaries (engine : Engine) (target : DefId) : List SummaryId :=
  (engine.knowledge.memos[target.index]?.map Memo.answers).getD []

end Engine

/-- Analyze the main body of a program. -/
def infer (program : Program) (limit : Nat := Engine.defaultLimit) :
    Except Failure (SummaryId × Engine) :=
  match (Engine.ofProgram program limit).analyzeMain with
  | (.ok id, engine) => .ok (id, engine)
  | (.error failure, _) => .error failure

end ShapeFlow
