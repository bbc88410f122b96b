import ShapeFlow.Proofs.EndingWalks
import ShapeFlow.Proofs.UnbrokenSessions

/-!
# Every analysis comes to an end

An analysis recurs in two ways.  It asks for the analyses of callees, which is limited: at every
moment the analyses that are active and those for which there is room make up the limit, so a
recursion that goes on for ever, as its argument types grow with every call, comes to a rejection.
And it walks through types and objects that may lead in circles.  These walks come to an end by
themselves: in no frame that a body passes does room decide how one of them ends
(`Engine.session_terminates`).
-/

namespace ShapeFlow

/-- What an analysis answers has a summary. -/
theorem Engine.Session.exists_summary {program : Program} {limit : Nat} {engine : Engine}
    {history : List Moment} (hsession : Engine.Session program limit engine history)
    {target : DefId} {arguments : List TypeId} {id : SummaryId}
    (harguments : ∀ type ∈ arguments, engine.graph.Has type)
    (hanswer : (engine.analyze target arguments).1 = .ok id) :
    ∃ summary, (engine.analyze target arguments).2.summary? id = some summary := by
  have hsound := hsession.follows.knowledge
  rw [← hsession.follows.declarations_eq] at hsound
  obtain ⟨-, hlater, hanswers⟩ := Engine.analyze_ends hsound target harguments
  rw [hanswer] at hanswers
  obtain ⟨summary, hsummary, -⟩ := hlater.exists_answered hanswers
  exact ⟨summary, hsummary⟩

/-- In a session every analysis of a definition answers a summary or rejects the program, whatever
the limit is.  At all moments the active analyses keep to the limit, and all walks through the types
come to an end, as do at all points of all bodies the walks through types and objects.  Walks end in
all closed graphs of types and in all frames of the kind that steps keep. -/
theorem Engine.session_terminates {program : Program} {limit : Nat} {engine : Engine}
    {history : List Moment} (hsession : Engine.Session program limit engine history) :
    (∀ target arguments, (engine.declarations.definition? target).isSome = true →
      (∀ type ∈ arguments, engine.graph.Has type) →
        (∃ id summary, (engine.analyze target arguments).1 = .ok id ∧
          (engine.analyze target arguments).2.summary? id = some summary) ∨
        ∃ diagnostic, (engine.analyze target arguments).1 = .error (.rejected diagnostic)) ∧
    (∀ moment ∈ history, moment.active.length + moment.room = limit ∧
      moment.knowledge.graph.WalksEnd ∧
        ∀ task point, moment.Passes (.ofProgram program) limit task point →
          point.graph.WalksEnd ∧ ∀ span,
            point.frame.WalksEnd (.ofProgram program) span task.arguments point.graph) ∧
    (∀ graph : TypeGraph, graph.Closed → graph.WalksEnd) ∧
    ∀ declarations span arguments graph frame, Shapes.all.regime.Stands arguments graph frame →
      frame.WalksEnd declarations span arguments graph := by
  refine ⟨fun target arguments htarget harguments => ?_, fun moment hmem => ?_,
    fun _ hclosed => hclosed.walksEnd,
    fun declarations span _ _ _ hstands => Frame.walksEnd hstands declarations span⟩
  · cases hanswer : (engine.analyze target arguments).1 with
    | ok id =>
      obtain ⟨summary, hsummary⟩ := hsession.exists_summary harguments hanswer
      exact Or.inl ⟨id, summary, rfl, hsummary⟩
    | error failure =>
      have hrejects := hsession.rejects htarget harguments hanswer
      cases failure with
      | rejected diagnostic => exact Or.inr ⟨diagnostic, rfl⟩
      | broken reference => exact absurd hrejects id
  · have hsound := hsession.follows.moments moment hmem
    have hholds := Regime.session_holdsAt (Shapes.admit_all (.ofProgram program)).rules
      TypeGraph.conforms_all hsession moment hmem
    refine ⟨hsound.depth, hsound.knowledge.graph.closed.walksEnd, fun task point hpasses => ?_⟩
    have hstands := (hholds.meets task point hpasses).stands
    exact ⟨hstands.sound.wellFormed.closed.walksEnd,
      fun span => Frame.walksEnd hstands (.ofProgram program) span⟩

/-- A function that puts its argument into a box and calls itself for the box. -/
def growProgram : Program where
  classes := [{ name := "Box", fields := [.field "@value"] }]
  functions := [{
    name := "grow"
    parameters := ["item"]
    body := [
      .bind {} "box" (.allocate {} "Box"),
      .write {} (.name {} "box") (.field "@value") (.name {} "item"),
      .apply {} "grow" [.name {} "box"]] }]

/-- The analysis of the function for a primitive value. -/
def growTask : Task := ⟨⟨2⟩, [TypeGraph.scalar]⟩

/-- What is known after the function has been analyzed. -/
def growEngine : Engine :=
  ((Engine.ofProgram growProgram 3).analyze growTask.target growTask.arguments).2

/-- The function is analyzed for larger and larger arguments until the limit is reached and the
program is rejected, and so it is when it is asked for again.  When the function calls itself for
the box, the walks that place the box and read off its type come to an end. -/
theorem growEngine_terminates : ∃ history, Engine.Session growProgram 3 growEngine history ∧
    (∃ diagnostic, (growEngine.analyze growTask.target growTask.arguments).1 =
      .error (.rejected diagnostic)) ∧
    ∃ moment ∈ history, ∃ point, moment.Passes (.ofProgram growProgram) 3 growTask point ∧
      point.act = .passes [.fresh ⟨0⟩] ∧
        (EndsWithin Breaks 1 fun room =>
          point.frame.reifyWithin (.ofProgram growProgram) {} room [] ⟨0⟩ ∅ point.graph) ∧
        EndsWithin Checked.Breaks 1 fun room =>
          Placement.visit true room { frame := point.frame } ⟨0⟩ ⟨1, []⟩ := by
  have hsession : Engine.Session growProgram 3 growEngine _ :=
    .analyze (Engine.ofProgram growProgram 3) _ growTask .start (by decide +kernel)
  obtain ⟨hends, hmoments, -, -⟩ := Engine.session_terminates hsession
  refine ⟨_, hsession, ?_, ?_⟩
  · rcases hends growTask.target growTask.arguments (by decide +kernel) (by decide +kernel) with
      ⟨id, -, hanswer, -⟩ | hrejected
    · have hfails : (growEngine.analyze growTask.target growTask.arguments).1.isOk = false := by
        decide +kernel
      rw [hanswer] at hfails
      exact nomatch hfails
    · exact hrejected
  · have hany : (growTask.points (.ofProgram growProgram) 3 2
        (.initial (.ofProgram growProgram))).any (fun point =>
          point.act = .passes [.fresh ⟨0⟩] ∧ point.frame.allocations.size = 1) = true := by
      decide +kernel
    obtain ⟨moment, hmem, point, hpasses, htested⟩ := Task.exists_passes [] hany
    rw [decide_eq_true_eq] at htested
    obtain ⟨hact, hsize⟩ := htested
    have hmoment := List.mem_append_right [(Engine.ofProgram growProgram 3).rest] hmem
    obtain ⟨-, -, hpoints⟩ := hmoments moment hmoment
    have hwalks := (hpoints growTask point hpasses).2 {}
    have hexists : (Operand.fresh ⟨0⟩).ExistsIn point.frame :=
      Operand.existsIn_fresh (Array.getElem?_eq_getElem (hsize ▸ Nat.zero_lt_one))
    exact ⟨moment, hmoment, point, hpasses, hact, hsize ▸ hwalks.reified ⟨0⟩ hexists,
      hsize ▸ hwalks.placed true ⟨0⟩ ⟨1, []⟩ hexists⟩

end ShapeFlow
