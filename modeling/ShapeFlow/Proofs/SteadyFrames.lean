import ShapeFlow.Proofs.ReopenedClasses

/-!
# What quiet steps and writes keep

Callers see of a body only its writes to parts of places; all other steps are quiet.  So a property
of frames holds at all points of all bodies if it holds of the frame in which a body starts and is
kept by quiet steps and by writes (`Frame.Steady.session_stands`).  Such a property is a regime that
asks nothing of types and operands and excuses all failures.
-/

namespace ShapeFlow

variable {declarations : Declarations} {holds : List TypeId → TypeGraph → Frame → Prop}

/-- The property holds of the frame in which a body starts, and quiet steps and writes keep it. -/
structure Frame.Steady (declarations : Declarations)
    (holds : List TypeId → TypeGraph → Frame → Prop) : Prop where
  start : ∀ {arguments graph}, graph.WellFormed → (∀ type ∈ arguments, graph.Has type) →
    holds arguments graph { slots := arguments }
  quiet : ∀ {arguments graph grown frame later}, frame.Sound graph arguments →
    holds arguments graph frame → graph.Grows grown → frame.Quiet later →
      holds arguments grown later
  write : ∀ {arguments graph final frame later base value result span selector},
    frame.Sound graph arguments → holds arguments graph frame → value.RootedIn graph arguments →
      Frame.write declarations span base selector value frame graph =
          .ok (result, later) final →
        holds arguments final later

/-- The regime under which the property holds of frames. -/
def Regime.ofFrames (holds : List TypeId → TypeGraph → Frame → Prop) : Regime where
  World _ := True
  Frames := holds
  Fits _ _ _ _ := True
  Suits _ _ _ _ := True
  Excused _ := True

/-- Only answers have to observe the regime. -/
theorem Regime.Obeys.of_answers {α : Type} {arguments : List TypeId} {graph : TypeGraph}
    {outcome : EStateM.Result Failure TypeGraph (α × Frame)} {post : α → Frame → TypeGraph → Prop}
    (hanswers : ∀ value later final, outcome = .ok (value, later) final →
      holds arguments final later ∧ post value later final) :
    (Regime.ofFrames holds).Obeys arguments graph outcome post := by
  cases outcome with
  | ok result final =>
    obtain ⟨hholds, hpost⟩ := hanswers result.1 result.2 final rfl
    exact ⟨trivial, trivial, hholds, hpost⟩
  | error failure final => exact ⟨trivial, trivial, trivial⟩

namespace Frame.Steady

variable (hsteady : Frame.Steady declarations holds) {arguments : List TypeId} {graph : TypeGraph}
  {frame later : Frame} {α : Type}

include hsteady

/-- A quiet change of the frame keeps the property. -/
theorem changes (hstands : (Regime.ofFrames holds).Stands arguments graph frame)
    (hquiet : frame.Quiet later) : holds arguments graph later :=
  hsteady.quiet hstands.sound hstands.frames (.refl graph) hquiet

/-- A quiet step keeps the property. -/
theorem obeys {step : Framed α} [hdrifts : RunDrifts step] [hquiet : RunsQuietly step]
    (hstands : (Regime.ofFrames holds).Stands arguments graph frame) :
    (Regime.ofFrames holds).Obeys arguments graph (step frame graph) fun _ _ _ => True := by
  refine .of_answers fun value later final hrun => ⟨?_, trivial⟩
  have hgrows := (hdrifts.run frame).grows graph
  rw [hrun] at hgrows
  exact hsteady.quiet hstands.sound hstands.frames hgrows (hquiet.run hrun)

theorem lawful : (Regime.ofFrames holds).Lawful declarations where
  rejected _ := trivial
  start hwell harguments _ := hsteady.start hwell harguments
  grown hstands hgrows _ := hsteady.quiet hstands.sound hstands.frames hgrows (.refl _)
  fits_kept _ _ _ _ := trivial
  suits_kept _ _ _ _ := trivial
  suits _ _ := trivial
  typed _ _ := trivial
  scalar _ _ := trivial
  object _ _ := trivial
  heldLocal _ _ := trivial
  slotOperand _ _ _ := Checked.safe_true fun _ => trivial
  resolve _ _ := Checked.safe_true fun _ => trivial
  classOf? _ _ _ := Checked.safe_true fun _ => trivial
  read _ selector hstands _ := (read_settled _ selector _).mono fun _ hpost =>
    ⟨hsteady.changes hstands hpost.1, trivial⟩
  expand? hstands _ := (expand?_settled _ _ _).mono fun _ hpost =>
    ⟨hsteady.changes hstands hpost.1, fun _ _ => trivial⟩
  setLocal name hstands _ := hsteady.changes hstands (.setLocal _ name _)
  allocate hstands _ := hsteady.changes hstands (.allocate _ rfl)
  setElement hstands _ _ _ := (setPart_quiet _ _ _ _).mono fun _ hquiet =>
    hsteady.changes hstands hquiet
  recordCall hstands _ := hsteady.changes hstands (.recordCall _ _)
  currentType _ hstands _ := hsteady.obeys hstands
  express _ hstands _ := hsteady.obeys hstands
  expressResult _ _ _ := lenient_any _ _ _
  write _ _ hstands _ hvalue := .of_answers fun _ _ _ hrun =>
    ⟨hsteady.write hstands.sound hstands.frames hvalue.rooted hrun, fun _ => trivial⟩

end Frame.Steady

/-- In a session, a property that quiet steps and writes keep holds at all points of all bodies,
where frames are sound and housed anyway. -/
theorem Frame.Steady.session_stands {program : Program} {limit : Nat} {engine : Engine}
    {history : List Moment} (hsteady : Frame.Steady (.ofProgram program) holds)
    (hsession : Engine.Session program limit engine history) :
    ∀ moment ∈ history, ∀ task point, moment.Passes (.ofProgram program) limit task point →
      (Regime.ofFrames holds).Stands task.arguments point.graph point.frame := by
  intro moment hmem task point hpasses
  have hrules := (Shapes.admit_all (.ofProgram program)).rules
  exact ((Regime.session_holdsAt ⟨hsteady.lawful, hrules.owned, hrules.arrays⟩ (fun _ => trivial)
    hsession moment hmem).meets task point hpasses).stands

end ShapeFlow
