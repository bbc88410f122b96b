import ShapeFlow.Proofs.RegimeBodies

/-!
# Regimes in the use of an engine

The analysis of a body asks for callees that have less room, so that lawful regimes are kept by all
analyses follows by induction on the room (`Regime.analyze_trusts`).  What a body asks is asked in
a world of the regime, as an analyst that refuses the question would otherwise be a reason to end
in no world (`Regime.world_of_mem_questions`).

So the regime holds at all points of all bodies that come under analysis at some moment
(`Regime.moments_holdAt`, `Regime.session_holdsAt`).
-/

namespace ShapeFlow

variable {declarations : Declarations}

/-- When the analysis of a body begins at the moment, for the task, the body passes the point. -/
def Moment.Passes (declarations : Declarations) (limit : Nat) (moment : Moment) (task : Task)
    (point : Point) : Prop :=
  moment.event = .begun task ∧ ∃ definition,
    declarations.definition? task.target = some definition ∧
      point ∈ Scope.bodyPoints ⟨declarations, definition, analyze declarations limit moment.room⟩
        definition.decl.body { slots := task.arguments } moment.knowledge

/-- The points that the body passes if it is analyzed for the task, with room for `room` analyses
within. -/
def Task.points (declarations : Declarations) (limit room : Nat) (knowledge : Knowledge)
    (task : Task) : List Point :=
  match task.opening? declarations knowledge with
  | some (definition, memo) =>
    Scope.bodyPoints ⟨declarations, definition, ShapeFlow.analyze declarations limit room⟩
      definition.decl.body { slots := task.arguments }
      (knowledge.begin task.target task.arguments memo)
  | none => []

/-- The points are passed at a moment of the analysis. -/
theorem Task.exists_passes {limit room : Nat} {knowledge : Knowledge} {task : Task}
    {test : Point → Bool} (active : List Task)
    (hany : (task.points declarations limit room knowledge).any test = true) :
    ∃ moment ∈ moments declarations limit (room + 1) active task knowledge, ∃ point,
      moment.Passes declarations limit task point ∧ test point = true := by
  obtain ⟨point, hmem, htest⟩ := List.any_eq_true.mp hany
  unfold Task.points at hmem
  split at hmem
  · rename_i definition memo hopening
    have hopens := Task.opening?_eq_some_iff.mp hopening
    exact ⟨_, begun_mem_moments hopens, point, ⟨rfl, definition, hopens.defined, hmem⟩, htest⟩
  · exact absurd hmem List.not_mem_nil

namespace Regime

variable {regime : Regime}

/-- A frame in which a body starts. -/
theorem stands_start (hlawful : regime.Lawful declarations) {arguments : List TypeId}
    {graph : TypeGraph} (hwell : graph.WellFormed) (harguments : ∀ type ∈ arguments, graph.Has type)
    (hworld : regime.World graph) : regime.Stands arguments graph { slots := arguments } :=
  ⟨.start hwell harguments, Frame.housed_start arguments graph, hworld,
    hlawful.start hwell harguments hworld⟩

/-- Whether the step succeeds or fails, it leads to a world of the regime. -/
theorem world_endOf {α : Type} {knowledge : Knowledge}
    {outcome : EStateM.Result Failure Knowledge α}
    (hends : regime.knowing.Ends knowledge outcome fun _ later => regime.World later.graph) :
    regime.World (endOf outcome).graph := by
  cases outcome with
  | ok value later => exact hends.2
  | error failure later => exact hends.2.1

/-- What is needed to analyze the definitions under a regime. -/
structure Rules (regime : Regime) (declarations : Declarations) : Prop where
  lawful : regime.Lawful declarations
  owned : declarations.Owned
  arrays : (declarations.class? Declarations.arrayName).isSome = true

section Bodies

variable (hrules : regime.Rules declarations) {analyst : Analyst}
  (hanalyst : analyst.Sound declarations) (htrusts : regime.Trusts declarations analyst)
  {knowledge : Knowledge} (hknown : knowledge.Sound declarations)
  {arguments : List TypeId} (harguments : ∀ type ∈ arguments, knowledge.graph.Has type)
  (hworld : regime.World knowledge.graph) {definition : Definition}
  (harity : definition.arity = arguments.length)

include hrules hanalyst htrusts hknown harguments hworld harity

theorem start_runs : regime.Runs arguments
    (Scope.evaluateBody ⟨declarations, definition, analyst⟩ definition.decl.body)
    (Scope.bodyPoints ⟨declarations, definition, analyst⟩ definition.decl.body)
    { slots := arguments } knowledge
    fun operand later grown => regime.Admits arguments grown later operand := by
  have hgoverns : regime.Governs ⟨declarations, definition, analyst⟩ arguments :=
    ⟨hrules.lawful, hanalyst, htrusts, hrules.owned, hrules.arrays, harity⟩
  exact evaluateBody_runs hgoverns definition.decl.body hknown
    (stands_start hrules.lawful hknown.graph harguments hworld)

theorem summarize_knowing (name : String) :
    regime.knowing.Ends knowledge
      (summarize analyst declarations definition ⟨name, arguments⟩ knowledge) fun _ later =>
        regime.World later.graph := by
  let scope : Scope := ⟨declarations, definition, analyst⟩
  have hends := (start_runs hrules hanalyst htrusts hknown harguments hworld harity).ends
  have hevaluated : regime.knowing.Ends knowledge
      (scope.evaluateBody definition.decl.body { slots := arguments } knowledge)
      fun result later => regime.Stands arguments later.graph result.2 ∧
        regime.Admits arguments later.graph result.2 result.1 := by
    cases hresult : scope.evaluateBody definition.decl.body { slots := arguments } knowledge with
    | ok result later =>
      rw [hresult] at hends
      exact ⟨trivial, hends.2.1, hends.2.2.2⟩
    | error failure later =>
      rw [hresult] at hends
      exact ⟨trivial, hends⟩
  have hbody : regime.knowing.Ends knowledge
      ((scope.evaluateBody definition.decl.body >>= fun operand =>
        liftM (Frame.expressResult declarations definition.decl.span operand))
        { slots := arguments } knowledge) fun _ later => regime.World later.graph := by
    refine Discipline.Ends.run_bind hevaluated fun operand changed later _ hpost => ?_
    have hexpress := hrules.lawful.expressResult definition.decl.span hpost.1 hpost.2
    change regime.knowing.Ends later (Building.within
      (Frame.expressResult declarations definition.decl.span operand changed) later) _
    unfold Building.within
    cases hresult : Frame.expressResult declarations definition.decl.span operand changed
      later.graph with
    | ok result grown =>
      rw [hresult] at hexpress
      exact hexpress
    | error failure grown =>
      rw [hresult] at hexpress
      exact hexpress
  exact Discipline.Ends.bind hbody fun _ _ _ hpost => .pure hpost

open Classical in
/-- What a body asks is asked in a world of the regime: otherwise its analyst might as well refuse
the question, and the body would not end as bodies do. -/
theorem world_of_mem_questions {name : String} {task : Task} {later : Knowledge}
    (hasked : (task, later) ∈
      (inquiryOf declarations definition ⟨name, arguments⟩ knowledge).questions analyst) :
    regime.World later.graph := by
  by_contra hbad
  let refusal : Failure := .rejected (.cause (.undefinedClass "" {}))
  let refusing : Analyst := fun target types known =>
    if (⟨target, types⟩, known) = (task, later) then .error refusal later
    else analyst target types known
  have hsound : refusing.Sound declarations := by
    intro target types known hknown htypes
    by_cases heq : ((⟨target, types⟩ : Task), known) = (task, later)
    · rw [show refusing target types known = .error refusal later from if_pos heq]
      obtain ⟨-, rfl⟩ := Prod.mk.inj heq
      exact ⟨.refl declarations known, hknown, harmless_cause (by simp)⟩
    · rw [show refusing target types known = analyst target types known from if_neg heq]
      exact hanalyst target types known hknown htypes
  have htrusts' : regime.Trusts declarations refusing := by
    intro target types known htarget hknown htypes hworld
    have hne : ((⟨target, types⟩ : Task), known) ≠ (task, later) := by
      intro heq
      obtain ⟨-, rfl⟩ := Prod.mk.inj heq
      exact hbad hworld
    rw [show refusing target types known = analyst target types known from if_neg hne]
    exact htrusts htarget hknown htypes hworld
  have hrun : summarize refusing declarations definition ⟨name, arguments⟩ knowledge =
      .error refusal later := by
    rw [← run_inquiryOf]
    exact Inquiry.run_of_refused hasked (fun question known hne => if_neg hne) (if_pos rfl)
  have hends := summarize_knowing hrules hsound htrusts' hknown harguments hworld harity name
  rw [hrun] at hends
  exact hbad hends.2.1

end Bodies

/-! ## Analyses -/

/-- A rejection that is attributed to a signature is still excused. -/
theorem Lawful.excused_within (hlawful : regime.Lawful declarations) {failure : Failure}
    (hexcused : regime.Excused failure) (name : String) :
    regime.Excused (failure.within name) := by
  cases failure with
  | rejected diagnostic => exact hlawful.rejected _
  | broken reference => exact hexcused

section Analyses

variable (hrules : regime.Rules declarations) {limit room : Nat} {knowledge : Knowledge}

include hrules

/-- With whatever room, an analysis keeps the world, and fails only with an excuse. -/
theorem analyze_trusts (limit room : Nat) :
    regime.Trusts declarations (analyze declarations limit room) := by
  induction room using Nat.strongRecOn with
  | ind room ih =>
    intro target types knowledge htarget hknown htypes hworld
    obtain ⟨definition, hdefinition⟩ := Option.isSome_iff_exists.mp htarget
    by_cases harity : definition.arity = types.length
    · have hgoes : Task.Goes declarations limit room ⟨target, types⟩ knowledge
          (analyze declarations limit room target types knowledge) :=
        Task.goes hknown htypes limit room
      have hbody : ∀ {found : Definition} {memo : Memo SummaryId} {left : Nat},
          Task.Opens declarations knowledge ⟨target, types⟩ found memo → room = left + 1 →
            regime.knowing.Ends (knowledge.begin target types memo)
              (summarize (analyze declarations limit left) declarations found
                ⟨found.qualifiedName, types⟩ (knowledge.begin target types memo))
              fun _ later => regime.World later.graph := by
        intro found memo left hopens hroom
        exact summarize_knowing hrules (analyze_sound limit left)
          (ih left (hroom ▸ Nat.lt_succ_self left))
          (hknown.begin hopens.held htypes hopens.missing) htypes hworld hopens.arity _
      generalize analyze declarations limit room target types knowledge = outcome at hgoes
      cases hgoes with
      | unfit failure hunfit => exact absurd harity (hunfit definition hdefinition)
      | known memo id hheld hfound => exact ⟨trivial, hworld⟩
      | recursive memo name hheld hfound =>
        exact ⟨trivial, hworld, hrules.lawful.rejected _⟩
      | exceeded found memo name hopens hroom =>
        exact ⟨trivial, hworld, hrules.lawful.rejected _⟩
      | answered found memo ended left summary later hopens hroom hrun hended hstarted =>
        exact ⟨trivial, ((hbody hopens hroom).of_eq_ok hrun).2⟩
      | failed found memo ended left failure name later hopens hroom hrun hended hstarted =>
        have hends := hbody hopens hroom
        rw [show summarize (analyze declarations limit left) declarations found
          ⟨found.qualifiedName, types⟩ (knowledge.begin target types memo) =
            .error failure later from hrun] at hends
        exact ⟨trivial, hends.2.1, hrules.lawful.excused_within hends.2.2 name⟩
    · rw [analyze_of_arity_ne hdefinition harity]
      exact ⟨trivial, hworld, hrules.lawful.rejected _⟩

/-- The analysis of whatever task keeps the world. -/
theorem world_analyze {task : Task} (hknown : knowledge.Sound declarations)
    (htypes : ∀ type ∈ task.arguments, knowledge.graph.Has type)
    (hworld : regime.World knowledge.graph) (limit room : Nat) :
    regime.World (endOf (task.analyze declarations limit room knowledge)).graph := by
  cases hdefinition : declarations.definition? task.target with
  | none =>
    rw [Task.analyze, analyze_of_definition?_eq_none hdefinition]
    exact hworld
  | some definition =>
    exact world_endOf (analyze_trusts hrules limit room (by rw [hdefinition]; rfl) hknown htypes
      hworld)

end Analyses

/-! ## Moments -/

/-- The regime holds at the moment: of the types, and at all points of the body whose analysis
begins. -/
structure HoldsAt (regime : Regime) (declarations : Declarations) (limit : Nat)
    (moment : Moment) : Prop where
  world : regime.World moment.knowledge.graph
  meets : ∀ task point, moment.Passes declarations limit task point →
    regime.Meets task.arguments point

section Moments

variable (hrules : regime.Rules declarations) {limit room : Nat} {knowledge : Knowledge}
  {task : Task}

/-- Moments at which no analysis of a body begins. -/
theorem HoldsAt.of_world {moment : Moment} (hworld : regime.World moment.knowledge.graph)
    (hevent : ∀ task, moment.event ≠ .begun task) : regime.HoldsAt declarations limit moment :=
  ⟨hworld, fun task _ hpasses => absurd hpasses.1 (hevent task)⟩

include hrules

theorem begun_holdsAt {active : List Task} {definition : Definition} {memo : Memo SummaryId}
    (hknown : knowledge.Sound declarations)
    (htypes : ∀ type ∈ task.arguments, knowledge.graph.Has type)
    (hworld : regime.World knowledge.graph)
    (hopens : task.Opens declarations knowledge definition memo) :
    regime.HoldsAt declarations limit
      ⟨.begun task, active, room, knowledge.begin task.target task.arguments memo⟩ := by
  refine ⟨hworld, fun other point hpasses => ?_⟩
  obtain ⟨hevent, found, hfound, hmem⟩ := hpasses
  cases hevent
  obtain rfl := Option.some.inj (hopens.defined.symm.trans hfound)
  exact (start_runs hrules (analyze_sound limit room) (analyze_trusts hrules limit room)
    (hknown.begin hopens.held htypes hopens.missing) htypes hworld hopens.arity).points point hmem

/-- The regime holds at all moments of an analysis. -/
theorem moments_holdAt (hknown : knowledge.Sound declarations)
    (htypes : ∀ type ∈ task.arguments, knowledge.graph.Has type)
    (hworld : regime.World knowledge.graph) (active : List Task) :
    ∀ moment ∈ moments declarations limit room active task knowledge,
      regime.HoldsAt declarations limit moment := by
  induction room generalizing active task knowledge with
  | zero =>
    rw [moments]
    refine List.forall_mem_cons.mpr ⟨.of_world hworld (by simp), List.forall_mem_singleton.mpr ?_⟩
    exact .of_world (world_analyze hrules hknown htypes hworld limit 0) (by simp)
  | succ room ih =>
    rw [moments]
    refine List.forall_mem_cons.mpr ⟨.of_world hworld (by simp), List.forall_mem_append.mpr ⟨?_,
      List.forall_mem_singleton.mpr (.of_world
        (world_analyze hrules hknown htypes hworld limit (room + 1)) (by simp))⟩⟩
    cases hopening : task.opening? declarations knowledge with
    | none => exact List.forall_mem_nil _
    | some result =>
      obtain ⟨definition, memo⟩ := result
      have hopens := Task.opening?_eq_some_iff.mp hopening
      have hbegun := hknown.begin hopens.held htypes hopens.missing
      have hended := world_endOf (summarize_knowing hrules (analyze_sound limit room)
        (analyze_trusts hrules limit room) hbegun htypes hworld hopens.arity
        definition.qualifiedName)
      refine List.forall_mem_cons.mpr ⟨begun_holdsAt hrules hknown htypes hworld hopens,
        List.forall_mem_append.mpr ⟨fun moment hmem => ?_, List.forall_mem_singleton.mpr ?_⟩⟩
      · obtain ⟨question, hquestion, hmoment⟩ := List.mem_flatMap.mp hmem
        obtain ⟨-, hasked, harguments⟩ :=
          sound_of_mem_questions (analyze_sound limit room) hbegun htypes hquestion
        exact ih hasked harguments (world_of_mem_questions hrules (analyze_sound limit room)
          (analyze_trusts hrules limit room) hbegun htypes hworld hopens.arity hquestion) _ moment
            hmoment
      · exact .of_world hended (by simp)

end Moments

/-- In a session the regime holds at all moments, if it allows all types. -/
theorem session_holdsAt {program : Program} {limit : Nat} {engine : Engine}
    {history : List Moment} (hrules : regime.Rules (.ofProgram program))
    (hworld : ∀ graph, regime.World graph)
    (hsession : Engine.Session program limit engine history) :
    ∀ moment ∈ history, regime.HoldsAt (.ofProgram program) limit moment := by
  induction hsession with
  | start => exact List.forall_mem_singleton.mpr (.of_world (hworld _) nofun)
  | build engine history graph _ _ ih =>
    exact List.forall_mem_append.mpr
      ⟨ih, List.forall_mem_singleton.mpr (.of_world (hworld _) nofun)⟩
  | analyze engine history task hsession harguments ih =>
    have hfollows := hsession.follows
    rw [hfollows.declarations_eq, hfollows.limit_eq]
    exact List.forall_mem_append.mpr
      ⟨ih, moments_holdAt hrules hfollows.knowledge harguments (hworld _) []⟩

end Regime

end ShapeFlow
