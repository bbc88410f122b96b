import ShapeFlow.Proofs.Dispatch
import ShapeFlow.Proofs.ReopenedClasses

/-!
# Only declared shapes arise

While the main body of a program is analyzed, every object type has a class that the program
declares, and only parts that the class declares (`infer_declared`).  What is read is a part that an
object has got (`Frame.exists_isOf_of_read`), so it is declared.  And the analysis rejects what is
read of an object that has no such part for one of two reasons, and always the right one: the class
does not declare the part, or it does, and the part has not been assigned to
(`Frame.read_of_not_hasPart`).
-/

namespace ShapeFlow

variable {declarations : Declarations} {span : Span} {graph : TypeGraph} {frame : Frame}
  {shapes : Shapes} {base operand : Operand} {className : String} {selector : Selector}

section Lifted

variable {σ α β : Type} {step : Checked α} {next : α → StateT σ Checked β} {state : σ}

theorem Checked.run_get {next : σ → StateT σ Checked β} :
    ((get : StateT σ Checked σ) >>= next) state = next state state := rfl

theorem Checked.run_lift_of_ok {value : α} (hstep : step = .ok value) :
    ((liftM step : StateT σ Checked α) >>= next) state = next value state := by
  subst hstep
  rfl

theorem Checked.run_lift_of_error {failure : Failure} (hstep : step = .error failure) :
    ((liftM step : StateT σ Checked α) >>= next) state = .error failure := by
  subst hstep
  rfl

end Lifted

/-- The object has got the part. -/
def Frame.HasPart (frame : Frame) (graph : TypeGraph) (selector : Selector) : Operand → Prop
  | .type held => ∃ part, graph.field? held selector = some part
  | .path place => ∃ type part, frame.placeType? graph place = some type ∧
    graph.field? type selector = some part
  | .fresh id => ∃ object part, frame.allocations[id.index]? = some object ∧
    object.fields.get? selector = some part

/-- What has parts has a class. -/
theorem TypeGraph.exists_className?_of_field? {type part : TypeId}
    (hpart : graph.field? type selector = some part) :
    ∃ className, graph.className? type = some className := by
  obtain ⟨node, hnode, hheld⟩ := field?_eq_some_iff.mp hpart
  cases node with
  | scalar => simp [TypeNode.fields] at hheld
  | object className fields => exact ⟨className, className?_eq_some_iff.mpr ⟨fields, hnode⟩⟩

/-- What is missing in an object type is reported for its class. -/
theorem TypeGraph.partType_eq_error {type : TypeId}
    (hclass : graph.className? type = some className) (hlacks : graph.field? type selector = none) :
    graph.partType declarations span type selector =
      .error (.rejected (.cause (declarations.missingPart span className selector))) := by
  obtain ⟨fields, hnode⟩ := className?_eq_some_iff.mp hclass
  rw [field?_eq_of_node? hnode] at hlacks
  change fields.get? selector = none at hlacks
  simp only [partType, node, hnode, found, hlacks, bind, Except.bind]
  rfl

namespace Frame

/-- An object that conforms has only parts that its class may have. -/
theorem HasPart.admitted (hhas : frame.HasPart graph selector operand)
    (hisOf : frame.IsOf graph className operand) (hconforms : graph.Conforms shapes)
    (hintact : frame.Intact shapes graph) : shapes.Part className selector := by
  have hfield : ∀ type part, graph.className? type = some className →
      graph.field? type selector = some part → shapes.Part className selector := by
    intro type part hclass hpart
    obtain ⟨fields, hnode⟩ := TypeGraph.className?_eq_some_iff.mp hclass
    rw [TypeGraph.field?_eq_of_node? hnode] at hpart
    exact hconforms.parts type className fields selector part hnode hpart
  cases operand with
  | type held =>
    obtain ⟨part, hpart⟩ := hhas
    exact hfield held part hisOf hpart
  | path place =>
    obtain ⟨type, part, htype, hpart⟩ := hhas
    have hclass : graph.className? type = some className := by
      simpa only [IsOf, classAt?, htype, Option.bind_some] using hisOf
    exact hfield type part hclass hpart
  | fresh id =>
    obtain ⟨object, part, hobject, hpart⟩ := hhas
    obtain ⟨same, hsame, rfl⟩ := hisOf
    obtain rfl := Option.some.inj (hobject.symm.trans hsame)
    exact ((hintact.objects _ object hobject).parts selector part hpart).1

/-- What is read is a part that an object has got. -/
theorem exists_isOf_of_read {result : Operand × Frame}
    (hread : read declarations span graph base selector frame = .ok result) :
    ∃ operand className, frame.resolve base = .ok operand ∧
      frame.IsOf graph className operand ∧ frame.HasPart graph selector operand := by
  suffices hsafe : Checked.Safe (fun _ => True) (read declarations span graph base selector frame)
      fun _ => ∃ operand className, frame.resolve base = .ok operand ∧
        frame.IsOf graph className operand ∧ frame.HasPart graph selector operand by
    rw [hread] at hsafe
    exact hsafe
  have hasked : ∀ {α : Type} (step : Checked α),
      Checked.Safe (fun _ => True) step fun value => step = .ok value := fun step =>
    (Checked.safe_true fun _ => trivial).told.mono fun _ hpost => hpost.1
  unfold read
  refine Checked.Safe.get_bind ?_
  refine (hasked _).lift_bind fun operand hresolve => ?_
  cases operand with
  | path place =>
    refine (hasked _).lift_bind fun type htype => (hasked _).lift_bind fun part hpart => ?_
    have hheld := TypeGraph.partType_eq_ok_iff.mp hpart
    obtain ⟨className, hname⟩ := TypeGraph.exists_className?_of_field? hheld
    have htype' := placeType_eq_ok_iff.mp htype
    have hisOf : frame.IsOf graph className (.path place) := by
      simpa only [IsOf, classAt?, htype', Option.bind_some] using hname
    exact Checked.safe_true fun _ =>
      ⟨.path place, className, hresolve, hisOf, type, part, htype', hheld⟩
  | type held =>
    refine (hasked _).lift_bind fun part hpart => ?_
    have hheld := TypeGraph.partType_eq_ok_iff.mp hpart
    obtain ⟨className, hname⟩ := TypeGraph.exists_className?_of_field? hheld
    exact Checked.safe_true fun _ => ⟨.type held, className, hresolve, hname, part, hheld⟩
  | fresh id =>
    refine (hasked _).lift_bind fun object hobject => ?_
    have hobject' := (found_eq_ok_iff _ _ _).mp hobject
    cases hpart : object.fields.get? selector with
    | none => exact trivial
    | some part =>
      exact Checked.safe_true fun _ => ⟨.fresh id, object.className, hresolve,
        ⟨object, hobject', rfl⟩, object, part, hobject', hpart⟩

/-- A part that an object lacks is reported as what the declarations say that it is. -/
theorem read_of_not_hasPart (hresolve : frame.resolve base = .ok operand)
    (hisOf : frame.IsOf graph className operand) (hlacks : ¬ frame.HasPart graph selector operand) :
    read declarations span graph base selector frame =
      .error (.rejected (.cause (declarations.missingPart span className selector))) := by
  have hpartType : ∀ type, graph.className? type = some className →
      (∀ part, graph.field? type selector ≠ some part) →
        graph.partType declarations span type selector =
          .error (.rejected (.cause (declarations.missingPart span className selector))) :=
    fun type hclass hnone =>
      TypeGraph.partType_eq_error hclass (Option.eq_none_iff_forall_ne_some.mpr hnone)
  unfold read
  rw [Checked.run_get, Checked.run_lift_of_ok hresolve]
  cases operand with
  | type held =>
    have hpart := hpartType held hisOf fun part hpart => hlacks ⟨part, hpart⟩
    exact Checked.run_lift_of_error hpart
  | path place =>
    obtain ⟨type, htype, hclass⟩ := Option.bind_eq_some_iff.mp hisOf
    have hpart := hpartType type hclass fun part hpart => hlacks ⟨type, part, htype, hpart⟩
    have hplace : frame.placeType declarations graph span place = .ok type :=
      placeType_eq_ok_iff.mpr htype
    exact (Checked.run_lift_of_ok hplace).trans (Checked.run_lift_of_error hpart)
  | fresh id =>
    obtain ⟨object, hobject, rfl⟩ := hisOf
    have hnone : object.fields.get? selector = none :=
      Option.eq_none_iff_forall_ne_some.mpr fun part hpart => hlacks ⟨object, part, hobject, hpart⟩
    have hheld : frame.allocation id = .ok object := by
      rw [allocation, hobject]
      rfl
    refine (Checked.run_lift_of_ok hheld).trans ?_
    rw [hnone]
    rfl

end Frame

/-! ## Inference -/

/-- Where a part is about to be read, it is one that the class of the object declares, or the read
fails: a part that the class does not declare is unknown, and one that it declares and that has not
been assigned to is unbound. -/
def Point.ReadsDeclared (declarations : Declarations) (point : Point) : Prop :=
  ∀ base selector, point.act = .reads base selector → ∀ span,
    (∀ result, Frame.read declarations span point.graph base selector point.frame = .ok result →
      ∃ operand className, point.frame.resolve base = .ok operand ∧
        point.frame.IsOf point.graph className operand ∧
          declarations.declares className selector = true) ∧
    ∀ operand className, point.frame.resolve base = .ok operand →
      point.frame.IsOf point.graph className operand →
        (declarations.declares className selector = false →
          Frame.read declarations span point.graph base selector point.frame =
            .error (.rejected (.cause (.unknownField className selector.render span)))) ∧
        (declarations.declares className selector = true →
          ¬ point.frame.HasPart point.graph selector operand →
            Frame.read declarations span point.graph base selector point.frame =
              .error (.rejected (.cause (.unboundField className selector.render span))))

theorem Point.readsDeclared {point : Point}
    (hconforms : point.graph.Conforms declarations.shapes)
    (hintact : point.frame.Intact declarations.shapes point.graph) :
    point.ReadsDeclared declarations := by
  intro base selector _ span
  refine ⟨fun result hread => ?_, fun operand className hresolve hisOf =>
    ⟨fun hundeclared => ?_, fun hdeclared hlacks => ?_⟩⟩
  · obtain ⟨operand, className, hresolve, hisOf, hhas⟩ := Frame.exists_isOf_of_read hread
    exact ⟨operand, className, hresolve, hisOf, hhas.admitted hisOf hconforms hintact⟩
  · have hlacks : ¬ point.frame.HasPart point.graph selector operand := fun hhas => by
      have hdeclared : declarations.declares className selector = true :=
        hhas.admitted hisOf hconforms hintact
      simp [hdeclared] at hundeclared
    rw [Frame.read_of_not_hasPart hresolve hisOf hlacks, Declarations.missingPart, hundeclared]
    rfl
  · rw [Frame.read_of_not_hasPart hresolve hisOf hlacks, Declarations.missingPart,
      if_pos hdeclared]

/-- The analysis of the main body of a program. -/
def Declarations.mainTask (declarations : Declarations) : Task := ⟨declarations.main, []⟩

/-- At all moments of the analysis of the main body, whether the program is accepted or not, every
object type has a declared class and declared parts.  So it is at all points of the bodies that are
analyzed, and only declared parts are read there.  Declared are the classes that have a declaration,
and the parts that some declaration of the class lists, the core classes included. -/
theorem infer_declared (program : Program) (limit : Nat) :
    (∀ className, ((Declarations.ofProgram program).class? className).isSome = true ↔
      ∃ decl ∈ Declarations.coreClasses ++ program.classes, decl.name = className) ∧
    (∀ className selector, (Declarations.ofProgram program).declares className selector = true ↔
      ∃ decl ∈ Declarations.coreClasses ++ program.classes,
        decl.name = className ∧ selector ∈ decl.fields) ∧
    (∀ id engine, infer program limit = .ok (id, engine) →
      engine.graph.Conforms (Declarations.ofProgram program).shapes) ∧
    ∀ moment ∈ moments (.ofProgram program) limit limit []
        (Declarations.ofProgram program).mainTask (.initial (.ofProgram program)),
      moment.knowledge.graph.Conforms (Declarations.ofProgram program).shapes ∧
        ∀ task point, moment.Passes (.ofProgram program) limit task point →
          point.graph.Conforms (Declarations.ofProgram program).shapes ∧
            point.ReadsDeclared (.ofProgram program) := by
  have hrules := (Declarations.admit_shapes program).rules
  have hknown := Engine.sound_initial (.ofProgram program)
  have hworld : (Knowledge.initial (.ofProgram program)).graph.Conforms
      (Declarations.ofProgram program).shapes := TypeGraph.conforms_initial _
  refine ⟨Declarations.class?_ofProgram_isSome_iff program,
    Declarations.declares_ofProgram_iff program, fun id engine hinfer => ?_, fun moment hmem => ?_⟩
  · have hends : (Declarations.ofProgram program).shapes.regime.World
        (endOf ((Declarations.ofProgram program).mainTask.analyze (.ofProgram program) limit limit
          (.initial (.ofProgram program)))).graph :=
      Regime.world_analyze hrules hknown (List.forall_mem_nil _) hworld limit limit
    rw [Task.analyze, Declarations.mainTask, analyze_of_infer hinfer] at hends
    exact hends
  · have hholds := Regime.moments_holdAt hrules hknown (List.forall_mem_nil _) hworld [] moment hmem
    refine ⟨hholds.world, fun task point hpasses => ?_⟩
    have hstands := (hholds.meets task point hpasses).stands
    exact ⟨hstands.world, Point.readsDeclared hstands.world hstands.frames⟩

/-- A class that is declared twice, whose object gets one of its parts and is asked for the other
one. -/
def reopenedProgram : Program where
  classes := [{ name := "Box", fields := [.field "@size"] },
    { name := "Box", fields := [.field "@value"] }]
  main := [
    .bind {} "box" (.allocate {} "Box"),
    .write {} (.name {} "box") (.field "@value") (.integer {} 1),
    .read {} (.name {} "box") (.field "@size")]

/-- The other part is declared, and has not been assigned to. -/
theorem reopenedProgram_declared : ∃ moment point,
    moment ∈ moments (.ofProgram reopenedProgram) 4 4 []
      (Declarations.ofProgram reopenedProgram).mainTask (.initial (.ofProgram reopenedProgram)) ∧
    moment.Passes (.ofProgram reopenedProgram) 4
      (Declarations.ofProgram reopenedProgram).mainTask point ∧
    point.act = .reads (.fresh ⟨0⟩) (.field "@size") ∧
    Frame.read (.ofProgram reopenedProgram) {} point.graph (.fresh ⟨0⟩) (.field "@size")
      point.frame = .error (.rejected (.cause (.unboundField "Box" "@size" {}))) := by
  let task : Task := (Declarations.ofProgram reopenedProgram).mainTask
  have hany : (task.points (.ofProgram reopenedProgram) 4 3
      (.initial (.ofProgram reopenedProgram))).any (fun point =>
        point.act = .reads (.fresh ⟨0⟩) (.field "@size") ∧
          point.frame.resolve (.fresh ⟨0⟩) = .ok (.fresh ⟨0⟩) ∧
            point.frame.allocations[0]?.map (fun object =>
              (object.className, object.fields.get? (.field "@size"))) = some ("Box", none)) =
        true := by
    decide +kernel
  obtain ⟨moment, hmoment, point, hpasses, htested⟩ := Task.exists_passes [] hany
  rw [decide_eq_true_eq] at htested
  obtain ⟨hact, hresolve, hobject⟩ := htested
  obtain ⟨object, hobject, heq⟩ := Option.map_eq_some_iff.mp hobject
  obtain ⟨hclass, hnone⟩ := Prod.mk.inj heq
  obtain ⟨-, -, -, hmoments⟩ := infer_declared reopenedProgram 4
  obtain ⟨-, hreads⟩ := (hmoments moment hmoment).2 task point hpasses
  obtain ⟨-, hunbound⟩ := (hreads _ _ hact {}).2 (.fresh ⟨0⟩) "Box" hresolve
    ⟨object, hobject, hclass⟩
  refine ⟨moment, point, hmoment, hpasses, hact, hunbound (by decide +kernel) fun hhas => ?_⟩
  obtain ⟨held, part, hheld, hpart⟩ := hhas
  obtain rfl := Option.some.inj (hobject.symm.trans hheld)
  exact nomatch hnone.symm.trans hpart

end ShapeFlow
