import ShapeFlow.Proofs.BlurredSteps

/-!
# Blurred frames

What the steps on types and frames do does not depend on spans, nor on the bodies of the
definitions: of the declarations they ask only which classes there are, which parts these declare
and which methods they have.  So each of them passes places on, with blurred declarations, an empty
span and a blurred frame in the second run.
-/

namespace ShapeFlow

open Blurry (blurred)

variable {excused : Failure → Prop} [ExcusesBare excused] {declarations : Declarations}
  {span : Span}

theorem Declarations.missingPart_blur (declarations : Declarations) (span : Span)
    (className : String) (selector : Selector) :
    declarations.blur.missingPart {} className selector =
      (declarations.missingPart span className selector).blur := by
  unfold missingPart
  rw [declares_blur]
  split <;> rfl

instance (graph : TypeGraph) (type : TypeId) :
    CheckBlurs excused (graph.node type) (graph.node type) := .found _ _

instance (graph : TypeGraph) (type : TypeId) (selector : Selector) :
    CheckBlurs excused (graph.partType declarations span type selector)
      (graph.partType declarations.blur {} type selector) := by
  unfold TypeGraph.partType
  refine .seq inferInstance fun node => ?_
  cases node with
  | scalar => exact .reject _
  | object className fields =>
    dsimp only
    cases fields.get? selector with
    | some part => infer_instance
    | none =>
      dsimp only
      rw [declarations.missingPart_blur span className selector]
      exact .reject _

namespace Frame

section Typing

variable (frame : Frame)

instance (slot : Nat) :
    CheckBlurs excused (frame.slotType slot) ((blurred frame).slotType slot) := by
  cases slot with
  | zero => exact .broken _
  | succ slot => exact .found _ _

instance (id : AllocId) :
    CheckBlurs excused (frame.allocation id) ((blurred frame).allocation id) := .found _ _

instance (operand : Operand) :
    CheckBlurs excused (frame.resolve operand) ((blurred frame).resolve operand) := by
  cases operand with
  | type type => exact .pure _
  | path place => exact .pure _
  | fresh id =>
    unfold resolve
    refine .seq inferInstance fun object => ?_
    cases object.home? <;> infer_instance

instance (graph : TypeGraph) (place : AccessPath) :
    CheckBlurs excused (frame.placeType declarations graph span place)
      ((blurred frame).placeType declarations.blur graph {} place) := by
  unfold placeType
  infer_instance

instance (graph : TypeGraph) (operand : Operand) :
    CheckBlurs excused (frame.classOf? declarations graph span operand)
      ((blurred frame).classOf? declarations.blur graph {} operand) := by
  cases operand <;> unfold classOf? <;> infer_instance

instance (graph : TypeGraph) (slot : Nat) :
    CheckBlurs excused (frame.slotOperand graph slot) ((blurred frame).slotOperand graph slot) := by
  unfold slotOperand
  refine .seq inferInstance fun type => .seq inferInstance fun node => ?_
  cases node <;> infer_instance

end Typing

/-! ### Reading -/

instance (graph : TypeGraph) (type : TypeId) :
    ReadBlurs excused (expand? graph type) (expand? graph type) := by
  unfold expand?
  refine .seq inferInstance fun node => ?_
  cases node <;> infer_instance

instance (id : AllocId) (selector : Selector) (operand : Operand) :
    ReadBlurs excused (setPart id selector operand) (setPart id selector operand) := by
  unfold setPart
  infer_instance

instance (graph : TypeGraph) (base : Operand) (selector : Selector) :
    ReadBlurs excused (read declarations span graph base selector)
      (read declarations.blur {} graph base selector) := by
  unfold read
  refine @ReadBlurs.getBind _ _ _ _ fun frame => .seq inferInstance fun resolved => ?_
  cases resolved with
  | path place =>
    refine .seq inferInstance fun object => .seq inferInstance fun part =>
      .seq inferInstance fun node => ?_
    cases node <;> infer_instance
  | type object => infer_instance
  | fresh id =>
    refine .seq inferInstance fun object => ?_
    cases object.fields.get? selector with
    | none =>
      dsimp only
      rw [declarations.missingPart_blur span object.className selector]
      exact .reject _
    | some held =>
      cases held with
      | type part =>
        refine .seq inferInstance fun child? => ?_
        cases child? <;> infer_instance
      | path place => infer_instance
      | fresh child => infer_instance

instance (graph : TypeGraph) (base : Operand) (selectors : List Selector) :
    ReadBlurs excused (readAlong declarations span graph base selectors)
      (readAlong declarations.blur {} graph base selectors) := by
  unfold readAlong
  infer_instance

end Frame

/-! ### Placing -/

namespace Placement

theorem visitPart_blurs {visit : Placement → AllocId → AccessPath → Checked Placement}
    (hvisit : ∀ id place, WalkBlurs excused (visit · id place) (visit · id place))
    (target : AccessPath) (operand : Operand) :
    WalkBlurs excused (visitPart visit · target operand) (visitPart visit · target operand) := by
  unfold visitPart
  refine .ask (fun walk => (inferInstance : CheckBlurs excused (walk.frame.resolve operand)
    ((blurred walk.frame).resolve operand))) fun resolved => ?_
  cases resolved with
  | type type => exact .pure fun _ => rfl
  | path source => exact .pure fun _ => rfl
  | fresh child => exact hvisit child target

theorem visit_blurs (settling : Bool) (room : Nat) (id : AllocId) (place : AccessPath) :
    WalkBlurs excused (visit settling room · id place) (visit settling room · id place) := by
  induction room generalizing id place with
  | zero =>
    unfold visit
    refine .ite (fun _ => rfl) (.pure fun _ => rfl) (.ask (fun walk => ?_) fun object => ?_)
    · exact (inferInstance : CheckBlurs excused (walk.frame.allocation id)
        ((blurred walk.frame).allocation id))
    · exact .broken _
  | succ room ih =>
    unfold visit
    refine .ite (fun _ => rfl) (.pure fun _ => rfl) (.ask (fun walk => ?_) fun object => ?_)
    · exact (inferInstance : CheckBlurs excused (walk.frame.allocation id)
        ((blurred walk.frame).allocation id))
    · have hparts := WalkBlurs.foldlM (fun entry : Selector × Operand =>
        visitPart_blurs (fun id place => ih id place) (place.child entry.1) entry.2)
        object.fields.entries
      refine WalkBlurs.bind (.bind (.pure fun walk => ?_) hparts) (.pure fun walk => ?_)
      · rfl
      · cases settling <;> rfl

end Placement

namespace Frame

/-- The object is placed in the frame as it is. -/
theorem place_blurs {α : Type} (settling : Bool) (id : AllocId) (target : AccessPath)
    {next next' : Framed α} (hnext : RunBlurs excused next next') :
    RunBlurs excused (do
      let frame ← (← getThe Frame).place settling id target
      set frame
      next : Framed α) (do
      let frame ← (← getThe Frame).place settling id target
      set frame
      next' : Framed α) := by
  have hvisit (frame : Frame) : WalkBlurs excused _ _ :=
    Placement.visit_blurs settling frame.allocations.size id target
  refine @RunBlurs.getBind _ _ _ _ _ _ _ _ fun frame => .answerBind blurred ?_ ?_ fun placed =>
    .seq (.setFrame placed) fun _ => hnext
  · have hrun := (hvisit frame).run { frame }
    show (Placement.visit settling frame.allocations.size (Placement.blur { frame }) id target >>=
      fun walk => pure walk.frame) = _
    rw [hrun, place]
    cases Placement.visit settling frame.allocations.size { frame } id target <;> rfl
  · intro failure hfailed
    rw [place] at hfailed
    cases hvisited : Placement.visit settling frame.allocations.size { frame } id target with
    | ok walk =>
      rw [hvisited] at hfailed
      exact nomatch hfailed
    | error reason =>
      rw [hvisited] at hfailed
      cases hfailed
      exact (hvisit frame).excuses _ _ hvisited

/-! ### The types of objects -/

section Reifying

variable (frame : Frame)

instance (visit visit' : AllocId → StateT Reified Building TypeId)
    [∀ id, RunBlurs excused (visit id) (visit' id)] (operand : Operand) :
    RunBlurs excused (frame.heldType declarations span visit operand)
      ((blurred frame).heldType declarations.blur {} visit' operand) := by
  cases operand <;> unfold heldType <;> infer_instance

instance (visit visit' : AllocId → StateT Reified Building TypeId)
    [∀ id, RunBlurs excused (visit id) (visit' id)] (fields : OrderedMap Selector Operand) :
    RunBlurs excused (frame.heldTypes declarations span visit fields)
      ((blurred frame).heldTypes declarations.blur {} visit' fields) := by
  unfold heldTypes
  infer_instance

theorem isOnCircle_blur (id : AllocId) : (blurred frame).isOnCircle id = frame.isOnCircle id := by
  rfl

instance (room : Nat) (around : List AllocId) (id : AllocId) :
    RunBlurs excused (frame.reifyWithin declarations span room around id)
      ((blurred frame).reifyWithin declarations.blur {} room around id) := by
  induction room using Nat.strongRecOn generalizing around id with
  | ind room ih =>
    unfold reifyWithin
    refine @RunBlurs.getReifiedBind _ _ _ _ fun reified => ?_
    cases reified.get? id with
    | some type => infer_instance
    | none =>
      refine .seq inferInstance fun object => ?_
      cases object.home? with
      | some home => infer_instance
      | none =>
        dsimp only
        rw [isOnCircle_blur]
        split
        · infer_instance
        · cases room with
          | zero => infer_instance
          | succ room =>
            -- The visits of the parts have less room.
            have (child : AllocId) := ih room (Nat.lt_succ_self room) (id :: around) child
            dsimp only
            split
            · infer_instance
            · split <;> infer_instance

instance (id : AllocId) :
    Blurs excused (frame.reify declarations span id)
      ((blurred frame).reify declarations.blur {} id) :=
  .run' (frame.reifyWithin declarations span frame.allocations.size [] id)
    ((blurred frame).reifyWithin declarations.blur {} frame.allocations.size [] id) ∅

instance (operand : Operand) :
    Blurs excused (frame.typeOf declarations span operand)
      ((blurred frame).typeOf declarations.blur {} operand) := by
  unfold typeOf
  refine .seq inferInstance fun resolved => ?_
  cases resolved <;> infer_instance

end Reifying

/-! ### Vacating -/

instance (base : AccessPath) (operand : Operand) (part : TypeId) :
    RunBlurs excused (isCurrent declarations span base operand part)
      (isCurrent declarations.blur {} base operand part) := by
  unfold isCurrent
  split <;> infer_instance

instance (base : AccessPath) (existing? : Option AllocId) (selector : Selector) (part : TypeId) :
    RunBlurs excused (keptPart declarations span base existing? selector part)
      (keptPart declarations.blur {} base existing? selector part) := by
  unfold keptPart
  refine .seq ?_ fun previous? => ?_
  · cases existing? <;> infer_instance
  · cases previous? with
    | none => infer_instance
    | some previous =>
      refine .seq inferInstance fun current => ?_
      split <;> infer_instance

instance (base : AccessPath) (leaving : List (AllocId × AccessPath))
    (copy copy' : AccessPath → Framed Operand)
    [∀ place, RunBlurs excused (copy place) (copy' place)] (existing? : Option AllocId)
    (place : AccessPath) :
    RunBlurs excused (copyParts declarations span base leaving copy existing? place)
      (copyParts declarations.blur {} base leaving copy' existing? place) := by
  unfold copyParts
  refine .seq inferInstance fun type => .seq inferInstance fun node => .seq ?_ fun parts =>
    inferInstance
  refine @RunBlurs.mapM _ _ _ _ _ _ _ _ _ (fun entry => ?_) _
  dsimp only
  split <;> infer_instance

instance (base : AccessPath) (leaving : List (AllocId × AccessPath))
    (inner inner' : AccessPath → Framed Operand)
    [∀ place, RunBlurs excused (inner place) (inner' place)] (place : AccessPath) :
    RunBlurs excused (copyAt declarations span base leaving inner place)
      (copyAt declarations.blur {} base leaving inner' place) := by
  unfold copyAt
  cases leaving.find? fun resident => resident.2 = place with
  | some resident => infer_instance
  | none =>
    refine .seq inferInstance fun type => .seq inferInstance fun node => ?_
    cases node with
    | scalar => infer_instance
    | object className fields =>
      exact .seq inferInstance fun fields => .seq (.modifyGet fun _ => rfl) fun id => inferInstance

instance (base : AccessPath) (leaving : List (AllocId × AccessPath)) (room : Nat)
    (place : AccessPath) :
    RunBlurs excused (copy declarations span base leaving room place)
      (copy declarations.blur {} base leaving room place) := by
  induction room generalizing place with
  | zero =>
    unfold copy
    infer_instance
  | succ room ih =>
    unfold copy
    infer_instance

instance (root : Operand) (base place : AccessPath) :
    RunBlurs excused (retrace declarations span root base place)
      (retrace declarations.blur {} root base place) := by
  unfold retrace
  cases place.below? base <;> infer_instance

instance (name : String) (operand : Operand) :
    RunBlurs excused (modifyThe Frame (setLocal name operand) : Framed PUnit)
      (modifyThe Frame (setLocal name operand)) := .modify fun _ => rfl

instance (target : AccessPath) (value : Value) :
    RunBlurs excused (modifyThe Frame (record target value) : Framed PUnit)
      (modifyThe Frame (record target value)) := .modify fun _ => rfl

instance (id : AllocId) (fields : OrderedMap Selector Operand) :
    RunBlurs excused (modifyThe Frame (release id fields) : Framed PUnit)
      (modifyThe Frame (release id fields)) := .modify fun _ => rfl

instance (base : AccessPath) (value : Operand) :
    RunBlurs excused (vacate declarations span base value)
      (vacate declarations.blur {} base value) := by
  unfold vacate
  refine @RunBlurs.getBind _ _ _ _ _ _ _ _ fun frame => ?_
  have hresidents : (blurred frame).residents base = frame.residents base := rfl
  have hlocals : (blurred frame).localsWithin base = frame.localsWithin base := rfl
  have hparts : (blurred frame).partsWithin base = frame.partsWithin base := rfl
  dsimp only
  rw [hresidents, hlocals, hparts]
  split
  · infer_instance
  · refine .seq inferInstance fun rebuilt => .seq inferInstance fun root =>
      .seq inferInstance fun _ => .seq inferInstance fun _ =>
        @RunBlurs.getBind _ _ _ _ _ _ _ _ fun later => .seq ?_ fun _ => ?_
    · have hparts : (blurred later).partsWithin base = later.partsWithin base := rfl
      rw [hparts]
      infer_instance
    · cases value.placeWithin? base <;> infer_instance

/-! ### Writing and telling -/

instance (target : AccessPath) (selector : Selector) (part : TypeId) :
    RunBlurs excused (setPlaceType span target selector part)
      (setPlaceType {} target selector part) := by
  unfold setPlaceType
  refine .seq inferInstance fun current => @RunBlurs.getGraphBind _ _ _ _ _ _ fun graph => ?_
  cases graph.bindAt? current target.selectors part with
  | none => exact .reject _
  | some result => exact .seq inferInstance fun _ => .modify fun _ => rfl

instance (target : AccessPath) (operand : Operand) :
    RunBlurs excused (recordOperand declarations span target operand)
      (recordOperand declarations.blur {} target operand) := by
  cases operand with
  | type type => exact .modify fun _ => rfl
  | path source => exact .modify fun _ => rfl
  | fresh id =>
    unfold recordOperand
    exact @RunBlurs.getBind _ _ _ _ _ _ _ _ fun frame => .seq inferInstance fun type =>
      .seq inferInstance fun _ => place_blurs true id target (.pure PUnit.unit)

instance (base : Operand) (selector : Selector) (value : Operand) :
    RunBlurs excused (write declarations span base selector value)
      (write declarations.blur {} base selector value) := by
  unfold write
  refine .seq inferInstance fun base => .seq inferInstance fun value =>
    .seq inferInstance fun className? => ?_
  cases className? with
  | none => exact .reject _
  | some className =>
    dsimp only
    rw [Declarations.declares_blur]
    split
    · cases base <;> infer_instance
    · exact .reject _

instance (base : Operand) (selectors : List Selector) (value : Operand) :
    RunBlurs excused (writeAlong declarations span base selectors value)
      (writeAlong declarations.blur {} base selectors value) := by
  unfold writeAlong
  cases selectors.getLast? <;> infer_instance

instance (operand : Operand) :
    RunBlurs excused (currentType declarations span operand)
      (currentType declarations.blur {} operand) := by
  unfold currentType
  infer_instance

instance (operand : Operand) :
    RunBlurs excused (express declarations span operand)
      (express declarations.blur {} operand) := by
  unfold express
  refine .seq inferInstance fun resolved => ?_
  cases resolved <;> infer_instance

instance (operand : Operand) :
    RunBlurs excused (expressResult declarations span operand)
      (expressResult declarations.blur {} operand) := by
  unfold expressResult
  refine .seq inferInstance fun resolved => ?_
  cases resolved with
  | fresh id =>
    exact @RunBlurs.getBind _ _ _ _ _ _ _ _ fun frame => .seq inferInstance fun type =>
      place_blurs false id _ (.pure (Value.type type))
  | type type => infer_instance
  | path place => infer_instance

end Frame

end ShapeFlow
