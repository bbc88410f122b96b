import ShapeFlow.Frame.Express
import ShapeFlow.Proofs.Growth
import ShapeFlow.Proofs.StepOutcomes

/-!
# Sound frames

A place that is told to the callers of a body has to start from one of their arguments, and
from one that is an object (`AccessPath.RootedIn`).  `Frame.Sound` says this of every place
that a frame holds: in locals, in parts and homes of allocated objects, and in what the
frame has recorded so far.  It also says that each slot keeps the class of its argument, so
that what is rooted at an object stays so.

`Frame.Keeps` says of a step that it leads from a sound frame to a sound one, that the graph
of types grows, and that a failure is not about a slot that a call does not have.  This
module defines the notions and treats the steps that change a frame directly.
-/

namespace ShapeFlow

/-- The root of the place is an argument slot, and the argument is an object. -/
def AccessPath.RootedIn (graph : TypeGraph) (arguments : List TypeId) (place : AccessPath) :
    Prop :=
  ∃ slot type className, place.root = slot + 1 ∧ arguments[slot]? = some type ∧
    graph.className? type = some className

/-- A type of the graph, or a place that starts from an argument. -/
def Value.RootedIn (graph : TypeGraph) (arguments : List TypeId) : Value → Prop
  | .type held => graph.Has held
  | .path place => place.RootedIn graph arguments

/-- A type of the graph, a place that starts from an argument, or an allocated object. -/
def Operand.RootedIn (graph : TypeGraph) (arguments : List TypeId) : Operand → Prop
  | .type held => graph.Has held
  | .path place => place.RootedIn graph arguments
  | .fresh _ => True

/-- A write to a part of an argument. -/
structure Write.RootedIn (graph : TypeGraph) (arguments : List TypeId) (write : Write) :
    Prop where
  target : write.target.RootedIn graph arguments
  selectors : write.target.selectors ≠ []
  value : write.value.RootedIn graph arguments

section Rooted

variable {graph grown : TypeGraph} {arguments : List TypeId}

theorem AccessPath.RootedIn.mono {place : AccessPath} (hrooted : place.RootedIn graph arguments)
    (hgrows : graph.Grows grown) : place.RootedIn grown arguments := by
  obtain ⟨slot, type, className, hroot, hslot, hclass⟩ := hrooted
  refine ⟨slot, type, className, hroot, hslot, ?_⟩
  rw [hgrows.className?_eq (TypeGraph.has_of_className? hclass), hclass]

theorem AccessPath.RootedIn.of_root_eq {place other : AccessPath}
    (hrooted : place.RootedIn graph arguments) (hroot : other.root = place.root) :
    other.RootedIn graph arguments := by
  obtain ⟨slot, type, className, hslot, hargument⟩ := hrooted
  exact ⟨slot, type, className, hroot.trans hslot, hargument⟩

theorem AccessPath.RootedIn.child {place : AccessPath}
    (hrooted : place.RootedIn graph arguments) (selector : Selector) :
    (place.child selector).RootedIn graph arguments := hrooted.of_root_eq rfl

theorem AccessPath.child_selectors_ne (place : AccessPath) (selector : Selector) :
    (place.child selector).selectors ≠ [] := by
  simp [AccessPath.child]

theorem Value.RootedIn.mono {value : Value} (hrooted : value.RootedIn graph arguments)
    (hgrows : graph.Grows grown) : value.RootedIn grown arguments := by
  cases value with
  | type held => exact hgrows.has hrooted
  | path place => exact AccessPath.RootedIn.mono hrooted hgrows

theorem Operand.RootedIn.mono {operand : Operand} (hrooted : operand.RootedIn graph arguments)
    (hgrows : graph.Grows grown) : operand.RootedIn grown arguments := by
  cases operand with
  | type held => exact hgrows.has hrooted
  | path place => exact AccessPath.RootedIn.mono hrooted hgrows
  | fresh id => trivial

theorem Write.RootedIn.mono {write : Write} (hrooted : write.RootedIn graph arguments)
    (hgrows : graph.Grows grown) : write.RootedIn grown arguments :=
  ⟨hrooted.target.mono hgrows, hrooted.selectors, hrooted.value.mono hgrows⟩

end Rooted

/-- The places of an allocated object: those that its parts hold, and its home. -/
structure Allocation.RootedIn (graph : TypeGraph) (arguments : List TypeId)
    (object : Allocation) : Prop where
  parts : ∀ selector operand, object.fields.get? selector = some operand →
    operand.RootedIn graph arguments
  home : ∀ home, object.home? = some home → home.RootedIn graph arguments

theorem Allocation.RootedIn.empty {graph : TypeGraph} {arguments : List TypeId}
    (className : String) : ({ className } : Allocation).RootedIn graph arguments where
  parts _ _ hpart := nomatch hpart
  home _ hhome := nomatch hhome

/-- Every place that the frame holds starts from an argument that is an object, and the slots
have the classes of the arguments. -/
structure Frame.Sound (graph : TypeGraph) (arguments : List TypeId) (frame : Frame) : Prop where
  wellFormed : graph.WellFormed
  has_arguments : ∀ type ∈ arguments, graph.Has type
  length_slots : frame.slots.length = arguments.length
  slots : ∀ (slot : Nat) (type : TypeId), frame.slots[slot]? = some type → graph.Has type ∧
    graph.className? type = arguments[slot]?.bind graph.className?
  locals : ∀ name operand, frame.locals.get? name = some operand →
    operand.RootedIn graph arguments
  objects : ∀ (id : Nat) (object : Allocation), frame.allocations[id]? = some object →
    object.RootedIn graph arguments
  writes : ∀ write ∈ frame.writes, write.RootedIn graph arguments
  calls : ∀ call ∈ frame.calls, call.value.RootedIn graph arguments

theorem Frame.Sound.mono {graph grown : TypeGraph} {arguments : List TypeId} {frame : Frame}
    (hsound : frame.Sound graph arguments) (hgrows : graph.Grows grown)
    (hwell : grown.WellFormed) : frame.Sound grown arguments where
  wellFormed := hwell
  has_arguments type hmem := hgrows.has (hsound.has_arguments type hmem)
  length_slots := hsound.length_slots
  slots slot type hslot := by
    obtain ⟨hhas, hclass⟩ := hsound.slots slot type hslot
    refine ⟨hgrows.has hhas, ?_⟩
    rw [hgrows.className?_eq hhas, hclass]
    cases hargument : arguments[slot]? with
    | none => rfl
    | some argument =>
      have hmem := hsound.has_arguments argument (List.mem_of_getElem? hargument)
      exact (hgrows.className?_eq hmem).symm
  locals name operand hlocal := (hsound.locals name operand hlocal).mono hgrows
  objects id object hobject :=
    ⟨fun selector operand hpart =>
        ((hsound.objects id object hobject).parts selector operand hpart).mono hgrows,
      fun home hhome => ((hsound.objects id object hobject).home home hhome).mono hgrows⟩
  writes write hmem := (hsound.writes write hmem).mono hgrows
  calls call hmem := (hsound.calls call hmem).mono hgrows

/-- The failure is not about a slot that a call does not have. -/
def Failure.Harmless : Failure → Prop
  | .rejected diagnostic =>
    ∀ method slot span, diagnostic.rootCause ≠ .unboundSlot method slot span
  | .broken _ => True

theorem Failure.Harmless.within {failure : Failure} (hharmless : failure.Harmless)
    (signature : String) : (failure.within signature).Harmless := by
  cases failure with
  | rejected diagnostic => simpa [Failure.within, Harmless] using hharmless
  | broken reference => trivial

/-- Graphs of types grow and stay well-formed, and no failure blames a slot. -/
def growing : Discipline TypeGraph where
  Grows := TypeGraph.Grows
  Calm := TypeGraph.WellFormed
  Excused := Failure.Harmless
  refl := TypeGraph.Grows.refl
  trans := TypeGraph.Grows.trans

/-- A step that only reads answers as told, or fails without blaming a slot. -/
abbrev Checked.Harmless {α : Type} (step : Checked α) (post : α → Prop) : Prop :=
  Checked.Safe Failure.Harmless step post

/-- The step leads to a sound frame and answers as told, or fails without blaming a slot. -/
abbrev Frame.Keeps {α : Type} (graph : TypeGraph) (arguments : List TypeId)
    (outcome : EStateM.Result Failure TypeGraph (α × Frame)) (post : α → TypeGraph → Prop) :
    Prop :=
  growing.Ends graph outcome fun result grown =>
    result.2.Sound grown arguments ∧ post result.1 grown

/-- A rejection that does not blame a slot. -/
theorem harmless_cause {cause : Cause}
    (hcause : ∀ method slot span, cause ≠ .unboundSlot method slot span) :
    (Failure.rejected (.cause cause)).Harmless := hcause

variable {graph : TypeGraph} {arguments : List TypeId} {frame : Frame}
  {declarations : Declarations} {span : Span}

theorem Declarations.missingPart_ne (declarations : Declarations) (span : Span)
    (className : String) (selector : Selector) (method : String) (slot : Nat) (at' : Span) :
    declarations.missingPart span className selector ≠ .unboundSlot method slot at' := by
  unfold missingPart
  split <;> simp

theorem TypeGraph.node_safe (graph : TypeGraph) (type : TypeId) :
    Checked.Harmless (graph.node type) fun node => graph.node? type = some node :=
  .found trivial fun _ hnode => hnode

theorem TypeGraph.partType_safe (hclosed : graph.Closed) (type : TypeId) (selector : Selector) :
    Checked.Harmless (graph.partType declarations span type selector) graph.Has := by
  refine (graph.node_safe type).bind fun node hnode => ?_
  cases node with
  | scalar => exact harmless_cause (by simp)
  | object className fields =>
    dsimp only
    split
    · rename_i part hpart
      exact hclosed hnode hpart
    · exact harmless_cause (declarations.missingPart_ne span className selector)

theorem Frame.allocation_safe (frame : Frame) (id : AllocId) :
    Checked.Harmless (frame.allocation id) fun object =>
      frame.allocations[id.index]? = some object :=
  .found trivial fun _ hobject => hobject

theorem Frame.slotType_safe (frame : Frame) (slot : Nat) :
    Checked.Harmless (frame.slotType slot) fun type =>
      slot ≠ 0 ∧ frame.slots[slot - 1]? = some type := by
  cases slot with
  | zero => trivial
  | succ slot => exact .found trivial fun _ htype => ⟨Nat.succ_ne_zero slot, htype⟩

namespace Frame.Sound

theorem slotType (hsound : frame.Sound graph arguments) (slot : Nat) :
    Checked.Harmless (frame.slotType slot) graph.Has :=
  (frame.slotType_safe slot).mono fun type htype => (hsound.slots (slot - 1) type htype.2).1

theorem resolve (hsound : frame.Sound graph arguments) {operand : Operand}
    (hrooted : operand.RootedIn graph arguments) :
    Checked.Harmless (frame.resolve operand) (Operand.RootedIn graph arguments) := by
  cases operand with
  | type held => exact hrooted
  | path place => exact hrooted
  | fresh id =>
    refine (frame.allocation_safe id).bind fun object hobject => ?_
    split
    · rename_i home hhome
      exact (hsound.objects id.index object hobject).home home hhome
    · trivial

theorem foldl_partType (hclosed : graph.Closed) (selectors : List Selector) {type : TypeId}
    (hhas : graph.Has type) :
    Checked.Harmless (selectors.foldlM (graph.partType declarations span) type) graph.Has := by
  induction selectors generalizing type with
  | nil => exact hhas
  | cons selector rest ih =>
    rw [List.foldlM_cons]
    exact (TypeGraph.partType_safe hclosed type selector).bind fun part hpart => ih hpart

theorem placeType (hsound : frame.Sound graph arguments) (place : AccessPath) :
    Checked.Harmless (frame.placeType declarations graph span place) graph.Has :=
  (hsound.slotType place.root).bind fun _ hhas =>
    foldl_partType hsound.wellFormed.closed place.selectors hhas

theorem classOf? (hsound : frame.Sound graph arguments) (operand : Operand) :
    Checked.Harmless (frame.classOf? declarations graph span operand) fun _ => True := by
  cases operand with
  | type held => exact (graph.node_safe held).bind fun _ _ => trivial
  | path place =>
    exact (hsound.placeType place).bind fun type _ => (graph.node_safe type).bind fun _ _ => trivial
  | fresh id =>
    exact (frame.allocation_safe id).bind fun _ _ => trivial

theorem slotOperand (hsound : frame.Sound graph arguments) (slot : Nat) :
    Checked.Harmless (frame.slotOperand graph slot) (Operand.RootedIn graph arguments) := by
  refine Checked.Safe.bind (frame.slotType_safe slot) fun type htype => ?_
  refine (graph.node_safe type).bind fun node hnode => ?_
  obtain ⟨hhas, hclass⟩ := hsound.slots (slot - 1) type htype.2
  cases node with
  | scalar => exact hhas
  | object className fields =>
    -- The slot keeps the class of its argument, so the argument is an object too.
    rw [TypeGraph.className?_eq_some_iff.mpr ⟨fields, hnode⟩] at hclass
    obtain ⟨argument, hargument, hargumentClass⟩ := Option.bind_eq_some_iff.mp hclass.symm
    have hslot : slot = slot - 1 + 1 := by
      have := htype.1
      omega
    exact ⟨slot - 1, argument, className, hslot, hargument, hargumentClass⟩

/-! ## Changes of a frame -/

theorem setLocal (hsound : frame.Sound graph arguments) (name : String) {operand : Operand}
    (hrooted : operand.RootedIn graph arguments) :
    (frame.setLocal name operand).Sound graph arguments :=
  { hsound with
    locals := by
      intro other held hheld
      rw [Frame.setLocal, OrderedMap.get?_insert] at hheld
      split at hheld
      · rw [Option.some.injEq] at hheld
        exact hheld ▸ hrooted
      · exact hsound.locals other held hheld }

theorem record (hsound : frame.Sound graph arguments) {target : AccessPath} {value : Value}
    (hwrite : Write.RootedIn graph arguments ⟨target, value⟩) :
    (frame.record target value).Sound graph arguments :=
  { hsound with
    writes := by
      intro write hmem
      rcases List.mem_append.mp hmem with hmem | hmem
      · exact hsound.writes write hmem
      · exact List.mem_singleton.mp hmem ▸ hwrite }

theorem recordCall (hsound : frame.Sound graph arguments) {call : CallRecord}
    (hcall : call.value.RootedIn graph arguments) :
    (frame.recordCall call).Sound graph arguments :=
  { hsound with
    calls := by
      intro other hmem
      rcases List.mem_append.mp hmem with hmem | hmem
      · exact hsound.calls other hmem
      · exact List.mem_singleton.mp hmem ▸ hcall }

theorem allocate (hsound : frame.Sound graph arguments) {object : Allocation}
    (hobject : object.RootedIn graph arguments) :
    (frame.allocate object).2.Sound graph arguments :=
  { hsound with
    objects := by
      intro id other hother
      simp only [Frame.allocate, Array.getElem?_push] at hother
      split at hother
      · rw [Option.some.injEq] at hother
        exact hother ▸ hobject
      · exact hsound.objects id other hother }

theorem update (hsound : frame.Sound graph arguments) (id : AllocId)
    {change : Allocation → Allocation}
    (hchange : ∀ object, object.RootedIn graph arguments →
      (change object).RootedIn graph arguments) :
    (frame.update id change).Sound graph arguments :=
  { hsound with
    objects := by
      intro other object hobject
      simp only [Frame.update, Array.getElem?_modify] at hobject
      split at hobject
      · obtain ⟨old, hold, rfl⟩ := Option.map_eq_some_iff.mp hobject
        exact hchange old (hsound.objects other old hold)
      · exact hsound.objects other object hobject }

theorem setSlot (hsound : frame.Sound graph arguments) {position : Nat} {current type : TypeId}
    (hcurrent : frame.slots[position]? = some current) (hhas : graph.Has type)
    (hclass : graph.className? type = graph.className? current) :
    ({ frame with slots := frame.slots.set position type } : Frame).Sound graph arguments :=
  { hsound with
    length_slots := by simpa using hsound.length_slots
    slots := by
      intro slot held hheld
      rw [List.getElem?_set] at hheld
      split at hheld
      · rename_i heq
        split at hheld
        · rw [Option.some.injEq] at hheld
          subst hheld
          exact ⟨hhas, hclass.trans (heq ▸ (hsound.slots position current hcurrent).2)⟩
        · simp at hheld
      · exact hsound.slots slot held hheld }

end Frame.Sound

end ShapeFlow
