import ShapeFlow.Proofs.Sessions
import ShapeFlow.Proofs.SubstitutedPlaces

/-!
# What accessors do

Some methods only read a part of the running object, or write their last parameter to it: those that
a class gets with the declaration of a field, and those of the core class of arrays (`Accessors`).
Their bodies call nothing, so whoever answers for callees has no say in what they come to
(`Definition.CallFree`), and they ask no questions.
-/

namespace ShapeFlow

variable {declarations : Declarations} {definition : Definition} {analyst : Analyst}
  {signature : Signature} {knowledge : Knowledge} {selector : Selector}
  {reader writer : MethodDecl} {className : String}

/-! ## Bodies that call nothing -/

/-- The body of the definition is a step on its frame, and calls nothing. -/
def Definition.CallFree (declarations : Declarations) (definition : Definition)
    (step : Framed Operand) : Prop :=
  ∀ analyst, Scope.evaluateBody ⟨declarations, definition, analyst⟩ definition.decl.body =
    liftM step

namespace Definition.CallFree

variable {step : Framed Operand} (hfree : definition.CallFree declarations step)

include hfree

/-- What a body that calls nothing comes to. -/
theorem summarize_eq (analyst : Analyst) (signature : Signature) (knowledge : Knowledge) :
    summarize analyst declarations definition signature knowledge =
      match (step >>= Frame.expressResult declarations definition.decl.span)
        { slots := signature.arguments } knowledge.graph with
      | .ok (result, frame) graph =>
        .ok ⟨signature, result, frame.writes, frame.calls⟩ { knowledge with graph }
      | .error failure graph => .error failure { knowledge with graph } := by
  unfold summarize
  simp only [hfree analyst]
  simp only [bind, StateT.bind, EStateM.bind, StateT.run, liftM, monadLift, MonadLift.monadLift,
    Building.within, pure, EStateM.pure]
  cases step { slots := signature.arguments } knowledge.graph with
  | error failure graph => rfl
  | ok result graph =>
    dsimp only
    cases Frame.expressResult declarations definition.decl.span result.1 result.2 graph <;> rfl

open Classical in
/-- A body that calls nothing asks nothing.  If it asked, then it would fail as its question is
refused; but it comes to the same whatever the failure. -/
theorem questions_eq_nil (analyst : Analyst) (signature : Signature) (knowledge : Knowledge) :
    (inquiryOf declarations definition signature knowledge).questions analyst = [] := by
  by_contra hasks
  obtain ⟨⟨task, known⟩, hasked⟩ := List.exists_mem_of_ne_nil _ hasks
  have hrefused : ∀ failure : Failure, ∃ refusing : Analyst,
      summarize refusing declarations definition signature knowledge = .error failure known := by
    intro failure
    let refusing : Analyst := fun target types later =>
      if (⟨target, types⟩, later) = (task, known) then .error failure known
      else analyst target types later
    refine ⟨refusing, ?_⟩
    rw [← run_inquiryOf]
    exact Inquiry.run_of_refused hasked (fun question later hne => if_neg hne) (if_pos rfl)
  obtain ⟨first, hfirst⟩ := hrefused (.broken (.slot 0))
  obtain ⟨second, hsecond⟩ := hrefused (.broken (.slot 1))
  rw [hfree.summarize_eq] at hfirst hsecond
  exact nomatch hfirst.symm.trans hsecond

end Definition.CallFree

theorem liftM_framed_bind {α β : Type} (step : Framed α) (next : α → Framed β) :
    (liftM (step >>= next) : Body β) = liftM step >>= fun value => liftM (next value) := by
  funext frame knowledge
  simp only [bind, StateT.bind, EStateM.bind, liftM, monadLift, MonadLift.monadLift,
    Building.within]
  cases step frame knowledge.graph <;> rfl

/-! ## Accessors -/

/-- The method that reads an element of an array. -/
def Declarations.arrayReader : MethodDecl where
  name := Expr.elementReader
  parameters := ["index"]
  body := [.read {} (.this {}) .element]

/-- The method that writes an element of an array. -/
def Declarations.arrayWriter : MethodDecl where
  name := Expr.elementWriter
  parameters := ["index", "value"]
  body := [.write {} (.this {}) .element (.name {} "value")]

/-- These are the methods of the class of arrays. -/
theorem Declarations.methods_arrayClass : arrayClass.methods = [arrayReader, arrayWriter] := rfl

/-- The methods that read and write one part of the running object: those that are added to a class
for a field, and those of the class of arrays. -/
inductive Accessors : Selector → MethodDecl → MethodDecl → Prop
  | field (name : String) :
      Accessors (.field ("@" ++ name)) (ClassDecl.reader name) (ClassDecl.writer name)
  | element : Accessors .element Declarations.arrayReader Declarations.arrayWriter

/-- The definition as a scope in which nobody answers for callees. -/
abbrev Definition.alone (declarations : Declarations) (definition : Definition) : Scope :=
  ⟨declarations, definition, default⟩

/-- Read a part of the running object. -/
def Scope.readsOwn (scope : Scope) (selector : Selector) : Framed Operand := do
  let object ← scope.this {}
  scope.read {} object selector

/-- Write a parameter to a part of the running object. -/
def Scope.writesOwn (scope : Scope) (selector : Selector) (parameter : String) :
    Framed Operand := do
  let object ← scope.this {}
  let value ← scope.name {} parameter
  scope.write {} object selector value

namespace Accessors

variable (haccessors : Accessors selector reader writer)

include haccessors

theorem reader_callFree (declarations : Declarations) (owner? : Option String) :
    Definition.CallFree declarations ⟨owner?, reader⟩
      ((Definition.alone declarations ⟨owner?, reader⟩).readsOwn selector) := by
  intro analyst
  unfold Scope.readsOwn
  rw [liftM_framed_bind]
  cases haccessors <;> exact bind_pure _

/-- The last parameter is written. -/
theorem exists_writer_callFree (declarations : Declarations) (owner? : Option String) :
    ∃ parameter, (⟨owner?, writer⟩ : Definition).slotOf? parameter =
        some (⟨owner?, writer⟩ : Definition).arity ∧
      Definition.CallFree declarations ⟨owner?, writer⟩
        ((Definition.alone declarations ⟨owner?, writer⟩).writesOwn selector parameter) := by
  have hfree : ∀ parameter, writer.body = [.write {} (.this {}) selector (.name {} parameter)] →
      Definition.CallFree declarations ⟨owner?, writer⟩
        ((Definition.alone declarations ⟨owner?, writer⟩).writesOwn selector parameter) := by
    intro parameter hbody analyst
    unfold Scope.writesOwn
    simp only [liftM_framed_bind, hbody]
    exact bind_pure _
  cases haccessors with
  | field name =>
    exact ⟨name, by simp [Definition.slotOf?, Definition.arity, ClassDecl.writer], hfree name rfl⟩
  | element => exact ⟨"value", by cases owner? <;> rfl, hfree "value" rfl⟩

end Accessors

/-! ## What the bodies come to -/

/-- The value tells what is found at the place: by the place itself if it is an object, and by its
type if it is primitive. -/
def Value.Tells (graph : TypeGraph) (place : AccessPath) : Option String → Value → Prop
  | some _, value => value = .path place
  | none, value => ∃ type, value = .type type ∧ graph.node? type = some .scalar

theorem Value.Tells.mono {graph grown : TypeGraph} {place : AccessPath} {class? : Option String}
    {value : Value} (htells : value.Tells graph place class?) (hgrows : graph.Grows grown) :
    value.Tells grown place class? := by
  cases class? with
  | some className => exact htells
  | none =>
    obtain ⟨type, hvalue, hnode⟩ := htells
    exact ⟨type, hvalue, hgrows.node? hnode⟩

/-- The summary says that nothing is written, and that the value is the part of the receiver. -/
structure Summary.ReadsPart (graph : TypeGraph) (selector : Selector) (class? : Option String)
    (summary : Summary) : Prop where
  writes : summary.writes = []
  result : summary.result.Tells graph ⟨1, [selector]⟩ class?

/-- The summary says that the part of the receiver receives the last argument, and is the value. -/
structure Summary.WritesPart (graph : TypeGraph) (selector : Selector) (slot : Nat)
    (class? : Option String) (summary : Summary) : Prop where
  writes : ∃ told : Value, summary.writes = [⟨⟨1, [selector]⟩, told⟩] ∧
    told.Tells graph ⟨slot, []⟩ class?
  result : summary.result = .path ⟨1, [selector]⟩

section Start

variable {graph : TypeGraph} {arguments : List TypeId} {type : TypeId}
  (hhead : arguments[0]? = some type) (hclass : graph.className? type = some className)

theorem Frame.slotOperand_of_class {frame : Frame} {slot : Nat} {held : TypeId} {name : String}
    (hheld : frame.slots[slot]? = some held) (hname : graph.className? held = some name) :
    frame.slotOperand graph (slot + 1) = .ok (.path ⟨slot + 1, []⟩) := by
  obtain ⟨fields, hnode⟩ := TypeGraph.className?_eq_some_iff.mp hname
  simp [slotOperand, slotType, TypeGraph.node, found, hheld, hnode, bind, Except.bind, pure,
    Except.pure]

theorem Frame.slotOperand_of_scalar {frame : Frame} {slot : Nat} {held : TypeId}
    (hheld : frame.slots[slot]? = some held) (hnode : graph.node? held = some .scalar) :
    frame.slotOperand graph (slot + 1) = .ok (.type held) := by
  simp [slotOperand, slotType, TypeGraph.node, found, hheld, hnode, bind, Except.bind, pure,
    Except.pure]

include hhead hclass

/-- What the running object stands for in a method. -/
theorem Scope.this_start {scope : Scope} (hmethod : scope.definition.isMethod = true)
    (span : Span) :
    scope.this span { slots := arguments } graph =
      .ok (.path ⟨1, []⟩, { slots := arguments }) graph := by
  unfold Scope.this
  rw [if_pos hmethod]
  exact inspect_of_ok (Frame.slotOperand_of_class hhead hclass)

end Start

/-- What has no class is primitive. -/
theorem TypeGraph.node?_of_className?_eq_none {graph : TypeGraph} {type : TypeId}
    (hhas : graph.Has type) (hnone : graph.className? type = none) :
    graph.node? type = some .scalar := by
  obtain ⟨node, hnode⟩ := (TypeGraph.has_iff_exists_node graph type).mp hhas
  rw [TypeGraph.className?, hnode] at hnone
  cases node with
  | scalar => exact hnode
  | object inner fields => cases hnone

namespace Accessors

variable {arguments : List TypeId} {type : TypeId} (haccessors : Accessors selector reader writer)
  (hwell : knowledge.graph.WellFormed) (hhead : arguments[0]? = some type)
  (hclass : knowledge.graph.className? type = some className)

include haccessors hwell hhead hclass

/-- The reader finds the part of its first argument, or misses it. -/
theorem summarize_reader (declarations : Declarations) (analyst : Analyst) (owner name : String) :
    match knowledge.graph.endAt? type [selector] with
    | none => summarize analyst declarations ⟨some owner, reader⟩ ⟨name, arguments⟩ knowledge =
        .error (.rejected (.cause (declarations.missingPart {} className selector))) knowledge
    | some class? => ∃ summary,
        summarize analyst declarations ⟨some owner, reader⟩ ⟨name, arguments⟩ knowledge =
            .ok summary knowledge ∧
          summary.ReadsPart knowledge.graph selector class? := by
  have hthis : (Definition.alone declarations ⟨some owner, reader⟩).this {}
      { slots := arguments } knowledge.graph = _ := Scope.this_start hhead hclass rfl {}
  have hplace : Frame.placeType? { slots := arguments } knowledge.graph ⟨1, []⟩ = some type := by
    simp [Frame.placeType?, hhead]
  rw [(haccessors.reader_callFree declarations (some owner)).summarize_eq]
  unfold Scope.readsOwn Scope.read
  rw [bind_assoc, run_bind_of_ok hthis]
  cases hpart : knowledge.graph.field? type selector with
  | none =>
    have hends : knowledge.graph.endAt? type [selector] = none := by
      rw [TypeGraph.endAt?_cons, hpart, Option.bind_none]
    have hread : Frame.read declarations {} knowledge.graph (.path ⟨1, []⟩) selector
        { slots := arguments } =
          .error (.rejected (.cause (declarations.missingPart {} className selector))) := by
      refine Frame.read_of_not_hasPart rfl ?_ ?_
      · simpa [Frame.IsOf, Frame.classAt?, hplace] using hclass
      · rintro ⟨found, part, hfound, hheld⟩
        obtain rfl := Option.some.inj (hplace.symm.trans hfound)
        cases hpart.symm.trans hheld
    rw [hends, run_bind_of_error (reading_of_error hread)]
  | some part =>
    have hhas := hwell.closed.has_field? hpart
    have hends : knowledge.graph.endAt? type [selector] =
        some (knowledge.graph.className? part) := by
      rw [TypeGraph.endAt?_cons, hpart, Option.bind_some, TypeGraph.endAt?_nil]
    have hread : Frame.read declarations {} knowledge.graph (.path ⟨1, []⟩) selector
        { slots := arguments } = _ := Frame.read_of_path rfl hplace hpart hhas
    rw [hends, run_bind_of_ok (reading_of_ok hread)]
    cases hname : knowledge.graph.className? part with
    | some inner => exact ⟨_, rfl, rfl, rfl⟩
    | none =>
      exact ⟨_, rfl, rfl, part, rfl, TypeGraph.node?_of_className?_eq_none hhas hname⟩

end Accessors

section Writes

variable {graph : TypeGraph} {arguments : List TypeId} {type given : TypeId} {operand : Operand}
  {told : Value} {span : Span}

/-- When a body starts there is nothing that has to leave a place. -/
theorem Frame.vacate_start {target : AccessPath} (houtside : operand.placeWithin? target = none) :
    Frame.vacate declarations span target operand { slots := arguments } graph =
      .ok (operand, { slots := arguments }) graph := by
  unfold Frame.vacate
  rw [getFrame_bind_eq]
  dsimp only
  rw [houtside, if_pos (by rfl)]
  rfl

theorem Frame.isOf_start (hhead : arguments[0]? = some type)
    (hclass : graph.className? type = some className) :
    Frame.IsOf { slots := arguments } graph className (.path ⟨1, []⟩) := by
  simpa [Frame.IsOf, Frame.classAt?, Frame.placeType?, hhead] using hclass

/-- What an argument stands for when a body starts: it is found by its place or known by its type,
and it is recorded in the same way. -/
theorem Frame.exists_slotOperand (declarations : Declarations) (span : Span) {slot : Nat}
    (selector : Selector) (hheld : arguments[slot]? = some given) (hhas : graph.Has given) :
    ∃ (operand : Operand) (told : Value),
      Frame.slotOperand { slots := arguments } graph (slot + 1) = .ok operand ∧
      told.Tells graph ⟨slot + 1, []⟩ (graph.className? given) ∧
      Frame.resolve { slots := arguments } operand = .ok operand ∧
      operand.placeWithin? ⟨1, [selector]⟩ = none ∧
      Frame.typeOf { slots := arguments } declarations span operand graph = .ok given graph ∧
      ∀ (frame : Frame) later,
        Frame.recordOperand declarations span ⟨1, [selector]⟩ operand frame later =
          .ok (⟨⟩, frame.record ⟨1, [selector]⟩ told) later := by
  cases hname : graph.className? given with
  | some inner =>
    have hplace : Frame.placeType? { slots := arguments } graph ⟨slot + 1, []⟩ = some given := by
      simp [Frame.placeType?, hheld]
    exact ⟨.path ⟨slot + 1, []⟩, .path ⟨slot + 1, []⟩, Frame.slotOperand_of_class hheld hname, rfl,
      rfl, by simp [Operand.placeWithin?, AccessPath.liesWithin], typeOf_path hplace,
      fun _ _ => rfl⟩
  | none =>
    have hnode := TypeGraph.node?_of_className?_eq_none hhas hname
    exact ⟨.type given, .type given, Frame.slotOperand_of_scalar hheld hnode, ⟨given, rfl, hnode⟩,
      rfl, rfl, rfl, fun _ _ => rfl⟩

/-- A write to a part of the running object, when a body starts. -/
theorem Frame.write_start (hhead : arguments[0]? = some type)
    (hclass : graph.className? type = some className)
    (hdeclares : declarations.declares className selector = true)
    (hresolve : Frame.resolve { slots := arguments } operand = .ok operand)
    (houtside : operand.placeWithin? ⟨1, [selector]⟩ = none)
    (htyped : Frame.typeOf { slots := arguments } declarations span operand graph =
      .ok given graph)
    (hrecord : ∀ (frame : Frame) later,
      Frame.recordOperand declarations span ⟨1, [selector]⟩ operand frame later =
        .ok (⟨⟩, frame.record ⟨1, [selector]⟩ told) later) :
    ∃ later grown, Frame.write declarations span (.path ⟨1, []⟩) selector operand
        { slots := arguments } graph = .ok (.path ⟨1, [selector]⟩, later) grown ∧
      later.writes = [⟨⟨1, [selector]⟩, told⟩] := by
  obtain ⟨fields, hnode⟩ := TypeGraph.className?_eq_some_iff.mp hclass
  obtain ⟨updated, grown, hbind⟩ : ∃ updated grown,
      graph.bindAt? type [selector] given = some (updated, grown) := by
    simp only [TypeGraph.bindAt?, TypeGraph.bindField?, hnode]
    exact ⟨_, _, rfl⟩
  have hset : Frame.setPlaceType span ⟨1, [selector]⟩ selector given { slots := arguments } graph =
      .ok (⟨⟩, { slots := arguments.set 0 updated }) grown := by
    have hslot : Frame.slotType { slots := arguments } 1 = .ok type := by
      simp [Frame.slotType, found, hhead]
    unfold Frame.setPlaceType
    rw [run_bind_of_ok (inspect_of_ok hslot), getBase_bind_eq, hbind]
    rfl
  refine ⟨Frame.record ⟨1, [selector]⟩ told { slots := arguments.set 0 updated }, grown, ?_, rfl⟩
  unfold Frame.write
  rw [run_bind_of_ok (inspect_of_ok rfl), run_bind_of_ok (inspect_of_ok hresolve),
    run_bind_of_ok (inspect_of_ok (Frame.classOf?_of_isOf (Frame.isOf_start hhead hclass)))]
  dsimp only
  rw [if_pos hdeclares]
  change (do
    let value ← Frame.vacate declarations span ⟨1, [selector]⟩ operand
    let part ← (← getThe Frame).typeOf declarations span value
    Frame.setPlaceType span ⟨1, [selector]⟩ selector part
    Frame.recordOperand declarations span ⟨1, [selector]⟩ value
    pure (.path ⟨1, [selector]⟩) : Framed Operand) _ _ = _
  rw [run_bind_of_ok (Frame.vacate_start houtside), getFrame_bind_eq,
    run_bind_of_ok (lift_of_ok htyped), run_bind_of_ok hset, run_bind_of_ok (hrecord _ _)]
  rfl

end Writes

/-- A class that does not declare the part is not given one. -/
theorem Frame.write_undeclared {frame : Frame} {graph : TypeGraph} {span : Span}
    {base resolved : Operand} (value : Operand) (hbase : frame.resolve base = .ok resolved)
    (hisOf : frame.IsOf graph className resolved)
    (hdeclares : declarations.declares className selector = false) :
    ∃ failure, Frame.write declarations span base selector value frame graph =
      .error failure graph := by
  unfold Frame.write
  rw [run_bind_of_ok (inspect_of_ok hbase)]
  cases hvalue : frame.resolve value with
  | error failure => exact ⟨failure, run_bind_of_error (inspect_of_error hvalue)⟩
  | ok told =>
    rw [run_bind_of_ok (inspect_of_ok hvalue),
      run_bind_of_ok (inspect_of_ok (Frame.classOf?_of_isOf hisOf))]
    dsimp only
    rw [hdeclares]
    exact ⟨_, rfl⟩

namespace Accessors

variable {arguments : List TypeId} {type given : TypeId} {slot : Nat} {owner : String}
  (haccessors : Accessors selector reader writer)
  (hhead : arguments[0]? = some type) (hclass : knowledge.graph.className? type = some className)
  (hlast : arguments[slot]? = some given) (hhas : knowledge.graph.Has given)
  (harity : (⟨some owner, writer⟩ : Definition).arity = slot + 1)

include haccessors hhead hclass hlast hhas harity

/-- The writer gives its last argument to its first one, if the class of that declares the part. -/
theorem summarize_writer (declarations : Declarations) (analyst : Analyst) (name : String) :
    if declarations.declares className selector then
      ∃ summary later,
        summarize analyst declarations ⟨some owner, writer⟩ ⟨name, arguments⟩ knowledge =
            .ok summary later ∧
          summary.WritesPart later.graph selector (slot + 1) (knowledge.graph.className? given)
    else ∃ failure,
      summarize analyst declarations ⟨some owner, writer⟩ ⟨name, arguments⟩ knowledge =
        .error failure knowledge := by
  obtain ⟨parameter, hslot, hfree⟩ := haccessors.exists_writer_callFree declarations (some owner)
  have hthis : (Definition.alone declarations ⟨some owner, writer⟩).this {}
      { slots := arguments } knowledge.graph = _ := Scope.this_start hhead hclass rfl {}
  have hname : ∀ operand, Frame.slotOperand { slots := arguments } knowledge.graph (slot + 1) =
      .ok operand → (Definition.alone declarations ⟨some owner, writer⟩).name {} parameter
        { slots := arguments } knowledge.graph =
          .ok (operand, { slots := arguments }) knowledge.graph := by
    intro operand hoperand
    unfold Scope.name
    rw [getFrame_bind_eq]
    dsimp only [OrderedMap.get?_empty]
    rw [hslot, harity]
    exact inspect_of_ok hoperand
  have hrun : ∀ operand, Frame.slotOperand { slots := arguments } knowledge.graph (slot + 1) =
      .ok operand →
        summarize analyst declarations ⟨some owner, writer⟩ ⟨name, arguments⟩ knowledge =
        match (Frame.write declarations {} (.path ⟨1, []⟩) selector operand >>=
            Frame.expressResult declarations writer.span)
          { slots := arguments } knowledge.graph with
        | .ok (result, frame) graph =>
          .ok ⟨⟨name, arguments⟩, result, frame.writes, frame.calls⟩ { knowledge with graph }
        | .error failure graph => .error failure { knowledge with graph } := by
    intro operand hoperand
    rw [hfree.summarize_eq]
    unfold Scope.writesOwn Scope.write
    rw [bind_assoc, run_bind_of_ok hthis, bind_assoc, run_bind_of_ok (hname operand hoperand)]
  obtain ⟨operand, told, hoperand, htells, hresolve, houtside, htyped, hrecord⟩ :=
    Frame.exists_slotOperand declarations {} selector hlast hhas
  split
  · rename_i hdeclares
    obtain ⟨later, grown, hwrite, hwrites⟩ := Frame.write_start hhead hclass hdeclares hresolve
      houtside htyped hrecord
    have hdrifts : RunDrifts (Frame.write declarations {} (.path ⟨1, []⟩) selector operand) :=
      inferInstance
    have hgrows := (hdrifts.run { slots := arguments }).grows knowledge.graph
    rw [hwrite] at hgrows
    rw [hrun operand hoperand, run_bind_of_ok hwrite]
    exact ⟨_, _, rfl, ⟨told, hwrites, htells.mono hgrows⟩, rfl⟩
  · rename_i hdeclares
    have hbase : Frame.resolve { slots := arguments } (.path ⟨1, []⟩) = .ok (.path ⟨1, []⟩) := rfl
    obtain ⟨failure, hfails⟩ := Frame.write_undeclared operand hbase
      (Frame.isOf_start hhead hclass) (Bool.eq_false_iff.mpr hdeclares)
    rw [hrun operand hoperand, run_bind_of_error hfails]
    exact ⟨failure, rfl⟩

end Accessors

end ShapeFlow
