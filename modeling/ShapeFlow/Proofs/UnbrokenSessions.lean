import ShapeFlow.Proofs.ReopenedClasses

/-!
# No reference leads nowhere

An analysis follows many references without asking: the slot from which a place starts, the object
with a number, the node of a type.  A frame is valid if all references that it holds are
(`Frame.Valid`), and so is every frame that a body passes (`Regime.Meets.valid`).  What is not
asked about is never missed: an analysis answers or rejects the program, in every session
(`Engine.session_unbroken`).

The same holds of the rebuilding of types.  A chain of selectors is rebuilt if, and only if, the
chain without its last selector leads to an object (`TypeGraph.bindAt?_eq_none_iff`); and where a
part is written, it does, as the class of the object has been asked for
(`Frame.Sound.exists_of_store`).
-/

namespace ShapeFlow

variable {graph grown : TypeGraph} {frame : Frame} {arguments : List TypeId} {operand : Operand}
  {declarations : Declarations} {span : Span}

/-! ## Valid frames -/

/-- The place starts from one of the slots. -/
def AccessPath.ValidIn (frame : Frame) (place : AccessPath) : Prop :=
  0 < place.root ∧ place.root ≤ frame.slots.length

/-- The type, the slot or the object that the operand names is there. -/
def Operand.ValidIn (graph : TypeGraph) (frame : Frame) : Operand → Prop
  | .type held => graph.Has held
  | .path place => place.ValidIn frame
  | .fresh id => id.index < frame.allocations.size

/-- The type or the slot that the value names is there. -/
def Value.ValidIn (graph : TypeGraph) (frame : Frame) : Value → Prop
  | .type held => graph.Has held
  | .path place => place.ValidIn frame

/-- All references that the frame and the types hold lead somewhere. -/
structure Frame.Valid (graph : TypeGraph) (frame : Frame) : Prop where
  types : graph.Closed
  slots : ∀ type ∈ frame.slots, graph.Has type
  locals : ∀ name operand, frame.locals.get? name = some operand → operand.ValidIn graph frame
  parts : ∀ (id : Nat) (object : Allocation) selector operand,
    frame.allocations[id]? = some object → object.fields.get? selector = some operand →
      operand.ValidIn graph frame
  homes : ∀ (id : Nat) (object : Allocation) home, frame.allocations[id]? = some object →
    object.home? = some home → home.ValidIn frame
  writes : ∀ write ∈ frame.writes, write.target.ValidIn frame ∧ write.value.ValidIn graph frame
  calls : ∀ call ∈ frame.calls,
    (∀ type ∈ call.signature.arguments, graph.Has type) ∧ call.value.ValidIn graph frame

/-- The frame is valid, and so is what is at hand. -/
structure Point.Valid (point : Point) : Prop where
  frame : point.frame.Valid point.graph
  operands : ∀ operand ∈ point.act.operands, operand.ValidIn point.graph point.frame
  value : ∀ value, point.act.value? = some value → value.ValidIn point.graph point.frame

namespace Frame.Sound

variable (hsound : frame.Sound graph arguments)

include hsound

theorem validPlace {place : AccessPath} (hrooted : place.RootedIn graph arguments) :
    place.ValidIn frame := by
  obtain ⟨slot, type, className, hroot, hslot, -⟩ := hrooted
  obtain ⟨hlt, -⟩ := List.getElem?_eq_some_iff.mp hslot
  rw [AccessPath.ValidIn, hroot, hsound.length_slots]
  exact ⟨Nat.succ_pos slot, hlt⟩

theorem validValue {value : Value} (hrooted : value.RootedIn graph arguments) :
    value.ValidIn graph frame := by
  cases value with
  | type type => exact hrooted
  | path place => exact hsound.validPlace hrooted

theorem validOperand (hrooted : operand.RootedIn graph arguments)
    (hexists : operand.ExistsIn frame) : operand.ValidIn graph frame := by
  cases operand with
  | type type => exact hrooted
  | path place => exact hsound.validPlace hrooted
  | fresh id =>
    obtain ⟨object, hobject⟩ := hexists id rfl
    exact (Array.getElem?_eq_some_iff.mp hobject).1

/-- A sound frame that is intact is valid. -/
theorem valid {shapes : Shapes} (hintact : frame.Intact shapes graph) : frame.Valid graph where
  types := hsound.wellFormed.closed
  slots := hsound.hasTypes.slots
  locals name operand hlocal :=
    hsound.validOperand (hsound.locals name operand hlocal) (hintact.locals name operand hlocal)
  parts id object selector operand hobject hpart :=
    hsound.validOperand ((hsound.objects id object hobject).parts selector operand hpart)
      ((hintact.objects id object hobject).parts selector operand hpart).2
  homes id object home hobject hhome :=
    hsound.validPlace ((hsound.objects id object hobject).home home hhome)
  writes write hmem :=
    ⟨hsound.validPlace (hsound.writes write hmem).target,
      hsound.validValue (hsound.writes write hmem).value⟩
  calls call hmem := ⟨hintact.calls call hmem, hsound.validValue (hsound.calls call hmem)⟩

end Frame.Sound

theorem Regime.Meets.valid {shapes : Shapes} {point : Point}
    (hmeets : shapes.regime.Meets arguments point) : point.Valid where
  frame := hmeets.stands.sound.valid hmeets.stands.frames
  operands operand hmem := hmeets.stands.sound.validOperand (hmeets.operands operand hmem).rooted
    (hmeets.operands operand hmem).fits
  value value hvalue := hmeets.stands.sound.validOperand (hmeets.value value hvalue).rooted
    (hmeets.value value hvalue).suits

/-! ## Types that are rebuilt -/

namespace TypeGraph

variable {type part : TypeId}

theorem exists_classAt?_of_bindAt? {chain : List Selector} {last : Selector}
    {result : TypeId × TypeGraph} (hbind : graph.bindAt? type (chain ++ [last]) part = some result) :
    ∃ className, graph.classAt? type chain = some className := by
  induction chain generalizing type result with
  | nil =>
    change graph.bindField? type last part = some result at hbind
    unfold bindField? at hbind
    split at hbind
    · rename_i className fields hnode
      exact ⟨className, className?_eq_some_iff.mpr ⟨fields, hnode⟩⟩
    · exact nomatch hbind
  | cons selector rest ih =>
    obtain ⟨inner, rebuilt, hinner, hrebuilt, -⟩ := exists_of_bindAt?_cons hbind
    obtain ⟨className, hclass⟩ := ih hrebuilt
    exact ⟨className, by rw [classAt?_cons, hinner (by simp), Option.bind_some, hclass]⟩

/-- A chain of selectors is rebuilt exactly if it leads to an object until its last selector. -/
theorem bindAt?_eq_none_iff (chain : List Selector) (last : Selector) :
    graph.bindAt? type (chain ++ [last]) part = none ↔ graph.classAt? type chain = none := by
  constructor
  · intro hbind
    by_contra hclass
    obtain ⟨className, hclass⟩ := Option.ne_none_iff_exists'.mp hclass
    obtain ⟨result, hresult⟩ := exists_of_classAt? hclass last part
    exact nomatch hbind.symm.trans hresult
  · intro hclass
    by_contra hbind
    obtain ⟨result, hresult⟩ := Option.ne_none_iff_exists'.mp hbind
    obtain ⟨className, hfound⟩ := exists_classAt?_of_bindAt? hresult
    exact nomatch hclass.symm.trans hfound

/-- What has a part is an object, and stays one while the part is rebuilt. -/
theorem exists_of_field? {selector : Selector} {inner : TypeId} {rebuilt : TypeId × TypeGraph}
    {selectors : List Selector} (hinner : graph.field? type selector = some inner)
    (hrebuilt : graph.bindAt? inner selectors part = some rebuilt) :
    ∃ result, rebuilt.2.bindField? type selector rebuilt.1 = some result := by
  obtain ⟨node, hnode, hheld⟩ := field?_eq_some_iff.mp hinner
  cases node with
  | scalar => simp [TypeNode.fields] at hheld
  | object className fields =>
    exact ⟨_, by rw [bindField?, (Grows.bindAt? hrebuilt).node? hnode]⟩

end TypeGraph

/-- The slot of a part that is about to be written can be rebuilt with the type of the value. -/
def Store.Rebuilds (declarations : Declarations) (span : Span) (store : Store) : Prop :=
  ∀ part typed, store.frame.typeOf declarations span store.value store.graph = .ok part typed →
    ∃ current result, store.frame.slotType store.target.root = .ok current ∧
      typed.bindAt? current store.target.selectors part = some result

/-- A base that passes the class check is one whose slot can be rebuilt. -/
theorem Frame.Sound.exists_of_store (hsound : frame.Sound graph arguments)
    {base value resolved : Operand} {selector : Selector} {className : String}
    (hvalue : value.RootedIn graph arguments) (hresolve : frame.resolve base = .ok resolved)
    (hclass : frame.classOf? declarations graph span resolved = .ok (some className)) :
    ∀ store ∈ Frame.stores declarations span base selector value frame graph,
      store.Rebuilds declarations span := by
  intro store hmem
  unfold Frame.stores at hmem
  split at hmem
  · rename_i place operand hplace hoperand
    split at hmem
    · rename_i moved vacated later hvacate
      obtain rfl := List.mem_singleton.mp hmem
      obtain rfl := Except.ok.inj (hresolve.symm.trans hplace)
      intro part typed htype
      have hrooted : operand.RootedIn graph arguments := by
        have hsafe := hsound.resolve hvalue
        rw [hoperand] at hsafe
        exact hsafe
      obtain ⟨hgrows, hsound', hmoved⟩ :=
        (Frame.vacate_keeps hsound (place.child selector) hrooted).of_eq_ok hvacate
      obtain ⟨hgrows', -⟩ := (Frame.typeOf_ends hsound' hmoved).of_eq_ok htype
      have hquiet : frame.Quiet vacated := RunsQuietly.run hvacate
      have hfound : frame.classAt? graph place = some className := Frame.isOf_of_classOf? hclass
      have hfound' : vacated.classAt? typed place = some className := by
        rw [Frame.classAt?_eq_of_grows hsound'.grounded hgrows',
          Frame.classAt?_eq_of_slots hquiet.slots,
          Frame.classAt?_eq_of_grows hsound.grounded hgrows, hfound]
      obtain ⟨current, hcurrent, hend⟩ := Frame.exists_slotType hfound'
      obtain ⟨result, hresult⟩ := TypeGraph.exists_of_classAt? hend selector part
      exact ⟨current, result, hcurrent, hresult⟩
    · exact nomatch hmem
  · exact nomatch hmem

/-! ## Sessions -/

/-- An analysis of a definition fails only by rejecting the program. -/
theorem Engine.Session.rejects {program : Program} {limit : Nat} {engine : Engine}
    {history : List Moment} (hsession : Engine.Session program limit engine history)
    {target : DefId} {arguments : List TypeId} {failure : Failure}
    (htarget : (engine.declarations.definition? target).isSome = true)
    (harguments : ∀ type ∈ arguments, engine.graph.Has type)
    (hfailed : (engine.analyze target arguments).1 = .error failure) : failure.Rejects := by
  have hfollows := hsession.follows
  rw [hfollows.declarations_eq] at htarget
  have hends := Regime.analyze_trusts (Shapes.admit_all (.ofProgram program)).rules engine.limit
    engine.limit htarget hfollows.knowledge harguments (TypeGraph.conforms_all _)
  rw [Engine.analyze, hfollows.declarations_eq] at hfailed
  cases hresult : ShapeFlow.analyze (.ofProgram program) engine.limit engine.limit target
    arguments engine.knowledge with
  | ok id later =>
    rw [hresult] at hfailed
    exact nomatch hfailed
  | error reason later =>
    rw [hresult] at hfailed hends
    obtain rfl := Except.error.inj hfailed
    exact hends.2.2

/-- Inference fails only by rejecting the program. -/
theorem exists_of_infer_eq_error {program : Program} {limit : Nat} {failure : Failure}
    (hinfer : infer program limit = .error failure) :
    ∃ diagnostic, failure = .rejected diagnostic := by
  obtain ⟨-, definition, hdefinition, -⟩ := Declarations.owned_ofProgram program
  have hfailed : ((Engine.ofProgram program limit).analyze (Declarations.ofProgram program).main
      []).1 = .error failure := by
    unfold infer at hinfer
    split at hinfer
    · exact nomatch hinfer
    · rename_i reason engine hmain
      obtain rfl := Except.error.inj hinfer
      exact congrArg Prod.fst hmain
  have hrejects := Engine.Session.start.rejects (Option.isSome_of_eq_some hdefinition)
    (List.forall_mem_nil _) hfailed
  cases failure with
  | rejected diagnostic => exact ⟨diagnostic, rfl⟩
  | broken reference => exact hrejects.elim

/-- In a session no analysis of a definition follows a reference that leads nowhere.  At all points
of all bodies what is held and what is at hand is valid, and where a part of an object is about to
be written, its slot can be rebuilt.  Rebuilding a chain fails only where the chain leads to no
object, and otherwise binds parts of objects alone. -/
theorem Engine.session_unbroken {program : Program} {limit : Nat} {engine : Engine}
    {history : List Moment} (hsession : Engine.Session program limit engine history) :
    (∀ target arguments, (engine.declarations.definition? target).isSome = true →
      (∀ type ∈ arguments, engine.graph.Has type) →
        ∀ reference, (engine.analyze target arguments).1 ≠ .error (.broken reference)) ∧
    (∀ moment ∈ history, ∀ task point, moment.Passes (.ofProgram program) limit task point →
      point.Valid ∧
        ∀ base selector value, point.act = .writes base selector value →
          ∀ span resolved className, point.frame.resolve base = .ok resolved →
            point.frame.classOf? (.ofProgram program) point.graph span resolved =
                .ok (some className) →
              ∀ store ∈ Frame.stores (.ofProgram program) span base selector value point.frame
                point.graph, store.Rebuilds (.ofProgram program) span) ∧
    (∀ (graph : TypeGraph) type part chain last,
      graph.bindAt? type (chain ++ [last]) part = none ↔ graph.classAt? type chain = none) ∧
    ∀ (graph : TypeGraph) type part selector selectors inner rebuilt,
      graph.field? type selector = some inner →
        graph.bindAt? inner selectors part = some rebuilt →
          ∃ result, rebuilt.2.bindField? type selector rebuilt.1 = some result := by
  have hrules := (Shapes.admit_all (.ofProgram program)).rules
  refine ⟨fun target arguments htarget harguments reference hbroken => ?_,
    fun moment hmem task point hpasses => ?_, fun _ _ _ => TypeGraph.bindAt?_eq_none_iff,
    fun _ _ _ _ _ _ _ => TypeGraph.exists_of_field?⟩
  · exact hsession.rejects htarget harguments hbroken
  · have hmeets := (Regime.session_holdsAt hrules TypeGraph.conforms_all hsession moment
      hmem).meets task point hpasses
    refine ⟨hmeets.valid, fun base selector value hact span resolved className hresolve hclass => ?_⟩
    exact hmeets.stands.sound.exists_of_store (hmeets.value value (by rw [hact]; rfl)).rooted
      hresolve hclass

/-- The analysis of the function for two objects. -/
def linkTask : Task := ⟨⟨2⟩, [⟨1⟩, ⟨1⟩]⟩

/-- When the function links the objects, they are there, and the slot of the first is rebuilt. -/
theorem linkEngine_unbroken : ∃ history moment point,
    Engine.Session linkProgram 4 linkEngine history ∧ moment ∈ history ∧
      moment.Passes (.ofProgram linkProgram) 4 linkTask point ∧ point.Valid ∧
        point.act = .writes (.path ⟨1, []⟩) (.field "@next") (.path ⟨2, []⟩) ∧
          ∃ store, Frame.stores (.ofProgram linkProgram) {} (.path ⟨1, []⟩) (.field "@next")
            (.path ⟨2, []⟩) point.frame point.graph = [store] ∧
              store.Rebuilds (.ofProgram linkProgram) {} := by
  have hsession : Engine.Session linkProgram 4 linkEngine _ :=
    .analyze linkStart _ linkTask (.build _ _ _ .start (.object (Engine.ofProgram linkProgram 4)
      "Node")) (by decide +kernel)
  let declarations : Declarations := .ofProgram linkProgram
  -- The first write of the body, as it is made.
  have hany : (linkTask.points declarations 4 3 linkStart.knowledge).any (fun point =>
      point.act = .writes (.path ⟨1, []⟩) (.field "@next") (.path ⟨2, []⟩) ∧
        point.frame.classOf? declarations point.graph {} (.path ⟨1, []⟩) = .ok (some "Node") ∧
          (Frame.stores declarations {} (.path ⟨1, []⟩) (.field "@next") (.path ⟨2, []⟩)
            point.frame point.graph).length = 1) = true := by
    decide +kernel
  obtain ⟨moment, hmem, point, hpasses, htested⟩ := Task.exists_passes [] hany
  rw [decide_eq_true_eq] at htested
  obtain ⟨hact, hclass, hlength⟩ := htested
  obtain ⟨store, hstore⟩ := List.length_eq_one_iff.mp hlength
  have hmoment := List.mem_append_right ([(Engine.ofProgram linkProgram 4).rest] ++
    [linkStart.rest]) hmem
  obtain ⟨hvalid, hrebuilds⟩ := (Engine.session_unbroken hsession).2.1 moment hmoment linkTask point
    hpasses
  exact ⟨_, moment, point, hsession, hmoment, hpasses, hvalid, hact, store, hstore,
    hrebuilds _ _ _ hact {} (.path ⟨1, []⟩) "Node" rfl hclass store
      (hstore ▸ List.mem_singleton_self store)⟩

end ShapeFlow
