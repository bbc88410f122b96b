import ShapeFlow.Proofs.CallRecords
import ShapeFlow.Proofs.HousedObjects
import ShapeFlow.Proofs.Inquiries

/-!
# Receivers

A method is looked up in the class of the receiver, and in the declarations of a program it is
owned by that class (`Declarations.owned_ofProgram`).  So a call reaches its owner if the receiver
still is an object of the class (`Frame.IsOf`) when the call is made, after the evaluation of its
arguments.

How the receiver is told decides what can become of it.  A type keeps its class, and so does an
allocated object.  An argument as a whole keeps the class that it had at the start, as only its
parts are written.  What stands at a part changes its class only by a write to that part or to one
that it lies within (`Frame.IsOf.kept`).  An object that got a home meanwhile is told by its home,
where an object of its class stands (`Frame.IsOf.resolve`).

That all calls recorded so far reached their owners is `Frame.AllReceive`, and `Receiving` says of
a step that it adds no other calls.
-/

namespace ShapeFlow

/-- What is of a class is of it in a grown graph. -/
theorem TypeGraph.Grows.bind_className? {graph grown : TypeGraph} (hgrows : graph.Grows grown)
    {type? : Option TypeId} {className : String}
    (hclass : type?.bind graph.className? = some className) :
    type?.bind grown.className? = some className := by
  obtain ⟨type, rfl, hclass⟩ := Option.bind_eq_some_iff.mp hclass
  exact (hgrows.className?_eq (has_of_className? hclass)).trans hclass

/-! ## Owners -/

theorem OrderedMap.mem_or_get?_of_insertAll {κ α : Type} [DecidableEq κ] {map : OrderedMap κ α}
    {entries : List (κ × α)} {key : κ} {value : α}
    (hvalue : (map.insertAll entries).get? key = some value) :
    (key, value) ∈ entries ∨ map.get? key = some value := by
  induction entries generalizing map with
  | nil => exact Or.inr hvalue
  | cons entry rest ih =>
    rcases ih hvalue with hmem | hinsert
    · exact Or.inl (List.mem_cons_of_mem _ hmem)
    · rw [OrderedMap.get?_insert] at hinsert
      split at hinsert
      · rename_i heq
        obtain rfl := Option.some.inj hinsert
        exact Or.inl (heq ▸ List.mem_cons_self)
      · exact Or.inr hinsert

namespace Declarations

/-- There is a definition with this number and this owner. -/
def Owns (declarations : Declarations) (owner? : Option String) (target : DefId) : Prop :=
  ∃ definition, declarations.definition? target = some definition ∧ definition.owner? = owner?

/-- The methods found in a class are owned by it, and functions by no class. -/
structure Owned (declarations : Declarations) : Prop where
  methods : ∀ className info name target, declarations.classes.get? className = some info →
    info.methods.get? name = some target → declarations.Owns (some className) target
  functions : ∀ name target, declarations.functions.get? name = some target →
    declarations.Owns none target

variable {declarations later : Declarations} {owner? : Option String}

/-- A definition has one owner. -/
theorem Owns.unique {other? : Option String} {target : DefId}
    (howns : declarations.Owns owner? target) (hother : declarations.Owns other? target) :
    owner? = other? := by
  obtain ⟨definition, hdefinition, rfl⟩ := howns
  obtain ⟨same, hsame, rfl⟩ := hother
  rw [Option.some.inj (hdefinition.symm.trans hsame)]

theorem Owned.of_method? (howned : declarations.Owned) {className name : String} {target : DefId}
    (hmethod : declarations.method? className name = some target) :
    declarations.Owns (some className) target := by
  obtain ⟨info, hinfo, hname⟩ := Option.bind_eq_some_iff.mp hmethod
  exact howned.methods className info name target hinfo hname

/-- Definitions that are added behind the others change none of them. -/
theorem Owns.of_append {target : DefId} (howns : declarations.Owns owner? target)
    {added : List Definition}
    (hlater : later.definitions.toList = declarations.definitions.toList ++ added) :
    later.Owns owner? target := by
  obtain ⟨definition, hdefinition, howner⟩ := howns
  refine ⟨definition, ?_, howner⟩
  rw [definition?, ← Array.getElem?_toList] at hdefinition ⊢
  rw [hlater, List.getElem?_append_left (List.getElem?_eq_some_iff.mp hdefinition).1]
  exact hdefinition

/-- The definitions that are added have the numbers behind the others. -/
theorem owns_of_numbered {decls : List MethodDecl} {name : String} {target : DefId}
    (hlater : later.definitions.toList = declarations.definitions.toList ++
      decls.map fun decl => ({ owner?, decl } : Definition))
    (hmem : (name, target) ∈ numbered declarations.definitions.size decls) :
    later.Owns owner? target := by
  obtain ⟨⟨decl, index⟩, hentry, heq⟩ := List.mem_map.mp hmem
  cases heq
  have hdecl := List.mem_zipIdx_iff_getElem?.mp hentry
  refine ⟨{ owner?, decl }, ?_, rfl⟩
  rw [definition?, ← Array.getElem?_toList, hlater, ← Array.length_toList,
    List.getElem?_append_right (Nat.le_add_right _ _)]
  simpa using hdecl

/-- Methods and functions that were owned are owned when definitions are added. -/
theorem Owned.addClass (howned : declarations.Owned) (decl : ClassDecl) :
    (declarations.addClass decl).Owned := by
  have hlater : (declarations.addClass decl).definitions.toList =
      declarations.definitions.toList ++ decl.methods.map fun method =>
        ({ owner? := some decl.name, decl := method } : Definition) := by
    simp [Declarations.addClass]
  refine ⟨fun className info name target hclass hmethod => ?_, fun name target hfunction =>
    (howned.functions name target hfunction).of_append hlater⟩
  simp only [Declarations.addClass, OrderedMap.get?_insert] at hclass
  split at hclass
  · rename_i heq
    subst heq
    obtain rfl := Option.some.inj hclass
    rcases OrderedMap.mem_or_get?_of_insertAll hmethod with hmem | hbefore
    · exact owns_of_numbered hlater hmem
    · cases hknown : declarations.class? decl.name with
      | none => simp [hknown] at hbefore
      | some known =>
        rw [hknown] at hbefore
        exact (howned.methods _ known name target hknown hbefore).of_append hlater
  · exact (howned.methods className info name target hclass hmethod).of_append hlater

theorem Owned.addFunctions (howned : declarations.Owned) (decls : List MethodDecl) :
    (declarations.addFunctions decls).Owned := by
  have hlater : (declarations.addFunctions decls).definitions.toList =
      declarations.definitions.toList ++ decls.map fun decl => ({ decl } : Definition) := by
    simp [Declarations.addFunctions]
  refine ⟨fun className info name target hclass hmethod =>
    (howned.methods className info name target hclass hmethod).of_append hlater,
    fun name target hfunction => ?_⟩
  rcases OrderedMap.mem_or_get?_of_insertAll hfunction with hmem | hbefore
  · exact owns_of_numbered hlater hmem
  · exact (howned.functions name target hbefore).of_append hlater

/-- The main body is added behind all definitions, and owned by no class. -/
theorem Owned.addMain (howned : declarations.Owned) (program : Program) :
    (declarations.addMain program).Owned ∧
      (declarations.addMain program).Owns none (declarations.addMain program).main := by
  have hlater : (declarations.addMain program).definitions.toList =
      declarations.definitions.toList ++
        [{ decl := { name := mainName, body := program.main, span := program.mainSpan } }] := by
    simp [Declarations.addMain]
  exact ⟨⟨fun className info name target hclass hmethod =>
      (howned.methods className info name target hclass hmethod).of_append hlater,
    fun name target hfunction => (howned.functions name target hfunction).of_append hlater⟩,
    _, Array.getElem?_push_size, rfl⟩

/-- In the declarations of a program every method is owned by the class in which it is found, and
the main body by none. -/
theorem owned_ofProgram (program : Program) :
    (ofProgram program).Owned ∧ (ofProgram program).Owns none (ofProgram program).main := by
  have hclasses : ∀ (decls : List ClassDecl) (declarations : Declarations), declarations.Owned →
      (decls.foldl Declarations.addClass declarations).Owned := by
    intro decls
    induction decls with
    | nil => exact fun _ howned => howned
    | cons decl rest ih => exact fun _ howned => ih _ (howned.addClass decl)
  have hempty : ({} : Declarations).Owned := ⟨nofun, nofun⟩
  exact ((hclasses _ _ hempty).addFunctions program.functions).addMain program

end Declarations

/-! ## The class of an operand -/

namespace Frame

variable {frame later : Frame} {graph grown : TypeGraph} {arguments : List TypeId}
  {declarations : Declarations} {span : Span} {operand : Operand} {className : String}
  {stores : List Store}

/-- The operand stands for an object of the class. -/
def IsOf (frame : Frame) (graph : TypeGraph) (className : String) : Operand → Prop
  | .type type => graph.className? type = some className
  | .path place => frame.classAt? graph place = some className
  | .fresh id => ∃ object, frame.allocations[id.index]? = some object ∧
    object.className = className

/-- The class by which a message is dispatched is that of the receiver. -/
theorem isOf_of_classOf? (hclass : frame.classOf? declarations graph span operand =
    .ok (some className)) : frame.IsOf graph className operand := by
  have hnode : ∀ type : TypeId, (do pure (← graph.node type).className? : Checked _) =
      .ok (some className) → graph.className? type = some className := by
    intro type hnode
    unfold TypeGraph.node at hnode
    cases hheld : graph.node? type with
    | none => simp [hheld, found, bind, Except.bind] at hnode
    | some node =>
      simp only [hheld, found, bind, Except.bind, pure, Except.pure, Except.ok.injEq] at hnode
      simp [TypeGraph.className?, hheld, hnode]
  cases operand with
  | type type => exact hnode type hclass
  | path place =>
    cases hplace : frame.placeType declarations graph span place with
    | error failure => simp [classOf?, hplace, bind, Except.bind] at hclass
    | ok type =>
      have hclass' : (do pure (← graph.node type).className? : Checked _) =
          .ok (some className) := by
        simpa [classOf?, hplace, bind, Except.bind] using hclass
      simp only [IsOf, classAt?, placeType_eq_ok_iff.mp hplace, Option.bind_some,
        hnode type hclass']
  | fresh id =>
    unfold classOf? allocation at hclass
    cases hheld : frame.allocations[id.index]? with
    | none => simp [hheld, found, bind, Except.bind] at hclass
    | some object =>
      simp only [hheld, found, bind, Except.bind, pure, Except.pure, Except.ok.injEq,
        Option.some.injEq] at hclass
      exact ⟨object, hheld, hclass⟩

/-- An object is asked for its class. -/
theorem classOf?_of_isOf (hisOf : frame.IsOf graph className operand) :
    frame.classOf? declarations graph span operand = .ok (some className) := by
  have hnode : ∀ type : TypeId, graph.className? type = some className →
      (do pure (← graph.node type).className? : Checked _) = .ok (some className) := by
    intro type hclass
    obtain ⟨fields, hnode⟩ := TypeGraph.className?_eq_some_iff.mp hclass
    rw [TypeGraph.node, hnode]
    rfl
  cases operand with
  | type type => exact hnode type hisOf
  | path place =>
    obtain ⟨type, htype, hclass⟩ := Option.bind_eq_some_iff.mp hisOf
    have hplace : frame.placeType declarations graph span place = .ok type :=
      placeType_eq_ok_iff.mpr htype
    simp only [classOf?, hplace]
    exact hnode type hclass
  | fresh id =>
    obtain ⟨object, hobject, rfl⟩ := hisOf
    simp only [classOf?, allocation, hobject]
    rfl

/-- No write goes to a place that the place of the operand lies within.  The place of an argument as
a whole is not asked about, as only its parts are written. -/
def Spares (operand : Operand) (stores : List Store) : Prop :=
  ∀ place, operand = .path place → place.selectors ≠ [] →
    ∀ store ∈ stores, place.liesWithin store.target = false

/-- An argument as a whole has the class that it had at the start. -/
theorem Sound.classAt?_slot (hsound : frame.Sound graph arguments) (slot : Nat) :
    frame.classAt? graph ⟨slot + 1, []⟩ = arguments[slot]?.bind graph.className? := by
  cases hheld : frame.slots[slot]? with
  | none =>
    have hnone : arguments[slot]? = none := by
      rw [List.getElem?_eq_none_iff] at hheld ⊢
      rwa [← hsound.length_slots]
    simp [classAt?, placeType?, hheld, hnone]
  | some held =>
    simp only [classAt?, placeType?, hheld, Option.bind_some, TypeGraph.follow?_nil]
    exact (hsound.slots slot held hheld).2

/-- A slot that is not a number is told by its place. -/
theorem slotOperand_eq_ok {slot : Nat} (hslot : frame.slotOperand graph slot = .ok operand) :
    ∃ type, frame.slotType slot = .ok type ∧ (operand = .path ⟨slot, []⟩ ∨
      graph.node? type = some .scalar ∧ operand = .type type) := by
  cases htype : frame.slotType slot with
  | error failure => simp [slotOperand, htype, bind, Except.bind] at hslot
  | ok type =>
    cases hnode : graph.node? type with
    | none => simp [slotOperand, htype, TypeGraph.node, hnode, found, bind, Except.bind] at hslot
    | some node =>
      simp only [slotOperand, htype, TypeGraph.node, hnode, found, bind, Except.bind] at hslot
      cases node with
      | scalar =>
        cases hslot
        exact ⟨type, rfl, Or.inr ⟨hnode, rfl⟩⟩
      | object className fields =>
        cases hslot
        exact ⟨type, rfl, Or.inl rfl⟩

/-- Where its place is spared, the operand keeps its class. -/
theorem IsOf.kept (hisOf : frame.IsOf graph className operand)
    (hsound : frame.Sound graph arguments) (hlater : later.Sound grown arguments)
    (hgrows : graph.Grows grown) (hkeeps : KeepsClasses stores frame graph later grown)
    (hspares : Spares operand stores) : later.IsOf grown className operand := by
  cases operand with
  | type type => exact (hgrows.className?_eq (TypeGraph.has_of_className? hisOf)).trans hisOf
  | path place =>
    change frame.classAt? graph place = some className at hisOf
    change later.classAt? grown place = some className
    by_cases hwhole : place.selectors = []
    · obtain ⟨root, selectors⟩ := place
      obtain rfl : selectors = [] := hwhole
      cases root with
      | zero => exact nomatch hisOf
      | succ slot =>
        rw [hsound.classAt?_slot] at hisOf
        rw [hlater.classAt?_slot]
        exact hgrows.bind_className? hisOf
    · rw [hkeeps.places place (hspares place rfl hwhole), hisOf]
  | fresh id =>
    obtain ⟨object, hobject, hclass⟩ := hisOf
    obtain ⟨after, hafter, hclass'⟩ := hkeeps.objects id.index object hobject
    exact ⟨after, hafter, hclass'.trans hclass⟩

/-- An object that is told by its home has the class that it was made with. -/
theorem IsOf.resolve (hisOf : frame.IsOf graph className operand) (hhoused : frame.Housed graph)
    {resolved : Operand} (hresolve : frame.resolve operand = .ok resolved) :
    frame.IsOf graph className resolved := by
  cases operand with
  | type type => cases hresolve; exact hisOf
  | path place => cases hresolve; exact hisOf
  | fresh id =>
    obtain ⟨object, hobject, hclass⟩ := hisOf
    obtain ⟨held, hheld, rfl⟩ := resolve_fresh_eq_ok_iff.mp hresolve
    obtain rfl := Option.some.inj (hobject.symm.trans hheld)
    cases hhome : object.home? with
    | none => exact ⟨object, hobject, hclass⟩
    | some home => exact (hhoused id.index object home hobject hhome).trans (congrArg some hclass)

/-- The type that shows an object has its class. -/
theorem IsOf.className?_eq (hisOf : frame.IsOf graph className operand)
    (hsound : frame.Sound graph arguments) (hgrows : graph.Grows grown)
    (hsettled : frame.Settled operand) {type : TypeId}
    (hshows : frame.Shows grown operand type) : grown.className? type = some className := by
  cases operand with
  | type held =>
    calc grown.className? type
      _ = grown.className? held := (hshows.of_foundType? rfl).className?_eq.symm
      _ = graph.className? held := hgrows.className?_eq (TypeGraph.has_of_className? hisOf)
      _ = some className := hisOf
  | path place =>
    obtain ⟨found, hfound, hsame⟩ := hshows.exists_found rfl
    calc grown.className? type = grown.className? found := hsame.className?_eq.symm
      _ = frame.classAt? grown place := by
        rw [classAt?, show frame.placeType? grown place = some found from hfound]
        rfl
      _ = frame.classAt? graph place := classAt?_eq_of_grows hsound.grounded hgrows place
      _ = some className := hisOf
  | fresh id =>
    obtain ⟨object, hobject, rfl⟩ := hisOf
    obtain ⟨held, hheld, hhome⟩ := settled_fresh_iff.mp hsettled
    obtain rfl := Option.some.inj (hobject.symm.trans hheld)
    exact hshows.className?_eq (localObject?_fresh_iff.mpr ⟨hobject, hhome⟩)

end Frame

/-! ## Calls that reach their owners -/

/-- The types of the arguments begin with the class that owns the definition, if it is a method. -/
def Declarations.Receives (declarations : Declarations) (graph : TypeGraph) (target : DefId)
    (types : List TypeId) : Prop :=
  ∀ className, declarations.Owns (some className) target →
    types.head?.bind graph.className? = some className

theorem Declarations.Receives.mono {declarations : Declarations} {graph grown : TypeGraph}
    {target : DefId} {types : List TypeId} (hreceives : declarations.Receives graph target types)
    (hgrows : graph.Grows grown) : declarations.Receives grown target types :=
  fun className howns => hgrows.bind_className? (hreceives className howns)

variable {declarations : Declarations} {knowledge later final : Knowledge} {α β ι : Type}

/-- All calls in the summaries and all entries of the memos begin with receivers of the classes
that own the definitions. -/
structure Knowledge.AllReceive (declarations : Declarations) (knowledge : Knowledge) : Prop where
  calls : ∀ (id : Nat) (summary : Summary), knowledge.summaries[id]? = some summary →
    ∀ call ∈ summary.calls,
      declarations.Receives knowledge.graph call.target call.signature.arguments
  entries : ∀ target entry, knowledge.HasEntry target entry →
    declarations.Receives knowledge.graph target entry.arguments

theorem Knowledge.AllReceive.extends (hall : knowledge.AllReceive declarations)
    (hextends : knowledge.Extends later) : later.AllReceive declarations := by
  obtain ⟨graph, hgrows, rfl⟩ := hextends
  exact ⟨fun id summary hsummary call hmem =>
      (hall.calls id summary hsummary call hmem).mono hgrows,
    fun target entry hentry => (hall.entries target entry hentry).mono hgrows⟩

/-- All calls recorded so far, here and in the summaries, have receivers of the owners. -/
structure Frame.AllReceive (declarations : Declarations) (frame : Frame) (knowledge : Knowledge) :
    Prop where
  calls : ∀ call ∈ frame.calls,
    declarations.Receives knowledge.graph call.target call.signature.arguments
  known : knowledge.AllReceive declarations

/-- Where the step succeeds, it records no call and adds only types to what is known. -/
class Aside (step : Body α) : Prop where
  run : ∀ {frame : Frame} {knowledge : Knowledge} {value : α} {changed : Frame} {later : Knowledge},
    step frame knowledge = .ok (value, changed) later →
      changed.calls = frame.calls ∧ knowledge.Extends later

namespace Aside

instance framed (step : Framed α) [hstep : KeepsCalls step] [hdrifts : RunDrifts step] :
    Aside (liftM step : Body α) where
  run {frame knowledge value changed later} hrun := by
    obtain ⟨graph, hresult, rfl⟩ := exists_of_framed hrun
    have hgrows := (hdrifts.run frame).grows knowledge.graph
    rw [hresult] at hgrows
    exact ⟨hstep.run hresult, graph, hgrows, rfl⟩

instance checked (step : Checked α) : Aside (liftM step : Body α) :=
  inferInstanceAs (Aside (liftM (liftM step : Framed α) : Body α))

instance pure (value : α) : Aside (Pure.pure value : Body α) where
  run hrun := by
    cases hrun
    exact ⟨rfl, .refl _⟩

instance get : Aside (getThe Knowledge : Body Knowledge) where
  run hrun := by
    cases hrun
    exact ⟨rfl, .refl _⟩

instance setLocal (name : String) (operand : Operand) :
    Aside (modifyThe Frame (Frame.setLocal name operand) : Body PUnit) where
  run hrun := by
    cases hrun
    exact ⟨rfl, .refl _⟩

instance allocate (object : Allocation) :
    Aside (modifyGetThe Frame (Frame.allocate object) : Body AllocId) where
  run hrun := by
    cases hrun
    exact ⟨rfl, .refl _⟩

instance reject (cause : Cause) : Aside (ShapeFlow.reject cause : Body α) where
  run hrun := nomatch hrun

instance bind (step : Body α) (next : α → Body β) [hstep : Aside step]
    [hnext : ∀ value, Aside (next value)] : Aside (step >>= next) where
  run hrun := by
    obtain ⟨value, changed, between, hfirst, hlast⟩ := exists_of_run_bind hrun
    obtain ⟨hcalls, hextends⟩ := hstep.run hfirst
    obtain ⟨hcalls', hextends'⟩ := (hnext value).run hlast
    exact ⟨hcalls'.trans hcalls, hextends.trans hextends'⟩

instance mapM (step : ι → Body α) [hstep : ∀ item, Aside (step item)] (items : List ι) :
    Aside (items.mapM step) := by
  induction items with
  | nil => exact pure []
  | cons item rest ih =>
    rw [List.mapM_cons]
    infer_instance

theorem expandResult (result : Value) : Aside (liftM (match result with
    | .type type => reading fun graph => Frame.expand? graph type
    | .path _ => Pure.pure none : Framed (Option AllocId)) : Body (Option AllocId)) := by
  cases result <;> infer_instance

end Aside

/-- Where the step succeeds, what is known stays known; and if it is still known in the end, all
calls have receivers of the owners if they had them before. -/
def Receiving (declarations : Declarations) (final : Knowledge) (step : Body α) (frame : Frame)
    (knowledge : Knowledge) : Prop :=
  ∀ value changed later, step frame knowledge = .ok (value, changed) later →
    knowledge.Grows later ∧ (later.Grows final → frame.AllReceive declarations knowledge →
      changed.AllReceive declarations later)

namespace Receiving

variable {step : Body α} {next : α → Body β} {frame : Frame}

theorem aside [hstep : Aside step] : Receiving declarations final step frame knowledge := by
  intro value changed later hrun
  obtain ⟨hcalls, hextends⟩ := hstep.run hrun
  refine ⟨hextends.grows, fun _ hall => ⟨fun call hmem => ?_, hall.known.extends hextends⟩⟩
  rw [hcalls] at hmem
  exact (hall.calls call hmem).mono hextends.grows.graph

theorem bind (hstep : Receiving declarations final step frame knowledge)
    (hnext : ∀ value changed later, step frame knowledge = .ok (value, changed) later →
      Receiving declarations final (next value) changed later) :
    Receiving declarations final (step >>= next) frame knowledge := by
  intro value changed later hrun
  obtain ⟨middle, changed', between, hfirst, hlast⟩ := exists_of_run_bind hrun
  obtain ⟨hgrows, hreceives⟩ := hstep middle changed' between hfirst
  obtain ⟨hgrows', hreceives'⟩ := hnext middle changed' between hfirst value changed later hlast
  exact ⟨hgrows.trans hgrows', fun hfinal hall =>
    hreceives' hfinal (hreceives (hgrows'.trans hfinal) hall)⟩

end Receiving

/-- Asked for argument types that begin with a receiver of the owner, the analyst keeps to
such calls, if its answer is still known in the end. -/
structure Analyst.Receives (declarations : Declarations) (final : Knowledge) (analyst : Analyst) :
    Prop where
  sound : analyst.Sound declarations
  receives : ∀ target types knowledge id later, knowledge.Sound declarations →
    (∀ type ∈ types, knowledge.graph.Has type) →
      declarations.Receives knowledge.graph target types → knowledge.AllReceive declarations →
        analyst target types knowledge = .ok id later → later.Grows final →
          later.AllReceive declarations

/-! ### The types of the arguments -/

section Arguments

variable {frame changed : Frame} {arguments : List TypeId} {span : Span}

/-- Telling the arguments by their homes changes nothing. -/
theorem mapM_resolve_eq_ok (hframe : frame.Sound knowledge.graph arguments)
    {operands resolved : List Operand}
    (hrooted : ∀ operand ∈ operands, operand.RootedIn knowledge.graph arguments)
    (hrun : (operands.mapM fun operand => (inspect fun _ frame => frame.resolve operand :
      Framed Operand) : Body (List Operand)) frame knowledge = .ok (resolved, changed) later) :
    changed = frame ∧ later = knowledge ∧
      (∀ told ∈ resolved, told.RootedIn knowledge.graph arguments) ∧
        ∀ receiver, operands.head? = some receiver →
          ∃ told, resolved.head? = some told ∧ frame.resolve receiver = .ok told := by
  induction operands generalizing resolved changed later with
  | nil =>
    cases hrun
    exact ⟨rfl, rfl, nofun, nofun⟩
  | cons operand rest ih =>
    obtain ⟨hoperand, hothers⟩ := List.forall_mem_cons.mp hrooted
    rw [List.mapM_cons] at hrun
    obtain ⟨told, _, _, hfirst, hrun⟩ := exists_of_run_bind hrun
    obtain ⟨graph, hinspect, rfl⟩ := exists_of_framed hfirst
    obtain ⟨hresolve, rfl, rfl⟩ := inspect_eq_ok_iff.mp hinspect
    have htold : told.RootedIn knowledge.graph arguments := by
      have hsafe := hframe.resolve hoperand
      rwa [hresolve] at hsafe
    obtain ⟨others, _, _, hrest, hpure⟩ := exists_of_run_bind hrun
    obtain ⟨rfl, rfl, hrooted', -⟩ := ih hothers hrest
    cases hpure
    refine ⟨rfl, rfl, List.forall_mem_cons.mpr ⟨htold, hrooted'⟩, fun receiver hhead => ?_⟩
    obtain rfl := Option.some.inj hhead
    exact ⟨told, rfl, hresolve⟩

/-- The type of an operand has its class. -/
theorem className?_of_currentType (hframe : frame.Sound knowledge.graph arguments)
    {operand : Operand} (hrooted : operand.RootedIn knowledge.graph arguments)
    (hsettled : frame.Settled operand) {className : String}
    (hisOf : frame.IsOf knowledge.graph className operand) {type : TypeId}
    (hrun : (liftM (Frame.currentType declarations span operand) : Body TypeId) frame knowledge =
      .ok (type, changed) later) : later.graph.className? type = some className := by
  obtain ⟨graph, hcurrent, rfl⟩ := exists_of_framed hrun
  obtain ⟨_, _, _, hframe', htype⟩ := exists_of_run_bind hcurrent
  cases hframe'
  obtain ⟨hgrows, -, -, hshows⟩ :=
    (Discipline.Ends.lift (Frame.typeOf_shows hframe hsettled hrooted)).of_eq_ok htype
  exact hisOf.className?_eq hframe hgrows hsettled hshows

end Arguments

end ShapeFlow
