import ShapeFlow.Proofs.AccessorAnalyses
import ShapeFlow.Proofs.BlurredFrames
import ShapeFlow.Proofs.WrittenParts

/-!
# Messages that are answered by accessors

To read or write a part of an object, a body may say so, or it may send the object a message that is
answered by an accessor of the part.  The message takes the long way: types are built for the
operands, a summary is looked up or made, and what it says is repeated.  It comes to the same, at
all points of all bodies but that of the accessor itself (`Engine.session_accesses`).

That the question of the call is answered as the body of the accessor ends, is known already; so is
where the receiver has the part, since the type that is built for it has the same unfolding.  The
summary of a reader is repeated by reading the part (`Frame.Calling.agrees_of_readsPart`), and that
of a writer by writing it and reading it back (`Frame.Calling.agrees_of_writesPart`).  The graph has
grown in the meantime, so the write is compared with one in another graph
(`Frame.Sound.write_concurs`); and a primitive value is told by another type than the one at hand,
with the same unfolding.
-/

namespace ShapeFlow

open TypeGraph (SameUnfolding)

variable {declarations : Declarations} {definition : Definition} {span : Span}
  {arguments : List TypeId} {frame later called : Frame} {graph grown left right : TypeGraph}
  {operand other receiver base : Operand} {knowledge learned : Knowledge} {selector : Selector}
  {reader writer : MethodDecl} {className owner : String} {target : DefId} {limit room : Nat}

/-! ## Coming to the same -/

/-- The failures have the same cause, wherever it lies in the source text. -/
def Failure.SameCause : Failure → Failure → Prop
  | .rejected first, .rejected second => first.rootCause.blur = second.rootCause.blur
  | _, _ => False

/-- A step on the frame and a call have come to the same: but for the names of types, the frames are
the same and so are the operands.  The call has left a record of itself. -/
structure Frame.Meet (declarations : Declarations) (frame : Frame) (knowledge : Knowledge)
    (target : DefId) (result : Operand × Frame) (grown : TypeGraph) (answer : Operand × Frame)
    (learned : Knowledge) : Prop where
  frames : result.2.Twin grown learned.graph answer.2
  operands : result.2.Alike grown learned.graph result.1 answer.1
  calls : result.2.calls = frame.calls
  record : ∃ record, record.target = target ∧ answer.2.calls = frame.calls ++ [record]
  grows : knowledge.graph.Grows grown
  learns : knowledge.Learns declarations learned

/-- A step on the frame and a call have both come to the same, or they have both failed. -/
def Frame.Agrees (declarations : Declarations) (frame : Frame) (knowledge : Knowledge)
    (target : DefId) (alike : Failure → Failure → Prop) :
    EStateM.Result Failure TypeGraph (Operand × Frame) →
      EStateM.Result Failure Knowledge (Operand × Frame) → Prop
  | .ok result grown, .ok answer learned =>
    frame.Meet declarations knowledge target result grown answer learned
  | .error failure _, .error failure' _ => alike failure failure'
  | .ok _ _, .error _ _ | .error _ _, .ok _ _ => False

theorem Frame.Agrees.exists_of_ok {alike : Failure → Failure → Prop}
    {step : EStateM.Result Failure TypeGraph (Operand × Frame)}
    {calls : EStateM.Result Failure Knowledge (Operand × Frame)} {result : Operand × Frame}
    (hagrees : frame.Agrees declarations knowledge target alike step calls)
    (hstep : step = .ok result grown) :
    ∃ answer learned, calls = .ok answer learned ∧
      frame.Meet declarations knowledge target result grown answer learned := by
  subst hstep
  cases calls with
  | ok answer learned => exact ⟨answer, learned, rfl, hagrees⟩
  | error failure learned => exact hagrees.elim

/-- When a call has repeated a summary, its value is told and the call is recorded. -/
theorem Frame.Agrees.of_replay {binding : Binding} {id : SummaryId} {summary : Summary}
    {alike : Failure → Failure → Prop}
    (hreplay : binding.replay summary frame learned.graph = .ok (other, called) right)
    (hknown : called.Known right other) (htwin : later.Twin left right called)
    (halike : later.Alike left right operand other) (hlater : later.calls = frame.calls)
    (hcalled : called.calls = frame.calls) (hgrows : knowledge.graph.Grows left)
    (hgrown : learned.graph.Grows right) (hlearns : knowledge.Learns declarations learned) :
    frame.Agrees declarations knowledge target alike (.ok (operand, later) left)
      ((liftM (binding.conclude target id summary) : Body Operand) frame learned) := by
  obtain ⟨record, final, htarget, hfinal, hwell, hrun⟩ :=
    Binding.conclude_of_replay target id hreplay hknown htwin.wellRight htwin.symm.hasTypes
  rw [framed_of_ok hrun]
  have hgrowBoth : left.GrowBoth right left final := ⟨.refl left, hfinal⟩
  have hrecorded : later.Twin left final (called.recordCall record) :=
    { htwin.grow hgrowBoth htwin.wellLeft hwell with }
  exact ⟨hrecorded, halike.grow hfinal, hlater, ⟨record, htarget, congrArg (· ++ [record]) hcalled⟩,
    hgrows, hlearns.trans ((Knowledge.Grows.of_graph (hgrown.trans hfinal)).learns rfl)⟩

/-! ## Reading -/

namespace Frame

/-- What has the same home is read alike. -/
theorem read_eq_of_resolve (hresolve : frame.resolve receiver = .ok base)
    (hsettled : frame.Settled base) : read declarations span graph receiver selector frame =
      read declarations span graph base selector frame := by
  unfold read
  rw [Checked.run_get, Checked.run_get, Checked.run_lift_of_ok hresolve,
    Checked.run_lift_of_ok hsettled]

/-- Only to answer an object a read changes the frame. -/
theorem read_keeps_frame (base : Operand) (selector : Selector) (frame : Frame) :
    Checked.Safe (fun _ => True) (read declarations span graph base selector frame) fun result =>
      (∀ id, result.1 ≠ .fresh id) → result.2 = frame := by
  have hsame : ∀ operand : Operand, (∀ id, operand ≠ .fresh id) → frame = frame := fun _ _ => rfl
  unfold read
  refine Checked.Safe.get_bind (Checked.Safe.lift_bind (Checked.safe_true fun _ => trivial)
    fun resolved _ => ?_)
  cases resolved with
  | path place =>
    refine Checked.Safe.lift_bind (Checked.safe_true fun _ => trivial) fun _ _ => ?_
    refine Checked.Safe.lift_bind (Checked.safe_true fun _ => trivial) fun part _ => ?_
    refine Checked.Safe.lift_bind (Checked.safe_true fun _ => trivial) fun node _ => ?_
    cases node <;> exact hsame _
  | type object =>
    exact Checked.Safe.lift_bind (Checked.safe_true fun _ => trivial) fun part _ => hsame _
  | fresh id =>
    refine Checked.Safe.lift_bind (Checked.safe_true fun _ => trivial) fun object _ => ?_
    cases object.fields.get? selector with
    | none => trivial
    | some held =>
      have htold : Checked.Safe (fun _ => True)
          ((liftM (frame.resolve held) : StateT Frame Checked Operand) frame) fun result =>
          (∀ id, result.1 ≠ .fresh id) → result.2 = frame :=
        (Checked.Safe.lift (Checked.safe_true fun _ => trivial)).mono fun _ hpost _ => hpost.1.symm
      cases held with
      | path place => exact htold
      | fresh child => exact htold
      | type part =>
        refine (expand?_allocates part frame).run_bind fun child? allocated hallocated => ?_
        cases child? with
        | none =>
          rcases hallocated with hsame | ⟨className, types, hnew⟩
          · exact fun _ => (Prod.mk.inj hsame).2
          · exact nomatch (Prod.mk.inj hnew).1
        | some child =>
          exact (Checked.safe_true fun _ => trivial).run_bind fun _ _ _ hnot =>
            absurd rfl (hnot child)

/-- A primitive value is read without a trace. -/
theorem Reaches.of_primitive {reading : StateT Frame Checked Operand}
    {ends : List Selector → Option (Option String)}
    (hreaches : frame.Reaches graph reading ends operand later) (hend : ends [] = some none)
    (hread : read declarations span graph base selector frame = .ok (operand, later)) :
    later = frame ∧ (∀ type, operand = .type type → graph.node? type = some .scalar) ∧
      (∀ place, operand = .path place →
        ∃ type, frame.placeType? graph place = some type ∧ graph.node? type = some .scalar) ∧
      ∀ id, operand ≠ .fresh id := by
  have hcomplete := hreaches.promotes.complete
  have hclass := (hreaches.ends []).trans hend
  have hnot : ∀ id, operand ≠ .fresh id := by
    rintro id rfl
    have hsettled := ((read_settled base selector frame).of_eq_ok hread).2
    obtain ⟨object, hobject, hhome⟩ := settled_fresh_iff.mp hsettled
    rw [endOf?_nil_of_local (localObject?_fresh_iff.mpr ⟨hobject, hhome⟩)] at hclass
    exact nomatch hclass
  obtain rfl := ((read_keeps_frame base selector frame).of_eq_ok hread) hnot
  refine ⟨rfl, ?_, ?_, hnot⟩
  · rintro type rfl
    rw [endOf?_type, TypeGraph.endAt?_nil, Option.some.injEq] at hclass
    exact TypeGraph.node?_of_className?_eq_none hreaches.names hclass
  · rintro place rfl
    rw [endOf?_path] at hclass
    obtain ⟨type, htype, hnone⟩ := Option.bind_eq_some_iff.mp hclass
    have hhas := has_placeType? hcomplete.wellFormed.closed hcomplete.hasTypes htype
    exact ⟨type, htype, TypeGraph.node?_of_className?_eq_none hhas (Option.some.inj hnone)⟩

end Frame

/-! ## Calls of accessors -/

theorem Value.Tells.found {value : Value} {place : AccessPath} {class? : Option String}
    (htells : value.Tells graph place class?) : value.Found graph := by
  rintro type rfl
  cases class? with
  | some className => exact nomatch htells
  | none =>
    obtain ⟨found, heq, hnode⟩ := htells
    cases heq
    exact hnode

/-- Where a method can be called that is not running: what is known is sound and explained, and so
is the frame. -/
structure Frame.Calling (declarations : Declarations) (arguments : List TypeId) (frame : Frame)
    (knowledge : Knowledge) (target : DefId) : Prop where
  known : knowledge.Sound declarations
  explained : knowledge.Explained declarations
  idle : ∀ types, ¬ knowledge.Runs ⟨target, types⟩
  sound : frame.Sound knowledge.graph arguments
  housed : frame.Housed knowledge.graph
  complete : frame.Complete knowledge.graph

/-- An argument of a call is bound, and it is an object with a type. -/
structure Frame.Receives (arguments : List TypeId) (frame : Frame) (graph : TypeGraph)
    (className : String) (receiver base : Operand) (type : TypeId) (grown : TypeGraph) : Prop where
  resolves : frame.resolve receiver = .ok base
  bound : frame.Bound graph base
  isOf : frame.IsOf graph className base
  rooted : base.RootedIn graph arguments
  class?_eq : grown.className? type = some className
  ends : ∀ chain, grown.endAt? type chain = frame.endOf? graph base chain

/-- The question that a call asks, and what is known when it is asked. -/
structure Frame.Poses (declarations : Declarations) (frame : Frame) (knowledge : Knowledge)
    (target : DefId) (operands bound : List Operand) (types : List TypeId) (asked : Knowledge) :
    Prop where
  prepares : frame.Prepares knowledge.graph operands bound types asked.graph
  sound : asked.Sound declarations
  explained : asked.Explained declarations
  learns : knowledge.Learns declarations asked
  idle : ∀ types, ¬ asked.Runs ⟨target, types⟩

namespace Frame.Calling

variable (hcalling : frame.Calling declarations arguments knowledge target)

include hcalling

theorem ends_eq (hgrows : knowledge.graph.Grows grown) {type : TypeId}
    (hbound : frame.Bound knowledge.graph base) (htyped : frame.TypedAs grown base type)
    (chain : List Selector) : grown.endAt? type chain = frame.endOf? knowledge.graph base chain :=
  (htyped.ends chain).trans (endOf?_eq_of_grows hgrows hcalling.complete.wellFormed.closed
    hcalling.complete.hasTypes (fun _ heq => hbound.names.has heq) chain)

theorem receives {operands bound : List Operand} {types : List TypeId} {position : Nat}
    (hprepares : frame.Prepares knowledge.graph operands bound types grown)
    (hreceiver : operands[position]? = some receiver)
    (hisOf : frame.IsOf knowledge.graph className receiver) :
    ∃ base type, bound[position]? = some base ∧ types[position]? = some type ∧
      frame.Receives arguments knowledge.graph className receiver base type grown := by
  obtain ⟨base, hbase, hresolve, hbound⟩ :=
    exists_of_rel (forall₂_getElem? hprepares.resolves position) hreceiver
  obtain ⟨type, htype, htyped⟩ := exists_of_rel (forall₂_getElem? hprepares.typed position) hbase
  have hends := hcalling.ends_eq hprepares.grows hbound htyped
  have hbaseOf := hisOf.resolve hcalling.housed hresolve
  refine ⟨base, type, hbase, htype, hresolve, hbound, hbaseOf, hbound.rooted hcalling.sound hbaseOf,
    ?_, hends⟩
  have hclass := hends []
  rw [hbound.end_of_isOf hbaseOf, TypeGraph.endAt?_nil] at hclass
  exact Option.some.inj hclass

/-- What has been prepared can be asked. -/
theorem poses {operands bound : List Operand} {types : List TypeId}
    (hprepares : frame.Prepares knowledge.graph operands bound types grown) :
    frame.Poses declarations knowledge target operands bound types
      { knowledge with graph := grown } :=
  have hlearns : knowledge.Learns declarations { knowledge with graph := grown } :=
    (Knowledge.Grows.of_graph hprepares.grows).learns rfl
  ⟨hprepares, hcalling.known.grow hprepares.grows hprepares.wellFormed,
    hcalling.explained.of_learns hlearns, hlearns, hcalling.idle⟩

/-- A call asks for a summary.  It fails if there is none, and repeats it otherwise. -/
theorem exists_call {operands : List Operand}
    (hoperands : ∀ operand ∈ operands, frame.Concrete knowledge.graph operand) (limit room : Nat)
    (span : Span) (method : String) :
    ∃ bound types asked,
      frame.Poses declarations knowledge target operands bound types asked ∧
      match (⟨target, types⟩ : Task).analyze declarations limit room asked with
      | .error failure later =>
        call (analyze declarations limit room) declarations span method target operands frame
          knowledge = .error failure later
      | .ok id later =>
        knowledge.Learns declarations later ∧ later.graph.WellFormed ∧
          ∀ summary, later.summaries[id.index]? = some summary →
            summary.result.Found later.graph →
              call (analyze declarations limit room) declarations span method target operands frame
                knowledge = (liftM (Binding.conclude ⟨declarations, span, method, bound, none⟩
                  target id summary) : Body Operand) frame later := by
  obtain ⟨bound, types, grown, hprepares, hcall⟩ :=
    hcalling.complete.call_eq hoperands declarations span method target
  have hposes := hcalling.poses hprepares
  let task : Task := ⟨target, types⟩
  obtain ⟨hlearns, hlater⟩ := task.analyze_learns hposes.sound hprepares.has_types limit room
  refine ⟨bound, types, _, hposes, ?_⟩
  specialize hcall (analyze declarations limit room)
  change match task.analyze declarations limit room { knowledge with graph := grown } with
    | .error failure later => _
    | .ok id later => _ at hcall
  cases hanswer : task.analyze declarations limit room { knowledge with graph := grown } with
  | error failure later =>
    rw [hanswer] at hcall
    exact hcall
  | ok id later =>
    rw [hanswer] at hcall hlearns hlater
    exact ⟨hposes.learns.trans hlearns, hlater.graph, hcall⟩

end Frame.Calling

theorem Failure.sameCause_missingPart (declarations : Declarations) (span : Span)
    (className : String) (selector : Selector) (name : String) :
    Failure.SameCause (.rejected (.cause (declarations.missingPart span className selector)))
      (Failure.within name
        (.rejected (.cause (declarations.missingPart {} className selector)))) := by
  change (declarations.missingPart span className selector).blur = Cause.blur
    (Diagnostic.within name (.cause (declarations.missingPart {} className selector))).rootCause
  rw [Diagnostic.rootCause_within]
  exact (declarations.missingPart_blur span className selector).symm.trans
    (declarations.missingPart_blur {} className selector)

/-- A summary that writes nothing is repeated by finding its value. -/
theorem Binding.replay_of_unwritten {binding : Binding} {summary : Summary}
    (hwrites : summary.writes = []) (hresult : binding.result? = none) :
    binding.replay summary = binding.value summary.result := by
  unfold Binding.replay Binding.result
  rw [hwrites, hresult]
  exact pure_bind _ _

section Reading

variable (haccessors : Accessors selector reader writer)
  (hcalling : frame.Calling declarations arguments knowledge target)
  (hisOf : frame.IsOf knowledge.graph className receiver)

include hcalling in
/-- When a call repeats a summary that reads a part, it comes to the same as a read of the part. -/
theorem Frame.Calling.agrees_of_readsPart (binding : Binding) {type : TypeId} {id : SummaryId}
    {summary : Summary} {class? : Option String}
    (hreceives : frame.Receives arguments knowledge.graph className receiver base type grown)
    (hbase : binding.slot? 1 = some base) (hresult : binding.result? = none)
    (hreads : summary.ReadsPart learned.graph selector class?)
    (hend : frame.endOf? knowledge.graph base [selector] = some class?)
    (hlearns : knowledge.Learns declarations learned) (hwell : learned.graph.WellFormed) :
    frame.Agrees declarations knowledge target Failure.SameCause
      (reading (fun graph => Frame.read binding.declarations binding.span graph receiver selector)
        frame knowledge.graph)
      ((liftM (binding.conclude target id summary) : Body Operand) frame learned) := by
  have hclosed := hcalling.complete.wellFormed.closed
  have hsettled := hreceives.bound.settled
  rcases hcalling.complete.read_tracks hreceives.bound.names hreceives.bound.known
    binding.declarations binding.span selector with ⟨operand, changed, hread, hreaches⟩ | ⟨-, hnone⟩
  · have hchanged := (Frame.read_safe hcalling.sound hreceives.rooted selector).of_eq_ok hread
    have hfork : knowledge.graph.Fork knowledge.graph learned.graph :=
      ⟨⟨.refl _, hlearns.graph⟩, hcalling.complete.wellFormed, hwell⟩
    rw [reading_of_ok ((Frame.read_eq_of_resolve hreceives.resolves hsettled).trans hread)]
    have htwin := hchanged.1.twin_of_fork hfork
    have hcalls := hreaches.promotes.calls
    cases class? with
    | some className =>
      have hplace : binding.replay summary frame learned.graph =
          .ok (operand, changed) learned.graph := by
        rw [Binding.replay_of_unwritten hreads.writes hresult, hreads.result]
        refine (Binding.place_eq hbase hsettled).trans (reading_of_ok ?_)
        exact Frame.readAlong_cons_of_ok ((hcalling.sound.read_eq hlearns.graph hreceives.rooted
          selector).trans hread)
      refine .of_replay hplace (hreaches.known.mono hlearns.graph hclosed hchanged.1.hasTypes) htwin
        (.twin ((hchanged.2.twin hclosed).grow hfork.toGrowBoth)) hcalls hcalls (.refl _) (.refl _)
        hlearns
    | none =>
      obtain ⟨found, hvalue, hnode⟩ := hreads.result
      obtain ⟨rfl, htype, hplace, hnot⟩ := hreaches.of_primitive hend hread
      have hreplay : binding.replay summary changed learned.graph =
          .ok (.type found, changed) learned.graph := by
        rw [Binding.replay_of_unwritten hreads.writes hresult, hvalue]
        rfl
      refine .of_replay hreplay trivial htwin ?_ rfl rfl (.refl _) (.refl _) hlearns
      cases operand with
      | type part => exact .twin (.type (.of_scalar (htype part rfl) hnode))
      | path place =>
        obtain ⟨part, hpart, hscalar⟩ := hplace place rfl
        exact .primitive hpart hscalar hnode
      | fresh id => exact absurd rfl (hnot id)
  · exact nomatch (hnone []).symm.trans hend

include haccessors hcalling hisOf

/-- A call of a reader comes to the same as a read of the part. -/
theorem Accessors.call_reads (hroom : 0 < room)
    (hdefined : declarations.definition? target = some ⟨some owner, reader⟩)
    {indices : List Operand} (hlength : indices.length = reader.parameters.length)
    (hoperands : ∀ operand ∈ receiver :: indices, frame.Concrete knowledge.graph operand)
    (span : Span) (method : String) :
    frame.Agrees declarations knowledge target Failure.SameCause
      (reading (fun graph => Frame.read declarations span graph receiver selector) frame
        knowledge.graph)
      (call (analyze declarations limit room) declarations span method target
        (receiver :: indices) frame knowledge) := by
  obtain ⟨bound, types, asked, hposes, hcall⟩ :=
    hcalling.exists_call hoperands limit room span method
  obtain ⟨base, type, hbase, htype, hreceives⟩ :=
    hcalling.receives hposes.prepares List.getElem?_cons_zero hisOf
  have harity : (⟨some owner, reader⟩ : Definition).arity = types.length := by
    rw [← hposes.prepares.length_eq, List.length_cons, hlength]
    rfl
  let task : Task := ⟨target, types⟩
  have hanalyzed : ComesTo _ _ (task.analyze declarations limit room asked) :=
    haccessors.analyze_reader hposes.sound hposes.explained hposes.prepares.has_types hposes.idle
      hroom htype hreceives.class?_eq hdefined harity
  cases hanswer : task.analyze declarations limit room asked with
  | error failure later =>
    rw [hanswer] at hanalyzed hcall
    obtain ⟨reason, name, ⟨hnone, rfl⟩, rfl⟩ := hanalyzed
    have hlacks : ¬ frame.HasPart knowledge.graph selector base := by
      intro hhas
      obtain ⟨class?, hend⟩ := hreceives.bound.exists_end_of_hasPart hcalling.complete hhas
      exact nomatch hnone.symm.trans ((hreceives.ends [selector]).trans hend)
    rw [hcall, reading_of_error
      (Frame.read_of_not_hasPart hreceives.resolves hreceives.isOf hlacks)]
    exact Failure.sameCause_missingPart declarations span className selector name
  | ok id later =>
    rw [hanswer] at hanalyzed hcall
    obtain ⟨summary, hsummary, class?, hend, hreads⟩ := hanalyzed
    obtain ⟨hlearns, hwell, hcall⟩ := hcall
    rw [hcall summary hsummary hreads.result.found]
    exact hcalling.agrees_of_readsPart ⟨declarations, span, method, bound, none⟩ hreceives hbase rfl
      hreads ((hreceives.ends [selector]).symm.trans hend) hlearns hwell

end Reading

section Writing

/-- What receives a write, or is written, is at hand. -/
theorem Frame.Receives.atHand {type : TypeId}
    (hreceives : frame.Receives arguments graph className receiver base type grown)
    (hidentified : receiver.Identified graph) : frame.AtHand graph arguments base :=
  ⟨hreceives.bound.settled, hreceives.bound.known, hidentified.resolve hreceives.resolves,
    hreceives.rooted⟩

/-- A write to what has the same home, of what has the same home, is the same. -/
theorem Frame.write_eq_of_resolve {value written : Operand}
    (hreceiver : frame.resolve receiver = .ok base) (hbase : frame.Settled base)
    (hvalue : frame.resolve value = .ok written) (hwritten : frame.Settled written) :
    write declarations span receiver selector value frame graph =
      write declarations span base selector written frame graph := by
  have hasked : ∀ {operand told : Operand}, frame.resolve operand = .ok told →
      inspect (fun _ frame => frame.resolve operand) frame graph = .ok (told, frame) graph :=
    fun hresolve => inspect_of_ok hresolve
  unfold write
  rw [run_bind_of_ok (hasked hreceiver), run_bind_of_ok (hasked hvalue),
    run_bind_of_ok (hasked hbase), run_bind_of_ok (hasked hwritten)]

variable {binding : Binding} {value written result : Operand} {told : Value}

namespace Binding

/-- To repeat a write to a part of the receiver is to write the part. -/
theorem write_part (selector : Selector) (hbase : binding.slot? 1 = some base)
    (hsettled : frame.Settled base)
    (hvalue : binding.value told frame graph = .ok (written, frame) graph) :
    binding.write ⟨⟨1, [selector]⟩, told⟩ frame graph =
      (Frame.write binding.declarations binding.span base selector written >>= fun _ => pure ())
        frame graph := by
  have hslot : binding.slot 1 frame graph = .ok (base, frame) graph := by
    unfold Binding.slot
    rw [hbase]
    exact inspect_of_ok hsettled
  unfold Binding.write
  rw [run_bind_of_ok hslot, run_bind_of_ok hvalue]
  rfl

/-- A summary that writes once is repeated by the write and by finding its value. -/
theorem replay_of_written {summary : Summary} {write : Write} (hwrites : summary.writes = [write])
    (hresult : binding.result? = none) : binding.replay summary =
      binding.write write >>= fun _ => binding.value summary.result := by
  unfold Binding.replay Binding.result
  rw [hwrites, hresult]
  change (binding.write write >>= fun _ => pure PUnit.unit) >>= _ = _
  rw [bind_assoc]
  rfl

end Binding

/-- A value is bound that is an object or primitive, and is told by its type only if it is
primitive. -/
structure Frame.Offers (arguments : List TypeId) (frame : Frame) (graph : TypeGraph)
    (value written : Operand) (class? : Option String) : Prop where
  resolves : frame.resolve value = .ok written
  atHand : frame.AtHand graph arguments written
  primitive : class? = none → ∃ type, written = .type type ∧ graph.node? type = some .scalar

variable (hcalling : frame.Calling declarations arguments knowledge target)

include hcalling

theorem Frame.Calling.offers {operands bound : List Operand} {types : List TypeId} {position : Nat}
    (hprepares : frame.Prepares knowledge.graph operands bound types grown)
    (hposition : operands[position]? = some value) (hidentified : value.Identified knowledge.graph)
    (hvalue : (∃ inner, frame.IsOf knowledge.graph inner value) ∨ ∃ type, value = .type type) :
    ∃ written given, bound[position]? = some written ∧ types[position]? = some given ∧
      frame.Offers arguments knowledge.graph value written (grown.className? given) := by
  rcases hvalue with ⟨inner, hisOf⟩ | ⟨type, rfl⟩
  · obtain ⟨written, given, hwritten, hgiven, hreceives⟩ :=
      hcalling.receives hprepares hposition hisOf
    exact ⟨written, given, hwritten, hgiven, hreceives.resolves, hreceives.atHand hidentified,
      fun hnone => nomatch hnone.symm.trans hreceives.class?_eq⟩
  · obtain ⟨written, hwritten, hresolve, hbound⟩ :=
      exists_of_rel (forall₂_getElem? hprepares.resolves position) hposition
    obtain ⟨given, hgiven, -⟩ := exists_of_rel (forall₂_getElem? hprepares.typed position) hwritten
    obtain rfl := Except.ok.inj hresolve
    exact ⟨.type type, given, hwritten, hgiven, rfl, ⟨rfl, trivial, hidentified, hbound.names⟩,
      fun _ => ⟨type, rfl, hidentified type rfl⟩⟩

/-- What a callee tells of its last argument is written like the argument. -/
theorem Frame.Offers.exists_value {class? : Option String} {slot : Nat}
    (hoffers : frame.Offers arguments knowledge.graph value written class?)
    (hslot : binding.slot? (slot + 1) = some written)
    (htells : told.Tells learned.graph ⟨slot + 1, []⟩ class?)
    (hgrows : knowledge.graph.Grows learned.graph) :
    ∃ other, binding.value told frame learned.graph = .ok (other, frame) learned.graph ∧
      Frame.WrittenAlike knowledge.graph arguments knowledge.graph learned.graph written other ∧
        frame.AtHand learned.graph arguments other := by
  cases class? with
  | some inner =>
    obtain rfl := htells
    refine ⟨written, ?_, .same hoffers.atHand.rooted, hoffers.atHand.mono hgrows hcalling.sound⟩
    exact (Binding.place_eq hslot hoffers.atHand.settled).trans (reading_of_ok rfl)
  | none =>
    obtain ⟨found, rfl, hnode⟩ := htells
    obtain ⟨type, rfl, hscalar⟩ := hoffers.primitive rfl
    exact ⟨.type found, rfl, .type (.of_scalar hscalar hnode), rfl, trivial, .type hnode,
      (TypeGraph.has_iff_exists_node _ found).mpr ⟨_, hnode⟩⟩

/-- When a call repeats a summary that writes a part, it comes to the same as a write to it. -/
theorem Frame.Calling.agrees_of_writesPart (binding : Binding) {class? : Option String} {slot : Nat}
    {id : SummaryId} {summary : Summary} {alike : Failure → Failure → Prop}
    (halike : ∀ failure failure', alike failure failure')
    (hreceiver : frame.resolve receiver = .ok base)
    (hbaseAtHand : frame.AtHand knowledge.graph arguments base)
    (hbase : binding.slot? 1 = some base) (hresult : binding.result? = none)
    (hoffers : frame.Offers arguments knowledge.graph value written class?)
    (hslot : binding.slot? (slot + 1) = some written)
    (hwrites : summary.WritesPart learned.graph selector (slot + 1) class?)
    (hlearns : knowledge.Learns declarations learned) (hwell : learned.graph.WellFormed) :
    frame.Agrees declarations knowledge target alike
      (Frame.write binding.declarations binding.span receiver selector value frame knowledge.graph)
      ((liftM (binding.conclude target id summary) : Body Operand) frame learned) := by
  have hfork : knowledge.graph.Fork knowledge.graph learned.graph :=
    ⟨⟨.refl _, hlearns.graph⟩, hcalling.complete.wellFormed, hwell⟩
  obtain ⟨told, hsummary, htells⟩ := hwrites.writes
  obtain ⟨other, hother, hwritten, hatHand⟩ :=
    hoffers.exists_value hcalling hslot htells hlearns.graph
  have hconcurs : Concur _ _ (Frame.write binding.declarations binding.span base selector written
      frame knowledge.graph) (Frame.write binding.declarations binding.span base selector other
        frame learned.graph) _ :=
    hcalling.sound.write_concurs hfork hbaseAtHand.rooted selector hwritten
  rw [Frame.write_eq_of_resolve hreceiver hbaseAtHand.settled hoffers.resolves
    hoffers.atHand.settled]
  have hpart := Binding.write_part selector hbase hbaseAtHand.settled hother
  have hreplay := Binding.replay_of_written hsummary hresult
  obtain ⟨failure', failure, later, last, hstep, hwrite⟩ |
    ⟨⟨result, later⟩, ⟨result', called⟩, grown, last, hstep, hwrite, hgrown, htwin, hresults⟩ :=
    hconcurs.outcomes
  · have hfails : binding.replay summary frame learned.graph = .error failure last := by
      rw [hreplay]
      exact run_bind_of_error (hpart.trans (run_bind_of_error hwrite))
    rw [hstep, framed_of_error (Binding.conclude_of_error hfails)]
    exact halike failure' failure
  · obtain ⟨answer, hsettled, hread, hknown, halikes⟩ :=
      Frame.write_reads_back (hcalling.sound.mono hlearns.graph hwell)
        (hbaseAtHand.mono hlearns.graph hcalling.sound) hatHand hwrite
    rw [hstep]
    refine .of_replay ?_ hknown htwin (halikes.of_twin htwin hresults) (KeepsCalls.run hstep)
      (KeepsCalls.run hwrite) hgrown.growsLeft hgrown.growsRight hlearns
    rw [hreplay, run_bind_of_ok (hpart.trans (run_bind_of_ok hwrite)), hwrites.result]
    refine (Binding.place_eq hbase hsettled).trans (reading_of_ok ?_)
    exact Frame.readAlong_cons_of_ok hread

variable (haccessors : Accessors selector reader writer)
  (hisOf : frame.IsOf knowledge.graph className receiver)

include haccessors hisOf

/-- A call of a writer comes to the same as a write to the part. -/
theorem Accessors.call_writes (hroom : 0 < room)
    (hdefined : declarations.definition? target = some ⟨some owner, writer⟩)
    {indices : List Operand} (hlength : indices.length + 1 = writer.parameters.length)
    (hoperands : ∀ operand ∈ receiver :: (indices ++ [value]),
      frame.Concrete knowledge.graph operand)
    (hidentified : receiver.Identified knowledge.graph)
    (hgiven : value.Identified knowledge.graph)
    (hvalue : (∃ inner, frame.IsOf knowledge.graph inner value) ∨ ∃ type, value = .type type)
    (span : Span) (method : String) :
    frame.Agrees declarations knowledge target (fun _ _ => True)
      (Frame.write declarations span receiver selector value frame knowledge.graph)
      (call (analyze declarations limit room) declarations span method target
        (receiver :: (indices ++ [value])) frame knowledge) := by
  obtain ⟨bound, types, asked, hposes, hcall⟩ :=
    hcalling.exists_call hoperands limit room span method
  have hprepares := hposes.prepares
  have hlast : (receiver :: (indices ++ [value]))[indices.length + 1]? = some value := by simp
  obtain ⟨base, type, hbase, htype, hreceives⟩ :=
    hcalling.receives hprepares List.getElem?_cons_zero hisOf
  obtain ⟨written, given, hwritten, htype', hoffers⟩ :=
    hcalling.offers hprepares hlast hgiven hvalue
  let task : Task := ⟨target, types⟩
  have hlengths : task.arguments.length = indices.length + 2 := by
    rw [← hprepares.length_eq]
    simp
  have harity : (⟨some owner, writer⟩ : Definition).arity = indices.length + 2 := by
    change writer.parameters.length + 1 = _
    rw [← hlength]
  have hanalyzed : ComesTo _ _ (task.analyze declarations limit room asked) :=
    haccessors.analyze_writer hposes.sound hposes.explained hprepares.has_types hposes.idle hroom
      htype hreceives.class?_eq hdefined htype' hlengths harity
  cases hanswer : task.analyze declarations limit room asked with
  | error failure later =>
    rw [hanswer] at hanalyzed hcall
    obtain ⟨reason, name, hundeclared, -⟩ := hanalyzed
    obtain ⟨failure', hfails⟩ : ∃ failure', Frame.write declarations span receiver selector value
        frame knowledge.graph = .error failure' knowledge.graph :=
      Frame.write_undeclared value hreceives.resolves hreceives.isOf hundeclared
    rw [hcall, hfails]
    trivial
  | ok id later =>
    rw [hanswer] at hanalyzed hcall
    obtain ⟨summary, hsummary, -, hwrites⟩ := hanalyzed
    obtain ⟨hlearns, hwell, hcall⟩ := hcall
    rw [hcall summary hsummary (by rw [hwrites.result]; nofun)]
    exact hcalling.agrees_of_writesPart ⟨declarations, span, method, bound, none⟩
      (fun _ _ => trivial) hreceives.resolves
      (hreceives.atHand hidentified) hbase rfl hoffers hwritten hwrites hlearns hwell

end Writing

/-! ## Everywhere in a body -/

/-- The class answers a message of the name of the method with the method. -/
structure Declarations.Answers (declarations : Declarations) (className : String)
    (method : MethodDecl) (target : DefId) : Prop where
  found : declarations.method? className method.name = some target
  defined : declarations.definition? target = some ⟨some className, method⟩

/-- Send a message, once all operands are at hand. -/
def Scope.message (scope : Scope) (span : Span) (receiver : Operand) (method : String)
    (arguments : List Operand) : Body Operand := do
  let target ← scope.dispatch span receiver method
  scope.call span method target (receiver :: arguments)

/-- A message to an object of a class that has a method of the name is a call of the method. -/
theorem Scope.message_eq {scope : Scope} (hisOf : frame.IsOf knowledge.graph className receiver)
    {method : String} (hfound : scope.declarations.method? className method = some target)
    (span : Span) (arguments : List Operand) :
    scope.message span receiver method arguments frame knowledge =
      scope.call span method target (receiver :: arguments) frame knowledge := by
  have hdispatch : scope.dispatch span receiver method frame knowledge.graph =
      .ok (target, frame) knowledge.graph := by
    unfold Scope.dispatch
    rw [run_bind_of_ok (inspect_of_ok (Frame.classOf?_of_isOf hisOf))]
    dsimp only
    rw [hfound]
    rfl
  unfold Scope.message
  rw [run_bind_of_ok (framed_of_ok hdispatch)]

/-- What may be known when the body has got to the point: what was known when it began, and what has
been learned since. -/
structure Moment.MayKnow (declarations : Declarations) (moment : Moment) (point : Point)
    (knowledge : Knowledge) : Prop where
  learns : moment.knowledge.Learns declarations knowledge
  sound : knowledge.Sound declarations
  graph : knowledge.graph = point.graph

/-- The operand can be had at the point: it is at hand or held by a local, or it is an object of the
frame, told by its place or primitive. -/
def Point.Provides (point : Point) (operand : Operand) : Prop :=
  operand ∈ point.act.operands ∨ (∃ name, point.frame.locals.get? name = some operand) ∨
    operand.Identified point.graph

/-- What can be had is identified, also what is at hand or held by a local. -/
theorem Moment.Passes.identified {program : Program} {engine : Engine} {history : List Moment}
    {moment : Moment} {task : Task} {point : Point}
    (hpasses : moment.Passes (.ofProgram program) limit task point)
    (hsession : Engine.Session program limit engine history) (hmem : moment ∈ history)
    (hprovides : point.Provides operand) : operand.Identified point.graph := by
  have hrules := (Shapes.admit_all (.ofProgram program)).rules
  have hmeets := (Regime.session_holdsAt ⟨Regime.identified_lawful _, hrules.owned, hrules.arrays⟩
    (fun _ => trivial) hsession moment hmem).meets task point hpasses
  rcases hprovides with hhand | ⟨name, hlocal⟩ | hidentified
  · exact (hmeets.operands operand hhand).fits
  · exact hmeets.stands.frames name operand hlocal
  · exact hidentified

/-- At a point of a body, a method that calls nothing can be called, unless it is the one that is
running. -/
theorem Moment.Passes.calling {program : Program} {engine : Engine} {history : List Moment}
    {moment : Moment} {task : Task} {point : Point} {step : Framed Operand}
    (hpasses : moment.Passes (.ofProgram program) limit task point)
    (hsession : Engine.Session program limit engine history) (hmem : moment ∈ history)
    (hknows : moment.MayKnow (.ofProgram program) point knowledge)
    (hdefined : (Declarations.ofProgram program).definition? target = some definition)
    (hfree : definition.CallFree (.ofProgram program) step) (hother : target ≠ task.target) :
    point.frame.Calling (.ofProgram program) task.arguments knowledge target := by
  have haccounted := hsession.accounted moment hmem
  have hstands := ((Regime.session_holdsAt (Shapes.admit_all (.ofProgram program)).rules
    TypeGraph.conforms_all hsession moment hmem).meets task point hpasses).stands
  exact
    { known := hknows.sound
      explained := haccounted.explained.of_learns hknows.learns
      idle := fun types hruns => haccounted.not_runs (hsession.follows.moments moment hmem)
        hpasses.1 hdefined hfree hother types ((hknows.learns.runs_iff _).mp hruns)
      sound := hknows.graph ▸ hstands.sound
      housed := hknows.graph ▸ hstands.housed
      complete := hknows.graph ▸ Frame.Complete.of_stands hstands }

/-- In a session, at all points of all bodies but its own, where some room for analyses is left: a
message that is answered by the reader of a part comes to the same as a read of the part, and one
that is answered by the writer to the same as a write to the part. -/
theorem Engine.session_accesses {program : Program} {limit : Nat} {engine : Engine}
    {history : List Moment} (hsession : Engine.Session program limit engine history) :
    ∀ moment ∈ history, ∀ task point, moment.Passes (.ofProgram program) limit task point →
      0 < moment.room → ∀ knowledge, moment.MayKnow (.ofProgram program) point knowledge →
      ∀ selector reader writer, Accessors selector reader writer →
      ∀ (definition : Definition) (span : Span) (className : String) (receiver : Operand),
        let scope : Scope :=
          ⟨.ofProgram program, definition, ShapeFlow.analyze (.ofProgram program) limit moment.room⟩
        point.frame.Concrete point.graph receiver →
        point.frame.IsOf point.graph className receiver →
        (∀ target, (Declarations.ofProgram program).Answers className reader target →
          target ≠ task.target → ∀ indices, indices.length = reader.parameters.length →
            (∀ index ∈ indices, point.frame.Concrete point.graph index) →
              point.frame.Agrees (.ofProgram program) knowledge target Failure.SameCause
                (scope.read span receiver selector point.frame point.graph)
                (scope.message span receiver reader.name indices point.frame knowledge)) ∧
        ∀ target, (Declarations.ofProgram program).Answers className writer target →
          target ≠ task.target → ∀ indices, indices.length + 1 = writer.parameters.length →
            (∀ index ∈ indices, point.frame.Concrete point.graph index) →
            ∀ value, point.frame.Concrete point.graph value →
              point.Provides receiver → point.Provides value →
              ((∃ inner, point.frame.IsOf point.graph inner value) ∨ ∃ type, value = .type type) →
                point.frame.Agrees (.ofProgram program) knowledge target (fun _ _ => True)
                  (scope.write span receiver selector value point.frame point.graph)
                  (scope.message span receiver writer.name (indices ++ [value]) point.frame
                    knowledge) := by
  intro moment hmem task point hpasses hroom knowledge hknows selector reader writer haccessors
    definition span className receiver scope hreceiver hisOf
  refine ⟨fun target hanswers hother indices hlength hindices => ?_,
    fun target hanswers hother indices hlength hindices value hvalue hhad hgiven hkind => ?_⟩
  · have hcalling := hpasses.calling hsession hmem hknows hanswers.defined
      (haccessors.reader_callFree _ _) hother
    rw [← hknows.graph] at hreceiver hisOf hindices ⊢
    rw [Scope.message_eq hisOf hanswers.found]
    exact haccessors.call_reads hcalling hisOf hroom hanswers.defined hlength
      (List.forall_mem_cons.mpr ⟨hreceiver, hindices⟩) span reader.name
  · obtain ⟨parameter, -, hfree⟩ := haccessors.exists_writer_callFree
      (.ofProgram program) (some className)
    have hcalling := hpasses.calling hsession hmem hknows hanswers.defined hfree hother
    have hidentified := hpasses.identified hsession hmem hhad
    have hgiven' := hpasses.identified hsession hmem hgiven
    rw [← hknows.graph] at hreceiver hisOf hindices hvalue hidentified hgiven' hkind ⊢
    rw [Scope.message_eq hisOf hanswers.found]
    have hoperands : ∀ operand ∈ receiver :: (indices ++ [value]),
        point.frame.Concrete knowledge.graph operand :=
      List.forall_mem_cons.mpr ⟨hreceiver, List.forall_mem_append.mpr
        ⟨hindices, List.forall_mem_singleton.mpr hvalue⟩⟩
    exact haccessors.call_writes hcalling hisOf hroom hanswers.defined hlength hoperands hidentified
      hgiven' hkind span writer.name

/-- A desk gets another lamp. -/
def deskProgram : Program where
  classes := [({ name := "Desk" } : ClassDecl).addAccessor "lamp", { name := "Lamp" }]
  functions := [{
    name := "light"
    parameters := ["desk", "lamp"]
    body := [
      .send {} (.name {} "desk") "lamp=" [.name {} "lamp"],
      .send {} (.name {} "desk") "lamp" []] }]

/-- The program with the types of a desk with a primitive lamp and of a lamp. -/
def deskStart : Engine :=
  (((Engine.ofProgram deskProgram 4).addObject "Desk").addScalar ⟨1⟩ (.field "@lamp")).addObject
    "Lamp"

/-- The analysis of the function for the desk and the lamp. -/
def deskTask : Task := ⟨⟨4⟩, [⟨2⟩, ⟨3⟩]⟩

/-- When the function begins, the messages for the lamp of the desk come to what a read and a write
come to. -/
theorem deskStart_accesses : ∃ engine history moment point,
    Engine.Session deskProgram 4 engine history ∧ moment ∈ history ∧
      moment.Passes (.ofProgram deskProgram) 4 deskTask point ∧
        moment.knowledge.graph = point.graph ∧
      ∀ definition,
        let scope : Scope := ⟨.ofProgram deskProgram, definition,
          analyze (.ofProgram deskProgram) 4 moment.room⟩
        (∃ result grown answer learned,
          scope.read {} (.path ⟨1, []⟩) (.field "@lamp") point.frame point.graph =
              .ok result grown ∧
            scope.message {} (.path ⟨1, []⟩) "lamp" [] point.frame moment.knowledge =
              .ok answer learned ∧
            point.frame.Meet (.ofProgram deskProgram) moment.knowledge ⟨2⟩ result grown answer
              learned) ∧
        ∃ result grown answer learned,
          scope.write {} (.path ⟨1, []⟩) (.field "@lamp") (.path ⟨2, []⟩) point.frame point.graph =
              .ok result grown ∧
            scope.message {} (.path ⟨1, []⟩) "lamp=" [.path ⟨2, []⟩] point.frame moment.knowledge =
              .ok answer learned ∧
            point.frame.Meet (.ofProgram deskProgram) moment.knowledge ⟨3⟩ result grown answer
              learned := by
  let declarations : Declarations := .ofProgram deskProgram
  have hreachable : Engine.Reachable deskProgram 4 deskStart :=
    ((Engine.Reachable.addObject .refl "Desk").addScalar ⟨1⟩ _).addObject "Lamp"
  obtain ⟨before, hstart⟩ := Engine.reachable_iff_session.mp hreachable
  have hsession := hstart.analyze deskStart before deskTask (by decide +kernel)
  rw [hstart.follows.declarations_eq, hstart.follows.limit_eq] at hsession
  have hopening : (deskTask.opening? declarations deskStart.knowledge).isSome = true := by
    decide +kernel
  obtain ⟨⟨definition, memo⟩, hopening⟩ := Option.isSome_iff_exists.mp hopening
  have hopens := Task.opening?_eq_some_iff.mp hopening
  let known := deskStart.knowledge.begin deskTask.target deskTask.arguments memo
  let moment : Moment := ⟨.begun deskTask, [deskTask], 3, known⟩
  let frame : Frame := { slots := deskTask.arguments }
  let point : Point := ⟨frame, known.graph, .begins⟩
  have hmem : moment ∈ before ++ moments declarations 4 4 [] deskTask deskStart.knowledge :=
    List.mem_append_right _ (begun_mem_moments hopens)
  have hpasses : moment.Passes declarations 4 deskTask point :=
    ⟨rfl, definition, hopens.defined, List.mem_cons_self⟩
  have hknown : moment.knowledge.Sound declarations :=
    (hsession.follows.moments moment hmem).knowledge
  have hdesk : point.frame.IsOf point.graph "Desk" (.path ⟨1, []⟩) :=
    show deskStart.graph.className? ⟨2⟩ = some "Desk" by decide +kernel
  have hlamp : point.frame.IsOf point.graph "Lamp" (.path ⟨2, []⟩) :=
    show deskStart.graph.className? ⟨3⟩ = some "Lamp" by decide +kernel
  have hconcrete : ∀ slot type, deskTask.arguments[slot]? = some type →
      point.frame.Concrete point.graph (.path ⟨slot + 1, []⟩) := by
    intro slot type hslot
    have hplace : point.frame.placeType? point.graph ⟨slot + 1, []⟩ = some type := by
      simp [Frame.placeType?, point, frame, hslot]
    exact ⟨trivial, {}, {}, type, point.graph, Frame.typeOf_path hplace⟩
  have hreader : declarations.Answers "Desk" (ClassDecl.reader "lamp") ⟨2⟩ :=
    ⟨by decide +kernel, rfl⟩
  have hwriter : declarations.Answers "Desk" (ClassDecl.writer "lamp") ⟨3⟩ :=
    ⟨by decide +kernel, rfl⟩
  have hread : passes (fun _ _ => true) (reading (fun graph => Frame.read declarations {} graph
      (.path ⟨1, []⟩) (.field "@lamp")) frame deskStart.graph) = true := by
    decide +kernel
  have hwrite : passes (fun _ _ => true) (Frame.write declarations {} (.path ⟨1, []⟩)
      (.field "@lamp") (.path ⟨2, []⟩) frame deskStart.graph) = true := by
    decide +kernel
  obtain ⟨read, grown, hread, -⟩ := exists_of_passes _ hread
  obtain ⟨written, rebuilt, hwrite, -⟩ := exists_of_passes _ hwrite
  refine ⟨_, _, moment, point, hsession, hmem, hpasses, rfl, fun definition => ?_⟩
  obtain ⟨hreads, hwrites⟩ := Engine.session_accesses hsession moment hmem deskTask point hpasses
    (Nat.succ_pos 2) moment.knowledge ⟨.refl _ _, hknown, rfl⟩ _ _ _ (.field "lamp") definition {}
    "Desk" (.path ⟨1, []⟩) (hconcrete 0 _ rfl) hdesk
  specialize hreads ⟨2⟩ hreader (by decide) [] rfl (List.forall_mem_nil _)
  specialize hwrites ⟨3⟩ hwriter (by decide) [] rfl (List.forall_mem_nil _) (.path ⟨2, []⟩)
    (hconcrete 1 _ rfl) (Or.inr (Or.inr (.path _ _))) (Or.inr (Or.inr (.path _ _)))
    (Or.inl ⟨"Lamp", hlamp⟩)
  obtain ⟨read', learned, hcalled, hmeets⟩ := hreads.exists_of_ok hread
  obtain ⟨written', learned', hcalled', hmeets'⟩ := hwrites.exists_of_ok hwrite
  exact ⟨⟨read, grown, read', learned, hread, hcalled, hmeets⟩,
    written, rebuilt, written', learned', hwrite, hcalled', hmeets'⟩

end ShapeFlow
