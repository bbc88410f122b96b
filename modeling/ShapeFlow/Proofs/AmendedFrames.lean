import ShapeFlow.Proofs.CoherentFrames
import ShapeFlow.Proofs.IntactFrames

/-!
# What reading makes of a frame

Reading changes a frame in one way only: a part that is known by its type alone becomes an object
of its own, whose parts are in turn known by their types.  So what an object holds afterwards is
what it held before, or an object that has just been made (`Frame.Amends`, `Frame.read_reads`).
What a read yields is told by the frame before it, unless it is such a new object
(`Frame.Yields`).

Vacating a place also rebinds the parts that are told by the place.  `Amends` leaves open what
becomes of the parts that hold one of the given places.
-/

namespace ShapeFlow

variable {declarations : Declarations} {span : Span} {graph : TypeGraph} {frame later last : Frame}
  {mended : AccessPath → Prop} {operand : Operand}

namespace Frame

/-- What has become of a part while objects have been added, from one number on and below another:
it is what it was, or its type has become a new object, or it held one of the given places. -/
inductive PartAmends (mended : AccessPath → Prop) (first bound : Nat) :
    Option Operand → Option Operand → Prop
  | same (part? : Option Operand) : PartAmends mended first bound part? part?
  | expanded {type : TypeId} {id : AllocId} (hfirst : first ≤ id.index)
      (hbound : id.index < bound) :
      PartAmends mended first bound (some (.type type)) (some (.fresh id))
  | mended {place : AccessPath} (hmended : mended place) (part? : Option Operand) :
      PartAmends mended first bound (some (.path place)) part?

/-- What a new object holds: a type, or another new object. -/
inductive NewPart (first bound : Nat) : Operand → Prop
  | type (type : TypeId) : NewPart first bound (.type type)
  | fresh {id : AllocId} (hfirst : first ≤ id.index) (hbound : id.index < bound) :
      NewPart first bound (.fresh id)

/-- All objects are still there, at home where they were, and parts known by their types may have
become new objects.  Parts that held one of the given places may hold anything. -/
structure Amends (mended : AccessPath → Prop) (frame later : Frame) : Prop where
  old : ∀ (id : Nat) (object : Allocation), frame.allocations[id]? = some object →
    ∃ after, later.allocations[id]? = some after ∧ after.home? = object.home? ∧
      ∀ selector, PartAmends mended frame.allocations.size later.allocations.size
        (object.fields.get? selector) (after.fields.get? selector)
  new : ∀ (id : Nat) (after : Allocation), later.allocations[id]? = some after →
    frame.allocations.size ≤ id → after.home? = none ∧
      ∀ selector held, after.fields.get? selector = some held →
        NewPart frame.allocations.size later.allocations.size held

namespace Amends

theorem of_allocations_eq (hsame : later.allocations = frame.allocations) :
    Amends mended frame later where
  old id object hobject := ⟨object, by rw [hsame, hobject], rfl, fun selector => .same _⟩
  new id after hafter hle := by
    rw [hsame] at hafter
    exact absurd (Array.getElem?_eq_some_iff.mp hafter).1 (Nat.not_lt.mpr hle)

theorem refl (mended : AccessPath → Prop) (frame : Frame) : Amends mended frame frame :=
  of_allocations_eq rfl

theorem size_le (hamends : Amends mended frame later) :
    frame.allocations.size ≤ later.allocations.size := by
  by_contra hlt
  obtain ⟨after, hafter, -⟩ := hamends.old _ _ (Array.getElem?_eq_getElem (Nat.not_le.mp hlt))
  exact Nat.lt_irrefl _ (Array.getElem?_eq_some_iff.mp hafter).1

theorem trans (hfirst : Amends mended frame later) (hsecond : Amends mended later last) :
    Amends mended frame last where
  old id object hobject := by
    obtain ⟨middle, hmiddle, hhome, hparts⟩ := hfirst.old id object hobject
    obtain ⟨after, hafter, hhome', hparts'⟩ := hsecond.old id middle hmiddle
    refine ⟨after, hafter, hhome'.trans hhome, fun selector => ?_⟩
    have hpart := hparts selector
    have hpart' := hparts' selector
    revert hpart hpart'
    generalize object.fields.get? selector = first?
    generalize middle.fields.get? selector = second?
    generalize after.fields.get? selector = third?
    rintro (_ | ⟨hle, hlt⟩ | ⟨hmended⟩) hpart'
    · cases hpart' with
      | same => exact .same _
      | expanded hle hlt => exact .expanded (Nat.le_trans hfirst.size_le hle) hlt
      | mended hmended => exact .mended hmended _
    · cases hpart'
      exact .expanded hle (Nat.lt_of_lt_of_le hlt hsecond.size_le)
    · exact .mended hmended _
  new id after hafter hle := by
    cases hmiddle : later.allocations[id]? with
    | none =>
      obtain ⟨hnone, hparts⟩ := hsecond.new id after hafter (Array.getElem?_eq_none_iff.mp hmiddle)
      refine ⟨hnone, fun selector held hheld => ?_⟩
      cases hparts selector held hheld with
      | type type => exact .type type
      | fresh hle hlt => exact .fresh (Nat.le_trans hfirst.size_le hle) hlt
    | some middle =>
      obtain ⟨hnone, hparts⟩ := hfirst.new id middle hmiddle hle
      obtain ⟨_, hafter', hhome, hparts'⟩ := hsecond.old id middle hmiddle
      obtain rfl := Option.some.inj (hafter.symm.trans hafter')
      refine ⟨hhome.trans hnone, fun selector held hheld => ?_⟩
      have hpart' := hparts' selector
      rw [hheld] at hpart'
      generalize hmid : middle.fields.get? selector = mid? at hpart'
      cases hpart' with
      | same =>
        cases hparts selector held hmid with
        | type type => exact .type type
        | fresh hle hlt => exact .fresh hle (Nat.lt_of_lt_of_le hlt hsecond.size_le)
      | expanded hle hlt => exact .fresh (Nat.le_trans hfirst.size_le hle) hlt
      | mended => exact nomatch hparts selector _ hmid

/-- An object of the later frame was there, or it is new. -/
theorem old_or_new (hamends : Amends mended frame later) {id : Nat} {after : Allocation}
    (hafter : later.allocations[id]? = some after) :
    (∃ object, frame.allocations[id]? = some object ∧ after.home? = object.home? ∧
      ∀ selector, PartAmends mended frame.allocations.size later.allocations.size
        (object.fields.get? selector) (after.fields.get? selector)) ∨
    (frame.allocations[id]? = none ∧ after.home? = none ∧
      ∀ selector held, after.fields.get? selector = some held →
        NewPart frame.allocations.size later.allocations.size held) := by
  cases hobject : frame.allocations[id]? with
  | none => exact Or.inr ⟨rfl, hamends.new id after hafter (Array.getElem?_eq_none_iff.mp hobject)⟩
  | some object =>
    obtain ⟨_, hafter', hhome, hparts⟩ := hamends.old id object hobject
    obtain rfl := Option.some.inj (hafter.symm.trans hafter')
    exact Or.inl ⟨object, rfl, hhome, hparts⟩

/-- A vacant place stays so. -/
theorem vacant {base : AccessPath} (hamends : Amends mended frame later)
    (hvacant : frame.Vacant base) : later.Vacant base := by
  intro id after home hafter hhome
  rcases hamends.old_or_new hafter with ⟨object, hobject, hsame, -⟩ | ⟨-, hnone, -⟩
  · exact hvacant id object home hobject (hsame ▸ hhome)
  · exact nomatch hnone.symm.trans hhome

/-- Where nothing is rebound, a part that holds a place held it before. -/
theorem path_part (hamends : Amends (fun _ => False) frame later) {id : Nat} {after : Allocation}
    {selector : Selector} {place : AccessPath} (hafter : later.allocations[id]? = some after)
    (hheld : after.fields.get? selector = some (.path place)) :
    ∃ object, frame.allocations[id]? = some object ∧
      object.fields.get? selector = some (.path place) := by
  rcases hamends.old_or_new hafter with ⟨object, hobject, -, hparts⟩ | ⟨-, -, hparts⟩
  · refine ⟨object, hobject, ?_⟩
    have hpart := hparts selector
    rw [hheld] at hpart
    generalize object.fields.get? selector = part? at hpart
    cases hpart with
    | same => rfl
    | mended hmended => exact hmended.elim
  · exact nomatch hparts selector _ hheld

/-- A new object whose parts are known by their types. -/
theorem allocate (mended : AccessPath → Prop) (frame : Frame) (className : String)
    (types : Fields) :
    Amends mended frame (frame.allocate { className, fields := types.mapValues .type }).2 where
  old id object hobject := ⟨object, getElem?_allocate hobject _, rfl, fun selector => .same _⟩
  new id after hafter hle := by
    rw [Frame.allocate, Array.getElem?_push] at hafter
    split at hafter
    · obtain rfl := Option.some.inj hafter
      refine ⟨rfl, fun selector held hheld => ?_⟩
      rw [OrderedMap.get?_mapValues] at hheld
      obtain ⟨type, -, rfl⟩ := Option.map_eq_some_iff.mp hheld
      exact .type type
    · exact absurd (Array.getElem?_eq_some_iff.mp hafter).1 (Nat.not_lt.mpr hle)

/-- A part of an object that was there is bound, in a way that is left open for the part. -/
theorem insert (hamends : Amends mended frame later) {id : AllocId} {object : Allocation}
    {selector : Selector} (hobject : frame.allocations[id.index]? = some object)
    (hpart : PartAmends mended frame.allocations.size later.allocations.size
      (object.fields.get? selector) (some operand)) :
    Amends mended frame (later.update id fun object =>
      { object with fields := object.fields.insert selector operand }) := by
  have hsize : (later.update id fun object => { object with
      fields := object.fields.insert selector operand }).allocations.size =
        later.allocations.size := Array.size_modify
  refine ⟨fun other before hbefore => ?_, fun other after hafter hle => ?_⟩
  · obtain ⟨after, hafter, hhome, hparts⟩ := hamends.old other before hbefore
    rw [hsize, Frame.update, Array.getElem?_modify]
    split
    · rename_i heq
      subst heq
      obtain rfl := Option.some.inj (hobject.symm.trans hbefore)
      refine ⟨{ after with fields := after.fields.insert selector operand }, by rw [hafter]; rfl,
        hhome, fun key => ?_⟩
      rw [OrderedMap.get?_insert]
      split
      · rename_i hkey
        exact hkey ▸ hpart
      · exact hparts key
    · exact ⟨after, hafter, hhome, hparts⟩
  · have hne : id.index ≠ other := fun heq =>
      Nat.not_lt.mpr hle (heq ▸ (Array.getElem?_eq_some_iff.mp hobject).1)
    rw [Frame.update, Array.getElem?_modify, if_neg hne] at hafter
    rw [hsize]
    exact hamends.new other after hafter hle

end Amends

/-! ## Reading -/

/-- What a read of a part yields: a type, a place around which the base was told, what the object
that was the base held, or an object that has just been made. -/
inductive Yields (frame later : Frame) (base : Operand) (selector : Selector) : Operand → Prop
  | type (type : TypeId) : Yields frame later base selector (.type type)
  | place {place : AccessPath} (hbase : frame.resolve base = .ok (.path place)) :
      Yields frame later base selector (.path (place.child selector))
  | held {id : AllocId} {object : Allocation} {held resolved : Operand}
      (hbase : frame.resolve base = .ok (.fresh id))
      (hobject : frame.allocations[id.index]? = some object)
      (hheld : object.fields.get? selector = some held)
      (hresolved : frame.resolve held = .ok resolved) : Yields frame later base selector resolved
  | new {id : AllocId} (hfirst : frame.allocations.size ≤ id.index)
      (hbound : id.index < later.allocations.size) : Yields frame later base selector (.fresh id)

/-- What a read of a part makes of the frame, and what it yields. -/
structure Reads (frame : Frame) (base : Operand) (selector : Selector) (operand : Operand)
    (later : Frame) : Prop where
  amends : ∀ mended, Amends mended frame later
  locals : later.locals = frame.locals
  yields : Yields frame later base selector operand

/-- A step that reads answers its answer. -/
theorem resolve_told (frame : Frame) (operand : Operand) :
    Checked.Safe (fun _ => True) (frame.resolve operand)
      fun resolved => frame.resolve operand = .ok resolved :=
  (Checked.Safe.told (Checked.safe_true fun _ => trivial)).mono fun _ htold => htold.1

theorem setPart_updates (id : AllocId) (selector : Selector) (held : Operand) (frame : Frame) :
    Checked.Safe (fun _ => True) (setPart id selector held frame) fun result =>
      result.2 = frame.update id fun object =>
        { object with fields := object.fields.insert selector held } := by
  unfold setPart
  exact Checked.Safe.get_bind (Checked.Safe.lift_bind (Checked.safe_true fun _ => trivial)
    fun _ _ => rfl)

theorem expand?_allocates (type : TypeId) (frame : Frame) :
    Checked.Safe (fun _ => True) (expand? graph type frame) fun result =>
      result = (none, frame) ∨ ∃ (className : String) (types : Fields), result =
        (some (frame.allocate { className, fields := types.mapValues .type }).1,
          (frame.allocate { className, fields := types.mapValues .type }).2) := by
  unfold expand?
  refine Checked.Safe.lift_bind (Checked.safe_true fun _ => trivial) fun node _ => ?_
  cases node with
  | scalar => exact Or.inl rfl
  | object className types => exact Or.inr ⟨className, types, rfl⟩

/-- A part that is known by its type becomes an object of its own. -/
theorem expandPart_reads {base : Operand} {id : AllocId} {object : Allocation} {selector : Selector}
    {part : TypeId} (hobject : frame.allocations[id.index]? = some object)
    (hheld : object.fields.get? selector = some (.type part)) :
    Checked.Safe (fun _ => True) ((do
      match ← expand? graph part with
      | some child =>
        setPart id selector (.fresh child)
        pure (.fresh child)
      | none => pure (.type part) : StateT Frame Checked Operand) frame) fun result =>
      frame.Reads base selector result.1 result.2 := by
  refine (expand?_allocates part frame).run_bind fun child? allocated hallocated => ?_
  rcases hallocated with hallocated | ⟨className, types, hallocated⟩
  · obtain ⟨rfl, rfl⟩ := Prod.mk.inj hallocated
    exact ⟨fun mended => .refl mended allocated, rfl, .type part⟩
  · obtain ⟨rfl, rfl⟩ := Prod.mk.inj hallocated
    refine (setPart_updates id selector _ _).run_bind ?_
    rintro _ _ rfl
    have hlt : frame.allocations.size <
        (frame.allocate { className, fields := types.mapValues .type }).2.allocations.size := by
      simp [Frame.allocate]
    refine ⟨fun mended => (Amends.allocate mended frame className types).insert hobject ?_, rfl,
      .new (Nat.le_refl _) (Nat.lt_of_lt_of_eq hlt Array.size_modify.symm)⟩
    rw [hheld]
    exact .expanded (Nat.le_refl _) hlt

/-- What a read makes of the frame. -/
theorem read_reads (base : Operand) (selector : Selector) (frame : Frame) :
    Checked.Safe (fun _ => True) (read declarations span graph base selector frame)
      fun result => frame.Reads base selector result.1 result.2 := by
  have hsame : ∀ {operand : Operand}, Yields frame frame base selector operand →
      frame.Reads base selector operand frame :=
    fun hyields => ⟨fun mended => .refl mended frame, rfl, hyields⟩
  unfold read
  refine Checked.Safe.get_bind (Checked.Safe.lift_bind (resolve_told frame base)
    fun resolved hbase => ?_)
  cases resolved with
  | path place =>
    refine Checked.Safe.lift_bind (Checked.safe_true fun _ => trivial) fun _ _ => ?_
    refine Checked.Safe.lift_bind (Checked.safe_true fun _ => trivial) fun part _ => ?_
    refine Checked.Safe.lift_bind (Checked.safe_true fun _ => trivial) fun node _ => ?_
    cases node with
    | scalar => exact hsame (.type part)
    | object className fields => exact hsame (.place hbase)
  | type object =>
    refine Checked.Safe.lift_bind (Checked.safe_true fun _ => trivial) fun part _ => ?_
    exact hsame (.type part)
  | fresh id =>
    refine Checked.Safe.lift_bind (frame.allocation_safe id).leniently fun object hobject => ?_
    cases hheld : object.fields.get? selector with
    | none => trivial
    | some held =>
      have htold : Checked.Safe (fun _ => True)
          ((liftM (frame.resolve held) : StateT Frame Checked Operand) frame) fun result =>
          frame.Reads base selector result.1 result.2 :=
        (Checked.Safe.lift (resolve_told frame held)).mono fun _ hpost => by
          obtain ⟨rfl, hresolved⟩ := hpost
          exact hsame (.held hbase hobject hheld hresolved)
      cases held with
      | type part => exact expandPart_reads hobject hheld
      | path place => exact htold
      | fresh child => exact htold

/-- A whole reading keeps what each of its reads does. -/
theorem readAlong_reads (keeps : Frame → Operand → List Selector → Prop)
    (hkeeps : ∀ frame base selector rest operand later, frame.Reads base selector operand later →
      keeps frame base (selector :: rest) → keeps later operand rest)
    (base : Operand) (selectors : List Selector) (frame : Frame) :
    Checked.Safe (fun _ => True) (readAlong declarations span graph base selectors frame)
      fun result => (∀ mended, Amends mended frame result.2) ∧
        result.2.locals = frame.locals ∧
          (keeps frame base selectors → keeps result.2 result.1 []) := by
  unfold readAlong
  induction selectors generalizing base frame with
  | nil => exact ⟨fun mended => .refl mended frame, rfl, id⟩
  | cons selector rest ih =>
    rw [List.foldlM_cons]
    refine (read_reads base selector frame).run_bind fun operand later hreads => ?_
    refine (ih operand later).mono fun result hpost => ?_
    obtain ⟨hamends, hlocals, hkept⟩ := hpost
    exact ⟨fun mended => (hreads.amends mended).trans (hamends mended),
      hlocals.trans hreads.locals, fun hbefore => hkept (hkeeps _ _ _ _ _ _ hreads hbefore)⟩

/-- To follow a place through the copy is to read along the selectors below the vacated one. -/
theorem retrace_reads (keeps : Frame → Operand → List Selector → Prop)
    (hkeeps : ∀ frame base selector rest operand later, frame.Reads base selector operand later →
      keeps frame base (selector :: rest) → keeps later operand rest)
    (root : Operand) (base place : AccessPath) (frame : Frame) (graph : TypeGraph) :
    (lenient TypeGraph).Ends graph (retrace declarations span root base place frame graph)
      fun result _ => (∀ mended, Amends mended frame result.2) ∧
        result.2.locals = frame.locals ∧
          ∀ selectors, place = base.append selectors → keeps frame root selectors →
            keeps result.2 result.1 [] := by
  unfold retrace
  cases hbelow : place.below? base with
  | none => exact ⟨trivial, trivial, trivial⟩
  | some selectors =>
    refine Discipline.Ends.mono (Discipline.Ends.reading trivial
      (readAlong_reads keeps hkeeps root selectors frame)) fun result _ _ hpost => ?_
    obtain ⟨-, hamends, hlocals, hkept⟩ := hpost
    refine ⟨hamends, hlocals, fun others hplace hothers => hkept ?_⟩
    rw [hplace, AccessPath.below?_append] at hbelow
    exact Option.some.inj hbelow ▸ hothers

end Frame

end ShapeFlow
