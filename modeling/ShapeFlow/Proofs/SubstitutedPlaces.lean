import ShapeFlow.Proofs.DeclaredShapes
import ShapeFlow.Proofs.FaithfulLog
import ShapeFlow.Proofs.PromotedParts

/-!
# What a place of the callee stands for

A place of the callee is a slot and a chain of selectors.  It stands for what is read along the
chain from the operand that is bound to the slot.  This succeeds exactly if the type of the operand
can be followed along the chain, and the type of what is read looks like the type that is reached
(`Binding.place_navigates`).

On the way the reading may pass from an object to a place or to a type, and may promote parts, but
this is all that it does (`Frame.Promotes`).  What has been read is read again without any change,
and stays so while further parts are promoted.  So each read answers for the last frame of the whole
reading as well (`Frame.Reaches.again`), and the reading can be repeated.

All of this needs no more than that the frame is complete and names what is bound to the slot.  In
sessions this is so at every point of every body (`Engine.session_complete`).
-/

namespace ShapeFlow

open TypeGraph (SameUnfolding)

variable {declarations : Declarations} {span : Span} {frame later last : Frame}
  {graph grown current : TypeGraph} {operand base held resolved : Operand} {id : AllocId}
  {object : Allocation} {selector : Selector} {type part : TypeId} {place : AccessPath}

namespace Frame

/-! ## The answers of a read -/

/-- A part of a place is told by its place, or by its type where it is primitive. -/
theorem read_of_path (hresolve : frame.resolve base = .ok (.path place))
    (htype : frame.placeType? graph place = some type)
    (hpart : graph.field? type selector = some part) (hhas : graph.Has part) :
    read declarations span graph base selector frame =
      .ok (if (graph.className? part).isSome then .path (place.child selector) else .type part,
        frame) := by
  obtain ⟨node, hnode⟩ := (TypeGraph.has_iff_exists_node graph part).mp hhas
  have hanswer : graph.node part = .ok node := (found_eq_ok_iff _ _ node).mpr hnode
  have hclass : graph.className? part = node.className? := by simp [TypeGraph.className?, hnode]
  unfold read
  rw [Checked.run_get, Checked.run_lift_of_ok hresolve]
  dsimp only
  rw [Checked.run_lift_of_ok (placeType_eq_ok_iff.mpr htype),
    Checked.run_lift_of_ok (TypeGraph.partType_eq_ok_iff.mpr hpart),
    Checked.run_lift_of_ok hanswer, hclass]
  cases node <;> rfl

theorem read_of_type (hresolve : frame.resolve base = .ok (.type type))
    (hpart : graph.field? type selector = some part) :
    read declarations span graph base selector frame = .ok (.type part, frame) := by
  unfold read
  rw [Checked.run_get, Checked.run_lift_of_ok hresolve]
  dsimp only
  rw [Checked.run_lift_of_ok (TypeGraph.partType_eq_ok_iff.mpr hpart)]
  rfl

theorem allocation_eq_ok (hobject : frame.allocations[id.index]? = some object) :
    frame.allocation id = .ok object := (found_eq_ok_iff _ _ object).mpr hobject

theorem setPart_of_ok (hobject : frame.allocations[id.index]? = some object) (selector : Selector)
    (held : Operand) : setPart id selector held frame =
      .ok ((), frame.update id fun object =>
        { object with fields := object.fields.insert selector held }) := by
  unfold setPart
  rw [Checked.run_get, Checked.run_lift_of_ok (allocation_eq_ok hobject)]
  rfl

section Object

variable (hresolve : frame.resolve base = .ok (.fresh id))
  (hobject : frame.allocations[id.index]? = some object)

include hresolve hobject

theorem read_of_held (hheld : object.fields.get? selector = some held)
    (hnot : ∀ type, held ≠ .type type) (hresolved : frame.resolve held = .ok resolved) :
    read declarations span graph base selector frame = .ok (resolved, frame) := by
  unfold read
  rw [Checked.run_get, Checked.run_lift_of_ok hresolve]
  dsimp only
  rw [Checked.run_lift_of_ok (allocation_eq_ok hobject), hheld]
  cases held with
  | type type => exact absurd rfl (hnot type)
  | path place =>
    cases hresolved
    rfl
  | fresh child =>
    dsimp only
    rw [hresolved]
    rfl

theorem read_of_scalar (hheld : object.fields.get? selector = some (.type part))
    (hnode : graph.node? part = some .scalar) :
    read declarations span graph base selector frame = .ok (.type part, frame) := by
  unfold read
  rw [Checked.run_get, Checked.run_lift_of_ok hresolve]
  dsimp only
  rw [Checked.run_lift_of_ok (allocation_eq_ok hobject), hheld]
  dsimp only
  unfold expand?
  rw [TypeGraph.node, hnode]
  rfl

theorem read_of_object {className : String} {types : Fields}
    (hheld : object.fields.get? selector = some (.type part))
    (hnode : graph.node? part = some (.object className types)) :
    read declarations span graph base selector frame =
      .ok (.fresh ⟨frame.allocations.size⟩, frame.withPart id selector className types) := by
  unfold read
  rw [Checked.run_get, Checked.run_lift_of_ok hresolve]
  dsimp only
  rw [Checked.run_lift_of_ok (allocation_eq_ok hobject), hheld]
  dsimp only
  change (expand? graph part frame >>= _) = _
  rw [expand?_eq hnode]
  change (setPart id selector (.fresh ⟨frame.allocations.size⟩) _ >>= _) = _
  rw [setPart_of_ok (getElem?_allocate hobject _)]
  rfl

end Object

/-- A part that the operand has not got is not read. -/
theorem exists_error_of_not_hasPart (hresolve : frame.resolve base = .ok resolved)
    (hlacks : ¬ frame.HasPart graph selector resolved) :
    ∃ failure, read declarations span graph base selector frame = .error failure := by
  cases hread : read declarations span graph base selector frame with
  | error failure => exact ⟨failure, rfl⟩
  | ok result =>
    obtain ⟨other, -, hother, -, hhas⟩ := exists_isOf_of_read hread
    obtain rfl := Except.ok.inj (hresolve.symm.trans hother)
    exact absurd hhas hlacks

/-! ## Readings -/

/-- The reading has answered with an operand that is known, and from which chains of selectors end
as told.  It has at most promoted parts, and gives the same answer in every later frame in which no
more than that has happened. -/
structure Reaches (frame : Frame) (graph : TypeGraph) (reading : StateT Frame Checked Operand)
    (ends : List Selector → Option (Option String)) (operand : Operand) (later : Frame) : Prop where
  promotes : frame.Promotes graph later
  names : later.Names graph operand
  known : later.Known graph operand
  ends : ∀ chain, later.endOf? graph operand chain = ends chain
  again : ∀ last, later.Promotes graph last → reading last = .ok (operand, last)

/-- The reading reaches where the chains lead, or it fails, and they lead nowhere. -/
def Tracks (frame : Frame) (graph : TypeGraph) (reading : StateT Frame Checked Operand)
    (ends : List Selector → Option (Option String)) : Prop :=
  (∃ operand later, reading frame = .ok (operand, later) ∧
    frame.Reaches graph reading ends operand later) ∨
  ((∃ failure, reading frame = .error failure) ∧ ∀ chain, ends chain = none)

/-- What an operand is told by is known as well, and looks like the operand. -/
theorem Known.exists_resolved (hknown : frame.Known graph operand)
    (hnames : frame.Names graph operand) :
    ∃ resolved, frame.resolve operand = .ok resolved ∧ frame.Settled resolved ∧
      frame.Names graph resolved ∧ frame.Known graph resolved ∧
        SameEnds frame graph operand frame graph resolved := by
  cases operand with
  | type type => exact ⟨_, rfl, rfl, hnames, hknown, .refl frame graph _⟩
  | path place => exact ⟨_, rfl, rfl, hnames, hknown, .refl frame graph _⟩
  | fresh id =>
    obtain ⟨object, hobject⟩ := hnames.exists_object
    have hresolve := resolve_fresh_eq_ok_iff.mpr ⟨object, hobject, rfl⟩
    cases hhome : object.home? with
    | none =>
      rw [hhome] at hresolve
      exact ⟨_, hresolve, resolve_settled hresolve, hnames, hknown, .refl frame graph _⟩
    | some home =>
      rw [hhome] at hresolve
      exact ⟨_, hresolve, rfl, trivial, (known_iff_home hobject hhome).mp hknown,
        sameEnds_home hobject hhome⟩

/-- A part that is primitive is not promoted. -/
theorem Promotes.scalar_part (hpromotes : frame.Promotes graph later)
    (hlocal : frame.localObject? (.fresh id) = some object)
    (hheld : object.fields.get? selector = some (.type part))
    (hnode : graph.node? part = some .scalar) :
    ∃ after, later.localObject? (.fresh id) = some after ∧
      after.fields.get? selector = some (.type part) := by
  obtain ⟨after, hafter, hparts⟩ := hpromotes.exists_object hlocal
  refine ⟨after, hafter, ?_⟩
  have hpart := hparts selector
  rw [hheld] at hpart
  generalize hheld' : after.fields.get? selector = after? at hpart
  cases hpart with
  | same => rfl
  | expanded hfirst hbound =>
    -- An object would be found where the part was primitive.
    obtain ⟨inner, hinner⟩ := hpromotes.exists_new hfirst hbound
    have hends := hpromotes.ends (.fresh id) (lt_size_of_local hlocal) [selector]
    rw [endOf?_cons_of_local hlocal, hheld, Option.bind_some, endOf?_type, TypeGraph.endAt?_nil,
      endOf?_cons_of_local hafter, hheld', Option.bind_some, endOf?_nil_of_local hinner] at hends
    simp [TypeGraph.className?, hnode, TypeNode.className?] at hends

section Read

variable (hcomplete : frame.Complete graph) (hnames : frame.Names graph base)

include hcomplete hnames

theorem Complete.tracks_of_path (hresolve : frame.resolve base = .ok (.path place))
    (htype : frame.placeType? graph place = some type)
    (hends : ∀ rest, frame.endOf? graph base (selector :: rest) =
      (graph.field? type selector).bind fun part => graph.endAt? part rest) :
    frame.Tracks graph (read declarations span graph base selector)
      fun rest => frame.endOf? graph base (selector :: rest) := by
  cases hpart : graph.field? type selector with
  | none =>
    refine Or.inr ⟨exists_error_of_not_hasPart hresolve ?_, fun rest =>
      (hends rest).trans (by rw [hpart, Option.bind_none])⟩
    rintro ⟨found, part, hfound, hheld⟩
    obtain rfl := Option.some.inj (htype.symm.trans hfound)
    exact nomatch hpart.symm.trans hheld
  | some part =>
    have hhas := hcomplete.wellFormed.closed.has_field? hpart
    have hchild := placeType?_child htype hpart
    refine Or.inl ⟨_, frame, read_of_path hresolve htype hpart hhas, .refl hcomplete, ?_, ?_,
      fun rest => ?_, fun last hlast => ?_⟩
    · split
      · trivial
      · exact hhas
    · split
      · exact ⟨part, hchild⟩
      · trivial
    · rw [hends, hpart, Option.bind_some]
      split
      · rw [endOf?_path, hchild, Option.bind_some]
      · rw [endOf?_type]
    · exact read_of_path ((hlast.resolve_eq hnames).trans hresolve)
        ((placeType?_eq_of_slots hlast.slots place).trans htype) hpart hhas

theorem Complete.tracks_of_type (hresolve : frame.resolve base = .ok (.type type))
    (hends : ∀ rest, frame.endOf? graph base (selector :: rest) =
      (graph.field? type selector).bind fun part => graph.endAt? part rest) :
    frame.Tracks graph (read declarations span graph base selector)
      fun rest => frame.endOf? graph base (selector :: rest) := by
  cases hpart : graph.field? type selector with
  | none =>
    refine Or.inr ⟨exists_error_of_not_hasPart hresolve ?_, fun rest =>
      (hends rest).trans (by rw [hpart, Option.bind_none])⟩
    rintro ⟨part, hheld⟩
    exact nomatch hpart.symm.trans hheld
  | some part =>
    refine Or.inl ⟨_, frame, read_of_type hresolve hpart, .refl hcomplete,
      hcomplete.wellFormed.closed.has_field? hpart, trivial, fun rest => ?_, fun last hlast => ?_⟩
    · rw [hends, hpart, Option.bind_some, endOf?_type]
    · exact read_of_type ((hlast.resolve_eq hnames).trans hresolve) hpart

section Object

variable (hresolve : frame.resolve base = .ok (.fresh id))
  (hlocal : frame.localObject? (.fresh id) = some object)
  (hends : ∀ rest, frame.endOf? graph base (selector :: rest) =
    (object.fields.get? selector).bind fun held => frame.endOf? graph held rest)

include hresolve hlocal hends

theorem Complete.tracks_of_scalar (hheld : object.fields.get? selector = some (.type part))
    (hnode : graph.node? part = some .scalar) :
    frame.Tracks graph (read declarations span graph base selector)
      fun rest => frame.endOf? graph base (selector :: rest) := by
  have hobject := (localObject?_fresh_iff.mp hlocal).1
  refine Or.inl ⟨_, frame, read_of_scalar hresolve hobject hheld hnode, .refl hcomplete,
    hcomplete.names_part hlocal hheld, trivial, fun rest => ?_, fun last hlast => ?_⟩
  · rw [hends, hheld, Option.bind_some]
  · obtain ⟨after, hafter, hheld'⟩ := hlast.scalar_part hlocal hheld hnode
    exact read_of_scalar ((hlast.resolve_eq hnames).trans hresolve)
      (localObject?_fresh_iff.mp hafter).1 hheld' hnode

/-- The part is promoted, and is found as an object from then on. -/
theorem Complete.tracks_of_object {className : String} {types : Fields}
    (hheld : object.fields.get? selector = some (.type part))
    (hnode : graph.node? part = some (.object className types)) :
    frame.Tracks graph (read declarations span graph base selector)
      fun rest => frame.endOf? graph base (selector :: rest) := by
  have hobject := (localObject?_fresh_iff.mp hlocal).1
  have hpromotes := hcomplete.promotes_withPart hobject hheld hnode
  have hid := lt_size_of_local hlocal
  have hchild : (frame.withPart id selector className types).localObject?
      (.fresh ⟨frame.allocations.size⟩) = some { className, fields := types.mapValues .type } :=
    localObject?_withPart hid
  have hnew : (frame.withPart id selector className types).Names graph
      (.fresh ⟨frame.allocations.size⟩) := lt_size_of_local hchild
  have hsettled : (frame.withPart id selector className types).Settled
      (.fresh ⟨frame.allocations.size⟩) :=
    settled_fresh_iff.mpr ⟨_, withPart_getElem?_new hid, rfl⟩
  refine Or.inl ⟨_, _, read_of_object hresolve hobject hheld hnode, hpromotes, hnew,
    navigable_of_types hchild, fun rest => ?_, fun last hlast => ?_⟩
  · rw [hends, hheld, Option.bind_some, endOf?_type, endOf?_of_types hchild hnode]
  · obtain ⟨holder, hholder, hpart⟩ := frame.exists_withPart selector className types hlocal
    obtain ⟨after, hafter, hheld'⟩ := hlast.part_eq hholder hpart fun _ heq => nomatch heq
    exact read_of_held (((hpromotes.trans hlast).resolve_eq hnames).trans hresolve)
      (localObject?_fresh_iff.mp hafter).1 hheld' (fun _ heq => nomatch heq)
      ((hlast.resolve_eq hnew).trans hsettled)

theorem Complete.tracks_of_held (hknown : frame.Known graph (.fresh id))
    (hheld : object.fields.get? selector = some held) (hnot : ∀ type, held ≠ .type type) :
    frame.Tracks graph (read declarations span graph base selector)
      fun rest => frame.endOf? graph base (selector :: rest) := by
  have hobject := (localObject?_fresh_iff.mp hlocal).1
  have hnamed := hcomplete.names_part hlocal hheld
  obtain ⟨resolved, hresolved, hsettled, hnames', hknown', hsame⟩ :=
    (hknown.part hlocal hheld).exists_resolved hnamed
  refine Or.inl ⟨resolved, frame, read_of_held hresolve hobject hheld hnot hresolved,
    .refl hcomplete, hnames', hknown', fun rest => ?_, fun last hlast => ?_⟩
  · rw [hends, hheld, Option.bind_some, hsame]
  · obtain ⟨after, hafter, hheld'⟩ := hlast.part_eq hlocal hheld hnot
    exact read_of_held ((hlast.resolve_eq hnames).trans hresolve)
      (localObject?_fresh_iff.mp hafter).1 hheld' hnot ((hlast.resolve_eq hnamed).trans hresolved)

end Object

/-- What a read of a part finds is where the chains lead that begin with the part. -/
theorem Complete.read_tracks (hknown : frame.Known graph base) (declarations : Declarations)
    (span : Span) (selector : Selector) :
    frame.Tracks graph (read declarations span graph base selector)
      fun rest => frame.endOf? graph base (selector :: rest) := by
  obtain ⟨resolved, hresolve, hsettled, -, hknown', hsame⟩ := hknown.exists_resolved hnames
  cases resolved with
  | path place =>
    obtain ⟨type, htype⟩ := hknown'
    refine hcomplete.tracks_of_path hnames hresolve htype fun rest => ?_
    rw [hsame, endOf?_path, htype, Option.bind_some, TypeGraph.endAt?_cons]
  | type type =>
    refine hcomplete.tracks_of_type hnames hresolve fun rest => ?_
    rw [hsame, endOf?_type, TypeGraph.endAt?_cons]
  | fresh id =>
    obtain ⟨object, hobject, hhome⟩ := settled_fresh_iff.mp hsettled
    have hlocal := localObject?_fresh_iff.mpr ⟨hobject, hhome⟩
    have hends : ∀ rest, frame.endOf? graph base (selector :: rest) =
        (object.fields.get? selector).bind fun held => frame.endOf? graph held rest :=
      fun rest => by rw [hsame, endOf?_cons_of_local hlocal]
    cases hheld : object.fields.get? selector with
    | none =>
      refine Or.inr ⟨exists_error_of_not_hasPart hresolve ?_, fun rest =>
        (hends rest).trans (by rw [hheld, Option.bind_none])⟩
      rintro ⟨found, part, hfound, hpart⟩
      obtain rfl := Option.some.inj (hobject.symm.trans hfound)
      exact nomatch hheld.symm.trans hpart
    | some held =>
      by_cases htype : ∃ part, held = .type part
      · obtain ⟨part, rfl⟩ := htype
        obtain ⟨node, hnode⟩ := (TypeGraph.has_iff_exists_node graph part).mp
          (hcomplete.names_part hlocal hheld)
        cases node with
        | scalar => exact hcomplete.tracks_of_scalar hnames hresolve hlocal hends hheld hnode
        | object className types =>
          exact hcomplete.tracks_of_object hnames hresolve hlocal hends hheld hnode
      · exact hcomplete.tracks_of_held hnames hresolve hlocal hends hknown' hheld
          fun part heq => htype ⟨part, heq⟩

end Read

/-! ## Readings along chains -/

theorem readAlong_cons_of_ok {rest : List Selector}
    (hread : read declarations span graph base selector frame = .ok (operand, later)) :
    readAlong declarations span graph base (selector :: rest) frame =
      readAlong declarations span graph operand rest later := by
  unfold readAlong
  rw [List.foldlM_cons]
  change (read declarations span graph base selector frame >>= _) = _
  rw [hread]
  rfl

theorem readAlong_cons_of_error {rest : List Selector} {failure : Failure}
    (hread : read declarations span graph base selector frame = .error failure) :
    readAlong declarations span graph base (selector :: rest) frame = .error failure := by
  unfold readAlong
  rw [List.foldlM_cons]
  change (read declarations span graph base selector frame >>= _) = _
  rw [hread]
  rfl

/-- What is read along a chain is where the chain leads. -/
theorem Complete.readAlong_tracks (hcomplete : frame.Complete graph)
    (hnames : frame.Names graph base) (hknown : frame.Known graph base)
    (declarations : Declarations) (span : Span) (selectors : List Selector) :
    frame.Tracks graph (readAlong declarations span graph base selectors)
      fun rest => frame.endOf? graph base (selectors ++ rest) := by
  induction selectors generalizing base frame with
  | nil =>
    exact Or.inl ⟨base, frame, rfl, .refl hcomplete, hnames, hknown, fun _ => rfl, fun _ _ => rfl⟩
  | cons selector rest ih =>
    rcases hcomplete.read_tracks hnames hknown declarations span selector with
      ⟨inner, middle, hread, hreaches⟩ | ⟨⟨failure, hread⟩, hnone⟩
    · unfold Tracks
      rw [readAlong_cons_of_ok hread]
      rcases ih hreaches.promotes.complete hreaches.names hreaches.known with
        ⟨operand, later, hrest, hreaches'⟩ | ⟨hfails, hnone⟩
      · refine Or.inl ⟨operand, later, hrest, hreaches.promotes.trans hreaches'.promotes,
          hreaches'.names, hreaches'.known, fun chain => ?_, fun last hlast => ?_⟩
        · rw [hreaches'.ends, hreaches.ends]
          rfl
        · rw [readAlong_cons_of_ok (hreaches.again last (hreaches'.promotes.trans hlast))]
          exact hreaches'.again last hlast
      · exact Or.inr ⟨hfails, fun chain => (hreaches.ends (rest ++ chain)).symm.trans (hnone chain)⟩
    · exact Or.inr ⟨⟨failure, readAlong_cons_of_error hread⟩, fun chain => hnone (rest ++ chain)⟩

theorem exists_of_readAlong_cons {result : Operand × Frame} {rest : List Selector}
    (hread : readAlong declarations span graph base (selector :: rest) frame = .ok result) :
    ∃ inner middle, read declarations span graph base selector frame = .ok (inner, middle) ∧
      readAlong declarations span graph inner rest middle = .ok result := by
  cases hfirst : read declarations span graph base selector frame with
  | error failure =>
    rw [readAlong_cons_of_error hfirst] at hread
    exact nomatch hread
  | ok first => exact ⟨first.1, first.2, rfl, (readAlong_cons_of_ok hfirst).symm.trans hread⟩

/-- Nothing is read of a primitive value. -/
theorem selectors_eq_nil_of_scalar {result : Operand × Frame} {selectors : List Selector}
    (hnone : graph.className? type = none)
    (hread : readAlong declarations span graph (.type type) selectors frame = .ok result) :
    selectors = [] := by
  cases selectors with
  | nil => rfl
  | cons selector rest =>
    obtain ⟨inner, middle, hfirst, -⟩ := exists_of_readAlong_cons hread
    obtain ⟨operand, className, hresolve, hisOf, -⟩ := exists_isOf_of_read hfirst
    obtain rfl := Except.ok.inj hresolve
    exact nomatch hnone.symm.trans hisOf

/-- What is read along a chain from a place is the place with the chain, or a primitive value. -/
theorem readAlong_place (hcomplete : frame.Complete graph) {selectors : List Selector}
    (hread : readAlong declarations span graph (.path place) selectors frame =
      .ok (operand, later)) :
    operand = .path (place.append selectors) ∨
      ∃ type, operand = .type type ∧ graph.className? type = none := by
  induction selectors generalizing place with
  | nil =>
    cases hread
    exact Or.inl (by rw [AccessPath.append_nil])
  | cons selector rest ih =>
    obtain ⟨inner, middle, hfirst, hrest⟩ := exists_of_readAlong_cons hread
    obtain ⟨resolved, -, hresolve, -, hhas⟩ := exists_isOf_of_read hfirst
    obtain rfl := Except.ok.inj hresolve
    obtain ⟨type, part, htype, hpart⟩ := hhas
    rw [read_of_path rfl htype hpart (hcomplete.wellFormed.closed.has_field? hpart)] at hfirst
    cases hfirst
    split at hrest
    · rw [← AccessPath.child_append]
      exact ih hrest
    · rename_i hclass
      have hnone := Option.not_isSome_iff_eq_none.mp hclass
      obtain rfl := selectors_eq_nil_of_scalar hnone hrest
      cases hrest
      exact Or.inr ⟨part, rfl, hnone⟩

end Frame

/-! ## Places of the callee -/

/-- What a place of the callee stands for has been read, where `operand` is bound to the slot of the
place, and the types lead along the place from the type of the operand to `reached`.

What has been read has a type that looks like the type that was reached.  From a place one gets to
the place below it, unless the value there is primitive.  Nothing that is told of the frame has
changed: operands have the types that they had, and to read it again leads to the same operand and
leaves the frame as it is. -/
structure Binding.Navigates (binding : Binding) (place : AccessPath) (operand : Operand)
    (reached : TypeId) (frame : Frame) (graph : TypeGraph) (result : Operand) (later : Frame) :
    Prop where
  type : ∃ found final,
    later.typeOf binding.declarations binding.span result graph = .ok found final ∧
      final.sameShape found reached = true
  path : ∀ source, frame.resolve operand = .ok (.path source) →
    (graph.className? reached).isSome = true → result = .path (source.append place.selectors)
  slots : later.slots = frame.slots
  locals : later.locals = frame.locals
  writes : later.writes = frame.writes
  calls : later.calls = frame.calls
  complete : later.Complete graph
  types : ∀ other, frame.Names graph other →
    Frame.TypedAlike binding.declarations binding.span graph frame later other
  again : binding.place place later graph = .ok (result, later) graph

theorem Binding.place_eq {binding : Binding} (hslot : binding.slot? place.root = some operand)
    (hresolve : frame.resolve operand = .ok resolved) :
    binding.place place frame graph = reading (fun graph => Frame.readAlong binding.declarations
      binding.span graph resolved place.selectors) frame graph := by
  unfold Binding.place Binding.slot
  rw [hslot]
  simp only [inspect, bind, StateT.bind, EStateM.bind, hresolve]

/-- The operand is known, and the type has its unfolding. -/
structure Frame.TypedAs (frame : Frame) (graph : TypeGraph) (operand : Operand) (type : TypeId) :
    Prop where
  names : frame.Names graph operand
  known : frame.Known graph operand
  has : graph.Has type
  ends : ∀ chain, graph.endAt? type chain = frame.endOf? graph operand chain

/-- Once an operand has a type, the type stays right while types are added. -/
theorem Frame.Complete.typedAs (hcomplete : frame.Complete graph)
    (hnames : frame.Names graph operand)
    (htype : frame.typeOf declarations span operand graph = .ok type grown)
    (hgrows : grown.Grows current) (hwell : current.WellFormed) :
    frame.Complete current ∧ frame.TypedAs current operand type := by
  have hclosed := hcomplete.wellFormed.closed
  have hknown := Frame.known_of_typeOf hcomplete.wellFormed hcomplete.hasTypes htype
  obtain ⟨_, _, hrun, hbuilt, hgrown, hhas, hends⟩ :=
    hcomplete.exists_typeOf declarations span hnames hknown
  cases htype.symm.trans hrun
  have hgrowth := hbuilt.trans hgrows
  refine ⟨hcomplete.mono hgrowth hwell, hnames.mono hgrowth (Nat.le_refl _),
    hknown.mono hgrowth hclosed hcomplete.hasTypes, hgrows.has hhas, fun chain => ?_⟩
  calc current.endAt? type chain = grown.endAt? type chain :=
        hgrows.endAt?_eq hgrown.closed hhas chain
    _ = frame.endOf? graph operand chain := hends chain
    _ = frame.endOf? current operand chain := (Frame.endOf?_eq_of_grows hgrowth hclosed
        hcomplete.hasTypes (fun _ heq => hnames.has heq) chain).symm

/-- Where the reading has reached the end of the place, the types lead there as well. -/
theorem Binding.exists_navigates {binding : Binding} {result : Operand}
    (hcomplete : frame.Complete graph) (hslot : binding.slot? place.root = some operand)
    (htyped : frame.TypedAs graph operand type) (hresolve : frame.resolve operand = .ok resolved)
    (hsame : Frame.SameEnds frame graph operand frame graph resolved)
    (hread :
      Frame.readAlong binding.declarations binding.span graph resolved place.selectors frame =
        .ok (result, later))
    (hreaches : frame.Reaches graph
      (Frame.readAlong binding.declarations binding.span graph resolved place.selectors)
      (fun rest => frame.endOf? graph resolved (place.selectors ++ rest)) result later) :
    ∃ reached, graph.follow? type place.selectors = some reached ∧
      binding.Navigates place operand reached frame graph result later := by
  have hwell := hcomplete.wellFormed
  have hpromotes := hreaches.promotes
  obtain ⟨found, final, hfound, hfinal, hfinalWell, hhasFound, hendsFound⟩ :=
    hpromotes.complete.exists_typeOf binding.declarations binding.span hreaches.names
      hreaches.known
  have hchains : ∀ rest,
      later.endOf? graph result rest = graph.endAt? type (place.selectors ++ rest) :=
    fun rest => by rw [hreaches.ends, ← hsame, htyped.ends]
  have hfollow : (graph.follow? type place.selectors).map graph.className? =
      final.endAt? found [] := by
    rw [hendsFound, hchains, List.append_nil]
    rfl
  obtain ⟨reached, hreached, hclass⟩ := Option.map_eq_some_iff.mp hfollow
  have hhasReached := hwell.closed.has_follow? htyped.has hreached
  refine ⟨reached, hreached, ⟨found, final, hfound, ?_⟩, fun source hsource hobject => ?_,
    hpromotes.slots, hpromotes.locals, hpromotes.writes, hpromotes.calls, hpromotes.complete,
    fun other hother => hpromotes.typedAlike hcomplete _ _ hother, ?_⟩
  · refine Frame.sameShape_of_endAt?_eq hfinalWell hhasFound (hfinal.has hhasReached)
      fun rest => ?_
    rw [hendsFound, hchains, TypeGraph.endAt?_append, hreached, Option.bind_some,
      hfinal.endAt?_eq hwell.closed hhasReached]
  · obtain rfl := Except.ok.inj (hresolve.symm.trans hsource)
    rcases Frame.readAlong_place hcomplete hread with heq | ⟨scalar, rfl, hscalar⟩
    · exact heq
    · -- A primitive value has been read, but an object was reached.
      have hend := hchains []
      rw [List.append_nil, Frame.endOf?_type, TypeGraph.endAt?_nil, hscalar, TypeGraph.endAt?,
        hreached, Option.map_some] at hend
      simp [← Option.some.inj hend] at hobject
  · rw [Binding.place_eq hslot ((hpromotes.resolve_eq htyped.names).trans hresolve)]
    exact reading_eq_ok_iff.mpr ⟨hreaches.again later (.refl hpromotes.complete), rfl⟩

/-- Reading along a place of the callee commutes with following the place in the types.  The operand
that is bound to the slot of the place has a type.  If the type can be followed along the place,
then the reading succeeds, adds no type, and leads to what looks like the type that is reached.  If
it cannot be followed, then the reading fails and adds no type. -/
theorem Binding.place_navigates (binding : Binding) (place : AccessPath)
    (hcomplete : frame.Complete graph) (hslot : binding.slot? place.root = some operand)
    (hnames : frame.Names graph operand)
    (htype : frame.typeOf binding.declarations binding.span operand graph = .ok type grown)
    (hgrows : grown.Grows current) (hwell : current.WellFormed) :
    match current.follow? type place.selectors with
    | some reached => ∃ result later,
      binding.place place frame current = .ok (result, later) current ∧
        binding.Navigates place operand reached frame current result later
    | none => ∃ failure, binding.place place frame current = .error failure current := by
  obtain ⟨hcurrent, htyped⟩ := hcomplete.typedAs hnames htype hgrows hwell
  obtain ⟨resolved, hresolve, -, hnames', hknown, hsame⟩ :=
    htyped.known.exists_resolved htyped.names
  rw [Binding.place_eq hslot hresolve]
  rcases hcurrent.readAlong_tracks hnames' hknown binding.declarations binding.span
    place.selectors with ⟨result, later, hread, hreaches⟩ | ⟨⟨failure, hread⟩, hnone⟩
  · obtain ⟨reached, hreached, hnavigates⟩ :=
      Binding.exists_navigates hcurrent hslot htyped hresolve hsame hread hreaches
    rw [hreached]
    exact ⟨result, later, reading_eq_ok_iff.mpr ⟨hread, rfl⟩, hnavigates⟩
  · have hlost : frame.endOf? current resolved (place.selectors ++ []) = none := hnone []
    rw [List.append_nil, ← hsame, ← htyped.ends, TypeGraph.endAt?, Option.map_eq_none_iff] at hlost
    rw [hlost]
    exact ⟨failure, by simp only [reading, hread]⟩

/-- A call with one of the two nodes that hold each other. -/
def tangleBinding : Binding where
  declarations := {}
  span := {}
  method := "turn"
  arguments := [.fresh ⟨0⟩]
  result? := none

/-- Twice along the ring, from the other node. -/
def tanglePlace : AccessPath := ⟨1, [.field "@next", .field "@ring", .field "@next"]⟩

/-- The ring is known by its type, so the node at its start becomes an object, and then the next. -/
theorem tangleFrame_place_navigates : ∃ type grown reached result later,
    tangleFrame.Complete tangleGraph ∧
      tangleBinding.slot? tanglePlace.root = some (.fresh ⟨0⟩) ∧
        tangleFrame.Names tangleGraph (.fresh ⟨0⟩) ∧
          tangleFrame.typeOf {} {} (.fresh ⟨0⟩) tangleGraph = .ok type grown ∧
            grown.WellFormed ∧ grown.follow? type tanglePlace.selectors = some reached ∧
              tangleBinding.place tanglePlace tangleFrame grown = .ok (result, later) grown ∧
                tangleBinding.Navigates tanglePlace (.fresh ⟨0⟩) reached tangleFrame grown result
                  later ∧ result = .fresh ⟨5⟩ := by
  have hcoherent : tangleFrame.Coherent tangleGraph := by decide +kernel
  have hnames : tangleFrame.Names tangleGraph (.fresh ⟨0⟩) :=
    (by decide : 0 < tangleFrame.allocations.size)
  have hpasses : passes (fun type grown => decide grown.WellFormed &&
      (grown.follow? type tanglePlace.selectors).isSome &&
        passes (fun result _ => decide (result.1 = .fresh ⟨5⟩))
          (tangleBinding.place tanglePlace tangleFrame grown))
      (tangleFrame.typeOf {} {} (.fresh ⟨0⟩) tangleGraph) = true := by decide +kernel
  obtain ⟨type, grown, htype, hchecks⟩ := exists_of_passes _ hpasses
  simp only [Bool.and_eq_true, decide_eq_true_eq] at hchecks
  obtain ⟨⟨hwell, hfollows⟩, hplace⟩ := hchecks
  obtain ⟨reached, hreached⟩ := Option.isSome_iff_exists.mp hfollows
  obtain ⟨⟨result, later⟩, _, hrun, hresult⟩ := exists_of_passes _ hplace
  have hnavigates := tangleBinding.place_navigates tanglePlace hcoherent.complete rfl hnames htype
    (.refl grown) hwell
  rw [hreached] at hnavigates
  obtain ⟨other, last, hplace, hnavigates⟩ := hnavigates
  cases hrun.symm.trans hplace
  exact ⟨type, grown, reached, result, later, hcoherent.complete, rfl, hnames, htype, hwell,
    hreached, hrun, hnavigates, of_decide_eq_true hresult⟩

/-! ## In a session -/

/-- In a session, at all points of all bodies, the frame is complete, and the operands at hand are
there, among them those that are passed to callees. -/
theorem Engine.session_complete {program : Program} {limit : Nat} {engine : Engine}
    {history : List Moment} (hsession : Engine.Session program limit engine history) :
    ∀ moment ∈ history, ∀ task point, moment.Passes (.ofProgram program) limit task point →
      point.frame.Complete point.graph ∧
        ∀ operand ∈ point.act.operands, point.frame.Names point.graph operand := by
  intro moment hmem task point hpasses
  have hmeets := (Regime.session_holdsAt (Shapes.admit_all (.ofProgram program)).rules
    TypeGraph.conforms_all hsession moment hmem).meets task point hpasses
  refine ⟨.of_stands hmeets.stands, fun operand hoperand => ?_⟩
  have hadmits := hmeets.operands operand hoperand
  exact Frame.names_of_rooted hadmits.rooted hadmits.fits

end ShapeFlow
