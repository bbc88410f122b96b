import ShapeFlow.Proofs.ReifiedObjects

/-!
# Reading elaborates a frame

To read a part of an operand never fails in a coherent frame in which the operand has the part, and
it makes no difference that chains of selectors could tell: the frame is at most elaborated, by the
allocation of an object that was known by its type alone (`Frame.read_finds`).  What is read looks
like the part that was asked for.  The same is said of chains of selectors
(`Frame.readAlong_finds`).
-/

namespace ShapeFlow

/-- Graphs of types only grow, and no step fails. -/
def surely : Discipline TypeGraph where
  Grows := TypeGraph.Grows
  Calm _ := True
  Excused _ := False
  refl := TypeGraph.Grows.refl
  trans := TypeGraph.Grows.trans

/-- A step that only reads succeeds and answers as told. -/
abbrev Checked.Surely {α : Type} (step : Checked α) (post : α → Prop) : Prop :=
  Checked.Safe (fun _ => False) step post

theorem Checked.surely_of_eq {α : Type} {step : Checked α} {value : α} {post : α → Prop}
    (hstep : step = .ok value) (hpost : post value) : Checked.Surely step post := by
  rw [hstep]
  exact hpost

/-- What is sure to succeed has an outcome. -/
theorem Discipline.Ends.exists_ok {α : Type} {graph : TypeGraph}
    {outcome : EStateM.Result Failure TypeGraph α} {post : α → TypeGraph → Prop}
    (hends : surely.Ends graph outcome post) :
    ∃ value grown, outcome = .ok value grown ∧ graph.Grows grown ∧ post value grown := by
  cases outcome with
  | ok value grown => exact ⟨value, grown, rfl, hends⟩
  | error failure grown => exact hends.2.2.elim

variable {declarations : Declarations} {span : Span} {frame later last : Frame}
  {graph grown final : TypeGraph} {operand held : Operand} {id : AllocId} {selector : Selector}

namespace TypeGraph

theorem node_surely {type : TypeId} (hhas : graph.Has type) :
    Checked.Surely (graph.node type) fun node => graph.node? type = some node := by
  obtain ⟨node, hnode⟩ := (has_iff_exists_node graph type).mp hhas
  exact Checked.surely_of_eq ((found_eq_ok_iff _ _ node).mpr hnode) hnode

theorem partType_surely {type part : TypeId} (hpart : graph.field? type selector = some part) :
    Checked.Surely (graph.partType declarations span type selector) (part = ·) :=
  Checked.surely_of_eq (partType_eq_ok_iff.mpr hpart) rfl

/-- A part from which a chain ends is bound. -/
theorem exists_field?_of_endAt? {type : TypeId}
    (hsome : (graph.endAt? type [selector]).isSome = true) :
    ∃ part, graph.field? type selector = some part := by
  rw [endAt?_cons] at hsome
  exact Option.isSome_iff_exists.mp (Option.isSome_of_isSome_bind hsome)

end TypeGraph

namespace Frame

theorem placeType_surely {place : AccessPath} (hrefers : frame.Refers graph (.path place)) :
    Checked.Surely (frame.placeType declarations graph span place) fun type =>
      frame.placeType? graph place = some type := by
  obtain ⟨type, htype⟩ := refers_path_iff.mp hrefers
  exact Checked.surely_of_eq (placeType_eq_ok_iff.mpr htype) htype

/-- What an operand is told by looks like the operand. -/
theorem resolve_surely (hcoherent : frame.Coherent graph) (hrefers : frame.Refers graph operand) :
    Checked.Surely (frame.resolve operand) fun resolved => frame.Settled resolved ∧
      frame.Refers graph resolved ∧ SameEnds frame graph operand frame graph resolved := by
  cases operand with
  | type type => exact ⟨rfl, hrefers, .refl frame graph _⟩
  | path place => exact ⟨rfl, hrefers, .refl frame graph _⟩
  | fresh id =>
    obtain ⟨object, hobject⟩ := refers_fresh_iff.mp hrefers
    have hresolve := resolve_fresh_eq_ok_iff.mpr ⟨object, hobject, rfl⟩
    cases hhome : object.home? with
    | none =>
      rw [hhome] at hresolve
      exact Checked.surely_of_eq hresolve
        ⟨resolve_settled hresolve, hrefers, .refl frame graph _⟩
    | some home =>
      rw [hhome] at hresolve
      exact Checked.surely_of_eq hresolve ⟨rfl, hcoherent.refers_home hobject hhome,
        sameEnds_home hobject hhome⟩

/-- A part of an object is bound to an operand that looks like the part, or the object has a home,
where its parts are not looked at. -/
theorem setPart_elaborates (hcoherent : frame.Coherent graph) {object : Allocation}
    (hobject : frame.allocations[id.index]? = some object) (hheld : frame.Refers graph held)
    (hsame : object.home? = none → ∀ rest, frame.endOf? graph held rest =
      frame.endOf? graph (.fresh id) (selector :: rest)) :
    Checked.Surely (setPart id selector held frame) fun result =>
      frame.Elaborates graph result.2 graph := by
  have hrecasts : frame.Recasts graph id object
      { object with fields := object.fields.insert selector held } := by
    refine ⟨rfl, fun key found hfound => ?_, Or.inr rfl, fun hhome => ?_⟩
    · rw [OrderedMap.get?_insert] at hfound
      split at hfound
      · obtain rfl := Option.some.inj hfound
        exact hheld
      · exact hcoherent.parts id.index object key found hobject hfound
    · exact (hcoherent.spellsOut (localObject?_fresh_iff.mpr ⟨hobject, hhome⟩)).insert
        hheld (hsame hhome)
  unfold setPart
  exact Checked.Safe.get_bind (Checked.Safe.lift_bind
    (Checked.surely_of_eq ((found_eq_ok_iff _ _ object).mpr hobject) trivial)
    fun _ (_ : True) => ⟨hcoherent.update hobject hrecasts, .update frame id fun _ => rfl⟩)

/-- A step has at most elaborated the frame, and has answered an operand from which chains of
selectors end as told. -/
structure Finds (frame : Frame) (graph : TypeGraph)
    (ends : List Selector → Option (Option String)) (operand : Operand) (later : Frame)
    (grown : TypeGraph) : Prop where
  elaborates : frame.Elaborates graph later grown
  refers : later.Refers grown operand
  ends : ∀ chain, later.endOf? grown operand chain = ends chain

/-- What is found in an elaborated frame is found in the frame. -/
theorem Finds.after {ends : List Selector → Option (Option String)}
    (hfinds : later.Finds grown ends operand last final)
    (helaborates : frame.Elaborates graph later grown) :
    frame.Finds graph ends operand last final :=
  ⟨helaborates.trans hfinds.elaborates, hfinds.refers, hfinds.ends⟩

theorem Finds.of_refers (hcoherent : frame.Coherent graph) (hrefers : frame.Refers graph operand) :
    frame.Finds graph (frame.endOf? graph operand) operand frame graph :=
  ⟨.refl hcoherent, hrefers, fun _ => rfl⟩

/-- An object type is spelt out by the types of its parts. -/
theorem Coherent.spellsOut_types (hcoherent : frame.Coherent graph) {type : TypeId}
    {className : String} {types : Fields}
    (hnode : graph.node? type = some (.object className types)) :
    frame.SpellsOut graph (types.mapValues .type) (.type type) where
  refers key found hfound := by
    rw [OrderedMap.get?_mapValues] at hfound
    obtain ⟨part, hpart, rfl⟩ := Option.map_eq_some_iff.mp hfound
    exact hcoherent.wellFormed.closed hnode hpart
  ends key rest := by
    rw [endOf?_type, TypeGraph.endAt?_cons, TypeGraph.field?_eq_of_node? hnode,
      OrderedMap.get?_mapValues, Option.bind_map]
    exact Option.bind_congr fun part _ => endOf?_type frame graph part rest

/-- A part that is known by its type alone becomes an allocated object. -/
theorem expandPart_finds (hcoherent : frame.Coherent graph) {object : Allocation} {part : TypeId}
    (hlocal : frame.localObject? (.fresh id) = some object)
    (hheld : object.fields.get? selector = some (.type part)) :
    Checked.Surely ((do
      match ← expand? graph part with
      | some child =>
        setPart id selector (.fresh child)
        pure (.fresh child)
      | none => pure (.type part) : StateT Frame Checked Operand) frame) fun result =>
      frame.Finds graph (fun rest => frame.endOf? graph (.fresh id) (selector :: rest)) result.1
        result.2 graph := by
  obtain ⟨hobject, hhome⟩ := localObject?_fresh_iff.mp hlocal
  have hpart : frame.Refers graph (.type part) :=
    hcoherent.parts id.index object selector _ hobject hheld
  have hends : ∀ rest, frame.endOf? graph (.fresh id) (selector :: rest) =
      graph.endAt? part rest := by
    intro rest
    rw [endOf?_cons_of_local hlocal, hheld, Option.bind_some, endOf?_type]
  obtain ⟨node, hnode⟩ := (TypeGraph.has_iff_exists_node graph part).mp hpart
  cases node with
  | scalar =>
    have hok : expand? graph part frame = .ok (none, frame) := by
      unfold expand? TypeGraph.node
      rw [hnode]
      rfl
    have hexpand : Checked.Surely (expand? graph part frame) (· = (none, frame)) :=
      Checked.surely_of_eq hok rfl
    refine hexpand.run_bind ?_
    rintro _ _ ⟨⟩
    exact ⟨.refl hcoherent, hpart, fun chain => by rw [hends, endOf?_type]⟩
  | object className types =>
    have hspells := hcoherent.spellsOut_types hnode
    have helaborates := hcoherent.allocate className hspells.refers
    have hclass : frame.endOf? graph (.type part) [] = some (some className) := by
      rw [endOf?_type, TypeGraph.endAt?_nil, TypeGraph.className?_eq_some_iff.mpr ⟨types, hnode⟩]
    have hsame := hcoherent.allocate_sameEnds hpart hclass hspells
    have hends' : ∀ rest, (frame.allocate { className, fields := types.mapValues .type }).2.endOf?
        graph (.fresh (frame.allocate { className, fields := types.mapValues .type }).1) rest =
          frame.endOf? graph (.fresh id) (selector :: rest) := by
      intro rest
      rw [hends, ← hsame, endOf?_type]
    have hid : frame.Refers graph (.fresh id) := refers_fresh_iff.mpr ⟨object, hobject⟩
    have hchild : (frame.allocate { className, fields := types.mapValues .type }).2.Refers graph
        (.fresh (frame.allocate { className, fields := types.mapValues .type }).1) := by
      simp [Refers, Frame.allocate]
    have hexpand : Checked.Surely (expand? graph part frame) (· = (some _, _)) :=
      Checked.surely_of_eq (expand?_eq hnode) rfl
    refine hexpand.run_bind ?_
    rintro _ _ ⟨⟩
    refine Checked.Safe.run_bind (setPart_elaborates helaborates.coherent
      (getElem?_allocate hobject _) hchild fun _ rest => ?_) fun _ last hset => ?_
    · rw [hends', helaborates.operands (.fresh id) hid]
    · exact ⟨helaborates.trans hset, hset.refers _ hchild, fun chain => by
        rw [← hset.operands _ hchild, hends']⟩

/-- To read a part of an operand finds what the part looks like. -/
theorem read_finds (hcoherent : frame.Coherent graph) (hrefers : frame.Refers graph operand)
    (hsome : (frame.endOf? graph operand [selector]).isSome = true) :
    Checked.Surely (read declarations span graph operand selector frame) fun result =>
      frame.Finds graph (fun rest => frame.endOf? graph operand (selector :: rest)) result.1
        result.2 graph := by
  unfold read
  refine Checked.Safe.get_bind (Checked.Safe.lift_bind (resolve_surely hcoherent hrefers)
    fun resolved hresolved => ?_)
  obtain ⟨hsettled, hresolvedRefers, hsame⟩ := hresolved
  rw [hsame] at hsome
  refine Checked.Safe.mono (?_ : Checked.Surely _ fun result => frame.Finds graph
    (fun rest => frame.endOf? graph resolved (selector :: rest)) result.1 result.2 graph)
    fun result hfinds => ⟨hfinds.elaborates, hfinds.refers, fun rest =>
      (hfinds.ends rest).trans (hsame _).symm⟩
  cases resolved with
  | path place =>
    obtain ⟨type, htype⟩ := refers_path_iff.mp hresolvedRefers
    rw [endOf?_path, htype, Option.bind_some] at hsome
    obtain ⟨part, hpart⟩ := TypeGraph.exists_field?_of_endAt? hsome
    have hhas := hcoherent.wellFormed.closed.has_field? hpart
    have hends : ∀ rest, frame.endOf? graph (.path place) (selector :: rest) =
        graph.endAt? part rest := by
      intro rest
      rw [endOf?_path, htype, Option.bind_some, TypeGraph.endAt?_cons, hpart, Option.bind_some]
    refine Checked.Safe.lift_bind (placeType_surely hresolvedRefers) fun found hfound => ?_
    obtain rfl := Option.some.inj (htype.symm.trans hfound)
    refine Checked.Safe.lift_bind (TypeGraph.partType_surely hpart) ?_
    rintro _ rfl
    refine Checked.Safe.lift_bind (TypeGraph.node_surely hhas) fun node _ => ?_
    cases node with
    | scalar => exact ⟨.refl hcoherent, hhas, fun rest => by rw [hends, endOf?_type]⟩
    | object className fields =>
      exact ⟨.refl hcoherent, refers_path_iff.mpr ⟨part, placeType?_child htype hpart⟩,
        endOf?_child frame graph place selector⟩
  | type type =>
    rw [endOf?_type] at hsome
    obtain ⟨part, hpart⟩ := TypeGraph.exists_field?_of_endAt? hsome
    refine Checked.Safe.lift_bind (TypeGraph.partType_surely hpart) ?_
    rintro _ rfl
    exact ⟨.refl hcoherent, hcoherent.wellFormed.closed.has_field? hpart, fun rest => by
      rw [endOf?_type, endOf?_type, TypeGraph.endAt?_cons, hpart, Option.bind_some]⟩
  | fresh id =>
    obtain ⟨object, hobject, hhome⟩ := settled_fresh_iff.mp hsettled
    have hlocal := localObject?_fresh_iff.mpr ⟨hobject, hhome⟩
    have hallocation : Checked.Surely (frame.allocation id) (object = ·) :=
      Checked.surely_of_eq ((found_eq_ok_iff _ _ object).mpr hobject) rfl
    refine Checked.Safe.lift_bind hallocation ?_
    rintro _ rfl
    rw [endOf?_cons_of_local hlocal] at hsome
    obtain ⟨held, hheld⟩ := Option.isSome_iff_exists.mp (Option.isSome_of_isSome_bind hsome)
    have hends : ∀ rest, frame.endOf? graph (.fresh id) (selector :: rest) =
        frame.endOf? graph held rest := by
      intro rest
      rw [endOf?_cons_of_local hlocal, hheld, Option.bind_some]
    have htold : Checked.Surely
        ((liftM (frame.resolve held) : StateT Frame Checked Operand) frame) fun result =>
        frame.Finds graph (fun rest => frame.endOf? graph (.fresh id) (selector :: rest)) result.1
          result.2 graph := by
      have hheldRefers := hcoherent.parts id.index object selector held hobject hheld
      refine (Checked.Safe.lift (resolve_surely hcoherent hheldRefers)).mono ?_
      rintro ⟨_, _⟩ ⟨rfl, -, hrefers', hsame'⟩
      exact ⟨.refl hcoherent, hrefers', fun rest => by rw [hends, hsame' rest]⟩
    rw [hheld]
    cases held with
    | type part => exact expandPart_finds hcoherent hlocal hheld
    | path place => exact htold
    | fresh child => exact htold

/-- Where a chain can be followed, its first selector can be. -/
theorem Coherent.isSome_endOf?_first (hcoherent : frame.Coherent graph)
    {rest : List Selector}
    (hsome : (frame.endOf? graph operand (selector :: rest)).isSome = true) :
    (frame.endOf? graph operand [selector]).isSome = true := by
  cases hlocal : frame.localObject? operand with
  | none =>
    rw [endOf?_of_not_local hlocal] at hsome ⊢
    obtain ⟨type, htype⟩ := Option.isSome_iff_exists.mp (Option.isSome_of_isSome_bind hsome)
    rw [htype, Option.bind_some, TypeGraph.endAt?_cons] at hsome ⊢
    obtain ⟨part, hpart⟩ := Option.isSome_iff_exists.mp (Option.isSome_of_isSome_bind hsome)
    rw [hpart]
    rfl
  | some object =>
    obtain ⟨id, rfl, hobject, -⟩ := localObject?_eq_some_iff.mp hlocal
    rw [endOf?_cons_of_local hlocal] at hsome ⊢
    obtain ⟨held, hheld⟩ := Option.isSome_iff_exists.mp (Option.isSome_of_isSome_bind hsome)
    rw [hheld]
    exact hcoherent.isSome_endOf? (hcoherent.parts id.index object selector held hobject hheld)

/-- To read along a chain of selectors finds what is at its end. -/
theorem readAlong_finds (hcoherent : frame.Coherent graph) (hrefers : frame.Refers graph operand)
    (selectors : List Selector)
    (hsome : (frame.endOf? graph operand selectors).isSome = true) :
    Checked.Surely (readAlong declarations span graph operand selectors frame) fun result =>
      frame.Finds graph (fun rest => frame.endOf? graph operand (selectors ++ rest)) result.1
        result.2 graph := by
  unfold readAlong
  induction selectors generalizing operand frame with
  | nil => exact .of_refers hcoherent hrefers
  | cons selector selectors ih =>
    rw [List.foldlM_cons]
    have hfirst := hcoherent.isSome_endOf?_first hsome
    refine (read_finds hcoherent hrefers hfirst).run_bind fun part later hfinds => ?_
    refine (ih hfinds.elaborates.coherent hfinds.refers ?_).mono fun result hpost => ?_
    · rw [hfinds.ends]
      exact hsome
    · refine ⟨hfinds.elaborates.trans hpost.elaborates, hpost.refers, fun rest => ?_⟩
      rw [hpost.ends, hfinds.ends]
      rfl

/-- To follow a place through what looks like a place around it finds what is at the place. -/
theorem retrace_finds (hcoherent : frame.Coherent graph) {root : Operand} {base place : AccessPath}
    (hroot : frame.Refers graph root)
    (hsame : SameEnds frame graph root frame graph (.path base))
    (hwithin : place.liesWithin base = true) (hplace : frame.Refers graph (.path place)) :
    surely.Ends graph (retrace declarations span root base place frame graph) fun result grown =>
      frame.Finds graph (frame.endOf? graph (.path place)) result.1 result.2 grown := by
  obtain ⟨selectors, rfl⟩ := (AccessPath.liesWithin_iff place base).mp hwithin
  have hends : ∀ rest, frame.endOf? graph (.path (base.append selectors)) rest =
      frame.endOf? graph root (selectors ++ rest) := by
    intro rest
    rw [endOf?_append, hsame]
  have hsome := hcoherent.isSome_endOf? hplace
  rw [hends, List.append_nil] at hsome
  unfold retrace
  rw [AccessPath.below?_append]
  refine Discipline.Ends.mono (Discipline.Ends.reading trivial
    (readAlong_finds hcoherent hroot selectors hsome)) fun result grown _ hpost => ?_
  obtain ⟨rfl, hfinds⟩ := hpost
  exact ⟨hfinds.elaborates, hfinds.refers, fun rest => (hfinds.ends rest).trans (hends rest).symm⟩

end Frame

end ShapeFlow
