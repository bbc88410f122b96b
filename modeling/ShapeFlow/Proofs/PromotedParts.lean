import ShapeFlow.Proofs.AmendedFrames
import ShapeFlow.Proofs.IntactCopies
import ShapeFlow.Proofs.ReifiedObjects

/-!
# Parts that become objects

A read of a part that is known by its type alone makes an object of it, with the class and the parts
that the type has (`Frame.withPart`).  In a `Complete` frame nobody can tell: chains of selectors
end as before from all operands, an operand has a type afterwards if it had one before, and of the
same unfolding (`Frame.Promotes`).

Other than in coherent frames, places may lead nowhere here.  What an operand leads to is then there
only in part, so that it has to be shown as well that nothing is missing afterwards that was there
before, and that nothing has been supplied (`Frame.Promotes.known_iff`).
-/

namespace ShapeFlow

open TypeGraph (SameUnfolding)

variable {declarations : Declarations} {span : Span} {frame later last : Frame}
  {graph grown : TypeGraph} {operand held : Operand} {id child : AllocId} {object : Allocation}
  {selector : Selector} {type : TypeId} {className : String} {types : Fields}

namespace Frame

/-- The type or the object that an operand names is there. -/
def Names (frame : Frame) (graph : TypeGraph) : Operand → Prop
  | .type type => graph.Has type
  | .path _ => True
  | .fresh id => id.index < frame.allocations.size

/-- The types and the objects that the frame names are there.  Its places may lead nowhere. -/
structure Complete (frame : Frame) (graph : TypeGraph) : Prop where
  wellFormed : graph.WellFormed
  slots : ∀ type ∈ frame.slots, graph.Has type
  locals : ∀ name operand, frame.locals.get? name = some operand → frame.Names graph operand
  parts : ∀ (id : Nat) (object : Allocation) (selector : Selector) (operand : Operand),
    frame.allocations[id]? = some object → object.fields.get? selector = some operand →
      frame.Names graph operand

theorem Names.has {type : TypeId} (hnames : frame.Names graph operand)
    (heq : operand = .type type) : graph.Has type := by
  subst heq
  exact hnames

theorem Names.exists_object (hnames : frame.Names graph (.fresh id)) :
    ∃ object, frame.allocations[id.index]? = some object :=
  ⟨_, Array.getElem?_eq_getElem hnames⟩

theorem names_fresh (hobject : frame.allocations[id.index]? = some object) :
    frame.Names graph (.fresh id) :=
  (Array.getElem?_eq_some_iff.mp hobject).1

theorem names_of_rooted {arguments : List TypeId} (hrooted : operand.RootedIn graph arguments)
    (hexists : operand.ExistsIn frame) : frame.Names graph operand := by
  cases operand with
  | type type => exact hrooted
  | path place => trivial
  | fresh id =>
    obtain ⟨object, hobject⟩ := hexists id rfl
    exact names_fresh hobject

theorem lt_size_of_local (hlocal : frame.localObject? (.fresh id) = some object) :
    id.index < frame.allocations.size := by
  obtain ⟨hobject, -⟩ := localObject?_fresh_iff.mp hlocal
  exact (Array.getElem?_eq_some_iff.mp hobject).1

theorem Names.mono (hnames : frame.Names graph operand) (hgrows : graph.Grows grown)
    (hsize : frame.allocations.size ≤ later.allocations.size) : later.Names grown operand := by
  cases operand with
  | type type => exact hgrows.has hnames
  | path place => trivial
  | fresh id => exact Nat.lt_of_lt_of_le hnames hsize

namespace Complete

theorem hasTypes (hcomplete : frame.Complete graph) : frame.HasTypes graph where
  slots := hcomplete.slots
  parts id object selector type hobject hpart :=
    hcomplete.parts id object selector (.type type) hobject hpart

theorem mono (hcomplete : frame.Complete graph) (hgrows : graph.Grows grown)
    (hwell : grown.WellFormed) : frame.Complete grown where
  wellFormed := hwell
  slots type hmem := hgrows.has (hcomplete.slots type hmem)
  locals name operand hlocal :=
    (hcomplete.locals name operand hlocal).mono hgrows (Nat.le_refl _)
  parts id object selector operand hobject hpart :=
    (hcomplete.parts id object selector operand hobject hpart).mono hgrows (Nat.le_refl _)

theorem names_part (hcomplete : frame.Complete graph)
    (hlocal : frame.localObject? (.fresh id) = some object)
    (hheld : object.fields.get? selector = some held) : frame.Names graph held := by
  obtain ⟨hobject, -⟩ := localObject?_fresh_iff.mp hlocal
  exact hcomplete.parts id.index object selector held hobject hheld

/-- At all points of bodies the frames are complete. -/
theorem of_stands {shapes : Shapes} {arguments : List TypeId}
    (hstands : shapes.regime.Stands arguments graph frame) : frame.Complete graph where
  wellFormed := hstands.sound.wellFormed
  slots := hstands.sound.hasTypes.slots
  locals name operand hlocal := names_of_rooted (hstands.sound.locals name operand hlocal)
    (hstands.frames.locals name operand hlocal)
  parts id object selector operand hobject hpart :=
    names_of_rooted ((hstands.sound.objects id object hobject).parts selector operand hpart)
      ((hstands.frames.objects id object hobject).parts selector operand hpart).2

end Complete

theorem Refers.names (hrefers : frame.Refers graph operand) : frame.Names graph operand := by
  cases operand with
  | type type => exact hrefers
  | path place => trivial
  | fresh id => exact hrefers

/-- In a founded frame places lead somewhere besides. -/
theorem Founded.complete (hfounded : frame.Founded graph) : frame.Complete graph where
  wellFormed := hfounded.wellFormed
  slots := hfounded.slots
  locals name operand hlocal := (hfounded.locals name operand hlocal).names
  parts id object selector operand hobject hpart :=
    (hfounded.parts id object selector operand hobject hpart).names

theorem Coherent.complete (hcoherent : frame.Coherent graph) : frame.Complete graph :=
  hcoherent.founded.complete

/-- A part of an object without a home that is known is known. -/
theorem Known.part (hknown : frame.Known graph (.fresh id))
    (hlocal : frame.localObject? (.fresh id) = some object)
    (hheld : object.fields.get? selector = some held) : frame.Known graph held := by
  have hstands := hknown.parts id object selector held .refl hlocal hheld
  cases held with
  | type type => trivial
  | path place =>
    rcases hstands with hfound | ⟨other, hother⟩
    · exact hfound
    · simp at hother
  | fresh child =>
    refine ⟨hstands, fun other inner key operand hleads hinner hoperand => ?_⟩
    have hchild : ∃ inner, frame.localObject? (.fresh child) = some inner := by
      rcases hleads.cases_head with rfl | ⟨next, hholds, -⟩
      · exact ⟨inner, hinner⟩
      · exact isLocal_iff.mp hholds.1
    obtain ⟨inner', hinner'⟩ := hchild
    have hholds : frame.Holds id child :=
      holds_iff.mpr ⟨object, inner', selector, hlocal, hheld, hinner'⟩
    exact hknown.parts other inner key operand (.head hholds hleads) hinner hoperand

theorem Known.mono (hknown : frame.Known graph operand) (hgrows : graph.Grows grown)
    (hclosed : graph.Closed) (htypes : frame.HasTypes graph) : frame.Known grown operand := by
  have hstands : ∀ operand, frame.Stands graph operand → frame.Stands grown operand := by
    intro operand hstands
    unfold Stands at hstands ⊢
    rwa [foundType?_eq_of_grows hgrows hclosed htypes]
  cases operand with
  | type type => trivial
  | path place =>
    obtain ⟨type, htype⟩ := hknown
    exact ⟨type, (placeType?_eq_of_grows hgrows hclosed htypes place).trans htype⟩
  | fresh id =>
    exact ⟨hstands _ hknown.stands, fun other object selector operand hleads hobject hoperand =>
      hstands operand (hknown.parts other object selector operand hleads hobject hoperand)⟩

/-! ## Frames that differ in promoted parts -/

/-- Parts that were known by their types have become objects, and no chain of selectors can tell. -/
structure Promotes (frame : Frame) (graph : TypeGraph) (later : Frame) : Prop where
  slots : later.slots = frame.slots
  locals : later.locals = frame.locals
  writes : later.writes = frame.writes
  calls : later.calls = frame.calls
  amends : Amends (fun _ => False) frame later
  complete : later.Complete graph
  ends : ∀ operand, frame.Names graph operand →
    SameEnds frame graph operand later graph operand

namespace Promotes

theorem refl (hcomplete : frame.Complete graph) : frame.Promotes graph frame :=
  ⟨rfl, rfl, rfl, rfl, .refl _ frame, hcomplete, fun operand _ => .refl frame graph operand⟩

theorem names (hpromotes : frame.Promotes graph later) (hnames : frame.Names graph operand) :
    later.Names graph operand := hnames.mono (.refl graph) hpromotes.amends.size_le

theorem trans (hfirst : frame.Promotes graph later) (hsecond : later.Promotes graph last) :
    frame.Promotes graph last where
  slots := hsecond.slots.trans hfirst.slots
  locals := hsecond.locals.trans hfirst.locals
  writes := hsecond.writes.trans hfirst.writes
  calls := hsecond.calls.trans hfirst.calls
  amends := hfirst.amends.trans hsecond.amends
  complete := hsecond.complete
  ends operand hnames := (hfirst.ends operand hnames).trans
    (hsecond.ends operand (hfirst.names hnames))

/-- An object is told as before. -/
theorem resolve_eq (hpromotes : frame.Promotes graph later) (hnames : frame.Names graph operand) :
    later.resolve operand = frame.resolve operand := by
  cases operand with
  | type type => rfl
  | path place => rfl
  | fresh id =>
    obtain ⟨object, hobject⟩ := hnames.exists_object
    obtain ⟨after, hafter, hhome, -⟩ := hpromotes.amends.old id.index object hobject
    have hfirst := resolve_fresh_eq_ok_iff.mpr ⟨object, hobject, rfl⟩
    have hsecond := resolve_fresh_eq_ok_iff.mpr ⟨after, hafter, rfl⟩
    rw [hfirst, hsecond, hhome]

/-- An object without a home is there afterwards, with parts of which some may have been promoted.
-/
theorem exists_object (hpromotes : frame.Promotes graph later)
    (hlocal : frame.localObject? (.fresh id) = some object) :
    ∃ after, later.localObject? (.fresh id) = some after ∧
      ∀ selector, PartAmends (fun _ => False) frame.allocations.size later.allocations.size
        (object.fields.get? selector) (after.fields.get? selector) := by
  obtain ⟨hobject, hnone⟩ := localObject?_fresh_iff.mp hlocal
  obtain ⟨after, hafter, hhome, hparts⟩ := hpromotes.amends.old id.index object hobject
  exact ⟨after, localObject?_fresh_iff.mpr ⟨hafter, hhome.trans hnone⟩, hparts⟩

/-- A part that is told by a place or an object stays. -/
theorem part_eq (hpromotes : frame.Promotes graph later)
    (hlocal : frame.localObject? (.fresh id) = some object)
    (hheld : object.fields.get? selector = some held) (hnot : ∀ type, held ≠ .type type) :
    ∃ after, later.localObject? (.fresh id) = some after ∧
      after.fields.get? selector = some held := by
  obtain ⟨after, hafter, hparts⟩ := hpromotes.exists_object hlocal
  refine ⟨after, hafter, ?_⟩
  have hpart := hparts selector
  rw [hheld] at hpart
  generalize after.fields.get? selector = after? at hpart
  cases hpart with
  | same => rfl
  | expanded => exact absurd rfl (hnot _)
  | mended hmended => exact hmended.elim

/-! ### What is known -/

/-- An object of the later frame has no home and was not there before, or it was there before, with
parts of which some have been promoted. -/
theorem local_cases (hpromotes : frame.Promotes graph later) {after : Allocation}
    (hafter : later.localObject? (.fresh id) = some after) :
    (frame.allocations.size ≤ id.index ∧ ∀ selector held, after.fields.get? selector = some held →
      NewPart frame.allocations.size later.allocations.size held) ∨
    ∃ object, frame.localObject? (.fresh id) = some object ∧
      ∀ selector, PartAmends (fun _ => False) frame.allocations.size later.allocations.size
        (object.fields.get? selector) (after.fields.get? selector) := by
  obtain ⟨hobject, hnone⟩ := localObject?_fresh_iff.mp hafter
  rcases hpromotes.amends.old_or_new hobject with ⟨object, hold, hhome, hparts⟩ | ⟨hnew, -, hparts⟩
  · exact Or.inr ⟨object,
      localObject?_fresh_iff.mpr ⟨hold, hhome.symm.trans hnone⟩, hparts⟩
  · exact Or.inl ⟨Array.getElem?_eq_none_iff.mp hnew, hparts⟩

/-- A new object has no home. -/
theorem exists_new (hpromotes : frame.Promotes graph later)
    (hfirst : frame.allocations.size ≤ id.index) (hbound : id.index < later.allocations.size) :
    ∃ after, later.localObject? (.fresh id) = some after := by
  have hafter := Array.getElem?_eq_getElem hbound
  exact ⟨_, localObject?_fresh_iff.mpr
    ⟨hafter, (hpromotes.amends.new id.index _ hafter hfirst).1⟩⟩

theorem newPart_stands (hpromotes : frame.Promotes graph later)
    (hnew : NewPart frame.allocations.size later.allocations.size held) :
    later.Stands graph held := by
  cases hnew with
  | type type => exact Or.inl ⟨type, rfl⟩
  | fresh hfirst hbound => exact Or.inr (hpromotes.exists_new hfirst hbound)

theorem stands_iff (hpromotes : frame.Promotes graph later) (hnames : frame.Names graph operand) :
    later.Stands graph operand ↔ frame.Stands graph operand := by
  have hplaces : later.placeType? graph = frame.placeType? graph :=
    funext fun place => placeType?_eq_of_slots hpromotes.slots place
  cases operand with
  | type type => simp [Stands, foundType?]
  | path place => simp [Stands, foundType?, hplaces]
  | fresh id =>
    obtain ⟨object, hobject⟩ := hnames.exists_object
    obtain ⟨after, hafter, hhome, -⟩ := hpromotes.amends.old id.index object hobject
    simp only [Stands, foundType?, localObject?, hobject, hafter, hhome, hplaces, Option.bind_some]
    refine or_congr_right ?_
    cases object.home? <;> simp

theorem holds (hpromotes : frame.Promotes graph later) (hholds : frame.Holds id child) :
    later.Holds id child := by
  obtain ⟨object, inner, selector, hobject, hheld, hinner⟩ := holds_iff.mp hholds
  obtain ⟨after, hafter, hpart⟩ := hpromotes.part_eq hobject hheld fun _ heq => nomatch heq
  obtain ⟨inner', hinner', -⟩ := hpromotes.exists_object hinner
  exact holds_iff.mpr ⟨after, inner', selector, hafter, hpart, hinner'⟩

theorem leadsTo (hpromotes : frame.Promotes graph later) {other : AllocId}
    (hleads : frame.LeadsTo id other) : later.LeadsTo id other := by
  induction hleads with
  | refl => exact .refl
  | tail _ hholds ih => exact ih.tail (hpromotes.holds hholds)

/-- What an object leads to afterwards it led to before, or it is new. -/
theorem leadsTo_cases (hpromotes : frame.Promotes graph later) (hcomplete : frame.Complete graph)
    {other : AllocId} (hleads : later.LeadsTo id other) :
    frame.LeadsTo id other ∨ frame.allocations.size ≤ other.index := by
  induction hleads with
  | refl => exact Or.inl .refl
  | @tail middle next _ hholds ih =>
    obtain ⟨after, inner, selector, hafter, hheld, hinner⟩ := holds_iff.mp hholds
    rcases hpromotes.local_cases hafter with ⟨-, hparts⟩ | ⟨object, hobject, hparts⟩
    · cases hparts selector _ hheld with
      | fresh hfirst hbound => exact Or.inr hfirst
    · have hpart := hparts selector
      rw [hheld] at hpart
      generalize hbefore : object.fields.get? selector = before? at hpart
      cases hpart with
      | expanded hfirst hbound => exact Or.inr hfirst
      | mended hmended => exact hmended.elim
      | same =>
        have hnext := hcomplete.names_part hobject hbefore
        rcases hpromotes.local_cases hinner with ⟨hnew, -⟩ | ⟨inner', hinner', -⟩
        · exact Or.inr hnew
        have hmiddle : frame.LeadsTo id middle :=
          ih.resolve_right (Nat.not_le.mpr (lt_size_of_local hobject))
        exact Or.inl (hmiddle.tail
          (holds_iff.mpr ⟨object, inner', selector, hobject, hbefore, hinner'⟩))

/-- What was known is known afterwards, and what was not known is not. -/
theorem known_iff (hpromotes : frame.Promotes graph later) (hcomplete : frame.Complete graph)
    (hnames : frame.Names graph operand) :
    later.Known graph operand ↔ frame.Known graph operand := by
  cases operand with
  | type type => exact Iff.rfl
  | path place => simp only [Known, placeType?_eq_of_slots hpromotes.slots]
  | fresh id =>
    constructor
    · intro hknown
      refine ⟨(hpromotes.stands_iff hnames).mp hknown.stands,
        fun other object selector held hleads hobject hheld => ?_⟩
      by_cases htype : ∃ type, held = .type type
      · obtain ⟨type, rfl⟩ := htype
        exact Or.inl ⟨type, rfl⟩
      · obtain ⟨after, hafter, hheld'⟩ :=
          hpromotes.part_eq hobject hheld fun type heq => htype ⟨type, heq⟩
        exact (hpromotes.stands_iff (hcomplete.names_part hobject hheld)).mp
          (hknown.parts other after selector held (hpromotes.leadsTo hleads) hafter hheld')
    · intro hknown
      refine ⟨(hpromotes.stands_iff hnames).mpr hknown.stands,
        fun other after selector held hleads hafter hheld => ?_⟩
      rcases hpromotes.local_cases hafter with ⟨-, hparts⟩ | ⟨object, hobject, hparts⟩
      · exact hpromotes.newPart_stands (hparts selector held hheld)
      · have hpart := hparts selector
        rw [hheld] at hpart
        generalize hbefore : object.fields.get? selector = before? at hpart
        cases hpart with
        | expanded hfirst hbound => exact Or.inr (hpromotes.exists_new hfirst hbound)
        | mended hmended => exact hmended.elim
        | same =>
          refine (hpromotes.stands_iff (hcomplete.names_part hobject hbefore)).mpr
            (hknown.parts other object selector held ?_ hobject hbefore)
          exact (hpromotes.leadsTo_cases hcomplete hleads).resolve_right
            (Nat.not_le.mpr (lt_size_of_local hobject))

end Promotes

/-! ## A part is promoted -/

/-- The frame in which a part of an object has become an object of its own. -/
def withPart (frame : Frame) (id : AllocId) (selector : Selector) (className : String)
    (types : Fields) : Frame :=
  (frame.allocate { className, fields := types.mapValues .type }).2.update id fun object =>
    { object with fields := object.fields.insert selector (.fresh ⟨frame.allocations.size⟩) }

theorem withPart_getElem?_old {other : Nat}
    (hobject : frame.allocations[other]? = some object) :
    (frame.withPart id selector className types).allocations[other]? =
      some (if id.index = other then
        { object with fields := object.fields.insert selector (.fresh ⟨frame.allocations.size⟩) }
        else object) := by
  have hold := getElem?_allocate hobject { className, fields := types.mapValues .type }
  unfold withPart Frame.update
  rw [Array.getElem?_modify, hold]
  split <;> rfl

theorem withPart_getElem?_new (hid : id.index < frame.allocations.size) :
    (frame.withPart id selector className types).allocations[frame.allocations.size]? =
      some { className, fields := types.mapValues .type } := by
  unfold withPart Frame.update Frame.allocate
  rw [Array.getElem?_modify, if_neg (Nat.ne_of_lt hid), Array.getElem?_push_size]

theorem size_withPart (frame : Frame) (id : AllocId) (selector : Selector) (className : String)
    (types : Fields) :
    (frame.withPart id selector className types).allocations.size = frame.allocations.size + 1 := by
  simp [withPart, Frame.update, Frame.allocate]

/-- The promoted part holds only types. -/
theorem localObject?_withPart (hid : id.index < frame.allocations.size) :
    (frame.withPart id selector className types).localObject? (.fresh ⟨frame.allocations.size⟩) =
      some { className, fields := types.mapValues .type } :=
  localObject?_fresh_iff.mpr ⟨withPart_getElem?_new hid, rfl⟩

/-- The promoted part is what the object holds. -/
theorem exists_withPart (frame : Frame) (selector : Selector) (className : String) (types : Fields)
    (hlocal : frame.localObject? (.fresh id) = some object) :
    ∃ after, (frame.withPart id selector className types).localObject? (.fresh id) = some after ∧
      after.fields.get? selector = some (.fresh ⟨frame.allocations.size⟩) := by
  obtain ⟨hobject, hnone⟩ := localObject?_fresh_iff.mp hlocal
  have hafter : (frame.withPart id selector className types).allocations[id.index]? = some
      { object with fields := object.fields.insert selector (.fresh ⟨frame.allocations.size⟩) } :=
    (withPart_getElem?_old hobject).trans (congrArg some (if_pos rfl))
  exact ⟨_, localObject?_fresh_iff.mpr ⟨hafter, hnone⟩,
    (OrderedMap.get?_insert ..).trans (if_pos rfl)⟩

/-- If the objects are there as before, other than that some parts have become objects that look
like their types, then everything looks as before. -/
theorem sameEnds_of_promoted (hcomplete : frame.Complete graph) (hslots : later.slots = frame.slots)
    (hobjects : ∀ (id : Nat) (object : Allocation), frame.allocations[id]? = some object →
      ∃ after, later.allocations[id]? = some after ∧ after.className = object.className ∧
        after.home? = object.home? ∧
          ∀ selector, after.fields.get? selector = object.fields.get? selector ∨
            ∃ type child, object.fields.get? selector = some (.type type) ∧
              after.fields.get? selector = some (.fresh child) ∧
                ∀ rest, later.endOf? graph (.fresh child) rest = graph.endAt? type rest)
    (hnames : frame.Names graph operand) : SameEnds frame graph operand later graph operand := by
  have hplaces : later.placeType? graph = frame.placeType? graph :=
    funext fun place => placeType?_eq_of_slots hslots place
  intro chain
  induction chain generalizing operand with
  | nil =>
    cases operand with
    | type type => rw [endOf?_type, endOf?_type]
    | path place => rw [endOf?_path, endOf?_path, hplaces]
    | fresh id =>
      obtain ⟨object, hobject⟩ := hnames.exists_object
      obtain ⟨after, hafter, hclass, hhome, -⟩ := hobjects id.index object hobject
      cases hnone : object.home? with
      | none =>
        rw [endOf?_nil_of_local (localObject?_fresh_iff.mpr ⟨hobject, hnone⟩),
          endOf?_nil_of_local (localObject?_fresh_iff.mpr ⟨hafter, hhome.trans hnone⟩),
          hclass]
      | some home =>
        rw [sameEnds_home hobject hnone, sameEnds_home hafter (hhome.trans hnone), endOf?_path,
          endOf?_path, hplaces]
  | cons selector rest ih =>
    cases operand with
    | type type => rw [endOf?_type, endOf?_type]
    | path place => rw [endOf?_path, endOf?_path, hplaces]
    | fresh id =>
      obtain ⟨object, hobject⟩ := hnames.exists_object
      obtain ⟨after, hafter, -, hhome, hparts⟩ := hobjects id.index object hobject
      cases hnone : object.home? with
      | none =>
        rw [endOf?_cons_of_local (localObject?_fresh_iff.mpr ⟨hobject, hnone⟩),
          endOf?_cons_of_local (localObject?_fresh_iff.mpr ⟨hafter, hhome.trans hnone⟩)]
        rcases hparts selector with hsame | ⟨type, child, hbefore, hchild, hends⟩
        · rw [hsame]
          exact Option.bind_congr fun held hheld =>
            ih (hcomplete.parts id.index object selector held hobject hheld)
        · rw [hbefore, hchild, Option.bind_some, Option.bind_some, hends, endOf?_type]
      | some home =>
        rw [sameEnds_home hobject hnone, sameEnds_home hafter (hhome.trans hnone), endOf?_path,
          endOf?_path, hplaces]

/-- A part that is known by its type may become an object. -/
theorem Complete.promotes_withPart (hcomplete : frame.Complete graph)
    (hobject : frame.allocations[id.index]? = some object)
    (hheld : object.fields.get? selector = some (.type type))
    (hnode : graph.node? type = some (.object className types)) :
    frame.Promotes graph (frame.withPart id selector className types) := by
  have hid := (Array.getElem?_eq_some_iff.mp hobject).1
  have hsize := frame.size_withPart id selector className types
  have hle : frame.allocations.size ≤
      (frame.withPart id selector className types).allocations.size := by omega
  have hends : ∀ rest, (frame.withPart id selector className types).endOf? graph
      (.fresh ⟨frame.allocations.size⟩) rest = graph.endAt? type rest :=
    endOf?_of_types (localObject?_withPart hid) hnode
  have hchild : (frame.withPart id selector className types).Names graph
      (.fresh ⟨frame.allocations.size⟩) := names_fresh (withPart_getElem?_new hid)
  have hamends : Amends (fun _ => False) frame (frame.withPart id selector className types) :=
    (Amends.allocate _ frame className types).insert hobject
      (hheld ▸ .expanded (Nat.le_refl _) (by simp [Frame.allocate]))
  refine ⟨rfl, rfl, rfl, rfl, hamends, ⟨hcomplete.wellFormed, hcomplete.slots,
    fun name operand hlocal => (hcomplete.locals name operand hlocal).mono (.refl graph) hle,
    fun other after key operand hafter hoperand => ?_⟩,
    fun operand hnames =>
      sameEnds_of_promoted hcomplete rfl (fun other before hbefore => ?_) hnames⟩
  · rcases hamends.old_or_new hafter with ⟨before, hbefore, -, hparts⟩ | ⟨hnone, -⟩
    · have hpart := hparts key
      rw [hoperand] at hpart
      generalize hfirst : before.fields.get? key = first? at hpart
      cases hpart with
      | same =>
        exact (hcomplete.parts other before key operand hbefore hfirst).mono (.refl graph) hle
      | expanded hfirst hbound => exact hbound
      | mended hmended => exact hmended.elim
    · have hlt := (Array.getElem?_eq_some_iff.mp hafter).1
      have hge := Array.getElem?_eq_none_iff.mp hnone
      obtain rfl : other = frame.allocations.size := by omega
      obtain rfl := Option.some.inj ((withPart_getElem?_new hid).symm.trans hafter)
      rw [OrderedMap.get?_mapValues] at hoperand
      obtain ⟨inner, hinner, rfl⟩ := Option.map_eq_some_iff.mp hoperand
      exact hcomplete.wellFormed.closed hnode hinner
  · refine ⟨_, withPart_getElem?_old hbefore, ?_, ?_, fun key => ?_⟩
    · split <;> rfl
    · split <;> rfl
    · by_cases hother : id.index = other
      · subst hother
        obtain rfl := Option.some.inj (hobject.symm.trans hbefore)
        rw [if_pos rfl, OrderedMap.get?_insert]
        split
        · rename_i hkey
          exact Or.inr ⟨type, _, hkey ▸ hheld, rfl, hends⟩
        · exact Or.inl rfl
      · rw [if_neg hother]
        exact Or.inl rfl

/-! ## Types of operands -/

theorem Complete.exists_typeOf (hcomplete : frame.Complete graph) (declarations : Declarations)
    (span : Span) (hnames : frame.Names graph operand) (hknown : frame.Known graph operand) :
    ∃ type grown, frame.typeOf declarations span operand graph = .ok type grown ∧
      graph.Grows grown ∧ grown.WellFormed ∧ grown.Has type ∧
        ∀ chain, grown.endAt? type chain = frame.endOf? graph operand chain :=
  hknown.exists_typeOf declarations span hcomplete.wellFormed hcomplete.hasTypes
    fun _ heq => hnames.has heq

/-- The operand has types in both frames, and they have the same unfolding, or it has a type in
neither of them. -/
def TypedAlike (declarations : Declarations) (span : Span) (graph : TypeGraph) (frame later : Frame)
    (operand : Operand) : Prop :=
  match frame.typeOf declarations span operand graph,
    later.typeOf declarations span operand graph with
  | .ok first left, .ok second right => SameUnfolding left first right second
  | .error _ _, .error _ _ => True
  | _, _ => False

/-- Promoted parts make no difference to the types of operands. -/
theorem Promotes.typedAlike (hpromotes : frame.Promotes graph later)
    (hcomplete : frame.Complete graph) (declarations : Declarations) (span : Span)
    (hnames : frame.Names graph operand) :
    TypedAlike declarations span graph frame later operand := by
  have hiff := hpromotes.known_iff hcomplete hnames
  have hfails : ∀ {other : Frame}, other.Complete graph → ¬ other.Known graph operand →
      ∃ failure grown, other.typeOf declarations span operand graph = .error failure grown := by
    intro other hother hunknown
    cases hrun : other.typeOf declarations span operand graph with
    | ok type grown =>
      exact absurd (known_of_typeOf hother.wellFormed hother.hasTypes hrun) hunknown
    | error failure grown => exact ⟨failure, grown, rfl⟩
  unfold TypedAlike
  by_cases hknown : frame.Known graph operand
  · obtain ⟨first, left, hfirst, -, hleft, hhas, hends⟩ :=
      hcomplete.exists_typeOf declarations span hnames hknown
    obtain ⟨second, right, hsecond, -, hright, hhas', hends'⟩ :=
      hpromotes.complete.exists_typeOf declarations span (hpromotes.names hnames)
        (hiff.mpr hknown)
    rw [hfirst, hsecond]
    refine (TypeGraph.sameUnfolding_iff_endAt? hleft.closed hright.closed hhas hhas').mpr
      fun chain => ?_
    rw [hends, hends', hpromotes.ends operand hnames]
  · obtain ⟨_, _, hfirst⟩ := hfails hcomplete hknown
    obtain ⟨_, _, hsecond⟩ := hfails hpromotes.complete fun hlater => hknown (hiff.mp hlater)
    rw [hfirst, hsecond]
    trivial

end Frame

end ShapeFlow
