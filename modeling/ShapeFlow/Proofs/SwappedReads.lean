import Mathlib.Logic.Equiv.Basic
import ShapeFlow.Proofs.FoundedFrames
import ShapeFlow.Proofs.RenamedObjects

/-!
# Readings in either order

Each read may make an object of a part, so after one reading the next one finds another frame than
it would have found at first.  All that comes of this is that objects get their names in another
order: after either of two readings the other one still succeeds, and the two frames and the answers
are the same up to a renaming of the objects that have been made meanwhile (`Frame.Commute`).

For two single reads this is seen from what they do.  A read that makes no object is repeated
without a difference in every frame in which no more than parts have been promoted; two reads that
promote the same part do the same; and where they promote two parts, the two new objects exchange
their names (`Frame.Complete.swap_withPart`).  Longer readings are put together from single ones
like tiles (`Frame.Commute.append`), since what goes on from renamed frames stays renamed.
-/

namespace ShapeFlow

variable {declarations : Declarations} {span : Span} {frame later other last : Frame}
  {graph : TypeGraph} {operand base base' found : Operand} {id child : AllocId}
  {object : Allocation} {selector selector' : Selector} {chain chain' rest : List Selector}
  {className className' : String} {types types' : Fields} {part part' : TypeId}

namespace Allocation

/-- Two parts that are there may be bound in either order. -/
theorem boundAt_comm {index : Nat} (hne : id = child → selector ≠ selector')
    (hfirst : id.index = index → selector ∈ object.fields.keys)
    (hsecond : child.index = index → selector' ∈ object.fields.keys) (operand base : Operand) :
    boundAt child selector' base index (boundAt id selector operand index object) =
      boundAt id selector operand index (boundAt child selector' base index object) := by
  unfold boundAt
  by_cases hid : id.index = index
  · by_cases hchild : child.index = index
    · have hselectors := hne (AllocId.index_inj.mp (hid.trans hchild.symm))
      rw [if_pos hid, if_pos hid, if_pos hchild, if_pos hchild,
        withField_comm hselectors.symm (hsecond hchild) (hfirst hid)]
    · rw [if_neg hchild, if_neg hchild]
  · rw [if_neg hid, if_neg hid]

/-- An object in which all names are kept stays what it is. -/
theorem rename_eq_self {names : Equiv.Perm AllocId} (hkeeps : ∀ selector operand,
    object.fields.get? selector = some operand → operand.rename names = operand) :
    object.rename names = object := by
  have hentries : object.fields.entries.map (fun entry => (entry.1, entry.2.rename names)) =
      object.fields.entries := by
    refine (List.map_congr_left fun entry hentry => ?_).trans (List.map_id _)
    rw [hkeeps entry.1 entry.2 ((object.fields.get?_eq_some_iff _ _).mpr hentry)]
    rfl
  simp only [rename, OrderedMap.mapValues, hentries]

end Allocation

/-- A name that is there is kept by a renaming that keeps all numbers of the frame. -/
theorem Frame.Names.rename_eq {names : Equiv.Perm AllocId} (hnames : frame.Names graph operand)
    (hkeeps : KeepsBelow frame.allocations.size names) : operand.rename names = operand := by
  cases operand with
  | type type => rfl
  | path place => rfl
  | fresh id => exact congrArg Operand.fresh (hkeeps id hnames)

namespace Frame

/-! ## Two parts become objects -/

/-- The objects of a frame in which two parts have become objects. -/
theorem withPart_withPart_getElem? (hid : id.index < frame.allocations.size)
    (hchild : child.index < frame.allocations.size) (index : Nat) :
    ((frame.withPart id selector className types).withPart child selector' className'
        types').allocations[index]? =
      if index = frame.allocations.size + 1 then
        some { className := className', fields := types'.mapValues .type }
      else if index = frame.allocations.size then
        some { className, fields := types.mapValues .type }
      else (frame.allocations[index]?).map fun object =>
        Allocation.boundAt child selector' (.fresh ⟨frame.allocations.size + 1⟩) index
          (Allocation.boundAt id selector (.fresh ⟨frame.allocations.size⟩) index object) := by
  have hlt : child.index < (frame.withPart id selector className types).allocations.size := by
    rw [size_withPart]
    omega
  rw [withPart_getElem? hlt, withPart_getElem? hid, size_withPart]
  by_cases hlast : index = frame.allocations.size + 1
  · rw [if_pos hlast, if_pos hlast]
  · rw [if_neg hlast, if_neg hlast]
    by_cases hnew : index = frame.allocations.size
    · rw [if_pos hnew, if_pos hnew, Option.map_some, Allocation.boundAt, if_neg (by omega)]
    · rw [if_neg hnew, if_neg hnew, Option.map_map]
      rfl

/-- The renaming by which the next two objects exchange their names. -/
def exchange (frame : Frame) : Equiv.Perm AllocId :=
  Equiv.swap ⟨frame.allocations.size⟩ ⟨frame.allocations.size + 1⟩

theorem exchange_first (frame : Frame) : frame.exchange ⟨frame.allocations.size⟩ =
    ⟨frame.allocations.size + 1⟩ := Equiv.swap_apply_left ..

theorem exchange_second (frame : Frame) : frame.exchange ⟨frame.allocations.size + 1⟩ =
    ⟨frame.allocations.size⟩ := Equiv.swap_apply_right ..

theorem exchange_of_ne (hfirst : id.index ≠ frame.allocations.size)
    (hsecond : id.index ≠ frame.allocations.size + 1) : frame.exchange id = id :=
  Equiv.swap_apply_of_ne_of_ne (fun heq => hfirst (congrArg AllocId.index heq))
    fun heq => hsecond (congrArg AllocId.index heq)

section Swapping

variable {object' : Allocation} (hcomplete : frame.Complete graph)
  (hobject : frame.allocations[id.index]? = some object)
  (hheld : object.fields.get? selector = some (.type part))
  (hobject' : frame.allocations[child.index]? = some object')
  (hheld' : object'.fields.get? selector' = some (.type part'))
  (hne : id = child → selector ≠ selector')

include hcomplete hobject hheld hobject' hheld' hne

/-- An object of which parts have become objects in one order is, under the exchanged names, what it
is when they have become objects in the other. -/
theorem Complete.rename_boundAt {index : Nat} {before : Allocation}
    (hbefore : frame.allocations[index]? = some before) :
    (Allocation.boundAt child selector' (.fresh ⟨frame.allocations.size + 1⟩) index
        (Allocation.boundAt id selector (.fresh ⟨frame.allocations.size⟩) index before)).rename
          frame.exchange =
      Allocation.boundAt id selector (.fresh ⟨frame.allocations.size + 1⟩) index
        (Allocation.boundAt child selector' (.fresh ⟨frame.allocations.size⟩) index before) := by
  have hself : before.rename frame.exchange = before := Allocation.rename_eq_self
    fun key operand hoperand =>
      (hcomplete.parts index before key operand hbefore hoperand).rename_eq
        fun id hlt => exchange_of_ne (by omega) (by omega)
  have hkey : id.index = index → selector ∈ before.fields.keys := by
    rintro heq
    obtain rfl := Option.some.inj (hobject.symm.trans (heq ▸ hbefore))
    exact (object.fields.mem_keys_iff selector).mpr ⟨_, hheld⟩
  have hkey' : child.index = index → selector' ∈ before.fields.keys := by
    rintro heq
    obtain rfl := Option.some.inj (hobject'.symm.trans (heq ▸ hbefore))
    exact (object'.fields.mem_keys_iff selector').mpr ⟨_, hheld'⟩
  rw [Allocation.rename_boundAt, Allocation.rename_boundAt, hself, Operand.rename_fresh,
    Operand.rename_fresh, exchange_first, exchange_second, Allocation.boundAt_comm hne hkey hkey']

/-- If two parts become objects in either order, then the two objects exchange their names. -/
theorem Complete.swap_withPart : Renames frame.exchange
    ((frame.withPart id selector className types).withPart child selector' className' types')
    ((frame.withPart child selector' className' types').withPart id selector className types) := by
  have hid := (Array.getElem?_eq_some_iff.mp hobject).1
  have hchild := (Array.getElem?_eq_some_iff.mp hobject').1
  refine ⟨rfl, rfl, rfl, by simp only [size_withPart], fun held => ?_, fun held hle => ?_⟩
  · rw [withPart_withPart_getElem? hid hchild, withPart_withPart_getElem? hchild hid]
    by_cases hfirst : held.index = frame.allocations.size
    · obtain rfl : held = ⟨frame.allocations.size⟩ := AllocId.index_inj.mp hfirst
      rw [exchange_first, if_pos rfl, if_neg (Nat.ne_of_lt (Nat.lt_succ_self _)), if_pos rfl,
        Option.map_some, Allocation.rename_of_types]
    by_cases hsecond : held.index = frame.allocations.size + 1
    · obtain rfl : held = ⟨frame.allocations.size + 1⟩ := AllocId.index_inj.mp hsecond
      rw [exchange_second, if_pos rfl, if_neg (Nat.ne_of_lt (Nat.lt_succ_self _)), if_pos rfl,
        Option.map_some, Allocation.rename_of_types]
    rw [exchange_of_ne hfirst hsecond, if_neg hsecond, if_neg hfirst, if_neg hsecond,
      if_neg hfirst, Option.map_map]
    refine Option.map_congr fun before hbefore => ?_
    exact (hcomplete.rename_boundAt hobject hheld hobject' hheld' hne hbefore).symm
  · rw [size_withPart, size_withPart] at hle
    exact exchange_of_ne (by omega) (by omega)

end Swapping

/-! ## Readings that commute -/

/-- After either of two readings that succeed, the other one succeeds as well.  Up to a renaming of
the objects that have been made meanwhile, the frames are then the same and so are the answers. -/
def Commute (declarations : Declarations) (span : Span) (graph : TypeGraph) (frame : Frame)
    (base : Operand) (chain : List Selector) (base' : Operand) (chain' : List Selector) : Prop :=
  ∀ found left found' right,
    readAlong declarations span graph base chain frame = .ok (found, left) →
      readAlong declarations span graph base' chain' frame = .ok (found', right) →
        ∃ names again after before,
          readAlong declarations span graph base' chain' left = .ok (again, after) ∧
            readAlong declarations span graph base chain right =
                .ok (found.rename names, before) ∧
              again.rename names = found' ∧ Renames names after before ∧
                KeepsBelow frame.allocations.size names

theorem readAlong_singleton : readAlong declarations span graph base [selector] frame =
    read declarations span graph base selector frame := by
  unfold readAlong
  rw [List.foldlM_cons]
  simp only [List.foldlM_nil, bind_pure]

theorem readAlong_append (first second : List Selector) :
    readAlong declarations span graph base (first ++ second) =
      readAlong declarations span graph base first >>= fun operand =>
        readAlong declarations span graph operand second := by
  unfold readAlong
  rw [List.foldlM_append]

theorem readAlong_append_of_ok {first second : List Selector}
    (hread : readAlong declarations span graph base first frame = .ok (operand, later)) :
    readAlong declarations span graph base (first ++ second) frame =
      readAlong declarations span graph operand second later := by
  rw [readAlong_append]
  simp only [bind, StateT.bind, hread, Except.bind]

theorem exists_of_readAlong_append {first second : List Selector} {result : Operand × Frame}
    (hread : readAlong declarations span graph base (first ++ second) frame = .ok result) :
    ∃ operand middle, readAlong declarations span graph base first frame = .ok (operand, middle) ∧
      readAlong declarations span graph operand second middle = .ok result := by
  cases hfirst : readAlong declarations span graph base first frame with
  | error failure =>
    rw [readAlong_append] at hread
    simp [bind, StateT.bind, hfirst, Except.bind] at hread
  | ok found => exact ⟨found.1, found.2, rfl, (readAlong_append_of_ok hfirst).symm.trans hread⟩

/-- A reading that has succeeded has promoted parts, and can be repeated. -/
theorem Founded.reaches (hfounded : frame.Founded graph) (hbase : frame.Refers graph base)
    (hread : readAlong declarations span graph base chain frame = .ok (operand, later)) :
    frame.Reaches graph (readAlong declarations span graph base chain)
      (fun rest => frame.endOf? graph base (chain ++ rest)) operand later := by
  rcases hfounded.complete.readAlong_tracks hbase.names (hfounded.known hbase) declarations span
    chain with ⟨found, last, hagain, hreaches⟩ | ⟨⟨failure, hfails⟩, -⟩
  · cases hread.symm.trans hagain
    exact hreaches
  · exact nomatch hread.symm.trans hfails

namespace Commute

theorem symm (hcommute : Commute declarations span graph frame base chain base' chain') :
    Commute declarations span graph frame base' chain' base chain := by
  intro found left found' right hread hread'
  obtain ⟨names, again, after, before, hafter, hbefore, rfl, hrenames, hkeeps⟩ :=
    hcommute found' right found left hread' hread
  refine ⟨names.symm, _, before, after, hbefore, ?_, Operand.rename_rename_symm names found',
    hrenames.symm, hkeeps.symm⟩
  rw [Operand.rename_rename_symm]
  exact hafter

theorem nil (frame : Frame) (base : Operand) (chain : List Selector) (base' : Operand) :
    Commute declarations span graph frame base chain base' [] := by
  intro found left found' right hread hread'
  cases hread'
  refine ⟨Equiv.refl AllocId, base', left, left, rfl, ?_, Operand.rename_refl base', .refl left,
    .refl _⟩
  rw [Operand.rename_refl]
  exact hread

/-- The second reading may be put together from two, each of which commutes with the first. -/
theorem append (first second : List Selector) (hfounded : frame.Founded graph)
    (hbase : frame.Refers graph base) (hbase' : frame.Refers graph base')
    (hfirst : Commute declarations span graph frame base chain base' first)
    (hsecond : ∀ operand middle,
      readAlong declarations span graph base' first frame = .ok (operand, middle) →
        Commute declarations span graph middle base chain operand second) :
    Commute declarations span graph frame base chain base' (first ++ second) := by
  intro found left found' right hread hread'
  obtain ⟨operand, middle, hstart, hrest⟩ := exists_of_readAlong_append hread'
  have hmiddle := hfounded.reaches hbase' hstart
  have hfounded' := hfounded.promotes hmiddle.promotes
  obtain ⟨names, again, after, before, hafter, hbefore, rfl, hrenames, hkeeps⟩ :=
    hfirst found left operand middle hread hstart
  obtain ⟨names', again', after', before', hafter', hbefore', hanswer, hrenames', hkeeps'⟩ :=
    hsecond _ middle hstart _ before found' right hbefore hrest
  -- What goes on in the frame before goes on in the frame after, under the old names.
  have hcomplete : before.Complete graph :=
    (hfounded'.founded.reaches (hfounded'.refers base hbase) hbefore).promotes.complete
  obtain ⟨last, hlast, hrenamed⟩ := hrenames.symm.readAlong hcomplete hafter'
  rw [Operand.rename_rename_symm] at hlast
  refine ⟨names.trans names', _, last, before', (readAlong_append_of_ok hafter).trans hlast, ?_, ?_,
    hrenamed.symm.trans hrenames', hkeeps.trans (hkeeps'.mono hmiddle.promotes.amends.size_le)⟩
  · rw [Operand.rename_trans]
    exact hbefore'
  · rw [Operand.rename_trans, Operand.rename_symm_rename, hanswer]

end Commute

/-- A read leaves the frame as it is, or it makes an object of a part. -/
theorem Reading.cases_frame (hreading : frame.Reading graph base selector operand later) :
    later = frame ∨ ∃ id object part className types,
      frame.resolve base = .ok (.fresh id) ∧ frame.allocations[id.index]? = some object ∧
        object.fields.get? selector = some (.type part) ∧
          graph.node? part = some (.object className types) ∧
            operand = .fresh ⟨frame.allocations.size⟩ ∧
              later = frame.withPart id selector className types := by
  cases hreading with
  | object hresolve hobject hheld hnode =>
    exact Or.inr ⟨_, _, _, _, _, hresolve, hobject, hheld, hnode, rfl, rfl⟩
  | _ => exact Or.inl rfl

/-- A part that is known by its type becomes an object once another one has. -/
theorem Promotes.reading_object {object' : Allocation}
    (hpromotes : frame.Promotes graph (frame.withPart id selector className types))
    (hnames : frame.Names graph base') (hresolve : frame.resolve base' = .ok (.fresh child))
    (hobject : frame.allocations[child.index]? = some object')
    (hheld : object'.fields.get? selector' = some (.type part'))
    (hnode : graph.node? part' = some (.object className' types'))
    (hne : id = child → selector ≠ selector') :
    (frame.withPart id selector className types).Reading graph base' selector'
      (.fresh ⟨frame.allocations.size + 1⟩)
        ((frame.withPart id selector className types).withPart child selector' className'
          types') := by
  have hafter : (frame.withPart id selector className types).allocations[child.index]? = _ :=
    withPart_getElem?_old hobject
  have hresolve' := (hpromotes.resolve_eq hnames).trans hresolve
  have hreading : Reading _ graph base' selector' _ _ := .object hresolve' hafter ?_ hnode
  · rwa [size_withPart] at hreading
  · split
    · rename_i heq
      rw [OrderedMap.get?_insert, if_neg fun hkey => hne (AllocId.index_inj.mp heq) hkey.symm]
      exact hheld
    · exact hheld

section Commuting

variable (hfounded : frame.Founded graph) (hbase : frame.Refers graph base)
  (hbase' : frame.Refers graph base')

include hfounded hbase hbase'

/-- Two reads of which one leaves the frame as it is. -/
theorem Founded.commute_of_still
    (hstill : readAlong declarations span graph base' chain' frame = .ok (operand, frame)) :
    Commute declarations span graph frame base chain base' chain' := by
  intro found left found' right hread hread'
  cases hread'.symm.trans hstill
  have hleft := hfounded.reaches hbase hread
  have hright := hfounded.reaches hbase' hread'
  refine ⟨Equiv.refl AllocId, operand, left, left, hright.again left hleft.promotes, ?_,
    Operand.rename_refl operand, .refl left, .refl _⟩
  rw [Operand.rename_refl]
  exact hread

/-- Two reads commute. -/
theorem Founded.commute_read (declarations : Declarations) (span : Span)
    (selector selector' : Selector) :
    Commute declarations span graph frame base [selector] base' [selector'] := by
  intro found left found' right hread hread'
  have hleft := hfounded.reaches hbase hread
  have hright := hfounded.reaches hbase' hread'
  have hreading := hfounded.complete.reading (readAlong_singleton.symm.trans hread)
  have hreading' := hfounded.complete.reading (readAlong_singleton.symm.trans hread')
  rcases hreading.cases_frame with rfl | ⟨id, object, part, className, types, hresolve, hobject,
    hheld, hnode, rfl, rfl⟩
  · exact (hfounded.commute_of_still hbase' hbase hread).symm found _ found' right hread hread'
  rcases hreading'.cases_frame with rfl | ⟨id', object', part', className', types', hresolve',
    hobject', hheld', hnode', rfl, rfl⟩
  · exact hfounded.commute_of_still hbase hbase' hread' _ _ found' _ hread hread'
  by_cases hsame : id = id' ∧ selector = selector'
  · -- The part has become an object with the first read, and this is what the second one finds.
    obtain ⟨rfl, rfl⟩ := hsame
    obtain rfl := Option.some.inj (hobject.symm.trans hobject')
    obtain rfl := Operand.type.inj (Option.some.inj (hheld.symm.trans hheld'))
    cases hnode.symm.trans hnode'
    exact ⟨Equiv.refl AllocId, _, _, _, hright.again _ (.refl hright.promotes.complete),
      hleft.again _ (.refl hleft.promotes.complete), rfl, .refl _, .refl _⟩
  · have hne : id = id' → selector ≠ selector' := fun hid hselector => hsame ⟨hid, hselector⟩
    have hne' : id' = id → selector' ≠ selector := fun hid hselector =>
      hsame ⟨hid.symm, hselector.symm⟩
    have hafter :=
      hleft.promotes.reading_object hbase'.names hresolve' hobject' hheld' hnode' hne
    have hbefore := hright.promotes.reading_object hbase.names hresolve hobject hheld hnode hne'
    refine ⟨frame.exchange, _, _, _,
      readAlong_singleton.trans (hafter.read_eq declarations span), ?_, ?_,
      hfounded.complete.swap_withPart hobject hheld hobject' hheld' hne,
      fun id hid => exchange_of_ne (by omega) (by omega)⟩
    · rw [Operand.rename_fresh, exchange_first]
      exact readAlong_singleton.trans (hbefore.read_eq declarations span)
    · rw [Operand.rename_fresh, exchange_second]

/-- Two reads along chains commute. -/
theorem Founded.commute_readAlong (declarations : Declarations) (span : Span)
    (chain chain' : List Selector) :
    Commute declarations span graph frame base chain base' chain' := by
  have hsingle : ∀ {frame : Frame} {base base' : Operand}, frame.Founded graph →
      frame.Refers graph base → frame.Refers graph base' → ∀ selector,
        Commute declarations span graph frame base [selector] base' chain' := by
    induction chain' with
    | nil => exact fun _ _ _ selector => .nil _ _ _ _
    | cons selector' rest ih =>
      intro frame base base' hfounded hbase hbase' selector
      refine .append [selector'] rest hfounded hbase hbase'
        (hfounded.commute_read hbase hbase' declarations span selector selector')
        fun operand middle hread => ?_
      have hreaches := hfounded.reaches hbase' hread
      have hmiddle := hfounded.promotes hreaches.promotes
      exact ih hmiddle.founded (hmiddle.refers base hbase) hreaches.refers selector
  induction chain generalizing frame base with
  | nil => exact (Commute.nil frame base' chain' base).symm
  | cons selector rest ih =>
    refine (Commute.append [selector] rest hfounded hbase' hbase
      (hsingle hfounded hbase hbase' selector).symm fun operand middle hread => ?_).symm
    have hreaches := hfounded.reaches hbase hread
    have hmiddle := hfounded.promotes hreaches.promotes
    exact (ih hmiddle.founded hreaches.refers (hmiddle.refers base' hbase')).symm

end Commuting

end Frame

end ShapeFlow
