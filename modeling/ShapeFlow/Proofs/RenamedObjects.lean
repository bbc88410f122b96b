import Mathlib.Logic.Equiv.Defs
import ShapeFlow.Proofs.SubstitutedPlaces

/-!
# Objects under other names

An allocated object is named by its number, and the number tells only when the object was made.  Two
frames in which the same objects have been made in another order are the same up to a renaming of
the objects (`Frame.Renames`).  What the locals hold is left out, since reading does not look at it.

To read a part does one of five things (`Frame.Reading`), and none of them looks at a name.  So
what is read in a renamed frame is what is read in the frame, renamed, and the object that a read
makes gets the same name in both (`Frame.Renames.readAlong`).
-/

namespace ShapeFlow

variable {declarations : Declarations} {span : Span} {frame later other last : Frame}
  {graph : TypeGraph} {operand base held resolved : Operand} {id : AllocId} {object : Allocation}
  {selector : Selector} {type part : TypeId} {place : AccessPath}
  {names : Equiv.Perm AllocId}

/-! ## Maps with images for values -/

namespace OrderedMap

variable {κ α β : Type} [DecidableEq κ]

theorem map_insertEntry (f : α → β) (key : κ) (value : α) (entries : List (κ × α)) :
    (insertEntry key value entries).map (fun entry => (entry.1, f entry.2)) =
      insertEntry key (f value) (entries.map fun entry => (entry.1, f entry.2)) := by
  induction entries with
  | nil => rfl
  | cons entry rest ih =>
    rw [insertEntry, List.map_cons, insertEntry]
    split
    · rfl
    · rw [List.map_cons, ih]

theorem mapValues_insert (f : α → β) (map : OrderedMap κ α) (key : κ) (value : α) :
    (map.insert key value).mapValues f = (map.mapValues f).insert key (f value) := by
  simp only [mapValues, insert, map_insertEntry]

theorem insertEntry_comm {first second : κ} (hne : first ≠ second) (value other : α)
    {entries : List (κ × α)} (hfirst : first ∈ entries.map Prod.fst)
    (hsecond : second ∈ entries.map Prod.fst) :
    insertEntry first value (insertEntry second other entries) =
      insertEntry second other (insertEntry first value entries) := by
  induction entries with
  | nil => exact absurd hfirst List.not_mem_nil
  | cons entry rest ih =>
    by_cases hkey : entry.1 = first
    · have hother : entry.1 ≠ second := fun heq => hne (hkey.symm.trans heq)
      simp [insertEntry, hkey, hne]
    · by_cases hother : entry.1 = second
      · simp [insertEntry, hother, hne.symm]
      · have hrest : ∀ {key}, entry.1 ≠ key → key ∈ (entry :: rest).map Prod.fst →
            key ∈ rest.map Prod.fst := fun hkey hmem =>
          (List.mem_cons.mp hmem).resolve_left (Ne.symm hkey)
        simp [insertEntry, hkey, hother, ih (hrest hkey hfirst) (hrest hother hsecond)]

/-- Values under keys that are there may be replaced in any order. -/
theorem insert_comm {first second : κ} (hne : first ≠ second) (value other : α)
    {map : OrderedMap κ α} (hfirst : first ∈ map.keys) (hsecond : second ∈ map.keys) :
    (map.insert second other).insert first value =
      (map.insert first value).insert second other := by
  simp only [insert, insertEntry_comm hne value other hfirst hsecond]

end OrderedMap

/-! ## New names -/

/-- The names with numbers below the bound are kept. -/
def KeepsBelow (bound : Nat) (names : Equiv.Perm AllocId) : Prop :=
  ∀ id : AllocId, id.index < bound → names id = id

theorem KeepsBelow.mono {bound more : Nat} (hkeeps : KeepsBelow more names) (hle : bound ≤ more) :
    KeepsBelow bound names := fun id hid => hkeeps id (Nat.lt_of_lt_of_le hid hle)

theorem KeepsBelow.refl (bound : Nat) : KeepsBelow bound (Equiv.refl AllocId) := fun _ _ => rfl

theorem KeepsBelow.symm {bound : Nat} (hkeeps : KeepsBelow bound names) :
    KeepsBelow bound names.symm := fun id hid => by
  rw [Equiv.symm_apply_eq, hkeeps id hid]

theorem KeepsBelow.trans {bound : Nat} {first second : Equiv.Perm AllocId}
    (hfirst : KeepsBelow bound first) (hsecond : KeepsBelow bound second) :
    KeepsBelow bound (first.trans second) := fun id hid => by
  rw [Equiv.trans_apply, hfirst id hid, hsecond id hid]

/-- The operand that names its object by the new name. -/
def Operand.rename (names : Equiv.Perm AllocId) : Operand → Operand
  | .type type => .type type
  | .path place => .path place
  | .fresh id => .fresh (names id)

/-- The object whose parts name objects by their new names. -/
def Allocation.rename (names : Equiv.Perm AllocId) (object : Allocation) : Allocation :=
  { object with fields := object.fields.mapValues (Operand.rename names) }

namespace Operand

@[simp] theorem rename_type (names : Equiv.Perm AllocId) (type : TypeId) :
    (Operand.type type).rename names = .type type := rfl

@[simp] theorem rename_path (names : Equiv.Perm AllocId) (place : AccessPath) :
    (Operand.path place).rename names = .path place := rfl

@[simp] theorem rename_fresh (names : Equiv.Perm AllocId) (id : AllocId) :
    (Operand.fresh id).rename names = .fresh (names id) := rfl

@[simp] theorem rename_refl (operand : Operand) : operand.rename (Equiv.refl AllocId) = operand :=
  by cases operand <;> rfl

@[simp] theorem rename_trans (first second : Equiv.Perm AllocId) (operand : Operand) :
    operand.rename (first.trans second) = (operand.rename first).rename second := by
  cases operand <;> rfl

@[simp] theorem rename_rename_symm (names : Equiv.Perm AllocId) (operand : Operand) :
    (operand.rename names).rename names.symm = operand := by
  cases operand <;> simp [rename]

@[simp] theorem rename_symm_rename (names : Equiv.Perm AllocId) (operand : Operand) :
    (operand.rename names.symm).rename names = operand := by
  cases operand <;> simp [rename]

theorem rename_eq_type_iff {type : TypeId} :
    operand.rename names = .type type ↔ operand = .type type := by
  cases operand <;> simp [rename]

@[simp] theorem placeWithin?_rename (names : Equiv.Perm AllocId) (base : AccessPath)
    (operand : Operand) : (operand.rename names).placeWithin? base = operand.placeWithin? base := by
  cases operand <;> rfl

end Operand

namespace Allocation

@[simp] theorem get?_rename (names : Equiv.Perm AllocId) (object : Allocation)
    (selector : Selector) : (object.rename names).fields.get? selector =
      (object.fields.get? selector).map (Operand.rename names) :=
  OrderedMap.get?_mapValues _ _ _

@[simp] theorem home?_rename (names : Equiv.Perm AllocId) (object : Allocation) :
    (object.rename names).home? = object.home? := rfl

@[simp] theorem rename_refl (object : Allocation) :
    object.rename (Equiv.refl AllocId) = object := by
  simp [rename, OrderedMap.mapValues]

@[simp] theorem rename_trans (first second : Equiv.Perm AllocId) (object : Allocation) :
    object.rename (first.trans second) = (object.rename first).rename second := by
  simp [rename, OrderedMap.mapValues]

@[simp] theorem rename_rename_symm (names : Equiv.Perm AllocId) (object : Allocation) :
    (object.rename names).rename names.symm = object := by
  rw [← rename_trans, Equiv.self_trans_symm, rename_refl]

/-- What holds types only names no object. -/
theorem rename_of_types (names : Equiv.Perm AllocId) (className : String) (types : Fields) :
    (Allocation.mk className (types.mapValues .type) none).rename names =
      ⟨className, types.mapValues .type, none⟩ := by
  simp [rename, OrderedMap.mapValues]

/-- The object with another operand as one of its parts. -/
def withField (object : Allocation) (selector : Selector) (operand : Operand) : Allocation :=
  { object with fields := object.fields.insert selector operand }

theorem rename_withField (names : Equiv.Perm AllocId) (object : Allocation) (selector : Selector)
    (operand : Operand) : (object.withField selector operand).rename names =
      (object.rename names).withField selector (operand.rename names) := by
  simp only [rename, withField, OrderedMap.mapValues_insert]

theorem withField_comm {first second : Selector} (hne : first ≠ second) {object : Allocation}
    (hfirst : first ∈ object.fields.keys) (hsecond : second ∈ object.fields.keys)
    (operand other : Operand) :
    (object.withField second other).withField first operand =
      (object.withField first operand).withField second other := by
  simp only [withField, OrderedMap.insert_comm hne operand other hfirst hsecond]

/-- What the object with the number `index` is when a part of the object `id` has been bound. -/
def boundAt (id : AllocId) (selector : Selector) (operand : Operand) (index : Nat)
    (object : Allocation) : Allocation :=
  if id.index = index then object.withField selector operand else object

theorem rename_boundAt (names : Equiv.Perm AllocId) (id : AllocId) (selector : Selector)
    (operand : Operand) (index : Nat) (object : Allocation) :
    (boundAt id selector operand index object).rename names =
      boundAt id selector (operand.rename names) index (object.rename names) := by
  unfold boundAt
  split
  · exact rename_withField names object selector operand
  · rfl

end Allocation

namespace Frame

/-! ## The ways to read a part -/

/-- What a read of a part answers, and the frame that it leaves. -/
inductive Reading (frame : Frame) (graph : TypeGraph) (base : Operand) (selector : Selector) :
    Operand → Frame → Prop
  /-- A part of a place is told by its place, or by its type where it is primitive. -/
  | path {place : AccessPath} {type part : TypeId}
      (hresolve : frame.resolve base = .ok (.path place))
      (htype : frame.placeType? graph place = some type)
      (hpart : graph.field? type selector = some part) (hhas : graph.Has part) :
      Reading frame graph base selector
        (if (graph.className? part).isSome then .path (place.child selector) else .type part) frame
  | type {type part : TypeId} (hresolve : frame.resolve base = .ok (.type type))
      (hpart : graph.field? type selector = some part) :
      Reading frame graph base selector (.type part) frame
  | held {id : AllocId} {object : Allocation} {held resolved : Operand}
      (hresolve : frame.resolve base = .ok (.fresh id))
      (hobject : frame.allocations[id.index]? = some object)
      (hheld : object.fields.get? selector = some held) (hnot : ∀ type, held ≠ .type type)
      (hresolved : frame.resolve held = .ok resolved) :
      Reading frame graph base selector resolved frame
  | scalar {id : AllocId} {object : Allocation} {part : TypeId}
      (hresolve : frame.resolve base = .ok (.fresh id))
      (hobject : frame.allocations[id.index]? = some object)
      (hheld : object.fields.get? selector = some (.type part))
      (hnode : graph.node? part = some .scalar) :
      Reading frame graph base selector (.type part) frame
  /-- A part that is known by its type alone becomes an object. -/
  | object {id : AllocId} {object : Allocation} {part : TypeId} {className : String}
      {types : Fields} (hresolve : frame.resolve base = .ok (.fresh id))
      (hobject : frame.allocations[id.index]? = some object)
      (hheld : object.fields.get? selector = some (.type part))
      (hnode : graph.node? part = some (.object className types)) :
      Reading frame graph base selector (.fresh ⟨frame.allocations.size⟩)
        (frame.withPart id selector className types)

theorem Reading.read_eq (hreading : frame.Reading graph base selector operand later)
    (declarations : Declarations) (span : Span) :
    read declarations span graph base selector frame = .ok (operand, later) := by
  cases hreading with
  | path hresolve htype hpart hhas => exact read_of_path hresolve htype hpart hhas
  | type hresolve hpart => exact read_of_type hresolve hpart
  | held hresolve hobject hheld hnot hresolved =>
    exact read_of_held hresolve hobject hheld hnot hresolved
  | scalar hresolve hobject hheld hnode => exact read_of_scalar hresolve hobject hheld hnode
  | object hresolve hobject hheld hnode => exact read_of_object hresolve hobject hheld hnode

/-- In a complete frame there are no other ways to read a part. -/
theorem Complete.reading (hcomplete : frame.Complete graph)
    (hread : read declarations span graph base selector frame = .ok (operand, later)) :
    frame.Reading graph base selector operand later := by
  have hsame : ∀ {found last}, frame.Reading graph base selector found last →
      frame.Reading graph base selector operand later := by
    intro found last hreading
    cases hread.symm.trans (hreading.read_eq declarations span)
    exact hreading
  obtain ⟨resolved, -, hresolve, -, hhas⟩ := exists_isOf_of_read hread
  cases resolved with
  | path place =>
    obtain ⟨type, part, htype, hpart⟩ := hhas
    exact hsame (.path hresolve htype hpart (hcomplete.wellFormed.closed.has_field? hpart))
  | type type =>
    obtain ⟨part, hpart⟩ := hhas
    exact hsame (.type hresolve hpart)
  | fresh id =>
    obtain ⟨object, held, hobject, hheld⟩ := hhas
    have hnames := hcomplete.parts id.index object selector held hobject hheld
    cases held with
    | type part =>
      obtain ⟨node, hnode⟩ := (TypeGraph.has_iff_exists_node graph part).mp hnames
      cases node with
      | scalar => exact hsame (.scalar hresolve hobject hheld hnode)
      | object className types => exact hsame (.object hresolve hobject hheld hnode)
    | path place =>
      exact hsame (.held hresolve hobject hheld (fun _ heq => nomatch heq) rfl)
    | fresh child =>
      obtain ⟨inner, hinner⟩ := hnames.exists_object
      exact hsame (.held hresolve hobject hheld (fun _ heq => nomatch heq)
        (resolve_fresh_eq_ok_iff.mpr ⟨inner, hinner, rfl⟩))

/-! ## Renamed frames -/

/-- The other frame has the same objects under new names.  Numbers that no object has are kept. -/
structure Renames (names : Equiv.Perm AllocId) (frame other : Frame) : Prop where
  slots : other.slots = frame.slots
  writes : other.writes = frame.writes
  calls : other.calls = frame.calls
  size : other.allocations.size = frame.allocations.size
  objects : ∀ id : AllocId, other.allocations[(names id).index]? =
    (frame.allocations[id.index]?).map (Allocation.rename names)
  fixes : ∀ id : AllocId, frame.allocations.size ≤ id.index → names id = id

namespace Renames

theorem refl (frame : Frame) : Renames (Equiv.refl AllocId) frame frame where
  slots := rfl
  writes := rfl
  calls := rfl
  size := rfl
  objects id := by
    rw [Equiv.refl_apply]
    cases frame.allocations[id.index]? <;> simp
  fixes _ _ := rfl

theorem symm (hrenames : Renames names frame other) : Renames names.symm other frame where
  slots := hrenames.slots.symm
  writes := hrenames.writes.symm
  calls := hrenames.calls.symm
  size := hrenames.size.symm
  objects id := by
    have hobject := hrenames.objects (names.symm id)
    rw [Equiv.apply_symm_apply] at hobject
    rw [hobject, Option.map_map]
    cases frame.allocations[(names.symm id).index]? <;> simp
  fixes id hid := by
    rw [Equiv.symm_apply_eq, hrenames.fixes id (hrenames.size ▸ hid)]

theorem trans {first second : Equiv.Perm AllocId} (hfirst : Renames first frame other)
    (hsecond : Renames second other last) : Renames (first.trans second) frame last where
  slots := hsecond.slots.trans hfirst.slots
  writes := hsecond.writes.trans hfirst.writes
  calls := hsecond.calls.trans hfirst.calls
  size := hsecond.size.trans hfirst.size
  objects id := by
    rw [Equiv.trans_apply, hsecond.objects, hfirst.objects, Option.map_map]
    cases frame.allocations[id.index]? <;> simp
  fixes id hid := by
    rw [Equiv.trans_apply, hfirst.fixes id hid, hsecond.fixes id (hfirst.size ▸ hid)]

theorem getElem? (hrenames : Renames names frame other)
    (hobject : frame.allocations[id.index]? = some object) :
    other.allocations[(names id).index]? = some (object.rename names) := by
  rw [hrenames.objects, hobject]
  rfl

/-- What an operand is told by is renamed like the operand. -/
theorem resolve (hrenames : Renames names frame other)
    (hresolve : frame.resolve operand = .ok resolved) :
    other.resolve (operand.rename names) = .ok (resolved.rename names) := by
  cases operand with
  | type type =>
    cases hresolve
    rfl
  | path place =>
    cases hresolve
    rfl
  | fresh id =>
    obtain ⟨object, hobject, rfl⟩ := resolve_fresh_eq_ok_iff.mp hresolve
    refine resolve_fresh_eq_ok_iff.mpr ⟨_, hrenames.getElem? hobject, ?_⟩
    rw [Allocation.home?_rename]
    cases object.home? <;> rfl

end Renames

/-- The objects of a frame in which a part has become an object. -/
theorem withPart_getElem? {className : String} {types : Fields}
    (hid : id.index < frame.allocations.size) (index : Nat) :
    (frame.withPart id selector className types).allocations[index]? =
      if index = frame.allocations.size then some { className, fields := types.mapValues .type }
      else (frame.allocations[index]?).map
        (Allocation.boundAt id selector (.fresh ⟨frame.allocations.size⟩) index) := by
  split
  · rename_i heq
    subst heq
    exact withPart_getElem?_new hid
  · rename_i hne
    cases hobject : frame.allocations[index]? with
    | some object => exact withPart_getElem?_old hobject
    | none =>
      have hle := Array.getElem?_eq_none_iff.mp hobject
      rw [Option.map_none, Array.getElem?_eq_none_iff, size_withPart]
      omega

namespace Renames

theorem lt_size (hrenames : Renames names frame other) (hid : id.index < frame.allocations.size) :
    (names id).index < other.allocations.size := by
  have hobject := hrenames.getElem? (Array.getElem?_eq_getElem hid)
  exact (Array.getElem?_eq_some_iff.mp hobject).1

/-- The next object gets the same name in both frames. -/
theorem names_next (hrenames : Renames names frame other) :
    names ⟨frame.allocations.size⟩ = ⟨other.allocations.size⟩ :=
  (hrenames.fixes ⟨frame.allocations.size⟩ (Nat.le_refl _)).trans
    (congrArg AllocId.mk hrenames.size.symm)

theorem index_eq_size_iff (hrenames : Renames names frame other) (id : AllocId) :
    (names id).index = other.allocations.size ↔ id.index = frame.allocations.size := by
  have hnext : (names id).index = other.allocations.size ↔
      names id = names ⟨frame.allocations.size⟩ := by
    rw [hrenames.names_next, ← AllocId.index_inj]
  rw [hnext, names.apply_eq_iff_eq, ← AllocId.index_inj]

/-- A part becomes an object under the new names as it does under the old ones. -/
theorem withPart {className : String} {types : Fields} (hrenames : Renames names frame other)
    (hid : id.index < frame.allocations.size) :
    Renames names (frame.withPart id selector className types)
      (other.withPart (names id) selector className types) where
  slots := hrenames.slots
  writes := hrenames.writes
  calls := hrenames.calls
  size := by rw [size_withPart, size_withPart, hrenames.size]
  objects held := by
    rw [withPart_getElem? hid, withPart_getElem? (hrenames.lt_size hid)]
    by_cases hnew : held.index = frame.allocations.size
    · rw [if_pos hnew, if_pos ((hrenames.index_eq_size_iff held).mpr hnew), Option.map_some,
        Allocation.rename_of_types]
    · rw [if_neg hnew, if_neg fun heq => hnew ((hrenames.index_eq_size_iff held).mp heq),
        hrenames.objects, Option.map_map, Option.map_map]
      have hindex : (names id).index = (names held).index ↔ id.index = held.index := by
        rw [AllocId.index_inj, AllocId.index_inj, names.apply_eq_iff_eq]
      cases frame.allocations[held.index]? with
      | none => rfl
      | some object =>
        rw [Option.map_some, Option.map_some, Function.comp_apply, Function.comp_apply,
          Allocation.rename_boundAt, Operand.rename_fresh, hrenames.names_next]
        simp only [Allocation.boundAt, hindex]
  fixes held hle := by
    rw [size_withPart] at hle
    exact hrenames.fixes held (by omega)

end Renames

/-- A part is read under the new names as it is under the old ones. -/
theorem Renames.reading (hrenames : Renames names frame other)
    (hreading : frame.Reading graph base selector operand later) :
    ∃ last, other.Reading graph (base.rename names) selector (operand.rename names) last ∧
      Renames names later last := by
  cases hreading with
  | path hresolve htype hpart hhas =>
    refine ⟨other, ?_, hrenames⟩
    have hplace := (placeType?_eq_of_slots hrenames.slots _).trans htype
    have hread := Reading.path (hrenames.resolve hresolve) hplace hpart hhas
    rw [apply_ite (Operand.rename names)]
    exact hread
  | type hresolve hpart => exact ⟨other, .type (hrenames.resolve hresolve) hpart, hrenames⟩
  | held hresolve hobject hheld hnot hresolved =>
    refine ⟨other, .held (hrenames.resolve hresolve) (hrenames.getElem? hobject)
      (by rw [Allocation.get?_rename, hheld]; rfl) (fun type htype => ?_)
      (hrenames.resolve hresolved), hrenames⟩
    exact hnot type (Operand.rename_eq_type_iff.mp htype)
  | scalar hresolve hobject hheld hnode =>
    exact ⟨other, .scalar (hrenames.resolve hresolve) (hrenames.getElem? hobject)
      (by rw [Allocation.get?_rename, hheld]; rfl) hnode, hrenames⟩
  | object hresolve hobject hheld hnode =>
    have hid := (Array.getElem?_eq_some_iff.mp hobject).1
    have hread := Reading.object (hrenames.resolve hresolve) (hrenames.getElem? hobject)
      (by rw [Allocation.get?_rename, hheld]; rfl) hnode
    refine ⟨_, ?_, hrenames.withPart hid⟩
    rw [Operand.rename_fresh, hrenames.names_next]
    exact hread

/-- To read a part does no more than to promote it. -/
theorem Reading.promotes (hreading : frame.Reading graph base selector operand later)
    (hcomplete : frame.Complete graph) : frame.Promotes graph later := by
  cases hreading with
  | object _ hobject hheld hnode => exact hcomplete.promotes_withPart hobject hheld hnode
  | _ => exact .refl hcomplete

/-- What is read along a chain in a renamed frame is what is read in the frame, renamed. -/
theorem Renames.readAlong (hrenames : Renames names frame other) (hcomplete : frame.Complete graph)
    {selectors : List Selector}
    (hread : readAlong declarations span graph base selectors frame = .ok (operand, later)) :
    ∃ last, readAlong declarations span graph (base.rename names) selectors other =
        .ok (operand.rename names, last) ∧ Renames names later last := by
  induction selectors generalizing base frame other with
  | nil =>
    cases hread
    exact ⟨other, rfl, hrenames⟩
  | cons selector rest ih =>
    obtain ⟨inner, middle, hfirst, hrest⟩ := exists_of_readAlong_cons hread
    have hreading := hcomplete.reading hfirst
    obtain ⟨middle', hreading', hmiddle⟩ := hrenames.reading hreading
    obtain ⟨last, hlast, hrenames'⟩ := ih hmiddle (hreading.promotes hcomplete).complete hrest
    exact ⟨last, (readAlong_cons_of_ok (hreading'.read_eq declarations span)).trans hlast,
      hrenames'⟩

end Frame

end ShapeFlow
