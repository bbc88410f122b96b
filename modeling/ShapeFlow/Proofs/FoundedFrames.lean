import ShapeFlow.Proofs.SubstitutedPlaces

/-!
# Frames that lead as far as before

In a `Founded` frame every place leads somewhere, that of a home too, but what is found at the home
of an object need not have the class of the object.  If such an object gives up its home, it shows
another class than before.  What stays the same is which chains of selectors can be followed
(`Frame.leads`), and that is all that a reading needs to succeed (`Frame.Founded.exists_readAlong`).

A frame is rearranged, in the sense of this module, if every operand leads as far as it did
(`Frame.Rearranges`).  The ways to rearrange a frame are those by which coherent frames are restated
(`Frame.Restates`).  They are told again because the condition on what is left is weaker here, and
so is what is concluded.
-/

namespace ShapeFlow

variable {declarations : Declarations} {span : Span} {frame later last : Frame}
  {graph grown final : TypeGraph} {operand held : Operand} {id : AllocId} {object : Allocation}
  {fields : OrderedMap Selector Operand} {selector : Selector} {base place : AccessPath}

namespace Frame

/-! ## How far an operand leads -/

/-- Whether a chain of selectors can be followed from an operand. -/
def leads (frame : Frame) (graph : TypeGraph) (operand : Operand) (chain : List Selector) : Bool :=
  (frame.endOf? graph operand chain).isSome

theorem Founded.leads_nil (hfounded : frame.Founded graph) (hrefers : frame.Refers graph operand) :
    frame.leads graph operand [] = true := hfounded.isSome_endOf? hrefers

theorem leads_of_local (hlocal : frame.localObject? operand = some object) (selector : Selector)
    (rest : List Selector) : frame.leads graph operand (selector :: rest) =
      (object.fields.get? selector).any fun held => frame.leads graph held rest := by
  rw [leads, endOf?_cons_of_local hlocal, Option.isSome_bind]
  rfl

theorem leads_append (frame : Frame) (graph : TypeGraph) (place : AccessPath)
    (selectors chain : List Selector) :
    frame.leads graph (.path (place.append selectors)) chain =
      frame.leads graph (.path place) (selectors ++ chain) := by
  rw [leads, endOf?_append, leads]

theorem leads_child (frame : Frame) (graph : TypeGraph) (place : AccessPath) (selector : Selector)
    (chain : List Selector) : frame.leads graph (.path (place.child selector)) chain =
      frame.leads graph (.path place) (selector :: chain) :=
  frame.leads_append graph place [selector] chain

theorem SameEnds.leads_eq {other : Operand}
    (hsame : SameEnds frame graph operand later grown other) (chain : List Selector) :
    frame.leads graph operand chain = later.leads grown other chain :=
  congrArg Option.isSome (hsame chain)

/-- The parts lead as far as those of the operand, and there are no others. -/
structure Spells (frame : Frame) (graph : TypeGraph) (fields : OrderedMap Selector Operand)
    (operand : Operand) : Prop where
  refers : ∀ selector held, fields.get? selector = some held → frame.Refers graph held
  leads : ∀ selector rest, ((fields.get? selector).any fun held => frame.leads graph held rest) =
    frame.leads graph operand (selector :: rest)

theorem Founded.spells (hfounded : frame.Founded graph)
    (hlocal : frame.localObject? (.fresh id) = some object) :
    frame.Spells graph object.fields (.fresh id) where
  refers selector held hheld :=
    hfounded.parts id.index object selector held (localObject?_fresh_iff.mp hlocal).1 hheld
  leads selector rest := (leads_of_local hlocal selector rest).symm

/-- A part may be replaced by an operand that leads as far. -/
theorem Spells.insert (hspells : frame.Spells graph fields operand)
    (hheld : frame.Refers graph held)
    (hleads : ∀ rest, frame.leads graph held rest =
      frame.leads graph operand (selector :: rest)) :
    frame.Spells graph (fields.insert selector held) operand where
  refers key found hfound := by
    rw [OrderedMap.get?_insert] at hfound
    split at hfound
    · obtain rfl := Option.some.inj hfound
      exact hheld
    · exact hspells.refers key found hfound
  leads key rest := by
    rw [OrderedMap.get?_insert]
    split
    · rename_i hkey
      subst hkey
      exact hleads rest
    · exact hspells.leads key rest

/-- In the later frame the object has parts that lead as far as it does in the earlier one, or it is
found at the type at which it was found. -/
def SpeltAt (frame : Frame) (graph : TypeGraph) (later : Frame) (id : AllocId) : Prop :=
  (∃ after, later.localObject? (.fresh id) = some after ∧
    frame.Spells graph after.fields (.fresh id)) ∨
  later.localObject? (.fresh id) = none ∧ frame.localObject? (.fresh id) = none ∧
    later.foundType? graph (.fresh id) = frame.foundType? graph (.fresh id)

/-- If each object is left alone or spelt out, then every operand leads as far as it did. -/
theorem Founded.leads_of_spelt (hfounded : frame.Founded graph) (hslots : later.slots = frame.slots)
    (hobjects : ∀ id, frame.Refers graph (.fresh id) → frame.SpeltAt graph later id)
    (hrefers : frame.Refers graph operand) (chain : List Selector) :
    later.leads graph operand chain = frame.leads graph operand chain := by
  induction chain generalizing operand with
  | nil =>
    rw [hfounded.leads_nil hrefers]
    cases operand with
    | type held => rw [leads, endOf?_type]; rfl
    | path place =>
      rw [leads, endOf?_path, placeType?_eq_of_slots hslots, ← endOf?_path]
      exact hfounded.leads_nil hrefers
    | fresh id =>
      rcases hobjects id hrefers with ⟨after, hlocal, -⟩ | ⟨hnone, hnone', hfound⟩
      · rw [leads, endOf?_nil_of_local hlocal]
        rfl
      · rw [leads, endOf?_of_not_local hnone, hfound, ← endOf?_of_not_local hnone']
        exact hfounded.leads_nil hrefers
  | cons selector rest ih =>
    cases operand with
    | type held => rw [leads, leads, endOf?_type, endOf?_type]
    | path place => rw [leads, leads, endOf?_path, endOf?_path, placeType?_eq_of_slots hslots]
    | fresh id =>
      rcases hobjects id hrefers with ⟨after, hlocal, hspells⟩ | ⟨hnone, hnone', hfound⟩
      · rw [← hspells.leads, leads_of_local hlocal]
        cases hheld : after.fields.get? selector with
        | none => rfl
        | some held => exact ih (hspells.refers selector held hheld)
      · rw [leads, leads, endOf?_of_not_local hnone, endOf?_of_not_local hnone', hfound]

/-- An object that stays as it is is spelt out. -/
theorem Founded.speltAt_of_eq (hfounded : frame.Founded graph) (hslots : later.slots = frame.slots)
    (hsame : later.allocations[id.index]? = frame.allocations[id.index]?) :
    frame.SpeltAt graph later id := by
  have hlocal : later.localObject? (.fresh id) = frame.localObject? (.fresh id) := by
    simp only [localObject?, hsame]
  cases hheld : frame.localObject? (.fresh id) with
  | none =>
    refine Or.inr ⟨hlocal.trans hheld, hheld, ?_⟩
    simp only [foundType?, hsame, funext (placeType?_eq_of_slots hslots)]
  | some held => exact Or.inl ⟨held, hlocal.trans hheld, hfounded.spells hheld⟩

/-! ## Rearranged frames -/

/-- Every operand is still there and leads as far as it did. -/
structure Rearranges (frame : Frame) (graph : TypeGraph) (later : Frame) (grown : TypeGraph) :
    Prop where
  founded : later.Founded grown
  slots : later.slots = frame.slots
  refers : ∀ operand, frame.Refers graph operand → later.Refers grown operand
  leads : ∀ operand, frame.Refers graph operand → ∀ chain,
    later.leads grown operand chain = frame.leads graph operand chain

namespace Rearranges

/-- Types are added, and nothing else happens. -/
theorem of_grows (hfounded : frame.Founded graph) (hgrows : graph.Grows grown)
    (hwell : grown.WellFormed) : frame.Rearranges graph frame grown := by
  have hclosed := hfounded.wellFormed.closed
  have hrefers : ∀ operand, frame.Refers graph operand → frame.Refers grown operand :=
    fun operand hoperand => hoperand.grow hgrows hclosed hfounded.hasTypes
  refine ⟨⟨hwell, fun type hmem => hgrows.has (hfounded.slots type hmem),
    fun name operand hlocal => hrefers _ (hfounded.locals name operand hlocal),
    fun id object selector operand hobject hpart =>
      hrefers _ (hfounded.parts id object selector operand hobject hpart),
    fun id object home hobject hhome => hrefers _ (hfounded.homes id object home hobject hhome)⟩,
    rfl, hrefers, fun operand hoperand chain => ?_⟩
  have hends := endOf?_eq_of_grows hgrows hclosed hfounded.hasTypes
    (fun _ heq => hoperand.names.has heq) chain
  rw [Frame.leads, Frame.leads, hends]

theorem refl (hfounded : frame.Founded graph) : frame.Rearranges graph frame graph :=
  of_grows hfounded (.refl graph) hfounded.wellFormed

theorem trans (hfirst : frame.Rearranges graph later grown)
    (hsecond : later.Rearranges grown last final) : frame.Rearranges graph last final where
  founded := hsecond.founded
  slots := hsecond.slots.trans hfirst.slots
  refers operand hoperand := hsecond.refers operand (hfirst.refers operand hoperand)
  leads operand hoperand chain :=
    (hsecond.leads operand (hfirst.refers operand hoperand) chain).trans
      (hfirst.leads operand hoperand chain)

/-- No object is lost. -/
theorem size_le (hrearranges : frame.Rearranges graph later grown) :
    frame.allocations.size ≤ later.allocations.size := by
  by_contra hlt
  have hrefers := hrearranges.refers (.fresh ⟨later.allocations.size⟩) (Nat.not_le.mp hlt)
  exact Nat.lt_irrefl later.allocations.size hrefers

/-- Parts that spell out an operand still do so. -/
theorem spells (hrearranges : frame.Rearranges graph later grown)
    (hoperand : frame.Refers graph operand) (hspells : frame.Spells graph fields operand) :
    later.Spells grown fields operand where
  refers selector held hheld := hrearranges.refers held (hspells.refers selector held hheld)
  leads selector rest := by
    rw [hrearranges.leads operand hoperand, ← hspells.leads]
    cases hheld : fields.get? selector with
    | none => rfl
    | some held => exact hrearranges.leads held (hspells.refers selector held hheld) rest

end Rearranges

/-- The operand leads as far as the place did. -/
structure StandsIn (frame : Frame) (graph : TypeGraph) (place : AccessPath) (later : Frame)
    (grown : TypeGraph) (operand : Operand) : Prop where
  refers : later.Refers grown operand
  leads : ∀ chain, later.leads grown operand chain = frame.leads graph (.path place) chain

theorem StandsIn.trans (hstands : frame.StandsIn graph place later grown operand)
    (hrearranges : later.Rearranges grown last final) :
    frame.StandsIn graph place last final operand where
  refers := hrearranges.refers operand hstands.refers
  leads chain := (hrearranges.leads operand hstands.refers chain).trans (hstands.leads chain)

/-- What stands in for a place in a later frame does so from the start. -/
theorem StandsIn.from_start (hrearranges : frame.Rearranges graph later grown)
    (hplace : frame.Refers graph (.path place))
    (hstands : later.StandsIn grown place last final operand) :
    frame.StandsIn graph place last final operand where
  refers := hstands.refers
  leads chain := (hstands.leads chain).trans (hrearranges.leads _ hplace chain)

/-- What stands in for a place of the frame before stands in for that of the frame now. -/
theorem StandsIn.now (hstands : frame.StandsIn graph place later grown operand)
    (hrearranges : frame.Rearranges graph later grown) (hplace : frame.Refers graph (.path place)) :
    later.StandsIn grown place later grown operand where
  refers := hstands.refers
  leads chain := (hstands.leads chain).trans (hrearranges.leads _ hplace chain).symm

/-! ## Steps that rearrange a frame -/

namespace Founded

theorem setLocal (hfounded : frame.Founded graph) (name : String)
    (hoperand : frame.Refers graph operand) :
    frame.Rearranges graph (frame.setLocal name operand) graph := by
  refine ⟨⟨hfounded.wellFormed, hfounded.slots, fun key held hheld => ?_, hfounded.parts,
    hfounded.homes⟩, rfl, fun held hheld => hheld.of_size_le rfl (Nat.le_refl _),
    fun held hheld => hfounded.leads_of_spelt rfl (fun id _ => hfounded.speltAt_of_eq rfl rfl)
      hheld⟩
  rw [Frame.setLocal, OrderedMap.get?_insert] at hheld
  split at hheld
  · obtain rfl := Option.some.inj hheld
    exact hoperand
  · exact hfounded.locals key held hheld

/-- An object without a home is added. -/
theorem allocate (hfounded : frame.Founded graph) (className : String)
    (hparts : ∀ selector held, fields.get? selector = some held → frame.Refers graph held) :
    frame.Rearranges graph (frame.allocate { className, fields }).2 graph := by
  have hsize : frame.allocations.size ≤
      (frame.allocate { className, fields }).2.allocations.size := by
    simp [Frame.allocate]
  have hcases : ∀ {id : Nat} {object : Allocation},
      (frame.allocate { className, fields }).2.allocations[id]? = some object →
        object = { className, fields } ∨ frame.allocations[id]? = some object := by
    intro id object hobject
    rw [Frame.allocate, Array.getElem?_push] at hobject
    split at hobject
    · exact Or.inl (Option.some.inj hobject).symm
    · exact Or.inr hobject
  refine ⟨⟨hfounded.wellFormed, hfounded.slots,
    fun name held hheld => (hfounded.locals name held hheld).of_size_le rfl hsize,
    fun id object selector held hobject hheld => ?_, fun id object home hobject hhome => ?_⟩, rfl,
    fun held hheld => hheld.of_size_le rfl hsize, fun held hheld =>
      hfounded.leads_of_spelt rfl (fun id hid => ?_) hheld⟩
  · rcases hcases hobject with rfl | hold
    · exact (hparts selector held hheld).of_size_le rfl hsize
    · exact (hfounded.parts id object selector held hold hheld).of_size_le rfl hsize
  · rcases hcases hobject with rfl | hold
    · cases hhome
    · exact (hfounded.homes id object home hold hhome).of_size_le rfl hsize
  · obtain ⟨object, hobject⟩ := refers_fresh_iff.mp hid
    exact hfounded.speltAt_of_eq rfl ((getElem?_allocate hobject _).trans hobject.symm)

/-- A new object leads as far as the operand that its parts are those of. -/
theorem leads_allocate (hfounded : frame.Founded graph) (hoperand : frame.Refers graph operand)
    (className : String) (hspells : frame.Spells graph fields operand) (chain : List Selector) :
    (frame.allocate { className, fields }).2.leads graph (.fresh ⟨frame.allocations.size⟩) chain =
      frame.leads graph operand chain := by
  have hrearranges := hfounded.allocate className hspells.refers
  have hlocal : (frame.allocate { className, fields }).2.localObject?
      (.fresh ⟨frame.allocations.size⟩) = some { className, fields } :=
    localObject?_fresh_iff.mpr ⟨by simp [Frame.allocate], rfl⟩
  cases chain with
  | nil =>
    rw [hfounded.leads_nil hoperand, leads, endOf?_nil_of_local hlocal]
    rfl
  | cons selector rest =>
    rw [leads_of_local hlocal, (hrearranges.spells hoperand hspells).leads,
      hrearranges.leads operand hoperand]

/-- An object is changed: its home stays, or it is gone and the parts lead as far as it did. -/
theorem update (hfounded : frame.Founded graph)
    (hobject : frame.allocations[id.index]? = some object) {change : Allocation → Allocation}
    (hparts : ∀ selector held, (change object).fields.get? selector = some held →
      frame.Refers graph held)
    (hhome : (change object).home? = none ∧ frame.Spells graph (change object).fields (.fresh id) ∨
      (change object).home? = object.home? ∧ object.home?.isSome = true) :
    frame.Rearranges graph (frame.update id change) graph := by
  have hat : (frame.update id change).allocations[id.index]? = some (change object) := by
    simp [Frame.update, Array.getElem?_modify, hobject]
  have helse : ∀ other : Nat, other ≠ id.index →
      (frame.update id change).allocations[other]? = frame.allocations[other]? := by
    intro other hne
    rw [Frame.update, Array.getElem?_modify, if_neg (Ne.symm hne)]
  have hsize : frame.allocations.size ≤ (frame.update id change).allocations.size :=
    Nat.le_of_eq Array.size_modify.symm
  have hrefers : ∀ held, frame.Refers graph held → (frame.update id change).Refers graph held :=
    fun held hheld => hheld.of_size_le rfl hsize
  refine ⟨⟨hfounded.wellFormed, hfounded.slots,
    fun name held hheld => hrefers held (hfounded.locals name held hheld),
    fun other after selector held hafter hheld => ?_, fun other after home hafter hheld => ?_⟩, rfl,
    hrefers, fun held hheld => hfounded.leads_of_spelt rfl (fun other _ => ?_) hheld⟩
  · by_cases heq : other = id.index
    · subst heq
      obtain rfl := Option.some.inj (hat.symm.trans hafter)
      exact hrefers held (hparts selector held hheld)
    · exact hrefers held
        (hfounded.parts other after selector held ((helse other heq).symm.trans hafter) hheld)
  · by_cases heq : other = id.index
    · subst heq
      obtain rfl := Option.some.inj (hat.symm.trans hafter)
      rcases hhome with ⟨hnone, -⟩ | ⟨hkept, -⟩
      · exact absurd (hheld.symm.trans hnone) (Option.some_ne_none home)
      · exact hrefers _ (hfounded.homes id.index object home hobject (hkept.symm.trans hheld))
    · exact hrefers _
        (hfounded.homes other after home ((helse other heq).symm.trans hafter) hheld)
  · by_cases heq : other = id
    · subst heq
      rcases hhome with ⟨hnone, hspells⟩ | ⟨hkept, hsome⟩
      · exact Or.inl ⟨_, localObject?_fresh_iff.mpr ⟨hat, hnone⟩, hspells⟩
      · obtain ⟨home, hhome⟩ := Option.isSome_iff_exists.mp hsome
        refine Or.inr ⟨?_, ?_, ?_⟩
        · simp [localObject?, hat, hkept, hhome]
        · simp [localObject?, hobject, hhome]
        · simp only [foundType?, hat, hobject, Option.bind_some, hkept]
          rfl
    · exact hfounded.speltAt_of_eq rfl
        (helse other.index fun hindex => heq (AllocId.index_inj.mp hindex))

/-- An object gives up its home and gets parts that lead as far as it did. -/
theorem release (hfounded : frame.Founded graph) (hrefers : frame.Refers graph (.fresh id))
    (hspells : frame.Spells graph fields (.fresh id)) :
    frame.Rearranges graph (frame.release id fields) graph := by
  obtain ⟨object, hobject⟩ := refers_fresh_iff.mp hrefers
  exact hfounded.update hobject hspells.refers (Or.inl ⟨rfl, hspells⟩)

/-- A part of an object is bound to an operand that leads as far as the part. -/
theorem bindPart (hfounded : frame.Founded graph)
    (hobject : frame.allocations[id.index]? = some object) (hheld : frame.Refers graph held)
    (hleads : object.home? = none → ∀ rest, frame.leads graph held rest =
      frame.leads graph (.fresh id) (selector :: rest)) :
    frame.Rearranges graph (frame.update id fun object =>
      { object with fields := object.fields.insert selector held }) graph := by
  refine hfounded.update hobject (fun key found hfound => ?_) ?_
  · rw [OrderedMap.get?_insert] at hfound
    split at hfound
    · obtain rfl := Option.some.inj hfound
      exact hheld
    · exact hfounded.parts id.index object key found hobject hfound
  · cases hhome : object.home? with
    | none =>
      have hlocal := localObject?_fresh_iff.mpr ⟨hobject, hhome⟩
      exact Or.inl ⟨rfl, (hfounded.spells hlocal).insert hheld (hleads hhome)⟩
    | some home => exact Or.inr ⟨rfl, rfl⟩

/-- Parts that were known by their types become objects. -/
theorem promotes (hfounded : frame.Founded graph) (hpromotes : frame.Promotes graph later) :
    frame.Rearranges graph later graph := by
  have hrefers : ∀ held, frame.Refers graph held → later.Refers graph held :=
    fun held hheld => hheld.of_size_le hpromotes.slots hpromotes.amends.size_le
  refine ⟨⟨hfounded.wellFormed, hpromotes.complete.slots, fun name held hheld => ?_,
    fun id after selector held hafter hheld => ?_, fun id after home hafter hhome => ?_⟩,
    hpromotes.slots, hrefers, fun held hheld chain =>
      ((hpromotes.ends held hheld.names).leads_eq chain).symm⟩
  · rw [hpromotes.locals] at hheld
    exact hrefers held (hfounded.locals name held hheld)
  · have hnames := hpromotes.complete.parts id after selector held hafter hheld
    cases held with
    | type type => exact hnames
    | fresh child => exact hnames
    | path place =>
      obtain ⟨object, hobject, hpart⟩ := hpromotes.amends.path_part hafter hheld
      exact hrefers _ (hfounded.parts id object selector _ hobject hpart)
  · rcases hpromotes.amends.old_or_new hafter with ⟨object, hobject, hkept, -⟩ | ⟨-, hnone, -⟩
    · exact hrefers _ (hfounded.homes id object home hobject (hkept.symm.trans hhome))
    · exact nomatch hnone.symm.trans hhome

/-! ## Readings -/

/-- What can be followed can be read. -/
theorem exists_readAlong (hfounded : frame.Founded graph) (hoperand : frame.Refers graph operand)
    (declarations : Declarations) (span : Span) {selectors : List Selector}
    (hleads : frame.leads graph operand selectors = true) :
    ∃ found later,
      readAlong declarations span graph operand selectors frame = .ok (found, later) ∧
        frame.Reaches graph (readAlong declarations span graph operand selectors)
          (fun rest => frame.endOf? graph operand (selectors ++ rest)) found later := by
  rcases hfounded.complete.readAlong_tracks hoperand.names (hfounded.known hoperand) declarations
    span selectors with hreads | ⟨-, hnone⟩
  · exact hreads
  · have hlost : frame.endOf? graph operand (selectors ++ []) = none := hnone []
    rw [List.append_nil] at hlost
    rw [leads, hlost] at hleads
    exact absurd hleads Bool.false_ne_true

end Founded

theorem Reaches.refers {reading : StateT Frame Checked Operand}
    {ends : List Selector → Option (Option String)}
    (hreaches : frame.Reaches graph reading ends operand later) : later.Refers graph operand := by
  have hnames := hreaches.names
  have hknown := hreaches.known
  cases operand with
  | type type => exact hnames
  | path place => exact refers_path_iff.mpr hknown
  | fresh id => exact hnames

end Frame

end ShapeFlow
