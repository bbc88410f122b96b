import ShapeFlow.Proofs.ReopenedClasses
import ShapeFlow.Proofs.VacatedCopies

/-!
# What is left of a vacated place

When a place is vacated, whatever was told by it is rebound to what is found by following the same
selectors from the copy.  The copy tells nothing by the place.  But an object that loses its home
may retain what it held before it got the home, for instance the place that it has been put into;
from there the selectors can lead back to the vacated place (`Frame.LeadsBack`).

If they do so for nothing that is told by the place, then nothing is told by it any more, neither by
a local nor by a part of an object, and no object is at home there (`Frame.vacate_vacates`,
`Frame.Severed`).
-/

namespace ShapeFlow

variable {shapes : Shapes} {declarations : Declarations} {span : Span} {first graph : TypeGraph}
  {arguments : List TypeId} {start released frame later : Frame} {operand held root value : Operand}
  {base place : AccessPath} {selector : Selector} {chain rest : List Selector} {id : AllocId}

/-- The slot of an operand that is told by its place. -/
def Operand.slot? : Operand → Option Nat
  | .path place => some place.root
  | .type _ | .fresh _ => none

namespace Frame

/-! ## Chains that get to a place -/

/-- A chain of selectors gets from an operand to the base, or below it: from a place, through the
parts of objects without homes, or through what an object retains that loses its home. -/
inductive Strays (frame : Frame) (graph : TypeGraph) (base : AccessPath) :
    Operand → List Selector → Prop
  | place {place : AccessPath} {chain : List Selector}
      (hwithin : (place.append chain).liesWithin base = true) :
      Strays frame graph base (.path place) chain
  | home {id : AllocId} {object : Allocation} {home : AccessPath} {chain : List Selector}
      (hobject : frame.allocations[id.index]? = some object) (hhome : object.home? = some home)
      (houtside : home.liesWithin base = false)
      (hwithin : (home.append chain).liesWithin base = true) :
      Strays frame graph base (.fresh id) chain
  | part {id : AllocId} {object : Allocation} {selector : Selector} {held : Operand}
      {rest : List Selector} (hobject : frame.allocations[id.index]? = some object)
      (hnone : object.home? = none) (hheld : object.fields.get? selector = some held)
      (hstrays : Strays frame graph base held rest) :
      Strays frame graph base (.fresh id) (selector :: rest)
  | retained {id other : AllocId} {place inner : AccessPath} {selector : Selector} {held : Operand}
      {chain rest : List Selector} (hmem : (id, place) ∈ frame.residents base)
      (hretains : frame.Retains graph base other inner selector held)
      (hchain : place.append chain = (inner.child selector).append rest)
      (hstrays : Strays frame graph base held rest) : Strays frame graph base (.fresh id) chain

/-- To follow the place through the copy leads back to the base, or below it, by way of what an
object retains. -/
def LeadsBack (frame : Frame) (graph : TypeGraph) (base place : AccessPath) : Prop :=
  ∃ (id : AllocId) (inner : AccessPath) (selector : Selector) (held : Operand)
    (rest : List Selector), place = (inner.child selector).append rest ∧
      frame.Retains graph base id inner selector held ∧ frame.Strays graph base held rest

/-- What is told by a place: the value, a local, or a part of an object, unless the object is about
to lose its home. -/
inductive Tells (frame : Frame) (base : AccessPath) (value : Operand) : AccessPath → Prop
  | value {place : AccessPath} (hvalue : frame.resolve value = .ok (.path place)) :
      Tells frame base value place
  | binding {name : String} {place : AccessPath}
      (hlocal : frame.locals.get? name = some (.path place)) : Tells frame base value place
  | part {id : AllocId} {object : Allocation} {selector : Selector} {place : AccessPath}
      (hobject : frame.allocations[id.index]? = some object)
      (houtside : ∀ home, object.home? = some home → home.liesWithin base = false)
      (hheld : object.fields.get? selector = some (.path place)) : Tells frame base value place

/-- Nothing is told by the base, or by a place below it, and no object is at home there. -/
structure Severed (frame : Frame) (base : AccessPath) : Prop where
  locals : ∀ name held, frame.locals.get? name = some held → held.placeWithin? base = none
  parts : ∀ (id : Nat) (object : Allocation) selector held, frame.allocations[id]? = some object →
    object.fields.get? selector = some held → held.placeWithin? base = none
  homes : frame.Vacant base

/-- Nothing that is told by a place leads back to the base. -/
def Recoverable (frame : Frame) (graph : TypeGraph) (base : AccessPath) (value : Operand) : Prop :=
  ∀ place, frame.Tells base value place → ¬ frame.LeadsBack graph base place

theorem Strays.exists_object (hstrays : frame.Strays graph base (.fresh id) chain) :
    ∃ object, frame.allocations[id.index]? = some object := by
  cases hstrays with
  | home hobject => exact ⟨_, hobject⟩
  | part hobject => exact ⟨_, hobject⟩
  | retained hmem =>
    obtain ⟨object, hobject, -⟩ := home_of_mem_residents hmem
    exact ⟨object, hobject⟩

/-! ## Chains after the objects have lost their homes -/

/-- What strays once the objects have lost their homes strayed before; and from the copy it does so
by way of what was retained. -/
theorem Released.strays (hreleased : start.Released first base frame)
    (hintact : start.Intact shapes first) (hstrays : frame.Strays first base operand chain) :
    (operand.ExistsIn start → start.Strays first base operand chain) ∧
      ∀ place, CopyOf start base frame place operand →
        start.LeadsBack first base (place.append chain) := by
  induction hstrays with
  | place hwithin => exact ⟨fun _ => .place hwithin, fun _ hcopy => nomatch hcopy⟩
  | home hobject hhome houtside hwithin =>
    cases hreleased.fate hobject with
    | new _ hnone => exact nomatch hnone.symm.trans hhome
    | same hbefore hout =>
      exact ⟨fun _ => .home hbefore hhome houtside hwithin, fun place hcopy =>
        absurd (hcopy.mem_residents hbefore) (not_mem_residents hbefore hout)⟩
    | homeless _ hnone => exact nomatch hnone.symm.trans hhome
  | @part id object selector held rest hobject hnone hheld _ ih =>
    cases hreleased.fate hobject with
    | new hmissing =>
      refine ⟨fun hexists => ?_, fun place hcopy => ?_⟩
      · obtain ⟨_, hbefore⟩ := hexists id rfl
        exact nomatch hmissing.symm.trans hbefore
      · rw [← AccessPath.child_append]
        exact ih.2 _ (hcopy.part hmissing hobject hheld)
    | same hbefore hout =>
      have hexists := ((hintact.objects _ object hbefore).parts selector held hheld).2
      exact ⟨fun _ => .part hbefore hnone hheld (ih.1 hexists), fun place hcopy =>
        absurd (hcopy.mem_residents hbefore) (not_mem_residents hbefore hout)⟩
    | @homeless home hmem _ hrefills =>
      -- The part belongs to the copy, or the object retains it.
      have hback : start.LeadsBack first base (home.append (selector :: rest)) := by
        rw [← AccessPath.child_append]
        rcases hrefills selector held hheld with hcopy | ⟨_, hid, hretains⟩
        · exact ih.2 _ hcopy
        · cases hid
          obtain ⟨object, hbefore, hheld⟩ := hretains.holds
          exact ⟨id, home, selector, held, rest, rfl, hretains,
            ih.1 ((hintact.objects _ object hbefore).parts selector held hheld).2⟩
      refine ⟨fun _ => ?_, fun place hcopy => ?_⟩
      · obtain ⟨other, inner, key, part, others, hchain, hretains, hstrays⟩ := hback
        exact .retained hmem hretains hchain hstrays
      · obtain ⟨_, hbefore, -⟩ := home_of_mem_residents hmem
        exact home_unique hmem (hcopy.mem_residents hbefore) ▸ hback
  | retained hmem => exact absurd hmem hreleased.vacant.not_resident

/-! ## Chains in frames that are read and rebound -/

/-- Reading and rebinding make nothing stray. -/
theorem Amends.strays {mended : AccessPath → Prop} (hamends : Amends mended frame later)
    (hmended : ∀ place, mended place → place.liesWithin base = true) (hvacant : frame.Vacant base)
    (hstrays : later.Strays graph base operand chain) : frame.Strays graph base operand chain := by
  induction hstrays with
  | place hwithin => exact .place hwithin
  | home hobject hhome houtside hwithin =>
    rcases hamends.old_or_new hobject with ⟨before, hbefore, hsame, -⟩ | ⟨-, hnone, -⟩
    · exact .home hbefore (hsame.symm.trans hhome) houtside hwithin
    · exact nomatch hnone.symm.trans hhome
  | @part id object selector held rest hobject hnone hheld _ ih =>
    have hold : ∀ {other : AllocId}, frame.Strays graph base (.fresh other) rest →
        frame.allocations.size ≤ other.index → False := by
      intro other hstrays hle
      obtain ⟨before, hbefore⟩ := hstrays.exists_object
      exact Nat.not_lt.mpr hle (Array.getElem?_eq_some_iff.mp hbefore).1
    rcases hamends.old_or_new hobject with ⟨before, hbefore, hsame, hparts⟩ | ⟨-, -, hparts⟩
    · have hpart := hparts selector
      rw [hheld] at hpart
      generalize hbefore' : before.fields.get? selector = part? at hpart
      have hnone' := hsame.symm.trans hnone
      cases hpart with
      | same => exact .part hbefore hnone' hbefore' ih
      | expanded hfirst => exact (hold ih hfirst).elim
      | mended hplace =>
        exact .part hbefore hnone' hbefore'
          (.place (AccessPath.liesWithin_append (hmended _ hplace) rest))
    · cases hparts selector held hheld with
      | type => exact nomatch ih
      | fresh hfirst => exact (hold ih hfirst).elim
  | retained hmem => exact absurd hmem (hamends.vacant hvacant).not_resident

/-- What an object is told by strays with the object. -/
theorem strays_of_resolve (hvacant : frame.Vacant base) {resolved : Operand}
    (hresolve : frame.resolve operand = .ok resolved)
    (hstrays : frame.Strays graph base resolved chain) : frame.Strays graph base operand chain := by
  cases operand with
  | type type =>
    cases hresolve
    exact hstrays
  | path place =>
    cases hresolve
    exact hstrays
  | fresh id =>
    obtain ⟨object, hobject, rfl⟩ := resolve_fresh_eq_ok_iff.mp hresolve
    cases hhome : object.home? with
    | none =>
      rw [hhome] at hstrays
      exact hstrays
    | some home =>
      rw [hhome] at hstrays
      cases hstrays with
      | place hwithin => exact .home hobject hhome (hvacant _ object home hobject hhome) hwithin

/-- What is read strays only if the base of the read did. -/
theorem Reads.strays (hreads : frame.Reads operand selector held later)
    (hvacant : frame.Vacant base) (hstrays : later.Strays graph base held rest) :
    frame.Strays graph base operand (selector :: rest) := by
  have hbefore : frame.Strays graph base held rest :=
    (hreads.amends fun _ => False).strays (fun _ hfalse => hfalse.elim) hvacant hstrays
  cases hreads.yields with
  | type => exact nomatch hbefore
  | place hbase =>
    cases hbefore with
    | place hwithin =>
      rw [AccessPath.child_append] at hwithin
      exact strays_of_resolve hvacant hbase (.place hwithin)
  | held hbase hobject hheld hresolved =>
    obtain ⟨_, hobject', hnone⟩ := settled_fresh_iff.mp (resolve_settled hbase)
    obtain rfl := Option.some.inj (hobject.symm.trans hobject')
    exact strays_of_resolve hvacant hbase
      (.part hobject hnone hheld (strays_of_resolve hvacant hresolved hbefore))
  | new hfirst =>
    obtain ⟨object, hobject⟩ := hbefore.exists_object
    exact absurd (Array.getElem?_eq_some_iff.mp hobject).1 (Nat.not_lt.mpr hfirst)

/-- No object is at home within the base, and the chain does not get there from the operand. -/
def Avoids (graph : TypeGraph) (base : AccessPath) (frame : Frame) (operand : Operand)
    (chain : List Selector) : Prop :=
  frame.Vacant base ∧ ¬ frame.Strays graph base operand chain

theorem Reads.avoids (hreads : frame.Reads operand selector held later)
    (havoids : Avoids graph base frame operand (selector :: rest)) :
    Avoids graph base later held rest :=
  ⟨(hreads.amends fun _ => False).vacant havoids.1, fun hstrays =>
    havoids.2 (hreads.strays havoids.1 hstrays)⟩

/-- What nothing leads from to the base is not told by the base. -/
theorem Avoids.outside (havoids : Avoids graph base frame operand []) :
    operand.placeWithin? base = none := by
  refine placeWithin?_eq_none_iff.mpr ?_
  rintro place rfl
  by_contra hwithin
  exact havoids.2 (.place (by simpa [AccessPath.append_nil] using hwithin))

/-! ## Rebinding -/

/-- A part that is still told by the base was so before, and its object has not lost its home. -/
theorem Released.tells_of_part (hreleased : start.Released first base released)
    (hpart : released.PartHolds id selector (.path place)) (hwithin : place.liesWithin base = true)
    (value : Operand) : start.Tells base value place := by
  obtain ⟨object, hobject, hheld⟩ := hpart
  have hin : (Operand.path place).placeWithin? base ≠ none := by simp [placeWithin?_path hwithin]
  cases hreleased.fate hobject with
  | new _ _ houtside => exact absurd (houtside selector _ hheld) hin
  | same hbefore houtside => exact .part hbefore houtside hheld
  | homeless _ _ hrefills => exact absurd (hrefills selector _ hheld).outside hin

/-- The locals of the list are still to be rebound. -/
structure LocalsLeft (start : Frame) (first : TypeGraph) (base : AccessPath) (value : Operand)
    (released : Frame) (left : List (String × AccessPath)) (frame : Frame) : Prop where
  amends : ∀ mended, Amends mended released frame
  told : ∀ binding ∈ left, binding.2.liesWithin base = true ∧
    start.locals.get? binding.1 = some (.path binding.2)
  stale : start.Recoverable first base value → ∀ name place,
    frame.locals.get? name = some (.path place) → place.liesWithin base = true →
      (name, place) ∈ left

theorem LocalsLeft.all (hreleased : start.Released first base released) (value : Operand) :
    LocalsLeft start first base value released (start.localsWithin base) released where
  amends mended := .refl mended released
  told _ hmem := ⟨within_of_mem_localsWithin hmem, local_of_mem_localsWithin hmem⟩
  stale _ _ _ hlocal hwithin := mem_localsWithin (hreleased.locals ▸ hlocal) hwithin

/-- The parts of the list are still to be rebound. -/
structure PartsLeft (start : Frame) (first : TypeGraph) (base : AccessPath) (value : Operand)
    (released : Frame) (left : List (AllocId × Selector × AccessPath)) (frame : Frame) : Prop where
  amends : Amends (·.liesWithin base) released frame
  told : ∀ part ∈ left, part.2.2.liesWithin base = true ∧
    released.PartHolds part.1 part.2.1 (.path part.2.2)
  locals : start.Recoverable first base value → ∀ name held,
    frame.locals.get? name = some held → held.placeWithin? base = none
  stale : start.Recoverable first base value → ∀ (id : Nat) object selector place,
    frame.allocations[id]? = some object → object.fields.get? selector = some (.path place) →
      place.liesWithin base = true → (⟨id⟩, selector, place) ∈ left

/-- Once no local is left, the parts that are told by the base are left. -/
theorem PartsLeft.all (hlocals : LocalsLeft start first base value released [] frame) :
    PartsLeft start first base value released (frame.partsWithin base) frame where
  amends := hlocals.amends _
  told part hmem := by
    obtain ⟨hwithin, after, hafter, hheld⟩ := part_of_mem_partsWithin hmem
    exact ⟨hwithin, (hlocals.amends _).path_part hafter hheld⟩
  locals hnot name held hheld := by
    refine placeWithin?_eq_none_iff.mpr ?_
    rintro place rfl
    by_contra hwithin
    exact nomatch hlocals.stale hnot name place hheld (by simpa using hwithin)
  stale _ _ _ _ _ hobject hheld hwithin := mem_partsWithin hobject hheld hwithin

theorem PartsLeft.severed (hparts : PartsLeft start first base value released [] frame)
    (hvacant : released.Vacant base) (hnot : start.Recoverable first base value) :
    frame.Severed base where
  locals := hparts.locals hnot
  parts id object selector held hobject hheld := by
    refine placeWithin?_eq_none_iff.mpr ?_
    rintro place rfl
    by_contra hwithin
    exact nomatch hparts.stale hnot id object selector place hobject hheld (by simpa using hwithin)
  homes := hparts.amends.vacant hvacant

section Rebinding

variable (hintact : start.Intact shapes first) (hreleased : start.Released first base released)
  (hroot : CopyOf start base released base root)

include hintact hreleased hroot

/-- What is found by following a place through the copy is not told by the base, unless it leads
back there. -/
theorem retrace_recovers (hamends : Amends (·.liesWithin base) released frame)
    (hwithin : place.liesWithin base = true) :
    (lenient TypeGraph).Ends graph (retrace declarations span root base place frame graph)
      fun result _ => (∀ mended, Amends mended frame result.2) ∧
        result.2.locals = frame.locals ∧
          (¬ start.LeadsBack first base place → result.1.placeWithin? base = none) := by
  obtain ⟨selectors, rfl⟩ := (AccessPath.liesWithin_iff place base).mp hwithin
  refine (retrace_reads (Avoids first base) (fun _ _ _ _ _ _ hreads => hreads.avoids) root base _
    frame graph).mono ?_
  rintro result _ - ⟨hreads, hlocals, hkeeps⟩
  refine ⟨hreads, hlocals, fun hnot => (hkeeps selectors rfl
    ⟨hamends.vacant hreleased.vacant, fun hstrays => hnot ?_⟩).outside⟩
  exact (hreleased.strays hintact (hamends.strays (fun _ hplace => hplace) hreleased.vacant
    hstrays)).2 base hroot

/-- The locals are rebound to what is found from the copy. -/
theorem rebindLocals_recovers (value : Operand) (graph : TypeGraph) :
    (lenient TypeGraph).Ends graph
      (((start.localsWithin base).forM fun binding => do
        let operand ← retrace declarations span root base binding.2
        modifyThe Frame (setLocal binding.1 operand) : Framed PUnit) released graph)
      fun result _ => LocalsLeft start first base value released [] result.2 := by
  refine Discipline.Ends.forM_rest (start.localsWithin base)
    (fun left later _ => LocalsLeft start first base value released left later)
    (.all hreleased value) ?_
  rintro ⟨name, place⟩ left frame graph ⟨hamends, htold, hstale⟩
  rw [List.forall_mem_cons] at htold
  obtain ⟨⟨hwithin, hlocal⟩, htold⟩ := htold
  refine (retrace_recovers hintact hreleased hroot (hamends _) hwithin).run_bind ?_
  rintro operand later _ - ⟨hreads, hsame, houtside⟩
  refine ⟨trivial, fun mended => ((hamends mended).trans (hreads mended)).trans
    (.of_allocations_eq rfl), htold, fun hnot other inner hother hinner => ?_⟩
  change (later.locals.insert name operand).get? other = some (.path inner) at hother
  rw [OrderedMap.get?_insert, hsame] at hother
  split at hother
  · -- The local that has just been rebound.
    obtain rfl := Option.some.inj hother
    have hout := placeWithin?_eq_none_iff.mp (houtside (hnot place (.binding hlocal))) inner rfl
    exact absurd (hout.symm.trans hinner) Bool.false_ne_true
  · rename_i hne
    refine (List.mem_cons.mp (hstale hnot other inner hother hinner)).resolve_left fun heq => ?_
    exact hne (congrArg Prod.fst heq)

/-- The parts are rebound to what is found from the copy. -/
theorem rebindParts_recovers (hlocals : LocalsLeft start first base value released [] frame)
    (graph : TypeGraph) :
    (lenient TypeGraph).Ends graph
      (((frame.partsWithin base).forM fun part => do
        let operand ← retrace declarations span root base part.2.2
        reading fun _ => setPart part.1 part.2.1 operand : Framed PUnit) frame graph)
      fun result _ => PartsLeft start first base value released [] result.2 := by
  refine Discipline.Ends.forM_rest (frame.partsWithin base)
    (fun left later _ => PartsLeft start first base value released left later) (.all hlocals) ?_
  rintro ⟨id, selector, place⟩ left frame graph ⟨hamends, htold, hlocals, hstale⟩
  rw [List.forall_mem_cons] at htold
  obtain ⟨⟨hwithin, hpart⟩, htold⟩ := htold
  refine (retrace_recovers hintact hreleased hroot hamends hwithin).run_bind ?_
  rintro operand later grown - ⟨hreads, hsame, houtside⟩
  refine (Discipline.Ends.reading trivial (setPart_updates id selector operand later)).mono ?_
  rintro ⟨_, last⟩ _ - ⟨-, rfl⟩
  have htells := hreleased.tells_of_part hpart hwithin value
  obtain ⟨object, hobject, hheld⟩ := hpart
  refine ⟨(hamends.trans (hreads _)).insert hobject ?_, htold, fun hnot name held hlocal =>
    hlocals hnot name held (hsame ▸ hlocal), fun hnot other after key inner hafter hinner hin => ?_⟩
  · rw [hheld]
    exact .mended hwithin _
  -- The part that has just been rebound is not told by the base, and the others are as they were.
  have hother : ∀ before, later.allocations[other]? = some before →
      before.fields.get? key = some (.path inner) →
        (⟨other⟩, key, inner) ∈ (id, selector, place) :: left := by
    intro before hbefore hpart
    obtain ⟨earlier, hearlier, hpart⟩ := (hreads _).path_part hbefore hpart
    exact hstale hnot other earlier key inner hearlier hpart hin
  rw [Frame.update, Array.getElem?_modify] at hafter
  split at hafter
  · obtain ⟨before, hbefore, rfl⟩ := Option.map_eq_some_iff.mp hafter
    change (before.fields.insert selector operand).get? key = _ at hinner
    rw [OrderedMap.get?_insert] at hinner
    split at hinner
    · obtain rfl := Option.some.inj hinner
      have hout := placeWithin?_eq_none_iff.mp (houtside (hnot place htells)) inner rfl
      exact absurd (hout.symm.trans hin) Bool.false_ne_true
    · rename_i hkey
      refine (List.mem_cons.mp (hother before hbefore hinner)).resolve_left fun heq => hkey ?_
      exact congrArg (·.2.1) heq
  · rename_i hindex
    refine (List.mem_cons.mp (hother after hafter hinner)).resolve_left fun heq => hindex ?_
    exact (congrArg (·.1.index) heq).symm

end Rebinding

/-! ## Vacating -/

theorem Severed.amends (hsevered : frame.Severed base)
    (hamends : Amends (fun _ => False) frame later) (hlocals : later.locals = frame.locals) :
    later.Severed base where
  locals name held hheld := hsevered.locals name held (hlocals ▸ hheld)
  parts id after selector held hafter hheld := by
    refine placeWithin?_eq_none_iff.mpr ?_
    rintro place rfl
    obtain ⟨object, hobject, hsame⟩ := hamends.path_part hafter hheld
    exact placeWithin?_eq_none_iff.mp (hsevered.parts id object selector _ hobject hsame) place rfl
  homes := hamends.vacant hsevered.homes

/-- The base has been vacated: the objects at home there have lost their homes, and what is told by
the base has been rebound. -/
structure Vacates (start : Frame) (first : TypeGraph) (base : AccessPath) (value : Operand)
    (moved : Operand) (later : Frame) : Prop where
  released : ∃ released, start.Released first base released ∧
    Amends (·.liesWithin base) released later
  severed : start.Recoverable first base value →
    later.Severed base ∧ moved.placeWithin? base = none

/-- What it means to vacate a place, in a sound frame that is intact. -/
theorem vacate_vacates (hsound : start.Sound first arguments) (hintact : start.Intact shapes first)
    (base : AccessPath) (value : Operand) :
    (lenient TypeGraph).Ends first (vacate declarations span base value start first)
      fun result _ => start.Vacates first base value result.1 result.2 := by
  unfold vacate
  refine .get_bind ?_
  dsimp only
  split
  · rename_i hempty
    simp only [Bool.and_eq_true, List.isEmpty_iff, Option.isNone_iff_eq_none] at hempty
    obtain ⟨⟨⟨hresidents, hnames⟩, hvalue⟩, hnone⟩ := hempty
    have hreleased : start.Released first base start := .of_residents_eq_nil hresidents
    have hlocals := LocalsLeft.all hreleased value
    rw [hnames] at hlocals
    have hparts := PartsLeft.all hlocals
    rw [hnone] at hparts
    exact .run_pure ⟨⟨start, hreleased, .refl _ start⟩, fun hnot =>
      ⟨hparts.severed hreleased.vacant hnot, hvalue⟩⟩
  · refine (rebuildAll_refills hintact hsound _).leniently.run_bind ?_
    rintro rebuilt changed graph₁ - ⟨-, hextends, hrebuilt⟩
    refine (copy_copies hintact hsound _ base hextends).leniently.run_bind ?_
    rintro root copied graph₂ - ⟨-, hcopied, hroot, -⟩
    refine (releaseAll_releases rebuilt copied graph₂).run_bind ?_
    rintro _ released graph₃ - hreleases
    replace hrebuilt := hrebuilt.mono hcopied.old
    have hreleased := hrebuilt.released hreleases (hextends.trans hcopied)
    replace hroot := hrebuilt.copyOf hreleases hroot
    refine (rebindLocals_recovers hintact hreleased hroot value graph₃).run_bind ?_
    rintro _ renamed graph₄ - hlocals
    refine .get_bind ((rebindParts_recovers hintact hreleased hroot hlocals graph₄).run_bind ?_)
    rintro _ rebound graph₅ - hparts
    have hsevered := hparts.severed hreleased.vacant
    cases hplace : value.placeWithin? base with
    | none => exact .run_pure ⟨⟨released, hreleased, hparts.amends⟩, fun hnot =>
        ⟨hsevered hnot, hplace⟩⟩
    | some place =>
      obtain ⟨rfl, hwithin⟩ := eq_path_of_placeWithin? hplace
      refine (retrace_recovers hintact hreleased hroot hparts.amends hwithin).mono ?_
      rintro result _ - ⟨hreads, hsame, houtside⟩
      exact ⟨⟨released, hreleased, hparts.amends.trans (hreads _)⟩, fun hnot =>
        ⟨(hsevered hnot).amends (hreads _) hsame, houtside (hnot place (.value rfl))⟩⟩

/-- A node with a kid whose parent is the node. -/
def kidGraph : TypeGraph where
  nodes := #[.scalar, .object "Node" (.ofList [(.field "@kid", ⟨2⟩)]),
    .object "Kid" (.ofList [(.field "@parent", ⟨1⟩)])]

/-- The kid was allocated and still holds the node that it has been put into.  The local is the kid
of the parent of the kid. -/
def kidFrame : Frame where
  slots := [⟨1⟩]
  locals := .ofList [("again", .path ⟨1, [.field "@kid", .field "@parent", .field "@kid"]⟩)]
  allocations := #[
    { className := "Kid", home? := some ⟨1, [.field "@kid"]⟩,
      fields := .ofList [(.field "@parent", .path ⟨1, []⟩)] }]

/-- From the kid the selectors lead back to the place that it has lost, and so the local names what
stands there next. -/
example : ∃ moved later grown,
    vacate {} {} ⟨1, [.field "@kid"]⟩ (.type ⟨0⟩) kidFrame kidGraph = .ok (moved, later) grown ∧
      later.locals.get? "again" = some (.path ⟨1, [.field "@kid"]⟩) :=
  ⟨_, _, _, rfl, by decide +kernel⟩

/-! ## Where nothing leads back -/

theorem Recoverable.of_resolve (hrecoverable : frame.Recoverable graph base value) {moved : Operand}
    (hresolve : frame.resolve value = .ok moved) : frame.Recoverable graph base moved := by
  intro place htells
  refine hrecoverable place ?_
  cases htells with
  | value hvalue =>
    obtain rfl := Except.ok.inj ((resolve_settled hresolve).symm.trans hvalue)
    exact .value hresolve
  | binding hlocal => exact .binding hlocal
  | part hobject houtside hheld => exact .part hobject houtside hheld

/-- No object holds a place in the slot of the base, and objects at home in the slot are so within
the base. -/
def Apart (frame : Frame) (base : AccessPath) : Prop :=
  ∀ object ∈ frame.allocations.toList,
    (∀ part ∈ object.fields.entries, part.2.slot? ≠ some base.root) ∧
      ∀ home ∈ object.home?, home.liesWithin base = true ∨ home.root ≠ base.root

instance (frame : Frame) (base : AccessPath) : Decidable (frame.Apart base) :=
  inferInstanceAs (Decidable (∀ object ∈ frame.allocations.toList, _))

theorem Apart.part (hapart : frame.Apart base) (hholds : frame.PartHolds id selector held) :
    held.slot? ≠ some base.root := by
  obtain ⟨object, hobject, hheld⟩ := hholds
  exact (hapart object (List.mem_of_getElem? (Array.getElem?_toList ▸ hobject))).1 _
    ((object.fields.get?_eq_some_iff selector held).mp hheld)

/-- From an operand of another slot no chain gets to the base. -/
theorem Apart.not_strays (hapart : frame.Apart base) (hslot : operand.slot? ≠ some base.root) :
    ¬ frame.Strays graph base operand chain := by
  intro hstrays
  have hroot : ∀ {place : AccessPath} {chain : List Selector},
      (place.append chain).liesWithin base = true → place.root = base.root := by
    intro place chain hwithin
    obtain ⟨selectors, heq⟩ := (AccessPath.liesWithin_iff _ base).mp hwithin
    exact (congrArg AccessPath.root heq :)
  induction hstrays with
  | place hwithin => exact hslot (congrArg some (hroot hwithin))
  | @home id object _ _ hobject hhome houtside hwithin =>
    have hmem : object ∈ frame.allocations.toList :=
      List.mem_of_getElem? (Array.getElem?_toList ▸ hobject)
    rcases (hapart object hmem).2 _ hhome with hin | hother
    · exact nomatch hin.symm.trans houtside
    · exact hother (hroot hwithin)
  | part hobject _ hheld _ ih => exact ih (hapart.part ⟨_, hobject, hheld⟩)
  | retained _ hretains _ _ ih => exact ih (hapart.part hretains.holds)

/-- Where objects hold no place in the slot, nothing leads back. -/
theorem Apart.recoverable (hapart : frame.Apart base) (graph : TypeGraph) (value : Operand) :
    frame.Recoverable graph base value := by
  rintro place - ⟨id, inner, selector, held, rest, -, hretains, hstrays⟩
  exact hapart.not_strays (hapart.part hretains.holds) hstrays

end Frame

/-! ## Sessions -/

/-- What is overwritten at a point of a body has been vacated. -/
theorem Regime.Meets.vacates {point : Point} (hmeets : shapes.regime.Meets arguments point)
    {selector : Selector} {store : Store}
    (hstore : store ∈ Frame.stores declarations span operand selector value point.frame
      point.graph) : ∃ moved, point.frame.resolve value = .ok moved ∧
        point.frame.Vacates point.graph store.target moved store.value store.frame := by
  unfold Frame.stores at hstore
  split at hstore
  · rename_i place moved hplace hmoved
    split at hstore
    · rename_i result vacated grown hvacate
      obtain rfl := List.mem_singleton.mp hstore
      obtain ⟨-, hvacates⟩ := (Frame.vacate_vacates hmeets.stands.sound hmeets.stands.frames
        (place.child selector) moved).of_eq_ok hvacate
      exact ⟨moved, hmoved, hvacates⟩
    · exact nomatch hstore
  · exact nomatch hstore

/-- In a session, whenever a part of a place is overwritten, nothing is left behind that is told by
the place or by a place below it: no local, no part of an object, no home and not what is written.
This holds unless something that was told so leads back to the place, through what an object that
stood there held before it was put there. -/
theorem Engine.session_severs {program : Program} {limit : Nat} {engine : Engine}
    {history : List Moment} (hsession : Engine.Session program limit engine history) :
    ∀ moment ∈ history, ∀ task point, moment.Passes (.ofProgram program) limit task point →
      ∀ base selector value, point.act = .writes base selector value →
        ∀ span, ∀ store ∈ Frame.stores (.ofProgram program) span base selector value point.frame
            point.graph,
          point.frame.Recoverable point.graph store.target value →
            store.frame.Severed store.target ∧ store.value.placeWithin? store.target = none := by
  intro moment hmem task point hpasses base selector value hact span store hstore hrecoverable
  have hmeets := (Regime.session_holdsAt (Shapes.admit_all (.ofProgram program)).rules
    TypeGraph.conforms_all hsession moment hmem).meets task point hpasses
  obtain ⟨moved, hmoved, hvacates⟩ := hmeets.vacates hstore
  exact hvacates.severed (hrecoverable.of_resolve hmoved)

/-- A rack with tools is put onto a stand, gets another top there, and is replaced at last. -/
def standProgram : Program where
  classes := [{ name := "Stand", fields := [.field "@on"] },
    { name := "Rack", fields := [.field "@left", .field "@right", .field "@top", .field "@side"] },
    { name := "Tool" }, { name := "Lamp" }]
  functions := [{
    name := "replace"
    parameters := ["stand", "side"]
    body := [
      .bind {} "rack" (.allocate {} "Rack"),
      .bind {} "tool" (.allocate {} "Tool"),
      .bind {} "top" (.allocate {} "Tool"),
      .write {} (.name {} "rack") (.field "@left") (.name {} "tool"),
      .write {} (.name {} "rack") (.field "@right") (.name {} "tool"),
      .write {} (.name {} "rack") (.field "@top") (.name {} "top"),
      .write {} (.name {} "rack") (.field "@side") (.name {} "side"),
      .write {} (.name {} "stand") (.field "@on") (.name {} "rack"),
      .write {} (.name {} "rack") (.field "@top") (.allocate {} "Lamp"),
      .bind {} "kept" (.read {} (.name {} "rack") (.field "@side")),
      .write {} (.name {} "stand") (.field "@on") (.integer {} 0),
      .name {} "kept"] }]

/-- The program with the types of a stand and a tool. -/
def standStart : Engine :=
  let engine := Engine.ofProgram standProgram 4
  let engine := engine.withGraph (engine.graph.plainObject "Stand").2
  engine.withGraph (engine.graph.plainObject "Tool").2

/-- The analysis of the function for a stand and a tool. -/
def standTask : Task := ⟨⟨2⟩, [⟨1⟩, ⟨2⟩]⟩

/-- The program with its function analyzed. -/
def standEngine : Engine := (standStart.analyze standTask.target standTask.arguments).2

theorem standEngine_session :
    ∃ history, Engine.Session standProgram 4 standEngine history ∧
      ∀ moment ∈ moments (.ofProgram standProgram) 4 4 [] standTask standStart.knowledge,
        moment ∈ history := by
  have hstand := Engine.Session.start.build _ _ _
    (.object (Engine.ofProgram standProgram 4) "Stand")
  have htypes := hstand.build _ _ _ (.object _ "Tool")
  exact ⟨_, .analyze standStart _ standTask htypes (by decide +kernel),
    fun moment hmem => List.mem_append_right _ hmem⟩

/-- When the rack is replaced, the local that is told by its side is told by the other slot from
then on, and nothing is told by the place on the stand any more. -/
theorem standEngine_severs : ∃ history moment point store,
    Engine.Session standProgram 4 standEngine history ∧ moment ∈ history ∧
      moment.Passes (.ofProgram standProgram) 4 standTask point ∧
        point.act = .writes (.path ⟨1, []⟩) (.field "@on") (.type ⟨0⟩) ∧
          point.frame.locals.get? "kept" = some (.path ⟨1, [.field "@on", .field "@side"]⟩) ∧
            store ∈ Frame.stores (.ofProgram standProgram) {} (.path ⟨1, []⟩) (.field "@on")
              (.type ⟨0⟩) point.frame point.graph ∧
              point.frame.Recoverable point.graph store.target (.type ⟨0⟩) ∧
                store.frame.Severed store.target ∧
                  store.value.placeWithin? store.target = none ∧
                    store.frame.locals.get? "kept" = some (.path ⟨2, []⟩) := by
  let declarations : Declarations := .ofProgram standProgram
  have hany : (standTask.points declarations 4 3 standStart.knowledge).any (fun point =>
      point.act = .writes (.path ⟨1, []⟩) (.field "@on") (.type ⟨0⟩) ∧
        point.frame.locals.get? "kept" = some (.path ⟨1, [.field "@on", .field "@side"]⟩) ∧
          (Frame.stores declarations {} (.path ⟨1, []⟩) (.field "@on") (.type ⟨0⟩) point.frame
            point.graph).any fun store => point.frame.Apart store.target ∧
              store.frame.locals.get? "kept" = some (.path ⟨2, []⟩)) = true := by
    decide +kernel
  obtain ⟨history, hsession, hmoments⟩ := standEngine_session
  obtain ⟨moment, hmem, point, hpasses, htested⟩ := Task.exists_passes [] hany
  rw [decide_eq_true_eq] at htested
  obtain ⟨hact, hlocal, hstores⟩ := htested
  obtain ⟨store, hstore, htested⟩ := List.any_eq_true.mp hstores
  rw [decide_eq_true_eq] at htested
  obtain ⟨hapart, hafter⟩ := htested
  have hrecoverable := hapart.recoverable point.graph (.type ⟨0⟩)
  obtain ⟨hsevered, hmoved⟩ := Engine.session_severs hsession moment (hmoments moment hmem)
    standTask point hpasses _ _ _ hact {} store hstore hrecoverable
  exact ⟨history, moment, point, store, hsession, hmoments moment hmem, hpasses, hact, hlocal,
    hstore, hrecoverable, hsevered, hmoved, hafter⟩

end ShapeFlow
