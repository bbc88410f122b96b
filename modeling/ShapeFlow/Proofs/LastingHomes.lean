import ShapeFlow.Proofs.SettledObjects
import ShapeFlow.Proofs.SteadyFrames

/-!
# Homes last over whole bodies

Objects get homes by being written, lose them when the place is overwritten, and may get homes again
at the same places; and each write rebuilds a slot below which objects are at home.  At all points
of all bodies, even so, no two objects share a home, a home is a part of an argument at which the
class of the object is found, and a slot has the class of its argument and all parts that the
argument had (`Engine.session_lasts`).

That homes are told apart is kept by a write because the target is vacated first: what is at home
within the target afterwards got its home by the write, and the new homes are told apart among
themselves (`Frame.Rewrites.home_cases`).
-/

namespace ShapeFlow

variable {frame later : Frame} {graph grown final : TypeGraph} {arguments : List TypeId}
  {declarations : Declarations} {span : Span} {operand : Operand} {target : AccessPath}
  {id : AllocId} {type other : TypeId}

/-! ## Parts of rebuilt types -/

namespace TypeGraph

/-- The one type has all parts that the other one has. -/
def Covers (graph : TypeGraph) (type other : TypeId) : Prop :=
  ∀ selector, (graph.field? other selector).isSome = true →
    (graph.field? type selector).isSome = true

theorem Covers.trans {third : TypeId} (hfirst : graph.Covers type other)
    (hsecond : graph.Covers other third) : graph.Covers type third :=
  fun selector hpart => hfirst selector (hsecond selector hpart)

theorem Covers.grow (hcovers : graph.Covers type other) (hgrows : graph.Grows grown)
    (hhas : graph.Has type) (hother : graph.Has other) : grown.Covers type other := by
  intro selector hpart
  rw [hgrows.field?_eq hother] at hpart
  rw [hgrows.field?_eq hhas]
  exact hcovers selector hpart

/-- A type that is rebuilt keeps its parts. -/
theorem bindAt?_isSome_field? {part : TypeId} {selectors : List Selector}
    {result : TypeId × TypeGraph} (hwell : graph.WellFormed) (hpart : graph.Has part)
    (hhas : graph.Has type) (hselectors : selectors ≠ [])
    (hbind : graph.bindAt? type selectors part = some result) {selector : Selector}
    (hfield : (graph.field? type selector).isSome = true) :
    (result.2.field? result.1 selector).isSome = true := by
  obtain ⟨first, rest, rfl⟩ := List.exists_cons_of_ne_nil hselectors
  obtain ⟨inner, rebuilt, -, hrebuilt, hbind⟩ := exists_of_bindAt?_cons hbind
  have hgrows : graph.Grows rebuilt.2 := .bindAt? hrebuilt
  obtain ⟨hwell', hhas'⟩ := bindAt?_wellFormed hwell hpart hrebuilt
  have hparts := bindField?_field? hwell' hhas' hbind selector
  rw [hgrows.field?_eq hhas] at hparts
  have hbefore : ∃ before,
      (if selector = first then some rebuilt.1 else graph.field? type selector) = some before := by
    split
    · exact ⟨rebuilt.1, rfl⟩
    · exact Option.isSome_iff_exists.mp hfield
  obtain ⟨before, hbefore⟩ := hbefore
  obtain ⟨after, hafter, -⟩ := exists_of_rel hparts hbefore
  rw [hafter]
  rfl

end TypeGraph

namespace Frame

variable {store : Store}

/-! ## Homes after a write -/

theorem HasHome.of_quiet {home : AccessPath} (hhome : later.HasHome id home)
    (hquiet : frame.Quiet later) : frame.HasHome id home := by
  obtain ⟨object, hobject, hhome⟩ := Option.bind_eq_some_iff.mp hhome
  obtain ⟨before, hbefore, hhome'⟩ := hquiet.homes id.index object home hobject hhome
  exact Option.bind_eq_some_iff.mpr ⟨before, hbefore, hhome'⟩

/-- After a write, an object is at home where it was before and outside of the target, or it is one
of those to which the written object led. -/
theorem Rewrites.home_cases {selector : Selector} {result : Operand} {home : AccessPath}
    (hrewrites : Rewrites declarations span arguments selector store frame graph result later final)
    (hhome : later.HasHome id home) :
    frame.HasHome id home ∧ home.liesWithin store.target = false ∨
      ∃ first, store.value = .fresh first ∧ store.frame.LeadsTo first id ∧
        home.liesWithin store.target = true := by
  have hold : store.frame.HasHome id home →
      frame.HasHome id home ∧ home.liesWithin store.target = false := by
    intro hbefore
    obtain ⟨object, hobject, hheld⟩ := Option.bind_eq_some_iff.mp hbefore
    exact ⟨hbefore.of_quiet hrewrites.quiet, hrewrites.vacant id.index object home hobject hheld⟩
  obtain ⟨part, built, slot, current, updated, rebuilt, -, -, -, -, -, hrecord⟩ :=
    exists_of_rebind hrewrites.sound hrewrites.selectors selector hrewrites.rooted
      hrewrites.settled hrewrites.run
  cases hvalue : store.value with
  | type held =>
    rw [hvalue] at hrecord
    cases hrecord
    exact Or.inl (hold hhome)
  | path place =>
    rw [hvalue] at hrecord
    cases hrecord
    exact Or.inl (hold hhome)
  | fresh first =>
    have hsettles := hrewrites.settles hvalue
    by_cases hleads : store.frame.LeadsTo first id
    · obtain ⟨chain, -, -, hhome'⟩ := hsettles.homes id hleads
      refine Or.inr ⟨first, rfl, hleads, (AccessPath.liesWithin_iff home store.target).mpr ?_⟩
      exact ⟨chain, Option.some.inj (hhome.symm.trans hhome')⟩
    · refine Or.inl (hold ?_)
      unfold HasHome at hhome ⊢
      rw [← hsettles.others id hleads]
      exact hhome

/-! ## Slots after a write -/

/-- Recording an operand changes no slot. -/
theorem recordOperand_slots (hsound : frame.Sound graph arguments)
    (hsettled : frame.Settled operand) {value : PUnit}
    (hrun : recordOperand declarations span target operand frame graph =
      .ok (value, later) final) : graph.Grows final ∧ later.slots = frame.slots := by
  cases operand with
  | type held =>
    cases hrun
    exact ⟨.refl graph, rfl⟩
  | path place =>
    cases hrun
    exact ⟨.refl graph, rfl⟩
  | fresh id =>
    obtain ⟨type, hreify, hplace⟩ := exists_of_recordOperand_fresh hrun
    obtain ⟨hgrows, -, -⟩ :=
      (reify_shows declarations span hsound.wellFormed hsound.hasTypes id).of_eq_ok hreify
    have hlocal : (frame.record target (.type type)).isLocal id = true :=
      isLocal_iff_exists_object.mpr (settled_fresh_iff.mp hsettled)
    obtain ⟨stops, told, walk, htour, rfl, -⟩ :=
      (Placement.place_tours hlocal target true).of_eq_ok hplace
    exact ⟨hgrows, htour.slots⟩

/-- After a write, a slot has all parts that it had before. -/
theorem Rewrites.slots_cover {selector : Selector} {result : Operand}
    (hrewrites :
      Rewrites declarations span arguments selector store frame graph result later final) :
    store.graph.Grows final ∧ ∀ (position : Nat) (before after : TypeId),
      store.frame.slots[position]? = some before → later.slots[position]? = some after →
        final.Covers after before := by
  obtain ⟨written, built, slot, current, updated, rebuilt, hbuilt, hsound, hshows, hrebinds,
    hrebound, hrecord⟩ := exists_of_rebind hrewrites.sound hrewrites.selectors selector
      hrewrites.rooted hrewrites.settled hrewrites.run
  have hsettled := hrewrites.settled.withSlot slot updated
  obtain ⟨hgrows, hslots⟩ := recordOperand_slots hrebound hsettled hrecord
  refine ⟨(hbuilt.trans hrebinds.grows).trans hgrows,
    fun position before after hbefore hafter => ?_⟩
  rw [hslots] at hafter
  have hhas := (hsound.slots position before hbefore).1
  have hcovers : rebuilt.Covers after before := by
    intro part hpart
    rw [withSlot, List.getElem?_set] at hafter
    split at hafter
    · rename_i heq
      obtain rfl : slot = position := heq
      obtain rfl := Option.some.inj (hbefore.symm.trans hrebinds.held)
      rw [if_pos (List.getElem?_eq_some_iff.mp hbefore).1] at hafter
      obtain rfl := Option.some.inj hafter
      rw [hrebinds.grows.field?_eq hhas] at hpart
      exact TypeGraph.bindAt?_isSome_field? hsound.wellFormed hshows.has hhas hrewrites.selectors
        hrebinds.bind hpart
    · obtain rfl := Option.some.inj (hbefore.symm.trans hafter)
      exact hpart
  exact hcovers.grow hgrows (hrebound.slots position after hafter).1 (hrebinds.grows.has hhas)

/-! ## What lasts -/

/-- No two objects share a home, homes are parts of arguments, and the slots have the parts that the
arguments had. -/
structure Lasting (arguments : List TypeId) (graph : TypeGraph) (frame : Frame) : Prop where
  distinct : ∀ id other home, frame.HasHome id home → frame.HasHome other home → id = other
  below : ∀ id home, frame.HasHome id home → home.selectors ≠ []
  covers : ∀ (slot : Nat) (argument type : TypeId), arguments[slot]? = some argument →
    frame.slots[slot]? = some type → graph.Covers type argument

theorem lasting_start (arguments : List TypeId) (graph : TypeGraph) :
    Lasting arguments graph { slots := arguments } where
  distinct _ _ _ hhome := nomatch hhome
  below _ _ hhome := nomatch hhome
  covers slot argument type hargument hslot := by
    obtain rfl := Option.some.inj (hargument.symm.trans hslot)
    exact fun _ hpart => hpart

theorem Lasting.quiet (hlasting : Lasting arguments graph frame)
    (hsound : frame.Sound graph arguments) (hgrows : graph.Grows grown)
    (hquiet : frame.Quiet later) : Lasting arguments grown later where
  distinct id other home hid hother :=
    hlasting.distinct id other home (hid.of_quiet hquiet) (hother.of_quiet hquiet)
  below id home hid := hlasting.below id home (hid.of_quiet hquiet)
  covers slot argument type hargument hslot := by
    rw [hquiet.slots] at hslot
    exact (hlasting.covers slot argument type hargument hslot).grow hgrows
      (hsound.slots slot type hslot).1
      (hsound.has_arguments argument (List.mem_of_getElem? hargument))

theorem Lasting.rewritten {selector : Selector} {result : Operand}
    (hlasting : Lasting arguments graph frame) (hsound : frame.Sound graph arguments)
    (hrewrites :
      Rewrites declarations span arguments selector store frame graph result later final) :
    Lasting arguments final later where
  distinct id other home hid hother := by
    rcases hrewrites.home_cases hid with hold | hnew
    · rcases hrewrites.home_cases hother with hold' | hnew'
      · exact hlasting.distinct id other home hold.1 hold'.1
      · obtain ⟨-, -, -, hwithin⟩ := hnew'
        exact absurd (hold.2.symm.trans hwithin) Bool.false_ne_true
    · obtain ⟨first, hvalue, hleads, hwithin⟩ := hnew
      rcases hrewrites.home_cases hother with hold' | hnew'
      · exact absurd (hold'.2.symm.trans hwithin) Bool.false_ne_true
      · obtain ⟨_, hvalue', hleads', -⟩ := hnew'
        cases hvalue.symm.trans hvalue'
        exact (hrewrites.settles hvalue).distinct id other home hleads hleads' hid hother
  below id home hid := by
    rcases hrewrites.home_cases hid with hold | hnew
    · exact hlasting.below id home hold.1
    · obtain ⟨-, -, -, hwithin⟩ := hnew
      obtain ⟨chain, rfl⟩ := (AccessPath.liesWithin_iff home store.target).mp hwithin
      exact List.append_ne_nil_of_left_ne_nil hrewrites.selectors chain
  covers slot argument type hargument hslot := by
    obtain ⟨hgrows, hcovers⟩ := hrewrites.slots_cover
    have hlt : slot < frame.slots.length := by
      rw [hsound.length_slots]
      exact (List.getElem?_eq_some_iff.mp hargument).1
    have hbefore := List.getElem?_eq_getElem hlt
    have hkept : store.frame.slots[slot]? = some frame.slots[slot] := by
      rw [hrewrites.quiet.slots, hbefore]
    have hmem := hsound.has_arguments argument (List.mem_of_getElem? hargument)
    exact (hcovers slot _ type hkept hslot).trans
      ((hlasting.covers slot argument _ hargument hbefore).grow (hrewrites.grows.trans hgrows)
        (hsound.slots slot _ hbefore).1 hmem)

theorem steady_lasting (declarations : Declarations) : Steady declarations Lasting where
  start _ _ := lasting_start _ _
  quiet hsound hlasting hgrows hquiet := hlasting.quiet hsound hgrows hquiet
  write hsound hlasting hvalue hrun := by
    rcases write_cases hsound hvalue hrun with hquiet | hrebind
    · obtain ⟨hquiet, rfl⟩ := hquiet
      exact hlasting.quiet hsound (.refl _) hquiet
    · obtain ⟨store, -, hrewrites⟩ := hrebind
      exact hlasting.rewritten hsound hrewrites

end Frame

/-- In a session, at all points of all bodies: no two objects share a home; a home is a part of an
argument, and the class of the object is found there; and a slot has the class of its argument, or
is primitive like it, and has all parts that the argument has. -/
theorem Engine.session_lasts {program : Program} {limit : Nat} {engine : Engine}
    {history : List Moment} (hsession : Engine.Session program limit engine history) :
    ∀ moment ∈ history, ∀ task point, moment.Passes (.ofProgram program) limit task point →
      (∀ id other home, point.frame.HasHome id home → point.frame.HasHome other home →
        id = other) ∧
      (∀ (id : AllocId) object home, point.frame.allocations[id.index]? = some object →
        object.home? = some home →
          0 < home.root ∧ home.root ≤ task.arguments.length ∧ home.selectors ≠ [] ∧
            point.frame.classAt? point.graph home = some object.className) ∧
      point.frame.slots.length = task.arguments.length ∧
      ∀ (slot : Nat) argument, task.arguments[slot]? = some argument →
        ∃ type, point.frame.slots[slot]? = some type ∧ point.graph.Has type ∧
          point.graph.className? type = point.graph.className? argument ∧
            point.graph.Covers type argument := by
  intro moment hmem task point hpasses
  obtain ⟨hsound, hhoused, -, hlasting⟩ :=
    (Frame.steady_lasting (.ofProgram program)).session_stands hsession moment hmem task point
      hpasses
  refine ⟨hlasting.distinct, fun id object home hobject hhome => ?_, hsound.length_slots,
    fun slot argument hargument => ?_⟩
  · obtain ⟨slot, _, _, hroot, hargument, -⟩ :=
      (hsound.objects id.index object hobject).home home hhome
    have hlt := (List.getElem?_eq_some_iff.mp hargument).1
    exact ⟨by omega, by omega,
      hlasting.below id home (Option.bind_eq_some_iff.mpr ⟨object, hobject, hhome⟩),
      hhoused id.index object home hobject hhome⟩
  · have hlt : slot < point.frame.slots.length := by
      rw [hsound.length_slots]
      exact (List.getElem?_eq_some_iff.mp hargument).1
    have hslot := List.getElem?_eq_getElem hlt
    obtain ⟨hhas, hclass⟩ := hsound.slots slot _ hslot
    rw [hargument] at hclass
    exact ⟨_, hslot, hhas, hclass, hlasting.covers slot argument _ hargument hslot⟩

/-- Before the rack on the stand is replaced, it is at home there, and so is the tool at the left
side of the rack. -/
theorem standEngine_lasts : ∃ history moment point,
    Engine.Session standProgram 4 standEngine history ∧ moment ∈ history ∧
      moment.Passes (.ofProgram standProgram) 4 standTask point ∧
        point.frame.HasHome ⟨0⟩ ⟨1, [.field "@on"]⟩ ∧
          point.frame.HasHome ⟨1⟩ ⟨1, [.field "@on", .field "@left"]⟩ ∧
            point.frame.classAt? point.graph ⟨1, [.field "@on", .field "@left"]⟩ = some "Tool" ∧
              ∃ type, point.frame.slots[0]? = some type ∧
                point.graph.className? type = point.graph.className? ⟨1⟩ := by
  let declarations : Declarations := .ofProgram standProgram
  have hany : (standTask.points declarations 4 3 standStart.knowledge).any (fun point =>
      point.act = .writes (.path ⟨1, []⟩) (.field "@on") (.type ⟨0⟩) ∧
        point.frame.HasHome ⟨0⟩ ⟨1, [.field "@on"]⟩ ∧
          point.frame.allocations[1]?.any fun object => object.className = "Tool" ∧
            object.home? = some ⟨1, [.field "@on", .field "@left"]⟩) = true := by
    decide +kernel
  obtain ⟨history, hsession, hmoments⟩ := standEngine_session
  obtain ⟨moment, hmem, point, hpasses, htested⟩ := Task.exists_passes [] hany
  rw [decide_eq_true_eq] at htested
  obtain ⟨-, hrack, htool⟩ := htested
  obtain ⟨object, hobject, htested⟩ := (Option.any_eq_true _ _).mp htool
  rw [decide_eq_true_eq] at htested
  obtain ⟨hclass, hhome⟩ := htested
  obtain ⟨-, hhomes, -, hslots⟩ :=
    Engine.session_lasts hsession moment (hmoments moment hmem) standTask point hpasses
  obtain ⟨-, -, -, hfound⟩ := hhomes ⟨1⟩ object _ hobject hhome
  obtain ⟨type, hslot, -, hkept, -⟩ := hslots 0 ⟨1⟩ rfl
  exact ⟨history, moment, point, hsession, hmoments moment hmem, hpasses, hrack,
    Option.bind_eq_some_iff.mpr ⟨object, hobject, hhome⟩, hfound.trans (congrArg some hclass),
    type, hslot, hkept⟩

end ShapeFlow
