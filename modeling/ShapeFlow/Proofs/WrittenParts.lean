import ShapeFlow.Proofs.BoundCalls
import ShapeFlow.Proofs.ConcurringWrites
import ShapeFlow.Proofs.IdentifiedOperands

/-!
# Reading back what has been written

A part that has been written can be read at once, and the read finds what the write has answered
(`Frame.write_reads_back`).  If the part belongs to a place, the write answers the place of the part
whatever was written, whereas the read answers the type alone if that is primitive; apart from this
the two answers are the same (`Frame.Alike`).

If the part belongs to an object without a home, what is known stays known, even though the object
may become a part of itself (`Frame.Known.bindPart`).
-/

namespace ShapeFlow

open TypeGraph (SameUnfolding)

variable {declarations : Declarations} {span : Span} {arguments : List TypeId}
  {frame later called : Frame} {graph final left right : TypeGraph}
  {operand other base held value result resolved : Operand} {id child : AllocId}
  {object : Allocation} {selector key : Selector} {place : AccessPath} {part : TypeId}

namespace Frame

/-! ## Answers that are alike -/

/-- The operands are the same but for the names of types, or one of them is the place of a primitive
value and the other one the type of that. -/
inductive Alike (frame : Frame) (left right : TypeGraph) : Operand → Operand → Prop
  | twin {operand other : Operand} (htwin : operand.Twin left right other) :
      Alike frame left right operand other
  | primitive {place : AccessPath} {type found : TypeId}
      (hplace : frame.placeType? left place = some type) (hnode : left.node? type = some .scalar)
      (hother : right.node? found = some .scalar) :
      Alike frame left right (.path place) (.type found)

namespace Alike

theorem grow (halike : frame.Alike left right operand other) (hgrows : right.Grows final) :
    frame.Alike left final operand other := by
  cases halike with
  | twin htwin => exact .twin (htwin.grow ⟨.refl left, hgrows⟩)
  | primitive hplace hnode hother => exact .primitive hplace hnode (hgrows.node? hother)

/-- What is alike in one of two twin frames is alike in the other one. -/
theorem of_twin (halike : called.Alike right right result other)
    (htwin : later.Twin left right called) (hoperand : operand.Twin left right result) :
    later.Alike left right operand other := by
  cases halike with
  | twin hother => exact .twin (hoperand.trans hother)
  | primitive hplace hnode hother =>
    cases hoperand
    obtain ⟨type, htype, hsame⟩ := exists_of_rel (htwin.symm.placeType? _) hplace
    obtain ⟨node, node', hnode', hfound, halike⟩ := hsame.exists_twin
    obtain rfl := Option.some.inj (hnode.symm.trans hnode')
    cases halike
    exact .primitive htype hfound hother

end Alike

/-! ## Parts of objects without homes -/

/-- Bind a part of an object. -/
def bindPart (frame : Frame) (id : AllocId) (selector : Selector) (held : Operand) : Frame :=
  frame.update id fun object => { object with fields := object.fields.insert selector held }

theorem bindPart_getElem? (frame : Frame) (id child : AllocId) (selector : Selector)
    (held : Operand) : (frame.bindPart id selector held).allocations[child.index]? =
      frame.allocations[child.index]?.map fun object =>
        if child = id then { object with fields := object.fields.insert selector held }
        else object := by
  rw [bindPart, update, Array.getElem?_modify]
  by_cases hchild : child = id
  · subst hchild
    simp
  · have hne : id.index ≠ child.index := fun heq => hchild (congrArg AllocId.mk heq.symm)
    simp [hne, hchild]

theorem bindPart_self (hobject : frame.allocations[id.index]? = some object) (selector : Selector)
    (held : Operand) : (frame.bindPart id selector held).allocations[id.index]? =
      some { object with fields := object.fields.insert selector held } := by
  rw [bindPart_getElem?, hobject, Option.map_some, if_pos rfl]

/-- An object without a home has the parts that it had, except for the part that was bound. -/
theorem exists_of_bindPart {after : Allocation}
    (hafter : (frame.bindPart id selector held).localObject? (.fresh child) = some after) :
    ∃ object, frame.localObject? (.fresh child) = some object ∧
      ∀ key operand, after.fields.get? key = some operand →
        operand = held ∨ object.fields.get? key = some operand := by
  obtain ⟨hat, hhome⟩ := localObject?_fresh_iff.mp hafter
  rw [bindPart_getElem?] at hat
  obtain ⟨object, hobject, rfl⟩ := Option.map_eq_some_iff.mp hat
  refine ⟨object, localObject?_fresh_iff.mpr ⟨hobject, ?_⟩, fun key operand hoperand => ?_⟩
  · rw [← hhome]
    split <;> rfl
  · split at hoperand
    · rw [OrderedMap.get?_insert] at hoperand
      split at hoperand
      · exact Or.inl (Option.some.inj hoperand).symm
      · exact Or.inr hoperand
    · exact Or.inr hoperand

/-- An object is at home where it was. -/
theorem exists_bindPart (hobject : frame.allocations[child.index]? = some object) (id : AllocId)
    (selector : Selector) (held : Operand) :
    ∃ after, (frame.bindPart id selector held).allocations[child.index]? = some after ∧
      after.home? = object.home? := by
  refine ⟨_, (bindPart_getElem? frame id child selector held).trans (congrArg _ hobject), ?_⟩
  dsimp only
  split <;> rfl

theorem Settled.bindPart (hsettled : frame.Settled operand) (id : AllocId) (selector : Selector)
    (held : Operand) : (frame.bindPart id selector held).Settled operand := by
  cases operand with
  | type type => rfl
  | path place => rfl
  | fresh child =>
    obtain ⟨object, hobject, hhome⟩ := settled_fresh_iff.mp hsettled
    obtain ⟨after, hafter, hsame⟩ := exists_bindPart hobject id selector held
    exact settled_fresh_iff.mpr ⟨after, hafter, hsame.trans hhome⟩

theorem Stands.bindPart (hstands : frame.Stands graph operand) (id : AllocId) (selector : Selector)
    (held : Operand) : (frame.bindPart id selector held).Stands graph operand := by
  cases operand with
  | type type => exact hstands
  | path place => exact hstands
  | fresh child =>
    rcases hstands with ⟨type, htype⟩ | ⟨object, hobject⟩
    · obtain ⟨object, hobject, hfound⟩ := Option.bind_eq_some_iff.mp htype
      obtain ⟨after, hafter, hhome⟩ := exists_bindPart hobject id selector held
      refine Or.inl ⟨type, Option.bind_eq_some_iff.mpr ⟨after, hafter, ?_⟩⟩
      rw [hhome]
      exact hfound
    · obtain ⟨hat, hhome⟩ := localObject?_fresh_iff.mp hobject
      obtain ⟨after, hafter, hsame⟩ := exists_bindPart hat id selector held
      exact Or.inr ⟨after, localObject?_fresh_iff.mpr ⟨hafter, hsame.trans hhome⟩⟩

theorem Known.stands (hknown : frame.Known graph operand) : frame.Stands graph operand := by
  cases operand with
  | type type => exact Or.inl ⟨type, rfl⟩
  | path place => exact Or.inl hknown
  | fresh id => exact Navigable.stands hknown

/-- What is known stays known when a part is bound to what is known. -/
theorem Known.bindPart (hknown : frame.Known graph operand) (hheld : frame.Known graph held)
    (id : AllocId) (selector : Selector) :
    (frame.bindPart id selector held).Known graph operand := by
  -- Whatever a chain leads to afterwards was known before.
  have hpart : ∀ {child after key operand}, frame.Known graph (.fresh child) →
      (frame.bindPart id selector held).localObject? (.fresh child) = some after →
        after.fields.get? key = some operand → frame.Known graph operand := by
    intro child after key operand hchild hafter hoperand
    obtain ⟨object, hobject, hparts⟩ := exists_of_bindPart hafter
    rcases hparts key operand hoperand with rfl | hheld'
    · exact hheld
    · exact hchild.part hobject hheld'
  cases operand with
  | type type => trivial
  | path place => exact hknown
  | fresh first =>
    have hreached : ∀ {last}, (frame.bindPart id selector held).LeadsTo first last →
        frame.Known graph (.fresh last) := by
      intro last hleads
      induction hleads with
      | refl => exact hknown
      | tail _ hholds ih =>
        obtain ⟨after, -, key, hafter, hchild, -⟩ := holds_iff.mp hholds
        exact hpart ih hafter hchild
    refine ⟨hknown.stands.bindPart id selector held, ?_⟩
    intro last after key operand hleads hafter hoperand
    exact (hpart (hreached hleads) hafter hoperand).stands.bindPart id selector held

/-! ## Parts of places -/

theorem exists_of_placeType?_child
    (hpart : frame.placeType? graph (place.child selector) = some part) :
    ∃ type, frame.placeType? graph place = some type ∧ graph.field? type selector = some part := by
  have happend : frame.placeType? graph (place.append [selector]) = some part := hpart
  rw [placeType?_append] at happend
  obtain ⟨type, htype, hfollow⟩ := Option.bind_eq_some_iff.mp happend
  rw [TypeGraph.follow?_cons] at hfollow
  obtain ⟨found, hfound, hnil⟩ := Option.bind_eq_some_iff.mp hfollow
  obtain rfl := Option.some.inj hnil
  exact ⟨type, htype, hfound⟩

/-- A type is found at the target of a write that has succeeded. -/
theorem Rewrites.exists_placeType? {store : Store}
    (hrewrites :
      Rewrites declarations span arguments selector store frame graph result later final) :
    ∃ part, later.placeType? final store.target = some part := by
  obtain ⟨written, built, slot, current, updated, rebuilt, -, hsound, hshows, hrebinds, hrebound,
    hrecord⟩ := exists_of_rebind hrewrites.sound hrewrites.selectors selector hrewrites.rooted
      hrewrites.settled hrewrites.run
  obtain ⟨part, hpart, -⟩ := hrebinds.placeType?_target hsound hshows.has
  obtain ⟨hgrows, hslots⟩ :=
    recordOperand_slots hrebound (hrewrites.settled.withSlot slot updated) hrecord
  refine ⟨part, (placeType?_eq_of_slots hslots store.target).trans ?_⟩
  exact (placeType?_eq_of_grows hgrows hrebound.wellFormed.closed hrebound.hasTypes _).trans hpart

/-- A write to a part of a place answers the place of the part, and any other write its value. -/
theorem write_answers (hbase : frame.resolve base = .ok resolved)
    (hrun : write declarations span base selector value frame graph = .ok (result, later) final) :
    (∃ place, resolved = .path place ∧ result = .path (place.child selector)) ∨
      (∀ place, resolved ≠ .path place) ∧ frame.resolve value = .ok result := by
  unfold write at hrun
  obtain ⟨_, hresolved, hrun⟩ := exists_of_inspect_bind hrun
  obtain rfl := Except.ok.inj (hbase.symm.trans hresolved)
  obtain ⟨told, htold, hrun⟩ := exists_of_inspect_bind hrun
  obtain ⟨className?, -, hrun⟩ := exists_of_inspect_bind hrun
  cases className? with
  | none => cases hrun
  | some className =>
    dsimp only at hrun
    split at hrun
    · cases resolved with
      | type type =>
        cases hrun
        exact Or.inr ⟨nofun, htold⟩
      | fresh id =>
        obtain ⟨_, _, _, -, hpure⟩ := exists_of_run_bind hrun
        cases hpure
        exact Or.inr ⟨nofun, htold⟩
      | path place =>
        obtain ⟨_, _, _, -, hrun⟩ := exists_of_run_bind hrun
        obtain ⟨_, _, _, -, hrun⟩ := exists_of_run_bind hrun
        obtain ⟨_, _, _, -, hrun⟩ := exists_of_run_bind hrun
        obtain ⟨_, _, _, -, hrun⟩ := exists_of_run_bind hrun
        obtain ⟨_, _, _, -, hpure⟩ := exists_of_run_bind hrun
        cases hpure
        exact Or.inl ⟨place, rfl, rfl⟩
    · cases hrun

/-- What can be written, and what can be written to: the operand stands for itself, it is known and
identified, and its place starts from an argument. -/
structure AtHand (frame : Frame) (graph : TypeGraph) (arguments : List TypeId) (operand : Operand) :
    Prop where
  settled : frame.Settled operand
  known : frame.Known graph operand
  identified : operand.Identified graph
  rooted : operand.RootedIn graph arguments

theorem AtHand.mono (hathand : frame.AtHand graph arguments operand) (hgrows : graph.Grows final)
    (hsound : frame.Sound graph arguments) : frame.AtHand final arguments operand where
  settled := hathand.settled
  known := hathand.known.mono hgrows hsound.wellFormed.closed hsound.hasTypes
  identified := hathand.identified.grow hgrows
  rooted := hathand.rooted.mono hgrows

/-- A part that has been written is read back, and it is known. -/
theorem write_reads_back (hsound : frame.Sound graph arguments)
    (hbase : frame.AtHand graph arguments base) (hvalue : frame.AtHand graph arguments value)
    (hrun : write declarations span base selector value frame graph = .ok (result, later) final) :
    ∃ answer, later.Settled base ∧
      read declarations span final base selector later = .ok (answer, later) ∧
        later.Known final answer ∧ later.Alike final final result answer := by
  obtain ⟨-, hlater, hresult⟩ :=
    (write_keeps hsound hbase.rooted selector hvalue.rooted).of_eq_ok hrun
  have hwell := hlater.wellFormed
  have htwin : result.Twin final final result := hresult.twin hwell.closed
  have hanswers := write_answers hbase.settled hrun
  cases write_registers hsound hbase.identified hvalue.rooted hrun with
  | @part id object held hfresh hobject hhome hheld hchanged hsame =>
    obtain rfl := Except.ok.inj (hbase.settled.symm.trans hfresh)
    obtain rfl := Except.ok.inj (hvalue.settled.symm.trans hheld)
    obtain ⟨_, ⟨⟩, -⟩ | ⟨-, hresolved⟩ := hanswers
    obtain rfl := Except.ok.inj (hvalue.settled.symm.trans hresolved)
    subst hsame
    obtain rfl : later = frame.bindPart id selector value := hchanged
    have hafter := bindPart_self hobject selector value
    have hheld : (object.fields.insert selector value).get? selector = some value := by
      rw [OrderedMap.get?_insert, if_pos rfl]
    have hsettled' := hbase.settled.bindPart id selector value
    have hread : read declarations span final (.fresh id) selector
        (frame.bindPart id selector value) = .ok (value, frame.bindPart id selector value) := by
      cases value with
      | type type => exact read_of_scalar hsettled' hafter hheld (hvalue.identified type rfl)
      | path place => exact read_of_held hsettled' hafter hheld nofun rfl
      | fresh child =>
        exact read_of_held hsettled' hafter hheld nofun (hvalue.settled.bindPart id selector _)
    exact ⟨value, hsettled', hread, hvalue.known.bindPart hvalue.known id selector, .twin htwin⟩
  | @place place slot current part updated built grown told others hpath =>
    obtain rfl := Except.ok.inj (hbase.settled.symm.trans hpath)
    obtain ⟨_, ⟨⟩, rfl⟩ | ⟨hnot, -⟩ := hanswers
    · obtain ⟨store, hstores, hrewrites⟩ := write_path hsound hpath hvalue.rooted hrun
      obtain ⟨part, hpart⟩ := hrewrites.exists_placeType?
      rw [target_of_mem_stores hpath (hstores ▸ List.mem_singleton_self store)] at hpart
      obtain ⟨type, htype, hfield⟩ := exists_of_placeType?_child hpart
      have hhas := hwell.closed.has_field? hfield
      have hread : read declarations span final (.path place) selector later = _ :=
        read_of_path rfl htype hfield hhas
      refine ⟨_, rfl, hread, ?_⟩
      cases hclass : final.className? part with
      | some className => exact ⟨⟨part, hpart⟩, .twin htwin⟩
      | none =>
        have hnode := TypeGraph.node?_of_className?_eq_none hhas hclass
        exact ⟨trivial, .primitive hpart hnode hnode⟩
    · exact absurd rfl (hnot place)

end Frame

end ShapeFlow
