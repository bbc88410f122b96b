import ShapeFlow.Proofs.FaithfulLog
import ShapeFlow.Proofs.PlacedWalks

/-!
# What a summary says of the parts of the result

If a body returns an object without a home, the object is walked through as if it came to stand in
slot 0, and every place that it or an object below it holds is told as a write to a part of the
result (`Frame.expressResult`).

An object that is held at several parts is walked through at the first of them that the walk gets
to, and what it holds is told there only.  So all that an object holds is told at one chain that
leads to it, and at a given chain if no other one does (`summarize_tells_parts`).
-/

namespace ShapeFlow

variable {declarations : Declarations} {span : Span} {frame later : Frame} {id child : AllocId}
  {chain : List Selector} {selector : Selector}

/-! ## Objects with one chain -/

namespace Frame

/-- No other chain leads to where the chain of parts leads, unless it enters an object twice. -/
def OnlyChain (frame : Frame) (id : AllocId) (chain : List Selector) : Prop :=
  ∀ other, frame.objectAt? id other = frame.objectAt? id chain → frame.Direct id other →
    other = chain

/-- The parts of objects that hold an object. -/
def holders (frame : Frame) (child : AllocId) : List (AllocId × Selector) :=
  frame.allocations.toList.zipIdx.flatMap fun entry =>
    entry.1.fields.entries.filterMap fun part =>
      if part.2 = .fresh child then some (⟨entry.2⟩, part.1) else none

theorem mem_holders_of_partHolds (hholds : frame.PartHolds id selector (.fresh child)) :
    (id, selector) ∈ frame.holders child := by
  obtain ⟨object, hobject, hpart⟩ := hholds
  refine List.mem_flatMap.mpr ⟨(object, id.index), ?_, ?_⟩
  · rw [List.mem_zipIdx_iff_getElem?, Array.getElem?_toList, hobject]
  · exact List.mem_filterMap.mpr ⟨(selector, .fresh child),
      (object.fields.get?_eq_some_iff _ _).mp hpart, if_pos rfl⟩

theorem Direct.of_prefix {before : List Selector} (hdirect : frame.Direct id chain)
    (hbefore : before <+: chain) : frame.Direct id before := by
  intro first hfirst second hsecond
  have hwithin : ∀ part ∈ before.inits, part ∈ chain.inits := fun part hpart =>
    (List.mem_inits _ _).mpr (((List.mem_inits _ _).mp hpart).trans hbefore)
  exact hdirect first (hwithin first hfirst) second (hwithin second hsecond)

/-- Every chain but the empty one comes back to the object at which it starts only by entering it
twice. -/
theorem onlyChain_nil (frame : Frame) (id : AllocId) : frame.OnlyChain id [] := by
  intro other hother hdirect
  exact hdirect other ((List.mem_inits _ _).mpr (List.prefix_refl other)) []
    ((List.mem_inits _ _).mpr List.nil_prefix) hother

/-- An object that is held once, by an object with one chain, has one chain. -/
theorem OnlyChain.part {holder : AllocId} (honly : frame.OnlyChain id chain)
    (hchain : frame.objectAt? id chain = some holder)
    (hpart : frame.localPart? holder selector = some child)
    (hheld : frame.holders child = [(holder, selector)]) (hne : child ≠ id) :
    frame.OnlyChain id (chain ++ [selector]) := by
  intro other hother hdirect
  have hlast : frame.objectAt? id (chain ++ [selector]) = some child := by
    rw [objectAt?_concat, hchain]
    exact hpart
  rw [hlast] at hother
  cases other using List.reverseRecOn with
  | nil => exact absurd (Option.some.inj hother).symm hne
  | append_singleton before last _ =>
    rw [objectAt?_concat, Option.bind_eq_some_iff] at hother
    obtain ⟨parent, hparent, hlastPart⟩ := hother
    -- The last part of the other chain is the one part that holds the object.
    have hmem := mem_holders_of_partHolds (localPart?_eq_some_iff.mp hlastPart).2.1
    rw [hheld, List.mem_singleton, Prod.mk.injEq] at hmem
    obtain ⟨rfl, rfl⟩ := hmem
    rw [honly before (hparent.trans hchain.symm) (hdirect.of_prefix (List.prefix_append _ _))]

end Frame

/-! ## Telling the parts -/

/-- The walk through a result is the only thing that adds writes when an object without a home is
told as one. -/
theorem Frame.exists_of_expressResult {graph grown : TypeGraph} {operand : Operand} {value : Value}
    (hresolve : frame.resolve operand = .ok (.fresh id))
    (hrun : expressResult declarations span operand frame graph = .ok (value, later) grown) :
    frame.place false id ⟨AccessPath.resultSlot, []⟩ = .ok later := by
  unfold expressResult at hrun
  obtain ⟨resolved, hanswer, hrun⟩ := exists_of_inspect_bind hrun
  obtain rfl := Except.ok.inj (hresolve.symm.trans hanswer)
  dsimp only at hrun
  rw [getFrame_bind_eq] at hrun
  obtain ⟨type, built, -, hrun⟩ := exists_of_lift_bind hrun
  rw [getFrame_bind_eq] at hrun
  obtain ⟨placed, hplace, hrun⟩ := exists_of_checked_bind hrun
  cases hrun
  exact hplace

/-- When a body returns an object without a home, the summary has the writes that the body has made,
and then the places that the object or one below it holds.  Each object that it leads to has a
position, a chain at which all places that it holds are told; and at a chain that is the only one to
lead to an object, what the object holds is told. -/
theorem summarize_tells_parts {analyst : Analyst} {definition : Definition} {signature : Signature}
    {knowledge evaluated final : Knowledge} {operand : Operand} {summary : Summary}
    (hbody : Scope.evaluateBody ⟨declarations, definition, analyst⟩ definition.decl.body
      { slots := signature.arguments } knowledge = .ok (operand, frame) evaluated)
    (hresult : frame.resolve operand = .ok (.fresh id))
    (hrun : summarize analyst declarations definition signature knowledge = .ok summary final) :
    ∃ position : AllocId → List Selector,
      (∀ holder, frame.LeadsTo id holder → frame.objectAt? id (position holder) = some holder ∧
        frame.Direct id (position holder)) ∧
      (∃ told, summary.writes = frame.writes ++ told ∧ ∀ write, write ∈ told ↔
        ∃ holder selector place, frame.LeadsTo id holder ∧ frame.TellsPart holder selector place ∧
          write = ⟨⟨AccessPath.resultSlot, position holder ++ [selector]⟩, .path place⟩) ∧
      ∀ chain holder selector place, frame.objectAt? id chain = some holder →
        frame.OnlyChain id chain → frame.TellsPart holder selector place →
          ⟨⟨AccessPath.resultSlot, chain ++ [selector]⟩, .path place⟩ ∈ summary.writes := by
  obtain ⟨result, ended, hwhole, hpure⟩ := exists_of_bind hrun
  obtain ⟨value, later⟩ := result
  obtain ⟨_, _, _, hbody', hexpress⟩ := exists_of_run_bind hwhole
  cases hbody.symm.trans hbody'
  obtain ⟨grown, htold, -⟩ := exists_of_framed hexpress
  cases hpure
  have hlocal : frame.isLocal id = true :=
    Frame.isLocal_iff_exists_object.mpr (Frame.settled_fresh_iff.mp (Frame.resolve_settled hresult))
  obtain ⟨stops, told, walk, htour, rfl, hmet⟩ :=
    (Placement.place_tours hlocal _ false).of_eq_ok (Frame.exists_of_expressResult hresult htold)
  -- The position of an object is the chain of its stop.
  have hstops : ∀ holder, ∃ chain, frame.LeadsTo id holder → ⟨holder, chain⟩ ∈ stops := by
    intro holder
    by_cases hleads : frame.LeadsTo id holder
    · obtain ⟨stop, hstop, rfl⟩ := List.mem_map.mp ((htour.mem_ids_iff hmet).mpr hleads)
      exact ⟨stop.chain, fun _ => hstop⟩
    · exact ⟨[], fun hleads' => absurd hleads' hleads⟩
  choose position hposition using hstops
  have hat : ∀ stop ∈ stops, frame.LeadsTo id stop.id ∧ stop.chain = position stop.id := by
    intro stop hstop
    have hleads := (htour.mem_ids_iff hmet).mp (List.mem_map_of_mem hstop)
    exact ⟨hleads, congrArg Stop.chain (htour.eq_of_id_eq hstop (hposition stop.id hleads) rfl)⟩
  have htold : ∀ write, write ∈ told ↔ ∃ holder selector place, frame.LeadsTo id holder ∧
      frame.TellsPart holder selector place ∧
        write = ⟨⟨AccessPath.resultSlot, position holder ++ [selector]⟩, .path place⟩ := by
    intro write
    rw [htour.mem_told_iff]
    constructor
    · rintro ⟨stop, hstop, selector, place, htells, rfl⟩
      obtain ⟨hleads, hchain⟩ := hat stop hstop
      exact ⟨stop.id, selector, place, hleads, htells, by rw [hchain]; rfl⟩
    · rintro ⟨holder, selector, place, hleads, htells, rfl⟩
      exact ⟨_, hposition holder hleads, selector, place, htells, rfl⟩
  have hdirect : ∀ holder, frame.LeadsTo id holder →
      frame.objectAt? id (position holder) = some holder ∧ frame.Direct id (position holder) :=
    fun holder hleads => ⟨htour.leads _ (hposition holder hleads),
      htour.direct (hposition holder hleads)⟩
  refine ⟨position, hdirect, ⟨told, htour.writes, htold⟩, ?_⟩
  intro chain holder selector place hchain honly htells
  have hleads := Frame.leadsTo_iff_exists_objectAt?.mpr ⟨chain, hchain⟩
  obtain ⟨hposition', hdirect'⟩ := hdirect holder hleads
  obtain rfl := honly _ (hposition'.trans hchain.symm) hdirect'
  change _ ∈ walk.frame.writes
  rw [htour.writes]
  exact List.mem_append_right _ ((htold _).mpr ⟨holder, selector, place, hleads, htells, rfl⟩)

/-- A function that puts one box into both sides of a rack, and another one on its top. -/
def shelveProgram : Program where
  classes := [{ name := "Box", fields := [.field "@in"] },
    { name := "Rack", fields := [.field "@left", .field "@right", .field "@top"] }]
  functions := [{
    name := "shelve"
    parameters := ["thing"]
    body := [
      .bind {} "rack" (.allocate {} "Rack"),
      .bind {} "box" (.allocate {} "Box"),
      .bind {} "top" (.allocate {} "Box"),
      .write {} (.name {} "box") (.field "@in") (.name {} "thing"),
      .write {} (.name {} "top") (.field "@in") (.name {} "thing"),
      .write {} (.name {} "rack") (.field "@left") (.name {} "box"),
      .write {} (.name {} "rack") (.field "@right") (.name {} "box"),
      .write {} (.name {} "rack") (.field "@top") (.name {} "top"),
      .name {} "rack"] }]

/-- The program with the type of a box. -/
def shelveStart : Engine :=
  let engine := Engine.ofProgram shelveProgram 4
  engine.withGraph (engine.graph.plainObject "Box").2

/-- Only the top of the rack leads to the box there, and so what it holds is told. -/
theorem shelveStart_tells_parts : ∃ definition operand frame evaluated summary final,
    shelveStart.declarations.definition? ⟨2⟩ = some definition ∧
      Scope.evaluateBody ⟨shelveStart.declarations, definition,
        analyze shelveStart.declarations 4 3⟩ definition.decl.body { slots := [⟨1⟩] }
          shelveStart.knowledge = .ok (operand, frame) evaluated ∧
        frame.resolve operand = .ok (.fresh ⟨0⟩) ∧
          summarize (analyze shelveStart.declarations 4 3) shelveStart.declarations definition
            ⟨"shelve", [⟨1⟩]⟩ shelveStart.knowledge = .ok summary final ∧
            frame.OnlyChain ⟨0⟩ [.field "@top"] ∧
              frame.TellsPart ⟨2⟩ (.field "@in") ⟨1, []⟩ ∧
                ⟨⟨0, [.field "@top", .field "@in"]⟩, .path ⟨1, []⟩⟩ ∈ summary.writes := by
  let declarations := shelveStart.declarations
  have hany : (declarations.definition? ⟨2⟩).any (fun definition =>
      passes (fun result _ =>
        decide (result.2.resolve result.1 = .ok (.fresh ⟨0⟩)) &&
          decide (result.2.localPart? ⟨0⟩ (.field "@top") = some ⟨2⟩) &&
          decide (result.2.holders ⟨2⟩ = [(⟨0⟩, .field "@top")]) &&
          decide (result.2.PartHolds ⟨2⟩ (.field "@in") (.path ⟨1, []⟩)) &&
          passes (fun _ _ => true) (summarize (analyze declarations 4 3) declarations definition
            ⟨"shelve", [⟨1⟩]⟩ shelveStart.knowledge))
        (Scope.evaluateBody ⟨declarations, definition, analyze declarations 4 3⟩
          definition.decl.body { slots := [⟨1⟩] } shelveStart.knowledge)) = true := by
    decide +kernel
  obtain ⟨definition, hdefinition, hpasses⟩ := (Option.any_eq_true _ _).mp hany
  obtain ⟨⟨operand, frame⟩, evaluated, hbody, hchecks⟩ := exists_of_passes _ hpasses
  simp only [Bool.and_eq_true, decide_eq_true_eq] at hchecks
  obtain ⟨⟨⟨⟨hresult, hpart⟩, hheld⟩, hin⟩, hsummary⟩ := hchecks
  obtain ⟨summary, final, hrun, -⟩ := exists_of_passes _ hsummary
  have honly : frame.OnlyChain ⟨0⟩ ([] ++ [.field "@top"]) :=
    (frame.onlyChain_nil ⟨0⟩).part rfl hpart hheld (by decide)
  have hchain : frame.objectAt? ⟨0⟩ [.field "@top"] = some ⟨2⟩ :=
    (frame.objectAt?_concat ⟨0⟩ [] _).trans hpart
  have htells : frame.TellsPart ⟨2⟩ (.field "@in") ⟨1, []⟩ := ⟨_, hin, rfl⟩
  obtain ⟨position, -, -, htold⟩ := summarize_tells_parts hbody hresult hrun
  exact ⟨definition, operand, frame, evaluated, summary, final, hdefinition, hbody, hresult, hrun,
    honly, htells, htold _ ⟨2⟩ _ _ hchain honly htells⟩

end ShapeFlow
