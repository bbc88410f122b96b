import ShapeFlow.Proofs.FrameSteps
import ShapeFlow.Proofs.MemoEntries
import ShapeFlow.Proofs.Rebinding
import ShapeFlow.Proofs.TwinWrites

/-!
# Replaying the recorded writes

Callers learn what a body does to its arguments from the writes that it records.  They can repeat
them on types alone (`TypeGraph.replay?`): beginning with the argument types, each target is
rebound to the recorded type, or to the type that is found at the recorded place by then.

`Frame.Faithful` says that this leads to the types that the slots of the frame have.  Names of
types do not matter, so the replay may take place in any graph that has the recorded types.  Two
kinds of writes keep it: one that gives the target in the slot what it gives the target in the
replay (`Frame.Faithful.record_rebound`), and one that leaves the slots alone and says of a place
only what is the case there already (`Frame.Faithful.record_alias`).
-/

namespace ShapeFlow

open TypeGraph (SameUnfolding SameUnfoldings)

/-! ## Writes on types -/

namespace TypeGraph

/-- The type that is found at a place where the slots have the given types. -/
def typeAt? (graph : TypeGraph) (slots : List TypeId) (place : AccessPath) : Option TypeId :=
  match place.root with
  | 0 => none
  | slot + 1 => slots[slot]?.bind fun type => graph.follow? type place.selectors

/-- The type of a recorded value where the slots have the given types. -/
def valueType? (graph : TypeGraph) (slots : List TypeId) : Value → Option TypeId
  | .type type => some type
  | .path place => graph.typeAt? slots place

/-- Repeat one recorded write on the types of the slots. -/
def repeatWrite? (graph : TypeGraph) (slots : List TypeId) (write : Write) :
    Option (List TypeId × TypeGraph) := do
  let part ← graph.valueType? slots write.value
  match write.target.root with
  | 0 => none
  | slot + 1 =>
    let current ← slots[slot]?
    let (updated, grown) ← graph.bindAt? current write.target.selectors part
    some (slots.set slot updated, grown)

/-- Repeat recorded writes on the types of the slots, one after the other. -/
def replay? (graph : TypeGraph) (slots : List TypeId) (writes : List Write) :
    Option (List TypeId × TypeGraph) :=
  writes.foldlM (fun state write => state.2.repeatWrite? state.1 write) (slots, graph)

theorem replay?_append (graph : TypeGraph) (slots : List TypeId) (first second : List Write) :
    graph.replay? slots (first ++ second) =
      (graph.replay? slots first).bind fun state => state.2.replay? state.1 second := by
  simp [replay?, List.foldlM_append, bind]

variable {graph grown later : TypeGraph} {slots held : List TypeId} {write : Write}

theorem SameUnfoldings.typeAt? (hslots : SameUnfoldings later slots graph held)
    (place : AccessPath) : Option.Rel (fun type other => SameUnfolding later type graph other)
      (later.typeAt? slots place) (graph.typeAt? held place) := by
  unfold TypeGraph.typeAt?
  split
  · exact .none
  · exact rel_bind (forall₂_getElem? hslots _) fun _ _ hsame => hsame.rel_follow? _

/-- The write can be repeated, and the slots have then the unfoldings of the given types. -/
def Repeats (later : TypeGraph) (slots : List TypeId) (write : Write) (graph : TypeGraph)
    (held : List TypeId) : Prop :=
  ∃ slots' last, later.repeatWrite? slots write = some (slots', last) ∧ later.Grows last ∧
    last.WellFormed ∧ SameUnfoldings last slots' graph held

/-- Where a slot is rebuilt with a part, the replay rebuilds it with a part of the same
unfolding. -/
theorem SameUnfoldings.repeats (hslots : SameUnfoldings later slots graph held)
    (write : Write) (hlater : later.WellFormed) (hgraph : graph.WellFormed) {slot : Nat}
    (hroot : write.target.root = slot + 1) {current part updated part' : TypeId}
    (hcurrent : held[slot]? = some current)
    (hbind : graph.bindAt? current write.target.selectors part = some (updated, grown))
    (hvalue : later.valueType? slots write.value = some part')
    (hpart : SameUnfolding later part' graph part) :
    later.Repeats slots write grown (held.set slot updated) := by
  obtain ⟨current', hcurrent', hsame⟩ :=
    exists_of_rel (forall₂_getElem? hslots.symm slot) hcurrent
  obtain ⟨result, hbind', -, hwell, hupdated⟩ :=
    bindAt?_follows hgraph hlater hsame hpart.symm hbind
  refine ⟨slots.set slot result.1, result.2, ?_, .bindAt? hbind', hwell, ?_⟩
  · simp only [TypeGraph.repeatWrite?, hvalue, hroot, hcurrent', hbind', Option.bind_eq_bind,
      Option.bind_some]
  · exact forall₂_set (hslots.mono (.bindAt? hbind') (.bindAt? hbind)) hupdated.symm slot

/-- The recorded value conveys the part: it is a type of the same unfolding, or a place at which
such a type is found. -/
inductive Conveys (graph final : TypeGraph) (held : List TypeId) (part : TypeId) :
    Value → Prop where
  | type {type : TypeId} (hsame : SameUnfolding final type graph part) :
    Conveys graph final held part (.type type)
  | path {source : AccessPath} {found : TypeId} (hfound : graph.typeAt? held source = some found)
    (hsame : SameUnfolding graph found graph part) : Conveys graph final held part (.path source)

theorem Conveys.valueType? {final : TypeGraph} {part : TypeId} {value : Value}
    (hconveys : graph.Conveys final held part value) (hgrows : final.Grows later)
    (hslots : SameUnfoldings later slots graph held) :
    ∃ part', later.valueType? slots value = some part' ∧
      SameUnfolding later part' graph part := by
  cases hconveys with
  | type hsame => exact ⟨_, rfl, hsame.mono hgrows (.refl graph)⟩
  | path hfound hsame =>
    obtain ⟨part', hpart', hsame'⟩ := exists_of_rel (hslots.symm.typeAt? _) hfound
    exact ⟨part', hpart', hsame'.symm.trans hsame⟩

/-- What is found at the place that is told is found at the target already. -/
def IsAlias (graph : TypeGraph) (held : List TypeId) (write : Write) : Prop :=
  ∃ source type there, write.value = .path source ∧ graph.typeAt? held source = some type ∧
    graph.typeAt? held write.target = some there ∧ SameUnfolding graph there graph type

/-- Repeating a write that only gives a place another name leaves the slots as they are. -/
theorem SameUnfoldings.repeats_alias (hslots : SameUnfoldings later slots graph held)
    (hlater : later.WellFormed) (hgraph : graph.WellFormed) (halias : graph.IsAlias held write) :
    later.Repeats slots write graph held := by
  obtain ⟨source, type, there, hvalue, htype, hthere, hsame⟩ := halias
  obtain ⟨type', htype', hsame'⟩ := exists_of_rel (hslots.symm.typeAt? source) htype
  unfold TypeGraph.typeAt? at hthere
  split at hthere
  · cases hthere
  · rename_i slot hroot
    obtain ⟨current, hcurrent, hfollow⟩ := Option.bind_eq_some_iff.mp hthere
    have hhas : ∀ type ∈ held, graph.Has type := hslots.symm.has_left
    obtain ⟨result, hbind, hupdated⟩ := bindAt?_sameUnfolding hgraph
      (hhas current (List.mem_of_getElem? hcurrent)) hfollow hsame
    obtain ⟨slots', last, hrepeat, hgrows, hwell, hagree⟩ := hslots.repeats write hlater hgraph
      hroot hcurrent hbind (by rw [hvalue]; exact htype') hsame'.symm
    refine ⟨slots', last, hrepeat, hgrows, hwell, hagree.trans ?_⟩
    -- The slot was rebuilt with what it had there.
    have hkept := forall₂_set (SameUnfoldings.of_grows (.bindAt? hbind) hgraph.closed hhas).symm
      hupdated.symm slot
    obtain ⟨hlt, rfl⟩ := List.getElem?_eq_some_iff.mp hcurrent
    rwa [List.set_getElem_self hlt] at hkept

end TypeGraph

/-! ## Faithful records -/

namespace Frame

variable {frame : Frame} {graph grown : TypeGraph} {arguments : List TypeId}

/-- Replaying the recorded writes from the argument types leads to the types of the slots. -/
def Faithful (arguments : List TypeId) (graph : TypeGraph) (frame : Frame) : Prop :=
  ∀ later : TypeGraph, graph.Grows later → later.WellFormed →
    ∃ slots last, later.replay? arguments frame.writes = some (slots, last) ∧
      later.Grows last ∧ last.WellFormed ∧ SameUnfoldings last slots graph frame.slots

theorem Faithful.mono (hfaithful : frame.Faithful arguments graph) (hgrows : graph.Grows grown)
    {later : Frame} (hslots : later.slots = frame.slots)
    (hwrites : later.writes = frame.writes) : later.Faithful arguments grown := by
  intro final hgrown hfinal
  obtain ⟨slots, last, hreplay, hgrows', hlast, hsame⟩ :=
    hfaithful final (hgrows.trans hgrown) hfinal
  rw [← hwrites] at hreplay
  refine ⟨slots, last, hreplay, hgrows', hlast, ?_⟩
  rw [hslots]
  exact hsame.mono (.refl last) hgrows

/-- At the beginning of a body nothing is recorded, and the slots have the argument types. -/
theorem faithful_start (hgraph : graph.WellFormed) (hhas : ∀ type ∈ arguments, graph.Has type) :
    ({ slots := arguments } : Frame).Faithful arguments graph :=
  fun later hgrows hlater => ⟨arguments, later, rfl, .refl later, hlater,
    (SameUnfoldings.of_grows hgrows hgraph.closed hhas).symm⟩

/-- One more write, which the replay can repeat. -/
theorem Faithful.append (hfaithful : frame.Faithful arguments graph) (hgrows : graph.Grows grown)
    (write : Write) {later : Frame} (hwrites : later.writes = frame.writes ++ [write])
    (hrepeats : ∀ final slots, grown.Grows final → final.WellFormed →
      SameUnfoldings final slots graph frame.slots →
        final.Repeats slots write grown later.slots) :
    later.Faithful arguments grown := by
  intro final hgrown hfinal
  obtain ⟨slots, last, hreplay, hgrows', hlast, hsame⟩ :=
    hfaithful final (hgrows.trans hgrown) hfinal
  obtain ⟨slots', last', hrepeat, hgrows'', hlast', hsame'⟩ :=
    hrepeats last slots (hgrown.trans hgrows') hlast hsame
  refine ⟨slots', last', ?_, hgrows'.trans hgrows'', hlast', hsame'⟩
  rw [hwrites, TypeGraph.replay?_append, hreplay]
  simpa [TypeGraph.replay?] using hrepeat

/-- A slot is rebuilt with a part, and the write of that part is recorded. -/
theorem Faithful.record_rebound (hfaithful : frame.Faithful arguments graph)
    (hgraph : graph.WellFormed) {target : AccessPath} {slot : Nat}
    (hroot : target.root = slot + 1) {current part updated : TypeId}
    (hcurrent : frame.slots[slot]? = some current) (hpart : graph.Has part)
    (hbind : graph.bindAt? current target.selectors part = some (updated, grown))
    {final : TypeGraph} (hfinal : grown.Grows final) {value : Value}
    (hvalue : graph.Conveys final frame.slots part value) :
    (({ frame with slots := frame.slots.set slot updated } : Frame).record target value).Faithful
      arguments final := by
  have hgrows : graph.Grows grown := .bindAt? hbind
  refine hfaithful.append (hgrows.trans hfinal) ⟨target, value⟩ rfl ?_
  intro later slots hlater hwell hsame
  obtain ⟨part', hpart', hsamePart⟩ := hvalue.valueType? hlater hsame
  obtain ⟨slots', last, hrepeat, hgrows', hlast, hagree⟩ :=
    hsame.repeats ⟨target, value⟩ hwell hgraph hroot hcurrent hbind hpart' hsamePart
  obtain ⟨hwell', -⟩ := TypeGraph.bindAt?_wellFormed hgraph hpart hbind
  exact ⟨slots', last, hrepeat, hgrows', hlast,
    hagree.trans (.of_grows hfinal hwell'.closed hagree.symm.has_left)⟩

/-- A write is recorded that gives a place another name. -/
theorem Faithful.record_alias (hfaithful : frame.Faithful arguments graph)
    (hgraph : graph.WellFormed) {target : AccessPath} {value : Value}
    (halias : graph.IsAlias frame.slots ⟨target, value⟩) :
    (frame.record target value).Faithful arguments graph :=
  hfaithful.append (.refl graph) _ rfl fun _ _ _ hfinal hsame =>
    hsame.repeats_alias hfinal hgraph halias

end Frame

end ShapeFlow
