import Mathlib.Data.List.Infix
import ShapeFlow.Proofs.ReleasedParts

/-!
# The stops of a walk through a placed object

An object that comes to stand at a place is walked through, and so are the objects that it holds,
each once (`Placement.visit`).  The walk meets an object at a *stop*: at the end of a chain of
parts, all of them without homes, that enters no object twice (`Frame.Direct`).  Where several
chains lead to an object, only the first one that the walk takes is a stop.

`Placement.Tour` is kept by every step of a walk.  It says which objects have been met and along
which chains, which of them are still being walked through, and what has been told so far.  When the
walk is over, its stops are the objects to which the placed object leads, each at one chain
(`Placement.Tour.mem_ids_iff`), and every place that one of them holds has been told at its stop
(`Placement.Tour.finished`).

The same walk serves for the result of a body and for an object that is written.  In the second case
the objects get homes on the way, as soon as their parts have been walked through, so that a part
may be told by the home that it got a moment ago (`Placement.Accounts.settled`).
-/

namespace ShapeFlow

variable {frame start later : Frame} {first id child : AllocId} {chain : List Selector}
  {selector : Selector} {operand : Operand} {target place : AccessPath}

namespace Frame

/-! ## Chains of parts -/

/-- The object that an object holds at a part, if both have no homes. -/
def localPart? (frame : Frame) (id : AllocId) (selector : Selector) : Option AllocId :=
  match (frame.localObject? (.fresh id)).bind (·.fields.get? selector) with
  | some (.fresh child) => if frame.isLocal child then some child else none
  | some (.type _) | some (.path _) | none => none

/-- The object to which a chain of parts leads, all of them without homes. -/
def objectAt? (frame : Frame) (id : AllocId) (chain : List Selector) : Option AllocId :=
  chain.foldlM frame.localPart? id

/-- The chain enters no object twice. -/
def Direct (frame : Frame) (id : AllocId) (chain : List Selector) : Prop :=
  ∀ before ∈ chain.inits, ∀ other ∈ chain.inits,
    frame.objectAt? id before = frame.objectAt? id other → before = other

instance (frame : Frame) (id : AllocId) (chain : List Selector) :
    Decidable (frame.Direct id chain) :=
  inferInstanceAs (Decidable (∀ before ∈ chain.inits, ∀ other ∈ chain.inits, _ → _))

theorem isLocal_iff_exists_object : frame.isLocal id = true ↔
    ∃ object, frame.allocations[id.index]? = some object ∧ object.home? = none := by
  rw [isLocal_iff]
  exact exists_congr fun object => localObject?_fresh_iff

theorem localPart?_eq_some_iff : frame.localPart? id selector = some child ↔
    frame.isLocal id = true ∧ frame.PartHolds id selector (.fresh child) ∧
      frame.isLocal child = true := by
  rw [isLocal_iff_exists_object]
  unfold localPart? PartHolds
  constructor
  · intro hpart
    split at hpart
    · rename_i other heq
      obtain ⟨object, hobject, hheld⟩ := Option.bind_eq_some_iff.mp heq
      obtain ⟨hobject, hhome⟩ := localObject?_fresh_iff.mp hobject
      split at hpart
      · rename_i hlocal
        obtain rfl := Option.some.inj hpart
        exact ⟨⟨object, hobject, hhome⟩, ⟨object, hobject, hheld⟩, hlocal⟩
      · cases hpart
    all_goals cases hpart
  · rintro ⟨⟨object, hobject, hhome⟩, ⟨held, hheld, hpart⟩, hlocal⟩
    obtain rfl := Option.some.inj (hobject.symm.trans hheld)
    rw [localObject?_fresh_iff.mpr ⟨hobject, hhome⟩, Option.bind_some, hpart]
    exact if_pos hlocal

theorem holds_iff_exists_localPart? :
    frame.Holds id child ↔ ∃ selector, frame.localPart? id selector = some child := by
  simp only [Holds, mem_localParts_iff, localPart?_eq_some_iff, PartHolds]
  constructor
  · rintro ⟨hid, object, selector, hobject, hpart, hchild⟩
    exact ⟨selector, hid, ⟨object, hobject, hpart⟩, hchild⟩
  · rintro ⟨selector, hid, ⟨object, hobject, hpart⟩, hchild⟩
    exact ⟨hid, object, selector, hobject, hpart, hchild⟩

@[simp] theorem objectAt?_nil (frame : Frame) (id : AllocId) :
    frame.objectAt? id [] = some id := rfl

theorem objectAt?_concat (frame : Frame) (id : AllocId) (chain : List Selector)
    (selector : Selector) : frame.objectAt? id (chain ++ [selector]) =
      (frame.objectAt? id chain).bind fun other => frame.localPart? other selector := by
  unfold objectAt?
  rw [List.foldlM_append]
  refine congrArg _ (funext fun other => ?_)
  rw [List.foldlM_cons]
  exact bind_pure _

/-- What a chain of parts leads to is what some chain of selectors leads to. -/
theorem leadsTo_iff_exists_objectAt? :
    frame.LeadsTo first id ↔ ∃ chain, frame.objectAt? first chain = some id := by
  constructor
  · intro hleads
    induction hleads with
    | refl => exact ⟨[], rfl⟩
    | tail _ hholds ih =>
      obtain ⟨chain, hchain⟩ := ih
      obtain ⟨selector, hpart⟩ := holds_iff_exists_localPart?.mp hholds
      exact ⟨chain ++ [selector], by rw [objectAt?_concat, hchain]; exact hpart⟩
  · rintro ⟨chain, hchain⟩
    induction chain using List.reverseRecOn generalizing id with
    | nil => exact Option.some.inj hchain ▸ .refl
    | append_singleton chain selector ih =>
      rw [objectAt?_concat, Option.bind_eq_some_iff] at hchain
      obtain ⟨other, hother, hpart⟩ := hchain
      exact (ih hother).tail (holds_iff_exists_localPart?.mpr ⟨selector, hpart⟩)

theorem isLocal_of_objectAt? (hfirst : frame.isLocal first = true)
    (hchain : frame.objectAt? first chain = some id) : frame.isLocal id = true :=
  (leadsTo_iff_exists_objectAt?.mpr ⟨chain, hchain⟩).isLocal hfirst

/-- A part of an object is told by a place. -/
def TellsPart (frame : Frame) (id : AllocId) (selector : Selector) (place : AccessPath) : Prop :=
  ∃ operand, frame.PartHolds id selector operand ∧ frame.resolve operand = .ok (.path place)

theorem resolve_of_isLocal (hlocal : frame.isLocal id = true) :
    frame.resolve (.fresh id) = .ok (.fresh id) :=
  settled_fresh_iff.mpr (isLocal_iff_exists_object.mp hlocal)

end Frame

theorem AccessPath.append_child (place : AccessPath) (chain : List Selector)
    (selector : Selector) :
    (place.append chain).child selector = place.append (chain ++ [selector]) := by
  simp [append, child]

/-! ## Tours -/

/-- A stop of a walk: an object, and the chain of parts along which it was met. -/
structure Stop where
  id : AllocId
  chain : List Selector
deriving DecidableEq

namespace Placement

/-- A write that the walk tells: a part of an object that was met is told by a place, or it is an
object that was met too and has got its home in the walk. -/
inductive Accounts (start : Frame) (target : AccessPath) (settling : Bool) (stops : List Stop) :
    Write → Prop where
  | held {stop : Stop} {selector : Selector} {place : AccessPath} (hstop : stop ∈ stops)
      (htells : start.TellsPart stop.id selector place) :
      Accounts start target settling stops
        ⟨target.append (stop.chain ++ [selector]), .path place⟩
  | settled {stop other : Stop} {selector : Selector} (hsettling : settling = true)
      (hstop : stop ∈ stops) (hother : other ∈ stops)
      (hholds : start.PartHolds stop.id selector (.fresh other.id)) :
      Accounts start target settling stops
        ⟨target.append (stop.chain ++ [selector]), .path (target.append other.chain)⟩

/-- A part of an object has been seen to: it has been told if it is told by a place, and it has been
met if it is an object without a home. -/
structure SeenTo (start : Frame) (target : AccessPath) (stops : List Stop) (told : List Write)
    (stop : Stop) (selector : Selector) (operand : Operand) : Prop where
  told : ∀ place, start.resolve operand = .ok (.path place) →
    ⟨target.append (stop.chain ++ [selector]), .path place⟩ ∈ told
  met : ∀ child, operand = .fresh child → start.isLocal child = true →
    child ∈ stops.map Stop.id

/-- What is the case in the course of a walk that began with the object `first` in the frame
`start`: at these stops it has met objects, at those of them that are underway it has not been
through with all parts, and this is what it has told. -/
structure Tour (start : Frame) (first : AllocId) (target : AccessPath) (settling : Bool)
    (stops underway : List Stop) (told : List Write) (walk : Placement) : Prop where
  slots : walk.frame.slots = start.slots
  writes : walk.frame.writes = start.writes ++ told
  met : walk.met = stops.map Stop.id
  distinct : (stops.map Stop.id).Nodup
  known : ∀ stop ∈ underway, stop ∈ stops
  leads : ∀ stop ∈ stops, start.objectAt? first stop.chain = some stop.id
  passed : ∀ stop ∈ stops, ∀ before, before <+: stop.chain →
    ∃ other ∈ stops, other.chain = before
  homes : settling = true → ∀ stop ∈ stops, stop ∉ underway →
    walk.frame.allocations[stop.id.index]? = start.allocations[stop.id.index]?.map fun object =>
      { object with home? := some (target.append stop.chain) }
  others : ∀ id, (settling = true → ∀ stop ∈ stops, stop.id = id → stop ∈ underway) →
    walk.frame.allocations[id.index]? = start.allocations[id.index]?
  accounts : ∀ write ∈ told, Accounts start target settling stops write
  finished : ∀ stop ∈ stops, stop ∉ underway → ∀ selector operand,
    start.PartHolds stop.id selector operand → SeenTo start target stops told stop selector operand

/-- The walk has gone on: what was met is still met, and what was told is still told. -/
def Onward (start : Frame) (first : AllocId) (target : AccessPath) (settling : Bool)
    (stops underway : List Stop) (told : List Write) (walk : Placement)
    (post : List Stop → List Write → Prop) : Prop :=
  ∃ stops' told', stops ⊆ stops' ∧ told ⊆ told' ∧
    Tour start first target settling stops' underway told' walk ∧ post stops' told'

section Tours

variable {settling : Bool} {stops stops' underway : List Stop} {told told' : List Write}
  {walk : Placement} {stop other : Stop}

theorem Accounts.mono {write : Write} (haccounts : Accounts start target settling stops write)
    (hstops : stops ⊆ stops') : Accounts start target settling stops' write := by
  cases haccounts with
  | held hstop htells => exact .held (hstops hstop) htells
  | settled hsettling hstop hother hholds =>
    exact .settled hsettling (hstops hstop) (hstops hother) hholds

theorem SeenTo.mono (hseen : SeenTo start target stops told stop selector operand)
    (hstops : stops ⊆ stops') (htold : told ⊆ told') :
    SeenTo start target stops' told' stop selector operand where
  told place hplace := htold (hseen.told place hplace)
  met child hchild hlocal := List.map_subset Stop.id hstops (hseen.met child hchild hlocal)

namespace Tour

/-- Before the first step. -/
theorem initial (start : Frame) (first : AllocId) (target : AccessPath) (settling : Bool) :
    Tour start first target settling [] [] [] { frame := start } where
  slots := rfl
  writes := (List.append_nil _).symm
  met := rfl
  distinct := List.nodup_nil
  known := nofun
  leads := nofun
  passed := nofun
  homes := nofun
  others _ _ := rfl
  accounts := nofun
  finished := nofun

variable (htour : Tour start first target settling stops underway told walk)

include htour

/-- An object is met at one stop only. -/
theorem eq_of_id_eq (hstop : stop ∈ stops) (hother : other ∈ stops) (heq : stop.id = other.id) :
    stop = other :=
  List.inj_on_of_nodup_map htour.distinct hstop hother heq

/-- Different stops are at different chains. -/
theorem eq_of_chain_eq (hstop : stop ∈ stops) (hother : other ∈ stops)
    (heq : stop.chain = other.chain) : stop = other := by
  refine htour.eq_of_id_eq hstop hother (Option.some.inj ?_)
  rw [← htour.leads stop hstop, ← htour.leads other hother, heq]

/-- The chain to a stop enters no object twice, as there is a stop all along the way. -/
theorem direct (hstop : stop ∈ stops) : start.Direct first stop.chain := by
  intro before hbefore after hafter heq
  obtain ⟨one, hone, rfl⟩ := htour.passed stop hstop before ((List.mem_inits _ _).mp hbefore)
  obtain ⟨two, htwo, rfl⟩ := htour.passed stop hstop after ((List.mem_inits _ _).mp hafter)
  rw [htour.leads one hone, htour.leads two htwo, Option.some.injEq] at heq
  rw [htour.eq_of_id_eq hone htwo heq]

/-- The next object is met. -/
theorem enter {chain : List Selector} (hnew : id ∉ stops.map Stop.id)
    (hleads : start.objectAt? first chain = some id)
    (hpassed : ∀ before, before <+: chain → before ≠ chain →
      ∃ other ∈ stops, other.chain = before) :
    Tour start first target settling (⟨id, chain⟩ :: stops) (⟨id, chain⟩ :: underway) told
      { walk with met := id :: walk.met } where
  slots := htour.slots
  writes := htour.writes
  met := congrArg (id :: ·) htour.met
  distinct := List.nodup_cons.mpr ⟨hnew, htour.distinct⟩
  known := List.forall_mem_cons.mpr ⟨List.mem_cons_self, fun stop hstop =>
    List.mem_cons_of_mem _ (htour.known stop hstop)⟩
  leads := List.forall_mem_cons.mpr ⟨hleads, htour.leads⟩
  passed := by
    refine List.forall_mem_cons.mpr ⟨fun before hbefore => ?_, fun stop hstop before hbefore => ?_⟩
    · by_cases heq : before = chain
      · exact ⟨⟨id, chain⟩, List.mem_cons_self, heq.symm⟩
      · obtain ⟨other, hother, hchain⟩ := hpassed before hbefore heq
        exact ⟨other, List.mem_cons_of_mem _ hother, hchain⟩
    · obtain ⟨other, hother, hchain⟩ := htour.passed stop hstop before hbefore
      exact ⟨other, List.mem_cons_of_mem _ hother, hchain⟩
  homes hsettling := by
    refine List.forall_mem_cons.mpr ⟨fun hnot => absurd List.mem_cons_self hnot, ?_⟩
    exact fun stop hstop hnot => htour.homes hsettling stop hstop
      fun hmem => hnot (List.mem_cons_of_mem _ hmem)
  others other hother := by
    refine htour.others other fun hsettling stop hstop heq => ?_
    rcases List.mem_cons.mp (hother hsettling stop (List.mem_cons_of_mem _ hstop) heq) with
      rfl | hmem
    · exact absurd (List.mem_map_of_mem hstop) hnew
    · exact hmem
  accounts write hwrite := (htour.accounts write hwrite).mono (List.subset_cons_self _ _)
  finished := by
    refine List.forall_mem_cons.mpr ⟨fun hnot => absurd List.mem_cons_self hnot, ?_⟩
    intro stop hstop hnot selector operand hholds
    refine (htour.finished stop hstop (fun hmem => hnot (List.mem_cons_of_mem _ hmem)) selector
      operand hholds).mono (List.subset_cons_self _ _) (List.Subset.refl _)

/-- A part is told. -/
theorem record {write : Write} (haccounts : Accounts start target settling stops write) :
    Tour start first target settling stops underway (told ++ [write])
      { walk with frame := walk.frame.record write.target write.value } where
  slots := htour.slots
  writes := by
    rw [← List.append_assoc, ← htour.writes]
    rfl
  met := htour.met
  distinct := htour.distinct
  known := htour.known
  leads := htour.leads
  passed := htour.passed
  homes := htour.homes
  others := htour.others
  accounts := List.forall_mem_append.mpr ⟨htour.accounts, List.forall_mem_singleton.mpr haccounts⟩
  finished stop hstop hnot selector operand hholds :=
    (htour.finished stop hstop hnot selector operand hholds).mono (List.Subset.refl _)
      (List.subset_append_left _ _)

end Tour

/-- The last object that was met is left: it gets its home, if the walk gives homes. -/
theorem Tour.leave (htour : Tour start first target settling stops (stop :: underway) told walk)
    (hnot : stop ∉ underway) (hseen : ∀ selector operand, start.PartHolds stop.id selector operand →
      SeenTo start target stops told stop selector operand) :
    Tour start first target settling stops underway told
      (if settling then walk.settle stop.id (target.append stop.chain) else walk) := by
  have hstop : stop ∈ stops := htour.known stop List.mem_cons_self
  have hobject : walk.frame.allocations[stop.id.index]? = start.allocations[stop.id.index]? :=
    htour.others stop.id fun _ other hother heq => by
      rw [htour.eq_of_id_eq hother hstop heq]
      exact List.mem_cons_self
  have hfinished : ∀ other ∈ stops, other ∉ underway → ∀ selector operand,
      start.PartHolds other.id selector operand →
        SeenTo start target stops told other selector operand := by
    intro other hother hnot'
    by_cases heq : other = stop
    · exact heq ▸ hseen
    · exact htour.finished other hother (List.not_mem_cons_of_ne_of_not_mem heq hnot')
  have hknown : ∀ other ∈ underway, other ∈ stops := fun other hother =>
    htour.known other (List.mem_cons_of_mem _ hother)
  cases settling with
  | false =>
    exact { htour with
      known := hknown
      homes := nofun
      others := fun id _ => htour.others id nofun
      finished := hfinished }
  | true =>
    have hupdated : ∀ id : AllocId,
        (walk.settle stop.id (target.append stop.chain)).frame.allocations[id.index]? =
        if id = stop.id then start.allocations[stop.id.index]?.map fun object =>
          { object with home? := some (target.append stop.chain) }
        else walk.frame.allocations[id.index]? := by
      intro id
      simp only [Placement.settle, Frame.update, Array.getElem?_modify]
      by_cases heq : id = stop.id
      · rw [if_pos (congrArg AllocId.index heq.symm), if_pos heq, heq, hobject]
      · rw [if_neg heq, if_neg fun hindex => heq (AllocId.index_inj.mp hindex.symm)]
    refine ⟨htour.slots, htour.writes, htour.met, htour.distinct, hknown, htour.leads, htour.passed,
      fun _ other hother hnot' => ?_, fun id hid => ?_, htour.accounts, hfinished⟩
    · refine (hupdated other.id).trans ?_
      by_cases heq : other.id = stop.id
      · rw [if_pos heq, htour.eq_of_id_eq hother hstop heq]
      · rw [if_neg heq]
        exact htour.homes rfl other hother
          (List.not_mem_cons_of_ne_of_not_mem (fun h => heq (h ▸ rfl)) hnot')
    · have hne : id ≠ stop.id := fun heq => hnot (hid rfl stop hstop heq.symm)
      refine (hupdated id).trans ((if_neg hne).trans ?_)
      exact htour.others id fun _ other hother heq =>
        List.mem_cons_of_mem _ (hid rfl other hother heq)

/-! ## Walking -/

/-- What a part of an object that was met is told by in the walk. -/
theorem Tour.resolve_cases (htour : Tour start first target settling stops underway told walk)
    {resolved : Operand} (hresolve : walk.frame.resolve operand = .ok resolved) :
    start.resolve operand = .ok resolved ∨ settling = true ∧ ∃ other ∈ stops,
      operand = .fresh other.id ∧ resolved = .path (target.append other.chain) := by
  cases operand with
  | type held => exact Or.inl hresolve
  | path place => exact Or.inl hresolve
  | fresh child =>
    by_cases hother : settling = true → ∀ stop ∈ stops, stop.id = child → stop ∈ underway
    · refine Or.inl ?_
      rw [← hresolve]
      simp only [Frame.resolve, Frame.allocation, htour.others child hother]
    · push Not at hother
      obtain ⟨hsettling, other, hmem, rfl, hnot⟩ := hother
      refine Or.inr ⟨hsettling, other, hmem, rfl, ?_⟩
      obtain ⟨object, hobject, rfl⟩ := Frame.resolve_fresh_eq_ok_iff.mp hresolve
      rw [htour.homes hsettling other hmem hnot] at hobject
      obtain ⟨before, -, rfl⟩ := Option.map_eq_some_iff.mp hobject
      rfl

section Walking

variable (hfirst : start.isLocal first = true)

include hfirst

/-- A part of the object that is being walked through is seen to. -/
theorem visitPart_tours {visit : Placement → AllocId → AccessPath → Checked Placement}
    (htour : Tour start first target settling stops (stop :: underway) told walk)
    (hholds : start.PartHolds stop.id selector operand)
    (hvisit : ∀ child, start.localPart? stop.id selector = some child →
      Checked.Safe (fun _ => True) (visit walk child (target.append (stop.chain ++ [selector])))
        fun later => Onward start first target settling stops (stop :: underway) told later
          fun stops' _ => child ∈ stops'.map Stop.id) :
    Checked.Safe (fun _ => True)
      (visitPart visit walk ((target.append stop.chain).child selector) operand) fun later =>
        Onward start first target settling stops (stop :: underway) told later fun stops' told' =>
          SeenTo start target stops' told' stop selector operand := by
  have hstop : stop ∈ stops := htour.known stop List.mem_cons_self
  have hlocal : start.isLocal stop.id = true :=
    Frame.isLocal_of_objectAt? hfirst (htour.leads stop hstop)
  unfold visitPart
  rw [AccessPath.append_child]
  cases hresolve : walk.frame.resolve operand with
  | error failure => trivial
  | ok resolved =>
    rcases htour.resolve_cases hresolve with hstart | hhome
    · cases resolved with
      | type held =>
        refine ⟨stops, told, List.Subset.refl _, List.Subset.refl _, htour, ?_, ?_⟩
        · intro place hplace
          exact nomatch hstart.symm.trans hplace
        · rintro child rfl hchild
          exact nomatch hstart.symm.trans (Frame.resolve_of_isLocal hchild)
      | path place =>
        refine ⟨stops, _, List.Subset.refl _, List.subset_append_left _ _,
          htour.record (.held hstop ⟨operand, hholds, hstart⟩), ?_, ?_⟩
        · intro other hother
          cases hstart.symm.trans hother
          exact List.mem_append_right _ (List.mem_singleton_self _)
        · rintro child rfl hchild
          exact nomatch hstart.symm.trans (Frame.resolve_of_isLocal hchild)
      | fresh child =>
        have hchild : operand = .fresh child ∧ start.isLocal child = true := by
          cases operand with
          | type held => cases hstart
          | path place => cases hstart
          | fresh id =>
            obtain ⟨object, hobject, htold⟩ := Frame.resolve_fresh_eq_ok_iff.mp hstart
            cases hhome : object.home? with
            | some home => simp [hhome] at htold
            | none =>
              obtain rfl : id = child := by simpa [hhome] using htold
              exact ⟨rfl, Frame.isLocal_iff_exists_object.mpr ⟨object, hobject, hhome⟩⟩
        obtain ⟨rfl, hchild⟩ := hchild
        refine (hvisit child (Frame.localPart?_eq_some_iff.mpr ⟨hlocal, hholds, hchild⟩)).mono ?_
        rintro later ⟨stops', told', hstops, htold, htour', hmet⟩
        refine ⟨stops', told', hstops, htold, htour', fun place hplace => ?_, fun other heq _ => ?_⟩
        · exact nomatch hstart.symm.trans hplace
        · cases heq
          exact hmet
    · obtain ⟨hsettling, other, hother, rfl, rfl⟩ := hhome
      refine ⟨stops, _, List.Subset.refl _, List.subset_append_left _ _,
        htour.record (.settled hsettling hstop hother hholds), fun place hplace => ?_,
        fun child heq _ => ?_⟩
      · have hlocal' := Frame.isLocal_of_objectAt? hfirst (htour.leads other hother)
        exact nomatch (Frame.resolve_of_isLocal hlocal').symm.trans hplace
      · cases heq
        exact List.mem_map_of_mem hother

/-- Parts of the object that is being walked through are seen to, one after the other. -/
theorem visitParts_tours {visit : Placement → AllocId → AccessPath → Checked Placement}
    (hvisit : ∀ {stops told walk} child selector,
      Tour start first target settling stops (stop :: underway) told walk →
        start.localPart? stop.id selector = some child →
          Checked.Safe (fun _ => True) (visit walk child (target.append (stop.chain ++ [selector])))
            fun later => Onward start first target settling stops (stop :: underway) told later
              fun stops' _ => child ∈ stops'.map Stop.id)
    (parts : List (Selector × Operand))
    (hparts : ∀ part ∈ parts, start.PartHolds stop.id part.1 part.2)
    (htour : Tour start first target settling stops (stop :: underway) told walk) :
    Checked.Safe (fun _ => True)
      (parts.foldlM (fun walk part =>
        visitPart visit walk ((target.append stop.chain).child part.1) part.2) walk) fun later =>
          Onward start first target settling stops (stop :: underway) told later fun stops' told' =>
            ∀ part ∈ parts, SeenTo start target stops' told' stop part.1 part.2 := by
  induction parts generalizing stops told walk with
  | nil => exact ⟨stops, told, List.Subset.refl _, List.Subset.refl _, htour, nofun⟩
  | cons part rest ih =>
    obtain ⟨hpart, hrest⟩ := List.forall_mem_cons.mp hparts
    rw [List.foldlM_cons]
    refine (visitPart_tours hfirst htour hpart fun child hchild =>
      hvisit child part.1 htour hchild).bind ?_
    rintro later ⟨stops₁, told₁, hstops₁, htold₁, htour₁, hseen⟩
    refine (ih hrest htour₁).mono ?_
    rintro last ⟨stops₂, told₂, hstops₂, htold₂, htour₂, hseen'⟩
    exact ⟨stops₂, told₂, List.Subset.trans hstops₁ hstops₂, List.Subset.trans htold₁ htold₂,
      htour₂, List.forall_mem_cons.mpr ⟨hseen.mono hstops₂ htold₂, hseen'⟩⟩

/-- An object is walked through, unless it was met before. -/
theorem visit_tours (room : Nat)
    (htour : Tour start first target settling stops underway told walk) {id : AllocId}
    {chain : List Selector} (hleads : start.objectAt? first chain = some id)
    (hpassed : ∀ before, before <+: chain → before ≠ chain →
      ∃ other ∈ stops, other.chain = before) :
    Checked.Safe (fun _ => True) (visit settling room walk id (target.append chain)) fun later =>
      Onward start first target settling stops underway told later fun stops' _ =>
        id ∈ stops'.map Stop.id := by
  induction room generalizing stops underway told walk id chain with
  | zero =>
    unfold visit
    split
    · rename_i hmet
      rw [List.contains_iff_mem, htour.met] at hmet
      exact ⟨stops, told, List.Subset.refl _, List.Subset.refl _, htour, hmet⟩
    · exact (Checked.Safe.found trivial fun _ h => h).bind fun _ _ => trivial
  | succ room ih =>
    unfold visit
    split
    · rename_i hmet
      rw [List.contains_iff_mem, htour.met] at hmet
      exact ⟨stops, told, List.Subset.refl _, List.Subset.refl _, htour, hmet⟩
    · rename_i hmet
      rw [List.contains_iff_mem, htour.met] at hmet
      let stop : Stop := ⟨id, chain⟩
      have hentered := htour.enter hmet hleads hpassed
      have hnot : stop ∉ underway := fun hmem => hmet (List.mem_map_of_mem (htour.known stop hmem))
      refine (Checked.Safe.found trivial fun _ h => h).bind fun object hobject => ?_
      rw [htour.others id fun _ other hother heq => absurd (heq ▸ List.mem_map_of_mem hother) hmet]
        at hobject
      have hparts : ∀ part ∈ object.fields.entries, start.PartHolds stop.id part.1 part.2 :=
        fun part hpart => ⟨object, hobject, (object.fields.get?_eq_some_iff _ _).mpr hpart⟩
      refine (visitParts_tours hfirst (fun {stops told walk} child selector htour hchild => ?_) _
        hparts hentered).bind ?_
      · -- The stops up to the part are those up to the object, and the object itself.
        have hstop : stop ∈ stops := htour.known stop List.mem_cons_self
        refine ih htour (by rw [Frame.objectAt?_concat, hleads]; exact hchild) ?_
        intro before hbefore hne
        refine htour.passed stop hstop before ?_
        rcases List.prefix_concat_iff.mp hbefore with heq | hprefix
        · exact absurd heq hne
        · exact hprefix
      · rintro later ⟨stops', told', hstops, htold, htour', hseen⟩
        have hmet' : id ∈ stops'.map Stop.id :=
          List.mem_map_of_mem (hstops List.mem_cons_self : stop ∈ stops')
        refine ⟨stops', told', List.Subset.trans (List.subset_cons_self _ _) hstops, htold, ?_,
          hmet'⟩
        refine htour'.leave hnot fun selector operand hholds => ?_
        obtain ⟨held, hheld, hpart⟩ := hholds
        obtain rfl := Option.some.inj (hobject.symm.trans hheld)
        exact hseen (selector, operand) ((object.fields.get?_eq_some_iff _ _).mp hpart)

/-- An object is walked through from the beginning. -/
theorem place_tours (target : AccessPath) (settling : Bool) :
    Checked.Safe (fun _ => True) (start.place settling first target) fun later =>
      ∃ stops told walk, Tour start first target settling stops [] told walk ∧
        walk.frame = later ∧ first ∈ stops.map Stop.id := by
  have hvisit := visit_tours hfirst start.allocations.size
    (.initial start first target settling) (Frame.objectAt?_nil start first)
    fun before hbefore hne => absurd (List.prefix_nil.mp hbefore) hne
  rw [AccessPath.append_nil] at hvisit
  unfold Frame.place
  refine hvisit.bind ?_
  rintro walk ⟨stops, told, -, -, htour, hmet⟩
  exact ⟨stops, told, walk, htour, rfl, hmet⟩

end Walking

/-! ## After the walk -/

/-- When the walk is over, it has met the objects to which the first one leads. -/
theorem Tour.mem_ids_iff (htour : Tour start first target settling stops [] told walk)
    (hmet : first ∈ stops.map Stop.id) {id : AllocId} :
    id ∈ stops.map Stop.id ↔ start.LeadsTo first id := by
  constructor
  · intro hmem
    obtain ⟨stop, hstop, rfl⟩ := List.mem_map.mp hmem
    exact Frame.leadsTo_iff_exists_objectAt?.mpr ⟨stop.chain, htour.leads stop hstop⟩
  · intro hleads
    induction hleads with
    | refl => exact hmet
    | tail _ hholds ih =>
      obtain ⟨selector, hpart⟩ := Frame.holds_iff_exists_localPart?.mp hholds
      obtain ⟨-, hholds, hlocal⟩ := Frame.localPart?_eq_some_iff.mp hpart
      obtain ⟨stop, hstop, rfl⟩ := List.mem_map.mp ih
      exact (htour.finished stop hstop List.not_mem_nil selector _ hholds).met _ rfl hlocal

/-- When a walk that gives homes is over, the objects that it has met are at home at their stops. -/
theorem Tour.hasHome (htour : Tour start first target true stops [] told walk)
    (hfirst : start.isLocal first = true) (hstop : stop ∈ stops) :
    walk.frame.HasHome stop.id (target.append stop.chain) := by
  obtain ⟨object, hobject, -⟩ := Frame.isLocal_iff_exists_object.mp
    (Frame.isLocal_of_objectAt? hfirst (htour.leads stop hstop))
  unfold Frame.HasHome
  rw [htour.homes rfl stop hstop List.not_mem_nil, hobject]
  rfl

/-- A walk that gives no homes tells each place that an object holds, at the stop of the object, and
nothing else. -/
theorem Tour.mem_told_iff (htour : Tour start first target false stops [] told walk)
    {write : Write} : write ∈ told ↔ ∃ stop ∈ stops, ∃ selector place,
      start.TellsPart stop.id selector place ∧
        write = ⟨target.append (stop.chain ++ [selector]), .path place⟩ := by
  constructor
  · intro hwrite
    cases htour.accounts write hwrite with
    | held hstop htells => exact ⟨_, hstop, _, _, htells, rfl⟩
    | settled hsettling => cases hsettling
  · rintro ⟨stop, hstop, selector, place, ⟨operand, hholds, hplace⟩, rfl⟩
    exact (htour.finished stop hstop List.not_mem_nil selector operand hholds).told place hplace

end Tours

end Placement

end ShapeFlow
