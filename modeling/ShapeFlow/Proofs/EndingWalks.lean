import ShapeFlow.Proofs.IntactWrites
import ShapeFlow.Proofs.PublishedTypes

/-!
# Walks come to an end

The inner walks of an analysis, which may lead in circles, are given *room*.  Here it is seen that
room is not what ends them: without it they would come to the same end.

A comparison of types, a search for a circle and the writing of a type do not say whether they lack
room, so each of them is set beside a relation that knows no room: `Explores` lists what a search
visits, `TypeGraph.Renders` how a type is written.  A search through finitely many states visits
each of them at most once (`explores_allReachable`).

The other walks report a broken reference if they lack room.  They report none, and with more room
they do as before (`EndsWithin`): a walk approximates the walk with more room (`Approximates`), one
step of which is one step of the other.
-/

namespace ShapeFlow

/-! ## Searches -/

section Searches

variable {σ α : Type} [Ledger σ α]

/-- How `allReachable` comes to its answer, with the number of its visits. -/
inductive Explores (step : α → Option (List α)) : Nat → σ → List α → Bool → Prop
  | finds {met : σ} {pending : List α} : pending.dropWhile (Ledger.has met) = [] →
      Explores step 0 met pending true
  | refuses {met : σ} {pending : List α} {state : α} {rest : List α} :
      pending.dropWhile (Ledger.has met) = state :: rest → step state = none →
        Explores step 1 met pending false
  | visits {count : Nat} {met : σ} {pending : List α} {state : α} {rest laters : List α}
      {answer : Bool} : pending.dropWhile (Ledger.has met) = state :: rest →
        step state = some laters →
          Explores step count (Ledger.add met state) (laters ++ rest) answer →
            Explores step (count + 1) met pending answer

variable {step : α → Option (List α)} {met : σ} {pending : List α}

/-- Room for the visits is enough. -/
theorem Explores.allReachable_eq {count room : Nat} {answer : Bool}
    (hexplores : Explores step count met pending answer) (hroom : count ≤ room) :
    allReachable step room met pending = answer := by
  induction hexplores generalizing room with
  | finds hdrop =>
    rw [allReachable.eq_def]
    simp only [hdrop]
  | refuses hdrop hstep =>
    cases room with
    | zero => exact absurd hroom (Nat.not_succ_le_zero 0)
    | succ room =>
      rw [allReachable, hdrop]
      simp only [hstep]
  | visits hdrop hstep _ ih =>
    cases room with
    | zero => exact absurd hroom (Nat.not_succ_le_zero _)
    | succ room =>
      rw [allReachable, hdrop]
      simp only [hstep]
      exact ih (Nat.le_of_succ_le_succ hroom)

/-- A search within a bound visits no more than the states of the bound that it has not met. -/
theorem exists_explores (bound : List α)
    (hbound : ∀ state ∈ bound, ∀ laters, step state = some laters → ∀ later ∈ laters,
      later ∈ bound)
    (hpending : ∀ state ∈ pending, state ∈ bound) :
    ∃ count answer, count ≤ (bound.filter fun state => !Ledger.has met state).length ∧
      Explores step count met pending answer := by
  induction hleft : (bound.filter fun state => !Ledger.has met state).length using
    Nat.strongRecOn generalizing met pending with
  | ind left ih =>
    subst hleft
    cases hdrop : pending.dropWhile (Ledger.has met) with
    | nil => exact ⟨0, true, Nat.zero_le _, .finds hdrop⟩
    | cons first rest =>
      have hsub : ∀ state ∈ first :: rest, state ∈ bound := fun state hmem =>
        hpending state ((List.dropWhile_sublist _).subset (hdrop ▸ hmem))
      have hfirst := hsub first List.mem_cons_self
      have hfresh := List.head?_dropWhile_not (Ledger.has met) pending
      rw [hdrop] at hfresh
      have hlt := length_filter_add_lt bound hfirst (by simpa using hfresh)
      cases hstep : step first with
      | none => exact ⟨1, false, Nat.one_le_of_lt hlt, .refuses hdrop hstep⟩
      | some laters =>
        have hlaters : ∀ state ∈ laters ++ rest, state ∈ bound := List.forall_mem_append.mpr
          ⟨hbound first hfirst laters hstep, fun state hmem => hsub state (.tail first hmem)⟩
        obtain ⟨count, answer, hcount, hexplores⟩ := ih _ hlt hlaters rfl
        exact ⟨count + 1, answer, Nat.succ_le_of_lt (Nat.lt_of_le_of_lt hcount hlt),
          .visits hdrop hstep hexplores⟩

/-- A search with room for a bound comes to its answer, and visits each state at most once. -/
theorem explores_allReachable (bound : List α)
    (hbound : ∀ state ∈ bound, ∀ laters, step state = some laters → ∀ later ∈ laters,
      later ∈ bound)
    (hpending : ∀ state ∈ pending, state ∈ bound) {room : Nat} (hroom : bound.length ≤ room) :
    ∃ count ≤ room, Explores step count (Ledger.blank : σ) pending
      (allReachable step room (Ledger.blank : σ) pending) := by
  have hexists : ∃ count answer,
      count ≤ (bound.filter fun state => !Ledger.has (Ledger.blank : σ) state).length ∧
        Explores step count (Ledger.blank : σ) pending answer :=
    exists_explores bound hbound hpending
  obtain ⟨count, answer, hcount, hexplores⟩ := hexists
  have hle := hcount.trans ((List.length_filter_le _ _).trans hroom)
  exact ⟨count, hle, hexplores.allReachable_eq hle ▸ hexplores⟩

end Searches

/-! ## Walks through types -/

namespace TypeGraph

variable {graph : TypeGraph}

/-- How a type is written inside the types listed in `around`. -/
inductive Renders (graph : TypeGraph) : List TypeId → TypeId → String → Prop
  | scalar {around : List TypeId} {type : TypeId} : graph.node? type = some .scalar →
      Renders graph around type "Scalar"
  | short {around : List TypeId} {type : TypeId} {className : String} {fields : Fields} :
      graph.node? type = some (.object className fields) →
        fields.isEmpty = true ∨ type ∈ around → Renders graph around type className
  | object {around : List TypeId} {type : TypeId} {className : String} {fields : Fields}
      {text : TypeId → String} : graph.node? type = some (.object className fields) →
        fields.isEmpty = false → type ∉ around →
          (∀ entry ∈ fields.entries, Renders graph (type :: around) entry.2 (text entry.2)) →
            Renders graph around type (className ++ "\x7b" ++
              String.intercalate ", " (fields.entries.map fun entry =>
                entry.1.render ++ ": " ++ text entry.2) ++ "\x7d")

/-- A type is written with room for all types that are not around. -/
theorem renders_renderWithin (hclosed : graph.Closed) (room : Nat) {around : List TypeId}
    (hnodup : around.Nodup) (haround : ∀ type ∈ around, graph.Has type)
    (hroom : graph.size ≤ room + around.length) {type : TypeId} (hhas : graph.Has type) :
    graph.Renders around type (graph.renderWithin room around type) := by
  induction room generalizing around type with
  | zero =>
    have hmem : type ∈ around := mem_of_size_le hnodup haround (by omega) hhas
    obtain ⟨node, hnode⟩ := (has_iff_exists_node graph type).mp hhas
    cases node with
    | scalar => exact renderWithin_of_scalar hnode ▸ .scalar hnode
    | object className fields =>
      exact renderWithin_of_short hnode (Or.inr hmem) ▸ .short hnode (Or.inr hmem)
  | succ room ih =>
    obtain ⟨node, hnode⟩ := (has_iff_exists_node graph type).mp hhas
    cases node with
    | scalar => exact renderWithin_of_scalar hnode ▸ .scalar hnode
    | object className fields =>
      by_cases hshort : fields.isEmpty = true ∨ type ∈ around
      · exact renderWithin_of_short hnode hshort ▸ .short hnode hshort
      · obtain ⟨hempty, hnot⟩ := not_or.mp hshort
        rw [Bool.not_eq_true] at hempty
        rw [renderWithin_of_object hnode hempty hnot]
        refine .object hnode hempty hnot fun entry hentry => ?_
        exact ih (List.nodup_cons.mpr ⟨hnot, hnodup⟩) (List.forall_mem_cons.mpr ⟨hhas, haround⟩)
          (by rw [List.length_cons]; omega)
          (hclosed hnode ((fields.get?_eq_some_iff entry.1 entry.2).mpr hentry))

/-- The walks through the types come to an end: the comparison of two types, and the writing of a
type. -/
structure WalksEnd (graph : TypeGraph) : Prop where
  compared : ∀ left right, graph.Has left → graph.Has right → left ≠ right →
    ∃ count ≤ graph.size * graph.size, Explores graph.pairParts? count
      (Ledger.blank : PairTable) [(left, right)] (graph.sameShape left right)
  rendered : ∀ type, graph.Has type → graph.Renders [] type (graph.render type)

theorem Closed.walksEnd (hclosed : graph.Closed) : graph.WalksEnd where
  compared left right hleft hright hne := by
    have hsame : graph.sameShape left right = allReachable graph.pairParts?
        (graph.size * graph.size) (Ledger.blank : PairTable) [(left, right)] := by
      simp [sameShape, hne]
    rw [hsame]
    exact explores_allReachable graph.pairsOf (compared_in_pairsOf hclosed)
      (List.forall_mem_singleton.mpr (mem_pairsOf.mpr ⟨hleft, hright⟩)) (Nat.le_of_eq length_pairsOf)
  rendered type hhas := renders_renderWithin hclosed graph.size .nil (List.forall_mem_nil _)
    (Nat.le_refl _) hhas

end TypeGraph

/-! ## Walks that report a lack of room -/

/-- With the given room a walk lacks nothing, and it does the same with more room. -/
def EndsWithin {ρ : Type} (lacks : ρ → Prop) (room : Nat) (walk : Nat → ρ) : Prop :=
  ¬ lacks (walk room) ∧ ∀ more, walk (room + more) = walk room

/-- Where a walk lacks nothing that the walk with more room does not lack, it ends. -/
theorem EndsWithin.of_succ {ρ : Type} {lacks : ρ → Prop} {room : Nat} {walk : Nat → ρ}
    (hends : ¬ lacks (walk room))
    (hsucc : ∀ room, lacks (walk room) ∨ walk room = walk (room + 1)) :
    EndsWithin lacks room walk := by
  refine ⟨hends, fun more => ?_⟩
  induction more with
  | zero => rfl
  | succ more ih =>
    rcases hsucc (room + more) with hlacks | heq
    · exact absurd (ih ▸ hlacks) hends
    · exact heq.symm.trans ih

/-- A step that only reads follows a reference that leads nowhere. -/
def Checked.Breaks {α : Type} (outcome : Checked α) : Prop :=
  ∃ reference, outcome = .error (.broken reference)

/-- A step follows a reference that leads nowhere. -/
def Breaks {τ α : Type} (outcome : EStateM.Result Failure τ α) : Prop :=
  ∃ reference final, outcome = .error (.broken reference) final

theorem Checked.Unbroken.not_breaks {α : Type} {step : Checked α} {post : α → Prop}
    (hunbroken : Checked.Unbroken step post) : ¬ step.Breaks := by
  rintro ⟨reference, rfl⟩
  exact hunbroken

theorem Discipline.Ends.not_breaks {τ α : Type} {discipline : Discipline τ} {state : τ}
    {outcome : EStateM.Result Failure τ α} {post : α → τ → Prop}
    (hends : discipline.Ends state outcome post)
    (hexcused : ∀ failure, discipline.Excused failure → failure.Rejects) : ¬ Breaks outcome := by
  rintro ⟨reference, final, rfl⟩
  exact hexcused _ hends.2.2

/-! ### Steps that only read -/

/-- A step that does as another one does, unless it breaks. -/
abbrev Checked.Approximates {α : Type} (first second : Checked α) : Prop :=
  first.Breaks ∨ first = second

namespace Checked.Approximates

variable {α β ι : Type} {first second : Checked α}

theorem bind {next other : α → Checked β} (hsteps : first.Approximates second)
    (hnext : ∀ value, (next value).Approximates (other value)) :
    Checked.Approximates (first >>= next) (second >>= other) := by
  rcases hsteps with ⟨reference, rfl⟩ | rfl
  · exact Or.inl ⟨reference, rfl⟩
  · cases first with
    | ok value => exact hnext value
    | error failure => exact Or.inr rfl

theorem foldlM {body other : α → ι → Checked α} (items : List ι) (value : α)
    (hbody : ∀ value item, (body value item).Approximates (other value item)) :
    Checked.Approximates (items.foldlM body value) (items.foldlM other value) := by
  induction items generalizing value with
  | nil => exact Or.inr rfl
  | cons item rest ih => exact (hbody value item).bind ih

end Checked.Approximates

namespace Placement

variable {visit other : Placement → AllocId → AccessPath → Checked Placement}

theorem visitPart_approximates
    (hvisit : ∀ walk id place, (visit walk id place).Approximates (other walk id place))
    (walk : Placement) (target : AccessPath) (operand : Operand) :
    (visitPart visit walk target operand).Approximates (visitPart other walk target operand) := by
  unfold visitPart
  refine .bind (Or.inr rfl) fun resolved => ?_
  cases resolved with
  | type held => exact Or.inr rfl
  | path source => exact Or.inr rfl
  | fresh child => exact hvisit walk child target

theorem visit_approximates (settling : Bool) (room : Nat) (walk : Placement) (id : AllocId)
    (place : AccessPath) : (Placement.visit settling room walk id place).Approximates
      (Placement.visit settling (room + 1) walk id place) := by
  induction room generalizing walk id place with
  | zero =>
    unfold Placement.visit
    split
    · exact Or.inr rfl
    · cases walk.frame.allocation id with
      | ok object => exact Or.inl ⟨_, rfl⟩
      | error failure => exact Or.inr rfl
  | succ room ih =>
    unfold Placement.visit
    split
    · exact Or.inr rfl
    · refine .bind (Or.inr rfl) fun object => ?_
      refine .bind (.foldlM _ _ fun walk entry => ?_) fun _ => Or.inr rfl
      exact visitPart_approximates ih walk _ _

end Placement

/-! ### Steps that may add types -/

/-- A step that does as another one does, unless it breaks. -/
def Approximates {σ τ α : Type} (first second : StateT σ (EStateM Failure τ) α) : Prop :=
  ∀ frame state, Breaks (first frame state) ∨ first frame state = second frame state

namespace Approximates

variable {σ τ α β ι : Type} {first second : StateT σ (EStateM Failure τ) α}

theorem refl (step : StateT σ (EStateM Failure τ) α) : Approximates step step :=
  fun _ _ => Or.inr rfl

theorem broken (reference : Reference) (step : StateT σ (EStateM Failure τ) α) :
    Approximates (ShapeFlow.broken reference) step :=
  fun _ state => Or.inl ⟨reference, state, rfl⟩

theorem bind {next other : α → StateT σ (EStateM Failure τ) β} (hsteps : Approximates first second)
    (hnext : ∀ value, Approximates (next value) (other value)) :
    Approximates (first >>= next) (second >>= other) := by
  intro frame state
  change Breaks (EStateM.bind (first frame) (fun result => next result.1 result.2) state) ∨
    EStateM.bind (first frame) (fun result => next result.1 result.2) state =
      EStateM.bind (second frame) (fun result => other result.1 result.2) state
  rcases hsteps frame state with ⟨reference, final, hbroken⟩ | heq
  · exact Or.inl ⟨reference, final, by simp only [EStateM.bind, hbroken]⟩
  · simp only [EStateM.bind, ← heq]
    cases first frame state with
    | ok result final => exact hnext result.1 result.2 final
    | error failure final => exact Or.inr rfl

/-- The steps that follow are approximated. -/
theorem same_bind {next other : α → StateT σ (EStateM Failure τ) β}
    (step : StateT σ (EStateM Failure τ) α)
    (hnext : ∀ value, Approximates (next value) (other value)) :
    Approximates (step >>= next) (step >>= other) := (refl step).bind hnext

theorem mapM {body other : ι → StateT σ (EStateM Failure τ) α} (items : List ι)
    (hbody : ∀ item, Approximates (body item) (other item)) :
    Approximates (items.mapM body) (items.mapM other) := by
  induction items with
  | nil => exact .refl _
  | cons item rest ih =>
    rw [List.mapM_cons, List.mapM_cons]
    exact (hbody item).bind fun _ => ih.bind fun _ => .refl _

end Approximates

namespace Frame

variable {declarations : Declarations} {span : Span} {frame : Frame}

section Copies

variable {base : AccessPath} {leaving : List (AllocId × AccessPath)}
  {copier other : AccessPath → Framed Operand}

theorem copyParts_approximates (hcopier : ∀ place, Approximates (copier place) (other place))
    (existing? : Option AllocId) (place : AccessPath) :
    Approximates (copyParts declarations span base leaving copier existing? place)
      (copyParts declarations span base leaving other existing? place) := by
  unfold copyParts
  refine .same_bind _ fun type => .same_bind _ fun node => .bind (.mapM _ fun entry => ?_) fun _ => .refl _
  dsimp only
  split
  · exact (hcopier _).bind fun _ => .refl _
  · exact .refl _

theorem copyAt_approximates (hcopier : ∀ place, Approximates (copier place) (other place))
    (place : AccessPath) :
    Approximates (copyAt declarations span base leaving copier place)
      (copyAt declarations span base leaving other place) := by
  unfold copyAt
  cases leaving.find? fun resident => resident.2 = place with
  | some resident => exact .refl _
  | none =>
    refine .same_bind _ fun type => .same_bind _ fun node => ?_
    cases node with
    | scalar => exact .refl _
    | object className fields =>
      exact (copyParts_approximates hcopier none place).bind fun _ => .refl _

theorem copy_approximates (room : Nat) (place : AccessPath) :
    Approximates (copy declarations span base leaving room place)
      (copy declarations span base leaving (room + 1) place) := by
  induction room generalizing place with
  | zero => exact copyAt_approximates (fun _ => .broken _ _) place
  | succ room ih => exact copyAt_approximates ih place

end Copies

section Types

variable {visit other : AllocId → StateT Reified Building TypeId}

theorem heldTypes_approximates (hvisit : ∀ id, Approximates (visit id) (other id))
    (fields : OrderedMap Selector Operand) :
    Approximates (frame.heldTypes declarations span visit fields)
      (frame.heldTypes declarations span other fields) := by
  unfold heldTypes
  refine .bind (.mapM _ fun entry => .bind ?_ fun _ => .refl _) fun _ => .refl _
  cases entry.2 with
  | type held => exact .refl _
  | path place => exact .refl _
  | fresh id => exact hvisit id

theorem reifyWithin_approximates (room : Nat) (around : List AllocId) (id : AllocId) :
    Approximates (frame.reifyWithin declarations span room around id)
      (frame.reifyWithin declarations span (room + 1) around id) := by
  induction room generalizing around id with
  | zero =>
    unfold reifyWithin
    refine .same_bind _ fun reified => ?_
    cases reified.get? id with
    | some type => exact .refl _
    | none =>
      refine .same_bind _ fun object => ?_
      cases object.home? with
      | some home => exact .refl _
      | none =>
        dsimp only
        split
        · exact .refl _
        · exact .broken _ _
  | succ room ih =>
    unfold reifyWithin
    refine .same_bind _ fun reified => ?_
    cases reified.get? id with
    | some type => exact .refl _
    | none =>
      refine .same_bind _ fun object => ?_
      have hparts : Approximates
          (frame.heldTypes declarations span (frame.reifyWithin declarations span room (id :: around))
            object.fields)
          (frame.heldTypes declarations span
            (frame.reifyWithin declarations span (room + 1) (id :: around)) object.fields) :=
        heldTypes_approximates (ih (id :: around)) object.fields
      cases object.home? with
      | some home => exact .refl _
      | none =>
        dsimp only
        split
        · exact .refl _
        split
        · exact .refl _
        split
        · exact .same_bind _ fun type => .same_bind _ fun _ => hparts.bind fun _ => .refl _
        · exact hparts.bind fun _ => .refl _

end Types

/-! ## Walks through frames -/

/-- The search for a circle comes to its answer, and looks at each object at most once. -/
theorem explores_isOnCircle (frame : Frame) (id : AllocId) :
    ∃ count ≤ frame.allocations.size,
      Explores (fun met => if met = id then none else some (frame.localParts met)) count
        ([] : List AllocId) (frame.localParts id) (!frame.isOnCircle id) := by
  rw [isOnCircle, Bool.not_not]
  exact explores_allReachable _ (frame.searched_in_range id)
    (fun _ hchild => mem_range_of_mem_localParts hchild) (by simp)

/-- The walks through the objects of the frame come to an end: the search for a circle, the reading
off of a type, the placing of an object, and the copying of what is found at a place. -/
structure WalksEnd (declarations : Declarations) (span : Span) (arguments : List TypeId)
    (graph : TypeGraph) (frame : Frame) : Prop where
  searched : ∀ id, ∃ count ≤ frame.allocations.size,
    Explores (fun met => if met = id then none else some (frame.localParts met)) count
      ([] : List AllocId) (frame.localParts id) (!frame.isOnCircle id)
  reified : ∀ id, (Operand.fresh id).ExistsIn frame →
    EndsWithin Breaks frame.allocations.size fun room =>
      frame.reifyWithin declarations span room [] id ∅ graph
  placed : ∀ settling id target, (Operand.fresh id).ExistsIn frame →
    EndsWithin Checked.Breaks frame.allocations.size fun room =>
      Placement.visit settling room { frame } id target
  copied : ∀ base leaving room place, Present leaving frame → Reach leaving room place →
    place.RootedIn graph arguments → EndsWithin Breaks room fun room =>
      copy declarations span base leaving room place frame graph

theorem walksEnd {shapes : Shapes} {arguments : List TypeId} {graph : TypeGraph}
    (hstands : shapes.regime.Stands arguments graph frame) (declarations : Declarations)
    (span : Span) : frame.WalksEnd declarations span arguments graph where
  searched := frame.explores_isOnCircle
  reified id hexists := by
    have hwalks : frame.Walks shapes graph [] ∅ graph := ⟨.refl graph, hstands.world, nofun⟩
    have hends : (conforming shapes).Ends graph (frame.reifyWithin declarations span
        frame.allocations.size [] id ∅ graph) fun result grown =>
          frame.Walks shapes graph [] result.2 grown :=
      reifyWithin_walks hstands.sound hstands.frames frame.allocations.size [] id
        (Nat.le_add_right _ _) (.initial frame graph id) hexists hwalks
    exact .of_succ (hends.not_breaks fun _ hexcused => hexcused) fun room =>
      reifyWithin_approximates room [] id ∅ graph
  placed settling id target hexists := by
    have hstart : Placement.Roams shapes graph frame.allocations.size { frame } :=
      ⟨hstands.frames, rfl, .nil, nofun⟩
    have hunbroken : Placement.RoamsOn shapes graph frame.allocations.size { frame }
        (Placement.visit settling frame.allocations.size { frame } id target) :=
      Placement.visit_unbroken settling frame.allocations.size (Nat.le_add_right _ _) hstart hexists
    exact .of_succ hunbroken.not_breaks fun room =>
      Placement.visit_approximates settling room { frame } id target
  copied base leaving room place hleaving hreach hplace := by
    have hruns : shapes.regime.Runs arguments (copy declarations span base leaving room place)
        noPoints frame graph fun operand later grown =>
          shapes.regime.Admits arguments grown later operand :=
      copy_runs room hreach hstands hleaving hplace
    exact .of_succ ((ended_of_runs hruns).not_breaks fun _ hexcused => hexcused) fun room =>
      copy_approximates room place frame graph

end Frame

end ShapeFlow
