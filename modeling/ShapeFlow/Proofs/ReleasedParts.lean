import Mathlib.Data.List.DropRight
import ShapeFlow.Proofs.SeveredFrames

/-!
# What a released object holds

While an object is at home at a place, what is written to its parts goes to the place, and the
object still holds what it held before it got its home.  When it is released, a part for which
nothing else is known is taken to be what the object still holds, if the two look alike
(`Frame.Retains`).  They may look alike although the part has been overwritten with something else.

If a part that has been overwritten always looks different from what the object still holds, an
object that it holds after its release is one that stood at the part, or one that has just been
made, or the part has not been overwritten since the object got its home
(`Engine.session_revives_nothing`).
-/

namespace ShapeFlow

variable {shapes : Shapes} {arguments : List TypeId} {first graph : TypeGraph}
  {start released frame later : Frame} {operand held value : Operand} {base place : AccessPath}
  {selector : Selector} {id child : AllocId}

namespace Frame

/-- The object has its home at the place. -/
def HasHome (frame : Frame) (id : AllocId) (place : AccessPath) : Prop :=
  frame.allocations[id.index]?.bind Allocation.home? = some place

instance (frame : Frame) (id : AllocId) (place : AccessPath) :
    Decidable (frame.HasHome id place) := inferInstanceAs (Decidable (_ = _))

instance (frame : Frame) (id : AllocId) (selector : Selector) (held : Operand) :
    Decidable (frame.PartHolds id selector held) :=
  decidable_of_iff (frame.allocations[id.index]?.bind (·.fields.get? selector) = some held)
    Option.bind_eq_some_iff

/-- An object that a released object holds stood at the part, or has just been made, or was held
before and looks like what stands there. -/
theorem Vacates.held_cases {moved : Operand}
    (hvacates : start.Vacates first base value moved later)
    (hmem : (id, place) ∈ start.residents base)
    (hholds : later.PartHolds id selector (.fresh child)) :
    start.HasHome child (place.child selector) ∨ start.allocations[child.index]? = none ∨
      start.Retains first base id place selector (.fresh child) := by
  obtain ⟨released, hreleased, hamends⟩ := hvacates.released
  obtain ⟨after, hafter, hheld⟩ := hholds
  obtain ⟨object, hobject, -, hrefills⟩ := hreleased.refilled (id, place) hmem
  obtain ⟨_, hafter', -, hparts⟩ := hamends.old _ object hobject
  obtain rfl := Option.some.inj (hafter.symm.trans hafter')
  have hpart := hparts selector
  rw [hheld] at hpart
  generalize hbefore : object.fields.get? selector = part? at hpart
  cases hpart with
  | same =>
    rcases hrefills selector _ hbefore with hcopy | ⟨_, hid, hretains⟩
    · cases hcopy with
      | resident hresident =>
        obtain ⟨object, hobject, hhome, -⟩ := home_of_mem_residents hresident
        exact Or.inl (Option.bind_eq_some_iff.mpr ⟨object, hobject, hhome⟩)
      | new hmissing => exact Or.inr (Or.inl hmissing)
    · cases hid
      exact Or.inr (Or.inr hretains)
  | expanded hfirst =>
    -- The type of the part has become an object after the release.
    refine Or.inr (Or.inl ?_)
    cases hchild : start.allocations[child.index]? with
    | none => rfl
    | some object =>
      obtain ⟨_, hthere⟩ := hreleased.exists_object hchild
      exact absurd (Array.getElem?_eq_some_iff.mp hthere).1 (Nat.not_lt.mpr hfirst)
  | mended hwithin =>
    have hout := placeWithin?_eq_none_iff.mp (hrefills selector _ hbefore).outside _ rfl
    exact absurd (hout.symm.trans hwithin) Bool.false_ne_true

end Frame

/-! ## What has been overwritten since -/

/-- When the analysis of a body begins at the moment, for the task, the body passes the earlier
points first and then the point. -/
def Moment.PassesAfter (declarations : Declarations) (limit : Nat) (moment : Moment) (task : Task)
    (earlier : List Point) (point : Point) : Prop :=
  moment.event = .begun task ∧ ∃ definition,
    declarations.definition? task.target = some definition ∧
      earlier ++ [point] <+:
        Scope.bodyPoints ⟨declarations, definition, analyze declarations limit moment.room⟩
          definition.decl.body { slots := task.arguments } moment.knowledge

theorem Moment.PassesAfter.passes {declarations : Declarations} {limit : Nat} {moment : Moment}
    {task : Task} {earlier : List Point} {point : Point}
    (hpasses : moment.PassesAfter declarations limit task earlier point) :
    moment.Passes declarations limit task point := by
  obtain ⟨hevent, definition, hdefinition, hprefix⟩ := hpasses
  exact ⟨hevent, definition, hdefinition, hprefix.subset (by simp)⟩

/-- The part that is about to be written. -/
def Act.part? : Act → Option (Operand × Selector)
  | writes base selector _ => some (base, selector)
  | begins | yields _ | reads _ _ | passes _ => none

/-- The part of the place is about to be overwritten. -/
def Point.Overwrites (point : Point) (place : AccessPath) (selector : Selector) : Prop :=
  ∃ part ∈ point.act.part?, point.frame.resolve part.1 = .ok (.path place) ∧ part.2 = selector

instance (point : Point) (place : AccessPath) (selector : Selector) :
    Decidable (point.Overwrites place selector) :=
  inferInstanceAs (Decidable (∃ part ∈ point.act.part?, _))

/-- The part of the place was overwritten at one of the last points, at all of which the object has
been at home at the place. -/
def OverwrittenSince (earlier : List Point) (id : AllocId) (place : AccessPath)
    (selector : Selector) : Prop :=
  ∃ point ∈ earlier.rtakeWhile fun point => point.frame.HasHome id place,
    point.Overwrites place selector

instance (earlier : List Point) (id : AllocId) (place : AccessPath) (selector : Selector) :
    Decidable (OverwrittenSince earlier id place selector) :=
  inferInstanceAs (Decidable (∃ point ∈ _, _))

/-- In a session, whenever a part of a place is overwritten and an object that was at home there or
below is released, then an object that it holds afterwards stood at the part, or has just been
made, or is held as before at a part that has not been overwritten since the object got its home.
This holds unless the object still holds one that looks like what the part has been overwritten
with. -/
theorem Engine.session_revives_nothing {program : Program} {limit : Nat} {engine : Engine}
    {history : List Moment} (hsession : Engine.Session program limit engine history) :
    ∀ moment ∈ history, ∀ task earlier point,
      moment.PassesAfter (.ofProgram program) limit task earlier point →
        ∀ base selector value, point.act = .writes base selector value →
          ∀ span, ∀ store ∈ Frame.stores (.ofProgram program) span base selector value point.frame
              point.graph,
            ∀ id place, (id, place) ∈ point.frame.residents store.target → ∀ part child,
              (OverwrittenSince earlier id place part →
                point.frame.PartHolds id part (.fresh child) →
                  ¬ Frame.SameEnds point.frame point.graph (.fresh child) point.frame point.graph
                    (.path (place.child part))) →
                store.frame.PartHolds id part (.fresh child) →
                  point.frame.HasHome child (place.child part) ∨
                    point.frame.allocations[child.index]? = none ∨
                      point.frame.PartHolds id part (.fresh child) ∧
                        ¬ OverwrittenSince earlier id place part := by
  intro moment hmem task earlier point hpasses base selector value hact span store hstore id place
    hresident part child hdiffers hpart
  have hmeets := (Regime.session_holdsAt (Shapes.admit_all (.ofProgram program)).rules
    TypeGraph.conforms_all hsession moment hmem).meets task point hpasses.passes
  obtain ⟨moved, -, hvacates⟩ := hmeets.vacates hstore
  refine (hvacates.held_cases hresident hpart).imp_right (Or.imp_right fun hretains => ?_)
  exact ⟨hretains.holds, fun hsince => hdiffers hsince hretains.holds hretains.looks⟩

/-- The point at a position among the points of a body is passed after those before it. -/
theorem Task.exists_passesAfter {declarations : Declarations} {limit room position : Nat}
    {knowledge : Knowledge} {task : Task} {point : Point} (active : List Task)
    (hpoint : (task.points declarations limit room knowledge)[position]? = some point) :
    ∃ moment ∈ moments declarations limit (room + 1) active task knowledge,
      moment.PassesAfter declarations limit task
        ((task.points declarations limit room knowledge).take position) point := by
  unfold Task.points at hpoint ⊢
  split at hpoint
  · rename_i definition memo hopening
    have hopens := Task.opening?_eq_some_iff.mp hopening
    obtain ⟨hlt, rfl⟩ := List.getElem?_eq_some_iff.mp hpoint
    refine ⟨_, begun_mem_moments hopens, rfl, definition, hopens.defined, ?_⟩
    rw [List.take_append_getElem hlt]
    exact List.take_prefix _ _
  · exact nomatch hpoint

/-- The points of the analysis before the rack is replaced. -/
def standPoints : List Point :=
  (standTask.points (.ofProgram standProgram) 4 3 standStart.knowledge).take 37

/-- When the rack is replaced, its top has been overwritten since it was put onto the stand, and it
holds afterwards what stood there.  Its right side has not been overwritten, and it still holds the
tool that stood on the left. -/
theorem standEngine_revives_nothing : ∃ history moment point store,
    Engine.Session standProgram 4 standEngine history ∧ moment ∈ history ∧
      moment.PassesAfter (.ofProgram standProgram) 4 standTask standPoints point ∧
        point.act = .writes (.path ⟨1, []⟩) (.field "@on") (.type ⟨0⟩) ∧
          store ∈ Frame.stores (.ofProgram standProgram) {} (.path ⟨1, []⟩) (.field "@on")
              (.type ⟨0⟩) point.frame point.graph ∧
            (⟨0⟩, ⟨1, [.field "@on"]⟩) ∈ point.frame.residents store.target ∧
              OverwrittenSince standPoints ⟨0⟩ ⟨1, [.field "@on"]⟩ (.field "@top") ∧
              ∀ part ∈ [(.field "@top", ⟨3⟩), (.field "@right", ⟨1⟩)],
                store.frame.PartHolds ⟨0⟩ part.1 (.fresh part.2) ∧
                  (point.frame.HasHome part.2 ⟨1, [.field "@on", part.1]⟩ ∨
                    point.frame.allocations[part.2.index]? = none ∨
                      point.frame.PartHolds ⟨0⟩ part.1 (.fresh part.2) ∧
                        ¬ OverwrittenSince standPoints ⟨0⟩ ⟨1, [.field "@on"]⟩ part.1) := by
  let declarations : Declarations := .ofProgram standProgram
  let points := standTask.points declarations 4 3 standStart.knowledge
  let parts : List (Selector × AllocId) := [(.field "@top", ⟨3⟩), (.field "@right", ⟨1⟩)]
  have hany : points[37]?.any (fun point =>
      point.act = .writes (.path ⟨1, []⟩) (.field "@on") (.type ⟨0⟩) ∧
        (Frame.stores declarations {} (.path ⟨1, []⟩) (.field "@on") (.type ⟨0⟩) point.frame
          point.graph).any fun store =>
            (⟨0⟩, ⟨1, [.field "@on"]⟩) ∈ point.frame.residents store.target ∧ ∀ part ∈ parts,
              store.frame.PartHolds ⟨0⟩ part.1 (.fresh part.2) ∧
                (OverwrittenSince standPoints ⟨0⟩ ⟨1, [.field "@on"]⟩ part.1 →
                  ¬ point.frame.PartHolds ⟨0⟩ part.1 (.fresh part.2))) = true := by
    decide +kernel
  obtain ⟨point, hpoint, htested⟩ := (Option.any_eq_true _ _).mp hany
  rw [decide_eq_true_eq] at htested
  obtain ⟨hact, hstores⟩ := htested
  obtain ⟨store, hstore, htested⟩ := List.any_eq_true.mp hstores
  rw [decide_eq_true_eq] at htested
  obtain ⟨hresident, hparts⟩ := htested
  obtain ⟨history, hsession, hmoments⟩ := standEngine_session
  obtain ⟨moment, hmem, hpasses⟩ := Task.exists_passesAfter [] hpoint
  refine ⟨history, moment, point, store, hsession, hmoments moment hmem, hpasses, hact, hstore,
    hresident, by decide +kernel, fun part hpart => ⟨(hparts part hpart).1, ?_⟩⟩
  exact Engine.session_revives_nothing hsession moment (hmoments moment hmem) standTask standPoints
    point hpasses _ _ _ hact {} store hstore _ _ hresident part.1 part.2
    (fun hsince hheld => absurd hheld ((hparts part hpart).2 hsince)) (hparts part hpart).1

end ShapeFlow
