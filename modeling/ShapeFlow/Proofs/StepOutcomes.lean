import Mathlib.Data.List.Forall2
import ShapeFlow.Frame.Step

/-!
# Outcomes of steps

A step that carries a state either answers, with a state behind it, or fails, and then the
state is kept as well.  To reason about a sequence of steps one has to know what holds of
the state on both ways out.  A `Discipline` fixes what is the same for all steps of a kind:
how the state may change, what holds of it after a failure, and which failures there can be.
`Discipline.Ends` says of an outcome that it observes the discipline and that an answer has
a given property.

The rules put such facts together along the layers of steps: `Checked.Safe` for steps that
only read, `Discipline.Ends` for steps that also carry a state.
-/

namespace ShapeFlow

/-- What all steps of a kind observe: how the state `τ` may change, what holds of it when a
step fails, and which failures are allowed. -/
structure Discipline (τ : Type) where
  Grows : τ → τ → Prop
  Calm : τ → Prop
  Excused : Failure → Prop
  refl : ∀ state, Grows state state
  trans : ∀ {first second third}, Grows first second → Grows second third → Grows first third

/-- A step that only reads answers as told, or fails with an excuse. -/
def Checked.Safe {α : Type} (excused : Failure → Prop) (step : Checked α) (post : α → Prop) :
    Prop :=
  match step with
  | .ok value => post value
  | .error failure => excused failure

namespace Checked.Safe

variable {α β σ : Type} {excused : Failure → Prop} {post : α → Prop} {post' : β → Prop}
  {state : σ}

theorem bind {step : Checked α} {next : α → Checked β} (hstep : Checked.Safe excused step post)
    (hnext : ∀ value, post value → Checked.Safe excused (next value) post') :
    Checked.Safe excused (step >>= next) post' := by
  cases step with
  | ok value => exact hnext value hstep
  | error failure => exact hstep

theorem mono {step : Checked α} {weaker : α → Prop} (hstep : Checked.Safe excused step post)
    (hpost : ∀ value, post value → weaker value) : Checked.Safe excused step weaker := by
  cases step with
  | ok value => exact hpost value hstep
  | error failure => exact hstep

/-- What is told of all outcomes holds of an answer. -/
theorem of_eq_ok {step : Checked α} {value : α} (hsafe : Checked.Safe excused step post)
    (hstep : step = .ok value) : post value := by
  rw [hstep] at hsafe
  exact hsafe

theorem found {reference : Reference} (hexcused : excused (.broken reference))
    {option : Option α} (hpost : ∀ value, option = some value → post value) :
    Checked.Safe excused (ShapeFlow.found reference option) post := by
  cases option with
  | none => exact hexcused
  | some value => exact hpost value rfl

/-- A loop over a list keeps what each round keeps. -/
theorem foldlM {ι : Type} {body : β → ι → Checked β} (items : List ι) {value : β}
    (post' : β → Prop) (hstart : post' value)
    (hbody : ∀ item ∈ items, ∀ value, post' value → Checked.Safe excused (body value item) post') :
    Checked.Safe excused (items.foldlM body value) post' := by
  induction items generalizing value with
  | nil => exact hstart
  | cons item rest ih =>
    rw [List.foldlM_cons]
    refine (hbody item List.mem_cons_self value hstart).bind fun later hlater => ?_
    exact ih hlater fun other hother => hbody other (List.mem_cons_of_mem item hother)

/-- Sequencing of steps that read and carry a state. -/
theorem run_bind {step : StateT σ Checked α} {next : α → StateT σ Checked β}
    {post : α × σ → Prop} {post' : β × σ → Prop} (hstep : Checked.Safe excused (step state) post)
    (hnext : ∀ value later, post (value, later) → Checked.Safe excused (next value later) post') :
    Checked.Safe excused ((step >>= next) state) post' :=
  hstep.bind fun result hresult => hnext result.1 result.2 hresult

theorem get_bind {next : σ → StateT σ Checked β} {post' : β × σ → Prop}
    (hnext : Checked.Safe excused (next state state) post') :
    Checked.Safe excused ((get >>= next) state) post' := hnext

/-- A step that only reads, before steps that carry a state. -/
theorem lift_bind {step : Checked α} {next : α → StateT σ Checked β} {post' : β × σ → Prop}
    (hstep : Checked.Safe excused step post)
    (hnext : ∀ value, post value → Checked.Safe excused (next value state) post') :
    Checked.Safe excused (((liftM step : StateT σ Checked α) >>= next) state) post' := by
  cases step with
  | ok value => exact hnext value hstep
  | error failure => exact hstep

/-- A step that only reads, with a state. -/
theorem lift {step : Checked α} (hstep : Checked.Safe excused step post) :
    Checked.Safe excused ((liftM step : StateT σ Checked α) state) fun result =>
      state = result.2 ∧ post result.1 := by
  cases step with
  | ok value => exact ⟨rfl, hstep⟩
  | error failure => exact hstep

theorem leniently {step : Checked α} (hsafe : Checked.Safe excused step post) :
    Checked.Safe (fun _ => True) step post := by
  cases step with
  | ok value => exact hsafe
  | error failure => trivial

end Checked.Safe

theorem Checked.safe_true {α : Type} {step : Checked α} {post : α → Prop}
    (hpost : ∀ value, post value) : Checked.Safe (fun _ => True) step post := by
  cases step with
  | ok value => exact hpost value
  | error failure => trivial

namespace Discipline

variable {τ σ α β : Type}

/-- The outcome of a step that began in `state` observes the discipline, and an answer is as
told. -/
def Ends (discipline : Discipline τ) (state : τ) (outcome : EStateM.Result Failure τ α)
    (post : α → τ → Prop) : Prop :=
  match outcome with
  | .ok value later => discipline.Grows state later ∧ post value later
  | .error failure later =>
    discipline.Grows state later ∧ discipline.Calm later ∧ discipline.Excused failure

/-- Whatever observes the first discipline observes the second one. -/
structure Refines (discipline other : Discipline τ) : Prop where
  grows : ∀ state later, discipline.Grows state later → other.Grows state later
  calm : ∀ state, discipline.Calm state → other.Calm state
  excused : ∀ failure, discipline.Excused failure → other.Excused failure

variable {discipline : Discipline τ} {state : τ} {frame : σ}

namespace Ends

theorem mono {outcome : EStateM.Result Failure τ α} {post weaker : α → τ → Prop}
    (hstep : discipline.Ends state outcome post)
    (hpost : ∀ value later, discipline.Grows state later → post value later → weaker value later) :
    discipline.Ends state outcome weaker := by
  cases outcome with
  | ok value later => exact ⟨hstep.1, hpost value later hstep.1 hstep.2⟩
  | error failure later => exact hstep

theorem and {outcome : EStateM.Result Failure τ α} {first second : α → τ → Prop}
    (hfirst : discipline.Ends state outcome first)
    (hsecond : discipline.Ends state outcome second) :
    discipline.Ends state outcome fun value later => first value later ∧ second value later := by
  cases outcome with
  | ok value later => exact ⟨hfirst.1, hfirst.2, hsecond.2⟩
  | error failure later => exact hfirst

/-- What is told of all outcomes holds of an answer. -/
theorem of_eq_ok {outcome : EStateM.Result Failure τ α} {post : α → τ → Prop} {value : α}
    {later : τ} (hends : discipline.Ends state outcome post)
    (houtcome : outcome = .ok value later) :
    discipline.Grows state later ∧ post value later := by
  rw [houtcome] at hends
  exact hends

theorem under {other : Discipline τ} (hrefines : discipline.Refines other)
    {outcome : EStateM.Result Failure τ α} {post : α → τ → Prop}
    (hstep : discipline.Ends state outcome post) : other.Ends state outcome post := by
  cases outcome with
  | ok value later => exact ⟨hrefines.grows state later hstep.1, hstep.2⟩
  | error failure later =>
    exact ⟨hrefines.grows state later hstep.1, hrefines.calm later hstep.2.1,
      hrefines.excused failure hstep.2.2⟩

/-- Growth before a step counts as growth of the step. -/
theorem from_grown {earlier : τ} {outcome : EStateM.Result Failure τ α} {post : α → τ → Prop}
    (hgrows : discipline.Grows earlier state) (hstep : discipline.Ends state outcome post) :
    discipline.Ends earlier outcome post := by
  cases outcome with
  | ok value later => exact ⟨discipline.trans hgrows hstep.1, hstep.2⟩
  | error failure later => exact ⟨discipline.trans hgrows hstep.1, hstep.2⟩

theorem pure {value : α} {post : α → τ → Prop} (hpost : post value state) :
    discipline.Ends state ((Pure.pure value : EStateM Failure τ α) state) post :=
  ⟨discipline.refl state, hpost⟩

/-- Sequencing, told from a state before the first step. -/
theorem bind_from {earlier : τ} {step : EStateM Failure τ α} {next : α → EStateM Failure τ β}
    {post : α → τ → Prop} {post' : β → τ → Prop} (hearlier : discipline.Grows earlier state)
    (hstep : discipline.Ends state (step state) post)
    (hnext : ∀ value later, discipline.Grows state later → post value later →
      discipline.Ends earlier (next value later) post') :
    discipline.Ends earlier ((step >>= next) state) post' := by
  have hunfold : (step >>= next) state = match step state with
      | .ok value later => next value later
      | .error failure later => .error failure later := by
    simp only [Bind.bind, EStateM.bind]
    cases step state <;> rfl
  rw [hunfold]
  cases hresult : step state with
  | ok value later =>
    rw [hresult] at hstep
    exact hnext value later hstep.1 hstep.2
  | error failure later =>
    rw [hresult] at hstep
    exact ⟨discipline.trans hearlier hstep.1, hstep.2⟩

theorem bind {step : EStateM Failure τ α} {next : α → EStateM Failure τ β}
    {post : α → τ → Prop} {post' : β → τ → Prop}
    (hstep : discipline.Ends state (step state) post)
    (hnext : ∀ value later, discipline.Grows state later → post value later →
      discipline.Ends later (next value later) post') :
    discipline.Ends state ((step >>= next) state) post' :=
  bind_from (discipline.refl state) hstep fun value later hgrows hpost =>
    (hnext value later hgrows hpost).from_grown hgrows

theorem run_pure {value : α} {post : α × σ → τ → Prop} (hpost : post (value, frame) state) :
    discipline.Ends state ((Pure.pure value : StateT σ (EStateM Failure τ) α) frame state) post :=
  ⟨discipline.refl state, hpost⟩

/-- Sequencing of steps that carry a second state, told from a state before the first step. -/
theorem run_bind_from {earlier : τ} {step : StateT σ (EStateM Failure τ) α}
    {next : α → StateT σ (EStateM Failure τ) β} {post : α × σ → τ → Prop}
    {post' : β × σ → τ → Prop} (hearlier : discipline.Grows earlier state)
    (hstep : discipline.Ends state (step frame state) post)
    (hnext : ∀ value changed later, discipline.Grows state later → post (value, changed) later →
      discipline.Ends earlier (next value changed later) post') :
    discipline.Ends earlier ((step >>= next) frame state) post' :=
  show discipline.Ends earlier ((step frame >>= fun result => next result.1 result.2) state) post'
  from Ends.bind_from hearlier hstep fun result later hgrows hpost =>
    hnext result.1 result.2 later hgrows hpost

/-- Sequencing of steps that carry a second state. -/
theorem run_bind {step : StateT σ (EStateM Failure τ) α}
    {next : α → StateT σ (EStateM Failure τ) β} {post : α × σ → τ → Prop}
    {post' : β × σ → τ → Prop} (hstep : discipline.Ends state (step frame state) post)
    (hnext : ∀ value changed later, discipline.Grows state later → post (value, changed) later →
      discipline.Ends later (next value changed later) post') :
    discipline.Ends state ((step >>= next) frame state) post' :=
  run_bind_from (discipline.refl state) hstep fun value changed later hgrows hpost =>
    (hnext value changed later hgrows hpost).from_grown hgrows

section Primitive

variable {earlier : τ} {post : β × σ → τ → Prop}

theorem get_bind {next : σ → StateT σ (EStateM Failure τ) β}
    (hnext : discipline.Ends earlier (next frame frame state) post) :
    discipline.Ends earlier ((getThe σ >>= next) frame state) post := hnext

theorem getBase_bind {next : τ → StateT σ (EStateM Failure τ) β}
    (hnext : discipline.Ends earlier (next state frame state) post) :
    discipline.Ends earlier
      (((getThe τ : StateT σ (EStateM Failure τ) τ) >>= next) frame state) post := hnext

theorem modify_bind {change : σ → σ} {next : PUnit → StateT σ (EStateM Failure τ) β}
    (hnext : discipline.Ends earlier (next ⟨⟩ (change frame) state) post) :
    discipline.Ends earlier ((modifyThe σ change >>= next) frame state) post := hnext

theorem modifyBase_bind {change : τ → τ} {next : PUnit → StateT σ (EStateM Failure τ) β}
    (hnext : discipline.Ends earlier (next ⟨⟩ frame (change state)) post) :
    discipline.Ends earlier
      (((modifyThe τ change : StateT σ (EStateM Failure τ) PUnit) >>= next) frame state) post :=
  hnext

theorem modifyGetBase_bind {change : τ → α × τ} {next : α → StateT σ (EStateM Failure τ) β}
    (hnext : discipline.Ends earlier (next (change state).1 frame (change state).2) post) :
    discipline.Ends earlier
      (((modifyGetThe τ change : StateT σ (EStateM Failure τ) α) >>= next) frame state) post :=
  hnext

end Primitive

/-- A step without the second state, before steps that carry it. -/
theorem lift_bind {step : EStateM Failure τ α} {next : α → StateT σ (EStateM Failure τ) β}
    {post : α → τ → Prop} {post' : β × σ → τ → Prop}
    (hstep : discipline.Ends state (step state) post)
    (hnext : ∀ value later, discipline.Grows state later → post value later →
      discipline.Ends later (next value frame later) post') :
    discipline.Ends state
      (((liftM step : StateT σ (EStateM Failure τ) α) >>= next) frame state) post' := by
  have hunfold : ((liftM step : StateT σ (EStateM Failure τ) α) >>= next) frame state =
      (step >>= fun value => next value frame) state := by
    simp only [liftM, monadLift, MonadLift.monadLift, StateT.lift, Bind.bind, StateT.bind,
      EStateM.bind]
    cases step state <;> rfl
  rw [hunfold]
  exact Ends.bind hstep hnext

theorem reject {cause : Cause} {post : α × σ → τ → Prop} (hcalm : discipline.Calm state)
    (hexcused : discipline.Excused (.rejected (.cause cause))) :
    discipline.Ends state
      ((ShapeFlow.reject cause : StateT σ (EStateM Failure τ) α) frame state) post :=
  ⟨discipline.refl state, hcalm, hexcused⟩

theorem broken {reference : Reference} {post : α × σ → τ → Prop} (hcalm : discipline.Calm state)
    (hexcused : discipline.Excused (.broken reference)) :
    discipline.Ends state
      ((ShapeFlow.broken reference : StateT σ (EStateM Failure τ) α) frame state) post :=
  ⟨discipline.refl state, hcalm, hexcused⟩

/-- A step that only reads, with a state. -/
theorem keep {step : Checked α} {post : α → Prop} (hcalm : discipline.Calm state)
    (hstep : Checked.Safe discipline.Excused step post) :
    discipline.Ends state (Checked.keep step state) fun value later =>
      state = later ∧ post value := by
  cases step with
  | ok value => exact ⟨discipline.refl state, rfl, hstep⟩
  | error failure => exact ⟨discipline.refl state, hcalm, hstep⟩

/-- A step that only reads, before steps that carry a state. -/
theorem keep_bind {step : Checked α} {next : α → EStateM Failure τ β} {post : α → Prop}
    {post' : β → τ → Prop} (hcalm : discipline.Calm state)
    (hstep : Checked.Safe discipline.Excused step post)
    (hnext : ∀ value, post value → discipline.Ends state (next value state) post') :
    discipline.Ends state (((liftM step : EStateM Failure τ α) >>= next) state) post' := by
  refine Ends.bind (keep hcalm hstep) fun value later _ hvalue => ?_
  obtain ⟨rfl, hpost⟩ := hvalue
  exact hnext value hpost

/-- A step without the second state, where nothing follows. -/
theorem lift {step : EStateM Failure τ α} {post : α → τ → Prop}
    (hstep : discipline.Ends state (step state) post) :
    discipline.Ends state ((liftM step : StateT σ (EStateM Failure τ) α) frame state)
      fun result later => frame = result.2 ∧ post result.1 later :=
  show discipline.Ends state ((step >>= fun value => Pure.pure (value, frame)) state) _
  from Ends.bind hstep fun _ _ _ hpost => Ends.pure ⟨rfl, hpost⟩

/-- The second state is given up at the end. -/
theorem run' {step : StateT σ (EStateM Failure τ) α} {post : α × σ → τ → Prop}
    {post' : α → τ → Prop} (hstep : discipline.Ends state (step frame state) post)
    (hpost : ∀ value changed later, post (value, changed) later → post' value later) :
    discipline.Ends state ((step.run' frame) state) post' := by
  have hunfold : (step.run' frame) state = match step frame state with
      | .ok result later => .ok result.1 later
      | .error failure later => .error failure later := by
    simp only [StateT.run', Functor.map, EStateM.map]
    cases step frame state <;> rfl
  rw [hunfold]
  cases hresult : step frame state with
  | ok result later =>
    rw [hresult] at hstep
    exact ⟨hstep.1, hpost result.1 result.2 later hstep.2⟩
  | error failure later =>
    rw [hresult] at hstep
    exact hstep

/-- A loop over a list keeps what each round keeps. -/
theorem foldlM {ι : Type} {body : β → ι → StateT σ (EStateM Failure τ) β}
    (items : List ι) {value : β} (invariant : β × σ → τ → Prop)
    (hstart : invariant (value, frame) state)
    (hbody : ∀ item ∈ items, ∀ value frame state, invariant (value, frame) state →
      discipline.Ends state (body value item frame state) invariant) :
    discipline.Ends state (items.foldlM body value frame state) invariant := by
  induction items generalizing value frame state with
  | nil => exact run_pure hstart
  | cons item rest ih =>
    rw [List.foldlM_cons]
    refine (hbody item List.mem_cons_self value frame state hstart).run_bind ?_
    intro value changed later _ hinvariant
    exact ih hinvariant fun other hother => hbody other (List.mem_cons_of_mem item hother)

/-- What each item of a list yields, and what the state keeps on the way. -/
theorem mapM {ι : Type} {body : ι → StateT σ (EStateM Failure τ) α} (items : List ι)
    (invariant : σ → τ → Prop) (yields : ι → α → τ → Prop) (hstart : invariant frame state)
    (hmono : ∀ item value earlier later, discipline.Grows earlier later →
      yields item value earlier → yields item value later)
    (hbody : ∀ item ∈ items, ∀ frame state, invariant frame state →
      discipline.Ends state (body item frame state) fun result later =>
        invariant result.2 later ∧ yields item result.1 later) :
    discipline.Ends state (items.mapM body frame state) fun result later =>
      invariant result.2 later ∧
        List.Forall₂ (fun item value => yields item value later) items result.1 := by
  induction items generalizing frame state with
  | nil => exact run_pure ⟨hstart, .nil⟩
  | cons item rest ih =>
    rw [List.mapM_cons]
    refine (hbody item List.mem_cons_self frame state hstart).run_bind ?_
    intro value changed later _ hvalue
    refine (ih hvalue.1 fun other hother =>
      hbody other (List.mem_cons_of_mem item hother)).run_bind ?_
    intro values last final hgrows hvalues
    exact run_pure ⟨hvalues.1, .cons (hmono _ _ _ _ hgrows hvalue.2) hvalues.2⟩

/-- What each item of a list yields, where it does not matter from which item. -/
theorem mapM_forall {ι : Type} {body : ι → StateT σ (EStateM Failure τ) α} (items : List ι)
    (invariant : σ → τ → Prop) (holds : α → τ → Prop) (hstart : invariant frame state)
    (hmono : ∀ value earlier later, discipline.Grows earlier later →
      holds value earlier → holds value later)
    (hbody : ∀ item ∈ items, ∀ frame state, invariant frame state →
      discipline.Ends state (body item frame state) fun result later =>
        invariant result.2 later ∧ holds result.1 later) :
    discipline.Ends state (items.mapM body frame state) fun result later =>
      invariant result.2 later ∧ result.1.length = items.length ∧
        ∀ value ∈ result.1, holds value later := by
  refine (mapM items invariant (fun _ => holds) hstart (fun _ => hmono) hbody).mono ?_
  intro result later _ hpost
  obtain ⟨values, changed⟩ := result
  obtain ⟨hinvariant, hvalues⟩ := hpost
  refine ⟨hinvariant, hvalues.length_eq.symm, ?_⟩
  dsimp only at hvalues ⊢
  clear hinvariant hbody
  induction hvalues with
  | nil => simp
  | cons hvalue _ ih => exact List.forall_mem_cons.mpr ⟨hvalue, ih⟩

/-- What each item of a list yields, where the items after it keep that. -/
theorem mapM_along {ι : Type} {body : ι → StateT σ (EStateM Failure τ) α} (items : List ι)
    (reaches : σ → τ → σ → τ → Prop) (yields : ι → α → σ → τ → Prop)
    (hstart : reaches frame state frame state)
    (hend : ∀ {frame state later final}, reaches frame state later final →
      reaches later final later final)
    (htrans : ∀ {frame state later final last ended}, reaches frame state later final →
      reaches later final last ended → reaches frame state last ended)
    (hkept : ∀ {item value frame state later final}, reaches frame state later final →
      yields item value frame state → yields item value later final)
    (hbody : ∀ item ∈ items, ∀ later final, reaches frame state later final →
      discipline.Ends final (body item later final) fun result ended =>
        reaches later final result.2 ended ∧ yields item result.1 result.2 ended) :
    discipline.Ends state (items.mapM body frame state) fun result final =>
      reaches frame state result.2 final ∧
        List.Forall₂ (fun item value => yields item value result.2 final) items result.1 := by
  induction items generalizing frame state with
  | nil => exact run_pure ⟨hstart, .nil⟩
  | cons item rest ih =>
    rw [List.mapM_cons]
    refine (hbody item List.mem_cons_self frame state hstart).run_bind ?_
    rintro value changed later - ⟨hchanged, hvalue⟩
    refine (ih (hend hchanged) fun other hother last final hlast =>
      hbody other (List.mem_cons_of_mem item hother) last final (htrans hchanged hlast)).run_bind ?_
    rintro values last final - ⟨hlast, hvalues⟩
    exact run_pure ⟨htrans hchanged hlast, .cons (hkept hlast hvalue) hvalues⟩

/-- A round for each item of a list keeps what each round keeps. -/
theorem forM {ι : Type} {body : ι → StateT σ (EStateM Failure τ) PUnit} (items : List ι)
    (invariant : σ → τ → Prop) (hstart : invariant frame state)
    (hbody : ∀ item ∈ items, ∀ frame state, invariant frame state →
      discipline.Ends state (body item frame state) fun result later =>
        invariant result.2 later) :
    discipline.Ends state (items.forM body frame state) fun result later =>
      invariant result.2 later := by
  induction items generalizing frame state with
  | nil => exact run_pure hstart
  | cons item rest ih =>
    refine (hbody item List.mem_cons_self frame state hstart).run_bind ?_
    intro _ changed later _ hinvariant
    exact ih hinvariant fun other hother => hbody other (List.mem_cons_of_mem item hother)

/-- Rounds for the items of a list, where what is kept depends on the items that are left. -/
theorem forM_rest {ι : Type} {body : ι → StateT σ (EStateM Failure τ) PUnit} (items : List ι)
    (invariant : List ι → σ → τ → Prop) (hstart : invariant items frame state)
    (hbody : ∀ item rest frame state, invariant (item :: rest) frame state →
      discipline.Ends state (body item frame state) fun result later =>
        invariant rest result.2 later) :
    discipline.Ends state (items.forM body frame state) fun result later =>
      invariant [] result.2 later := by
  induction items generalizing frame state with
  | nil => exact run_pure hstart
  | cons item rest ih =>
    exact (hbody item rest frame state hstart).run_bind fun _ _ _ _ hinvariant => ih hinvariant

/-- A step that only reads, before steps that carry both states. -/
theorem checked_bind {step : Checked α} {next : α → StateT σ (EStateM Failure τ) β}
    {post : α → Prop} {post' : β × σ → τ → Prop} (hcalm : discipline.Calm state)
    (hstep : Checked.Safe discipline.Excused step post)
    (hnext : ∀ value, post value → discipline.Ends state (next value frame state) post') :
    discipline.Ends state
      (((liftM step : StateT σ (EStateM Failure τ) α) >>= next) frame state) post' := by
  cases step with
  | ok value => exact hnext value hstep
  | error failure => exact ⟨discipline.refl state, hcalm, hstep⟩

/-- A step that only reads, with both states. -/
theorem checked {step : Checked α} {post : α → Prop} (hcalm : discipline.Calm state)
    (hstep : Checked.Safe discipline.Excused step post) :
    discipline.Ends state ((liftM step : StateT σ (EStateM Failure τ) α) frame state)
      fun result later => frame = result.2 ∧ state = later ∧ post result.1 := by
  cases step with
  | ok value => exact ⟨discipline.refl state, rfl, rfl, hstep⟩
  | error failure => exact ⟨discipline.refl state, hcalm, hstep⟩

end Ends

/-! ## Steps on types and frames -/

variable {types : Discipline TypeGraph} {graph : TypeGraph} {frame : Frame}

theorem Ends.inspect {question : TypeGraph → Frame → Checked α} (answer : α → Prop)
    (hcalm : types.Calm graph)
    (hquestion : Checked.Safe types.Excused (question graph frame) answer) :
    types.Ends graph (ShapeFlow.inspect question frame graph) fun result grown =>
      frame = result.2 ∧ graph = grown ∧ answer result.1 := by
  unfold ShapeFlow.inspect
  cases hresult : question graph frame with
  | ok value =>
    rw [hresult] at hquestion
    exact ⟨types.refl graph, rfl, rfl, hquestion⟩
  | error failure =>
    rw [hresult] at hquestion
    exact ⟨types.refl graph, hcalm, hquestion⟩

theorem Ends.reading {step : TypeGraph → StateT Frame Checked α} {post : α × Frame → Prop}
    (hcalm : types.Calm graph) (hstep : Checked.Safe types.Excused (step graph frame) post) :
    types.Ends graph (ShapeFlow.reading step frame graph) fun result grown =>
      graph = grown ∧ post result := by
  unfold ShapeFlow.reading
  cases hresult : step graph frame with
  | ok result =>
    rw [hresult] at hstep
    exact ⟨types.refl graph, rfl, hstep⟩
  | error failure =>
    rw [hresult] at hstep
    exact ⟨types.refl graph, hcalm, hstep⟩

end Discipline

/-! ## Running a step -/

section Running

variable {σ τ α β : Type} {step : StateT σ (EStateM Failure τ) α}
  {next : α → StateT σ (EStateM Failure τ) β} {state later : σ} {start final : τ} {value : α}
  {failure : Failure} {graph : TypeGraph} {frame changed : Frame}

theorem run_bind_of_ok (hstep : step state start = .ok (value, later) final) :
    (step >>= next) state start = next value later final := by
  simp only [bind, StateT.bind, EStateM.bind, hstep]

theorem run_bind_of_error (hstep : step state start = .error failure final) :
    (step >>= next) state start = .error failure final := by
  simp only [bind, StateT.bind, EStateM.bind, hstep]

theorem getFrame_bind_eq (rest : Frame → Framed α) (frame : Frame) (graph : TypeGraph) :
    ((getThe Frame : Framed Frame) >>= rest) frame graph = rest frame frame graph := rfl

theorem inspect_of_ok {question : TypeGraph → Frame → Checked α}
    (hanswer : question graph frame = .ok value) :
    inspect question frame graph = .ok (value, frame) graph := by
  unfold inspect
  rw [hanswer]

theorem inspect_of_error {question : TypeGraph → Frame → Checked α}
    (hanswer : question graph frame = .error failure) :
    inspect question frame graph = .error failure graph := by
  unfold inspect
  rw [hanswer]

theorem reading_of_ok {reads : TypeGraph → StateT Frame Checked α}
    (hread : reads graph frame = .ok (value, changed)) :
    reading reads frame graph = .ok (value, changed) graph := by
  unfold reading
  rw [hread]

theorem reading_of_error {reads : TypeGraph → StateT Frame Checked α}
    (hread : reads graph frame = .error failure) :
    reading reads frame graph = .error failure graph := by
  unfold reading
  rw [hread]

theorem lift_of_ok {builds : Building α} {built : TypeGraph}
    (hbuilds : builds graph = .ok value built) :
    (liftM builds : Framed α) frame graph = .ok (value, frame) built := by
  simp only [liftM, monadLift, MonadLift.monadLift, StateT.lift, bind, EStateM.bind, hbuilds]
  rfl

end Running

/-! ## Steps that succeed -/

section Success

variable {τ σ α β : Type}

/-- Nothing is asked of a step but what it answers. -/
def lenient (τ : Type) : Discipline τ where
  Grows _ _ := True
  Calm _ := True
  Excused _ := True
  refl _ := trivial
  trans _ _ := trivial

/-- How the state has changed is part of what is told, where nothing else is asked. -/
theorem Discipline.Ends.leniently {discipline : Discipline τ} {state : τ}
    {outcome : EStateM.Result Failure τ α} {post : α → τ → Prop}
    (hends : discipline.Ends state outcome post) :
    (lenient τ).Ends state outcome fun value later => discipline.Grows state later ∧
      post value later := by
  cases outcome with
  | ok value later => exact ⟨trivial, hends⟩
  | error failure later => exact ⟨trivial, trivial, trivial⟩

theorem lenient_any (step : StateT σ (EStateM Failure τ) α) (frame : σ) (state : τ) :
    (lenient τ).Ends state (step frame state) fun _ _ => True := by
  cases step frame state with
  | ok result final => exact ⟨trivial, trivial⟩
  | error failure final => exact ⟨trivial, trivial, trivial⟩

/-- The two steps of a sequence that succeeds. -/
theorem exists_of_bind {step : EStateM Failure τ α} {next : α → EStateM Failure τ β}
    {state final : τ} {result : β} (hrun : (step >>= next) state = .ok result final) :
    ∃ value later, step state = .ok value later ∧ next value later = .ok result final := by
  simp only [Bind.bind, EStateM.bind] at hrun
  cases hstep : step state with
  | ok value later =>
    rw [hstep] at hrun
    exact ⟨value, later, rfl, hrun⟩
  | error failure later =>
    rw [hstep] at hrun
    exact nomatch hrun

theorem exists_of_run_bind {step : StateT σ (EStateM Failure τ) α}
    {next : α → StateT σ (EStateM Failure τ) β} {frame : σ} {state final : τ} {result : β × σ}
    (hrun : (step >>= next) frame state = .ok result final) :
    ∃ value changed later, step frame state = .ok (value, changed) later ∧
      next value changed later = .ok result final := by
  obtain ⟨outcome, later, hstep, hnext⟩ := exists_of_bind hrun
  exact ⟨outcome.1, outcome.2, later, hstep, hnext⟩

/-- The answer of a step without the second state, before a step that succeeds. -/
theorem exists_of_lift_bind {step : EStateM Failure τ α}
    {next : α → StateT σ (EStateM Failure τ) β} {frame : σ} {state final : τ} {result : β × σ}
    (hrun : ((liftM step : StateT σ (EStateM Failure τ) α) >>= next) frame state =
      .ok result final) :
    ∃ value later, step state = .ok value later ∧ next value frame later = .ok result final := by
  obtain ⟨value, changed, later, hstep, hnext⟩ := exists_of_run_bind hrun
  obtain ⟨answer, between, hanswer, hpure⟩ := exists_of_bind hstep
  cases hpure
  exact ⟨value, later, hanswer, hnext⟩

/-- The answer of a step that only reads, before a step that succeeds. -/
theorem exists_of_checked_bind {step : Checked α} {next : α → StateT σ (EStateM Failure τ) β}
    {frame : σ} {state final : τ} {result : β × σ}
    (hrun : ((liftM step : StateT σ (EStateM Failure τ) α) >>= next) frame state =
      .ok result final) :
    ∃ value, step = .ok value ∧ next value frame state = .ok result final := by
  cases step with
  | ok value => exact ⟨value, rfl, hrun⟩
  | error failure => exact nomatch hrun

/-- The answer to the question before a step that succeeds. -/
theorem exists_of_inspect_bind {question : TypeGraph → Frame → Checked α} {next : α → Framed β}
    {frame : Frame} {graph final : TypeGraph} {result : β × Frame}
    (hrun : (inspect question >>= next) frame graph = .ok result final) :
    ∃ answer, question graph frame = .ok answer ∧ next answer frame graph = .ok result final := by
  obtain ⟨answer, same, graph', hasked, hnext⟩ := exists_of_run_bind hrun
  obtain ⟨hanswer, rfl, rfl⟩ := inspect_eq_ok_iff.mp hasked
  exact ⟨answer, hanswer, hnext⟩

end Success

end ShapeFlow
