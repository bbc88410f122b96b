import ShapeFlow.Proofs.PublishedTypes
import ShapeFlow.Proofs.UnbrokenSessions

/-!
# The laws of rebuilding

A part at the end of a chain of selectors is rebound by rebuilding every object on the way.  Seen
from outside, this is an assignment to the end of the chain: the chain leads to the part, chains
that part from it lead where they led, and the objects on the way keep their classes and their other
parts (`TypeGraph.Rebuilt`).  Nothing is assigned in place, so a type that refers back to itself is
unrolled along the chain, and all types that there were stay what they were.

That a chain which leads to no object adds no type cannot be read off `TypeGraph.bindAt?`, which
answers no graph then.  `TypeGraph.rebuild` tells the operations one after the other, each with the
graph that it leaves and with what it must not be asked for; it answers what `bindAt?` does, and
where it halts it has added nothing (`TypeGraph.rebuild_eq`).
-/

namespace ShapeFlow

namespace TypeGraph

variable {graph : TypeGraph} {type part rebuilt : TypeId} {selector : Selector}
  {selectors : List Selector} {result : TypeId × TypeGraph}

/-! ## One operation after the other -/

/-- Why an operation answers no type. -/
inductive Halt where
  /-- The chain leads to no object. -/
  | astray
  /-- The graph has no such node, or a part is to be bound in the primitive type. -/
  | broken
deriving DecidableEq

/-- Operations on a graph, which keeps what has been added when one of them halts. -/
abbrev Builder := EStateM Halt TypeGraph

/-- The node of a type. -/
def nodeOf (type : TypeId) : Builder TypeNode := do
  match (← get).node? type with
  | some node => pure node
  | none => throw .broken

/-- The type of a part to which a chain goes on. -/
def select (type : TypeId) (selector : Selector) : Builder TypeId := do
  match (← nodeOf type).fields.get? selector with
  | some part => pure part
  | none => throw .astray

/-- The object type with one part bound. -/
def setField (type : TypeId) (selector : Selector) (part : TypeId) : Builder TypeId := do
  match ← nodeOf type with
  | .object className fields => modifyGet (intern className (fields.insert selector part))
  | .scalar => throw .broken

/-- The type with one part bound, if it is an object type. -/
def attach (type : TypeId) (selector : Selector) (part : TypeId) : Builder TypeId := do
  match ← nodeOf type with
  | .object _ _ => setField type selector part
  | .scalar => throw .astray

/-- The type with the part at the end of a chain bound. -/
def rebuild (type : TypeId) (selectors : List Selector) (part : TypeId) : Builder TypeId :=
  match selectors with
  | [] => pure part
  | [selector] => attach type selector part
  | selector :: rest => do
    let inner ← select type selector
    let rebuilt ← rebuild inner rest part
    attach type selector rebuilt

theorem nodeOf_eq {node : TypeNode} (hnode : graph.node? type = some node) :
    nodeOf type graph = .ok node graph := by
  have hget : (get : Builder TypeGraph) graph = .ok graph graph := rfl
  simp only [nodeOf, bind, EStateM.bind, hget, hnode]
  rfl

/-- A part that is not bound leads nowhere, and asking for it changes nothing. -/
theorem select_eq (hhas : graph.Has type) (selector : Selector) :
    select type selector graph =
      match graph.field? type selector with
      | some inner => .ok inner graph
      | none => .error .astray graph := by
  obtain ⟨node, hnode⟩ := (has_iff_exists_node graph type).mp hhas
  simp only [select, bind, EStateM.bind, nodeOf_eq hnode, field?_eq_of_node? hnode]
  cases node.fields.get? selector <;> rfl

/-- Only in an object type a part is bound. -/
theorem attach_eq (hhas : graph.Has type) (selector : Selector) (part : TypeId) :
    attach type selector part graph =
      match graph.bindField? type selector part with
      | some result => .ok result.1 result.2
      | none => .error .astray graph := by
  obtain ⟨node, hnode⟩ := (has_iff_exists_node graph type).mp hhas
  cases node with
  | scalar =>
    simp only [attach, bind, EStateM.bind, nodeOf_eq hnode, bindField?, hnode]
    rfl
  | object className fields =>
    simp only [attach, setField, bind, EStateM.bind, nodeOf_eq hnode, bindField?, hnode]
    rfl

/-- Rebuilding one operation after the other answers what `bindAt?` does, and where there is no
answer nothing has been added. -/
theorem rebuild_eq (hclosed : graph.Closed) (hhas : graph.Has type) (selectors : List Selector)
    (part : TypeId) :
    rebuild type selectors part graph =
      match graph.bindAt? type selectors part with
      | some result => .ok result.1 result.2
      | none => .error .astray graph := by
  induction selectors generalizing type with
  | nil => rfl
  | cons selector rest ih =>
    cases rest with
    | nil => exact attach_eq hhas selector part
    | cons next rest =>
      simp only [rebuild, bindAt?, bind, EStateM.bind, select_eq hhas selector]
      cases hinner : graph.field? type selector with
      | none => rfl
      | some inner =>
        simp only [ih (hclosed.has_field? hinner), Option.bind_some]
        cases hrebuilt : graph.bindAt? inner (next :: rest) part with
        | none => rfl
        | some rebuilt =>
          -- The part is bound in the object that has led on.
          obtain ⟨result, hresult⟩ := exists_of_field? hinner hrebuilt
          simp only [attach_eq ((Grows.bindAt? hrebuilt).has hhas), Option.bind_some, hresult]

/-! ## What has been rebuilt -/

/-- The types cannot be told apart, or there are none. -/
def Agree (graph : TypeGraph) : Option TypeId → Option TypeId → Prop :=
  Option.Rel fun first second => graph.sameShape first second = true

/-- The type has been rebuilt along the chain, with the part at its end. -/
structure Rebuilt (graph : TypeGraph) (type : TypeId) (selectors : List Selector) (part : TypeId)
    (rebuilt : TypeId) (grown : TypeGraph) : Prop where
  /-- The types that there were stay what they were, and so does the one that is rebuilt. -/
  keeps : graph.Keeps grown
  /-- From the end of the chain on it is as from the part. -/
  below : ∀ rest, grown.Agree (graph.follow? part rest)
    (grown.follow? rebuilt (selectors ++ rest))
  /-- A chain that parts from this one leads where it led. -/
  apart : ∀ chain, ¬ selectors <+: chain → ¬ chain <+: selectors →
    grown.Agree (graph.follow? type chain) (grown.follow? rebuilt chain)
  /-- The objects on the way keep their class and all parts but the one that the chain goes on
  to. -/
  above : ∀ before next after, selectors = before ++ next :: after →
    ∃ held kept className, graph.follow? type before = some held ∧
      grown.follow? rebuilt before = some kept ∧ graph.className? held = some className ∧
        grown.className? kept = some className ∧
          ∀ other, other ≠ next → grown.Agree (graph.field? held other) (grown.field? kept other)

/-- Types of a graph and of one that it has grown into, with the same unfolding, agree there. -/
theorem Grows.agree {grown : TypeGraph} (hgrows : graph.Grows grown) (hclosed : graph.Closed)
    (hclosed' : grown.Closed) {before after : Option TypeId}
    (hends : Option.Rel (fun first second => SameUnfolding graph first grown second) before
      after) : grown.Agree before after := by
  cases hends with
  | none => exact .none
  | some hsame =>
    have hhas := hsame.has_left
    exact .some ((sameShape_iff hclosed' (hgrows.has hhas) hsame.has_right).mpr
      ((hgrows.sameUnfolding hclosed hhas).symm.trans hsame))

/-- Wherever a chain that is rebuilt goes on, there is an object. -/
theorem exists_classAt?_of_bindAt?_append (hwell : graph.WellFormed) (hhas : graph.Has type)
    {before after : List Selector} {next : Selector}
    (hbind : graph.bindAt? type (before ++ next :: after) part = some result) :
    ∃ className, graph.classAt? type before = some className := by
  induction before generalizing type result with
  | nil =>
    obtain ⟨inner, rebuilt, -, hrebuilt, hbound⟩ := exists_of_bindAt?_cons hbind
    have hgrows : graph.Grows rebuilt.2 := .bindAt? hrebuilt
    unfold bindField? at hbound
    split at hbound
    · rename_i className fields hnode
      rw [hgrows.node?_eq type hhas] at hnode
      exact ⟨className, className?_eq_some_iff.mpr ⟨fields, hnode⟩⟩
    · exact nomatch hbound
  | cons selector rest ih =>
    obtain ⟨inner, rebuilt, hinner, hrebuilt, -⟩ := exists_of_bindAt?_cons hbind
    have hfield := hinner (by simp)
    obtain ⟨className, hclass⟩ := ih (hwell.closed.has_field? hfield) hrebuilt
    exact ⟨className, by rw [classAt?_cons, hfield, Option.bind_some, hclass]⟩

theorem exists_follow?_of_classAt? {chain : List Selector} {className : String}
    (hclass : graph.classAt? type chain = some className) :
    ∃ found, graph.follow? type chain = some found ∧ graph.className? found = some className :=
  Option.bind_eq_some_iff.mp hclass

/-- Whatever `bindAt?` answers has been rebuilt. -/
theorem rebuilt_of_bindAt? (hwell : graph.WellFormed) (hhas : graph.Has type)
    (hpart : graph.Has part) (hbind : graph.bindAt? type selectors part = some result) :
    graph.Rebuilt type selectors part result.1 result.2 := by
  have hgrows : graph.Grows result.2 := .bindAt? hbind
  obtain ⟨hwell', -⟩ := bindAt?_wellFormed hwell hpart hbind
  have hapart : ∀ chain, ¬ selectors <+: chain → ¬ chain <+: selectors →
      Option.Rel (fun first second => SameUnfolding graph first result.2 second)
        (graph.follow? type chain) (result.2.follow? result.1 chain) :=
    fun chain hbelow habove => bindAt?_apart hwell hpart hhas hbind hbelow habove
  refine ⟨hgrows.keeps hwell.closed hwell'.closed, fun rest => ?_, fun chain hbelow habove =>
    hgrows.agree hwell.closed hwell'.closed (hapart chain hbelow habove), ?_⟩
  · obtain ⟨reached, hreached, hsame⟩ := bindAt?_follow? hwell hpart hbind
    rw [follow?_append, hreached]
    exact hgrows.agree hwell.closed hwell'.closed (hsame.rel_follow? rest)
  · rintro before next after rfl
    have houtside : ¬ before ++ next :: after <+: before := by
      intro hprefix
      have hlength := hprefix.length_le
      rw [List.length_append, List.length_cons] at hlength
      omega
    obtain ⟨className, hclass⟩ := exists_classAt?_of_bindAt?_append hwell hhas hbind
    have hclass' := hclass
    rw [← bindAt?_classAt? hwell hpart hhas hbind houtside] at hclass'
    obtain ⟨held, hheld, hof⟩ := exists_follow?_of_classAt? hclass
    obtain ⟨kept, hkept, hof'⟩ := exists_follow?_of_classAt? hclass'
    refine ⟨held, kept, className, hheld, hkept, hof, hof', fun other hother => ?_⟩
    -- The chain to another part of the object parts from the one that is rebuilt.
    have hbelow : ¬ before ++ next :: after <+: before ++ [other] := by
      rw [List.prefix_append_right_inj, List.cons_prefix_cons]
      exact fun hprefix => hother hprefix.1.symm
    have habove : ¬ before ++ [other] <+: before ++ next :: after := by
      rw [List.prefix_append_right_inj, List.cons_prefix_cons]
      exact fun hprefix => hother hprefix.1
    have hends := hapart (before ++ [other]) hbelow habove
    rw [follow?_append, follow?_append, hheld, hkept] at hends
    simp only [Option.bind_some, follow?_cons, follow?_nil, Option.bind_fun_some] at hends
    exact hgrows.agree hwell.closed hwell'.closed hends

end TypeGraph

/-! ## Sessions -/

/-- In a session all graphs are well-formed, at all moments and at all points of bodies.  In every
well-formed graph a chain can be rebuilt exactly if, but for its last selector, it leads to an
object; the outcome is that of one operation after the other, and obeys the laws.  Otherwise no type
is added, as no operation is asked for what it must not be asked for. -/
theorem Engine.session_rebuilds {program : Program} {limit : Nat} {engine : Engine}
    {history : List Moment} (hsession : Engine.Session program limit engine history) :
    (∀ moment ∈ history, moment.knowledge.graph.WellFormed ∧
      ∀ task point, moment.Passes (.ofProgram program) limit task point →
        point.graph.WellFormed) ∧
    ∀ graph : TypeGraph, graph.WellFormed → ∀ type part chain last, graph.Has type →
      graph.Has part →
        ((graph.bindAt? type (chain ++ [last]) part).isSome = true ↔
          ∃ reached className, graph.follow? type chain = some reached ∧
            graph.className? reached = some className) ∧
        (∀ rebuilt grown, graph.bindAt? type (chain ++ [last]) part = some (rebuilt, grown) →
          TypeGraph.rebuild type (chain ++ [last]) part graph = .ok rebuilt grown ∧
            grown.WellFormed ∧ grown.Has rebuilt ∧
              graph.Rebuilt type (chain ++ [last]) part rebuilt grown) ∧
        (graph.bindAt? type (chain ++ [last]) part = none →
          TypeGraph.rebuild type (chain ++ [last]) part graph = .error .astray graph) := by
  refine ⟨fun moment hmem => ⟨(hsession.follows.moments moment hmem).knowledge.graph,
    fun task point hpasses => ?_⟩, fun graph hwell type part chain last hhas hpart => ?_⟩
  · have hrules := (Shapes.admit_all (.ofProgram program)).rules
    exact ((Regime.session_holdsAt hrules TypeGraph.conforms_all hsession moment hmem).meets task
      point hpasses).stands.sound.wellFormed
  · have hrun := TypeGraph.rebuild_eq hwell.closed hhas (chain ++ [last]) part
    refine ⟨?_, fun rebuilt grown hbind => ?_, fun hbind => by rw [hrun, hbind]⟩
    · constructor
      · intro hsome
        obtain ⟨result, hbind⟩ := Option.isSome_iff_exists.mp hsome
        obtain ⟨className, hclass⟩ := TypeGraph.exists_classAt?_of_bindAt? hbind
        obtain ⟨reached, hreached⟩ := TypeGraph.exists_follow?_of_classAt? hclass
        exact ⟨reached, className, hreached⟩
      · rintro ⟨reached, className, hreached, hof⟩
        obtain ⟨result, hbind⟩ := TypeGraph.exists_of_classAt?
          (Option.bind_eq_some_iff.mpr ⟨reached, hreached, hof⟩) last part
        rw [hbind]
        rfl
    · obtain ⟨hwell', hhas'⟩ := TypeGraph.bindAt?_wellFormed hwell hpart hbind
      exact ⟨by rw [hrun, hbind], hwell', hhas',
        TypeGraph.rebuilt_of_bindAt? hwell hhas hpart hbind⟩

/-- An object that holds itself is rebuilt so that only the one in the one that it holds holds a box
instead.  A chain through that box, which has no parts, is not rebuilt. -/
theorem knotBox_rebuilds : ∃ history, Engine.Session knotProgram 4 knotBox history ∧
    knotBox.graph.follow? ⟨1⟩ [.field "@next"] = some ⟨1⟩ ∧
      (∃ rebuilt grown, TypeGraph.rebuild ⟨1⟩ [.field "@next", .field "@next"] ⟨3⟩
          knotBox.graph = .ok rebuilt grown ∧
        knotBox.graph.Rebuilt ⟨1⟩ [.field "@next", .field "@next"] ⟨3⟩ rebuilt grown) ∧
      TypeGraph.rebuild ⟨3⟩ [.field "@held", .field "@next"] ⟨1⟩ knotBox.graph =
        .error .astray knotBox.graph := by
  have hreachable : Engine.Reachable knotProgram 4 knotBox :=
    knotStart_reachable.trans (.single (.object knotStart "Box"))
  obtain ⟨history, hsession⟩ := Engine.reachable_iff_session.mp hreachable
  obtain ⟨-, hlaws⟩ := Engine.session_rebuilds hsession
  have hwell := hreachable.tidy.1
  have hloop : knotBox.graph.follow? ⟨1⟩ [.field "@next"] = some ⟨1⟩ := by decide +kernel
  refine ⟨history, hsession, hloop, ?_, ?_⟩
  · obtain ⟨hiff, hrebuilt, -⟩ := hlaws knotBox.graph hwell ⟨1⟩ ⟨3⟩ [.field "@next"]
      (.field "@next") (by decide +kernel) (by decide +kernel)
    obtain ⟨⟨rebuilt, grown⟩, hbind⟩ := Option.isSome_iff_exists.mp
      (hiff.mpr ⟨⟨1⟩, "Node", hloop, by decide +kernel⟩)
    obtain ⟨hrun, -, -, hlawful⟩ := hrebuilt rebuilt grown hbind
    exact ⟨rebuilt, grown, hrun, hlawful⟩
  · obtain ⟨-, -, hnone⟩ := hlaws knotBox.graph hwell ⟨3⟩ ⟨1⟩ [.field "@held"]
      (.field "@next") (by decide +kernel) (by decide +kernel)
    exact hnone (by decide +kernel)

end ShapeFlow
