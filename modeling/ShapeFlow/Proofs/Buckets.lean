import Mathlib.Data.List.Find
import ShapeFlow.Proofs.InterningLaws
import ShapeFlow.Proofs.MemoTable

/-!
# Searching in buckets

Shared types and the entries of memos may be kept in buckets, each under a number that a hash makes
of a sketch or of several.  A search then looks into one bucket only.  It finds what a search
through all entries finds, whatever the hash, as long as an entry that the search would accept has
the number of what is sought *now*.  Two things are needed for that: what has one shape has one
number, for cyclic types and for any order of parts, and an entry still has the number under which
it was put away, although types were added since.

The numbers are those of sketches, and a sketch depends on the unfolding alone
(`TypeGraph.SameUnfolding.sketch?_eq`).  That entries keep their sketches is part of what operations
on types keep (`TypeGraph.Tidy`), also while nodes are reserved whose parts are not known yet, and
of what is known of memos at each moment of a session (`Memo.Sound`).
-/

namespace ShapeFlow

open Relation (ReflTransGen)

/-- A search for what is in the bucket may be made in the bucket. -/
theorem find?_filter_eq {α : Type} {items : List α} {accepts within : α → Bool}
    (hwithin : ∀ item ∈ items, accepts item = true → within item = true) :
    (items.filter within).find? accepts = items.find? accepts := by
  rw [List.find?_filter]
  refine List.find?_congr fun item hitem => ?_
  cases haccepts : accepts item with
  | false => simp
  | true => simp [hwithin item hitem haccepts]

variable (hash : Sketch → UInt64)

/-! ## Fingerprints -/

namespace TypeGraph

variable {graph : TypeGraph} {className : String} {fields : Fields} {type : TypeId}

/-- The fingerprint that a node has in this graph, whether or not it belongs to it. -/
def fingerprintNode (graph : TypeGraph) (node : TypeNode) : UInt64 :=
  hash (graph.sketchNode node)

/-- The fingerprint of a type. -/
def fingerprint (graph : TypeGraph) (type : TypeId) : UInt64 :=
  ((graph.sketch? type).map hash).getD 0

/-- Types of one shape have one fingerprint. -/
theorem fingerprint_eq_of_sameShape (hclosed : graph.Closed) {first second : TypeId}
    (hfirst : graph.Has first) (hsecond : graph.Has second)
    (hsame : graph.sameShape first second = true) :
    graph.fingerprint hash first = graph.fingerprint hash second := by
  have hunfolding := (sameShape_iff hclosed hfirst hsecond).mp hsame
  rw [fingerprint, fingerprint, hunfolding.sketch?_eq]

/-- A type with the shape of a node has its fingerprint. -/
theorem fingerprint_eq_of_hasShape (hclosed : graph.Closed) (hparts : graph.HasParts fields)
    (hshape : graph.hasShape className fields type = true) :
    graph.fingerprint hash type = graph.fingerprintNode hash (.object className fields) := by
  have hlooks := (hasShape_iff hclosed hparts).mp hshape
  rw [fingerprint, hlooks.sketch?_eq hclosed hparts]
  rfl

/-! ## The search for a shared type -/

/-- The shared types that had this fingerprint when they were added, oldest first. -/
def bucket (graph : TypeGraph) (code : UInt64) : List TypeId :=
  (graph.interned.reverse.filter fun entry => hash entry.1 == code).map Prod.snd

/-- The first type with the shape of a node in the bucket of the node. -/
def findInBucket? (graph : TypeGraph) (className : String) (fields : Fields) : Option TypeId :=
  (graph.bucket hash (graph.fingerprintNode hash (.object className fields))).find?
    (graph.hasShape className fields)

/-- The first shared type with the shape of a node. -/
def findAmongAll? (graph : TypeGraph) (className : String) (fields : Fields) : Option TypeId :=
  (graph.interned.reverse.map Prod.snd).find? (graph.hasShape className fields)

section Tidy

variable (htidy : graph.Tidy) (hclosed : graph.Closed) (hparts : graph.HasParts fields)

include htidy hclosed hparts

/-- The shared types that a search accepts are in its bucket. -/
theorem Tidy.findInBucket?_eq :
    graph.findInBucket? hash className fields = graph.findAmongAll? className fields := by
  unfold findInBucket? findAmongAll? bucket
  rw [List.find?_map, List.find?_map, find?_filter_eq]
  intro entry hentry haccepts
  have hsketch := htidy.sketch entry (List.mem_reverse.mp hentry)
  have hcode := fingerprint_eq_of_hasShape hash hclosed hparts haccepts
  rw [fingerprint, hsketch] at hcode
  exact beq_iff_eq.mpr hcode

/-- The one shared type that looks like the node is found among all. -/
theorem Tidy.findAmongAll?_eq_some_iff :
    graph.findAmongAll? className fields = some type ↔
      (∃ sketch, (sketch, type) ∈ graph.interned) ∧ graph.LooksLike type className fields := by
  have hmem : ∀ other, other ∈ graph.interned.reverse.map Prod.snd ↔
      ∃ sketch, (sketch, other) ∈ graph.interned := by
    intro other
    simp
  constructor
  · intro hfound
    exact ⟨(hmem type).mp (List.mem_of_find?_eq_some hfound),
      (hasShape_iff hclosed hparts).mp (List.find?_some hfound)⟩
  · rintro ⟨⟨sketch, hshared⟩, hlooks⟩
    have haccepts := (hasShape_iff hclosed hparts).mpr hlooks
    have hsome : (graph.findAmongAll? className fields).isSome = true :=
      List.find?_isSome.mpr ⟨type, (hmem type).mpr ⟨sketch, hshared⟩, haccepts⟩
    obtain ⟨other, hother⟩ := Option.isSome_iff_exists.mp hsome
    -- No two shared types look like one node.
    obtain ⟨otherSketch, hshared'⟩ := (hmem other).mp (List.mem_of_find?_eq_some hother)
    have hlooks' := (hasShape_iff hclosed hparts).mp (List.find?_some hother)
    have heq := htidy.eq_of_sameUnfolding hshared' hshared
      (hlooks'.sameUnfolding_of_eq hclosed hparts hlooks)
    obtain rfl := (Prod.mk.inj heq).2
    exact hother

/-- The search by sketches finds what is found among all shared types. -/
theorem Tidy.findInterned?_eq :
    graph.findInterned? className fields = graph.findAmongAll? className fields := by
  refine Option.ext fun type => ?_
  rw [htidy.findInterned?_eq_some_iff hclosed hparts,
    htidy.findAmongAll?_eq_some_iff hclosed hparts]

end Tidy

/-- The searches for a shared type, in a bucket and by sketches, find what is found among all. -/
structure Finds (graph : TypeGraph) : Prop where
  inBucket : ∀ className fields, graph.HasParts fields →
    graph.findInBucket? hash className fields = graph.findAmongAll? className fields
  bySketch : ∀ className fields, graph.HasParts fields →
    graph.findInterned? className fields = graph.findAmongAll? className fields

/-- Entries stay in their buckets, whatever operations have led to the graph. -/
theorem finds_of_operations (hoperations : ReflTransGen Operation {} graph) :
    graph.Finds hash := by
  obtain ⟨hwell, htidy⟩ := tidy_of_operations hoperations
  exact ⟨fun _ _ hparts => htidy.findInBucket?_eq hash hwell.closed hparts,
    fun _ _ hparts => htidy.findInterned?_eq hwell.closed hparts⟩

end TypeGraph

/-! ## The searches in a memo -/

namespace Memo

variable {α : Type} {graph : TypeGraph} {memo : Memo α} {entry : MemoEntry α}
  {arguments : List TypeId}

/-- The number of a key is put together from the fingerprints. -/
def codeOf (key : List (Option Sketch)) : UInt64 :=
  key.foldl (fun code sketch? =>
    .ofBitVec (code.toBitVec.rotateLeft 7) ^^^ (sketch?.map hash).getD 0) key.length.toUInt64

/-- The entries whose key had this number when their analyses began, oldest first. -/
def bucket (memo : Memo α) (code : UInt64) : List (MemoEntry α) :=
  memo.entries.filter fun entry => codeOf hash entry.key == code

/-- The first entry for these argument types among some entries. -/
def firstFor? (graph : TypeGraph) (arguments : List TypeId) (entries : List (MemoEntry α)) :
    Option (MemoEntry α) :=
  entries.find? fun entry => graph.sameShapes entry.arguments arguments

/-- The first running entry for these argument types among some entries. -/
def firstRunningFor? (graph : TypeGraph) (arguments : List TypeId)
    (entries : List (MemoEntry α)) : Option (MemoEntry α) :=
  entries.find? fun entry =>
    entry.progress.isRunning && graph.sameShapes entry.arguments arguments

/-- Argument types of the same shapes have one number. -/
theorem codeOf_eq_of_sameShapes (hclosed : graph.Closed) {types others : List TypeId}
    (hhas : ∀ type ∈ types, graph.Has type) (hhas' : ∀ type ∈ others, graph.Has type)
    (hsame : graph.sameShapes types others = true) :
    codeOf hash (keyOf graph types) = codeOf hash (keyOf graph others) := by
  rw [((TypeGraph.sameShapes_iff hclosed hhas hhas').mp hsame).keyOf_eq]

section Sound

variable (hclosed : graph.Closed) (hentries : ∀ entry ∈ memo.entries, entry.Sound graph)
  (hhas : ∀ type ∈ arguments, graph.Has type)

include hclosed hentries hhas

/-- The entries for some argument types are under the number that the argument types have now. -/
theorem codeOf_eq_of_mem (hmem : entry ∈ memo.entries)
    (hsame : graph.sameShapes entry.arguments arguments = true) :
    codeOf hash entry.key = codeOf hash (keyOf graph arguments) := by
  have hsound := hentries entry hmem
  rw [hsound.key]
  exact codeOf_eq_of_sameShapes hash hclosed hsound.has hhas hsame

theorem firstFor?_bucket :
    firstFor? graph arguments (memo.bucket hash (codeOf hash (keyOf graph arguments))) =
      firstFor? graph arguments memo.entries :=
  find?_filter_eq fun _ hmem hsame =>
    beq_iff_eq.mpr (codeOf_eq_of_mem hash hclosed hentries hhas hmem hsame)

theorem firstRunningFor?_bucket :
    firstRunningFor? graph arguments (memo.bucket hash (codeOf hash (keyOf graph arguments))) =
      firstRunningFor? graph arguments memo.entries := by
  refine find?_filter_eq fun entry hmem haccepts => ?_
  rw [Bool.and_eq_true] at haccepts
  exact beq_iff_eq.mpr (codeOf_eq_of_mem hash hclosed hentries hhas hmem haccepts.2)

/-- The comparison of keys refuses no entry that the comparison of shapes accepts. -/
theorem isFor_eq_sameShapes (hmem : entry ∈ memo.entries) :
    isFor graph (keyOf graph arguments) arguments entry =
      graph.sameShapes entry.arguments arguments := by
  rw [Bool.eq_iff_iff, isFor_iff hclosed (hentries entry hmem) hhas,
    TypeGraph.sameShapes_iff hclosed (hentries entry hmem).has hhas]

theorem find?_eq_firstFor? :
    memo.find? graph arguments = (firstFor? graph arguments memo.entries).map MemoEntry.progress :=
  congrArg (Option.map MemoEntry.progress) (List.find?_congr fun _ hmem =>
    isFor_eq_sameShapes hclosed hentries hhas hmem)

theorem find?_isRunningFor_eq :
    memo.entries.find? (isRunningFor graph (keyOf graph arguments) arguments) =
      firstRunningFor? graph arguments memo.entries := by
  refine List.find?_congr fun entry hmem => ?_
  rw [isRunningFor, isFor_eq_sameShapes hclosed hentries hhas hmem]

end Sound

/-- The searches for an entry and for a running entry, in a bucket and by keys, find what is found
among all entries. -/
structure Finds (graph : TypeGraph) (memo : Memo α) : Prop where
  inBucket : ∀ arguments, (∀ type ∈ arguments, graph.Has type) →
    firstFor? graph arguments (memo.bucket hash (codeOf hash (keyOf graph arguments))) =
      firstFor? graph arguments memo.entries
  runningInBucket : ∀ arguments, (∀ type ∈ arguments, graph.Has type) →
    firstRunningFor? graph arguments (memo.bucket hash (codeOf hash (keyOf graph arguments))) =
      firstRunningFor? graph arguments memo.entries
  byKey : ∀ arguments, (∀ type ∈ arguments, graph.Has type) →
    memo.find? graph arguments = (firstFor? graph arguments memo.entries).map MemoEntry.progress
  runningByKey : ∀ arguments, (∀ type ∈ arguments, graph.Has type) →
    memo.entries.find? (isRunningFor graph (keyOf graph arguments) arguments) =
      firstRunningFor? graph arguments memo.entries

theorem finds_of_entries (hclosed : graph.Closed)
    (hentries : ∀ entry ∈ memo.entries, entry.Sound graph) : memo.Finds hash graph where
  inBucket _ hhas := firstFor?_bucket hash hclosed hentries hhas
  runningInBucket _ hhas := firstRunningFor?_bucket hash hclosed hentries hhas
  byKey _ hhas := find?_eq_firstFor? hclosed hentries hhas
  runningByKey _ hhas := find?_isRunningFor_eq hclosed hentries hhas

end Memo

/-! ## Buckets lose nothing -/

/-- Whatever the hash, types of one shape have one fingerprint, argument types of the same shapes
have one number, and a type with the shape of a node has the fingerprint of the node.  So a search
in a bucket, for a shared type or for an entry of a memo, finds what a search through all of them
finds: in every graph to which operations on types lead, those of all uses of an engine among them,
at each moment of a session, and after any requests to a memo. -/
theorem buckets_lose_nothing :
    (∀ graph : TypeGraph, graph.Closed →
      (∀ first second, graph.Has first → graph.Has second →
        graph.sameShape first second = true →
          graph.fingerprint hash first = graph.fingerprint hash second) ∧
      (∀ types others, (∀ type ∈ types, graph.Has type) → (∀ type ∈ others, graph.Has type) →
        graph.sameShapes types others = true →
          Memo.codeOf hash (Memo.keyOf graph types) = Memo.codeOf hash (Memo.keyOf graph others)) ∧
      ∀ className fields type, graph.HasParts fields →
        graph.hasShape className fields type = true →
          graph.fingerprint hash type = graph.fingerprintNode hash (.object className fields)) ∧
    (∀ graph, ReflTransGen TypeGraph.Operation {} graph → graph.Finds hash) ∧
    (∀ program limit engine history, Engine.Session program limit engine history →
      ReflTransGen TypeGraph.Operation {} engine.graph ∧
        ∀ moment ∈ history, ∀ (target : DefId) memo,
          moment.knowledge.memos[target.index]? = some memo →
            memo.Finds hash moment.knowledge.graph) ∧
    ∀ (α : Type) (graph : TypeGraph) (later : MemoUse α), graph.WellFormed →
      ReflTransGen MemoUse.Step { graph } later → later.memo.Finds hash later.graph := by
  refine ⟨fun graph hclosed => ⟨?_, ?_, ?_⟩, fun graph => TypeGraph.finds_of_operations hash,
    fun program limit engine history hsession => ⟨?_, ?_⟩, fun α graph later hwell hsteps => ?_⟩
  · intro first second hfirst hsecond hsame
    exact TypeGraph.fingerprint_eq_of_sameShape hash hclosed hfirst hsecond hsame
  · intro types others hhas hhas' hsame
    exact Memo.codeOf_eq_of_sameShapes hash hclosed hhas hhas' hsame
  · intro className fields type hparts hshape
    exact TypeGraph.fingerprint_eq_of_hasShape hash hclosed hparts hshape
  · have hreachable := Engine.reachable_iff_session.mpr ⟨history, hsession⟩
    obtain ⟨-, -, htidies⟩ := Engine.tidies_of_steps (Engine.sound_initial _) hreachable
    exact htidies.operations
  · intro moment hmoment target memo hmemo
    have hsound := (hsession.follows.moments moment hmoment).knowledge
    exact Memo.finds_of_entries hash hsound.graph.closed (hsound.memos target memo hmemo).entries
  · have hsound := MemoUse.sound_of_steps (MemoUse.sound_new hwell) hsteps
    exact Memo.finds_of_entries hash hsound.graph.closed hsound.entries

/-- If the hash only counts the parts, the two objects of one shape have one fingerprint all the
same, and the box that holds the first of them is found in the bucket of a box that is to hold the
second one. -/
theorem fullBox_buckets_lose_nothing :
    fullBox.graph.sameShape ⟨1⟩ ⟨2⟩ = true ∧
      fullBox.graph.fingerprint (fun sketch => sketch.parts.length.toUInt64) ⟨1⟩ =
        fullBox.graph.fingerprint (fun sketch => sketch.parts.length.toUInt64) ⟨2⟩ ∧
      fullBox.graph.findInBucket? (fun sketch => sketch.parts.length.toUInt64) "Box"
        ((∅ : Fields).insert (.field "@held") ⟨2⟩) = some ⟨4⟩ := by
  obtain ⟨hgraphs, hfinds, hsessions, -⟩ :=
    buckets_lose_nothing fun sketch => sketch.parts.length.toUInt64
  have hreachable : Engine.Reachable knotProgram 4 fullBox :=
    knotStart_reachable.trans fullBox_of_knotStart
  obtain ⟨history, hsession⟩ := Engine.reachable_iff_session.mp hreachable
  have hoperations := (hsessions _ _ _ _ hsession).1
  have hclosed := (TypeGraph.tidy_of_operations hoperations).1.closed
  have hsame : fullBox.graph.sameShape ⟨1⟩ ⟨2⟩ = true := by decide +kernel
  have hhas : fullBox.graph.Has ⟨2⟩ := by decide +kernel
  have hparts := (TypeGraph.hasParts_empty fullBox.graph).insert hhas (.field "@held")
  have hfound : fullBox.graph.findAmongAll? "Box" ((∅ : Fields).insert (.field "@held") ⟨2⟩) =
      some ⟨4⟩ := by decide +kernel
  exact ⟨hsame, (hgraphs _ hclosed).1 ⟨1⟩ ⟨2⟩ (by decide +kernel) hhas hsame,
    ((hfinds _ hoperations).inBucket "Box" _ hparts).trans hfound⟩

end ShapeFlow
