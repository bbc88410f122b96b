import ShapeFlow.TypeGraph.Equality
import ShapeFlow.TypeGraph.Sketch

/-!
# The memo of a definition

A memo holds what is known of the analyses of one definition.  Its key is a list
of argument types, compared by shape, so analyses under different names for the
same types share an entry.  An analysis that has begun and not ended has an entry
too, without an answer; that is how an analysis that needs itself is found out.

Beside each entry stands the key that it was made under, the sketches of its
argument types.  Entries are compared by shape only when their keys agree.
-/

namespace ShapeFlow

/-- How far an analysis has come. -/
inductive Progress (α : Type) where
  /-- It has begun and not ended. -/
  | running
  /-- It has ended with this answer. -/
  | done (answer : α)
deriving DecidableEq

namespace Progress

/-- The answer of an analysis that has ended. -/
def answer? {α : Type} : Progress α → Option α
  | running => none
  | done answer => some answer

/-- Whether the analysis has not ended. -/
def isRunning {α : Type} : Progress α → Bool
  | running => true
  | done _ => false

end Progress

/-- One analysis of the definition. -/
structure MemoEntry (α : Type) where
  arguments : List TypeId
  /-- The sketches that the argument types had when the analysis began. -/
  key : List (Option Sketch)
  progress : Progress α

/-- How many look-ups found an answer, found nothing, or found an analysis that has
not ended. -/
structure MemoCounts where
  hits : Nat := 0
  misses : Nat := 0
  recursive : Nat := 0
deriving DecidableEq, Repr, Inhabited

/-- The analyses of one definition, oldest first, and the count of look-ups. -/
structure Memo (α : Type) where
  entries : List (MemoEntry α) := []
  counts : MemoCounts := {}

instance {α : Type} : Inhabited (Memo α) := ⟨{}⟩

namespace Memo

variable {α : Type}

/-- The key of a list of argument types. -/
def keyOf (graph : TypeGraph) (arguments : List TypeId) : List (Option Sketch) :=
  arguments.map graph.sketch?

/-- Whether an entry is one for these argument types, which have this key. -/
def isFor (graph : TypeGraph) (key : List (Option Sketch)) (arguments : List TypeId)
    (entry : MemoEntry α) : Bool :=
  entry.key == key && graph.sameShapes entry.arguments arguments

/-- How far the oldest analysis for these argument types has come, if there is one. -/
def find? (memo : Memo α) (graph : TypeGraph) (arguments : List TypeId) : Option (Progress α) :=
  (memo.entries.find? (isFor graph (keyOf graph arguments) arguments)).map MemoEntry.progress

/-- The answer for these argument types, if there is one. -/
def answer? (memo : Memo α) (graph : TypeGraph) (arguments : List TypeId) : Option α :=
  (memo.find? graph arguments).bind Progress.answer?

/-- Count one look-up by what it found. -/
def count (counts : MemoCounts) : Option (Progress α) → MemoCounts
  | some (.done _) => { counts with hits := counts.hits + 1 }
  | some .running => { counts with recursive := counts.recursive + 1 }
  | none => { counts with misses := counts.misses + 1 }

/-- Look up these argument types and count the look-up. -/
def lookup (graph : TypeGraph) (arguments : List TypeId) (memo : Memo α) :
    Option (Progress α) × Memo α :=
  let found := memo.find? graph arguments
  (found, { memo with counts := count memo.counts found })

/-- An analysis begins. -/
def start (graph : TypeGraph) (arguments : List TypeId) (memo : Memo α) : Memo α :=
  { memo with
    entries := memo.entries ++ [⟨arguments, keyOf graph arguments, .running⟩] }

/-- Whether an entry is a running analysis for these argument types, which have this key. -/
def isRunningFor (graph : TypeGraph) (key : List (Option Sketch)) (arguments : List TypeId)
    (entry : MemoEntry α) : Bool :=
  entry.progress.isRunning && isFor graph key arguments entry

/-- Give an answer to the first entry that a test accepts. -/
def answerFirst (accepts : MemoEntry α → Bool) (answer : α) :
    List (MemoEntry α) → List (MemoEntry α)
  | [] => []
  | entry :: rest =>
    if accepts entry then { entry with progress := .done answer } :: rest
    else entry :: answerFirst accepts answer rest

/-- The oldest running analysis for these argument types ends with an answer. -/
def finish (graph : TypeGraph) (arguments : List TypeId) (answer : α) (memo : Memo α) : Memo α :=
  { memo with
    entries := answerFirst (isRunningFor graph (keyOf graph arguments) arguments) answer
      memo.entries }

/-- The running analyses for these argument types end without an answer and are
forgotten. -/
def abort (graph : TypeGraph) (arguments : List TypeId) (memo : Memo α) : Memo α :=
  let key := keyOf graph arguments
  { memo with entries := memo.entries.filter fun entry => !isRunningFor graph key arguments entry }

/-- The answers, in the order in which their analyses began. -/
def answers (memo : Memo α) : List α :=
  memo.entries.filterMap fun entry => entry.progress.answer?

/-- The number of answers. -/
def size (memo : Memo α) : Nat := memo.answers.length

/-- A look-up changes no entry. -/
@[simp] theorem entries_lookup (graph : TypeGraph) (arguments : List TypeId) (memo : Memo α) :
    (lookup graph arguments memo).2.entries = memo.entries := rfl

/-- Giving an answer adds no entry and drops none. -/
@[simp] theorem length_answerFirst (accepts : MemoEntry α → Bool) (answer : α)
    (entries : List (MemoEntry α)) :
    (answerFirst accepts answer entries).length = entries.length := by
  induction entries with
  | nil => rfl
  | cons entry rest ih =>
    rw [answerFirst]
    split <;> simp [ih]

end Memo

end ShapeFlow
