import ShapeFlow.Frame.Express
import ShapeFlow.Memo

/-!
# What is known across analyses

The types, the memo of each definition and the finished summaries belong to all
analyses of a program together.  They grow while a program is analyzed, and what an
analysis added before it failed stays known.

A `Knowing` step works on this knowledge.  A `Body` step has a frame besides: it is a
step of the analysis of one body.
-/

namespace ShapeFlow

/-- What the analyses of a program have found out so far. -/
structure Knowledge where
  graph : TypeGraph := {}
  /-- The memo of each definition, by number. -/
  memos : Array (Memo SummaryId)
  /-- The finished summaries, by number. -/
  summaries : Array Summary := #[]
deriving Inhabited

/-- A step that works on what is known across analyses. -/
abbrev Knowing := EStateM Failure Knowledge

/-- A step of the analysis of one body. -/
abbrev Body := StateT Frame Knowing

/-- A step that may add types is a step of a larger analysis. -/
def Building.within {α : Type} (step : Building α) : Knowing α := fun knowledge =>
  match step knowledge.graph with
  | .ok value graph => .ok value { knowledge with graph }
  | .error failure graph => .error failure { knowledge with graph }

instance : MonadLift Framed Body := ⟨fun step frame => Building.within (step frame)⟩

namespace Knowledge

/-- Nothing is known yet about the given declarations. -/
def initial (declarations : Declarations) : Knowledge where
  memos := declarations.definitions.map fun _ => {}

/-- The memo of a definition. -/
def memo (knowledge : Knowledge) (id : DefId) : Checked (Memo SummaryId) :=
  found (.definition id) knowledge.memos[id.index]?

/-- The summary with a number. -/
def summary (knowledge : Knowledge) (id : SummaryId) : Checked Summary :=
  found (.summary id) knowledge.summaries[id.index]?

/-- Replace the memo of a definition. -/
def setMemo (id : DefId) (memo : Memo SummaryId) (knowledge : Knowledge) : Knowledge :=
  { knowledge with memos := knowledge.memos.setIfInBounds id.index memo }

/-- Add a summary. -/
def addSummary (summary : Summary) (knowledge : Knowledge) : SummaryId × Knowledge :=
  (⟨knowledge.summaries.size⟩, { knowledge with summaries := knowledge.summaries.push summary })

/-- The written form of a signature. -/
def renderSignature (knowledge : Knowledge) (signature : Signature) : String :=
  signature.render knowledge.graph

end Knowledge

end ShapeFlow
