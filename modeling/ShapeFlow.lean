import ShapeFlow.Engine
import ShapeFlow.Proofs.AccessorCalls
import ShapeFlow.Proofs.ActiveAnalyses
import ShapeFlow.Proofs.AnalyzedOnce
import ShapeFlow.Proofs.Attribution
import ShapeFlow.Proofs.BlurredRuns
import ShapeFlow.Proofs.Buckets
import ShapeFlow.Proofs.CallAccounts
import ShapeFlow.Proofs.CallGraph
import ShapeFlow.Proofs.DeclaredShapes
import ShapeFlow.Proofs.DepthLimits
import ShapeFlow.Proofs.Dispatch
import ShapeFlow.Proofs.FaithfulLog
import ShapeFlow.Proofs.IdentifiedOperands
import ShapeFlow.Proofs.InterningLaws
import ShapeFlow.Proofs.LastingHomes
import ShapeFlow.Proofs.MemoTable
import ShapeFlow.Proofs.MemoTransparency
import ShapeFlow.Proofs.ObjectCircles
import ShapeFlow.Proofs.PublishedTypes
import ShapeFlow.Proofs.RebuiltTypes
import ShapeFlow.Proofs.ReifiedObjects
import ShapeFlow.Proofs.ReleasedParts
import ShapeFlow.Proofs.ReorderedLocals
import ShapeFlow.Proofs.Resolution
import ShapeFlow.Proofs.ResultWrites
import ShapeFlow.Proofs.SettledObjects
import ShapeFlow.Proofs.SubstitutedPlaces
import ShapeFlow.Proofs.Termination
import ShapeFlow.Proofs.UnbrokenSessions
import ShapeFlow.Proofs.VacatedFrames
