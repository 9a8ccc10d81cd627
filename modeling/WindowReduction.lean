import WindowReduction.Main
import WindowReduction.Plan
import WindowReduction.Proofs.Accumulation
import WindowReduction.Proofs.FloatOrder
import WindowReduction.Proofs.CellValue
import WindowReduction.Proofs.Summary
import WindowReduction.Proofs.WindowFold
import WindowReduction.Proofs.WindowComposition
import WindowReduction.Proofs.PlanChain
import WindowReduction.Proofs.CacheSoundness
import WindowReduction.Proofs.PlanRun
import WindowReduction.Proofs.PlanResult
import WindowReduction.Proofs.CommandRun
import WindowReduction.Proofs.RowIndependence
import WindowReduction.Proofs.IntTrace
import WindowReduction.Proofs.IntRange
import WindowReduction.Proofs.TwoRuns
import WindowReduction.Proofs.BoundReads
import WindowReduction.Proofs.ScopedRun
import WindowReduction.Proofs.FetchTrace
import WindowReduction.Proofs.WindowTiling
import WindowReduction.Proofs.BlockScope
import WindowReduction.Proofs.DataIndependence
import WindowReduction.Proofs.BoundsCheck
import WindowReduction.Proofs.GuardElision
import WindowReduction.Proofs.CacheHistory
import WindowReduction.Proofs.DecimalReading
import WindowReduction.Proofs.FloatLiteral
import WindowReduction.Proofs.ExprReading
import WindowReduction.Proofs.SourceReading
import WindowReduction.Proofs.EmittedExprs
import WindowReduction.Proofs.SourceEquality
import WindowReduction.Proofs.SourceNumbers
import WindowReduction.Proofs.SourceOccurrences
import WindowReduction.Proofs.KernelLiterals
import WindowReduction.Proofs.WindowLength
import WindowReduction.Proofs.PlanLength
import WindowReduction.Proofs.PlanRefusal
import WindowReduction.Proofs.ForgottenElements
import WindowReduction.Proofs.FloatRounding
import WindowReduction.Proofs.FloatValue
import WindowReduction.Proofs.ExactSum
