import LinearProgram.Duality.Analysis
import LinearProgram.Model.Lowering
import LinearProgram.Options
import LinearProgram.Problem.Feasible
import LinearProgram.Report.Journal
import LinearProgram.Report.Message
import LinearProgram.Simplex.Access
import LinearProgram.Solver.BigM
import LinearProgram.Solver.Plain
import LinearProgram.Solver.TwoPhase
import LinearProgram.Tableau.Sharp
import LinearProgram.Proofs.Duality.Analysis
import LinearProgram.Proofs.OptimumBound
import LinearProgram.Proofs.OptimumTolerance
import LinearProgram.Proofs.TwoPhase.Correctness
import LinearProgram.Proofs.ArtificialSum
import LinearProgram.Proofs.TwoPhase.Infeasibility
import LinearProgram.Proofs.TwoPhase.FirstPhaseRay
import LinearProgram.Proofs.BigM.Optimum
import LinearProgram.Proofs.BigM.ExactPenalty
import LinearProgram.Proofs.Tableau.Attempts
import LinearProgram.Proofs.Signs
import LinearProgram.Proofs.Simplex.Session
import LinearProgram.Proofs.UpperBounds
import LinearProgram.Proofs.Duality.Textbook
import LinearProgram.Proofs.FeasibleSet
import LinearProgram.Proofs.Duality.DoubleDual
import LinearProgram.Proofs.Duality.ShadowPrices
import LinearProgram.Proofs.Model.Formulation
import LinearProgram.Proofs.Construction
import LinearProgram.Proofs.Model.LinearForm
import LinearProgram.Proofs.Negation
import LinearProgram.Proofs.TwoPhase.Stages
import LinearProgram.Proofs.Simplex.Cap
import LinearProgram.Proofs.IterationCap
import LinearProgram.Proofs.Refusal
import LinearProgram.Proofs.Simplex.Replay
import LinearProgram.Proofs.TraceReplay
import LinearProgram.Proofs.Tableau.PathIndependence
import LinearProgram.Proofs.Simplex.NoCycling
import LinearProgram.Proofs.TwoPhase.RedundantRows
import LinearProgram.Proofs.Simplex.Ascent
import LinearProgram.Proofs.Tableau.Rank
import LinearProgram.Proofs.Tableau.Reloading
import LinearProgram.Proofs.TwoPhase.Reloading
import LinearProgram.Proofs.Balance
import LinearProgram.Proofs.BigM.Decomposition
import LinearProgram.Proofs.Normalization
import LinearProgram.Proofs.Tableau.PivotRule
import LinearProgram.Proofs.ColumnNames
import LinearProgram.Proofs.Model.Scatter
import LinearProgram.Proofs.Model.TermOrder
