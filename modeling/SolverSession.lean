import SolverSession.Background
import SolverSession.Engine.Reference
import SolverSession.Engine.Scripted
import SolverSession.Environment
import SolverSession.EnvironmentFile
import SolverSession.Quadratic
import SolverSession.Wire
import SolverSession.Proofs.Atomicity
import SolverSession.Proofs.SparseVec
import SolverSession.Proofs.StackedMatrix
import SolverSession.Proofs.CachedSolution
import SolverSession.Proofs.OptionTable
import SolverSession.Proofs.SettingOptions
import SolverSession.Proofs.Flattening
import SolverSession.Proofs.Linearization
import SolverSession.Proofs.ExactValue
import SolverSession.Proofs.QuadraticTerms
import SolverSession.Json.Standard
import SolverSession.Proofs.Digits
import SolverSession.Proofs.JsonLexing
import SolverSession.Proofs.JsonReading
import SolverSession.Proofs.JsonLaws
import SolverSession.Proofs.JsonStandard
import SolverSession.Proofs.JsonRecords
import SolverSession.Proofs.JsonModels
import SolverSession.Proofs.Abandonment
import SolverSession.Proofs.PartialChanges
import SolverSession.Proofs.PointStatus
import SolverSession.Proofs.ErasedHistory
import SolverSession.Proofs.VisibleStart
import SolverSession.Proofs.SplitModels
import SolverSession.Proofs.JsonReports
import SolverSession.Proofs.JsonSpellings
import SolverSession.Proofs.MalformedModels
import SolverSession.Proofs.SolveOutcome
import SolverSession.Proofs.MergedTriangle
import SolverSession.Proofs.SplitTerms
import SolverSession.Proofs.ColumnNames
import SolverSession.Proofs.StackedLines
import SolverSession.Proofs.MergedStarts
import SolverSession.Proofs.AddedParts
import SolverSession.Proofs.Compression
import SolverSession.Proofs.ConfiguredOptions
import SolverSession.Proofs.EnvironmentFields
import SolverSession.Proofs.RowFaults
import SolverSession.Proofs.Extent
import SolverSession.Proofs.ReferenceLibrary
