import CondSat.Json.Reader
import CondSat.Json.Writer
import CondSat.Source.Encode
import CondSat.Source.Decode
import CondSat.Source.Builder
import CondSat.Settings.Configuration
import CondSat.Main
import CondSat.Logging.Configure
import CondSat.Logging.Trace
import CondSat.Word
import CondSat.Analysis.Highlighting
import CondSat.Proofs.Steps
import CondSat.Proofs.FreshNames
import CondSat.Proofs.SessionInvariant
import CondSat.Proofs.BuiltTerms
import CondSat.Proofs.FormulaValue
import CondSat.Proofs.FreeNames
import CondSat.Proofs.TermValues
import CondSat.Proofs.Unsatisfiable
import CondSat.Proofs.Witness
import CondSat.Proofs.WellSorted
import CondSat.Proofs.StaticSort
import CondSat.Proofs.Documents
import CondSat.Proofs.Decoding
import CondSat.Proofs.Reloading
import CondSat.Proofs.Renumbering
import CondSat.Proofs.Workbench
import CondSat.Proofs.Repetition
import CondSat.Proofs.Renaming
import CondSat.Proofs.LargeNumbers
import CondSat.Proofs.FailingAnalyses
import CondSat.Proofs.CommandLine
import CondSat.Proofs.ProgramSteps
import CondSat.Proofs.ExitStatus
import CondSat.Proofs.DeclarationKeys
import CondSat.Proofs.DocumentNodes
import CondSat.Proofs.Faults
import CondSat.Proofs.Sharing
import CondSat.Proofs.OperatorSorts
import CondSat.Proofs.UnknownSorts
import CondSat.Proofs.ShortestText
import CondSat.Proofs.Narrowing
import CondSat.Proofs.Literals
import CondSat.Proofs.Listing
import CondSat.Proofs.FaultPlaces
import CondSat.Proofs.Members
import CondSat.Proofs.DiagnosticContext
import CondSat.Proofs.Loggers
import CondSat.Proofs.LevelFlags
import CondSat.Proofs.Widening
import CondSat.Proofs.Words
import CondSat.Proofs.Traversal
