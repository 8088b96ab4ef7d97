import StackScript.Builder
import StackScript.Guard
import StackScript.Log.LineWriter
import StackScript.Main
import StackScript.Proofs.Numerals
import StackScript.Proofs.Lexical
import StackScript.Proofs.Seams
import StackScript.Proofs.Grammar
import StackScript.Proofs.RoundTrip
import StackScript.Proofs.Simulation
import StackScript.Proofs.Settings
import StackScript.Proofs.Observation
import StackScript.Proofs.StackFrame
import StackScript.Proofs.ExtraNames
import StackScript.Proofs.Depth
import StackScript.Proofs.Surroundings
import StackScript.Proofs.Termination
import StackScript.Proofs.Recording
import StackScript.Proofs.Delivery
import StackScript.Proofs.CheckedReading
import StackScript.Proofs.CheckedShapes
import StackScript.Proofs.Counts
import StackScript.Proofs.CheckedOperands
import StackScript.Proofs.CheckedRun
import StackScript.Proofs.CrashFree
import StackScript.Proofs.Entries
import StackScript.Proofs.Invariants
import StackScript.Proofs.Diagnostics
import StackScript.Proofs.CleanFailure
import StackScript.Proofs.Trace
import StackScript.Proofs.Pieces
import StackScript.Proofs.Reuse
import StackScript.Proofs.Completion
import StackScript.Proofs.FaultLine
import StackScript.Proofs.Unheeded
import StackScript.Proofs.Markers
import StackScript.Proofs.Sources
import StackScript.Proofs.Equality
import StackScript.Proofs.SourceForm
import StackScript.Proofs.Reprinting
import StackScript.Proofs.Inventory
import StackScript.Proofs.Identity
import StackScript.Proofs.Chronicle
import StackScript.Proofs.Bindings
import StackScript.Proofs.Cancellation
import StackScript.Proofs.Survival
import StackScript.Proofs.Leaving
import StackScript.Proofs.ExitCode
import StackScript.Proofs.Schedules
import StackScript.Proofs.Verdict
import StackScript.Proofs.Gathering
import StackScript.Proofs.Collecting
import StackScript.Proofs.NumericTokens
import StackScript.Proofs.Visibility
import StackScript.Proofs.DumpLines
import StackScript.Proofs.LoggedLines
import StackScript.Proofs.Logging
import StackScript.Proofs.LineFlushing
import StackScript.Proofs.Presence
import StackScript.Proofs.LongestNumeral
import StackScript.Proofs.Patterns
import StackScript.Proofs.Builders
