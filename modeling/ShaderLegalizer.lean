import ShaderLegalizer.Capability
import ShaderLegalizer.CommandLine.Arguments
import ShaderLegalizer.CommandLine.Run
import ShaderLegalizer.Decimal.Binary64
import ShaderLegalizer.Decimal.Layout
import ShaderLegalizer.Decimal.Shortest
import ShaderLegalizer.Diagnostic
import ShaderLegalizer.Json.Basic
import ShaderLegalizer.Json.Escape
import ShaderLegalizer.Json.Number
import ShaderLegalizer.Json.Parser
import ShaderLegalizer.Json.Printer
import ShaderLegalizer.Json.Token
import ShaderLegalizer.Legalize
import ShaderLegalizer.Lowering
import ShaderLegalizer.Main
import ShaderLegalizer.Module
import ShaderLegalizer.Profile
import ShaderLegalizer.Proofs.Acceptance
import ShaderLegalizer.Proofs.ByteTests
import ShaderLegalizer.Proofs.CleanModules
import ShaderLegalizer.Proofs.DiagnosticHistory
import ShaderLegalizer.Proofs.Envelope
import ShaderLegalizer.Proofs.FindingOrder
import ShaderLegalizer.Proofs.FirstOffence
import ShaderLegalizer.Proofs.FixedPoint
import ShaderLegalizer.Proofs.FlowPreservation
import ShaderLegalizer.Proofs.IdFindings
import ShaderLegalizer.Proofs.Independence
import ShaderLegalizer.Proofs.JsonLeaf
import ShaderLegalizer.Proofs.JsonOrder
import ShaderLegalizer.Proofs.JsonReading
import ShaderLegalizer.Proofs.JsonScan
import ShaderLegalizer.Proofs.KeyClashes
import ShaderLegalizer.Proofs.KeyEdits
import ShaderLegalizer.Proofs.LoweringAccount
import ShaderLegalizer.Proofs.LoweringRuns
import ShaderLegalizer.Proofs.LoweringSteps
import ShaderLegalizer.Proofs.ModuleRoundTrip
import ShaderLegalizer.Proofs.NameCycles
import ShaderLegalizer.Proofs.Offence
import ShaderLegalizer.Proofs.ProfileNames
import ShaderLegalizer.Proofs.Recasing
import ShaderLegalizer.Proofs.RecordForms
import ShaderLegalizer.Proofs.Recursion
import ShaderLegalizer.Proofs.Rerun
import ShaderLegalizer.Proofs.SchemaRoundTrip
import ShaderLegalizer.Proofs.Spelling
import ShaderLegalizer.Proofs.Straightening
import ShaderLegalizer.Proofs.StructurePreservation
import ShaderLegalizer.Proofs.UpwardCompatibility
import ShaderLegalizer.Proofs.WalkInvariant
import ShaderLegalizer.Proofs.WalkMoves
import ShaderLegalizer.Proofs.WalkStages
import ShaderLegalizer.Proofs.WellFormed
import ShaderLegalizer.Proofs.WireShape
import ShaderLegalizer.Statistics
import ShaderLegalizer.Structure.CallGraph
import ShaderLegalizer.Structure.Check
import ShaderLegalizer.Structure.Fault
import ShaderLegalizer.Structure.Walk
import ShaderLegalizer.Text.Blank
import ShaderLegalizer.Text.Fold
import ShaderLegalizer.Text.Printable
import ShaderLegalizer.Text.Quoted
import ShaderLegalizer.Text.Utf8
import ShaderLegalizer.Wire.Keys
import ShaderLegalizer.Wire.Mismatch
import ShaderLegalizer.Wire.ModuleText
import ShaderLegalizer.Wire.Records
import ShaderLegalizer.Wire.Schema
import ShaderLegalizer.Workbench
import ShaderLegalizer.Proofs.IdScan
