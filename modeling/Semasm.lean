import Semasm.Library.Spans
import Semasm.Library.Saturation
import Semasm.Text
import Semasm.Contract.Validate
import Semasm.Contract.Eval
import Semasm.Contract.Atoms
import Semasm.Contract.AccessBounds
import Semasm.Contract.EvalSoundness
import Semasm.Agent.StatusHonesty
import Semasm.Cfg.Build
import Semasm.Cfg.Resolution
import Semasm.Cfg.Transfers
import Semasm.Cli.AccessRecords
import Semasm.Cli.CandidateCode
import Semasm.Cli.CfgLeaf
import Semasm.Cli.CountdownBound
import Semasm.Cli.DecodeCoverage
import Semasm.Cli.IndexFacts
import Semasm.Cli.LeafControl
import Semasm.Cli.PostTestBound
import Semasm.Cli.PreTestBound
import Semasm.Cli.RegionRespect
import Semasm.Cfg.ExactGraph
import Semasm.Cfg.OrderIndependence
import Semasm.Library.Worklist
import Semasm.X86.Abi.CalleeSaved
import Semasm.X86.Analysis.Blocks
import Semasm.X86.Analysis.ConstantsTrue
import Semasm.Agent.Harness.CaseIds
import Semasm.AArch64.Lower
import Semasm.AArch64.Machine
import Semasm.AArch64.OperandText
import Semasm.AArch64.StackWalk
import Semasm.Riscv.Frames
import Semasm.Cli.EffectTruthAArch64
import Semasm.Cli.EffectTruthRiscv
import Semasm.Cli.ReadOnlyLeaf
import Semasm.Cli.ReadOnlyRuns
import Semasm.Contract.AliasHonesty
import Semasm.Contract.Placement
import Semasm.Contract.SliceAgreement
import Semasm.Agent.Harness.Synthesis
import Semasm.Agent.Harness.Admissible
import Semasm.Agent.Harness.ScanVectors
import Semasm.Agent.Harness.VectorTruth
import Semasm.Agent.Harness.CallingOrder
import Semasm.Cfg.Ends
import Semasm.Contract.Document
import Semasm.Contract.DocumentTruth
import Semasm.Contract.ExprForms
import Semasm.Contract.ExprRoundTrip
import Semasm.Contract.ExprPlaces
import Semasm.Contract.ExprSound
import Semasm.Contract.ExprExact
import Semasm.Contract.ExprReadings
import Semasm.Contract.ExprExtents
import Semasm.Contract.ExprSpans
import Semasm.Contract.ObservedPairs
import Semasm.Contract.TypeGrammar
import Semasm.Contract.TypeSpelling
import Semasm.Build.Evidence
import Semasm.Agent.Harness.Evaluation
import Semasm.Agent.Harness.ExternalTruth
import Semasm.Agent.Harness.OracleEvidence
import Semasm.Obj.Relocations
import Semasm.Library.Since
import Semasm.X86.Abi.BelowStack
import Semasm.X86.Abi.CallerSaved
import Semasm.X86.Analysis.Provenance
import Semasm.X86.Analysis.Semilattice
import Semasm.X86.Analysis.BlockEffect
import Semasm.Agent.Harness.RangeSum
import Semasm.Cfg.Executions
import Semasm.Text.Words
import Semasm.X86.OperandLowering
import Semasm.Agent.Harness.EndToEnd
import Semasm.Cli.Commands
import Semasm.Cli.VerifiedRuns
