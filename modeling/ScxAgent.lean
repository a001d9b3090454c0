import ScxAgent.Identifiers
import ScxAgent.MutationDomain
import ScxAgent.StepLogic
import ScxAgent.TransactionKernel
import ScxAgent.KernelCalls
import ScxAgent.LogInspection
import ScxAgent.RevisionTable
import ScxAgent.KernelSteps
import ScxAgent.KernelRules
import ScxAgent.ChangeEffects
import ScxAgent.RestoreRules
import ScxAgent.ApplyRules
import ScxAgent.RestoreLoop
import ScxAgent.CandidateRules
import ScxAgent.CandidateCalls
import ScxAgent.ExperimentRules
import ScxAgent.Chronicle
import ScxAgent.SoundMachines
import ScxAgent.KernelRuns
import ScxAgent.RunInvariants
import ScxAgent.TestFixture
import ScxAgent.EffectDiscipline
import ScxAgent.RecoveredKernels
import ScxAgent.MachineWords
import ScxAgent.Scheduler.Arbitration
import ScxAgent.Scheduler.ClassLag
import ScxAgent.Scheduler.QueueRecords
import ScxAgent.Scheduler.Callbacks
import ScxAgent.Scheduler.Books
import ScxAgent.Scheduler.BookKeeping
import ScxAgent.Scheduler.QueueAccounting
import ScxAgent.Evaluation.Contract
import ScxAgent.TraceLogic
import ScxAgent.Evaluation.Measurement
import ScxAgent.Evaluation.Verdict
import ScxAgent.Evaluation.Protocol
import ScxAgent.Evaluation.Sessions
import ScxAgent.Evaluation.Bracket
import ScxAgent.Evaluation.FailClosed
import ScxAgent.Episode.SkillSession
import ScxAgent.OutcomeLogic
import ScxAgent.Activation.Batching
import ScxAgent.Scheduler.RuleGenerations
import ScxAgent.Scheduler.WorkConservation
import ScxAgent.FileReplace
import ScxAgent.JsonFields
import ScxAgent.Rules.Store
import ScxAgent.Rules.StoreRuns
import ScxAgent.Control.Handler
import ScxAgent.Control.Consistency
import ScxAgent.Control.FailedRequests
import ScxAgent.Bench.HostPool
import ScxAgent.Bench.PairRuns
import ScxAgent.Bench.PairProgress
import ScxAgent.Bench.Isolation
import ScxAgent.Bench.IsolationRuns
import ScxAgent.JsonTree
import ScxAgent.Wal.Records
import ScxAgent.Wal.ReadBack
import ScxAgent.Wal.FileWal
import ScxAgent.JsonTreeText
import ScxAgent.Wal.LoggedStates
import ScxAgent.FairRuns
import ScxAgent.Mcp.Client
import ScxAgent.Mcp.ClientRuns
import ScxAgent.Mcp.Correlation
import ScxAgent.Evaluation.Waits
import ScxAgent.Evaluation.Aggregation
import ScxAgent.Scheduler.EpochRecords
import ScxAgent.Scheduler.Horizon
import ScxAgent.Scheduler.Options
import ScxAgent.Scheduler.TaskLag
import ScxAgent.Scheduler.BatchEpochs
import ScxAgent.Scheduler.EpochRuns
import ScxAgent.ClaimWords
import ScxAgent.Scheduler.StealClaims
import ScxAgent.DiscoveryAgreement
import ScxAgent.Evaluation.Repetition
import ScxAgent.Episode.SkillDisclosure
import ScxAgent.Evaluation.FrozenIntents
import ScxAgent.Mcp.Frames
import ScxAgent.AuditLog
import ScxAgent.Activation.Intake
import ScxAgent.Episode.SkillCatalog
import ScxAgent.Bench.CpuTexts
import ScxAgent.Bench.Pinning
import ScxAgent.Evaluation.MeasurementIds
import ScxAgent.Bench.Interrupts
import ScxAgent.CallOutcomes
