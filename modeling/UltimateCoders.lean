import UltimateCoders.Graph.Isolation
import UltimateCoders.Graph.MergeBarrier
import UltimateCoders.Graph.Progress
import UltimateCoders.Graph.Retries
import UltimateCoders.Governance.Subsumption
import UltimateCoders.Governance.DelegationChain
import UltimateCoders.Governance.CaseLifecycle
import UltimateCoders.Governance.Intersection
import UltimateCoders.Governance.PostgresRecords
import UltimateCoders.Governance.LostUpdate
import UltimateCoders.Governance.Claiming
import UltimateCoders.Governance.Governing
import UltimateCoders.Governance.AskAgain
import UltimateCoders.Gateway.AssignedTimes
import UltimateCoders.Gateway.Watch
import UltimateCoders.Gateway.ManualRetry
import UltimateCoders.Gateway.PauseGrace
import UltimateCoders.Gateway.Agreement
import UltimateCoders.Gateway.Confirmation
import UltimateCoders.Gateway.Command
import UltimateCoders.Checkpoint.Independence
import UltimateCoders.Scheduler.StoreAgreement
import UltimateCoders.Scheduler.PausedJob
import UltimateCoders.Governance.TerminalState
import UltimateCoders.Memory.LastWriter
import UltimateCoders.Memory.Promotion
import UltimateCoders.Governance.SubmissionIdentity
import UltimateCoders.Governance.RoutedOnce
import UltimateCoders.Governance.OneOpenItem
import UltimateCoders.Governance.OpenProposals
import UltimateCoders.Memory.BackendsAgree
import UltimateCoders.Engine.ConcurrencyLimit
import UltimateCoders.Engine.Refill
import UltimateCoders.Engine.PoolCapacity
import UltimateCoders.Runtime.OutcomeKept
import UltimateCoders.Arbiter.ExecutedOnce
import UltimateCoders.Arbiter.AllOrNothing
import UltimateCoders.Runtime.BudgetKept
import UltimateCoders.Runtime.QueriesAgree
import UltimateCoders.Arbiter.FaithfulResolution
import UltimateCoders.Conflict.AgreeingEdits
import UltimateCoders.Checkpoint.DerivedStatus
import UltimateCoders.Scheduler.OneFiring
import UltimateCoders.Conflict.IntentsSeen
import UltimateCoders.Orchestrator.PlanValidation
import UltimateCoders.Orchestrator.OneExecutor
import UltimateCoders.Conflict.ConflictText
import UltimateCoders.Scheduler.NightWindow
import UltimateCoders.Governance.StrandedRun
import UltimateCoders.Gateway.FailureReports
import UltimateCoders.Graph.CancelClosure
import UltimateCoders.Gateway.BestPlacement
import UltimateCoders.Gateway.ContextBlock
import UltimateCoders.Gateway.CandidateList
import UltimateCoders.Governance.GrantOrder
import UltimateCoders.Governance.OldestPermit
import UltimateCoders.Engine.HybridSearch
import UltimateCoders.Workflow.ConditionText
import UltimateCoders.Gateway.ExecutionIdentity
import UltimateCoders.Scheduler.NatsLock
import UltimateCoders.Orchestrator.Redecomposition
