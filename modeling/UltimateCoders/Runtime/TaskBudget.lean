import UltimateCoders.Runtime.Outbox

/-! # The budget of a task

A ledger keeps, for every task, what its executions have consumed. Before an execution a worker asks
whether there is budget left, and after it the worker records what was used. Both read and rewrite
the record of the task in one transaction, and both answer with a verdict.
-/

namespace UltimateCoders.Runtime

/-- Caps for one task; without a cap there is no limit. -/
structure BudgetLimits where
  tokens : Option Int := none
  costUsd : Option ℚ := none
  seconds : Option Seconds := none
  deriving DecidableEq

def BudgetLimits.unlimited (limits : BudgetLimits) : Bool :=
  limits.tokens.isNone && limits.costUsd.isNone && limits.seconds.isNone

structure BudgetVerdict where
  admitted : Bool
  reason : String
  limits : BudgetLimits
  tokensUsed : Nat
  costUsedUsd : ℚ
  elapsedSeconds : Seconds
  unreported : Nat
  executions : Nat
  deriving DecidableEq

structure BudgetRecord where
  taskId : String
  startedAt : Seconds
  tokensUsed : Nat := 0
  costMicroUsd : Nat := 0
  executions : Nat := 0
  unreported : Nat := 0
  lastSubtaskId : Option String := none
  updatedAt : Option Seconds := none
  deriving DecidableEq

/-- What an executor reports; the cost is in millionths of a dollar. -/
structure SubtaskUsage where
  inputTokens : Option Int := none
  outputTokens : Option Int := none
  totalCostMicroUsd : Option Int := none
  deriving DecidableEq

namespace BudgetRecord

/-- The record that the first call on a task leaves. -/
def fresh (taskId : String) (now : Seconds) : BudgetRecord where
  taskId := taskId
  startedAt := now

/-- What was spent, in dollars. -/
def spent (record : BudgetRecord) : ℚ := record.costMicroUsd / 1000000

/-- `_verdict`; a start at zero counts as none. -/
def verdict (record : BudgetRecord) (limits : BudgetLimits) (now : Seconds) (admitted : Bool)
    (reason : String) : BudgetVerdict where
  admitted := admitted
  reason := reason
  limits := limits
  tokensUsed := record.tokensUsed
  costUsedUsd := record.spent
  elapsedSeconds := if record.startedAt ≠ 0 then max 0 (now - record.startedAt) else 0
  unreported := record.unreported
  executions := record.executions

/-- `_exhaustion_reason`: the first cap that is met. -/
def exhaustionReason (record : BudgetRecord) (limits : BudgetLimits) (now : Seconds) :
    Option String :=
  if ∃ cap ∈ limits.tokens, cap ≤ record.tokensUsed then some "tokens"
  else if ∃ cap ∈ limits.costUsd, cap ≤ record.spent then some "cost"
  else if ∃ cap ∈ limits.seconds, record.startedAt ≠ 0 ∧ cap ≤ now - record.startedAt then
    some "time"
  else none

end BudgetRecord

/-- The positive number in a field of a usage block. -/
def positivePart (number : Option Int) : Nat :=
  match number with
  | some number => number.toNat
  | none => 0

/-- `_measure`: tokens, millionths of a dollar, and whether there is any number. -/
def measure (usage : Option SubtaskUsage) : Nat × Nat × Bool :=
  match usage with
  | none => (0, 0, false)
  | some usage =>
    let tokens := positivePart usage.inputTokens + positivePart usage.outputTokens
    let micro := positivePart usage.totalCostMicroUsd
    (tokens, micro, tokens ≠ 0 || micro ≠ 0)

namespace TaskBudgetLedger

/-- The record of a task after an admission was asked for. -/
def admitted (taskId : String) (now : Seconds) (old : Option BudgetRecord) : BudgetRecord :=
  old.getD (.fresh taskId now)

def admitTask (taskId : String) (limits : BudgetLimits) (now : Seconds) (old : Option BudgetRecord) :
    BudgetVerdict :=
  let record := admitted taskId now old
  if limits.unlimited then record.verdict limits now true "unlimited"
  else
    match record.exhaustionReason limits now with
    | some reason => record.verdict limits now false reason
    | none => record.verdict limits now true "within_budget"

/-- The record of a task after a completion was recorded. -/
def recorded (taskId : String) (usage : Option SubtaskUsage) (subtaskId : String) (now : Seconds)
    (old : Option BudgetRecord) : BudgetRecord :=
  let base := old.getD (.fresh taskId now)
  let (tokens, micro, reported) := measure usage
  { base with
    executions := base.executions + 1
    lastSubtaskId := some subtaskId
    updatedAt := some now
    tokensUsed := base.tokensUsed + tokens
    costMicroUsd := base.costMicroUsd + micro
    unreported := if reported then base.unreported else base.unreported + 1 }

def record (taskId : String) (usage : Option SubtaskUsage) (subtaskId : String)
    (limits : BudgetLimits) (now : Seconds) (old : Option BudgetRecord) : BudgetVerdict :=
  let record := recorded taskId usage subtaskId now old
  let reason := if limits.unlimited then some "unlimited" else record.exhaustionReason limits now
  -- without limits there is a reason, and with it the verdict of a budget that is used up
  record.verdict limits now reason.isNone (reason.getD "within_budget")

end TaskBudgetLedger

/-- What a worker asks of the ledger. -/
inductive BudgetRequest where
  | admitTask
  | record (usage : Option SubtaskUsage) (subtaskId : String)
  deriving DecidableEq

/-- A call of a worker: the clock that it has read, and the caps that it was started with. -/
structure BudgetCall where
  taskId : String
  limits : BudgetLimits
  now : Seconds
  request : BudgetRequest
  deriving DecidableEq

abbrev BudgetRecords := String → Option BudgetRecord

namespace BudgetCall

def leaves (call : BudgetCall) (old : Option BudgetRecord) : BudgetRecord :=
  match call.request with
  | .admitTask => TaskBudgetLedger.admitted call.taskId call.now old
  | .record usage subtaskId => TaskBudgetLedger.recorded call.taskId usage subtaskId call.now old

def answer (call : BudgetCall) (old : Option BudgetRecord) : BudgetVerdict :=
  match call.request with
  | .admitTask => TaskBudgetLedger.admitTask call.taskId call.limits call.now old
  | .record usage subtaskId =>
    TaskBudgetLedger.record call.taskId usage subtaskId call.limits call.now old

def perform (records : BudgetRecords) (call : BudgetCall) : BudgetRecords :=
  Function.update records call.taskId (some (call.leaves (records call.taskId)))

end BudgetCall

/-- The records after calls in the order of their transactions, from none. -/
def recordsAfter (calls : List BudgetCall) : BudgetRecords :=
  calls.foldl BudgetCall.perform fun _ => none

theorem recordsAfter_snoc (calls : List BudgetCall) (call : BudgetCall) :
    recordsAfter (calls ++ [call]) = call.perform (recordsAfter calls) := by
  rw [recordsAfter, List.foldl_append]
  rfl

end UltimateCoders.Runtime
