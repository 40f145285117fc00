import UltimateCoders.Governance.Policy
import UltimateCoders.Graph.Projection

/-! # Tasks of the gateway

Tasks and their subtasks as the gateway holds them, and the updates that
coordinators and workers report. Per-step reports, which the gateway only hands
on, are not represented.
-/

namespace UltimateCoders.Gateway

open Governance (Instant)
open UltimateCoders.Graph (TaskStatus SubtaskStatus EffectClass)

/-- Where a subtask may run. -/
inductive DispatchMode where
  | remote
  | preferRemote
  deriving DecidableEq

structure WorkflowStep where
  agent : String
  prompt : String
  agentConfigJson : Option String
  abortOnFailure : Bool
  retryCount : UInt32
  retryDelayMs : UInt64
  condition : Option String
  parallelGroup : Option String
  deriving DecidableEq

/-- What a worker says it has used; the cost is given by the bits of a float. -/
structure SubtaskUsage where
  inputTokens : Option UInt64
  outputTokens : Option UInt64
  totalCostUsd : Option UInt64
  source : Option String
  deriving DecidableEq

structure SubtaskReview where
  approved : Bool
  issues : List String
  suggestions : List String
  deriving DecidableEq

/-- A worker's result; without a worker the gateway draws an id at random. -/
structure SubtaskResult where
  subtaskId : String
  workerId : Option String
  summary : String
  success : Bool
  completedAt : Instant
  result : Option String
  usage : Option SubtaskUsage
  review : Option SubtaskReview
  deriving DecidableEq

structure Subtask where
  id : String
  parentId : String
  description : String
  status : SubtaskStatus
  assignedWorker : Option String
  dependsOn : List String
  fileConstraints : List String
  expectedOutput : String
  result : Option SubtaskResult
  dispatchMode : DispatchMode
  effectClass : EffectClass
  dispatchRetryCount : UInt32
  requiredCapabilities : List String
  agentConfigJson : Option String
  steps : List WorkflowStep
  retryCount : UInt32
  deriving DecidableEq

structure Task where
  id : String
  description : String
  projectId : String
  status : TaskStatus
  subtasks : List Subtask
  createdAt : Instant
  updatedAt : Instant
  deriving DecidableEq

/-- Parse the status of a task as the coordinator writes it. Letters are lowered in
the ASCII range: no other character is lowered to a letter of these names. -/
def taskStatusFromStr (text : String) : Option TaskStatus :=
  let lower := text.toLower
  if lower = "created" then some .created
  else if lower = "planning" then some .planning
  else if lower = "in_progress" || lower = "inprogress" then some .inProgress
  else if lower = "completed" then some .completed
  else if lower = "failed" then some .failed
  else if lower = "paused" then some .paused
  else none

/-- Parse the status of a subtask as coordinators and workers write it. -/
def subtaskStatusFromStr (text : String) : Option SubtaskStatus :=
  let lower := text.toLower
  if lower = "pending" then some .pending
  else if lower = "assigned" then some .assigned
  else if lower = "in_progress" || lower = "inprogress" then some .inProgress
  else if lower = "completed" then some .completed
  else if lower = "failed" then some .failed
  else if lower = "conflicted" then some .conflicted
  else none

def taskStatusToProto : TaskStatus → String
  | .created => "Created"
  | .planning => "Planning"
  | .inProgress => "InProgress"
  | .completed => "Completed"
  | .failed => "Failed"
  | .paused => "Paused"

/-- Parse the status of a task as the update call names it. -/
def protoStatusToTaskStatus (text : String) : Except String TaskStatus :=
  if text = "Created" then .ok .created
  else if text = "Planning" then .ok .planning
  else if text = "InProgress" then .ok .inProgress
  else if text = "Completed" then .ok .completed
  else if text = "Failed" then .ok .failed
  else if text = "Paused" then .ok .paused
  else .error ("Unknown TaskStatus: " ++ text)

/-- The status is a control action or an outcome, which projections must not undo. -/
def protectedTask : TaskStatus → Bool
  | .paused => true
  | .failed => true
  | .completed => true
  | _ => false

def protectedNode : SubtaskStatus → Bool
  | .failed => true
  | .completed => true
  | _ => false

/-- How a subtask is to be executed, as complete snapshots say. -/
structure NatsSubtaskExecution where
  agentConfigJson : Option String
  requiredCapabilities : Option (List String)
  fileConstraints : Option (List String)
  expectedOutput : Option String
  workflowSteps : Option (List WorkflowStep)
  deriving DecidableEq

def NatsSubtaskExecution.applyTo (execution : NatsSubtaskExecution) (subtask : Subtask) : Subtask :=
  { subtask with
    agentConfigJson := execution.agentConfigJson.or subtask.agentConfigJson
    requiredCapabilities := execution.requiredCapabilities.getD subtask.requiredCapabilities
    fileConstraints := execution.fileConstraints.getD subtask.fileConstraints
    expectedOutput := execution.expectedOutput.getD subtask.expectedOutput
    steps := execution.workflowSteps.getD subtask.steps }

structure NatsSubtaskUpdate where
  execution : NatsSubtaskExecution
  subtaskId : String
  status : String
  assignedWorker : Option String
  description : Option String
  dependsOn : Option (List String)
  result : Option String
  usage : Option SubtaskUsage
  review : Option SubtaskReview
  attemptId : Option UInt64
  deriving DecidableEq

/-- A report on a task: a complete snapshot, or a partial one of a worker. -/
structure NatsTaskUpdate where
  taskId : String
  status : String
  isPartial : Bool
  subtasks : List NatsSubtaskUpdate
  result : Option String
  messageId : Option String
  deriving DecidableEq

/-- A report with what is needed to rebuild its task. -/
structure NatsTaskUpdateEnvelope where
  update : NatsTaskUpdate
  description : Option String
  projectId : Option String
  deriving DecidableEq

/-- The subtask that a report tells of first. -/
def natsSubtaskToDomain (taskId : String) (update : NatsSubtaskUpdate) (now : Instant) : Subtask :=
  let status := (subtaskStatusFromStr update.status).getD .pending
  update.execution.applyTo {
    id := update.subtaskId
    parentId := taskId
    description := update.description.getD ""
    status := status
    assignedWorker := update.assignedWorker
    dependsOn := update.dependsOn.getD []
    fileConstraints := []
    expectedOutput := ""
    result := update.result.map fun summary => {
      subtaskId := update.subtaskId
      workerId := update.assignedWorker
      summary := summary
      success := status ≠ .failed
      completedAt := now
      result := some summary
      usage := update.usage
      review := update.review }
    dispatchMode := .preferRemote
    effectClass := .requiresWorker
    dispatchRetryCount := 0
    requiredCapabilities := []
    agentConfigJson := none
    steps := []
    retryCount := 0 }

end UltimateCoders.Gateway
