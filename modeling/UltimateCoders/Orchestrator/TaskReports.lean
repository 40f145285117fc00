import UltimateCoders.Gateway.Configuration
import UltimateCoders.Gateway.Waiting
import UltimateCoders.Orchestrator.LocalParallel

/-! # The claim loop and the gateway

The claim loop has one channel for its reports: it sends its mirror of the whole task as an update
call. The gateway takes the call under its lock, and goes on dispatching and receiving what workers
report. Any step of one side may come between two steps of the other.
-/

namespace UltimateCoders.Orchestrator

open Governance (Instant)
open Gateway (GatewayState GatewayAction SubtaskProto TaskOperation TaskStore WorkflowStepProto)

inductive TaskStateStatus where
  | planning
  | inProgress
  | completed
  | failed
  | cancelled
  deriving DecidableEq

def taskStatusToWire : TaskStateStatus → String
  | .planning => "Planning"
  | .inProgress => "InProgress"
  | .completed => "Completed"
  | .failed | .cancelled => "Failed"

def subtaskStatusToWire : LocalStatus → String
  | .pending => "Pending"
  | .running | .reviewing => "InProgress"
  | .completed => "Completed"
  | .failed | .cancelled => "Failed"

def DispatchMode.text : DispatchMode → String
  | .local => "local"
  | .remote => "remote"
  | .preferRemote => "prefer_remote"
  | .auto => "auto"

/-- What the mirror keeps of a subtask and the loop does not touch. -/
structure SubtaskDetails where
  description : String
  dispatchRetryCount : Option UInt32 := none
  requiredCapabilities : List String := []
  steps : List WorkflowStepProto := []
  deriving DecidableEq

/-- The attempt that the mirror knows of. -/
def SubtaskDetails.attempt (details : SubtaskDetails) : UInt32 := details.dispatchRetryCount.getD 0

/-- What the mirror keeps of a task and the loop does not touch. -/
structure TaskState where
  id : String
  description : String
  projectId : Option String
  status : TaskStateStatus
  details : String → SubtaskDetails

/-- A subtask of the mirror as the update call sends it. -/
def SubtaskResult.toProto (details : SubtaskDetails) (st : SubtaskResult) : SubtaskProto where
  id := st.id
  description := details.description
  status := subtaskStatusToWire st.status
  dependsOn := st.dependsOn
  fileConstraints := st.files
  expectedOutput := ""
  dispatchMode := st.dispatchMode.map DispatchMode.text
  dispatchRetryCount := some details.attempt
  requiredCapabilities := details.requiredCapabilities
  steps := details.steps

namespace TaskState

variable (task : TaskState)

/-- The update call that sends these subtasks of the mirror. -/
def upsertTask (subtasks : List SubtaskResult) : TaskOperation :=
  Gateway.updateTaskRpc task.id (taskStatusToWire task.status)
    (subtasks.map fun st => st.toProto (task.details st.id)) task.description
    (task.projectId.getD "")

/-- What the gateway makes of a subtask of the mirror. -/
def incoming (st : SubtaskResult) : Gateway.Subtask :=
  (st.toProto (task.details st.id)).toSubtask task.id

/-- The gateway accepts the call. -/
def accepted (store : TaskStore) (subtasks : List SubtaskResult) (now : Instant) : Bool :=
  (store.updateTask task.id (taskStatusToWire task.status) (subtasks.map task.incoming)
    task.description (task.projectId.getD "") now).1.isOk

end TaskState

def claimReportMaxAttempts : Nat := 3

/-- How far a report has come. -/
inductive ReportStage where
  | unsent
  /-- The call is on its way with what the mirror said when it was sent. -/
  | sent (subtasks : List SubtaskResult)
  /-- The answer is on its way. -/
  | answered (subtasks : List SubtaskResult) (ok : Bool)
  deriving DecidableEq

/-- A report, and how often it was sent. -/
structure Report where
  attempts : Nat := 0
  stage : ReportStage := .unsent
  deriving DecidableEq

/-- What happens to a subtask in view of who executes it. -/
inductive ExecutorEvent where
  /-- A message that dispatches it was published. -/
  | dispatched (subtaskId : String) (attempt : UInt32)
  /-- The claim loop started to execute it. -/
  | executed (subtaskId : String) (attempt : UInt32)
  /-- A sweep, a resume or a retry lets it wait again. -/
  | waiting (subtaskId : String)
  deriving DecidableEq

/-- The gateway, the claim loop of a task, its reports, and what happened to the subtasks. -/
structure Coordination where
  gateway : GatewayState
  loop : ClaimLoop
  reports : String → Report
  events : List ExecutorEvent

inductive CoordinationAction where
  | gateway (action : GatewayAction)
  /-- A move of the loop that is not part of a report. -/
  | claimLoop (move : ClaimLoop.Move)
  /-- The claim or the outcome of a subtask is reported, or reported again. -/
  | send (subtaskId : String)
  /-- The gateway serves the call. -/
  | deliver (subtaskId : String) (now : Instant)
  /-- The call or its answer is lost; after a reconnection it may be repeated. -/
  | lose (subtaskId : String) (again : Bool)
  /-- The answer arrives. -/
  | answer (subtaskId : String)

def ClaimLoop.Move.isReport : ClaimLoop.Move → Bool
  | .reported _ | .unclaim _ => true
  | _ => false

open ClaimLoop

/-- The subtask whose claim is being reported. -/
def ClaimLoop.reporting (loop : ClaimLoop) : Option String :=
  match loop.tick with
  | .reporting batch => (loop.subtasks[batch.position]?).map SubtaskResult.id
  | _ => none

def ClaimLoop.endReport (loop : ClaimLoop) (subtaskId : String) (ok : Bool) : Option ClaimLoop :=
  if loop.reporting = some subtaskId then loop.step (.reported ok)
  else loop.step (.unclaim subtaskId)

namespace Coordination

section Step

variable (task : TaskState) (sha256Hex : String → String)

/-- What an action of the gateway means for the subtasks of the task. -/
def gatewayEvents (gateway : GatewayState) : GatewayAction → List ExecutorEvent
  | .publish dispatcher =>
    match gateway.dispatchers[dispatcher]? with
    | some ⟨dispatch :: _, false⟩ =>
      if dispatch.taskId = task.id then
        [.dispatched dispatch.subtask.id dispatch.subtask.dispatchRetryCount]
      else []
    | _ => []
  | .operate operation now =>
    match operation.rearms task.id with
    | some subtaskId =>
      if (operation.apply gateway.store now).waits task.id subtaskId &&
          !gateway.store.waits task.id subtaskId then [.waiting subtaskId]
      else []
    | none => []
  | _ => []

/-- What a move of the loop means for the subtasks. -/
def loopEvents (loop : ClaimLoop) : Move → List ExecutorEvent
  | .start => loop.beingStarted.toList.map fun id => .executed id (task.details id).attempt
  | _ => []

def setStage (before : Coordination) (subtaskId : String) (stage : ReportStage) : Coordination :=
  { before with
    reports := Function.update before.reports subtaskId
      ⟨(before.reports subtaskId).attempts, stage⟩ }

/-- One step of either side, if it can be taken. -/
def step (before : Coordination) : CoordinationAction → Option Coordination
  | .gateway action =>
    (before.gateway.step sha256Hex action).map fun gateway => { before with
      gateway := gateway
      events := before.events ++ gatewayEvents task before.gateway action }
  | .claimLoop move =>
    if move.isReport then none
    else (before.loop.step move).map fun loop => { before with
      loop := loop
      events := before.events ++ loopEvents task before.loop move }
  | .send subtaskId =>
    if before.loop.reporting = some subtaskId ∨ subtaskId ∈ before.loop.finishing then
      match before.reports subtaskId with
      | ⟨attempts, .unsent⟩ => some { before with
          reports := Function.update before.reports subtaskId
            ⟨attempts + 1, .sent before.loop.subtasks⟩ }
      | _ => none
    else none
  | .deliver subtaskId now =>
    match (before.reports subtaskId).stage with
    | .sent subtasks =>
      let store := before.gateway.store
      some (Coordination.setStage
        { before with gateway := { before.gateway with
            store := (task.upsertTask subtasks).apply store now } }
        subtaskId (.answered subtasks (task.accepted store subtasks now)))
    | _ => none
  | .lose subtaskId again =>
    match (before.reports subtaskId).stage with
    | .sent subtasks | .answered subtasks _ =>
      some (before.setStage subtaskId (if again then .sent subtasks else .answered subtasks false))
    | .unsent => none
  | .answer subtaskId =>
    match before.reports subtaskId with
    | ⟨attempts, .answered _ ok⟩ =>
      if ok || claimReportMaxAttempts ≤ attempts then
        (before.loop.endReport subtaskId ok).map fun loop => { before with
          loop := loop
          reports := Function.update before.reports subtaskId {} }
      else some (before.setStage subtaskId .unsent)
    | _ => none

def Steps (before : Coordination) (action : CoordinationAction) (after : Coordination) : Prop :=
  before.step task sha256Hex action = some after

end Step

end Coordination

/-- No move changes which subtasks the mirror has, and how they are graded. -/
theorem stamps_of_step {loop next : ClaimLoop} {move : Move}
    (moved : loop.step move = some next) :
    next.subtasks.map SubtaskResult.stamp = loop.subtasks.map SubtaskResult.stamp := by
  cases move with
  | reconcile server =>
    simp only [step] at moved
    split at moved <;> cases moved
    exact stamp_adoptAll _ _ _
  | gate =>
    simp only [step] at moved
    split at moved
    · split at moved <;> cases moved <;> rfl
    · cases moved
  | scan =>
    simp only [step] at moved
    split at moved <;> cases moved
    unfold scan
    split
    · rfl
    · split
      · rfl
      · split
        · exact Search.map_modify_eq fun _ => rfl
        · rfl
  | reported accepted =>
    simp only [step] at moved
    split at moved
    · obtain ⟨subtask, _, rfl⟩ := Option.map_eq_some_iff.mp moved
      split
      · rfl
      · exact Search.map_modify_eq fun _ => rfl
    · cases moved
  | start =>
    simp only [step] at moved
    split at moved
    · obtain ⟨subtask, _, rfl⟩ := Option.map_eq_some_iff.mp moved
      rfl
    · cases moved
  | outcome finished status result error =>
    simp only [step] at moved
    split at moved <;> cases moved
    exact Search.map_modify_eq fun _ => rfl
  | unclaim finished =>
    simp only [step] at moved
    split at moved <;> cases moved
    rfl

theorem ids_of_step {loop next : ClaimLoop} {move : Move}
    (moved : loop.step move = some next) :
    next.subtasks.map SubtaskResult.id = loop.subtasks.map SubtaskResult.id := by
  have stamps := congrArg (List.map Prod.fst) (stamps_of_step moved)
  rw [List.map_map, List.map_map] at stamps
  exact stamps

end UltimateCoders.Orchestrator
