import UltimateCoders.Gateway.TaskStore
import UltimateCoders.Transition.Run

/-! # Dispatching subtasks

A dispatcher marks the ready subtasks of a task as assigned while it holds the lock
of the store, and then publishes them one by one without it. If a publication
fails, it takes the lock again to revert the subtask. Any operation on the store
may come in between.
-/

namespace UltimateCoders.Gateway

open Governance (Instant)
open UltimateCoders.Graph (TaskStatus SubtaskStatus EffectClass)
open Transition (Run)

/-- Dispatches reverted this often are not repeated. -/
def maxDispatchRetries : UInt32 := 3

/-- The two functions that dispatch; only one sends the expected output and the
file constraints. -/
inductive Mouth where
  | publishReadySubtasks
  | dispatchReadySubtasks
  deriving DecidableEq

/-- A subtask as it was when it was marked assigned, and where it is to be sent. -/
structure Dispatch where
  mouth : Mouth
  taskId : String
  projectId : String
  subtask : Subtask
  subject : String
  deriving DecidableEq

/-- What the registry of workers says of a subtask: the subject to send it to, if
there is a worker for it. -/
abbrev Gate := Subtask → Option String

/-- Mark the ready subtasks one by one, and collect those to be published. -/
def markReady (mouth : Mouth) (taskId projectId : String) (gate : Gate) (now : Instant) :
    List Subtask → TaskStore → List Dispatch × TaskStore
  | [], store => ([], store)
  | subtask :: rest, store =>
    if subtask.dispatchRetryCount ≥ maxDispatchRetries then
      markReady mouth taskId projectId gate now rest
        (store.updateSubtaskStatus taskId subtask.id .failed now)
    else
      match gate subtask with
      | none => markReady mouth taskId projectId gate now rest store
      | some subject =>
        let marked := markReady mouth taskId projectId gate now rest
          (store.updateSubtaskStatus taskId subtask.id .assigned now)
        (⟨mouth, taskId, projectId, subtask, subject⟩ :: marked.1, marked.2)

/-- What a dispatcher does while it first holds the lock. -/
def selectReady (store : TaskStore) (mouth : Mouth) (taskId : String) (gate : Gate)
    (now : Instant) : List Dispatch × TaskStore :=
  markReady mouth taskId (((store.tasks.lookup taskId).map Task.projectId).getD "") gate now
    (store.getReadySubtasks taskId) store

structure NatsSubtaskExecute where
  description : String
  expectedOutput : String
  fileConstraints : List String
  retryCount : UInt32
  dispatchMode : DispatchMode
  effectClass : EffectClass
  requiredCapabilities : List String
  agentConfigJson : Option String
  steps : List WorkflowStep
  projectId : String
  graphId : String
  nodeId : String
  attemptId : String
  idempotencyKey : String
  deriving DecidableEq

section Message

variable (sha256Hex : String → String)

/-- What the stream recognises duplicates by. -/
def deriveIdempotencyKey (graphId nodeId attemptId : String) : String :=
  String.ofList ((sha256Hex (graphId ++ ":" ++ nodeId ++ ":" ++ attemptId)).toList.take 32)

def subtaskExecutePayload (taskId : String) (subtask : Subtask) (projectId expectedOutput : String)
    (fileConstraints : List String) : NatsSubtaskExecute where
  description := subtask.description
  expectedOutput := expectedOutput
  fileConstraints := fileConstraints
  retryCount := subtask.dispatchRetryCount
  dispatchMode := subtask.dispatchMode
  effectClass := subtask.effectClass
  requiredCapabilities := subtask.requiredCapabilities
  agentConfigJson := subtask.agentConfigJson
  steps := subtask.steps
  projectId := projectId
  graphId := taskId
  nodeId := subtask.id
  attemptId := toString subtask.dispatchRetryCount.toNat
  idempotencyKey :=
    deriveIdempotencyKey sha256Hex taskId subtask.id (toString subtask.dispatchRetryCount.toNat)

def Dispatch.message (dispatch : Dispatch) : NatsSubtaskExecute :=
  match dispatch.mouth with
  | .publishReadySubtasks =>
    subtaskExecutePayload sha256Hex dispatch.taskId dispatch.subtask dispatch.projectId "" []
  | .dispatchReadySubtasks =>
    subtaskExecutePayload sha256Hex dispatch.taskId dispatch.subtask dispatch.projectId
      dispatch.subtask.expectedOutput dispatch.subtask.fileConstraints

end Message

/-- What a dispatcher does to the store after a publication has failed. -/
def handlePublishFailure (store : TaskStore) (dispatch : Dispatch) (now : Instant) : TaskStore :=
  let subtask := dispatch.subtask
  if subtask.dispatchMode = .remote then
    let (count, counted) := store.incrementDispatchRetry dispatch.taskId subtask.id now
    if count.getD (subtask.dispatchRetryCount + 1) ≥ maxDispatchRetries then
      counted.updateSubtaskStatus dispatch.taskId subtask.id .failed now
    else counted.updateSubtaskStatus dispatch.taskId subtask.id .pending now
  else store.updateSubtaskStatus dispatch.taskId subtask.id .pending now

/-- A dispatcher that does not hold the lock: what it has yet to publish, and
whether the first publication has failed. -/
structure Dispatcher where
  queue : List Dispatch
  failed : Bool
  deriving DecidableEq

structure GatewayState where
  store : TaskStore
  dispatchers : List Dispatcher
  published : List NatsSubtaskExecute

/-- A step of the gateway. Operations and the sections of a dispatcher that hold the
lock are single steps. -/
inductive GatewayAction where
  | operate (operation : TaskOperation) (now : Instant)
  | select (mouth : Mouth) (taskId : String) (gate : Gate) (now : Instant)
  | publish (dispatcher : Nat)
  | failPublish (dispatcher : Nat)
  | handleFailure (dispatcher : Nat) (now : Instant)

namespace GatewayState

variable (sha256Hex : String → String)

variable (gateway : GatewayState)

/-- The gateway after an action, if the dispatcher is where the action takes it. -/
def step : GatewayAction → Option GatewayState
  | .operate operation now => some { gateway with store := operation.apply gateway.store now }
  | .select mouth taskId gate now =>
    let selected := selectReady gateway.store mouth taskId gate now
    some { gateway with
      store := selected.2
      dispatchers := gateway.dispatchers ++ [⟨selected.1, false⟩] }
  | .publish dispatcher =>
    match gateway.dispatchers[dispatcher]? with
    | some ⟨dispatch :: rest, false⟩ => some { gateway with
        dispatchers := gateway.dispatchers.set dispatcher ⟨rest, false⟩
        published := gateway.published ++ [dispatch.message sha256Hex] }
    | _ => none
  | .failPublish dispatcher =>
    match gateway.dispatchers[dispatcher]? with
    | some ⟨dispatch :: rest, false⟩ => some { gateway with
        dispatchers := gateway.dispatchers.set dispatcher ⟨dispatch :: rest, true⟩ }
    | _ => none
  | .handleFailure dispatcher now =>
    match gateway.dispatchers[dispatcher]? with
    | some ⟨dispatch :: rest, true⟩ => some { gateway with
        store := handlePublishFailure gateway.store dispatch now
        dispatchers := gateway.dispatchers.set dispatcher ⟨rest, false⟩ }
    | _ => none

def Steps (before : GatewayState) (action : GatewayAction) (after : GatewayState) : Prop :=
  before.step sha256Hex action = some after

/-- The publication whose failure the action handles. -/
def failing : GatewayAction → Option Dispatch
  | .handleFailure dispatcher _ =>
    match gateway.dispatchers[dispatcher]? with
    | some ⟨dispatch :: _, true⟩ => some dispatch
    | _ => none
  | _ => none

/-- The dispatches that the action marks and hands over to be published. -/
def selected : GatewayAction → List Dispatch
  | .select mouth taskId gate now => (selectReady gateway.store mouth taskId gate now).1
  | _ => []

variable {sha256Hex} {before after : GatewayState} {action : GatewayAction}
  {dispatch : Dispatch} {position : Nat} {now : Instant}

theorem steps_publish (step : before.Steps sha256Hex (.publish position) after) :
    ∃ dispatch rest, before.dispatchers[position]? = some ⟨dispatch :: rest, false⟩ ∧
      after = { before with
        dispatchers := before.dispatchers.set position ⟨rest, false⟩
        published := before.published ++ [dispatch.message sha256Hex] } := by
  simp only [Steps, GatewayState.step] at step
  split at step
  · rename_i dispatch rest found
    exact ⟨dispatch, rest, found, (Option.some.inj step).symm⟩
  · cases step

theorem steps_failPublish (step : before.Steps sha256Hex (.failPublish position) after) :
    ∃ dispatch rest, before.dispatchers[position]? = some ⟨dispatch :: rest, false⟩ ∧
      after = { before with
        dispatchers := before.dispatchers.set position ⟨dispatch :: rest, true⟩ } := by
  simp only [Steps, GatewayState.step] at step
  split at step
  · rename_i dispatch rest found
    exact ⟨dispatch, rest, found, (Option.some.inj step).symm⟩
  · cases step

theorem steps_handleFailure (step : before.Steps sha256Hex (.handleFailure position now) after) :
    ∃ dispatch rest, before.dispatchers[position]? = some ⟨dispatch :: rest, true⟩ ∧
      after = { before with
        store := handlePublishFailure before.store dispatch now
        dispatchers := before.dispatchers.set position ⟨rest, false⟩ } := by
  simp only [Steps, GatewayState.step] at step
  split at step
  · rename_i dispatch rest found
    exact ⟨dispatch, rest, found, (Option.some.inj step).symm⟩
  · cases step

def Queued (dispatch : Dispatch) : Prop :=
  ∃ dispatcher ∈ gateway.dispatchers, dispatch ∈ dispatcher.queue

theorem queued_of_set {held next : Dispatcher} (found : before.dispatchers[position]? = some held)
    (queued : ∃ dispatcher ∈ before.dispatchers.set position next, dispatch ∈ dispatcher.queue)
    (shorter : ∀ dispatch ∈ next.queue, dispatch ∈ held.queue) : before.Queued dispatch := by
  obtain ⟨dispatcher, member, inQueue⟩ := queued
  rcases List.mem_or_eq_of_mem_set member with old | rfl
  · exact ⟨dispatcher, old, inQueue⟩
  · exact ⟨held, List.mem_of_getElem? found, shorter dispatch inQueue⟩

theorem queued_of_step (step : before.Steps sha256Hex action after)
    (queued : after.Queued dispatch) :
    before.Queued dispatch ∨ dispatch ∈ before.selected action := by
  cases action with
  | operate operation now =>
    rw [← Option.some.inj step] at queued
    exact .inl queued
  | select mouth taskId gate now =>
    rw [← Option.some.inj step] at queued
    obtain ⟨dispatcher, member, inQueue⟩ := queued
    rcases List.mem_append.mp member with old | new
    · exact .inl ⟨dispatcher, old, inQueue⟩
    · rw [List.mem_singleton.mp new] at inQueue
      exact .inr inQueue
  | publish position =>
    obtain ⟨first, rest, found, rfl⟩ := steps_publish step
    exact .inl (queued_of_set found queued fun _ => List.mem_cons_of_mem _)
  | failPublish position =>
    obtain ⟨first, rest, found, rfl⟩ := steps_failPublish step
    exact .inl (queued_of_set found queued fun _ member => member)
  | handleFailure position now =>
    obtain ⟨first, rest, found, rfl⟩ := steps_handleFailure step
    exact .inl (queued_of_set found queued fun _ => List.mem_cons_of_mem _)

end GatewayState

/-- The first subtask under the id, of the task under the id. -/
def TaskStore.subtask (store : TaskStore) (taskId subtaskId : String) : Option Subtask :=
  match store.tasks.lookup taskId with
  | none => none
  | some task => findSubtask task.subtasks subtaskId

end UltimateCoders.Gateway
