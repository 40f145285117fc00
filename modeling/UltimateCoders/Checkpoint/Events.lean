import Mathlib.Data.List.AList
import UltimateCoders.Replay.Cut

/-! # Events and their store

Events of agents, the in-memory store that numbers them, and the reducer that makes
the state of a task from them. Of an event only what is read here is represented;
times are not.
-/

namespace UltimateCoders.Checkpoint

inductive AgentEventType where
  | taskCreated (taskId description : String)
  | subtaskAssigned (taskId subtaskId workerId : String)
  | subtaskStarted (taskId subtaskId workerId : String)
  | subtaskProgress (taskId subtaskId : String)
  | toolInvoked (taskId subtaskId : String)
  | toolResult (taskId subtaskId : String)
  | fileModified (taskId subtaskId : String)
  | editIntent (workerId filePath : String)
  | subtaskCompleted (taskId subtaskId summary : String) (success : Bool)
  | subtaskFailed (taskId subtaskId error : String) (recoverable : Bool)
  | checkpointCreated (taskId snapshotId : String) (eventOffset : Nat)
  | taskCompleted (taskId description result : String)
  | taskFailed (taskId error : String)
  | taskPaused (taskId : String)
  | taskResumed (taskId : String)
  | taskCancelled (taskId : String)
  | taskUpdated (taskId status : String)
  | subtaskRetried (taskId subtaskId : String) (attemptId : UInt32)
  deriving DecidableEq

structure RecordedEvent where
  offset : Nat
  event : AgentEventType
  subject : String
  deriving DecidableEq

/-- One stream of events under each subject; offsets are drawn for all of them. -/
structure InMemoryEventStore where
  streams : AList fun _ : String => List RecordedEvent
  globalOffset : Nat

namespace InMemoryEventStore

def new : InMemoryEventStore := ⟨∅, 1⟩

variable (store : InMemoryEventStore)

def stream (subject : String) : List RecordedEvent :=
  (store.streams.lookup subject).getD []

def append (subject : String) (event : AgentEventType) : InMemoryEventStore where
  streams := store.streams.insert subject
    (store.stream subject ++ [⟨store.globalOffset, event, subject⟩])
  globalOffset := store.globalOffset + 1

def readFrom (subject : String) (offset : Nat) : List RecordedEvent :=
  Replay.startingAt RecordedEvent.offset offset (store.stream subject)

/-- The offset of the last event under a subject, zero if there is none. -/
def latestOffset (subject : String) : Nat :=
  Replay.lastOffset RecordedEvent.offset (store.stream subject)

@[simp] theorem stream_append_self (subject : String) (event : AgentEventType) :
    (store.append subject event).stream subject =
      store.stream subject ++ [⟨store.globalOffset, event, subject⟩] := by
  simp [append, stream]

theorem stream_append_ne {subject other : String} (event : AgentEventType)
    (apart : other ≠ subject) : (store.append subject event).stream other = store.stream other := by
  simp [append, stream, AList.lookup_insert_ne apart]

end InMemoryEventStore

structure SubtaskSnapshot where
  subtaskId : String
  status : String
  assignedWorker : Option String
  resultSummary : Option String
  deriving DecidableEq

structure TaskSnapshot where
  taskId : String
  status : String
  subtasks : List SubtaskSnapshot
  lastEventOffset : Nat
  deriving DecidableEq

/-- The state of a task before any event. -/
def TaskSnapshot.created (taskId : String) : TaskSnapshot := ⟨taskId, "created", [], 0⟩

def deriveTaskStatus (subtasks : List SubtaskSnapshot) : String :=
  if subtasks = [] then "created"
  else if subtasks.all fun subtask => subtask.status = "completed" then "completed"
  else if subtasks.any fun subtask => subtask.status = "failed" then "failed"
  else if subtasks.any fun subtask =>
      subtask.status = "in_progress" || subtask.status = "assigned" then "in_progress"
  else "pending"

/-- Progress of subtasks cannot undo a pause or an outcome. -/
def refreshParentStatus (snapshot : TaskSnapshot) : TaskSnapshot :=
  if snapshot.status = "paused" || snapshot.status = "completed" || snapshot.status = "failed" then
    snapshot
  else { snapshot with status := deriveTaskStatus snapshot.subtasks }

/-- Change the first subtask under the id, if there is one. -/
def TaskSnapshot.changeSubtask (snapshot : TaskSnapshot) (subtaskId : String)
    (change : SubtaskSnapshot → SubtaskSnapshot) : TaskSnapshot :=
  { snapshot with
    subtasks := snapshot.subtasks.modify
      (snapshot.subtasks.findIdx fun subtask => subtask.subtaskId = subtaskId) change }

/-- A subtask is assigned, for the first time or once more. -/
def TaskSnapshot.assign (snapshot : TaskSnapshot) (subtaskId workerId : String) : TaskSnapshot :=
  if snapshot.subtasks.any fun subtask => subtask.subtaskId = subtaskId then
    snapshot.changeSubtask subtaskId fun subtask =>
      { subtask with
        status := "assigned"
        assignedWorker := some workerId
        resultSummary := none }
  else
    { snapshot with
      subtasks := snapshot.subtasks ++ [⟨subtaskId, "assigned", some workerId, none⟩] }

/-- The task whose snapshot is due after an event. -/
def extractTaskId : AgentEventType → Option String
  | .taskCreated taskId _ => some taskId
  | .subtaskAssigned taskId _ _ => some taskId
  | .subtaskStarted taskId _ _ => some taskId
  | .subtaskProgress taskId _ => some taskId
  | .toolInvoked taskId _ => some taskId
  | .toolResult taskId _ => some taskId
  | .fileModified taskId _ => some taskId
  | .editIntent _ _ => none
  | .subtaskCompleted taskId _ _ _ => some taskId
  | .subtaskFailed taskId _ _ _ => some taskId
  | .checkpointCreated taskId _ _ => some taskId
  | .taskCompleted taskId _ _ => some taskId
  | .taskFailed taskId _ => some taskId
  | .taskPaused taskId => some taskId
  | .taskResumed taskId => some taskId
  | .taskCancelled taskId => some taskId
  | .taskUpdated taskId _ => some taskId
  | .subtaskRetried taskId _ _ => some taskId

/-- The status that a task is updated to, unless the update is telemetry. Letters are lowered
in the ASCII range: no other character is lowered to a letter of these names. -/
def updatedStatus (status : String) : Option String :=
  let lower := status.toLower
  if lower = "inprogress" || lower = "in_progress" then some "in_progress"
  else if lower = "created" || lower = "planning" || lower = "paused" || lower = "completed" ||
    lower = "failed" then some lower
  else none

/-- What an event makes of the state of its task. -/
def applyEventToSnapshot (snapshot : TaskSnapshot) : AgentEventType → TaskSnapshot
  | .subtaskRetried _ subtaskId _ =>
    { snapshot.changeSubtask subtaskId fun subtask =>
        { subtask with
          status := "pending"
          assignedWorker := none
          resultSummary := none } with
      status := "in_progress" }
  | .taskCreated _ _ => { snapshot with status := "created" }
  | .subtaskAssigned _ subtaskId workerId => refreshParentStatus (snapshot.assign subtaskId workerId)
  | .subtaskStarted _ subtaskId _ =>
    snapshot.changeSubtask subtaskId fun subtask => { subtask with status := "in_progress" }
  | .subtaskCompleted _ subtaskId summary success =>
    refreshParentStatus (snapshot.changeSubtask subtaskId fun subtask =>
      { subtask with
        status := if success then "completed" else "failed"
        resultSummary := some summary })
  | .subtaskFailed _ subtaskId error recoverable =>
    refreshParentStatus (snapshot.changeSubtask subtaskId fun subtask =>
      { subtask with
        status := if recoverable then "recoverable_failed" else "failed"
        resultSummary := some error })
  | .taskPaused _ => { snapshot with status := "paused" }
  | .taskResumed _ => { snapshot with status := "in_progress" }
  | .taskCancelled _ => { snapshot with status := "failed" }
  | .taskUpdated _ status => { snapshot with status := (updatedStatus status).getD snapshot.status }
  | .taskCompleted _ _ _ => { snapshot with status := "completed" }
  | .taskFailed _ _ => { snapshot with status := "failed" }
  | .toolInvoked _ _ => snapshot
  | .toolResult _ _ => snapshot
  | .fileModified _ _ => snapshot
  | .editIntent _ _ => snapshot
  | .checkpointCreated _ _ _ => snapshot
  | .subtaskProgress _ _ => snapshot

/-- What a recorded event makes of the state of its task. -/
def applyRecorded (snapshot : TaskSnapshot) (recorded : RecordedEvent) : TaskSnapshot :=
  applyEventToSnapshot snapshot recorded.event

end UltimateCoders.Checkpoint
