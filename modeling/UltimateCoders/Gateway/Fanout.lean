import UltimateCoders.Gateway.Attempt
import UltimateCoders.Gateway.Mutation
import UltimateCoders.Graph.NodeStates

/-! # What the task store tells the graph plane

Every change of the task store hands its tasks to the graph plane, and a dispatch or a
report also tells it what became of the subtasks. Each of these calls is spawned on its
own: nothing orders their execution, and a call that looks a running attempt up does so
before the transaction that uses it.
-/

namespace UltimateCoders.Gateway

open Governance (Instant)
open UltimateCoders.Graph (SubtaskStatus Tables Timestamp defaultMaxAttempts)
open TaskStore

/-- Instants are stored to the microsecond. -/
def microseconds (instant : Instant) : Timestamp := instant / 1000

/-- The part of a result that the graph plane reads. A worker id that was drawn at random
is left empty. -/
def SubtaskResult.toGraph (result : SubtaskResult) : Graph.SubtaskResult where
  workerId := result.workerId.getD ""
  completedAt := microseconds result.completedAt

def Subtask.toGraph (subtask : Subtask) : Graph.Subtask where
  id := subtask.id
  status := subtask.status
  assignedWorker := subtask.assignedWorker
  dependsOn := subtask.dependsOn
  result := subtask.result.map SubtaskResult.toGraph
  effectClass := subtask.effectClass
  requiredCapabilities := subtask.requiredCapabilities
  retryCount := subtask.retryCount.toNat

def Task.toGraph (task : Task) : Graph.Task where
  id := task.id
  projectId := task.projectId
  status := task.status
  subtasks := task.subtasks.map Subtask.toGraph
  createdAt := microseconds task.createdAt
  updatedAt := microseconds task.updatedAt

/-- A call of the sink, or what is left of it once it has looked the running attempt up. -/
inductive SinkCall where
  | shadowPersist (task : Task)
  | onSchedule (graphId nodeId : String)
  | onHeartbeat (graphId nodeId : String)
  | onCommit (graphId nodeId : String) (resultRef : Option String)
  | onFail (graphId nodeId : String)
  | heartbeatAttempt (attemptId : String)
  | commitOnce (graphId nodeId attemptId : String) (resultRef : Option String)
  | failAttempt (graphId nodeId attemptId : String)

namespace SinkCall

/-- The attempt that a commit or a failure is about: the latest that runs, or one that never
existed. -/
def probe (tables : Tables) (graphId nodeId : String) : String :=
  (tables.runningAttemptId graphId nodeId).getD (Graph.attemptId graphId nodeId (-1))

/-- One transaction of a call: what is left of the call, and the tables. -/
def exec (now : Timestamp) (tables : Tables) : SinkCall → Option SinkCall × Tables
  | shadowPersist task => (none, (Graph.upsertTaskShadow task.toGraph tables).2)
  | onSchedule graphId nodeId =>
    (none, (Graph.Transaction.scheduleAttempt graphId nodeId none).exec now tables)
  | onHeartbeat graphId nodeId =>
    ((tables.runningAttemptId graphId nodeId).map heartbeatAttempt, tables)
  | onCommit graphId nodeId resultRef =>
    (some (commitOnce graphId nodeId (probe tables graphId nodeId) resultRef), tables)
  | onFail graphId nodeId =>
    (some (failAttempt graphId nodeId (probe tables graphId nodeId)), tables)
  | heartbeatAttempt attemptId =>
    (none, (Graph.Transaction.heartbeatAttempt attemptId).exec now tables)
  | commitOnce graphId nodeId attemptId resultRef =>
    (none, (Graph.Transaction.commitOnce graphId nodeId attemptId resultRef).exec now tables)
  | failAttempt graphId nodeId attemptId =>
    (none, (Graph.Transaction.failAttempt graphId nodeId attemptId defaultMaxAttempts).exec now
      tables)

end SinkCall

/-- What the graph plane is told of a subtask that a report moves to a status. -/
def graphVerbFor (graphId nodeId : String) (resultRef : Option String)
    (status previous : SubtaskStatus) : Option SinkCall :=
  if status = previous then none
  else
    match status with
    | .inProgress => some (.onHeartbeat graphId nodeId)
    | .completed => some (.onCommit graphId nodeId resultRef)
    | .failed | .conflicted => some (.onFail graphId nodeId)
    | .pending | .assigned => none

/-- What the graph plane is told of one entry of a report. -/
def TaskStore.Reported.call (taskId : String) (isPartial : Bool) (now : Instant) (reported : Reported)
    (update : NatsSubtaskUpdate) : Option SinkCall :=
  match findSubtask reported.subtasks update.subtaskId with
  | some subtask =>
    match if isPartial then fence subtask update else .passes with
    | .passes =>
      (subtaskStatusFromStr update.status).bind fun status =>
        graphVerbFor taskId subtask.id
          (update.result.or (subtask.result.map SubtaskResult.summary)) status subtask.status
    | .ignored => none
    | .stale _ _ => none
  | none =>
    let added := newSubtask taskId isPartial update now
    graphVerbFor taskId added.id none added.status .pending

/-- What the graph plane is told of a report. -/
def TaskStore.Reported.calls (taskId : String) (isPartial : Bool) (now : Instant) :
    Reported → List NatsSubtaskUpdate → List SinkCall
  | _, [] => []
  | reported, update :: rest =>
    (reported.call taskId isPartial now update).toList ++
      Reported.calls taskId isPartial now (reported.upsert taskId isPartial now update) rest

/-- The calls that a change of the store spawns. -/
def Mutation.fanout (store : TaskStore) (now : Instant) (mutation : Mutation) : List SinkCall :=
  let snapshots := (mutation.persisted store now).map SinkCall.shadowPersist
  match mutation with
  | .operate (.applyUpdate update description projectId) =>
    if store.fullSnapshotIsStale update then []
    else
      match store.rehydrate update description projectId now with
      | none => []
      | some rehydrated =>
        match rehydrated.tasks.lookup update.taskId with
        | none => []
        | some task =>
          snapshots ++ Reported.calls task.id update.isPartial now
            { subtasks := task.subtasks, assignedTimes := rehydrated.assignedSubtaskTimes }
            update.subtasks
  | .updateSubtaskStatus taskId subtaskId status =>
    match store.subtask taskId subtaskId with
    | none => []
    | some subtask =>
      (if status = .assigned && subtask.status ≠ .assigned then
        [.onSchedule taskId subtaskId] else []) ++ snapshots
  | _ => snapshots

structure FanoutState where
  store : TaskStore
  tables : Tables
  /-- Calls that were spawned and are not finished. -/
  pending : List SinkCall

inductive FanoutAction where
  | mutate (mutation : Mutation) (now : Instant)
  /-- A terminal report that is repeated hands its task over again. -/
  | confirm (taskId : String)
  /-- A retry or a cancellation that the gateway waits for. -/
  | transact (transaction : Graph.Transaction) (now : Timestamp)
  | execute (position : Nat) (now : Timestamp)

def schedules : Graph.Transaction → Bool
  | .scheduleAttempt _ _ _ => true
  | _ => false

/-- One step, if it can be taken. -/
def FanoutState.act (state : FanoutState) : FanoutAction → Option FanoutState
  | .mutate mutation now => some { state with
      store := mutation.apply state.store now
      pending := state.pending ++ mutation.fanout state.store now }
  | .confirm taskId =>
    (state.store.tasks.lookup taskId).map fun task =>
      { state with pending := state.pending ++ [.shadowPersist task] }
  | .transact transaction now =>
    if schedules transaction then none
    else some { state with tables := transaction.exec now state.tables }
  | .execute position now =>
    state.pending[position]?.map fun call => { state with
      tables := (call.exec now state.tables).2
      pending := state.pending.eraseIdx position ++ (call.exec now state.tables).1.toList }

end UltimateCoders.Gateway
