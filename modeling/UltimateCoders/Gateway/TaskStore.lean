import Mathlib.Data.List.AList
import Mathlib.Data.List.Sort
import UltimateCoders.Gateway.Task

/-! # The task store of the gateway

Tasks in memory, changed by control commands, by projections and reports of
coordinators and workers, and by sweeps. Every operation runs under the lock of
the store. Writing to the task backend and telling the graph plane do not act back
on the store and are not represented here.
-/

namespace UltimateCoders.Gateway

open Governance (Instant)
open UltimateCoders.Graph (TaskStatus SubtaskStatus)

/-- Events that the store records. -/
inductive AgentEvent where
  | taskCreated (taskId description : String)
  | taskUpdated (taskId status : String)
  | subtaskAssigned (taskId subtaskId : String)
  | subtaskStarted (taskId subtaskId : String)
  | subtaskCompleted (taskId subtaskId : String)
  | subtaskFailed (taskId subtaskId : String)
  | subtaskRetried (taskId subtaskId : String) (attemptId : UInt32)
  | taskCompleted (taskId description result : String)
  | taskFailed (taskId error : String)
  | taskPaused (taskId : String)
  | taskResumed (taskId : String)
  | taskCancelled (taskId : String)
  deriving DecidableEq

structure TaskStore where
  tasks : AList fun _ : String => Task
  durabilityFaults : List String
  events : List AgentEvent
  lastHeartbeat : Option Instant
  assignedSubtaskTimes : AList fun _ : String => Instant
  staleDispatchDropped : Nat
  seenMessages : AList fun _ : String => Instant

namespace TaskStore

/-- How many events the inline log keeps. -/
def inlineEventsMax : Nat := 5000

/-- How many tasks are kept before outcomes are evicted. -/
def maxRetainedTasks : Nat := 1000

variable (store : TaskStore)

def recordEvent (event : AgentEvent) : TaskStore :=
  let events := store.events ++ [event]
  { store with events := events.drop (events.length - inlineEventsMax) }

@[simp] theorem recordEvent_tasks (event : AgentEvent) :
    (store.recordEvent event).tasks = store.tasks := by
  cases store
  rfl

def putTask (taskId : String) (task : Task) : TaskStore :=
  { store with tasks := store.tasks.insert taskId task }

def trackAssigned (subtaskId : String) (now : Instant) : TaskStore :=
  { store with assignedSubtaskTimes := store.assignedSubtaskTimes.insert subtaskId now }

def untrackAssigned (subtaskId : String) : TaskStore :=
  { store with assignedSubtaskTimes := store.assignedSubtaskTimes.erase subtaskId }

def pauseTask (taskId : String) (now : Instant) : Except String Task × TaskStore :=
  match store.tasks.lookup taskId with
  | none => (.error ("Task not found: " ++ taskId), store)
  | some task =>
    match task.status with
    | .inProgress | .planning =>
      let paused := { task with status := .paused, updatedAt := now }
      (.ok paused, store.putTask taskId paused)
    | other => (.error ("Cannot pause task in " ++ taskStatusToProto other ++
        " status (expected InProgress or Planning)"), store)

def resumeTask (taskId : String) (now : Instant) : Except String Task × TaskStore :=
  match store.tasks.lookup taskId with
  | none => (.error ("Task not found: " ++ taskId), store)
  | some task =>
    match task.status with
    | .paused =>
      let resumed := { task with status := .inProgress, updatedAt := now }
      (.ok resumed, store.putTask taskId resumed)
    | other => (.error ("Cannot resume task in " ++ taskStatusToProto other ++
        " status (expected Paused)"), store)

/-- The subtask waits or runs. -/
def isOpen : SubtaskStatus → Bool
  | .inProgress => true
  | .pending => true
  | .assigned => true
  | _ => false

def assignedIds (subtasks : List Subtask) : List String :=
  (subtasks.filter fun subtask => subtask.status = .assigned).map Subtask.id

/-- Cancel a task: what waits or runs has failed. -/
def cancelTask (taskId : String) (now : Instant) : Except String Task × TaskStore :=
  match store.tasks.lookup taskId with
  | none => (.error ("Task not found: " ++ taskId), store)
  | some task =>
    match task.status with
    | .inProgress | .planning | .paused =>
      let cancelled := { task with
        status := .failed
        updatedAt := now
        subtasks := task.subtasks.map fun subtask =>
          if isOpen subtask.status then { subtask with status := .failed } else subtask }
      let untracked := (assignedIds task.subtasks).foldl untrackAssigned store
      (.ok cancelled, untracked.putTask taskId cancelled)
    | .failed => (.error "Task is already failed", store)
    | .completed => (.error "Cannot cancel task in Completed state", store)
    | .created => (.error "Cannot cancel task in Created state", store)

def changeSubtask (subtasks : List Subtask) (subtaskId : String) (change : Subtask → Subtask) :
    List Subtask :=
  subtasks.modify (subtasks.findIdx fun subtask => subtask.id = subtaskId) change

def findSubtask (subtasks : List Subtask) (subtaskId : String) : Option Subtask :=
  subtasks.find? fun subtask => subtask.id = subtaskId

/-- Give a failed subtask a new attempt, under compare-and-set. -/
def retrySubtask (taskId nodeId : String) (expectedAttempt : UInt32) (now : Instant) :
    Except String Task × TaskStore :=
  match store.tasks.lookup taskId with
  | none => (.error "Task not found", store)
  | some task =>
    if task.status = .paused || task.status = .completed then
      (.error "Cannot retry a paused or completed task", store)
    else
      match findSubtask task.subtasks nodeId with
      | none => (.error "Subtask not found", store)
      | some node =>
        if node.dispatchRetryCount ≠ expectedAttempt || node.status ≠ .failed then
          (.error "Retry requires the current failed attempt", store)
        else if ¬ node.dependsOn.all (fun dep => task.subtasks.any fun other =>
            other.id = dep && other.status = .completed) then
          (.error "Retry dependencies are not completed", store)
        else if expectedAttempt.toNat + 1 = 2 ^ 32 then (.error "Attempt overflow", store)
        else
          let next := expectedAttempt + 1
          let updated := { task with
            status := .inProgress
            updatedAt := now
            subtasks := changeSubtask task.subtasks nodeId fun node =>
              { node with
                dispatchRetryCount := next
                status := .pending
                result := none
                assignedWorker := none } }
          (.ok updated, ((((store.untrackAssigned nodeId).putTask taskId updated).recordEvent
            (.taskUpdated updated.id "InProgress")).recordEvent
            (.subtaskRetried updated.id nodeId next)))

/-- Cancel single subtasks: those that wait or run have failed. Returns how many. -/
def failSubtasks (taskId : String) (subtaskIds : List String) (now : Instant) : Nat × TaskStore :=
  match store.tasks.lookup taskId with
  | none => (0, store)
  | some task =>
    let hit := task.subtasks.filter fun subtask =>
      subtaskIds.contains subtask.id && isOpen subtask.status
    if hit.length > 0 then
      let failed := { task with
        updatedAt := now
        subtasks := task.subtasks.map fun subtask =>
          if subtaskIds.contains subtask.id && isOpen subtask.status then
            { subtask with status := .failed, assignedWorker := none }
          else subtask }
      (hit.length, ((assignedIds hit).foldl untrackAssigned store).putTask taskId failed)
    else (0, store)

/-- Mirror a swept attempt: the subtask waits again, or has failed if its attempts are
used up. Returns whether it moved. -/
def revertSweptSubtask (taskId subtaskId : String) (rearmed : Bool) (now : Instant) :
    Bool × TaskStore :=
  match store.tasks.lookup taskId with
  | none => (false, store)
  | some task =>
    match findSubtask task.subtasks subtaskId with
    | none => (false, store)
    | some subtask =>
      if subtask.status = .inProgress || subtask.status = .assigned then
        let reverted := { task with
          updatedAt := now
          subtasks := changeSubtask task.subtasks subtaskId fun subtask =>
            { subtask with
              status := if rearmed then .pending else .failed
              assignedWorker := none } }
        (true, (store.untrackAssigned subtaskId).putTask taskId reverted)
      else (false, store)

/-- The pending subtasks of a task under way whose dependencies are completed. -/
def getReadySubtasks (taskId : String) : List Subtask :=
  match store.tasks.lookup taskId with
  | none => []
  | some task =>
    if task.status ≠ .inProgress || store.durabilityFaults.contains taskId then []
    else
      let completed := (task.subtasks.filter fun subtask => subtask.status = .completed).map
        Subtask.id
      task.subtasks.filter fun subtask =>
        subtask.status = .pending && subtask.dependsOn.all fun dep => completed.contains dep

/-- Set the status of a subtask, whatever it was. -/
def updateSubtaskStatus (taskId subtaskId : String) (status : SubtaskStatus) (now : Instant) :
    TaskStore :=
  match store.tasks.lookup taskId with
  | none => store
  | some task =>
    match findSubtask task.subtasks subtaskId with
    | none => store
    | some subtask =>
      let tracked :=
        if status = .assigned then store.trackAssigned subtaskId now
        else if subtask.status = .assigned then store.untrackAssigned subtaskId
        else store
      tracked.putTask taskId { task with
        updatedAt := now
        subtasks := changeSubtask task.subtasks subtaskId fun subtask =>
          { subtask with status := status } }

/-- Count a further attempt of a subtask. Returns the count. -/
def incrementDispatchRetry (taskId subtaskId : String) (now : Instant) :
    Option UInt32 × TaskStore :=
  match store.tasks.lookup taskId with
  | none => (none, store)
  | some task =>
    match findSubtask task.subtasks subtaskId with
    | none => (none, store)
    | some subtask =>
      (some (subtask.dispatchRetryCount + 1), store.putTask taskId { task with
        updatedAt := now
        subtasks := changeSubtask task.subtasks subtaskId fun subtask =>
          { subtask with dispatchRetryCount := subtask.dispatchRetryCount + 1 } })

/-- Milliseconds as a signed 64-bit number. -/
def millisOf (timeout : Nat) : Int := Int.bmod (timeout / 1000000) (2 ^ 64)

def failStale (now : Instant) (swept : List String × TaskStore) (taskId : String) :
    List String × TaskStore :=
  match swept.2.tasks.lookup taskId with
  | none => swept
  | some task =>
    match task.status with
    | .inProgress | .planning =>
      (swept.1 ++ [taskId],
        swept.2.putTask taskId { task with status := .failed, updatedAt := now })
    | _ => swept

/-- Fail every task that is planned or under way if no heartbeat came in time.
Returns their ids. -/
def markStaleTasksFailed (timeout : Nat) (now : Instant) : List String × TaskStore :=
  match store.lastHeartbeat with
  | none => ([], store)
  | some last =>
    if Int.tdiv (now - last) 1000000 < millisOf timeout then ([], store)
    else store.tasks.keys.foldl (failStale now) ([], store)

/-- Drop a task, and what is tracked of its subtasks. -/
def evict (taskId : String) (task : Task) : TaskStore :=
  let untracked := (task.subtasks.map Subtask.id).foldl untrackAssigned store
  { untracked with tasks := untracked.tasks.erase taskId }

/-- Drop the oldest tasks with an outcome while there are too many tasks. Returns how
many. -/
def evictCompletedTasks : Nat × TaskStore :=
  if store.tasks.entries.length ≤ maxRetainedTasks then (0, store)
  else
    let terminal := store.tasks.entries.filter fun entry =>
      entry.2.status = .completed || entry.2.status = .failed
    let evicted := (terminal.insertionSort fun first second =>
      first.2.updatedAt ≤ second.2.updatedAt).take
        (min (store.tasks.entries.length - maxRetainedTasks) terminal.length)
    (evicted.length, evicted.foldl (fun store entry => store.evict entry.1 entry.2) store)

/-- Whether a projection of these subtasks may be applied to the task. -/
def validateNodes (current : Task) : List Subtask → Except String Unit
  | [] => .ok ()
  | incoming :: rest =>
    match findSubtask current.subtasks incoming.id with
    | some node =>
      if node.dispatchRetryCount ≠ incoming.dispatchRetryCount then
        .error "Projection attempt differs from Gateway attempt"
      else if protectedNode node.status && node.status ≠ incoming.status then
        .error "Projection cannot reopen terminal node; use RetrySubtask"
      else validateNodes current rest
    | none =>
      if protectedTask current.status then
        .error "Projection cannot extend a controlled or terminal task"
      else validateNodes current rest

def validateProjection (current : Task) (parsed : TaskStatus) (subtasks : List Subtask) :
    Except String Unit :=
  if protectedTask current.status && current.status ≠ parsed then
    .error "Projection cannot reverse task control state; use a control command"
  else validateNodes current subtasks

/-- What a projection makes of a subtask. -/
def projectSubtask (incoming existing : Subtask) : Subtask :=
  { existing with
    status := incoming.status
    result := incoming.result
    description :=
      if incoming.description = "" then existing.description else incoming.description
    dependsOn := if incoming.dependsOn = [] then existing.dependsOn else incoming.dependsOn
    assignedWorker := incoming.assignedWorker.or existing.assignedWorker }

/-- The subtasks of a task while a projection is applied, and what has changed. -/
structure Projected where
  subtasks : List Subtask
  transitions : List (String × SubtaskStatus) := []
  added : List String := []

/-- Apply what a projection says of one subtask. -/
def Projected.upsert (projected : Projected) (incoming : Subtask) : Projected :=
  match findSubtask projected.subtasks incoming.id with
  | some existing =>
    { projected with
      subtasks := changeSubtask projected.subtasks incoming.id (projectSubtask incoming)
      transitions :=
        if existing.status = incoming.status then projected.transitions
        else projected.transitions ++ [(incoming.id, incoming.status)] }
  | none =>
    { projected with
      subtasks := projected.subtasks ++ [incoming]
      added := projected.added ++ [incoming.id] }

/-- The event of a subtask that has moved to a status. -/
def transitionEvent (taskId subtaskId : String) : SubtaskStatus → Option AgentEvent
  | .inProgress => some (.subtaskStarted taskId subtaskId)
  | .completed => some (.subtaskCompleted taskId subtaskId)
  | .failed => some (.subtaskFailed taskId subtaskId)
  | _ => none

/-- Create the task of a projection if there is none under its id. -/
def createProjected (taskId : String) (parsed : TaskStatus) (subtasks : List Subtask)
    (description projectId : String) (now : Instant) : TaskStore :=
  if (store.tasks.lookup taskId).isNone && description ≠ "" then
    (store.recordEvent (.taskCreated taskId description)).putTask taskId {
      id := taskId
      description := description
      projectId := projectId
      status := parsed
      subtasks := subtasks
      createdAt := now
      updatedAt := now }
  else store

/-- Apply the projection of a coordinator, all of it or nothing. -/
def updateTask (taskId status : String) (subtasks : List Subtask) (description projectId : String)
    (now : Instant) : Except String (Task × List AgentEvent) × TaskStore :=
  match protoStatusToTaskStatus status with
  | .error error => (.error error, store)
  | .ok parsed =>
    let valid := match store.tasks.lookup taskId with
      | some current => validateProjection current parsed subtasks
      | none => .ok ()
    match valid with
    | .error error => (.error error, store)
    | .ok _ =>
      let store := store.createProjected taskId parsed subtasks description projectId now
      match store.tasks.lookup taskId with
      | none => (.error ("Task not found: " ++ taskId), store)
      | some task =>
        let projected := subtasks.foldl Projected.upsert { subtasks := task.subtasks }
        let updated := { task with
          status := parsed
          updatedAt := now
          subtasks := projected.subtasks }
        let events := AgentEvent.taskUpdated taskId status ::
          (projected.transitions.filterMap fun (subtaskId, status) =>
            transitionEvent taskId subtaskId status) ++
          projected.added.map fun subtaskId => .subtaskAssigned taskId subtaskId
        (.ok (updated, events), events.foldl recordEvent (store.putTask taskId updated))

/-- A complete snapshot is older than a control action or an attempt of the store. -/
def fullSnapshotIsStale (update : NatsTaskUpdate) : Bool :=
  !update.isPartial &&
    match store.tasks.lookup update.taskId with
    | none => false
    | some task =>
      (protectedTask task.status && taskStatusFromStr update.status ≠ some task.status) ||
      update.subtasks.any fun incoming =>
        match findSubtask task.subtasks incoming.subtaskId with
        | none => false
        | some node =>
          (protectedNode node.status && subtaskStatusFromStr incoming.status ≠ some node.status) ||
          match incoming.attemptId with
          | some attempt => attempt ≠ node.dispatchRetryCount.toUInt64
          | none => node.dispatchRetryCount > 0

/-- What becomes of a report of a worker. -/
inductive Fence where
  | passes
  | ignored
  | stale (received current : UInt64)
  deriving DecidableEq

/-- Reports of earlier attempts, and those that contradict an outcome, are not applied. -/
def fence (subtask : Subtask) (update : NatsSubtaskUpdate) : Fence :=
  let current := subtask.dispatchRetryCount.toUInt64
  let sameOrOldAttempt := match update.attemptId with
    | some attempt => decide (attempt ≤ current)
    | none => true
  if protectedNode subtask.status && sameOrOldAttempt &&
      subtaskStatusFromStr update.status ≠ some subtask.status then .ignored
  else
    match update.attemptId with
    | none => if subtask.dispatchRetryCount > 0 then .ignored else .passes
    | some received => if received ≠ current then .stale received current else .passes

def reportSubtask (isPartial : Bool) (update : NatsSubtaskUpdate) (now : Instant)
    (subtask : Subtask) : Subtask :=
  let status := subtaskStatusFromStr update.status
  let reported := { subtask with
    status := status.getD subtask.status
    assignedWorker := update.assignedWorker.or subtask.assignedWorker
    description := update.description.getD subtask.description
    dependsOn := update.dependsOn.getD subtask.dependsOn }
  let configured := if isPartial then reported else update.execution.applyTo reported
  match update.result with
  | none => configured
  | some summary =>
    { configured with
      result := some {
        subtaskId := subtask.id
        workerId := reported.assignedWorker
        summary := summary
        success := status ≠ some .failed
        completedAt := now
        result := some summary
        usage := update.usage
        review := none } }

/-- A subtask that is reported for the first time. -/
def newSubtask (taskId : String) (isPartial : Bool) (update : NatsSubtaskUpdate) (now : Instant) :
    Subtask :=
  let added := natsSubtaskToDomain taskId update now
  if isPartial then
    { added with
      agentConfigJson := none
      requiredCapabilities := []
      fileConstraints := []
      expectedOutput := ""
      steps := [] }
  else added

/-- The subtasks of a task while a report is applied. -/
structure Reported where
  subtasks : List Subtask
  assignedTimes : AList fun _ : String => Instant
  staleRejects : List (String × UInt64 × UInt64) := []

def moveAssigned (times : AList fun _ : String => Instant) (subtaskId : String)
    (previous : SubtaskStatus) (reported : Option SubtaskStatus) (now : Instant) :
    AList fun _ : String => Instant :=
  match reported with
  | none => times
  | some status =>
    if previous = .assigned && status ≠ .assigned then times.erase subtaskId
    else if status = .assigned && previous ≠ .assigned then times.insert subtaskId now
    else times

/-- Apply what a report says of one subtask. -/
def Reported.upsert (taskId : String) (isPartial : Bool) (now : Instant) (reported : Reported)
    (update : NatsSubtaskUpdate) : Reported :=
  match findSubtask reported.subtasks update.subtaskId with
  | some subtask =>
    match if isPartial then fence subtask update else .passes with
    | .ignored => reported
    | .stale received current =>
      { reported with
        staleRejects := reported.staleRejects ++ [(subtask.id, received, current)] }
    | .passes =>
      { reported with
        subtasks := changeSubtask reported.subtasks update.subtaskId
          (reportSubtask isPartial update now)
        assignedTimes := moveAssigned reported.assignedTimes subtask.id subtask.status
          (subtaskStatusFromStr update.status) now }
  | none =>
    let added := newSubtask taskId isPartial update now
    { reported with
      subtasks := reported.subtasks ++ [added]
      assignedTimes :=
        if added.status = .assigned then reported.assignedTimes.insert update.subtaskId now
        else reported.assignedTimes }

/-- Rebuild an unknown task from a complete snapshot with its description and project. -/
def rehydrate (update : NatsTaskUpdate) (description projectId : Option String) (now : Instant) :
    Option TaskStore :=
  if (store.tasks.lookup update.taskId).isSome then some store
  else if update.isPartial then none
  else
    match description, projectId with
    | some description, some projectId =>
      if description = "" then none
      else
        let task := {
          id := update.taskId
          description := description
          projectId := projectId
          status := (taskStatusFromStr update.status).getD .created
          subtasks := update.subtasks.map fun subtask =>
            natsSubtaskToDomain update.taskId subtask now
          createdAt := now
          updatedAt := now }
        let recorded := store.recordEvent (.taskCreated task.id task.description)
        let tracked := (assignedIds task.subtasks).foldl (fun store subtaskId =>
          store.trackAssigned subtaskId now) recorded
        some (tracked.putTask update.taskId task)
    | _, _ => none

/-- The outcome of a task under way all of whose subtasks have one. -/
def deriveStatus (status : TaskStatus) (subtasks : List Subtask) : TaskStatus :=
  if (status = .inProgress || status = .planning) && subtasks ≠ [] &&
      subtasks.all fun subtask => subtask.status = .completed || subtask.status = .failed ||
        subtask.status = .conflicted then
    if subtasks.all fun subtask => subtask.status = .completed then .completed else .failed
  else status

/-- The status of a task after a report: only complete snapshots move it. -/
def reportedStatus (update : NatsTaskUpdate) (status : TaskStatus) (subtasks : List Subtask) :
    TaskStatus :=
  if update.isPartial then status
  else
    match taskStatusFromStr update.status with
    | some reported => deriveStatus reported subtasks
    | none => status

/-- Apply a report of a coordinator or worker. -/
def applyUpdateWithMetadata (update : NatsTaskUpdate) (description projectId : Option String)
    (now : Instant) : TaskStore :=
  if store.fullSnapshotIsStale update then store
  else
    match store.rehydrate update description projectId now with
    | none => store
    | some store =>
      match store.tasks.lookup update.taskId with
      | none => store
      | some task =>
        let reported := update.subtasks.foldl (Reported.upsert task.id update.isPartial now)
          { subtasks := task.subtasks, assignedTimes := store.assignedSubtaskTimes }
        let updated := { task with
          status := reportedStatus update task.status reported.subtasks
          updatedAt := now
          subtasks := reported.subtasks }
        let stored := { store.putTask update.taskId updated with
          assignedSubtaskTimes := reported.assignedTimes }
        let evicted := stored.evictCompletedTasks.2
        let counted := { evicted with
          staleDispatchDropped := evicted.staleDispatchDropped + reported.staleRejects.length }
        (reported.staleRejects.map fun _ =>
          AgentEvent.taskUpdated updated.id "stale_result_rejected").foldl recordEvent counted

def applyUpdate (update : NatsTaskUpdate) (now : Instant) : TaskStore :=
  store.applyUpdateWithMetadata update none none now

/-- How long a message id is remembered, in nanoseconds. -/
def dedupTtl : Int := 300 * 1000000000

/-- How many message ids are kept before those remembered too long are dropped. -/
def dedupMaxEntries : Nat := 10000

def purgeExpiredDedupEntries (now : Instant) : TaskStore :=
  { store with
    seenMessages := ⟨store.seenMessages.entries.filter fun entry => now - entry.2 < dedupTtl,
      (store.seenMessages.nodupKeys.sublist List.filter_sublist)⟩ }

/-- Whether a message was seen before; it is now. -/
def checkAndRecordMessageId (messageId : Option String) (now : Instant) : Bool × TaskStore :=
  match messageId with
  | none => (false, store)
  | some messageId =>
    if messageId = "" then (false, store)
    else if (store.seenMessages.lookup messageId).isSome then (true, store)
    else
      let recorded := { store with seenMessages := store.seenMessages.insert messageId now }
      if recorded.seenMessages.entries.length > dedupMaxEntries then
        (false, recorded.purgeExpiredDedupEntries now)
      else (false, recorded)

/-- Apply one snapshot of a recovery response. -/
def applyEnvelope (now : Instant) (store : TaskStore) (envelope : NatsTaskUpdateEnvelope) :
    TaskStore :=
  if envelope.update.isPartial then store
  else
    match store.checkAndRecordMessageId envelope.update.messageId now with
    | (true, store) => store
    | (false, store) =>
      store.applyUpdateWithMetadata envelope.update envelope.description envelope.projectId now

/-- Apply a recovery response of the coordinator. Returns how many tasks were rebuilt. -/
def applyTaskSnapshotResponse (response : List NatsTaskUpdateEnvelope) (now : Instant) :
    Nat × TaskStore :=
  response.foldl (fun applied envelope =>
    let store := applyEnvelope now applied.2 envelope
    -- an envelope that is skipped rebuilds nothing
    let rebuilt := (applied.2.tasks.lookup envelope.update.taskId).isNone &&
      (store.tasks.lookup envelope.update.taskId).isSome
    (if rebuilt then applied.1 + 1 else applied.1, store)) (0, store)

end TaskStore

/-- An operation on the task store that projects, reports, controls or sweeps. -/
inductive TaskOperation where
  | applyUpdate (update : NatsTaskUpdate) (description projectId : Option String)
  | updateTask (taskId status : String) (subtasks : List Subtask) (description projectId : String)
  | pauseTask (taskId : String)
  | resumeTask (taskId : String)
  | cancelTask (taskId : String)
  | failSubtasks (taskId : String) (subtaskIds : List String)
  | revertSweptSubtask (taskId subtaskId : String) (rearmed : Bool)
  | markStaleTasksFailed (timeout : Nat)
  | retrySubtask (taskId nodeId : String) (expectedAttempt : UInt32)

namespace TaskOperation

def apply (store : TaskStore) (now : Instant) : TaskOperation → TaskStore
  | applyUpdate update description projectId =>
    store.applyUpdateWithMetadata update description projectId now
  | updateTask taskId status subtasks description projectId =>
    (store.updateTask taskId status subtasks description projectId now).2
  | pauseTask taskId => (store.pauseTask taskId now).2
  | resumeTask taskId => (store.resumeTask taskId now).2
  | cancelTask taskId => (store.cancelTask taskId now).2
  | failSubtasks taskId subtaskIds => (store.failSubtasks taskId subtaskIds now).2
  | revertSweptSubtask taskId subtaskId rearmed =>
    (store.revertSweptSubtask taskId subtaskId rearmed now).2
  | markStaleTasksFailed timeout => (store.markStaleTasksFailed timeout now).2
  | retrySubtask taskId nodeId expectedAttempt =>
    (store.retrySubtask taskId nodeId expectedAttempt now).2

def retries : TaskOperation → Bool
  | retrySubtask _ _ _ => true
  | _ => false

/-- The operation is a projection or a report. -/
def projects : TaskOperation → Bool
  | applyUpdate _ _ _ => true
  | updateTask _ _ _ _ _ => true
  | _ => false

end TaskOperation

end UltimateCoders.Gateway
