import UltimateCoders.Gateway.Protection

/-! # Changes of the task store

What every change of the store hands to the task backend, and which events it
records.
-/

namespace UltimateCoders.Gateway

open Governance (Instant)
open UltimateCoders.Graph (TaskStatus SubtaskStatus)
open TaskStore

/-- The task of a report after it was applied, the attempts that are stale, and the store
before outcomes are evicted; nothing if the report is ignored. -/
def TaskStore.reported (store : TaskStore) (update : NatsTaskUpdate)
    (description projectId : Option String) (now : Instant) :
    Option (Task × Reported × TaskStore) :=
  if store.fullSnapshotIsStale update then none
  else
    (store.rehydrate update description projectId now).bind fun store =>
      (store.tasks.lookup update.taskId).map fun task =>
        let reported := update.subtasks.foldl (Reported.upsert task.id update.isPartial now)
          { subtasks := task.subtasks, assignedTimes := store.assignedSubtaskTimes }
        let updated := { task with
          status := reportedStatus update task.status reported.subtasks
          updatedAt := now
          subtasks := reported.subtasks }
        (updated, reported, { store.putTask update.taskId updated with
          assignedSubtaskTimes := reported.assignedTimes })

def TaskStore.submitTaskPending (store : TaskStore) (taskId description projectId : String)
    (now : Instant) : TaskStore :=
  (store.recordEvent (.taskCreated taskId description)).putTask taskId {
    id := taskId
    description := description
    projectId := projectId
    status := .planning
    subtasks := []
    createdAt := now
    updatedAt := now }

def TaskStore.submitTask (store : TaskStore) (taskId subtaskId description projectId : String)
    (now : Instant) : TaskStore :=
  ((store.recordEvent (.taskCreated taskId description)).recordEvent
    (.subtaskAssigned taskId subtaskId)).putTask taskId {
      id := taskId
      description := description
      projectId := projectId
      status := .inProgress
      subtasks := [{
        id := subtaskId
        parentId := taskId
        description := description
        status := .pending
        assignedWorker := none
        dependsOn := []
        fileConstraints := []
        expectedOutput := ""
        result := none
        dispatchMode := .preferRemote
        effectClass := .requiresWorker
        dispatchRetryCount := 0
        requiredCapabilities := []
        agentConfigJson := none
        steps := []
        retryCount := 0 }]
      createdAt := now
      updatedAt := now }

def TaskStore.setTaskStatus (store : TaskStore) (taskId : String) (status : TaskStatus)
    (now : Instant) : TaskStore :=
  match store.tasks.lookup taskId with
  | none => store
  | some task => store.putTask taskId { task with status := status, updatedAt := now }

/-- A change of the store under its lock. -/
inductive Mutation where
  | operate (operation : TaskOperation)
  | submitTaskPending (taskId description projectId : String)
  | submitTask (taskId subtaskId description projectId : String)
  | updateSubtaskStatus (taskId subtaskId : String) (status : SubtaskStatus)
  | incrementDispatchRetry (taskId subtaskId : String)
  | setTaskStatus (taskId : String) (status : TaskStatus)
  | recordEvent (event : AgentEvent)
  | updateLastHeartbeat
  /-- Faults and the messages seen are no part of a task. -/
  | keepBooks (durabilityFaults : List String) (seenMessages : AList fun _ : String => Instant)

namespace Mutation

def apply (store : TaskStore) (now : Instant) : Mutation → TaskStore
  | operate operation => operation.apply store now
  | submitTaskPending taskId description projectId =>
    store.submitTaskPending taskId description projectId now
  | submitTask taskId subtaskId description projectId =>
    store.submitTask taskId subtaskId description projectId now
  | updateSubtaskStatus taskId subtaskId status =>
    store.updateSubtaskStatus taskId subtaskId status now
  | incrementDispatchRetry taskId subtaskId => (store.incrementDispatchRetry taskId subtaskId now).2
  | setTaskStatus taskId status => store.setTaskStatus taskId status now
  | recordEvent event => store.recordEvent event
  | updateLastHeartbeat => { store with lastHeartbeat := some now }
  | keepBooks durabilityFaults seenMessages =>
    { store with durabilityFaults := durabilityFaults, seenMessages := seenMessages }

/-- The store as it is when the change hands tasks to the backend: a report does so for a
task that it may have evicted. -/
def stage (store : TaskStore) (now : Instant) : Mutation → TaskStore
  | operate (.applyUpdate update description projectId) =>
    match store.reported update description projectId now with
    | none => store
    | some (_, _, stored) => stored
  | mutation => mutation.apply store now

/-- The tasks that a change hands to the backend. -/
def touched (store : TaskStore) (now : Instant) : Mutation → List String
  | operate (.applyUpdate update description projectId) =>
    if (store.reported update description projectId now).isSome then [update.taskId] else []
  | operate (.updateTask taskId status subtasks description projectId) =>
    if (store.updateTask taskId status subtasks description projectId now).1.isOk then [taskId]
    else []
  | operate (.pauseTask taskId) => if (store.pauseTask taskId now).1.isOk then [taskId] else []
  | operate (.resumeTask taskId) => if (store.resumeTask taskId now).1.isOk then [taskId] else []
  | operate (.cancelTask taskId) => if (store.cancelTask taskId now).1.isOk then [taskId] else []
  | operate (.failSubtasks taskId subtaskIds) =>
    if (store.failSubtasks taskId subtaskIds now).1 > 0 then [taskId] else []
  | operate (.revertSweptSubtask taskId subtaskId rearmed) =>
    if (store.revertSweptSubtask taskId subtaskId rearmed now).1 then [taskId] else []
  | operate (.markStaleTasksFailed timeout) => (store.markStaleTasksFailed timeout now).1
  | operate (.retrySubtask taskId nodeId expectedAttempt) =>
    if (store.retrySubtask taskId nodeId expectedAttempt now).1.isOk then [taskId] else []
  | submitTaskPending taskId _ _ => [taskId]
  | submitTask taskId _ _ _ => [taskId]
  | updateSubtaskStatus taskId subtaskId _ =>
    match store.tasks.lookup taskId with
    | none => []
    | some task => if (findSubtask task.subtasks subtaskId).isSome then [taskId] else []
  | incrementDispatchRetry taskId subtaskId =>
    if (store.incrementDispatchRetry taskId subtaskId now).1.isSome then [taskId] else []
  | setTaskStatus taskId _ => if (store.tasks.lookup taskId).isSome then [taskId] else []
  | recordEvent _ => []
  | updateLastHeartbeat => []
  | keepBooks _ _ => []

/-- The versions that a change hands to the backend. -/
def persisted (store : TaskStore) (now : Instant) (mutation : Mutation) : List Task :=
  (mutation.touched store now).filterMap (mutation.stage store now).tasks.lookup

def recorded (store : TaskStore) (now : Instant) : Mutation → List AgentEvent
  | operate (.applyUpdate update description projectId) =>
    match store.reported update description projectId now with
    | none => []
    | some (updated, reported, _) =>
      (if (store.tasks.lookup update.taskId).isNone then
        [.taskCreated update.taskId (description.getD "")] else []) ++
      reported.staleRejects.map fun _ => .taskUpdated updated.id "stale_result_rejected"
  | operate (.updateTask taskId status subtasks description projectId) =>
    match (store.updateTask taskId status subtasks description projectId now).1 with
    | .error _ => []
    | .ok (_, events) =>
      (if (store.tasks.lookup taskId).isNone then [.taskCreated taskId description] else []) ++
      events
  | operate (.retrySubtask taskId nodeId expectedAttempt) =>
    match (store.retrySubtask taskId nodeId expectedAttempt now).1 with
    | .error _ => []
    | .ok updated =>
      [.taskUpdated updated.id "InProgress",
        .subtaskRetried updated.id nodeId (expectedAttempt + 1)]
  | operate _ => []
  | submitTaskPending taskId description _ => [.taskCreated taskId description]
  | submitTask taskId subtaskId description _ =>
    [.taskCreated taskId description, .subtaskAssigned taskId subtaskId]
  | updateSubtaskStatus _ _ _ => []
  | incrementDispatchRetry _ _ => []
  | setTaskStatus _ _ => []
  | recordEvent event => [event]
  | updateLastHeartbeat => []
  | keepBooks _ _ => []

end Mutation

variable {store stored : TaskStore} {update : NatsTaskUpdate} {description projectId : Option String}
  {now : Instant} {id taskId : String} {task : Task} {mutation : Mutation}

theorem isSome_of_rehydrate
    (rehydrated : store.rehydrate update description projectId now = some stored) :
    (stored.tasks.lookup update.taskId).isSome := by
  rcases rehydrate_cases rehydrated with ⟨rfl, known⟩ | ⟨-, fresh, -, -, rfl⟩
  · exact known
  · rw [putTask, AList.lookup_insert]
    rfl

theorem applyUpdateWithMetadata_eq (store : TaskStore) (update : NatsTaskUpdate)
    (description projectId : Option String) (now : Instant) :
    store.applyUpdateWithMetadata update description projectId now =
      match store.reported update description projectId now with
      | none => store
      | some (updated, reported, stored) =>
        (reported.staleRejects.map fun _ =>
          AgentEvent.taskUpdated updated.id "stale_result_rejected").foldl recordEvent
            { stored.evictCompletedTasks.2 with
              staleDispatchDropped :=
                stored.evictCompletedTasks.2.staleDispatchDropped + reported.staleRejects.length } := by
  unfold applyUpdateWithMetadata TaskStore.reported
  split
  · rfl
  · cases rehydrated : store.rehydrate update description projectId now with
    | none => rfl
    | some stored =>
      obtain ⟨task, found⟩ := Option.isSome_iff_exists.mp (isSome_of_rehydrate rehydrated)
      simp only [Option.bind_some, found, Option.map_some]

def TaskStore.Keyed (store : TaskStore) : Prop :=
  ∀ id task, store.tasks.lookup id = some task → task.id = id

theorem keyed_congr (keyed : store.Keyed) (same : stored.tasks = store.tasks) : stored.Keyed := by
  intro id task found
  rw [same] at found
  exact keyed id task found

theorem keyed_putTask (keyed : store.Keyed) (own : task.id = taskId) :
    (store.putTask taskId task).Keyed := by
  intro id held found
  by_cases here : id = taskId
  · subst here
    rw [putTask, AList.lookup_insert] at found
    rw [← Option.some.inj found, own]
  · rw [putTask, AList.lookup_insert_ne here] at found
    exact keyed id held found

theorem keyed_recordEvent (keyed : store.Keyed) (event : AgentEvent) :
    (store.recordEvent event).Keyed :=
  keyed_congr keyed (recordEvent_tasks store event)

theorem Edits.keyed {relation : Subtask → Subtask → Prop} (edits : Edits relation store stored)
    (keyed : store.Keyed) : stored.Keyed := by
  intro id new found
  obtain ⟨old, foundOld, sameId, -⟩ := edits id new found
  exact sameId.trans (keyed id old foundOld)

section

variable (keyed : store.Keyed)

include keyed

theorem keyed_updateTask {status description projectId : String} {subtasks : List Subtask} :
    (store.updateTask taskId status subtasks description projectId now).2.Keyed := by
  rcases updateTask_tasks store taskId status subtasks description projectId now with
    same | ⟨-, task, parsed, source, written⟩
  · exact keyed_congr keyed same
  · refine keyed_congr (keyed_putTask keyed ?_) written
    exact source.elim (keyed taskId task) fun brought => brought.2.1

theorem keyed_rehydrate
    (rehydrated : store.rehydrate update description projectId now = some stored) :
    stored.Keyed := by
  rcases rehydrate_cases rehydrated with ⟨rfl, -⟩ | ⟨-, fresh, own, -, rfl⟩
  · exact keyed
  · refine keyed_putTask (keyed_congr keyed ?_) own
    rw [tasks_trackAll, recordEvent_tasks]

theorem keyed_reported {reported : Reported}
    (applied : store.reported update description projectId now = some (task, reported, stored)) :
    stored.Keyed := by
  unfold TaskStore.reported at applied
  split at applied
  · cases applied
  · obtain ⟨rebuilt, rehydrated, found⟩ := Option.bind_eq_some_iff.mp applied
    obtain ⟨held, lookedUp, same⟩ := Option.map_eq_some_iff.mp found
    have known := keyed_rehydrate keyed rehydrated
    rw [← (Prod.mk.inj (Prod.mk.inj same).2).2]
    refine keyed_congr (keyed_putTask known ?_) rfl
    exact known update.taskId held lookedUp

theorem keyed_setTaskStatus {status : TaskStatus} :
    (store.setTaskStatus taskId status now).Keyed := by
  unfold TaskStore.setTaskStatus
  split
  · exact keyed
  · rename_i task found
    exact keyed_putTask keyed (keyed taskId task found)

theorem Mutation.keyed_stage : (mutation.stage store now).Keyed := by
  cases mutation with
  | operate operation =>
    cases operation with
    | applyUpdate update description projectId =>
      simp only [stage]
      split
      · exact keyed
      · rename_i applied
        exact keyed_reported keyed applied
    | updateTask => exact keyed_updateTask keyed
    | _ => exact (edits_apply rfl).keyed keyed
  | submitTaskPending => exact keyed_putTask (keyed_recordEvent keyed _) rfl
  | submitTask => exact keyed_putTask (keyed_recordEvent (keyed_recordEvent keyed _) _) rfl
  | updateSubtaskStatus => exact edits_updateSubtaskStatus.keyed keyed
  | incrementDispatchRetry => exact edits_incrementDispatchRetry.keyed keyed
  | setTaskStatus => exact keyed_setTaskStatus keyed
  | recordEvent => exact keyed_recordEvent keyed _
  | updateLastHeartbeat | keepBooks => exact keyed_congr keyed rfl

end

theorem Mutation.stage_of_apply
    (held : (mutation.apply store now).tasks.lookup id = some task) :
    (mutation.stage store now).tasks.lookup id = some task := by
  cases mutation with
  | operate operation =>
    cases operation with
    | applyUpdate update description projectId =>
      simp only [apply, TaskOperation.apply, applyUpdateWithMetadata_eq] at held
      simp only [stage]
      split at held
      · exact held
      · rw [tasks_recordEvents] at held
        exact lookup_of_evictCompletedTasks held
    | _ => exact held
  | _ => exact held

theorem Mutation.keyed_apply (keyed : store.Keyed) : (mutation.apply store now).Keyed :=
  fun id task held => keyed_stage keyed id task (stage_of_apply held)

theorem keyed_empty : TaskStore.Keyed { sampleStore [] with tasks := ∅ } := by
  intro id task held
  rw [AList.lookup_empty] at held
  cases held

theorem keyed_sampleStore (subtasks : List Subtask) : (sampleStore subtasks).Keyed := by
  have own : (sampleTask subtasks 0).id = "task-1" := rfl
  exact keyed_congr (keyed_putTask keyed_empty own) (AList.insert_empty _ _).symm

end UltimateCoders.Gateway
