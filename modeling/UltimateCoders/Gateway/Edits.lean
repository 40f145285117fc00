import UltimateCoders.Gateway.TaskStore
import UltimateCoders.Search.Entries

/-! # What the operations of the store edit

Control operations and sweeps bring no task and no subtask, and leave both at their places. What a
subtask is to do stays, and most of them only fail what waits or runs. A projection writes one task,
and so does a report, which may bring the task first.
-/

namespace UltimateCoders.Gateway

open Governance (Instant)
open UltimateCoders.Graph (TaskStatus SubtaskStatus)
open TaskStore List Search

/-- The status, the worker, the attempt and the result of a subtask may have changed. -/
def Reworked (old new : Subtask) : Prop :=
  ∃ status worker attempt result, new = { old with
    status := status
    assignedWorker := worker
    dispatchRetryCount := attempt
    result := result }

/-- A subtask is as it was, up to its worker, or it was open and has failed. -/
structure Controlled (old new : Subtask) : Prop where
  fields : ∃ status worker, new = { old with status := status, assignedWorker := worker }
  ended : new.status = old.status ∨ isOpen old.status = true ∧ new.status = .failed

/-- Every stored task was stored before, under its id and with subtasks in this relation. -/
def Edits (relation : Subtask → Subtask → Prop) (store stored : TaskStore) : Prop :=
  ∀ id new, stored.tasks.lookup id = some new → ∃ old, store.tasks.lookup id = some old ∧
    new.id = old.id ∧ Forall₂ relation old.subtasks new.subtasks

variable {relation weaker : Subtask → Subtask → Prop} {store stored next : TaskStore}
  {taskId subtaskId : String} {task updated : Task} {subtasks : List Subtask}
  {change : Subtask → Subtask} {now : Instant}

instance : Std.Refl Reworked := ⟨fun _ => ⟨_, _, _, _, rfl⟩⟩

instance : Std.Refl Controlled := ⟨fun _ => ⟨⟨_, _, rfl⟩, .inl rfl⟩⟩

theorem Controlled.reworked {old new : Subtask} (controlled : Controlled old new) :
    Reworked old new := by
  obtain ⟨⟨status, worker, rfl⟩, -⟩ := controlled
  exact ⟨_, _, _, _, rfl⟩

theorem Controlled.fail {subtask new : Subtask} (unended : isOpen subtask.status = true)
    (fields : ∃ worker, new = { subtask with status := .failed, assignedWorker := worker }) :
    Controlled subtask new := by
  obtain ⟨worker, rfl⟩ := fields
  exact ⟨⟨.failed, worker, rfl⟩, .inr ⟨unended, rfl⟩⟩

theorem Edits.refl [Std.Refl relation] (store : TaskStore) : Edits relation store store :=
  fun _ new found => ⟨new, found, rfl, forall₂_refl _⟩

theorem Edits.of_tasks [Std.Refl relation] (same : stored.tasks = store.tasks) :
    Edits relation store stored :=
  fun id new found => Edits.refl store id new (same ▸ found)

theorem Edits.mono (implied : ∀ old new, relation old new → weaker old new)
    (edits : Edits relation store stored) : Edits weaker store stored := by
  intro id new found
  obtain ⟨old, foundOld, sameId, related⟩ := edits id new found
  exact ⟨old, foundOld, sameId, related.imp implied⟩

theorem Edits.controlled (edits : Edits Eq store stored) : Edits Controlled store stored := by
  refine edits.mono ?_
  rintro old _ rfl
  exact refl_of Controlled old

theorem Edits.putTask [Std.Refl relation] (same : stored.tasks = store.tasks)
    (found : store.tasks.lookup taskId = some task) (sameId : updated.id = task.id)
    (related : Forall₂ relation task.subtasks updated.subtasks) :
    Edits relation store (stored.putTask taskId updated) := by
  intro id new foundNew
  by_cases here : id = taskId
  · subst here
    rw [TaskStore.putTask, AList.lookup_insert, Option.some.injEq] at foundNew
    exact ⟨task, found, foundNew ▸ sameId, foundNew ▸ related⟩
  · rw [TaskStore.putTask, AList.lookup_insert_ne here, same] at foundNew
    exact Edits.refl store id new foundNew

theorem Edits.trans
    (transitive : ∀ old middle new, relation old middle → relation middle new → relation old new)
    (first : Edits relation store stored) (second : Edits relation stored next) :
    Edits relation store next := by
  intro id new found
  obtain ⟨middle, foundMiddle, sameId, related⟩ := second id new found
  obtain ⟨old, foundOld, sameIdMiddle, relatedMiddle⟩ := first id middle foundMiddle
  exact ⟨old, foundOld, sameId.trans sameIdMiddle, forall₂_trans transitive relatedMiddle related⟩

theorem Edits.then (first : Edits Reworked store stored) (second : Edits Reworked stored next) :
    Edits Reworked store next := by
  refine Edits.trans ?_ first second
  rintro old _ _ ⟨_, _, _, _, rfl⟩ ⟨_, _, _, _, rfl⟩
  exact ⟨_, _, _, _, rfl⟩

theorem findSubtask_of_getElem? {subtask : Subtask}
    (found : subtasks[subtasks.findIdx fun subtask => subtask.id = subtaskId]? = some subtask) :
    findSubtask subtasks subtaskId = some subtask := by
  rw [findSubtask, find?_eq_getElem?_findIdx]
  exact found

theorem mem_of_findSubtask {subtask : Subtask} (found : findSubtask subtasks subtaskId =
        some subtask) :
    subtask ∈ subtasks ∧ subtask.id = subtaskId := by
  unfold findSubtask at found
  exact ⟨mem_of_find?_eq_some found, by simpa using find?_some found⟩

theorem mem_changeSubtask {subtask : Subtask}
    (member : subtask ∈ changeSubtask subtasks subtaskId change) :
    subtask ∈ subtasks ∨
      ∃ old, findSubtask subtasks subtaskId = some old ∧ subtask = change old := by
  obtain ⟨position, found⟩ := mem_iff_getElem?.mp member
  rw [changeSubtask, getElem?_modify] at found
  split at found
  · rename_i here
    simp only [Option.map_eq_map, Option.map_eq_some_iff] at found
    obtain ⟨old, stored, rfl⟩ := found
    rw [← here] at stored
    exact .inr ⟨old, findSubtask_of_getElem? stored, rfl⟩
  · simp only [Option.map_eq_map, Option.map_id'] at found
    exact .inl (mem_of_getElem? found)

theorem forall₂_map (related : ∀ subtask ∈ subtasks, relation subtask (change subtask)) :
    Forall₂ relation subtasks (subtasks.map change) :=
  forall₂_map_right_iff.mpr (forall₂_same.mpr related)

theorem forall₂_changeSubtask [Std.Refl relation] (related :
        ∀ subtask, relation subtask (change subtask)) :
    Forall₂ relation subtasks (changeSubtask subtasks subtaskId change) := by
  refine forall₂_iff_get.mpr ⟨(length_modify _ _ _).symm, fun position _ _ => ?_⟩
  simp only [changeSubtask, get_eq_getElem, getElem_modify]
  split
  · exact related _
  · exact refl_of relation _

section Tasks

theorem foldl_tasks {Item : Type} (step : TaskStore → Item → TaskStore)
    (same : ∀ store item, (step store item).tasks = store.tasks) (items : List Item)
    (store : TaskStore) : (items.foldl step store).tasks = store.tasks := by
  induction items generalizing store with
  | nil => rfl
  | cons item rest ih => rw [foldl_cons, ih, same]

@[simp] theorem tasks_recordEvents (events : List AgentEvent) (store : TaskStore) :
    (events.foldl recordEvent store).tasks = store.tasks :=
  foldl_tasks recordEvent recordEvent_tasks events store

@[simp] theorem tasks_untrackAll (subtaskIds : List String) (store : TaskStore) :
    (subtaskIds.foldl untrackAssigned store).tasks = store.tasks :=
  foldl_tasks untrackAssigned (fun _ _ => rfl) subtaskIds store

@[simp] theorem tasks_trackAll (subtaskIds : List String) (now : Instant) (store : TaskStore) :
    (subtaskIds.foldl (fun store subtaskId => store.trackAssigned subtaskId now) store).tasks =
      store.tasks :=
  foldl_tasks (fun store subtaskId => store.trackAssigned subtaskId now) (fun _ _ => rfl) subtaskIds
    store

end Tasks

/-- A failed subtask under its next attempt. -/
def retried (next : UInt32) (node : Subtask) : Subtask :=
  { node with
    dispatchRetryCount := next
    status := .pending
    result := none
    assignedWorker := none }

def Task.retry (task : Task) (nodeId : String) (next : UInt32) (now : Instant) : Task :=
  { task with
    status := .inProgress
    updatedAt := now
    subtasks := changeSubtask task.subtasks nodeId (retried next) }

theorem Task.subtasks_retry {next : UInt32} : (task.retry subtaskId next now).subtasks =
    changeSubtask task.subtasks subtaskId (retried next) := rfl

/-- What a retry that is accepted has found, and what it leaves. -/
structure RetryAccepted (store : TaskStore) (taskId nodeId : String) (attempt : UInt32)
    (now : Instant) (task : Task) (node : Subtask) : Prop where
  found : store.tasks.lookup taskId = some task
  foundNode : findSubtask task.subtasks nodeId = some node
  current : node.dispatchRetryCount = attempt
  failed : node.status = .failed
  depends : node.dependsOn.all (fun dep => task.subtasks.any fun other =>
    other.id = dep && other.status = .completed) = true
  fits : attempt.toNat + 1 ≠ 2 ^ 32
  result : (store.retrySubtask taskId nodeId attempt now).1 =
    .ok (task.retry nodeId (attempt + 1) now)
  tasks : (store.retrySubtask taskId nodeId attempt now).2.tasks =
    (store.putTask taskId (task.retry nodeId (attempt + 1) now)).tasks
  times : (store.retrySubtask taskId nodeId attempt now).2.assignedSubtaskTimes =
    store.assignedSubtaskTimes.erase nodeId
  faults : (store.retrySubtask taskId nodeId attempt now).2.durabilityFaults =
    store.durabilityFaults

/-- A retry is refused and leaves the store, or takes up the failed subtask it names. -/
theorem retrySubtask_cases (store : TaskStore) (taskId nodeId : String) (attempt : UInt32)
    (now : Instant) :
    ((store.retrySubtask taskId nodeId attempt now).1.isOk = false ∧
      (store.retrySubtask taskId nodeId attempt now).2 = store) ∨
    ∃ task node, RetryAccepted store taskId nodeId attempt now task node := by
  unfold retrySubtask
  split
  · exact .inl ⟨rfl, rfl⟩
  · rename_i task found
    split
    · exact .inl ⟨rfl, rfl⟩
    · rename_i free
      split
      · exact .inl ⟨rfl, rfl⟩
      · rename_i node foundNode
        split
        · exact .inl ⟨rfl, rfl⟩
        · rename_i current
          split
          · exact .inl ⟨rfl, rfl⟩
          · rename_i depends
            split
            · exact .inl ⟨rfl, rfl⟩
            · rename_i overflow
              have ran : store.retrySubtask taskId nodeId attempt now =
                  (.ok (task.retry nodeId (attempt + 1) now), (((store.untrackAssigned
                    nodeId).putTask taskId (task.retry nodeId (attempt + 1) now)).recordEvent
                      (.taskUpdated task.id "InProgress")).recordEvent
                        (.subtaskRetried task.id nodeId (attempt + 1))) := by
                simp only [retrySubtask, found, foundNode, if_neg free, if_neg current,
                  if_neg depends, if_neg overflow]
                rfl
              simp only [ne_eq, Bool.or_eq_true, decide_eq_true_eq, not_or, not_not] at current
              refine .inr ⟨task, node, found, foundNode, current.1, current.2,
                not_not.mp depends, overflow, ?_, ?_, ?_, ?_⟩
              · rw [ran]
              · rw [ran, recordEvent_tasks, recordEvent_tasks]
                rfl
              · rw [ran]
                rfl
              · rw [ran]
                rfl

section Controls

theorem edits_pauseTask : Edits Eq store (store.pauseTask taskId now).2 := by
  unfold pauseTask
  split
  · exact .refl store
  · rename_i task found
    split
    · exact .putTask rfl found rfl (forall₂_refl _)
    · exact .putTask rfl found rfl (forall₂_refl _)
    · exact .refl store

theorem edits_resumeTask : Edits Eq store (store.resumeTask taskId now).2 := by
  unfold resumeTask
  split
  · exact .refl store
  · rename_i task found
    split
    · exact .putTask rfl found rfl (forall₂_refl _)
    · exact .refl store

theorem edits_cancelTask : Edits Controlled store (store.cancelTask taskId now).2 := by
  unfold cancelTask
  split
  · exact .refl store
  · rename_i task found
    have cancelled : Forall₂ Controlled task.subtasks (task.subtasks.map fun subtask =>
        if isOpen subtask.status then { subtask with status := .failed } else subtask) := by
      refine forall₂_map fun subtask _ => ?_
      split
      · rename_i unended
        exact .fail unended ⟨_, rfl⟩
      · exact refl_of Controlled subtask
    split
    · exact .putTask (tasks_untrackAll _ _) found rfl cancelled
    · exact .putTask (tasks_untrackAll _ _) found rfl cancelled
    · exact .putTask (tasks_untrackAll _ _) found rfl cancelled
    · exact .refl store
    · exact .refl store
    · exact .refl store

theorem edits_failSubtasks {subtaskIds : List String} :
    Edits Controlled store (store.failSubtasks taskId subtaskIds now).2 := by
  unfold failSubtasks
  split
  · exact .refl store
  · rename_i task found
    dsimp only
    split
    · refine .putTask (tasks_untrackAll _ _) found rfl (forall₂_map fun subtask _ => ?_)
      split
      · rename_i hit
        exact .fail ((Bool.and_eq_true _ _).mp hit).2 ⟨_, rfl⟩
      · exact refl_of Controlled subtask
    · exact .refl store

theorem edits_failStale (swept : List String × TaskStore) :
    Edits Eq swept.2 (failStale now swept taskId).2 := by
  unfold failStale
  split
  · exact .refl _
  · rename_i task found
    split
    · exact .putTask rfl found rfl (forall₂_refl _)
    · exact .putTask rfl found rfl (forall₂_refl _)
    · exact .refl _

theorem edits_markStaleTasksFailed {timeout : Nat} :
    Edits Eq store (store.markStaleTasksFailed timeout now).2 := by
  have swept (ids : List String) (swept : List String × TaskStore) :
      Edits Eq swept.2 (ids.foldl (failStale now) swept).2 := by
    induction ids generalizing swept with
    | nil => exact .refl _
    | cons first rest ih =>
      exact Edits.trans (fun _ _ _ => Eq.trans) (edits_failStale swept) (ih _)
  unfold markStaleTasksFailed
  split
  · exact .refl store
  · split
    · exact .refl store
    · exact swept store.tasks.keys ([], store)

end Controls

theorem edits_revertSweptSubtask {rearmed : Bool} :
    Edits Reworked store (store.revertSweptSubtask taskId subtaskId rearmed now).2 := by
  unfold revertSweptSubtask
  split
  · exact .refl store
  · rename_i task found
    split
    · exact .refl store
    · split
      · exact .putTask rfl found rfl (forall₂_changeSubtask fun _ => ⟨_, _, _, _, rfl⟩)
      · exact .refl store

theorem edits_retrySubtask {attempt : UInt32} :
    Edits Reworked store (store.retrySubtask taskId subtaskId attempt now).2 := by
  rcases retrySubtask_cases store taskId subtaskId attempt now with
    ⟨_, same⟩ | ⟨task, node, accepted⟩
  · rw [same]
    exact .refl store
  · have put : Edits Reworked store
        (store.putTask taskId (task.retry subtaskId (attempt + 1) now)) :=
      .putTask rfl accepted.found rfl (forall₂_changeSubtask fun _ => ⟨_, _, _, _, rfl⟩)
    exact fun id new foundNew => put id new (accepted.tasks ▸ foundNew)

theorem edits_updateSubtaskStatus {status : SubtaskStatus} :
    Edits Reworked store (store.updateSubtaskStatus taskId subtaskId status now) := by
  unfold updateSubtaskStatus
  split
  · exact .refl store
  · rename_i task found
    split
    · exact .refl store
    · refine .putTask ?_ found rfl (forall₂_changeSubtask fun _ => ⟨_, _, _, _, rfl⟩)
      split
      · rfl
      · split <;> rfl

theorem edits_incrementDispatchRetry :
    Edits Reworked store (store.incrementDispatchRetry taskId subtaskId now).2 := by
  unfold incrementDispatchRetry
  split
  · exact .refl store
  · rename_i task found
    split
    · exact .refl store
    · exact .putTask rfl found rfl (forall₂_changeSubtask fun _ => ⟨_, _, _, _, rfl⟩)

theorem Edits.reworked (edits : Edits Controlled store stored) : Edits Reworked store stored :=
  edits.mono fun _ _ => Controlled.reworked

/-- An operation that neither projects nor reports edits subtasks. -/
theorem edits_apply {operation : TaskOperation} (silent : operation.projects = false) :
    Edits Reworked store (operation.apply store now) := by
  cases operation with
  | applyUpdate | updateTask => cases silent
  | pauseTask => exact edits_pauseTask.controlled.reworked
  | resumeTask => exact edits_resumeTask.controlled.reworked
  | cancelTask => exact edits_cancelTask.reworked
  | failSubtasks => exact edits_failSubtasks.reworked
  | revertSweptSubtask => exact edits_revertSweptSubtask
  | markStaleTasksFailed => exact edits_markStaleTasksFailed.controlled.reworked
  | retrySubtask => exact edits_retrySubtask

section Writes

variable {update : NatsTaskUpdate} {text project : Option String}

/-- A store that is rehydrated knew the task, or holds it as it was sent. -/
theorem rehydrate_cases (rehydrated : store.rehydrate update text project now = some stored) :
    stored = store ∧ (store.tasks.lookup update.taskId).isSome ∨
    store.tasks.lookup update.taskId = none ∧ ∃ fresh : Task, fresh.id = update.taskId ∧
      fresh.subtasks = update.subtasks.map (natsSubtaskToDomain update.taskId · now) ∧
      stored = ((assignedIds fresh.subtasks).foldl
        (fun store subtaskId => store.trackAssigned subtaskId now)
        (store.recordEvent (.taskCreated fresh.id fresh.description))).putTask update.taskId
          fresh := by
  unfold rehydrate at rehydrated
  split at rehydrated
  · rename_i known
    exact .inl ⟨(Option.some.inj rehydrated).symm, known⟩
  · rename_i unknown
    split at rehydrated
    · cases rehydrated
    · split at rehydrated
      · split at rehydrated
        · cases rehydrated
        · refine .inr ⟨by simpa using unknown, _, ?_, ?_, (Option.some.inj rehydrated).symm⟩
          · rfl
          · rfl
      · cases rehydrated

/-- A projection leaves the tasks, or writes a task that was there or that it has brought. -/
theorem updateTask_tasks (store : TaskStore) (taskId status : String) (subtasks : List Subtask)
    (description projectId : String) (now : Instant) :
    (store.updateTask taskId status subtasks description projectId now).2.tasks = store.tasks ∨
    (store.updateTask taskId status subtasks description projectId now).1.isOk = true ∧
    ∃ task parsed, (store.tasks.lookup taskId = some task ∨
        store.tasks.lookup taskId = none ∧ task.id = taskId ∧ task.subtasks = subtasks) ∧
      (store.updateTask taskId status subtasks description projectId now).2.tasks =
        store.tasks.insert taskId { task with
          status := parsed
          updatedAt := now
          subtasks := (subtasks.foldl Projected.upsert { subtasks := task.subtasks }).subtasks } := by
  unfold updateTask
  split
  · exact .inl rfl
  · rename_i parsed _
    dsimp only
    split
    · exact .inl rfl
    · by_cases brings : (store.tasks.lookup taskId).isNone && description ≠ ""
      · have absent : store.tasks.lookup taskId = none := by
          simpa using ((Bool.and_eq_true _ _).mp brings).1
        simp only [createProjected, if_pos brings, putTask, AList.lookup_insert]
        refine .inr ⟨rfl, ⟨taskId, description, projectId, parsed, subtasks, now, now⟩, parsed,
          .inr ⟨absent, rfl, rfl⟩, ?_⟩
        rw [tasks_recordEvents, recordEvent_tasks, AList.insert_insert]
      · simp only [createProjected, if_neg brings]
        cases found : store.tasks.lookup taskId with
        | none => exact .inl rfl
        | some task => exact .inr ⟨rfl, task, parsed, .inl rfl, tasks_recordEvents _ _⟩

end Writes

end UltimateCoders.Gateway
