import UltimateCoders.Gateway.Protection
import UltimateCoders.Transition.Run

/-! # Tasks rebuilt from snapshots

A complete snapshot of a task that the store does not hold rebuilds the task. The
rebuilt subtasks count attempts from zero, whatever the snapshot says, and nothing
remembers how a task that was evicted had ended.
-/

namespace UltimateCoders.Gateway

open Governance (Instant)
open UltimateCoders.Graph (TaskStatus SubtaskStatus)
open TaskStore
open Transition (Run)
open NatsSubtaskUpdate Reported List

variable {store after : TaskStore} {update : NatsTaskUpdate} {description project : String}
  {now : Instant} {task : Task} {taskId id : String}

@[simp] theorem natsSubtaskToDomain_id (taskId : String) (entry : NatsSubtaskUpdate)
    (now : Instant) : (natsSubtaskToDomain taskId entry now).id = entry.subtaskId := rfl

@[simp] theorem natsSubtaskToDomain_attempt (taskId : String) (entry : NatsSubtaskUpdate)
    (now : Instant) : (natsSubtaskToDomain taskId entry now).dispatchRetryCount = 0 := rfl

@[simp] theorem natsSubtaskToDomain_status (taskId : String) (entry : NatsSubtaskUpdate)
    (now : Instant) : (natsSubtaskToDomain taskId entry now).status =
      (subtaskStatusFromStr entry.status).getD .pending := rfl

/-- A subtask is rebuilt from its entry, and the entry is applied to it once more. -/
def rebuiltSubtask (taskId : String) (now : Instant) (entry : NatsSubtaskUpdate) : Subtask :=
  reportSubtask false entry now (natsSubtaskToDomain taskId entry now)

variable (entry : NatsSubtaskUpdate) {metadata projectId : Option String}

@[simp] theorem rebuiltSubtask_id : (rebuiltSubtask taskId now entry).id = entry.subtaskId := by
  simp [rebuiltSubtask]

@[simp] theorem rebuiltSubtask_attempt :
    (rebuiltSubtask taskId now entry).dispatchRetryCount = 0 := by
  simp [rebuiltSubtask]

@[simp] theorem rebuiltSubtask_status : (rebuiltSubtask taskId now entry).status =
      (subtaskStatusFromStr entry.status).getD .pending := by
  cases parsed : subtaskStatusFromStr entry.status <;> simp [rebuiltSubtask, parsed]

theorem findSubtask_append_cons {done rest : List Subtask} {subtask : Subtask}
    (others : ∀ other ∈ done, other.id ≠ subtask.id) :
    findSubtask (done ++ subtask :: rest) subtask.id = some subtask := by
  rw [findSubtask, find?_append, find?_eq_none.mpr (by simpa using others)]
  simp

theorem changeSubtask_append_cons {done rest : List Subtask} {subtask : Subtask}
    {change : Subtask → Subtask} (others : ∀ other ∈ done, other.id ≠ subtask.id) :
    changeSubtask (done ++ subtask :: rest) subtask.id change =
      done ++ change subtask :: rest := by
  have place : (done ++ subtask :: rest).findIdx (fun other => other.id = subtask.id) =
      done.length := by
    rw [findIdx_append, if_neg, findIdx_cons]
    · simp
    · simpa [findIdx_lt_length] using others
  rw [changeSubtask, place, modify_eq_take_cons_drop (by simp)]
  simp

variable {entries : List NatsSubtaskUpdate}

theorem foldl_upsert_rebuilt {reported : Reported} (done : List Subtask)
    (distinct : (entries.map subtaskId).Nodup)
    (others : ∀ subtask ∈ done, ∀ entry ∈ entries, subtask.id ≠ entry.subtaskId)
    (subtasks : reported.subtasks =
      done ++ entries.map fun entry => natsSubtaskToDomain taskId entry now) :
    (entries.foldl (upsert taskId false now) reported).subtasks =
      done ++ entries.map (rebuiltSubtask taskId now) := by
  induction entries generalizing reported done with
  | nil => simpa using subtasks
  | cons entry rest ih =>
    rw [map_cons, nodup_cons] at distinct
    have here : ∀ other ∈ done, other.id ≠ (natsSubtaskToDomain taskId entry now).id :=
      fun other member => others other member entry mem_cons_self
    have found : findSubtask reported.subtasks entry.subtaskId =
        some (natsSubtaskToDomain taskId entry now) := by
      rw [subtasks]
      exact findSubtask_append_cons here
    have upserted : (reported.upsert taskId false now entry).subtasks =
        (done ++ [rebuiltSubtask taskId now entry]) ++
          rest.map fun entry => natsSubtaskToDomain taskId entry now := by
      simp only [upsert, found, Bool.false_eq_true, if_false]
      rw [subtasks, map_cons]
      exact (changeSubtask_append_cons here).trans (by simp [rebuiltSubtask])
    rw [foldl_cons, ih (done ++ [rebuiltSubtask taskId now entry]) distinct.2 ?_ upserted]
    · simp
    · intro subtask member other later
      rcases mem_append.mp member with earlier | last
      · exact others subtask earlier other (mem_cons_of_mem _ later)
      · rw [mem_singleton.mp last, rebuiltSubtask_id]
        intro same
        exact distinct.1 (same ▸ mem_map_of_mem later)

theorem foldl_upsert_congr {isPartial : Bool} {first second : Reported}
    (same : first.subtasks = second.subtasks) :
    (entries.foldl (upsert taskId isPartial now) first).subtasks =
      (entries.foldl (upsert taskId isPartial now) second).subtasks := by
  induction entries generalizing first second with
  | nil => exact same
  | cons entry rest ih =>
    apply ih
    unfold upsert
    rw [same]
    split
    · split
      · exact same
      · rfl
      · rfl
    · rfl

/-- The subtasks of a task that a complete snapshot rebuilds: each entry is applied once
more to the first subtask under its id. -/
def rebuiltSubtasks (update : NatsTaskUpdate) (now : Instant) : List Subtask :=
  (update.subtasks.foldl (upsert update.taskId false now) {
    subtasks := update.subtasks.map fun entry => natsSubtaskToDomain update.taskId entry now
    assignedTimes := ∅ }).subtasks

theorem rebuiltSubtasks_of_distinct
    (distinct : (update.subtasks.map subtaskId).Nodup) :
    rebuiltSubtasks update now = update.subtasks.map (rebuiltSubtask update.taskId now) :=
  foldl_upsert_rebuilt [] distinct (by simp) rfl

/-- What a complete snapshot makes of a task that was not held. -/
def rebuiltTask (update : NatsTaskUpdate) (description project : String) (now : Instant) : Task :=
  let subtasks := rebuiltSubtasks update now
  { id := update.taskId
    description := description
    projectId := project
    status := reportedStatus update ((taskStatusFromStr update.status).getD .created) subtasks
    subtasks := subtasks
    createdAt := now
    updatedAt := now }

theorem lookup_evictCompletedTasks (found : store.tasks.lookup id = some task)
    (running : task.status ≠ .completed ∧ task.status ≠ .failed) :
    store.evictCompletedTasks.2.tasks.lookup id = some task := by
  have left : ∀ (evicted : List ((_ : String) × Task)) (store : TaskStore),
      (∀ entry ∈ evicted, entry.1 ≠ id) → store.tasks.lookup id = some task →
      (evicted.foldl (fun store entry => store.evict entry.1 entry.2) store).tasks.lookup id =
        some task := by
    intro evicted
    induction evicted with
    | nil => exact fun _ _ found => found
    | cons entry rest ih =>
      intro store others found
      apply ih _ fun other later => others other (mem_cons_of_mem _ later)
      dsimp only [evict]
      rw [AList.lookup_erase_ne (others entry mem_cons_self).symm, tasks_untrackAll]
      exact found
  unfold evictCompletedTasks
  split
  · exact found
  · apply left _ store _ found
    intro entry member same
    have sorted := mem_of_mem_take member
    rw [mem_insertionSort, mem_filter] at sorted
    have held : store.tasks.lookup entry.1 = some entry.2 :=
      AList.mem_lookup_iff.mpr sorted.1
    rw [same, found, Option.some.injEq] at held
    rw [← held] at sorted
    simp [running] at sorted

section

variable (unknown : store.tasks.lookup update.taskId = none) (complete : update.isPartial = false)
  (described : description ≠ "")

include unknown complete described

theorem exists_rehydrated : ∃ stored : TaskStore,
    stored.tasks.lookup update.taskId = some (rebuiltTask update description project now) ∧
    (store.applyUpdateWithMetadata update (some description) (some project) now).tasks =
      stored.evictCompletedTasks.2.tasks := by
  have fresh : store.fullSnapshotIsStale update = false := by
    simp [fullSnapshotIsStale, unknown]
  simp only [applyUpdateWithMetadata, fresh, Bool.false_eq_true, if_false, rehydrate, unknown,
    Option.isSome_none, complete, described, putTask, AList.lookup_insert]
  rw [tasks_recordEvents]
  refine ⟨_, ?_, rfl⟩
  rw [AList.lookup_insert, rebuiltTask, rebuiltSubtasks, foldl_upsert_congr]
  rfl

theorem task_of_rehydration
    (held : (store.applyUpdateWithMetadata update (some description) (some project) now).tasks.lookup
      update.taskId = some task) : task = rebuiltTask update description project now := by
  obtain ⟨stored, found, same⟩ := exists_rehydrated unknown complete described
  rw [same] at held
  have kept := lookup_of_evictCompletedTasks held
  rw [found, Option.some.injEq] at kept
  exact kept.symm

theorem lookup_of_rehydration (project : String) (now : Instant)
    (running : (rebuiltTask update description project now).status ≠ .completed ∧
      (rebuiltTask update description project now).status ≠ .failed) :
    (store.applyUpdateWithMetadata update (some description) (some project) now).tasks.lookup
      update.taskId = some (rebuiltTask update description project now) := by
  obtain ⟨stored, found, same⟩ := exists_rehydrated unknown complete described
  rw [same]
  exact lookup_evictCompletedTasks found running

end

theorem findSubtask_rebuilt {entry : NatsSubtaskUpdate}
    (distinct : (entries.map subtaskId).Nodup) (member : entry ∈ entries) :
    findSubtask (entries.map (rebuiltSubtask taskId now)) entry.subtaskId =
      some (rebuiltSubtask taskId now entry) := by
  obtain ⟨done, rest, rfl⟩ := append_of_mem member
  rw [map_append, map_cons] at distinct ⊢
  have named : (rebuiltSubtask taskId now entry).id = entry.subtaskId := rebuiltSubtask_id entry
  rw [← named]
  apply findSubtask_append_cons
  intro other earlier same
  obtain ⟨earlierEntry, memberDone, rfl⟩ := mem_map.mp earlier
  rw [nodup_append'] at distinct
  rw [rebuiltSubtask_id, rebuiltSubtask_id] at same
  exact distinct.2.2 (mem_map_of_mem memberDone) (by simp [same])

/-- The task counts the attempts that its snapshot names: a copy of the snapshot is not
stale, and reports of these attempts are applied. -/
structure KeepsAttempts (update : NatsTaskUpdate) (store : TaskStore) (task : Task) : Prop where
  counted : ∀ entry ∈ update.subtasks, ∀ attempt, entry.attemptId = some attempt →
    ∃ node, findSubtask task.subtasks entry.subtaskId = some node ∧
      node.dispatchRetryCount.toUInt64 = attempt
  fresh : ∀ status, taskStatusFromStr status = some task.status →
    store.fullSnapshotIsStale { update with status := status } = false
  applied : ∀ entry ∈ update.subtasks, ∀ attempt, entry.attemptId = some attempt →
    ∀ node, findSubtask task.subtasks entry.subtaskId = some node →
    protectedNode node.status = false →
    ∀ (report : NatsTaskUpdate) (sent : NatsSubtaskUpdate) (later : Instant),
      report.taskId = update.taskId → report.isPartial = true → report.subtasks = [sent] →
      sent.subtaskId = entry.subtaskId → sent.attemptId = some attempt →
      (store.applyUpdate report later).staleDispatchDropped = store.staleDispatchDropped ∧
      ∀ held, (store.applyUpdate report later).tasks.lookup update.taskId = some held →
        held.subtasks = changeSubtask task.subtasks entry.subtaskId (reportSubtask true sent later)

theorem fence_of_attempt {node : Subtask} {sent : NatsSubtaskUpdate}
    (open_ : protectedNode node.status = false)
    (attempt : sent.attemptId = some node.dispatchRetryCount.toUInt64) :
    fence node sent = .passes := by
  simp [fence, open_, attempt]

theorem staleDispatchDropped_evict (store : TaskStore) :
    store.evictCompletedTasks.2.staleDispatchDropped = store.staleDispatchDropped := by
  have untracked : ∀ (subtaskIds : List String) (store : TaskStore),
      (subtaskIds.foldl untrackAssigned store).staleDispatchDropped =
        store.staleDispatchDropped := by
    intro subtaskIds
    induction subtaskIds with
    | nil => exact fun _ => rfl
    | cons first rest ih => exact fun store => ih _
  have evicted : ∀ (entries : List ((_ : String) × Task)) (store : TaskStore),
      (entries.foldl (fun store entry => store.evict entry.1 entry.2)
        store).staleDispatchDropped = store.staleDispatchDropped := by
    intro entries
    induction entries with
    | nil => exact fun _ => rfl
    | cons entry rest ih => exact fun store => (ih _).trans (untracked _ _)
  unfold evictCompletedTasks
  split
  · rfl
  · exact evicted _ _

theorem applyUpdate_of_passes {report : NatsTaskUpdate} {sent : NatsSubtaskUpdate} {node : Subtask}
    (known : store.tasks.lookup report.taskId = some task) (isPartial : report.isPartial = true)
    (single : report.subtasks = [sent])
    (found : findSubtask task.subtasks sent.subtaskId = some node)
    (passes : fence node sent = .passes) :
    (store.applyUpdate report now).staleDispatchDropped = store.staleDispatchDropped ∧
    ∀ held, (store.applyUpdate report now).tasks.lookup report.taskId = some held →
      held.subtasks = changeSubtask task.subtasks sent.subtaskId (reportSubtask true sent now) := by
  have notStale : store.fullSnapshotIsStale report = false := by
    simp [fullSnapshotIsStale, isPartial]
  simp only [applyUpdate, applyUpdateWithMetadata, notStale, Bool.false_eq_true, if_false,
    rehydrate_of_known known, known, single, foldl_cons, foldl_nil, upsert,
    isPartial, found, if_true, passes, map_nil, length_nil, Nat.add_zero]
  refine ⟨staleDispatchDropped_evict _, fun held after => ?_⟩
  have stored := lookup_of_evictCompletedTasks after
  rw [putTask, AList.lookup_insert, Option.some.injEq] at stored
  rw [← stored]

/-- A rebuilt task counts the attempts of its snapshot exactly if they are all the first. -/
theorem rehydration_keepsAttempts_iff (unknown : store.tasks.lookup update.taskId = none)
    (complete : update.isPartial = false) (described : description ≠ "")
    (distinct : (update.subtasks.map subtaskId).Nodup)
    (applied : store.applyUpdateWithMetadata update (some description) (some project) now = after)
    (held : after.tasks.lookup update.taskId = some task) :
    KeepsAttempts update after task ↔
      ∀ entry ∈ update.subtasks, ∀ attempt, entry.attemptId = some attempt → attempt = 0 := by
  subst applied
  have rebuilt := task_of_rehydration unknown complete described held
  have found : ∀ entry ∈ update.subtasks, findSubtask task.subtasks entry.subtaskId =
      some (rebuiltSubtask update.taskId now entry) := by
    rw [rebuilt, rebuiltTask, rebuiltSubtasks_of_distinct distinct]
    exact fun entry member => findSubtask_rebuilt distinct member
  constructor
  · intro keeps entry member attempt stamped
    obtain ⟨node, foundNode, counted⟩ := keeps.counted entry member attempt stamped
    rw [found entry member, Option.some.injEq] at foundNode
    rw [← counted, ← foundNode, rebuiltSubtask_attempt]
    rfl
  · intro first
    refine ⟨fun entry member attempt stamped => ?_, fun status same => ?_,
      fun entry member attempt stamped node foundNode open_ report sent later sameTask isPartial
        single sameSubtask sameAttempt => ?_⟩
    · refine ⟨_, found entry member, ?_⟩
      rw [first entry member attempt stamped, rebuiltSubtask_attempt]
      rfl
    · unfold fullSnapshotIsStale
      simp only [held, same, complete]
      simp only [Bool.not_false, Bool.true_and, Bool.or_eq_false_iff, any_eq_false]
      refine ⟨by simp, fun entry member => ?_⟩
      have attempts : ∀ attempt, entry.attemptId = some attempt → attempt = 0 :=
        first entry member
      cases parsed : subtaskStatusFromStr entry.status <;>
        cases stamp : entry.attemptId <;>
        simp_all [protectedNode]
    · rw [found entry member, Option.some.injEq] at foundNode
      rw [← sameTask] at held ⊢
      rw [← sameSubtask]
      apply applyUpdate_of_passes held isPartial single
      · rw [sameSubtask, found entry member, foundNode]
      · apply fence_of_attempt open_
        rw [sameAttempt, first entry member attempt stamped, ← foundNode, rebuiltSubtask_attempt]
        rfl

/-- A complete snapshot of a task with one subtask that waits. -/
def sampleSnapshot (taskId status : String) (attempt : UInt64) : NatsTaskUpdate where
  taskId := taskId
  status := status
  isPartial := false
  subtasks := [{
    execution := ⟨none, none, none, none, none⟩
    subtaskId := "node-1"
    status := "pending"
    assignedWorker := none
    description := some "fix it"
    dependsOn := some []
    result := none
    usage := none
    review := none
    attemptId := some attempt }]
  result := none
  messageId := none

theorem rehydration_keepsAttempts_iff_first :
    ∃ task after,
      (sampleStore []).applyUpdateWithMetadata (sampleSnapshot "task-2" "in_progress" 0)
        (some "fix the build") (some "proj") 1 = after ∧
      after.tasks.lookup "task-2" = some task ∧
      KeepsAttempts (sampleSnapshot "task-2" "in_progress" 0) after task := by
  have unknown : (sampleStore []).tasks.lookup
      (sampleSnapshot "task-2" "in_progress" 0).taskId = none := by decide
  have held := lookup_of_rehydration unknown rfl (by decide : "fix the build" ≠ "")
    "proj" 1 (by decide +kernel)
  refine ⟨_, _, rfl, held, (rehydration_keepsAttempts_iff unknown rfl (by decide) (by decide)
    rfl held).mpr ?_⟩
  intro entry member attempt stamped
  obtain rfl := mem_singleton.mp member
  exact (Option.some.inj stamped).symm

/-- A task is rebuilt from a snapshot of its second attempt. -/
theorem rehydration_keepsAttempts_fails_second :
    ∃ task after,
      (sampleStore []).applyUpdateWithMetadata (sampleSnapshot "task-2" "in_progress" 1)
        (some "fix the build") (some "proj") 1 = after ∧
      after.tasks.lookup "task-2" = some task ∧
      ¬ KeepsAttempts (sampleSnapshot "task-2" "in_progress" 1) after task := by
  have unknown : (sampleStore []).tasks.lookup
      (sampleSnapshot "task-2" "in_progress" 1).taskId = none := by decide
  have held := lookup_of_rehydration unknown rfl (by decide : "fix the build" ≠ "")
    "proj" 1 (by decide +kernel)
  refine ⟨_, _, rfl, held, fun keeps => ?_⟩
  obtain ⟨node, found, counted⟩ := keeps.counted _ mem_cons_self 1 rfl
  cases found
  exact absurd counted (by decide)

/-- An update applies what a coordinator or worker reports, or a recovery response. -/
inductive SnapshotCall where
  | applyUpdate (update : NatsTaskUpdate) (description projectId : Option String)
  | applyTaskSnapshotResponse (response : List NatsTaskUpdateEnvelope)

def SnapshotCall.apply (store : TaskStore) (now : Instant) : SnapshotCall → TaskStore
  | applyUpdate update description projectId =>
    store.applyUpdateWithMetadata update description projectId now
  | applyTaskSnapshotResponse response => (store.applyTaskSnapshotResponse response now).2

/-- The snapshot says that the task has the outcome, or that all its subtasks have one
which amounts to it. -/
def NatsTaskUpdate.Reports (update : NatsTaskUpdate) (outcome : TaskStatus) : Prop :=
  taskStatusFromStr update.status = some outcome ∨
    (taskStatusFromStr update.status = some .inProgress ∨
      taskStatusFromStr update.status = some .planning) ∧
    (update.subtasks.map subtaskId).Nodup ∧ update.subtasks ≠ [] ∧
    (∀ entry ∈ update.subtasks, subtaskStatusFromStr entry.status ∈
      [some .completed, some .failed, some .conflicted]) ∧
    (outcome = .completed ↔
      ∀ entry ∈ update.subtasks, subtaskStatusFromStr entry.status = some .completed)

def Rebuilds (taskId : String) (outcome : TaskStatus) (store : TaskStore) (update : NatsTaskUpdate)
    (description projectId : Option String) : Prop :=
  update.taskId = taskId → store.tasks.lookup taskId = none → update.isPartial = false →
    (∃ text, description = some text ∧ text ≠ "") → (∃ project, projectId = some project) →
    update.Reports outcome

/-- The same of every snapshot of a recovery response that was not seen before. -/
def RebuildsAll (taskId : String) (outcome : TaskStatus) (now : Instant) :
    TaskStore → List NatsTaskUpdateEnvelope → Prop
  | _, [] => True
  | store, envelope :: rest =>
    ((store.checkAndRecordMessageId envelope.update.messageId now).1 = false →
      Rebuilds taskId outcome store envelope.update envelope.description envelope.projectId) ∧
    RebuildsAll taskId outcome now (applyEnvelope now store envelope) rest

def SnapshotCall.Agrees (taskId : String) (outcome : TaskStatus) (store : TaskStore)
    (now : Instant) : SnapshotCall → Prop
  | applyUpdate update description projectId =>
    Rebuilds taskId outcome store update description projectId
  | applyTaskSnapshotResponse response => RebuildsAll taskId outcome now store response

def SnapshotCall.Steps (before : TaskStore) (call : SnapshotCall × Instant) (after : TaskStore) :
    Prop :=
  call.1.apply before call.2 = after

/-- One call that does not rebuild the task with another outcome. -/
def SnapshotCall.StepsAgreeing (taskId : String) (outcome : TaskStatus) (before : TaskStore)
    (call : SnapshotCall × Instant) (after : TaskStore) : Prop :=
  call.1.Agrees taskId outcome before call.2 ∧ Steps before call after

def Closed (taskId : String) (outcome : TaskStatus) (store : TaskStore) : Prop :=
  ∀ task, store.tasks.lookup taskId = some task → task.status = outcome

theorem rebuiltTask_status {outcome : TaskStatus}
    (ended : outcome = .completed ∨ outcome = .failed) (complete : update.isPartial = false)
    (reports : update.Reports outcome) :
    (rebuiltTask update description project now).status = outcome := by
  simp only [rebuiltTask, reportedStatus, complete, Bool.false_eq_true, if_false]
  rcases reports with named | ⟨underWay, distinct, nonempty, settled, all⟩
  · rw [named]
    rcases ended with rfl | rfl <;> simp [deriveStatus]
  · rw [rebuiltSubtasks_of_distinct distinct]
    have settledAll : (update.subtasks.map (rebuiltSubtask update.taskId now)).all (fun subtask =>
        subtask.status = .completed || subtask.status = .failed ||
          subtask.status = .conflicted) = true := by
      rw [all_eq_true]
      intro subtask member
      obtain ⟨entry, memberEntry, rfl⟩ := mem_map.mp member
      have parsed := settled entry memberEntry
      simp only [mem_cons, not_mem_nil, or_false] at parsed
      rcases parsed with parsed | parsed | parsed <;> simp [parsed]
    have completedAll : (update.subtasks.map (rebuiltSubtask update.taskId now)).all (fun subtask =>
        subtask.status = .completed) = true ↔ outcome = .completed := by
      rw [all, all_eq_true]
      simp only [mem_map, forall_exists_index, and_imp, forall_apply_eq_imp_iff₂,
        rebuiltSubtask_status, decide_eq_true_eq]
      refine forall₂_congr fun entry memberEntry => ?_
      cases parsed : subtaskStatusFromStr entry.status <;> simp
    have derived : ∀ status : TaskStatus, status = .inProgress ∨ status = .planning →
        deriveStatus status (update.subtasks.map (rebuiltSubtask update.taskId now)) = outcome := by
      intro status under
      unfold deriveStatus
      rw [if_pos (by rcases under with rfl | rfl <;> simp [nonempty, settledAll])]
      by_cases done : outcome = .completed
      · rw [if_pos (completedAll.mpr done), done]
      · rw [if_neg (mt completedAll.mp done), ended.resolve_left done]
    rcases underWay with named | named <;> rw [named] <;> exact derived _ (by simp)

theorem lookup_none_of_applyUpdate (unknown : store.tasks.lookup id = none)
    (idle : update.taskId = id → store.rehydrate update metadata projectId now = none) :
    (store.applyUpdateWithMetadata update metadata projectId now).tasks.lookup id = none := by
  by_cases here : update.taskId = id
  · unfold applyUpdateWithMetadata
    rw [idle here]
    split <;> exact unknown
  · rw [Option.eq_none_iff_forall_ne_some]
    intro new after
    rw [lookup_of_applyUpdate_ne (Ne.symm here) after] at unknown
    cases unknown

theorem rebuilt_of_unknown {new : Task} (unknown : store.tasks.lookup update.taskId = none)
    (held :
        (store.applyUpdateWithMetadata update metadata projectId now).tasks.lookup update.taskId =
          some new) :
    update.isPartial = false ∧ ∃ text project, metadata = some text ∧ text ≠ "" ∧
      projectId = some project ∧ new = rebuiltTask update text project now := by
  have gone : store.rehydrate update metadata projectId now = none → False := by
    intro idle
    rw [lookup_none_of_applyUpdate unknown fun _ => idle] at held
    cases held
  cases complete : update.isPartial with
  | true => exact (gone (by simp [rehydrate, unknown, complete])).elim
  | false =>
    cases metadata with
    | none => exact (gone (by simp [rehydrate, unknown, complete])).elim
    | some text =>
      cases projectId with
      | none => exact (gone (by simp [rehydrate, unknown, complete])).elim
      | some project =>
        by_cases described : text = ""
        · exact (gone (by simp [rehydrate, unknown, complete, described])).elim
        · exact ⟨rfl, text, project, rfl, described, rfl,
            task_of_rehydration unknown complete described held⟩

theorem tasks_checkAndRecordMessageId (store : TaskStore) (messageId : Option String) (now : Instant) :
    (store.checkAndRecordMessageId messageId now).2.tasks = store.tasks := by
  unfold checkAndRecordMessageId
  split
  · rfl
  · dsimp only
    split_ifs <;> rfl

section

variable {outcome : TaskStatus} (ended : outcome = .completed ∨ outcome = .failed)

include ended

theorem closed_applyUpdate (closed : Closed taskId outcome store)
    (rebuilds : Rebuilds taskId outcome store update metadata projectId) :
    Closed taskId outcome (store.applyUpdateWithMetadata update metadata projectId now) := by
  intro new after
  cases before : store.tasks.lookup taskId with
  | some old =>
    have kept := keepsTask_applyUpdate before after
    rw [kept.status rfl, closed old before]
    rw [closed old before]
    rcases ended with rfl | rfl <;> rfl
  | none =>
    by_cases same : update.taskId = taskId
    · subst same
      obtain ⟨complete, text, project, metadataEq, described, projectEq, rfl⟩ :=
        rebuilt_of_unknown before after
      exact rebuiltTask_status ended complete
        (rebuilds rfl before complete ⟨text, metadataEq, described⟩ ⟨project, projectEq⟩)
    · rw [lookup_none_of_applyUpdate before fun here => absurd here same] at after
      cases after

theorem closed_applyEnvelope {envelope : NatsTaskUpdateEnvelope}
    (closed : Closed taskId outcome store)
    (rebuilds : (store.checkAndRecordMessageId envelope.update.messageId now).1 = false →
      Rebuilds taskId outcome store envelope.update envelope.description envelope.projectId) :
    Closed taskId outcome (applyEnvelope now store envelope) := by
  have same := tasks_checkAndRecordMessageId store envelope.update.messageId now
  unfold applyEnvelope
  split
  · exact closed
  · split
    · rename_i recorded checked
      rw [checked] at same
      rw [Closed, same]
      exact closed
    · rename_i recorded checked
      rw [checked] at same rebuilds
      apply closed_applyUpdate ended
      · rw [Closed, same]
        exact closed
      · rw [Rebuilds, same]
        exact rebuilds rfl

theorem closed_applyTaskSnapshotResponse {response : List NatsTaskUpdateEnvelope}
    (closed : Closed taskId outcome store) (rebuilds : RebuildsAll taskId outcome now store response) :
    Closed taskId outcome (store.applyTaskSnapshotResponse response now).2 := by
  unfold applyTaskSnapshotResponse
  generalize 0 = count
  induction response generalizing store count with
  | nil => exact closed
  | cons envelope rest ih => exact ih (closed_applyEnvelope ended closed rebuilds.1) rebuilds.2 _

/-- As long as no call rebuilds it with another outcome, a task that has ended is evicted or
keeps its outcome, and none of its subtasks is dispatched. -/
theorem closed_of_run {calls : List (SnapshotCall × Instant)}
    (held : store.tasks.lookup taskId = some task) (outcomes : task.status = outcome)
    (run : Run (SnapshotCall.StepsAgreeing taskId outcome) store calls after) :
    (after.tasks.lookup taskId = none ∨
      ∃ task, after.tasks.lookup taskId = some task ∧ task.status = outcome) ∧
    after.getReadySubtasks taskId = [] := by
  have closed : Closed taskId outcome after := by
    refine run.invariant (fun _ => True) ?_ (fun _ _ => trivial) ?_
    · rintro before ⟨call, now⟩ after closed _ ⟨agrees, rfl⟩
      cases call with
      | applyUpdate update description projectId => exact closed_applyUpdate ended closed agrees
      | applyTaskSnapshotResponse response =>
        exact closed_applyTaskSnapshotResponse ended closed agrees
    · intro other found
      rw [held, Option.some.injEq] at found
      rw [← found, outcomes]
  unfold getReadySubtasks
  cases found : after.tasks.lookup taskId with
  | none => exact ⟨.inl rfl, rfl⟩
  | some last =>
    have same := closed last found
    refine ⟨.inr ⟨last, rfl, same⟩, ?_⟩
    rcases ended with rfl | rfl <;> simp [same]

end

/-- A report of a worker that names no subtask. -/
def sampleEmptyReport (taskId : String) : NatsTaskUpdate where
  taskId := taskId
  status := "in_progress"
  isPartial := true
  subtasks := []
  result := none
  messageId := none

def sampleCancelled (now : Instant) : Task :=
  { sampleTask [sampleSubtask "node-1" .failed .preferRemote] now with status := .failed }

def sampleClosed : TaskStore :=
  { sampleStore [] with tasks := AList.singleton "task-1" (sampleCancelled 0) }

theorem closed_of_run_refused :
    ∃ after : TaskStore,
      Run (SnapshotCall.StepsAgreeing "task-1" .failed) sampleClosed
        [(.applyUpdate (sampleSnapshot "task-1" "in_progress" 0) (some "fix the build")
          (some "proj"), 1)] after ∧
      (after.tasks.lookup "task-1" = none ∨
        ∃ task, after.tasks.lookup "task-1" = some task ∧ task.status = .failed) ∧
      after.getReadySubtasks "task-1" = [] := by
  have held : sampleClosed.tasks.lookup "task-1" = some (sampleCancelled 0) := rfl
  have agrees : Rebuilds "task-1" .failed sampleClosed (sampleSnapshot "task-1" "in_progress" 0)
      (some "fix the build") (some "proj") := by
    intro _ unknown
    cases unknown
  have run : Run (SnapshotCall.StepsAgreeing "task-1" .failed) sampleClosed
      [(.applyUpdate (sampleSnapshot "task-1" "in_progress" 0) (some "fix the build")
        (some "proj"), 1)] _ := .cons ⟨agrees, rfl⟩ (.nil _)
  exact ⟨_, run, closed_of_run (.inr rfl) held rfl run⟩

/-- Names of different lengths. -/
def sampleName (count : Nat) : String := String.ofList (replicate count 'x')

theorem sampleName_injective : Function.Injective sampleName := by
  intro first second same
  have lists := String.ofList_injective same
  simpa using congrArg length lists

/-- As many tasks under way as are kept. -/
def sampleOthers : List ((_ : String) × Task) :=
  (range maxRetainedTasks).map fun count => ⟨sampleName count, sampleTask [] 0⟩

theorem sampleOthers_keys : (⟨"task-1", sampleCancelled 0⟩ :: sampleOthers).NodupKeys := by
  have keys : sampleOthers.keys = (range maxRetainedTasks).map sampleName := by
    simp [sampleOthers, keys]
  have other : ∀ count, sampleName count ≠ "task-1" := by
    intro count same
    have lists := String.ofList_injective (same.trans (String.ofList_toList).symm)
    have first : 't' ∈ replicate count 'x' := lists ▸ by decide
    exact absurd (eq_of_mem_replicate first) (by decide)
  rw [NodupKeys, keys_cons, nodup_cons, keys]
  refine ⟨fun member => ?_, nodup_range.map sampleName_injective⟩
  obtain ⟨count, _, same⟩ := mem_map.mp member
  exact other count same

/-- A store with a task that was cancelled, beside many others. -/
def sampleCrowded : TaskStore :=
  { sampleStore [] with tasks := ⟨⟨"task-1", sampleCancelled 0⟩ :: sampleOthers, sampleOthers_keys⟩ }

theorem lookup_evicted (crowded : maxRetainedTasks < store.tasks.entries.length)
    (only : (store.tasks.entries.filter fun entry =>
      entry.2.status = .completed || entry.2.status = .failed) = [⟨id, task⟩]) :
    store.evictCompletedTasks.2.tasks.lookup id = none := by
  have excess : min (store.tasks.entries.length - maxRetainedTasks) 1 = 1 := by omega
  simp only [evictCompletedTasks, if_neg (Nat.not_le.mpr crowded), only, length_singleton, excess]
  exact AList.lookup_erase _ _

theorem exists_reported_empty (now : Instant) (held : store.tasks.lookup taskId = some task) :
    ∃ stored : TaskStore, stored.tasks = store.tasks.insert taskId { task with updatedAt := now } ∧
      (store.applyUpdateWithMetadata (sampleEmptyReport taskId) none none now).tasks =
        stored.evictCompletedTasks.2.tasks := by
  have fresh : store.fullSnapshotIsStale (sampleEmptyReport taskId) = false := rfl
  have known : store.tasks.lookup (sampleEmptyReport taskId).taskId = some task := held
  simp only [applyUpdateWithMetadata, fresh, Bool.false_eq_true, if_false,
    rehydrate_of_known known, known]
  exact ⟨_, rfl, rfl⟩

theorem lookup_sampleCrowded : (sampleCrowded.applyUpdateWithMetadata (sampleEmptyReport "task-1")
    none none 1).tasks.lookup "task-1" = none := by
  have held : sampleCrowded.tasks.lookup "task-1" = some (sampleCancelled 0) := rfl
  have running : sampleOthers.filter (fun entry =>
      entry.2.status = .completed || entry.2.status = .failed) = [] := by
    simp [sampleOthers, sampleTask]
  obtain ⟨stored, inserted, same⟩ := exists_reported_empty 1 held
  have entries : stored.tasks.entries = ⟨"task-1", sampleCancelled 1⟩ :: sampleOthers := by
    rw [inserted, AList.entries_insert]
    exact congrArg (cons _) (kerase_cons_eq rfl)
  rw [same]
  apply lookup_evicted
  · simp [entries, sampleOthers]
  · rw [entries, filter_cons_of_pos (by rfl), running]

/-- A cancelled task is evicted, and a snapshot from before reopens it. -/
theorem closed_fails_evicted :
    ∃ (task : Task) (after : TaskStore),
      sampleCrowded.tasks.lookup "task-1" = some (sampleCancelled 0) ∧
      Run SnapshotCall.Steps sampleCrowded
        [(.applyUpdate (sampleEmptyReport "task-1") none none, 1),
          (.applyUpdate (sampleSnapshot "task-1" "in_progress" 0) (some "fix the build")
            (some "proj"), 2)] after ∧
      after.tasks.lookup "task-1" = some task ∧ task.status = .inProgress := by
  have unknown : (sampleCrowded.applyUpdateWithMetadata (sampleEmptyReport "task-1") none none
      1).tasks.lookup (sampleSnapshot "task-1" "in_progress" 0).taskId = none := lookup_sampleCrowded
  have running := lookup_of_rehydration unknown rfl (by decide : "fix the build" ≠ "") "proj" 2
    (by decide +kernel)
  exact ⟨_, _, rfl, .cons rfl (.cons rfl (.nil _)), running, by decide +kernel⟩

end UltimateCoders.Gateway
