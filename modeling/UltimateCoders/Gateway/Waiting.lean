import UltimateCoders.Gateway.Dispatch
import UltimateCoders.Gateway.Protection

/-! # Which subtasks wait

A subtask waits while it is pending. It begins to wait again when a sweep or a retry rearms it, or
when a projection or a report says that it is pending; nothing else makes it wait.
-/

namespace UltimateCoders.Gateway

open Governance (Instant)
open UltimateCoders.Graph (TaskStatus SubtaskStatus)
open TaskStore List Search

def waiting (subtasks : List Subtask) (subtaskId : String) : Bool :=
  (findSubtask subtasks subtaskId).any fun subtask => subtask.status = .pending

def TaskStore.waits (store : TaskStore) (taskId subtaskId : String) : Bool :=
  (store.tasks.lookup taskId).any fun task => waiting task.subtasks subtaskId

/-- The subtask that the operation may let wait again. -/
def TaskOperation.rearms (taskId : String) : TaskOperation → Option String
  | .revertSweptSubtask owner subtaskId true | .retrySubtask owner subtaskId _ =>
    if owner = taskId then some subtaskId else none
  | _ => none

/-- A projection or a report says that the subtask is pending, or brings it without saying more. -/
def TaskOperation.SaysPending (store : TaskStore) (taskId subtaskId : String) : TaskOperation → Prop
  | .updateTask owner _ subtasks _ _ => owner = taskId ∧
      ∃ incoming ∈ subtasks, incoming.id = subtaskId ∧ incoming.status = .pending
  | .applyUpdate update _ _ => update.taskId = taskId ∧
      ∃ entry ∈ update.subtasks, entry.subtaskId = subtaskId ∧
        (subtaskStatusFromStr entry.status = some .pending ∨
          subtaskStatusFromStr entry.status = none ∧ store.subtask taskId subtaskId = none)
  | _ => False

variable {store stored next : TaskStore} {taskId ownerId subtaskId otherId : String}
  {task updated : Task} {subtasks : List Subtask} {change : Subtask → Subtask} {now : Instant}

theorem findSubtask_changed (sameId : ∀ subtask, (change subtask).id = subtask.id)
    (subtasks : List Subtask) :
    findSubtask (changeSubtask subtasks otherId change) subtaskId =
      (findSubtask subtasks subtaskId).map fun subtask =>
        if otherId = subtaskId then change subtask else subtask := by
  by_cases own : otherId = subtaskId
  · subst own
    cases found : findSubtask subtasks otherId with
    | some old => simpa using findSubtask_changeSubtask sameId found
    | none =>
      have past : subtasks.findIdx (fun subtask => subtask.id = otherId) = subtasks.length :=
        findIdx_eq_length.mpr (by simpa [findSubtask] using found)
      rw [changeSubtask, past, modify_eq_self le_rfl, found]
      rfl
  · rw [findSubtask_changeSubtask_ne sameId own]
    simp [own]

theorem findSubtask_of_mem {subtask : Subtask} (distinct : (subtasks.map Subtask.id).Nodup)
    (member : subtask ∈ subtasks) : findSubtask subtasks subtask.id = some subtask := by
  induction subtasks with
  | nil => cases member
  | cons first rest ih =>
    rw [map_cons, nodup_cons] at distinct
    rcases mem_cons.mp member with rfl | later
    · simp [findSubtask]
    · have apart : first.id ≠ subtask.id := fun same =>
        distinct.1 (same ▸ mem_map_of_mem later)
      rw [findSubtask, find?_cons_of_neg (by simpa using apart)]
      exact ih distinct.2 later

theorem waiting_changeSubtask (sameId : ∀ subtask, (change subtask).id = subtask.id)
    (later : ∀ subtask, (change subtask).status = .pending → subtask.status = .pending)
    (waits : waiting (changeSubtask subtasks otherId change) subtaskId = true) :
    waiting subtasks subtaskId = true := by
  unfold waiting at waits ⊢
  rw [findSubtask_changed sameId] at waits
  cases found : findSubtask subtasks subtaskId with
  | none => simp [found] at waits
  | some subtask =>
    simp only [found, Option.map_some, Option.any_some, decide_eq_true_eq] at waits ⊢
    split at waits
    · exact later subtask waits
    · exact waits

theorem waits_iff : store.waits taskId subtaskId = true ↔
    ∃ task, store.tasks.lookup taskId = some task ∧ waiting task.subtasks subtaskId = true := by
  unfold TaskStore.waits
  cases store.tasks.lookup taskId <;> simp

theorem waits_eq_any : store.waits taskId subtaskId =
    (store.subtask taskId subtaskId).any fun subtask => subtask.status = .pending := by
  unfold TaskStore.waits TaskStore.subtask
  cases store.tasks.lookup taskId <;> rfl

def StillWaits (taskId subtaskId : String) (store stored : TaskStore) : Prop :=
  stored.waits taskId subtaskId = true → store.waits taskId subtaskId = true

theorem StillWaits.refl (store : TaskStore) : StillWaits taskId subtaskId store store := id

theorem StillWaits.trans (first : StillWaits taskId subtaskId store stored)
    (second : StillWaits taskId subtaskId stored next) : StillWaits taskId subtaskId store next :=
  fun waits => first (second waits)

theorem StillWaits.of_tasks (same : stored.tasks = store.tasks) :
    StillWaits taskId subtaskId store stored := by
  unfold StillWaits TaskStore.waits
  rw [same]
  exact id

theorem StillWaits.putTask (same : stored.tasks = store.tasks)
    (found : store.tasks.lookup ownerId = some task)
    (kept : ownerId = taskId → waiting updated.subtasks subtaskId = true →
      waiting task.subtasks subtaskId = true) :
    StillWaits taskId subtaskId store (stored.putTask ownerId updated) := by
  intro waits
  obtain ⟨new, foundNew, waitsNew⟩ := waits_iff.mp waits
  by_cases here : taskId = ownerId
  · subst here
    rw [TaskStore.putTask, AList.lookup_insert, Option.some.injEq] at foundNew
    exact waits_iff.mpr ⟨task, found, kept rfl (foundNew ▸ waitsNew)⟩
  · rw [TaskStore.putTask, AList.lookup_insert_ne here, same] at foundNew
    exact waits_iff.mpr ⟨new, foundNew, waitsNew⟩

theorem StillWaits.of_edits {relation : Subtask → Subtask → Prop}
    (edits : Edits relation store stored)
    (later : ∀ old new, relation old new →
      new.id = old.id ∧ (new.status = .pending → old.status = .pending)) :
    StillWaits taskId subtaskId store stored := by
  intro waits
  obtain ⟨new, foundNew, waitsNew⟩ := waits_iff.mp waits
  obtain ⟨old, found, -, related⟩ := edits taskId new foundNew
  refine waits_iff.mpr ⟨old, found, ?_⟩
  -- the two lists have the subtask at one place, if they have it
  have first : Option.Rel relation (findSubtask old.subtasks subtaskId)
      (findSubtask new.subtasks subtaskId) :=
    find?_rel_of_forall₂ related fun one other relates => by rw [(later one other relates).1]
  unfold waiting at waitsNew ⊢
  generalize findSubtask old.subtasks subtaskId = before at first ⊢
  generalize findSubtask new.subtasks subtaskId = after at first waitsNew
  cases first with
  | none => cases waitsNew
  | some relates =>
    simp only [Option.any_some, decide_eq_true_eq] at waitsNew ⊢
    exact (later _ _ relates).2 waitsNew

theorem stillWaits_of_controlled (edits : Edits Controlled store stored) :
    StillWaits taskId subtaskId store stored := by
  refine .of_edits edits ?_
  rintro old _ ⟨⟨status, worker, rfl⟩, same | ⟨-, failed⟩⟩
  · exact ⟨rfl, fun pending => same.symm.trans pending⟩
  · exact ⟨rfl, fun pending => by cases failed.symm.trans pending⟩

theorem stillWaits_updateSubtaskStatus {status : SubtaskStatus} (moved : status ≠ .pending) :
    StillWaits taskId subtaskId store (store.updateSubtaskStatus ownerId otherId status now) := by
  unfold updateSubtaskStatus
  split
  · exact .refl store
  · rename_i task found
    split
    · exact .refl store
    · refine StillWaits.putTask ?_ found fun _ =>
        waiting_changeSubtask (fun _ => rfl) fun _ pending => absurd pending moved
      split
      · rfl
      · split <;> rfl

theorem stillWaits_incrementDispatchRetry :
    StillWaits taskId subtaskId store (store.incrementDispatchRetry ownerId otherId now).2 := by
  unfold incrementDispatchRetry
  split
  · exact .refl store
  · rename_i task found
    split
    · exact .refl store
    · exact .putTask rfl found fun _ => waiting_changeSubtask (fun _ => rfl) fun _ => id

theorem stillWaits_markReady {mouth : Mouth} {projectId : String} {gate : Gate}
    {ready : List Subtask} :
    StillWaits taskId subtaskId store (markReady mouth ownerId projectId gate now ready store).2 := by
  induction ready generalizing store with
  | nil => exact .refl store
  | cons first rest ih =>
    unfold markReady
    split
    · exact (stillWaits_updateSubtaskStatus (by decide)).trans ih
    · split
      · exact ih
      · exact (stillWaits_updateSubtaskStatus (by decide)).trans ih

theorem waiting_changeSubtask_ne (waits : waiting (changeSubtask subtasks otherId change) subtaskId =
      true)
    (sameId : ∀ subtask, (change subtask).id = subtask.id) (apart : otherId ≠ subtaskId) :
    waiting subtasks subtaskId = true := by
  unfold waiting at waits ⊢
  rwa [findSubtask_changeSubtask_ne sameId apart] at waits

theorem stillWaits_changed (same : stored.tasks = store.tasks)
    (found : store.tasks.lookup ownerId = some task)
    (changed : updated.subtasks = changeSubtask task.subtasks otherId change)
    (sameId : ∀ subtask, (change subtask).id = subtask.id)
    (apart : ¬ (ownerId = taskId ∧ otherId = subtaskId)) :
    StillWaits taskId subtaskId store (stored.putTask ownerId updated) :=
  .putTask same found fun own waits =>
    waiting_changeSubtask_ne (changed ▸ waits) sameId fun other => apart ⟨own, other⟩

theorem stillWaits_updateSubtaskStatus_ne {status : SubtaskStatus}
    (apart : ¬ (ownerId = taskId ∧ otherId = subtaskId)) :
    StillWaits taskId subtaskId store (store.updateSubtaskStatus ownerId otherId status now) := by
  unfold updateSubtaskStatus
  split
  · exact .refl store
  · rename_i task found
    split
    · exact .refl store
    · refine stillWaits_changed ?_ found rfl (fun _ => rfl) apart
      split
      · rfl
      · split <;> rfl

theorem waits_handlePublishFailure {dispatch : Dispatch}
    (waits : (handlePublishFailure store dispatch now).waits taskId subtaskId = true) :
    store.waits taskId subtaskId = true ∨
      (dispatch.taskId = taskId ∧ dispatch.subtask.id = subtaskId) := by
  by_cases own : dispatch.taskId = taskId ∧ dispatch.subtask.id = subtaskId
  · exact .inr own
  · refine .inl ?_
    unfold handlePublishFailure at waits
    dsimp only at waits
    split at waits
    · split at waits
      · exact stillWaits_incrementDispatchRetry (stillWaits_updateSubtaskStatus_ne own waits)
      · exact stillWaits_incrementDispatchRetry (stillWaits_updateSubtaskStatus_ne own waits)
    · exact stillWaits_updateSubtaskStatus_ne own waits

theorem waits_revertSweptSubtask {rearmed : Bool}
    (waits : (store.revertSweptSubtask ownerId otherId rearmed now).2.waits taskId subtaskId = true) :
    store.waits taskId subtaskId = true ∨
      (rearmed = true ∧ ownerId = taskId ∧ otherId = subtaskId) := by
  by_cases own : ownerId = taskId ∧ otherId = subtaskId
  · cases rearmed with
    | true => exact .inr ⟨rfl, own⟩
    | false =>
      refine .inl (StillWaits.trans ?_ (.refl _) waits)
      unfold revertSweptSubtask
      split
      · exact .refl store
      · rename_i task found
        split
        · exact .refl store
        · split
          · refine StillWaits.putTask rfl found fun _ =>
              waiting_changeSubtask (fun _ => rfl) fun _ pending => ?_
            cases pending
          · exact .refl store
  · refine .inl ?_
    unfold revertSweptSubtask at waits
    split at waits
    · exact waits
    · rename_i task found
      split at waits
      · exact waits
      · split at waits
        · exact stillWaits_changed rfl found rfl (by intro; rfl) own waits
        · exact waits

theorem waits_retrySubtask {expectedAttempt : UInt32}
    (waits : (store.retrySubtask ownerId otherId expectedAttempt now).2.waits taskId subtaskId =
      true) :
    store.waits taskId subtaskId = true ∨ (ownerId = taskId ∧ otherId = subtaskId) := by
  by_cases own : ownerId = taskId ∧ otherId = subtaskId
  · exact .inr own
  · refine .inl ?_
    rcases retrySubtask_cases store ownerId otherId expectedAttempt now with
      ⟨_, same⟩ | ⟨task, node, accepted⟩
    · rwa [same] at waits
    · exact stillWaits_changed rfl accepted.found Task.subtasks_retry (fun _ => rfl) own
        (StillWaits.of_tasks accepted.tasks waits)

theorem waiting_append {more : List Subtask}
    (waits : waiting (subtasks ++ more) subtaskId = true) :
    waiting subtasks subtaskId = true ∨
      (findSubtask subtasks subtaskId = none ∧ waiting more subtaskId = true) := by
  unfold waiting findSubtask at *
  rw [find?_append] at waits
  cases found : subtasks.find? fun subtask => subtask.id = subtaskId with
  | none => exact .inr ⟨rfl, by simpa [found] using waits⟩
  | some subtask => exact .inl (by simpa [found] using waits)

theorem waiting_singleton {subtask : Subtask} :
    waiting [subtask] subtaskId = true ↔ subtask.id = subtaskId ∧ subtask.status = .pending := by
  by_cases own : subtask.id = subtaskId <;> simp [waiting, findSubtask, own]

theorem Projected.waiting_foldl {projected : Projected} {incomings : List Subtask}
    (waits : waiting (incomings.foldl Projected.upsert projected).subtasks subtaskId = true) :
    waiting projected.subtasks subtaskId = true ∨
      ∃ incoming ∈ incomings, incoming.id = subtaskId ∧ incoming.status = .pending := by
  induction incomings generalizing projected with
  | nil => exact .inl waits
  | cons incoming rest ih =>
    rcases ih waits with before | ⟨other, member, told⟩
    · unfold Projected.upsert at before
      split at before
      · by_cases own : incoming.id = subtaskId
        · by_cases pending : incoming.status = .pending
          · exact .inr ⟨incoming, mem_cons_self, own, pending⟩
          · have later (subtask : Subtask)
                (told : (projectSubtask incoming subtask).status = .pending) :
                subtask.status = .pending := absurd told pending
            exact .inl (waiting_changeSubtask (by intro; rfl) later before)
        · exact .inl (waiting_changeSubtask_ne before (fun _ => rfl) own)
      · rcases waiting_append before with old | ⟨_, added⟩
        · exact .inl old
        · exact .inr ⟨incoming, mem_cons_self, waiting_singleton.mp added⟩
    · exact .inr ⟨other, mem_cons_of_mem _ member, told⟩

theorem waiting_mem (waits : waiting subtasks subtaskId = true) :
    ∃ subtask ∈ subtasks, subtask.id = subtaskId ∧ subtask.status = .pending := by
  unfold waiting at waits
  obtain ⟨subtask, found, pending⟩ := (Option.any_eq_true _ _).mp waits
  obtain ⟨member, own⟩ := mem_of_findSubtask found
  exact ⟨subtask, member, own, of_decide_eq_true pending⟩

theorem waits_updateTask {status description projectId : String} {incomings : List Subtask}
    (waits : (store.updateTask ownerId status incomings description projectId now).2.waits taskId
      subtaskId = true) :
    store.waits taskId subtaskId = true ∨ (ownerId = taskId ∧
      ∃ incoming ∈ incomings, incoming.id = subtaskId ∧ incoming.status = .pending) := by
  obtain ⟨new, foundNew, waitsNew⟩ := waits_iff.mp waits
  rcases updateTask_tasks store ownerId status incomings description projectId now with
    same | ⟨-, task, parsed, source, written⟩
  · exact .inl (waits_iff.mpr ⟨new, same ▸ foundNew, waitsNew⟩)
  · rw [written] at foundNew
    by_cases here : taskId = ownerId
    · subst here
      rw [AList.lookup_insert, Option.some.injEq] at foundNew
      subst foundNew
      rcases Projected.waiting_foldl waitsNew with before | told
      · rcases source with found | ⟨-, -, brought⟩
        · exact .inl (waits_iff.mpr ⟨task, found, before⟩)
        · exact .inr ⟨rfl, waiting_mem (brought ▸ before)⟩
      · exact .inr ⟨rfl, told⟩
    · rw [AList.lookup_insert_ne here] at foundNew
      exact .inl (waits_iff.mpr ⟨new, foundNew, waitsNew⟩)

variable {isPartial : Bool}

theorem findSubtask_upsert_none {reported : Reported} {update : NatsSubtaskUpdate} {id : String}
    (absent : findSubtask (Reported.upsert id isPartial now reported update).subtasks subtaskId =
      none) : findSubtask reported.subtasks subtaskId = none := by
  unfold Reported.upsert at absent
  split at absent
  · split at absent
    · exact absent
    · exact absent
    · dsimp only at absent
      rw [findSubtask_changed (reportSubtask_id isPartial update now)] at absent
      exact Option.map_eq_none_iff.mp absent
  · rw [findSubtask, find?_append] at absent
    exact (Option.or_eq_none_iff.mp absent).1

theorem newSubtask_status {id : String} {update : NatsSubtaskUpdate} :
    (newSubtask id isPartial update now).status =
      (subtaskStatusFromStr update.status).getD .pending := by
  cases isPartial <;> rfl

/-- A subtask that waits after a report waited, or the report says so, or it has brought it. -/
theorem Reported.waiting_foldl {reported : Reported} {updates : List NatsSubtaskUpdate}
    {id : String}
    (waits : waiting (updates.foldl (Reported.upsert id isPartial now) reported).subtasks subtaskId =
      true) :
    waiting reported.subtasks subtaskId = true ∨ ∃ entry ∈ updates, entry.subtaskId = subtaskId ∧
      (subtaskStatusFromStr entry.status = some .pending ∨
        subtaskStatusFromStr entry.status = none ∧
          findSubtask reported.subtasks subtaskId = none) := by
  induction updates generalizing reported with
  | nil => exact .inl waits
  | cons update rest ih =>
    rcases ih waits with before | ⟨entry, member, own, told | ⟨silent, absent⟩⟩
    · -- what the first entry makes of the subtask
      by_cases told : update.subtaskId = subtaskId ∧
          (subtaskStatusFromStr update.status = some .pending ∨
            subtaskStatusFromStr update.status = none ∧
              findSubtask reported.subtasks subtaskId = none)
      · exact .inr ⟨update, mem_cons_self, told⟩
      · refine .inl ?_
        unfold Reported.upsert at before
        split at before
        · split at before
          · exact before
          · exact before
          · have sameId := reportSubtask_id isPartial update now
            by_cases own : update.subtaskId = subtaskId
            · refine waiting_changeSubtask sameId (fun subtask pending => ?_) before
              rw [reportSubtask_status] at pending
              cases parsed : subtaskStatusFromStr update.status with
              | none => simpa [parsed] using pending
              | some status =>
                rw [parsed, Option.getD_some] at pending
                exact absurd ⟨own, .inl (parsed.trans (congrArg some pending))⟩ told
            · exact waiting_changeSubtask_ne before sameId own
        · rcases waiting_append before with old | ⟨absent, added⟩
          · exact old
          · obtain ⟨own, pending⟩ := waiting_singleton.mp added
            rw [newSubtask_status] at pending
            have brought : update.subtaskId = subtaskId := by
              cases isPartial <;> exact own
            cases parsed : subtaskStatusFromStr update.status with
            | none => exact absurd ⟨brought, .inr ⟨parsed, absent⟩⟩ told
            | some status =>
              rw [parsed, Option.getD_some] at pending
              exact absurd ⟨brought, .inl (parsed.trans (congrArg some pending))⟩ told
    · exact .inr ⟨entry, mem_cons_of_mem _ member, own, .inl told⟩
    · exact .inr ⟨entry, mem_cons_of_mem _ member, own,
        .inr ⟨silent, findSubtask_upsert_none absent⟩⟩

theorem rehydrate_waiting {update : NatsTaskUpdate} {description projectId : Option String}
    (rehydrated : store.rehydrate update description projectId now = some stored)
    (found : stored.tasks.lookup update.taskId = some task)
    (waits : waiting task.subtasks subtaskId = true) :
    store.waits update.taskId subtaskId = true ∨
      ∃ entry ∈ update.subtasks, entry.subtaskId = subtaskId ∧
        (subtaskStatusFromStr entry.status = some .pending ∨
          subtaskStatusFromStr entry.status = none ∧
            store.subtask update.taskId subtaskId = none) := by
  rcases rehydrate_cases rehydrated with ⟨rfl, -⟩ | ⟨unknown, fresh, -, sent, rfl⟩
  · exact .inl (waits_iff.mpr ⟨task, found, waits⟩)
  · have absent : store.subtask update.taskId subtaskId = none := by
      rw [TaskStore.subtask, unknown]
    rw [putTask, AList.lookup_insert, Option.some.injEq] at found
    rw [← found, sent] at waits
    obtain ⟨subtask, member, own, pending⟩ := waiting_mem waits
    obtain ⟨entry, entryMem, rfl⟩ := mem_map.mp member
    refine .inr ⟨entry, entryMem, own, ?_⟩
    have same : (natsSubtaskToDomain update.taskId entry now).status =
      (subtaskStatusFromStr entry.status).getD .pending := rfl
    rw [same] at pending
    cases parsed : subtaskStatusFromStr entry.status with
    | none => exact .inr ⟨rfl, absent⟩
    | some status =>
      rw [parsed, Option.getD_some] at pending
      exact .inl (congrArg some pending)

theorem waits_applyUpdate {update : NatsTaskUpdate} {description projectId : Option String}
    (waits : (store.applyUpdateWithMetadata update description projectId now).waits taskId
      subtaskId = true) :
    store.waits taskId subtaskId = true ∨ (update.taskId = taskId ∧
      ∃ entry ∈ update.subtasks, entry.subtaskId = subtaskId ∧
        (subtaskStatusFromStr entry.status = some .pending ∨
          subtaskStatusFromStr entry.status = none ∧ store.subtask taskId subtaskId = none)) := by
  obtain ⟨new, foundNew, waitsNew⟩ := waits_iff.mp waits
  by_cases here : taskId = update.taskId
  · subst here
    rcases applyUpdate_task foundNew with
      before | ⟨-, ready, task, _, rehydrated, found, rfl, rfl⟩
    · exact .inl (waits_iff.mpr ⟨new, before, waitsNew⟩)
    · rcases Reported.waiting_foldl waitsNew with before | ⟨entry, sent, own, told | silent⟩
      · exact (rehydrate_waiting rehydrated found before).imp_right fun told => ⟨rfl, told⟩
      · exact .inr ⟨rfl, entry, sent, own, .inl told⟩
      · refine .inr ⟨rfl, entry, sent, own, .inr ⟨silent.1, ?_⟩⟩
        rcases rehydrate_cases rehydrated with ⟨rfl, -⟩ | ⟨unknown, -⟩
        · rw [TaskStore.subtask, found]
          exact silent.2
        · rw [TaskStore.subtask, unknown]
  · exact .inl (waits_iff.mpr ⟨new, lookup_of_applyUpdate_ne here foundNew, waitsNew⟩)

theorem waits_apply {operation : TaskOperation}
    (waits : (operation.apply store now).waits taskId subtaskId = true) :
    store.waits taskId subtaskId = true ∨ operation.rearms taskId = some subtaskId ∨
      operation.SaysPending store taskId subtaskId := by
  cases operation with
  | applyUpdate update description projectId =>
    exact (waits_applyUpdate waits).imp_right Or.inr
  | updateTask owner status subtasks description projectId =>
    exact (waits_updateTask waits).imp_right Or.inr
  | pauseTask owner => exact .inl (stillWaits_of_controlled edits_pauseTask.controlled waits)
  | resumeTask owner => exact .inl (stillWaits_of_controlled edits_resumeTask.controlled waits)
  | cancelTask owner => exact .inl (stillWaits_of_controlled edits_cancelTask waits)
  | failSubtasks owner subtaskIds =>
    exact .inl (stillWaits_of_controlled edits_failSubtasks waits)
  | markStaleTasksFailed timeout =>
    exact .inl (stillWaits_of_controlled edits_markStaleTasksFailed.controlled waits)
  | revertSweptSubtask owner other rearmed =>
    rcases waits_revertSweptSubtask waits with before | ⟨rfl, own, same⟩
    · exact .inl before
    · exact .inr (.inl (by simp [TaskOperation.rearms, own, same]))
  | retrySubtask owner other expectedAttempt =>
    rcases waits_retrySubtask waits with before | ⟨own, same⟩
    · exact .inl before
    · exact .inr (.inl (by simp [TaskOperation.rearms, own, same]))

end UltimateCoders.Gateway
