import UltimateCoders.Gateway.PublishFailure

/-! # Attempts

A dispatch carries the attempt of its subtask, and reports are recognised by it. Two
steps count a further attempt: a retry, and the failure of a remote publication. A
subtask that is swept back is dispatched again under the attempt it had.
-/

namespace UltimateCoders.Gateway

open Governance (Instant)
open UltimateCoders.Graph (TaskStatus SubtaskStatus)
open TaskStore
open Transition (Run)

variable {store stored : TaskStore} {taskId subtaskId otherTask otherId : String}
  {task updated : Task} {subtask old : Subtask} {now : Instant}

theorem subtask_congr (same : stored.tasks = store.tasks) :
    stored.subtask taskId subtaskId = store.subtask taskId subtaskId := by
  unfold TaskStore.subtask
  rw [same]

theorem subtask_putTask_ne {change : Subtask → Subtask} (same : stored.tasks = store.tasks)
    (lookedUp : store.tasks.lookup otherTask = some task)
    (changes : updated.subtasks = changeSubtask task.subtasks otherId change)
    (sameId : ∀ subtask, (change subtask).id = subtask.id)
    (apart : ¬ (otherTask = taskId ∧ otherId = subtaskId)) :
    (stored.putTask otherTask updated).subtask taskId subtaskId =
      store.subtask taskId subtaskId := by
  by_cases here : otherTask = taskId
  · subst here
    have other : otherId ≠ subtaskId := fun sameSubtask => apart ⟨rfl, sameSubtask⟩
    rw [subtask_putTask_self, changes, findSubtask_changeSubtask_ne sameId other]
    unfold TaskStore.subtask
    simp only [lookedUp]
  · unfold TaskStore.subtask
    rw [putTask, AList.lookup_insert_ne (Ne.symm here), same]

theorem subtask_updateSubtaskStatus_ne {status : SubtaskStatus}
    (apart : ¬ (otherTask = taskId ∧ otherId = subtaskId)) :
    (store.updateSubtaskStatus otherTask otherId status now).subtask taskId subtaskId =
      store.subtask taskId subtaskId := by
  unfold updateSubtaskStatus
  split
  · rfl
  · rename_i task lookedUp
    split
    · rfl
    · apply subtask_putTask_ne _ lookedUp rfl _ apart
      · split_ifs <;> rfl
      · exact fun _ => rfl

theorem subtask_incrementDispatchRetry_ne (apart : ¬ (otherTask = taskId ∧ otherId = subtaskId)) :
    (store.incrementDispatchRetry otherTask otherId now).2.subtask taskId subtaskId =
      store.subtask taskId subtaskId := by
  unfold incrementDispatchRetry
  split
  · rfl
  · rename_i task lookedUp
    split
    · rfl
    · apply subtask_putTask_ne rfl lookedUp rfl _ apart
      exact fun _ => rfl

variable {dispatch : Dispatch}

theorem subtask_handlePublishFailure_ne
    (apart : ¬ (dispatch.taskId = taskId ∧ dispatch.subtask.id = subtaskId)) :
    (handlePublishFailure store dispatch now).subtask taskId subtaskId =
      store.subtask taskId subtaskId := by
  unfold handlePublishFailure
  dsimp only
  split
  · split
    · rw [subtask_updateSubtaskStatus_ne apart, subtask_incrementDispatchRetry_ne apart]
    · rw [subtask_updateSubtaskStatus_ne apart, subtask_incrementDispatchRetry_ne apart]
  · exact subtask_updateSubtaskStatus_ne apart

def TaskStore.AtAttempt (store : TaskStore) (taskId subtaskId : String) (attempt : UInt32) : Prop :=
  ∃ subtask, store.subtask taskId subtaskId = some subtask ∧ subtask.dispatchRetryCount = attempt

variable {attempt : UInt32}

theorem atAttempt_updateSubtaskStatus {status : SubtaskStatus}
    (counted : store.AtAttempt taskId subtaskId attempt) :
    (store.updateSubtaskStatus otherTask otherId status now).AtAttempt taskId subtaskId attempt := by
  obtain ⟨subtask, found, count⟩ := counted
  by_cases here : otherTask = taskId ∧ otherId = subtaskId
  · obtain ⟨rfl, rfl⟩ := here
    exact ⟨_, subtask_updateSubtaskStatus found, count⟩
  · exact ⟨subtask, (subtask_updateSubtaskStatus_ne here).trans found, count⟩

theorem atAttempt_markReady {mouth : Mouth} {projectId : String} {gate : Gate}
    {ready : List Subtask} (counted : store.AtAttempt taskId subtaskId attempt) :
    (markReady mouth otherTask projectId gate now ready store).2.AtAttempt taskId subtaskId
      attempt := by
  induction ready generalizing store with
  | nil => exact counted
  | cons first rest ih =>
    unfold markReady
    split
    · exact ih (atAttempt_updateSubtaskStatus counted)
    · split
      · exact ih counted
      · exact ih (atAttempt_updateSubtaskStatus counted)

theorem atAttempt_handlePublishFailure (counted : store.AtAttempt taskId subtaskId attempt) :
    (handlePublishFailure store dispatch now).AtAttempt taskId subtaskId
      (attempt + UInt32.ofNat (if dispatch.taskId = taskId ∧ dispatch.subtask.id = subtaskId ∧
        dispatch.subtask.dispatchMode = .remote then 1 else 0)) := by
  obtain ⟨subtask, found, rfl⟩ := counted
  by_cases here : dispatch.taskId = taskId ∧ dispatch.subtask.id = subtaskId
  · obtain ⟨rfl, rfl⟩ := here
    refine ⟨_, subtask_handlePublishFailure found, ?_⟩
    cases mode : dispatch.subtask.dispatchMode with
    | remote | preferRemote => simp [failPublication]
  · refine ⟨subtask, (subtask_handlePublishFailure_ne here).trans found, ?_⟩
    rw [if_neg fun all => here ⟨all.1, all.2.1⟩]
    simp

theorem atAttempt_retrySubtask {nodeId : String} {expectedAttempt : UInt32}
    (counted : store.AtAttempt taskId subtaskId attempt) :
    (store.retrySubtask otherTask nodeId expectedAttempt now).2.AtAttempt taskId subtaskId
      (attempt + UInt32.ofNat (if otherTask = taskId ∧ nodeId = subtaskId ∧
        (store.retrySubtask otherTask nodeId expectedAttempt now).1.isOk = true then 1 else 0)) := by
  obtain ⟨subtask, found, rfl⟩ := counted
  rcases retrySubtask_cases store otherTask nodeId expectedAttempt now with
    ⟨refused, same⟩ | ⟨task, node, accepted⟩
  · refine ⟨subtask, by rw [same]; exact found, ?_⟩
    simp [refused]
  · unfold AtAttempt
    rw [subtask_congr accepted.tasks]
    by_cases here : otherTask = taskId ∧ nodeId = subtaskId
    · obtain ⟨rfl, rfl⟩ := here
      obtain ⟨other, lookedUp, first⟩ := subtask_eq_some.mp found
      rw [accepted.found, Option.some.injEq] at lookedUp
      subst lookedUp
      rw [accepted.foundNode, Option.some.injEq] at first
      subst first
      refine ⟨retried (expectedAttempt + 1) node, ?_, ?_⟩
      · rw [subtask_putTask_self]
        apply findSubtask_changeSubtask _ accepted.foundNode
        exact fun _ => rfl
      · simp [accepted.result, Except.isOk, Except.toBool, retried, accepted.current]
    · refine ⟨subtask, ?_, ?_⟩
      · rw [subtask_putTask_ne rfl accepted.found Task.subtasks_retry (fun _ => rfl) here]
        exact found
      · rw [if_neg fun all => here ⟨all.1, all.2.1⟩]
        simp

theorem findSubtask_of_extends {relation : Subtask → Subtask → Prop} {before after : List Subtask}
    (ids : ∀ old new, relation old new → new.id = old.id)
    (extended : Extends relation before after) (found : findSubtask before subtaskId = some old) :
    ∃ new, findSubtask after subtaskId = some new ∧ relation old new := by
  induction before generalizing after with
  | nil => cases found
  | cons first rest ih =>
    obtain ⟨new, atFirst, related⟩ := extended 0 first rfl
    cases after with
    | nil => cases atFirst
    | cons other later =>
      rw [List.getElem?_cons_zero, Option.some.injEq] at atFirst
      subst atFirst
      unfold findSubtask at found ih ⊢
      have sameId := ids first other related
      by_cases here : first.id = subtaskId
      · rw [List.find?_cons_of_pos (by simpa using here), Option.some.injEq] at found
        subst found
        exact ⟨other, List.find?_cons_of_pos (by simpa [sameId] using here), related⟩
      · rw [List.find?_cons_of_neg (by simpa using here)] at found
        rw [List.find?_cons_of_neg (by simpa [sameId] using here)]
        exact ih (fun position old atOld => extended (position + 1) old atOld) found

theorem atAttempt_of_operation {operation : TaskOperation} (other : operation.retries = false)
    (stays : ((operation.apply store now).tasks.lookup taskId).isSome = true)
    (counted : store.AtAttempt taskId subtaskId attempt) :
    (operation.apply store now).AtAttempt taskId subtaskId attempt := by
  obtain ⟨subtask, found, count⟩ := counted
  obtain ⟨task, lookedUp, first⟩ := subtask_eq_some.mp found
  obtain ⟨later, lookedUpLater⟩ := Option.isSome_iff_exists.mp stays
  have kept := keepsTask_of_operation operation other lookedUp lookedUpLater
  obtain ⟨new, firstLater, keeps⟩ :=
    findSubtask_of_extends (fun _ _ keeps => keeps.id_eq) kept.subtasks first
  exact ⟨new, subtask_eq_some.mpr ⟨later, lookedUpLater, firstLater⟩, keeps.attempt_eq.trans count⟩

namespace GatewayState

variable {sha256Hex : String → String} {before after source target : GatewayState}
  {action : GatewayAction} {actions : List GatewayAction}

/-- How often the action counts a further attempt of the subtask: a retry that is
accepted does, and so does the failure of a remote publication. -/
def counts (gateway : GatewayState) (taskId subtaskId : String) (action : GatewayAction) : Nat :=
  match action with
  | .operate (.retrySubtask otherTask nodeId expectedAttempt) now =>
    if otherTask = taskId ∧ nodeId = subtaskId ∧
      (gateway.store.retrySubtask otherTask nodeId expectedAttempt now).1.isOk = true then 1 else 0
  | .handleFailure dispatcher now =>
    match gateway.failing (.handleFailure dispatcher now) with
    | some dispatch =>
      if dispatch.taskId = taskId ∧ dispatch.subtask.id = subtaskId ∧
        dispatch.subtask.dispatchMode = .remote then 1 else 0
    | none => 0
  | _ => 0

/-- How often a run counts a further attempt of the subtask. -/
def countings (sha256Hex : String → String) (taskId subtaskId : String) :
    GatewayState → List GatewayAction → Nat
  | _, [] => 0
  | gateway, action :: rest =>
    gateway.counts taskId subtaskId action +
      match gateway.step sha256Hex action with
      | some next => countings sha256Hex taskId subtaskId next rest
      | none => 0

def StepsKeeping (sha256Hex : String → String) (taskId : String) (before : GatewayState)
    (action : GatewayAction) (after : GatewayState) : Prop :=
  before.Steps sha256Hex action after ∧ (after.store.tasks.lookup taskId).isSome = true

theorem atAttempt_of_step (step : before.StepsKeeping sha256Hex taskId action after)
    (counted : before.store.AtAttempt taskId subtaskId attempt) :
    after.store.AtAttempt taskId subtaskId
      (attempt + UInt32.ofNat (before.counts taskId subtaskId action)) := by
  obtain ⟨moved, stays⟩ := step
  cases action with
  | operate operation now =>
    rw [Steps, GatewayState.step, Option.some.injEq] at moved
    subst moved
    cases operation with
    | retrySubtask otherTask nodeId expectedAttempt => exact atAttempt_retrySubtask counted
    | _ => simpa [counts] using atAttempt_of_operation rfl stays counted
  | select mouth otherTask gate now =>
    rw [Steps, GatewayState.step, Option.some.injEq] at moved
    subst moved
    simpa [counts, selectReady] using atAttempt_markReady counted
  | publish position =>
    obtain ⟨dispatch, rest, _, rfl⟩ := steps_publish moved
    simpa [counts] using counted
  | failPublish position =>
    obtain ⟨dispatch, rest, _, rfl⟩ := steps_failPublish moved
    simpa [counts] using counted
  | handleFailure position now =>
    obtain ⟨dispatch, rest, found, rfl⟩ := steps_handleFailure moved
    simp only [counts, failing, found]
    exact atAttempt_handlePublishFailure counted

theorem atAttempt_of_run (run : Run (StepsKeeping sha256Hex taskId) source actions target)
    (counted : source.store.AtAttempt taskId subtaskId attempt) :
    target.store.AtAttempt taskId subtaskId
      (attempt + UInt32.ofNat (countings sha256Hex taskId subtaskId source actions)) := by
  induction run generalizing attempt with
  | nil state => simpa [countings] using counted
  | cons first _ ih =>
    have next := ih (atAttempt_of_step first counted)
    rw [countings, first.1, UInt32.ofNat_add, ← UInt32.add_assoc]
    exact next

end GatewayState

theorem fence_of_other_attempt {update : NatsSubtaskUpdate} {received : UInt64}
    (stamped : update.attemptId = some received)
    (other : received ≠ subtask.dispatchRetryCount.toUInt64) : fence subtask update ≠ .passes := by
  unfold fence
  simp only [stamped, other, ne_eq, not_false_eq_true, if_true]
  split <;> simp

theorem findSubtask_upsert {reported : Reported} {update : NatsSubtaskUpdate}
    (fenced : update.subtaskId = subtaskId → fence subtask update ≠ .passes)
    (found : findSubtask reported.subtasks subtaskId = some subtask) :
    findSubtask (reported.upsert taskId true now update).subtasks subtaskId = some subtask := by
  unfold Reported.upsert
  split
  · rename_i other foundOther
    rw [if_pos rfl]
    split
    · exact found
    · exact found
    · rename_i passes
      have apart : update.subtaskId ≠ subtaskId := by
        intro here
        rw [here, found, Option.some.injEq] at foundOther
        subst foundOther
        exact fenced here passes
      dsimp only
      rw [findSubtask_changeSubtask_ne (fun _ => reportSubtask_id _ _ _ _) apart]
      exact found
  · unfold findSubtask at found ⊢
    rw [List.find?_append, found]
    rfl

theorem findSubtask_foldl_upsert {reported : Reported} {updates : List NatsSubtaskUpdate}
    (fenced : ∀ update ∈ updates, update.subtaskId = subtaskId → fence subtask update ≠ .passes)
    (found : findSubtask reported.subtasks subtaskId = some subtask) :
    findSubtask (updates.foldl (Reported.upsert taskId true now) reported).subtasks subtaskId =
      some subtask := by
  induction updates generalizing reported with
  | nil => exact found
  | cons update rest ih =>
    apply ih fun other later => fenced other (List.mem_cons_of_mem _ later)
    exact findSubtask_upsert (fenced update List.mem_cons_self) found

/-- Reports of workers that tell of the subtask under the attempt change nothing of it. -/
def TaskStore.Rejects (store : TaskStore) (taskId subtaskId : String) (attempt : UInt32) : Prop :=
  ∀ (update : NatsTaskUpdate) (description projectId : Option String) (now : Instant)
    (new : Subtask), update.taskId = taskId → update.isPartial = true →
    (∀ entry ∈ update.subtasks, entry.subtaskId = subtaskId →
      entry.attemptId = some attempt.toUInt64) →
    (store.applyUpdateWithMetadata update description projectId now).subtask taskId subtaskId =
      some new → store.subtask taskId subtaskId = some new

theorem rejects_of_atAttempt {current : UInt32} (counted : store.AtAttempt taskId subtaskId current)
    (other : attempt ≠ current) : store.Rejects taskId subtaskId attempt := by
  intro update description projectId now new sameTask isPartial stamped applied
  subst sameTask
  obtain ⟨subtask, found, rfl⟩ := counted
  obtain ⟨task, lookedUp, first⟩ := subtask_eq_some.mp found
  obtain ⟨later, lookedUpLater, firstLater⟩ := subtask_eq_some.mp applied
  have fresh : store.fullSnapshotIsStale update = false := by
    simp [fullSnapshotIsStale, isPartial]
  have fenced : ∀ entry ∈ update.subtasks, entry.subtaskId = subtaskId →
      fence subtask entry ≠ .passes := by
    intro entry member same
    apply fence_of_other_attempt (stamped entry member same)
    exact fun equal => other (UInt32.toUInt64_inj.mp equal)
  unfold applyUpdateWithMetadata at lookedUpLater
  simp only [fresh, Bool.false_eq_true, if_false, rehydrate_of_known lookedUp, lookedUp,
    tasks_recordEvents] at lookedUpLater
  have kept := lookup_of_evictCompletedTasks lookedUpLater
  rw [putTask, AList.lookup_insert, Option.some.injEq] at kept
  rw [← kept, isPartial] at firstLater
  rw [found, ← firstLater]
  exact (findSubtask_foldl_upsert fenced first).symm

theorem mem_markReady {mouth : Mouth} {projectId : String} {gate : Gate} {ready : List Subtask}
    (member : dispatch ∈ (markReady mouth taskId projectId gate now ready store).1) :
    dispatch.subtask.dispatchRetryCount < maxDispatchRetries := by
  induction ready generalizing store with
  | nil => cases member
  | cons first rest ih =>
    unfold markReady at member
    split at member
    · exact ih member
    · rename_i below
      split at member
      · exact ih member
      · rcases List.mem_cons.mp member with rfl | later
        · exact UInt32.not_le.mp below
        · exact ih later

section Keys

variable (sha256Hex : String → String) (graphId nodeId : String)

/-- The text whose hash is the key of an attempt. -/
def keyText (attempt : UInt32) : String :=
  graphId ++ ":" ++ nodeId ++ ":" ++ toString attempt.toNat

/-- The hash, as far as keys keep it, tells apart the attempts that are dispatched. -/
def CollisionFree : Prop :=
  ∀ first second : UInt32, first < maxDispatchRetries → second < maxDispatchRetries →
    (sha256Hex (keyText graphId nodeId first)).toList.take 32 =
      (sha256Hex (keyText graphId nodeId second)).toList.take 32 →
    keyText graphId nodeId first = keyText graphId nodeId second

variable {sha256Hex graphId nodeId}

theorem keyText_injective {first second : UInt32}
    (same : keyText graphId nodeId first = keyText graphId nodeId second) : first = second := by
  exact UInt32.toNat_inj.mp (Graph.repr_injective ((String.append_right_inj _).mp same))

theorem deriveIdempotencyKey_injective (free : CollisionFree sha256Hex graphId nodeId)
    {first second : UInt32} (firstBelow : first < maxDispatchRetries)
    (secondBelow : second < maxDispatchRetries)
    (same : deriveIdempotencyKey sha256Hex graphId nodeId (toString first.toNat) =
      deriveIdempotencyKey sha256Hex graphId nodeId (toString second.toNat)) : first = second := by
  have texts := free first second firstBelow secondBelow (String.ofList_injective same)
  exact keyText_injective texts

end Keys

theorem Dispatch.message_attempt (sha256Hex : String → String) (dispatch : Dispatch) :
    (dispatch.message sha256Hex).retryCount = dispatch.subtask.dispatchRetryCount ∧
      (dispatch.message sha256Hex).idempotencyKey =
        deriveIdempotencyKey sha256Hex dispatch.taskId dispatch.subtask.id
          (toString dispatch.subtask.dispatchRetryCount.toNat) := by
  unfold Dispatch.message
  cases dispatch.mouth with
  | publishReadySubtasks | dispatchReadySubtasks => exact ⟨rfl, rfl⟩

theorem add_ofNat_eq_self {count : UInt32} {number : Nat} :
    count + UInt32.ofNat number = count ↔ 2 ^ 32 ∣ number := by
  rw [UInt32.add_eq_left, ← UInt32.toNat_inj, UInt32.toNat_ofNat', UInt32.toNat_zero,
    Nat.dvd_iff_mod_eq_zero]

namespace GatewayState

variable {sha256Hex : String → String} {before middle after final : GatewayState}
  {markFirst markSecond : GatewayAction} {actions later : List GatewayAction}
  {first second : Dispatch}

/-- The action marks the subtask that the store has under the ids of the dispatch. -/
def Marks (gateway : GatewayState) (action : GatewayAction) (dispatch : Dispatch) : Prop :=
  dispatch ∈ gateway.selected action ∧
    gateway.store.subtask dispatch.taskId dispatch.subtask.id = some dispatch.subtask

theorem Marks.below (marks : before.Marks markFirst first) :
    first.subtask.dispatchRetryCount < maxDispatchRetries := by
  have member := marks.1
  unfold selected at member
  split at member
  · exact mem_markReady member
  · cases member

theorem Marks.counts_eq_zero (marks : before.Marks markFirst first) :
    before.counts taskId subtaskId markFirst = 0 := by
  have member := marks.1
  unfold selected at member
  split at member
  · rfl
  · cases member

theorem Marks.stepsKeeping (marks : before.Marks markFirst first)
    (step : before.Steps sha256Hex markFirst after) :
    before.StepsKeeping sha256Hex first.taskId markFirst after := by
  have counted : before.store.AtAttempt first.taskId first.subtask.id
      first.subtask.dispatchRetryCount := ⟨_, marks.2, rfl⟩
  refine ⟨step, ?_⟩
  have member := marks.1
  unfold selected at member
  split at member
  · rw [← Option.some.inj step]
    obtain ⟨subtask, found, _⟩ := atAttempt_markReady counted
    obtain ⟨task, lookedUp, _⟩ := subtask_eq_some.mp found
    exact Option.isSome_iff_exists.mpr ⟨task, lookedUp⟩
  · cases member

/-- Two dispatches of one subtask have attempts and keys of their own, and reports of
the first are rejected after the second, exactly if an attempt was counted in between. -/
theorem attempts_differ_iff (marksFirst : before.Marks markFirst first)
    (run : Run (StepsKeeping sha256Hex first.taskId) before (markFirst :: actions) middle)
    (marksSecond : middle.Marks markSecond second) (sameTask : second.taskId = first.taskId)
    (sameSubtask : second.subtask.id = first.subtask.id)
    (step : middle.Steps sha256Hex markSecond after)
    (free : CollisionFree sha256Hex first.taskId first.subtask.id) :
    ((first.message sha256Hex).retryCount ≠ (second.message sha256Hex).retryCount ∧
      (first.message sha256Hex).idempotencyKey ≠ (second.message sha256Hex).idempotencyKey ∧
      after.store.Rejects first.taskId first.subtask.id first.subtask.dispatchRetryCount ↔
        ¬ 2 ^ 32 ∣ countings sha256Hex first.taskId first.subtask.id before
          (markFirst :: actions)) ∧
    ∀ later final, Run (StepsKeeping sha256Hex first.taskId) after later final →
      ¬ 2 ^ 32 ∣ countings sha256Hex first.taskId first.subtask.id before
        (markFirst :: actions ++ markSecond :: later) →
      final.store.Rejects first.taskId first.subtask.id first.subtask.dispatchRetryCount := by
  have start : before.store.AtAttempt first.taskId first.subtask.id
      first.subtask.dispatchRetryCount := ⟨_, marksFirst.2, rfl⟩
  have reached := atAttempt_of_run run start
  have keeps := marksSecond.stepsKeeping step
  rw [sameTask] at keeps
  have count : second.subtask.dispatchRetryCount = first.subtask.dispatchRetryCount +
      UInt32.ofNat (countings sha256Hex first.taskId first.subtask.id before
        (markFirst :: actions)) := by
    obtain ⟨subtask, found, counted⟩ := reached
    have marked := marksSecond.2
    rw [sameTask, sameSubtask, found, Option.some.injEq] at marked
    rw [← marked, counted]
  have dispatched := atAttempt_of_step keeps reached
  rw [marksSecond.counts_eq_zero, show UInt32.ofNat 0 = 0 from rfl, UInt32.add_zero] at dispatched
  obtain ⟨firstAttempt, firstKey⟩ := first.message_attempt sha256Hex
  obtain ⟨secondAttempt, secondKey⟩ := second.message_attempt sha256Hex
  refine ⟨?_, ?_⟩
  · rw [firstAttempt, secondAttempt, firstKey, secondKey, sameTask, sameSubtask]
    constructor
    · rintro ⟨different, -, -⟩ counted
      rw [count, add_ofNat_eq_self.mpr counted] at different
      exact different rfl
    · intro counted
      have different : first.subtask.dispatchRetryCount ≠ second.subtask.dispatchRetryCount := by
        rw [count]
        exact fun same => counted (add_ofNat_eq_self.mp same.symm)
      refine ⟨different, fun sameKey => different ?_, ?_⟩
      · exact deriveIdempotencyKey_injective free marksFirst.below marksSecond.below sameKey
      · apply rejects_of_atAttempt dispatched
        exact fun same => counted (add_ofNat_eq_self.mp same.symm)
  · intro later final laterRun counted
    apply rejects_of_atAttempt (atAttempt_of_run (run.append (.cons keeps laterRun)) start)
    exact fun same => counted (add_ofNat_eq_self.mp same.symm)

end GatewayState

/-- The hashes of the three keys of one subtask. -/
def sampleHash (text : String) : String :=
  if text = "task-1:node-1:0" then
    "e180d91d44aaf1a1e487ed519d23bc2203d98d425cbfa72ff372dd396fc7e8ba"
  else if text = "task-1:node-1:1" then
    "db6591430c50234faeb02f8584c8016e367b3e2492dca9a9967eb8aad4a09ba7"
  else if text = "task-1:node-1:2" then
    "8d7d0a9a25ff89a31ef315c7599fe758d124da10a14f50e29beee20f1016d343"
  else ""

theorem collisionFree_sampleHash : CollisionFree sampleHash "task-1" "node-1" := by
  have three : ∀ attempt : UInt32, attempt < maxDispatchRetries →
      attempt = 0 ∨ attempt = 1 ∨ attempt = 2 := by
    intro attempt below
    have bound : attempt.toNat < 3 := UInt32.lt_iff_toNat_lt.mp below
    simp only [← UInt32.toNat_inj]
    simp only [UInt32.reduceToNat]
    omega
  have zero : (sampleHash (keyText "task-1" "node-1" 0)).toList.head? = some 'e' := by
    decide +kernel
  have one : (sampleHash (keyText "task-1" "node-1" 1)).toList.head? = some 'd' := by
    decide +kernel
  have two : (sampleHash (keyText "task-1" "node-1" 2)).toList.head? = some '8' := by
    decide +kernel
  intro first second firstBelow secondBelow same
  have heads := congrArg List.head? same
  simp only [List.head?_take, reduceCtorEq, if_false] at heads
  rcases three first firstBelow with rfl | rfl | rfl <;>
    rcases three second secondBelow with rfl | rfl | rfl <;>
    first
      | rfl
      | simp [zero, one, two] at heads

/-- A waiting subtask, marked at the attempt. -/
def sampleDispatch (attempt : UInt32) : Dispatch where
  mouth := .dispatchReadySubtasks
  taskId := "task-1"
  projectId := "proj"
  subtask := { sampleSubtask "node-1" .pending .preferRemote with dispatchRetryCount := attempt }
  subject := "uc.subtask.execute"

/-- The dispatcher of one subtask with a worker. -/
def sampleSelect (now : Instant) : GatewayAction :=
  .select .dispatchReadySubtasks "task-1" (fun _ => some "uc.subtask.execute") now

namespace GatewayState

def sample : GatewayState := ⟨sampleStore [sampleSubtask "node-1" .pending .preferRemote], [], []⟩

theorem attempts_differ_iff_retried :
    ∃ middle after : GatewayState,
      Run (StepsKeeping sampleHash "task-1") sample
        [sampleSelect 1, .publish 0, .operate (.failSubtasks "task-1" ["node-1"]) 2,
          .operate (.retrySubtask "task-1" "node-1" 0) 3] middle ∧
      middle.Steps sampleHash (sampleSelect 4) after ∧
      ((sampleDispatch 0).message sampleHash).idempotencyKey ≠
        ((sampleDispatch 1).message sampleHash).idempotencyKey ∧
      after.store.Rejects "task-1" "node-1" 0 := by
  have marksFirst : sample.Marks (sampleSelect 1) (sampleDispatch 0) :=
    ⟨List.mem_singleton.mpr rfl, rfl⟩
  have run : Run (StepsKeeping sampleHash "task-1") sample
      [sampleSelect 1, .publish 0, .operate (.failSubtasks "task-1" ["node-1"]) 2,
        .operate (.retrySubtask "task-1" "node-1" 0) 3] _ :=
    .cons ⟨rfl, rfl⟩ (.cons ⟨rfl, rfl⟩ (.cons ⟨rfl, rfl⟩ (.cons ⟨rfl, rfl⟩ (.nil _))))
  obtain ⟨middle, run, marksSecond⟩ : ∃ middle : GatewayState,
      Run (StepsKeeping sampleHash "task-1") sample
        [sampleSelect 1, .publish 0, .operate (.failSubtasks "task-1" ["node-1"]) 2,
          .operate (.retrySubtask "task-1" "node-1" 0) 3] middle ∧
      middle.Marks (sampleSelect 4) (sampleDispatch 1) :=
    ⟨_, run, (show _ ∈ [sampleDispatch 1] from List.mem_singleton.mpr rfl), rfl⟩
  obtain ⟨after, step⟩ : ∃ after, middle.Steps sampleHash (sampleSelect 4) after := ⟨_, rfl⟩
  have differ := attempts_differ_iff marksFirst run marksSecond rfl rfl step
    collisionFree_sampleHash
  exact ⟨middle, after, run, step, (differ.1.mpr (by decide)).2⟩

def sampleReport (attempt : UInt64) : NatsTaskUpdate where
  taskId := "task-1"
  status := "in_progress"
  isPartial := true
  subtasks := [{
    execution := ⟨none, none, none, none, none⟩
    subtaskId := "node-1"
    status := "completed"
    assignedWorker := some "worker-1"
    description := none
    dependsOn := none
    result := some "done"
    usage := none
    review := none
    attemptId := some attempt }]
  result := none
  messageId := none

/-- A subtask is swept back after its dispatch. It is dispatched again under the same
attempt and the same key, and a report of the first dispatch completes it. -/
theorem attempts_differ_fails_swept :
    ∃ final : GatewayState,
      Run (StepsKeeping sampleHash "task-1") sample
        [sampleSelect 1, .publish 0, .operate (.revertSweptSubtask "task-1" "node-1" true) 2,
          sampleSelect 3, .publish 1] final ∧
      final.published = [(sampleDispatch 0).message sampleHash,
        (sampleDispatch 0).message sampleHash] ∧
      ¬ final.store.Rejects "task-1" "node-1" 0 := by
  obtain ⟨final, run, published, assigned, completed⟩ : ∃ final : GatewayState,
      Run (StepsKeeping sampleHash "task-1") sample
        [sampleSelect 1, .publish 0, .operate (.revertSweptSubtask "task-1" "node-1" true) 2,
          sampleSelect 3, .publish 1] final ∧
      final.published = [(sampleDispatch 0).message sampleHash,
        (sampleDispatch 0).message sampleHash] ∧
      (final.store.subtask "task-1" "node-1").map Subtask.status = some .assigned ∧
      ((final.store.applyUpdate (sampleReport 0) 4).subtask "task-1" "node-1").map
        Subtask.status = some .completed :=
    ⟨_, .cons ⟨rfl, rfl⟩ (.cons ⟨rfl, rfl⟩ (.cons ⟨rfl, rfl⟩ (.cons ⟨rfl, rfl⟩
      (.cons ⟨rfl, rfl⟩ (.nil _))))), rfl, rfl, by decide +kernel⟩
  refine ⟨final, run, published, fun rejects => ?_⟩
  have stamped : ∀ entry ∈ (sampleReport 0).subtasks, entry.subtaskId = "node-1" →
      entry.attemptId = some (UInt32.toUInt64 0) := by
    intro entry member _
    rw [List.mem_singleton.mp member]
    rfl
  obtain ⟨new, applied, status⟩ := Option.map_eq_some_iff.mp completed
  rw [rejects (sampleReport 0) none none 4 new rfl rfl stamped applied, Option.map_some,
    status] at assigned
  cases assigned

end GatewayState

end UltimateCoders.Gateway
