import UltimateCoders.Gateway.Edits

/-! # Outcomes and control actions are kept

Projections and reports are fenced by status and by attempt, each by rules of its
own. A subtask with an outcome keeps it under all of them; only a retry takes a
failed subtask up again, and counts it.
-/

namespace UltimateCoders.Gateway

open Governance (Instant)
open UltimateCoders.Graph (TaskStatus SubtaskStatus)
open TaskStore List

/-- Every subtask of the first list is still at its place in the second, where the
relation holds between the two. -/
def Extends (relation : Subtask → Subtask → Prop) (before after : List Subtask) : Prop :=
  ∀ (position : Nat) (old : Subtask), before[position]? = some old →
    ∃ new, after[position]? = some new ∧ relation old new

/-- An outcome is kept, and the attempt in any case. -/
structure KeepsOutcome (old new : Subtask) : Prop where
  id_eq : new.id = old.id
  attempt_eq : new.dispatchRetryCount = old.dispatchRetryCount
  status_eq : protectedNode old.status = true → new.status = old.status

variable {relation : Subtask → Subtask → Prop} {before after original current : List Subtask}
  {subtaskId : String} {change : Subtask → Subtask}

theorem KeepsOutcome.refl (subtask : Subtask) : KeepsOutcome subtask subtask :=
  ⟨rfl, rfl, fun _ => rfl⟩

theorem Extends.refl (reflexive : ∀ subtask, relation subtask subtask) (subtasks : List Subtask) :
    Extends relation subtasks subtasks :=
  fun _ old found => ⟨old, found, reflexive old⟩

theorem Extends.append (extended : Extends relation before after) (added : List Subtask) :
    Extends relation before (after ++ added) := by
  intro position old found
  obtain ⟨new, foundNew, related⟩ := extended position old found
  have inside : position < after.length := (List.getElem?_eq_some_iff.mp foundNew).1
  exact ⟨new, by rw [getElem?_append_left inside, foundNew], related⟩

theorem Extends.map (related : ∀ subtask ∈ before, relation subtask (change subtask)) :
    Extends relation before (before.map change) := by
  intro position old found
  refine ⟨change old, ?_, related old (mem_of_getElem? found)⟩
  rw [getElem?_map, found, Option.map_some]

variable {description projectId : Option String} {subtasks : List Subtask}

theorem findSubtask_changeSubtask {old : Subtask}
    (sameId : ∀ subtask, (change subtask).id = subtask.id)
    (found : findSubtask subtasks subtaskId = some old) :
    findSubtask (changeSubtask subtasks subtaskId change) subtaskId = some (change old) := by
  induction subtasks with
  | nil => cases found
  | cons first rest ih =>
    simp only [findSubtask, changeSubtask] at ih found ⊢
    by_cases here : first.id = subtaskId
    · simp only [find?_cons, here, decide_true, Option.some.injEq] at found
      rw [← found]
      simp [findIdx_cons, here, sameId]
    · simp only [find?_cons, here, decide_false] at found
      simpa [findIdx_cons, here] using ih found

theorem findSubtask_changeSubtask_ne {otherId : String}
    (sameId : ∀ subtask, (change subtask).id = subtask.id) (apart : otherId ≠ subtaskId)
    (subtasks : List Subtask) :
    findSubtask (changeSubtask subtasks otherId change) subtaskId =
      findSubtask subtasks subtaskId := by
  induction subtasks with
  | nil => rfl
  | cons first rest ih =>
    simp only [findSubtask, changeSubtask] at ih ⊢
    by_cases here : first.id = otherId
    · simp [findIdx_cons, here, sameId, apart]
    · simp [findIdx_cons, here, find?_cons, ih]

theorem Extends.changeSubtask (ids : ∀ old new, relation old new → new.id = old.id)
    (extended : Extends relation original current)
    (changes : ∀ old new, findSubtask original subtaskId = some old →
      findSubtask current subtaskId = some new → relation old new → relation old (change new)) :
    Extends relation original (changeSubtask current subtaskId change) := by
  intro position old found
  obtain ⟨new, foundNew, related⟩ := extended position old found
  by_cases here : current.findIdx (fun subtask => subtask.id = subtaskId) = position
  · refine ⟨change new, ?_, ?_⟩
    · rw [TaskStore.changeSubtask, here, getElem?_modify_eq, foundNew]
      rfl
    · have first : findSubtask current subtaskId = some new :=
        findSubtask_of_getElem? (by rw [here]; exact foundNew)
      refine changes old new ?_ first related
      -- no subtask before this place has the id, now or then
      have sameId : old.id = subtaskId := by
        rw [← ids old new related]
        exact (mem_of_findSubtask first).2
      apply findSubtask_of_getElem?
      have firstThere : original.findIdx (fun subtask => subtask.id = subtaskId) = position := by
        obtain ⟨inside, at_⟩ := List.getElem?_eq_some_iff.mp found
        rw [findIdx_eq inside]
        refine ⟨by simp [at_, sameId], fun earlier sooner => ?_⟩
        obtain ⟨other, foundOther, relatedOther⟩ := extended earlier original[earlier]
          (getElem?_eq_getElem (sooner.trans inside))
        have notYet := not_of_lt_findIdx (here ▸ sooner)
        obtain ⟨insideOther, same⟩ := List.getElem?_eq_some_iff.mp foundOther
        rw [same] at notYet
        rw [← ids _ _ relatedOther]
        simpa using notYet
      rw [firstThere]
      exact found
  · refine ⟨new, ?_, related⟩
    simp only [TaskStore.changeSubtask, getElem?_modify, if_neg here, foundNew]
    rfl

/-! ## Projections -/

theorem validateNodes_ok {task : Task} {incoming : Subtask}
    (valid : validateNodes task subtasks = .ok ()) (member : incoming ∈ subtasks) {node : Subtask}
    (found : findSubtask task.subtasks incoming.id = some node)
    (outcome : protectedNode node.status = true) : incoming.status = node.status := by
  induction subtasks with
  | nil => exact absurd member not_mem_nil
  | cons first rest ih =>
    unfold validateNodes at valid
    rcases mem_cons.mp member with rfl | later
    · simp only [found] at valid
      split_ifs at valid with attempt reopens
      · by_contra different
        apply reopens
        simp [outcome, Ne.symm different]
    · refine ih ?_ later
      split at valid
      · split_ifs at valid with attempt reopens
        exact valid
      · split_ifs at valid with controlled
        exact valid

theorem Projected.extends_upsert {projected : Projected} {incoming : Subtask}
    (valid : ∀ node, findSubtask original incoming.id = some node →
      protectedNode node.status = true → incoming.status = node.status)
    (extended : Extends KeepsOutcome original projected.subtasks) :
    Extends KeepsOutcome original (projected.upsert incoming).subtasks := by
  unfold Projected.upsert
  split
  · apply extended.changeSubtask fun _ _ kept => kept.id_eq
    intro old new found _ kept
    exact ⟨kept.id_eq, kept.attempt_eq, valid old found⟩
  · exact extended.append _

theorem Projected.extends_foldl {projected : Projected}
    (valid : ∀ incoming ∈ subtasks, ∀ node, findSubtask original incoming.id = some node →
      protectedNode node.status = true → incoming.status = node.status)
    (extended : Extends KeepsOutcome original projected.subtasks) :
    Extends KeepsOutcome original (subtasks.foldl Projected.upsert projected).subtasks := by
  induction subtasks generalizing projected with
  | nil => exact extended
  | cons incoming rest ih =>
    apply ih fun other later => valid other (mem_cons_of_mem _ later)
    exact Projected.extends_upsert (valid incoming mem_cons_self) extended

/-! ## Reports -/

section

variable (isPartial : Bool) (update : NatsSubtaskUpdate) (now : Instant)

@[simp] theorem reportSubtask_id (subtask : Subtask) :
    (reportSubtask isPartial update now subtask).id = subtask.id := by
  unfold reportSubtask
  cases update.result <;> cases isPartial <;> rfl

@[simp] theorem reportSubtask_status (subtask : Subtask) :
    (reportSubtask isPartial update now subtask).status =
      (subtaskStatusFromStr update.status).getD subtask.status := by
  unfold reportSubtask
  cases update.result <;> cases isPartial <;> rfl

@[simp] theorem reportSubtask_attempt (subtask : Subtask) :
    (reportSubtask isPartial update now subtask).dispatchRetryCount =
      subtask.dispatchRetryCount := by
  unfold reportSubtask
  cases update.result <;> cases isPartial <;> rfl

end

theorem status_of_fence_passes {subtask : Subtask} {update : NatsSubtaskUpdate}
    (passes : fence subtask update = .passes) (outcome : protectedNode subtask.status = true) :
    subtaskStatusFromStr update.status = some subtask.status := by
  unfold fence at passes
  cases attempt : update.attemptId with
  | none =>
    simp only [attempt, outcome, Bool.and_self, Bool.true_and] at passes
    split_ifs at passes with contradicts
    · simpa using contradicts
  | some received =>
    simp only [attempt, outcome, Bool.true_and] at passes
    split_ifs at passes with contradicts other
    · have same : received = subtask.dispatchRetryCount.toUInt64 := by simpa using other
      simpa [same] using contradicts

theorem Reported.extends_upsert {reported : Reported} {update : NatsSubtaskUpdate} {taskId : String}
    {isPartial : Bool} {now : Instant}
    (fresh : isPartial = false → ∀ node, findSubtask original update.subtaskId = some node →
      protectedNode node.status = true → subtaskStatusFromStr update.status = some node.status)
    (extended : Extends KeepsOutcome original reported.subtasks) :
    Extends KeepsOutcome original (reported.upsert taskId isPartial now update).subtasks := by
  unfold Reported.upsert
  split
  · rename_i subtask found
    split
    · exact extended
    · exact extended
    · rename_i passes
      apply extended.changeSubtask fun _ _ kept => kept.id_eq
      intro old new foundOld foundNew kept
      refine ⟨by rw [reportSubtask_id, kept.id_eq], by rw [reportSubtask_attempt, kept.attempt_eq],
        fun outcome => ?_⟩
      rw [reportSubtask_status]
      cases isPartial with
      | false => rw [fresh rfl old foundOld outcome, Option.getD_some]
      | true =>
        rw [found, Option.some.injEq] at foundNew
        subst foundNew
        have still := kept.status_eq outcome
        rw [status_of_fence_passes passes (by rw [still]; exact outcome), Option.getD_some, still]
  · exact extended.append _

theorem Reported.extends_foldl {reported : Reported} {updates : List NatsSubtaskUpdate}
    {taskId : String} {isPartial : Bool} {now : Instant}
    (fresh : isPartial = false → ∀ update ∈ updates, ∀ node,
      findSubtask original update.subtaskId = some node → protectedNode node.status = true →
      subtaskStatusFromStr update.status = some node.status)
    (extended : Extends KeepsOutcome original reported.subtasks) :
    Extends KeepsOutcome original
      (updates.foldl (Reported.upsert taskId isPartial now) reported).subtasks := by
  induction updates generalizing reported with
  | nil => exact extended
  | cons update rest ih =>
    apply ih fun full other later => fresh full other (mem_cons_of_mem _ later)
    exact Reported.extends_upsert (fun full => fresh full update mem_cons_self) extended

/-! ## Operations -/

/-- Outcomes of a task are kept, and so is its own status if it is to be. -/
structure KeepsTask (controls : Bool) (old new : Task) : Prop where
  subtasks : Extends KeepsOutcome old.subtasks new.subtasks
  status : controls = true → protectedTask old.status = true → new.status = old.status

variable {store stored : TaskStore} {taskId id : String} {task updated old new : Task}
  {now : Instant} {controls : Bool}

theorem KeepsTask.refl (controls : Bool) (task : Task) : KeepsTask controls task task :=
  ⟨.refl .refl _, fun _ _ => rfl⟩

theorem KeepsTask.of_subtasks (same : new.subtasks = old.subtasks) : KeepsTask false old new :=
  ⟨by rw [same]; exact .refl .refl _, nofun⟩

theorem related_putTask {relation : Task → Task → Prop} (reflexive : ∀ task, relation task task)
    (same : stored.tasks = store.tasks) (found : store.tasks.lookup taskId = some task)
    (related : relation task updated) (before : store.tasks.lookup id = some old)
    (after : (stored.putTask taskId updated).tasks.lookup id = some new) : relation old new := by
  by_cases here : id = taskId
  · subst here
    rw [putTask, AList.lookup_insert, Option.some.injEq] at after
    rw [found, Option.some.injEq] at before
    rw [← after, ← before]
    exact related
  · rw [putTask, AList.lookup_insert_ne here, same, before, Option.some.injEq] at after
    rw [← after]
    exact reflexive old

theorem related_self {relation : Task → Task → Prop} (reflexive : ∀ task, relation task task)
    (before : store.tasks.lookup id = some old) (after : store.tasks.lookup id = some new) :
    relation old new := by
  rw [before, Option.some.injEq] at after
  rw [← after]
  exact reflexive old

theorem lookup_of_evict (after : (store.evict taskId task).tasks.lookup id = some new) :
    store.tasks.lookup id = some new := by
  rw [evict] at after
  by_cases here : id = taskId
  · rw [here, AList.lookup_erase] at after
    cases after
  · rw [AList.lookup_erase_ne here, tasks_untrackAll] at after
    exact after

theorem lookup_of_evictCompletedTasks
    (after : (store.evictCompletedTasks.2).tasks.lookup id = some new) :
    store.tasks.lookup id = some new := by
  have left : ∀ (evicted : List ((_ : String) × Task)) (store : TaskStore),
      (evicted.foldl (fun store entry => store.evict entry.1 entry.2) store).tasks.lookup id =
        some new → store.tasks.lookup id = some new := by
    intro evicted
    induction evicted with
    | nil => exact fun _ found => found
    | cons entry rest ih => exact fun store found => lookup_of_evict (ih _ found)
  unfold evictCompletedTasks at after
  split at after
  · exact after
  · exact left _ store after

variable {update : NatsTaskUpdate}

theorem fresh_of_not_stale (found : store.tasks.lookup update.taskId = some task)
    (fresh : store.fullSnapshotIsStale update = false) (full : update.isPartial = false) :
    (protectedTask task.status = true → taskStatusFromStr update.status = some task.status) ∧
      ∀ incoming ∈ update.subtasks, ∀ node,
        findSubtask task.subtasks incoming.subtaskId = some node →
        protectedNode node.status = true →
        subtaskStatusFromStr incoming.status = some node.status := by
  unfold fullSnapshotIsStale at fresh
  simp only [full, Bool.not_false, Bool.true_and, found, Bool.or_eq_false_iff,
    any_eq_false] at fresh
  refine ⟨fun controlled => ?_, fun incoming member node foundNode outcome => ?_⟩
  · simpa [controlled] using fresh.1
  · have entry := fresh.2 incoming member
    simp only [foundNode, outcome, Bool.true_and, Bool.or_eq_true, not_or] at entry
    simpa using entry.1

theorem lookup_rehydrate_other {update : NatsTaskUpdate} (apart : id ≠ update.taskId)
    (rehydrated : store.rehydrate update description projectId now = some stored) :
    stored.tasks.lookup id = store.tasks.lookup id := by
  rcases rehydrate_cases rehydrated with ⟨rfl, -⟩ | ⟨-, fresh, -, -, rfl⟩
  · rfl
  · rw [putTask, AList.lookup_insert_ne apart, tasks_trackAll, recordEvent_tasks]

theorem rehydrate_of_known (known : store.tasks.lookup update.taskId = some task) :
    store.rehydrate update description projectId now = some store := by
  simp only [rehydrate, known, Option.isSome_some, if_true]

theorem lookup_of_applyUpdate_ne (apart : id ≠ update.taskId)
    (after : (store.applyUpdateWithMetadata update description projectId now).tasks.lookup id =
        some new) :
    store.tasks.lookup id = some new := by
  unfold applyUpdateWithMetadata at after
  split at after
  · exact after
  · split at after
    · exact after
    · rename_i ready rehydrated
      have still := lookup_rehydrate_other apart rehydrated
      split at after
      · rw [← still]
        exact after
      · dsimp only at after
        rw [tasks_recordEvents] at after
        have kept := lookup_of_evictCompletedTasks after
        rw [putTask, AList.lookup_insert_ne apart, still] at kept
        exact kept

/-- A task that is there after a report was there, or is what the report makes of it. -/
theorem applyUpdate_task
    (after : (store.applyUpdateWithMetadata update description projectId now).tasks.lookup
      update.taskId = some new) :
    store.tasks.lookup update.taskId = some new ∨
    store.fullSnapshotIsStale update = false ∧ ∃ ready task reported,
      store.rehydrate update description projectId now = some ready ∧
      ready.tasks.lookup update.taskId = some task ∧
      reported = update.subtasks.foldl (Reported.upsert task.id update.isPartial now)
        { subtasks := task.subtasks, assignedTimes := ready.assignedSubtaskTimes } ∧
      new = { task with
        status := reportedStatus update task.status reported.subtasks
        updatedAt := now
        subtasks := reported.subtasks } := by
  unfold applyUpdateWithMetadata at after
  split at after
  · exact .inl after
  · rename_i fresh
    split at after
    · exact .inl after
    · rename_i ready rehydrated
      split at after
      · rename_i missing
        rw [missing] at after
        cases after
      · rename_i task found
        dsimp only at after
        rw [tasks_recordEvents] at after
        have kept := lookup_of_evictCompletedTasks after
        rw [putTask, AList.lookup_insert, Option.some.injEq] at kept
        exact .inr ⟨by simpa using fresh, ready, task, _, rehydrated, found, rfl, kept.symm⟩

theorem task_of_applyUpdate (before : store.tasks.lookup update.taskId = some old)
    (fresh : store.fullSnapshotIsStale update = false)
    (after : (store.applyUpdateWithMetadata update description projectId now).tasks.lookup
      update.taskId = some new) :
    ∃ reported : Reported, reported.subtasks = old.subtasks ∧ new = { old with
      status := reportedStatus update old.status (update.subtasks.foldl
        (Reported.upsert old.id update.isPartial now) reported).subtasks
      updatedAt := now
      subtasks := (update.subtasks.foldl
        (Reported.upsert old.id update.isPartial now) reported).subtasks } := by
  simp only [applyUpdateWithMetadata, fresh, Bool.false_eq_true, if_false,
    rehydrate_of_known before, before] at after
  rw [tasks_recordEvents] at after
  have stored := lookup_of_evictCompletedTasks after
  rw [putTask, AList.lookup_insert, Option.some.injEq] at stored
  rw [← stored]
  exact ⟨_, rfl, rfl⟩

theorem keepsTask_applyUpdate (before : store.tasks.lookup id = some old)
    (after : (store.applyUpdateWithMetadata update description projectId now).tasks.lookup id =
        some new) :
    KeepsTask true old new := by
  by_cases here : id = update.taskId
  · subst here
    cases fresh : store.fullSnapshotIsStale update with
    | true =>
      rw [applyUpdateWithMetadata, if_pos fresh] at after
      exact related_self (.refl true) before after
    | false =>
      -- the task was known, so the snapshot was compared with it
      obtain ⟨reported, same, rfl⟩ := task_of_applyUpdate before fresh after
      refine ⟨?_, fun _ controlled => ?_⟩
      · apply Reported.extends_foldl
        · exact fun full => (fresh_of_not_stale before fresh full).2
        · rw [same]
          exact .refl .refl _
      · dsimp only
        unfold reportedStatus
        split
        · rfl
        · rename_i full
          rw [(fresh_of_not_stale before fresh (Bool.eq_false_iff.mpr full)).1 controlled]
          unfold deriveStatus
          cases status : old.status <;> simp [status, protectedTask] at controlled ⊢
  · exact related_self (.refl true) before (lookup_of_applyUpdate_ne here after)

section Projections

variable {incoming node : Subtask} {incomings : List Subtask} {projected : Projected}
  {current : Task} {id : String}

/-- The projection of a subtask may be applied to the task. -/
def Fits (current : Task) (incoming : Subtask) : Prop :=
  match findSubtask current.subtasks incoming.id with
  | some node => node.dispatchRetryCount = incoming.dispatchRetryCount ∧
      (protectedNode node.status = true → node.status = incoming.status)
  | none => protectedTask current.status = false

theorem validateNodes_cons : validateNodes current (incoming :: incomings) = .ok () ↔
    Fits current incoming ∧ validateNodes current incomings = .ok () := by
  cases found : findSubtask current.subtasks incoming.id with
  | none =>
    simp only [validateNodes, Fits, found]
    cases protectedTask current.status <;> simp
  | some node =>
    simp only [validateNodes, Fits, found]
    by_cases attempt : node.dispatchRetryCount = incoming.dispatchRetryCount
    · by_cases same : node.status = incoming.status
      · simp [attempt, same]
      · cases outcome : protectedNode node.status <;> simp [attempt, same]
    · simp [attempt]

theorem validateNodes_iff :
    validateNodes current incomings = .ok () ↔ ∀ incoming ∈ incomings, Fits current incoming := by
  induction incomings with
  | nil => simp [validateNodes]
  | cons first rest ih => rw [forall_mem_cons, ← ih, validateNodes_cons]

theorem validateProjection_iff {parsed : TaskStatus} :
    validateProjection current parsed incomings = .ok () ↔
      (protectedTask current.status = true → current.status = parsed) ∧
        ∀ incoming ∈ incomings, Fits current incoming := by
  unfold validateProjection
  split_ifs with reverses
  · simp only [Bool.and_eq_true, decide_eq_true_eq] at reverses
    simp [reverses.1, reverses.2]
  · simp only [Bool.and_eq_true, decide_eq_true_eq, not_and, not_not] at reverses
    rw [validateNodes_iff]
    exact ⟨fun valid => ⟨reverses, valid⟩, fun valid => valid.2⟩

theorem Projected.find_upsert_ne (apart : incoming.id ≠ id)
    (known : findSubtask projected.subtasks id = some node) :
    findSubtask (projected.upsert incoming).subtasks id = some node := by
  unfold Projected.upsert
  split
  · rw [← known]
    have sameId (subtask : Subtask) : (projectSubtask incoming subtask).id = subtask.id := rfl
    exact findSubtask_changeSubtask_ne sameId apart _
  · rw [findSubtask, find?_append, ← findSubtask, known]
    rfl

theorem Projected.find_upsert (known : findSubtask projected.subtasks incoming.id = some node) :
    findSubtask (projected.upsert incoming).subtasks incoming.id =
      some (projectSubtask incoming node) := by
  unfold Projected.upsert
  rw [known]
  have sameId (subtask : Subtask) : (projectSubtask incoming subtask).id = subtask.id := rfl
  exact findSubtask_changeSubtask sameId known

theorem Projected.find_foldl_ne (absent : ∀ incoming ∈ incomings, incoming.id ≠ id)
    (known : findSubtask projected.subtasks id = some node) :
    findSubtask (incomings.foldl Projected.upsert projected).subtasks id = some node := by
  induction incomings generalizing projected with
  | nil => exact known
  | cons first rest ih =>
    obtain ⟨apart, others⟩ := forall_mem_cons.mp absent
    exact ih others (Projected.find_upsert_ne apart known)

theorem Projected.find_foldl (distinct : (incomings.map Subtask.id).Nodup)
    (member : incoming ∈ incomings)
    (known : findSubtask projected.subtasks incoming.id = some node) :
    findSubtask (incomings.foldl Projected.upsert projected).subtasks incoming.id =
      some (projectSubtask incoming node) := by
  induction incomings generalizing projected with
  | nil => exact absurd member not_mem_nil
  | cons first rest ih =>
    rw [map_cons, nodup_cons] at distinct
    rw [foldl_cons]
    rcases mem_cons.mp member with rfl | later
    · refine Projected.find_foldl_ne (fun other otherMem same => ?_) (Projected.find_upsert known)
      exact distinct.1 (same ▸ mem_map_of_mem otherMem)
    · refine ih distinct.2 later (Projected.find_upsert_ne (fun same => ?_) known)
      exact distinct.1 (same ▸ mem_map_of_mem later)

end Projections

theorem createProjected_of_known {parsed : TaskStatus} {description projectId : String}
    (known : store.tasks.lookup taskId = some task) :
    store.createProjected taskId parsed subtasks description projectId now = store := by
  simp only [createProjected, known, Option.isNone_some, Bool.false_and, Bool.false_eq_true, if_false]

theorem lookup_createProjected {parsed : TaskStatus} {description projectId : String}
    (apart : id ≠ taskId) :
    (store.createProjected taskId parsed subtasks description projectId now).tasks.lookup id =
      store.tasks.lookup id := by
  unfold createProjected
  split
  · rw [putTask, AList.lookup_insert_ne apart, recordEvent_tasks]
  · rfl

/-- A projection leaves a task that is held as it is, or is valid for it and applied to it. -/
theorem updateTask_cases {status description projectId : String}
    (before : store.tasks.lookup id = some old)
    (after : (store.updateTask taskId status subtasks description projectId now).2.tasks.lookup id =
      some new) :
    new = old ∨ ∃ parsed, id = taskId ∧ protoStatusToTaskStatus status = .ok parsed ∧
      validateProjection old parsed subtasks = .ok () ∧
      new = { old with
        status := parsed
        updatedAt := now
        subtasks := (subtasks.foldl Projected.upsert { subtasks := old.subtasks }).subtasks } := by
  have kept : store.tasks.lookup id = some new → new = old := by
    intro found
    rw [before, Option.some.injEq] at found
    exact found.symm
  unfold updateTask at after
  split at after
  · exact .inl (kept after)
  · rename_i parsed ok
    dsimp only at after
    split at after
    · exact .inl (kept after)
    · rename_i valid
      by_cases here : id = taskId
      · -- the task is known, so the projection was compared with it
        subst here
        simp only [before, createProjected_of_known before, tasks_recordEvents, putTask,
          AList.lookup_insert, Option.some.injEq] at after valid
        exact .inr ⟨parsed, rfl, ok, valid, after.symm⟩
      · split at after
        · rw [lookup_createProjected here] at after
          exact .inl (kept after)
        · rw [tasks_recordEvents, putTask, AList.lookup_insert_ne here,
            lookup_createProjected here] at after
          exact .inl (kept after)

theorem keepsTask_updateTask {status description projectId : String}
    (before : store.tasks.lookup id = some old)
    (after : (store.updateTask taskId status subtasks description projectId now).2.tasks.lookup id =
      some new) : KeepsTask true old new := by
  rcases updateTask_cases before after with rfl | ⟨parsed, -, -, valid, rfl⟩
  · exact .refl true _
  · unfold validateProjection at valid
    split_ifs at valid with reverses
    refine ⟨?_, fun _ controlled => ?_⟩
    · apply Projected.extends_foldl
      · exact fun incoming member node found outcome =>
          validateNodes_ok valid member found outcome
      · exact .refl .refl _
    · by_contra different
      apply reverses
      simp [controlled, Ne.symm different]

theorem keepsOutcome_fail {subtask failed : Subtask} (waits : isOpen subtask.status = true)
    (sameId : failed.id = subtask.id)
    (sameAttempt : failed.dispatchRetryCount = subtask.dispatchRetryCount) :
    KeepsOutcome subtask failed := by
  have none : protectedNode subtask.status = false := by
    cases status : subtask.status <;> simp [status, isOpen, protectedNode] at waits ⊢
  refine ⟨sameId, sameAttempt, fun outcome => ?_⟩
  rw [none] at outcome
  cases outcome

theorem Controlled.keeps {first second : Subtask} (controlled : Controlled first second) :
    KeepsOutcome first second := by
  obtain ⟨⟨status, worker, rfl⟩, same | ⟨waits, -⟩⟩ := controlled
  · exact ⟨rfl, rfl, fun _ => same⟩
  · exact keepsOutcome_fail waits rfl rfl

theorem Extends.of_forall₂ (related : Forall₂ relation before after) :
    Extends relation before after := by
  intro position first found
  obtain ⟨inside, rfl⟩ := List.getElem?_eq_some_iff.mp found
  have insideAfter : position < after.length := related.length_eq ▸ inside
  exact ⟨after[position], getElem?_eq_getElem insideAfter, related.get inside insideAfter⟩

theorem Edits.keepsTask (edits : Edits Controlled store stored)
    (before : store.tasks.lookup id = some old) (after : stored.tasks.lookup id = some new) :
    KeepsTask false old new := by
  obtain ⟨first, found, -, related⟩ := edits id new after
  rw [before, Option.some.injEq] at found
  subst found
  exact ⟨.of_forall₂ (related.imp fun _ _ => Controlled.keeps), nofun⟩

theorem keepsTask_revertSweptSubtask {subtaskId : String} {rearmed : Bool}
    (before : store.tasks.lookup id = some old)
    (after : (store.revertSweptSubtask taskId subtaskId rearmed now).2.tasks.lookup id = some new) :
    KeepsTask false old new := by
  unfold revertSweptSubtask at after
  split at after
  · exact related_self (.refl false) before after
  · rename_i task found
    split at after
    · exact related_self (.refl false) before after
    · rename_i subtask foundSubtask
      split at after
      · rename_i runs
        refine related_putTask (.refl false) rfl found ⟨?_, nofun⟩ before after
        apply (Extends.refl KeepsOutcome.refl task.subtasks).changeSubtask fun _ _ kept => kept.id_eq
        intro first second foundFirst foundSecond kept
        rw [foundSubtask, Option.some.injEq] at foundFirst foundSecond
        subst foundFirst foundSecond
        apply keepsOutcome_fail
        · rcases (Bool.or_eq_true _ _).mp runs with running | assigned
          · rw [of_decide_eq_true running]
            rfl
          · rw [of_decide_eq_true assigned]
            rfl
        · rfl
        · rfl
      · exact related_self (.refl false) before after

/-- An outcome and its attempt are kept, unless a retry takes up a failed subtask
under the next attempt. -/
structure OutcomeStep (retries : Bool) (old new : Subtask) : Prop where
  id_eq : new.id = old.id
  outcome : protectedNode old.status = true →
    (new.status = old.status ∧ new.dispatchRetryCount = old.dispatchRetryCount) ∨
      (retries = true ∧ old.status = .failed ∧ new.status = .pending ∧
        new.dispatchRetryCount.toNat = old.dispatchRetryCount.toNat + 1)

theorem OutcomeStep.refl (retries : Bool) (subtask : Subtask) : OutcomeStep retries subtask subtask :=
  ⟨rfl, fun _ => .inl ⟨rfl, rfl⟩⟩

theorem Extends.mono {weaker : Subtask → Subtask → Prop}
    (implied : ∀ old new, relation old new → weaker old new)
    (extended : Extends relation before after) : Extends weaker before after := by
  intro position old found
  obtain ⟨new, foundNew, related⟩ := extended position old found
  exact ⟨new, foundNew, implied old new related⟩

theorem KeepsTask.step (kept : KeepsTask controls old new) (retries : Bool) :
    Extends (OutcomeStep retries) old.subtasks new.subtasks := by
  apply kept.subtasks.mono
  exact fun first second keeps =>
    ⟨keeps.id_eq, fun outcome => .inl ⟨keeps.status_eq outcome, keeps.attempt_eq⟩⟩

def RetryStep (old new : Task) : Prop := Extends (OutcomeStep true) old.subtasks new.subtasks

theorem RetryStep.refl (task : Task) : RetryStep task task := Extends.refl (.refl true) _

theorem step_retrySubtask {nodeId : String} {expectedAttempt : UInt32}
    (before : store.tasks.lookup id = some old)
    (after : (store.retrySubtask taskId nodeId expectedAttempt now).2.tasks.lookup id = some new) :
    RetryStep old new := by
  rcases retrySubtask_cases store taskId nodeId expectedAttempt now with
    ⟨_, same⟩ | ⟨task, node, accepted⟩
  · rw [same] at after
    exact related_self .refl before after
  · rw [accepted.tasks] at after
    refine related_putTask .refl rfl accepted.found ?_ before after
    apply (RetryStep.refl task).changeSubtask fun _ _ step => step.id_eq
    intro first second foundFirst foundSecond step
    rw [accepted.foundNode, Option.some.injEq] at foundFirst foundSecond
    subst foundFirst foundSecond
    refine ⟨rfl, fun _ => .inr ⟨rfl, accepted.failed, rfl, ?_⟩⟩
    have below := expectedAttempt.toNat_lt
    have fits := accepted.fits
    rw [accepted.current, retried, UInt32.toNat_add]
    exact Nat.mod_eq_of_lt (by simp only [UInt32.toNat_one]; omega)

theorem keepsTask_of_operation (operation : TaskOperation) (other : operation.retries = false)
    (before : store.tasks.lookup id = some old)
    (after : (operation.apply store now).tasks.lookup id = some new) :
    KeepsTask operation.projects old new := by
  cases operation with
  | applyUpdate update description projectId => exact keepsTask_applyUpdate before after
  | updateTask taskId status subtasks description projectId =>
    exact keepsTask_updateTask before after
  | pauseTask taskId => exact edits_pauseTask.controlled.keepsTask before after
  | resumeTask taskId => exact edits_resumeTask.controlled.keepsTask before after
  | cancelTask taskId => exact edits_cancelTask.keepsTask before after
  | failSubtasks taskId subtaskIds => exact edits_failSubtasks.keepsTask before after
  | revertSweptSubtask taskId subtaskId rearmed => exact keepsTask_revertSweptSubtask before after
  | markStaleTasksFailed timeout =>
    exact edits_markStaleTasksFailed.controlled.keepsTask before after
  | retrySubtask taskId nodeId expectedAttempt => cases other

/-- Every operation leaves the subtasks of a task that stays in the store at their places
and keeps their outcomes; only a retry takes a failed one up, and counts it. A
projection or report keeps the status of a task that was paused or has an outcome. -/
theorem outcomes_of_operation (operation : TaskOperation)
    (before : store.tasks.lookup id = some old)
    (after : (operation.apply store now).tasks.lookup id = some new) :
    Extends (OutcomeStep operation.retries) old.subtasks new.subtasks ∧
      (operation.projects = true → protectedTask old.status = true → new.status = old.status) := by
  cases retries : operation.retries with
  | false =>
    have kept := keepsTask_of_operation operation retries before after
    exact ⟨kept.step false, kept.status⟩
  | true =>
    cases operation with
    | retrySubtask taskId nodeId expectedAttempt =>
      exact ⟨step_retrySubtask before after, nofun⟩
    | _ => cases retries

/-- A subtask without dependencies. -/
def sampleSubtask (id : String) (status : SubtaskStatus) (mode : DispatchMode) : Subtask where
  id := id
  parentId := "task-1"
  description := "fix it"
  status := status
  assignedWorker := none
  dependsOn := []
  fileConstraints := []
  expectedOutput := ""
  result := none
  dispatchMode := mode
  effectClass := .requiresWorker
  dispatchRetryCount := 0
  requiredCapabilities := []
  agentConfigJson := none
  steps := []
  retryCount := 0

def sampleTask (subtasks : List Subtask) (now : Instant) : Task where
  id := "task-1"
  description := "fix the build"
  projectId := "proj"
  status := .inProgress
  subtasks := subtasks
  createdAt := 0
  updatedAt := now

def sampleStore (subtasks : List Subtask) : TaskStore where
  tasks := AList.singleton "task-1" (sampleTask subtasks 0)
  durabilityFaults := []
  events := []
  lastHeartbeat := none
  assignedSubtaskTimes := ∅
  staleDispatchDropped := 0
  seenMessages := ∅

theorem outcomes_of_operation_retried :
    ∃ old new,
      (sampleStore [sampleSubtask "node-1" .completed .preferRemote,
        sampleSubtask "node-2" .failed .preferRemote]).tasks.lookup "task-1" = some old ∧
      ((TaskOperation.retrySubtask "task-1" "node-2" 0).apply
        (sampleStore [sampleSubtask "node-1" .completed .preferRemote,
          sampleSubtask "node-2" .failed .preferRemote]) 1).tasks.lookup "task-1" = some new ∧
      new.subtasks.map (fun subtask => (subtask.status, subtask.dispatchRetryCount)) =
        [(.completed, 0), (.pending, 1)] ∧
      Extends (OutcomeStep true) old.subtasks new.subtasks ∧
      (false = true → protectedTask old.status = true → new.status = old.status) := by
  have before : (sampleStore [sampleSubtask "node-1" .completed .preferRemote,
      sampleSubtask "node-2" .failed .preferRemote]).tasks.lookup "task-1" =
        some (sampleTask [sampleSubtask "node-1" .completed .preferRemote,
          sampleSubtask "node-2" .failed .preferRemote] 0) := rfl
  have after : ((TaskOperation.retrySubtask "task-1" "node-2" 0).apply
      (sampleStore [sampleSubtask "node-1" .completed .preferRemote,
        sampleSubtask "node-2" .failed .preferRemote]) 1).tasks.lookup "task-1" =
        some (sampleTask [sampleSubtask "node-1" .completed .preferRemote,
          { sampleSubtask "node-2" .pending .preferRemote with dispatchRetryCount := 1 }] 1) := rfl
  exact ⟨_, _, before, after, rfl, outcomes_of_operation _ before after⟩

end UltimateCoders.Gateway
