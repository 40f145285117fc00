import UltimateCoders.Gateway.Mutation
import UltimateCoders.Gateway.Waiting

/-! # When subtasks were assigned

The store notes when each assigned subtask was assigned. Every operation keeps these notes by hand,
beside the statuses that it writes. All do so but the update call, which writes the statuses alone.
-/

namespace UltimateCoders.Gateway

open Governance (Instant)
open UltimateCoders.Graph (TaskStatus SubtaskStatus)
open TaskStore
open Transition (Run)
open Projected List

def TaskStore.assignedSubtasks (store : TaskStore) : List String :=
  store.tasks.entries.flatMap fun entry => assignedIds entry.2.subtasks

/-- A time is noted for each assigned subtask, and for no other. -/
def TaskStore.TimesExact (store : TaskStore) : Prop :=
  ∀ subtaskId, subtaskId ∈ store.assignedSubtaskTimes.keys ↔ subtaskId ∈ store.assignedSubtasks

/-- The ids are distinct, and all belong to the task. -/
structure Owns (owner : String → String) (taskId : String) (ids : List String) : Prop where
  distinct : ids.Nodup
  owned : ∀ id ∈ ids, owner id = taskId

/-- Subtasks are under distinct ids, within each task and across tasks: every id has one owner. -/
def TaskStore.Apart (owner : String → String) (store : TaskStore) : Prop :=
  ∀ taskId task, store.tasks.lookup taskId = some task →
    Owns owner taskId (task.subtasks.map Subtask.id)

def isAssigned (subtasks : List Subtask) (subtaskId : String) : Bool :=
  (findSubtask subtasks subtaskId).any fun subtask => subtask.status = .assigned

def TaskStore.assigns (store : TaskStore) (taskId subtaskId : String) : Bool :=
  (store.tasks.lookup taskId).any fun task => isAssigned task.subtasks subtaskId

/-- The times are exact in a store whose subtasks have distinct ids. -/
structure Tracked (owner : String → String) (store : TaskStore) : Prop where
  apart : store.Apart owner
  times : ∀ subtaskId, subtaskId ∈ store.assignedSubtaskTimes ↔
    store.assigns (owner subtaskId) subtaskId = true

variable {owner : String → String} {store stored : TaskStore} {taskId subtaskId id : String}
  {task old new : Task} {subtasks : List Subtask} {node : Subtask} {change : Subtask → Subtask}
  {ids : List String} {now : Instant}

/-! ## Assigned subtasks of a list -/

theorem mem_assignedIds :
    id ∈ assignedIds subtasks ↔
      ∃ subtask ∈ subtasks, subtask.status = .assigned ∧ subtask.id = id := by
  simp [assignedIds, and_assoc]

theorem isAssigned_iff (distinct : (subtasks.map Subtask.id).Nodup) :
    isAssigned subtasks id = true ↔ id ∈ assignedIds subtasks := by
  rw [mem_assignedIds, isAssigned, Option.any_eq_true]
  constructor
  · rintro ⟨subtask, found, assigned⟩
    obtain ⟨member, own⟩ := mem_of_findSubtask found
    exact ⟨subtask, member, of_decide_eq_true assigned, own⟩
  · rintro ⟨subtask, member, assigned, rfl⟩
    exact ⟨subtask, findSubtask_of_mem distinct member, decide_eq_true assigned⟩

theorem isAssigned_changed (sameId : ∀ subtask, (change subtask).id = subtask.id)
    (first : findSubtask subtasks subtaskId = some node) :
    isAssigned (changeSubtask subtasks subtaskId change) id = true ↔
      if id = subtaskId then (change node).status = .assigned
      else isAssigned subtasks id = true := by
  unfold isAssigned
  rw [findSubtask_changed sameId]
  split
  · rename_i own
    subst own
    simp [first]
  · rename_i other
    simp [Ne.symm other]

variable {incomings : List Subtask} {hits : Subtask → Bool}

theorem isAssigned_map (distinct : (subtasks.map Subtask.id).Nodup)
    (sameId : ∀ subtask, (change subtask).id = subtask.id)
    (ended : ∀ subtask, (change subtask).status ≠ .assigned) :
    isAssigned (subtasks.map fun subtask => if hits subtask then change subtask else subtask) id =
        true ↔
      id ∉ assignedIds (subtasks.filter hits) ∧ isAssigned subtasks id = true := by
  have same : (fun subtask => decide (Subtask.id subtask = id)) ∘
      (fun subtask => if hits subtask then change subtask else subtask) =
        fun subtask => decide (subtask.id = id) := by
    funext subtask
    simp only [Function.comp_apply]
    split <;> simp [sameId]
  have hit : id ∈ assignedIds (subtasks.filter hits) ↔
      ∃ subtask, findSubtask subtasks id = some subtask ∧ hits subtask = true ∧
        subtask.status = .assigned := by
    rw [mem_assignedIds]
    constructor
    · rintro ⟨subtask, member, assigned, rfl⟩
      obtain ⟨inside, hit⟩ := mem_filter.mp member
      exact ⟨subtask, findSubtask_of_mem distinct inside, hit, assigned⟩
    · rintro ⟨subtask, found, hit, assigned⟩
      obtain ⟨member, own⟩ := mem_of_findSubtask found
      exact ⟨subtask, mem_filter.mpr ⟨member, hit⟩, assigned, own⟩
  rw [hit]
  unfold isAssigned findSubtask
  rw [find?_map, same]
  cases subtasks.find? fun subtask => decide (subtask.id = id) with
  | none => simp
  | some subtask => cases marked : hits subtask <;> simp [marked, ended]

theorem ids_map (sameId : ∀ subtask, (change subtask).id = subtask.id) :
    (subtasks.map fun subtask => if hits subtask then change subtask else subtask).map Subtask.id =
      subtasks.map Subtask.id := by
  rw [map_map]
  refine map_congr_left fun subtask _ => ?_
  simp only [Function.comp_apply]
  split <;> simp [sameId]

/-! ## What the times say of the store -/

theorem assigns_of_lookup (found : store.tasks.lookup taskId = some task) :
    store.assigns taskId id = isAssigned task.subtasks id := by
  simp [assigns, found]

theorem mem_assignedSubtasks (apart : store.Apart owner) :
    subtaskId ∈ store.assignedSubtasks ↔ store.assigns (owner subtaskId) subtaskId = true := by
  rw [assigns, Option.any_eq_true, assignedSubtasks, mem_flatMap]
  constructor
  · rintro ⟨entry, member, assigned⟩
    have found := AList.mem_lookup_iff.mpr member
    have owns := apart _ _ found
    obtain ⟨subtask, inside, _, rfl⟩ := mem_assignedIds.mp assigned
    rw [owns.owned _ (mem_map_of_mem inside)]
    exact ⟨entry.2, found, (isAssigned_iff owns.distinct).mpr assigned⟩
  · rintro ⟨task, found, assigned⟩
    exact ⟨_, AList.mem_lookup_iff.mp found,
      (isAssigned_iff (apart _ _ found).distinct).mp assigned⟩

theorem Tracked.exact (tracked : Tracked owner store) : store.TimesExact := by
  intro subtaskId
  rw [← AList.mem_keys, tracked.times, mem_assignedSubtasks tracked.apart]

theorem Tracked.of_exact (apart : store.Apart owner) (times : store.TimesExact) :
    Tracked owner store := by
  refine ⟨apart, fun subtaskId => ?_⟩
  rw [AList.mem_keys, times, mem_assignedSubtasks apart]

/-! ## Storing one task -/

section

variable (tracked : Tracked owner store)

include tracked

theorem Tracked.put (tasks : stored.tasks = store.tasks.insert taskId new)
    (owns : Owns owner taskId (new.subtasks.map Subtask.id))
    (own : ∀ id, owner id = taskId → (id ∈ stored.assignedSubtaskTimes ↔
      isAssigned new.subtasks id = true))
    (others : ∀ id, owner id ≠ taskId → (id ∈ stored.assignedSubtaskTimes ↔
      id ∈ store.assignedSubtaskTimes)) :
    Tracked owner stored := by
  refine ⟨fun otherId held found => ?_, fun id => ?_⟩
  · rw [tasks] at found
    by_cases here : otherId = taskId
    · subst here
      rw [AList.lookup_insert, Option.some.injEq] at found
      exact found ▸ owns
    · rw [AList.lookup_insert_ne here] at found
      exact tracked.apart otherId held found
  · unfold assigns
    rw [tasks]
    by_cases here : owner id = taskId
    · rw [own id here, here, AList.lookup_insert]
      rfl
    · rw [others id here, AList.lookup_insert_ne here]
      exact tracked.times id

theorem Tracked.of_same (tasks : stored.tasks = store.tasks)
    (times : stored.assignedSubtaskTimes = store.assignedSubtaskTimes) : Tracked owner stored := by
  refine ⟨fun taskId task found => tracked.apart taskId task (tasks ▸ found), fun id => ?_⟩
  unfold assigns
  rw [tasks, times]
  exact tracked.times id

section

variable (found : store.tasks.lookup taskId = some old)

include found

theorem Tracked.keep (tasks : stored.tasks = store.tasks.insert taskId new)
    (times : stored.assignedSubtaskTimes = store.assignedSubtaskTimes)
    (sameIds : new.subtasks.map Subtask.id = old.subtasks.map Subtask.id)
    (same : ∀ id, isAssigned new.subtasks id = isAssigned old.subtasks id) :
    Tracked owner stored := by
  refine tracked.put tasks (sameIds ▸ tracked.apart taskId old found) (fun id own => ?_)
    fun id _ => by rw [times]
  rw [times, tracked.times, own, assigns_of_lookup found, same]

theorem Tracked.changed (first : findSubtask old.subtasks subtaskId = some node)
    (tasks : stored.tasks = store.tasks.insert taskId new)
    (changed : new.subtasks = changeSubtask old.subtasks subtaskId change)
    (sameId : ∀ subtask, (change subtask).id = subtask.id)
    (times : ∀ id, id ∈ stored.assignedSubtaskTimes ↔
      if id = subtaskId then (change node).status =
        .assigned else id ∈ store.assignedSubtaskTimes) :
    Tracked owner stored := by
  have owns := tracked.apart taskId old found
  have owned : owner subtaskId = taskId := by
    rw [← (mem_of_findSubtask first).2]
    exact owns.owned _ (mem_map_of_mem (mem_of_find?_eq_some first))
  have sameIds : new.subtasks.map Subtask.id = old.subtasks.map Subtask.id := by
    rw [changed]
    exact Search.map_modify_eq sameId
  refine tracked.put tasks (sameIds ▸ owns) (fun id own => ?_) fun id other => ?_
  · rw [times, changed, isAssigned_changed sameId first]
    split
    · rfl
    · rw [tracked.times, own, assigns_of_lookup found]
  · rw [times, if_neg]
    rintro rfl
    exact other owned

theorem Tracked.ended (tasks : stored.tasks = store.tasks.insert taskId new)
    (changed : new.subtasks = old.subtasks.map fun subtask =>
      if hits subtask then change subtask else subtask)
    (sameId : ∀ subtask, (change subtask).id = subtask.id)
    (ended : ∀ subtask, (change subtask).status ≠ .assigned)
    (times : ∀ id, id ∈ stored.assignedSubtaskTimes ↔ id ∉ assignedIds (old.subtasks.filter hits) ∧
      id ∈ store.assignedSubtaskTimes) :
    Tracked owner stored := by
  have owns := tracked.apart taskId old found
  have sameIds : new.subtasks.map Subtask.id = old.subtasks.map Subtask.id := by
    rw [changed, ids_map sameId]
  refine tracked.put tasks (sameIds ▸ owns) (fun id own => ?_) fun id other => ?_
  · rw [times, changed, isAssigned_map owns.distinct sameId ended, tracked.times, own,
      assigns_of_lookup found]
  · rw [times, and_iff_right]
    intro hit
    obtain ⟨subtask, member, _, rfl⟩ := mem_assignedIds.mp hit
    exact other (owns.owned _ (mem_map_of_mem (mem_filter.mp member).1))

end

end

/-! ## The times themselves -/

@[simp] theorem times_putTask (store : TaskStore) (taskId : String) (task : Task) :
    (store.putTask taskId task).assignedSubtaskTimes = store.assignedSubtaskTimes := rfl

@[simp] theorem times_recordEvent (store : TaskStore) (event : AgentEvent) :
    (store.recordEvent event).assignedSubtaskTimes = store.assignedSubtaskTimes := by
  cases store
  rfl

@[simp] theorem times_recordEvents (events : List AgentEvent) (store : TaskStore) :
    (events.foldl recordEvent store).assignedSubtaskTimes = store.assignedSubtaskTimes := by
  induction events generalizing store with
  | nil => rfl
  | cons event rest ih =>
    rw [foldl_cons, ih, times_recordEvent]

theorem mem_untrackAll :
    id ∈ (ids.foldl untrackAssigned store).assignedSubtaskTimes ↔
      id ∉ ids ∧ id ∈ store.assignedSubtaskTimes := by
  induction ids generalizing store with
  | nil => simp
  | cons first rest ih =>
    rw [foldl_cons, ih, untrackAssigned, AList.mem_erase, mem_cons]
    tauto

theorem mem_trackAll :
    id ∈ (ids.foldl (fun store subtaskId => store.trackAssigned subtaskId now)
        store).assignedSubtaskTimes ↔
      id ∈ ids ∨ id ∈ store.assignedSubtaskTimes := by
  induction ids generalizing store with
  | nil => simp
  | cons first rest ih =>
    rw [foldl_cons, ih, trackAssigned, AList.mem_insert, mem_cons]
    tauto

/-! ## Operations on single subtasks and on control -/

theorem tasks_putTask (same : stored.tasks = store.tasks) :
    (stored.putTask taskId new).tasks = store.tasks.insert taskId new := by
  rw [putTask, same]

theorem tracked_pauseTask (tracked : Tracked owner store) :
    Tracked owner (store.pauseTask taskId now).2 := by
  unfold pauseTask
  split
  · exact tracked
  · rename_i task found
    split
    · exact tracked.keep found rfl rfl rfl fun _ => rfl
    · exact tracked.keep found rfl rfl rfl fun _ => rfl
    · exact tracked

theorem tracked_resumeTask (tracked : Tracked owner store) :
    Tracked owner (store.resumeTask taskId now).2 := by
  unfold resumeTask
  split
  · exact tracked
  · rename_i task found
    split
    · exact tracked.keep found rfl rfl rfl fun _ => rfl
    · exact tracked

theorem tracked_setTaskStatus {status : TaskStatus} (tracked : Tracked owner store) :
    Tracked owner (store.setTaskStatus taskId status now) := by
  unfold setTaskStatus
  split
  · exact tracked
  · rename_i task found
    exact tracked.keep found rfl rfl rfl fun _ => rfl

theorem assignedIds_filter_open : assignedIds (subtasks.filter fun subtask =>
    isOpen subtask.status) = assignedIds subtasks := by
  unfold assignedIds
  rw [filter_filter]
  congr 1
  refine filter_congr fun subtask _ => ?_
  cases subtask.status <;> rfl

section

variable (tracked : Tracked owner store)

include tracked

theorem tracked_cancelTask : Tracked owner (store.cancelTask taskId now).2 := by
  unfold cancelTask
  split
  · exact tracked
  · rename_i task found
    have cancelled : ∀ failed : Task,
        failed.subtasks = (task.subtasks.map fun subtask =>
          if isOpen subtask.status then { subtask with status := .failed } else subtask) →
        Tracked owner (((assignedIds task.subtasks).foldl untrackAssigned store).putTask taskId
          failed) := by
      intro failed mapped
      refine tracked.ended found (tasks_putTask (tasks_untrackAll _ _)) mapped ?_ ?_ fun id => ?_
      · exact fun _ => rfl
      · simp
      · rw [assignedIds_filter_open]
        exact mem_untrackAll
    split
    · exact cancelled _ rfl
    · exact cancelled _ rfl
    · exact cancelled _ rfl
    · exact tracked
    · exact tracked
    · exact tracked

theorem tracked_failSubtasks {subtaskIds : List String} :
    Tracked owner (store.failSubtasks taskId subtaskIds now).2 := by
  unfold failSubtasks
  split
  · exact tracked
  · rename_i task found
    dsimp only
    split
    · refine tracked.ended found (tasks_putTask (tasks_untrackAll _ _)) rfl ?_ ?_
        fun id => mem_untrackAll
      · exact fun _ => rfl
      · simp
    · exact tracked

theorem tracked_revertSweptSubtask {rearmed : Bool} :
    Tracked owner (store.revertSweptSubtask taskId subtaskId rearmed now).2 := by
  unfold revertSweptSubtask
  split
  · exact tracked
  · rename_i task found
    split
    · exact tracked
    · rename_i node first
      split
      · refine tracked.changed found first rfl rfl ?_ fun id => ?_
        · exact fun _ => rfl
        · dsimp only
          rw [putTask, untrackAssigned, AList.mem_erase]
          split
          · rename_i own
            cases rearmed <;> simp [own]
          · rename_i other
            simp [other]
      · exact tracked

theorem tracked_updateSubtaskStatus {status : SubtaskStatus} :
    Tracked owner (store.updateSubtaskStatus taskId subtaskId status now) := by
  unfold updateSubtaskStatus
  split
  · exact tracked
  · rename_i task found
    split
    · exact tracked
    · rename_i node first
      dsimp only
      refine tracked.changed found first (tasks_putTask ?_) rfl ?_ fun id => ?_
      · split_ifs <;> rfl
      · exact fun _ => rfl
      · have own : subtaskId ∈ store.assignedSubtaskTimes ↔ node.status = .assigned := by
          have owns := tracked.apart taskId task found
          have owned : owner subtaskId = taskId := by
            rw [← (mem_of_findSubtask first).2]
            exact owns.owned _ (mem_map_of_mem (mem_of_find?_eq_some first))
          rw [tracked.times, owned, assigns_of_lookup found, isAssigned, first]
          simp
        by_cases moved : status = .assigned
        · simp only [if_pos moved, putTask, trackAssigned, AList.mem_insert]
          split <;> simp_all
        · simp only [if_neg moved, putTask]
          split
          · simp only [untrackAssigned, AList.mem_erase]
            split <;> simp_all
          · split <;> simp_all

theorem tracked_incrementDispatchRetry :
    Tracked owner (store.incrementDispatchRetry taskId subtaskId now).2 := by
  unfold incrementDispatchRetry
  split
  · exact tracked
  · rename_i task found
    split
    · exact tracked
    · rename_i node first
      refine tracked.keep found rfl rfl (Search.map_modify_eq fun _ => rfl) fun id => ?_
      unfold isAssigned
      dsimp only
      rw [findSubtask_changed]
      · cases findSubtask task.subtasks id with
      | none => rfl
      | some subtask =>
        simp only [Option.map_some, Option.any_some]
        split <;> rfl
      · exact fun _ => rfl

theorem tracked_retrySubtask {expectedAttempt : UInt32} :
    Tracked owner (store.retrySubtask taskId subtaskId expectedAttempt now).2 := by
  rcases retrySubtask_cases store taskId subtaskId expectedAttempt now with
    ⟨_, same⟩ | ⟨task, node, accepted⟩
  · rw [same]
    exact tracked
  · refine tracked.changed accepted.found accepted.foundNode accepted.tasks rfl (fun _ => rfl)
      fun id => ?_
    rw [accepted.times, AList.mem_erase]
    split
    · rename_i own
      simp [own, retried]
    · rename_i other
      simp [other]

end

/-! ## Tasks that come and go -/

section

variable (tracked : Tracked owner store)

include tracked

theorem Tracked.evict (owns : Owns owner taskId (task.subtasks.map Subtask.id))
    (held : ∀ other, store.tasks.lookup taskId = some other → other = task) :
    Tracked owner (store.evict taskId task) := by
  refine ⟨fun otherId other found => tracked.apart otherId other (lookup_of_evict found),
    fun id => ?_⟩
  have times : id ∈ (store.evict taskId task).assignedSubtaskTimes ↔
      id ∉ task.subtasks.map Subtask.id ∧ id ∈ store.assignedSubtaskTimes := mem_untrackAll
  rw [times, tracked.times]
  unfold assigns TaskStore.evict
  dsimp only
  by_cases own : owner id = taskId
  · rw [own, AList.lookup_erase, Option.any_none]
    refine iff_of_false ?_ Bool.false_ne_true
    rintro ⟨absent, assigned⟩
    obtain ⟨other, found, assigned⟩ := (Option.any_eq_true _ _).mp assigned
    rw [held other found, isAssigned_iff owns.distinct] at assigned
    obtain ⟨subtask, member, _, rfl⟩ := mem_assignedIds.mp assigned
    exact absent (mem_map_of_mem member)
  · rw [AList.lookup_erase_ne own, tasks_untrackAll, and_iff_right]
    exact fun member => own (owns.owned id member)

theorem tracked_evictAll {entries : List ((_ : String) × Task)}
    (owns : ∀ entry ∈ entries, Owns owner entry.1 (entry.2.subtasks.map Subtask.id))
    (held : ∀ entry ∈ entries, ∀ other, store.tasks.lookup entry.1 = some other → other = entry.2) :
    Tracked owner (entries.foldl (fun store entry => store.evict entry.1 entry.2) store) := by
  induction entries generalizing store with
  | nil => exact tracked
  | cons first rest ih =>
    refine ih ?_ (fun entry member => owns entry (mem_cons_of_mem _ member)) ?_
    · exact tracked.evict (owns first mem_cons_self) (held first mem_cons_self)
    · exact fun entry member other found =>
        held entry (mem_cons_of_mem _ member) other (lookup_of_evict found)

theorem tracked_evictCompletedTasks : Tracked owner store.evictCompletedTasks.2 := by
  unfold evictCompletedTasks
  split
  · exact tracked
  · dsimp only
    have stored : ∀ entry ∈ ((store.tasks.entries.filter fun entry =>
        entry.2.status = .completed || entry.2.status = .failed).insertionSort
          fun first second => first.2.updatedAt ≤ second.2.updatedAt).take
            (min (store.tasks.entries.length - maxRetainedTasks)
              (store.tasks.entries.filter fun entry =>
                entry.2.status = .completed || entry.2.status = .failed).length),
        store.tasks.lookup entry.1 = some entry.2 := by
      intro entry member
      have sorted := mem_of_mem_take member
      rw [mem_insertionSort] at sorted
      exact AList.mem_lookup_iff.mpr (mem_filter.mp sorted).1
    refine tracked_evictAll tracked (fun entry member => ?_) fun entry member other found => ?_
    · exact tracked.apart _ _ (stored entry member)
    · exact Option.some.inj (found.symm.trans (stored entry member))

theorem tracked_markStaleTasksFailed {timeout : Nat} :
    Tracked owner (store.markStaleTasksFailed timeout now).2 := by
  have one : ∀ (swept : List String × TaskStore) (taskId : String), Tracked owner swept.2 →
      Tracked owner (failStale now swept taskId).2 := by
    intro swept taskId tracked
    unfold failStale
    split
    · exact tracked
    · rename_i task found
      split
      · exact tracked.keep found rfl rfl rfl fun _ => rfl
      · exact tracked.keep found rfl rfl rfl fun _ => rfl
      · exact tracked
  have all : ∀ (ids : List String) (swept : List String × TaskStore), Tracked owner swept.2 →
      Tracked owner (ids.foldl (failStale now) swept).2 := by
    intro ids
    induction ids with
    | nil => exact fun _ tracked => tracked
    | cons first rest ih => exact fun swept tracked => ih _ (one swept first tracked)
  unfold markStaleTasksFailed
  split
  · exact tracked
  · split
    · exact tracked
    · exact all _ _ tracked

end

/-- No subtask of the task is assigned, if the store holds the task at all. -/
def TaskStore.NoneAssigned (store : TaskStore) (taskId : String) : Prop :=
  ∀ task, store.tasks.lookup taskId = some task → assignedIds task.subtasks = []

theorem Tracked.submit (tracked : Tracked owner store) (idle : store.NoneAssigned taskId)
    (tasks : stored.tasks = store.tasks.insert taskId new)
    (times : stored.assignedSubtaskTimes = store.assignedSubtaskTimes)
    (owns : Owns owner taskId (new.subtasks.map Subtask.id))
    (fresh : assignedIds new.subtasks = []) : Tracked owner stored := by
  refine tracked.put tasks owns (fun id own => ?_) fun id _ => by rw [times]
  rw [times, tracked.times, own, isAssigned_iff owns.distinct, fresh]
  refine iff_of_false (fun assigned => ?_) not_mem_nil
  obtain ⟨task, found, assigned⟩ := (Option.any_eq_true _ _).mp assigned
  rw [isAssigned_iff (tracked.apart _ _ found).distinct, idle task found] at assigned
  cases assigned

/-! ## Projections -/

theorem isAssigned_append {added : Subtask} (absent : findSubtask subtasks added.id = none) :
    isAssigned (subtasks ++ [added]) id = true ↔
      if id = added.id then added.status = .assigned else isAssigned subtasks id = true := by
  unfold isAssigned
  rw [findSubtask, find?_append]
  split
  · rename_i own
    subst own
    rw [← findSubtask, absent]
    simp
  · rename_i other
    rw [find?_singleton, if_neg (by simpa using Ne.symm other), Option.or_none]
    rfl

theorem Owns.append {added : Subtask} (owns : Owns owner taskId (subtasks.map Subtask.id))
    (absent : findSubtask subtasks added.id = none) (owned : owner added.id = taskId) :
    Owns owner taskId ((subtasks ++ [added]).map Subtask.id) := by
  rw [map_append, map_singleton]
  refine ⟨?_, fun id member => ?_⟩
  · refine nodup_append.mpr ⟨owns.distinct, nodup_singleton _, fun id member => ?_⟩
    rintro other inside rfl
    rw [mem_singleton.mp inside] at member
    obtain ⟨subtask, there, same⟩ := mem_map.mp member
    have missing := find?_eq_none.mp absent subtask there
    simp [same] at missing
  · rcases mem_append.mp member with earlier | new
    · exact owns.owned id earlier
    · rw [mem_singleton.mp new]
      exact owned

theorem Projected.tracked_upsert {projected : Projected} {incoming : Subtask}
    (keeps : incoming.status = .assigned ↔ isAssigned projected.subtasks incoming.id = true)
    (owns : Owns owner taskId (projected.subtasks.map Subtask.id))
    (owned : owner incoming.id = taskId) :
    Owns owner taskId ((projected.upsert incoming).subtasks.map Subtask.id) ∧
      ∀ id, isAssigned (projected.upsert incoming).subtasks id = true ↔
        isAssigned projected.subtasks id = true := by
  unfold upsert
  split
  · rename_i existing found
    have sameId : ∀ subtask, (projectSubtask incoming subtask).id = subtask.id := fun _ => rfl
    refine ⟨?_, fun id => ?_⟩
    · dsimp only
      rw [changeSubtask, Search.map_modify_eq sameId]
      exact owns
    · rw [isAssigned_changed sameId found]
      split
      · rename_i own
        rw [own, ← keeps]
        rfl
      · rfl
  · rename_i absent
    refine ⟨owns.append absent owned, fun id => ?_⟩
    rw [isAssigned_append absent]
    split
    · rename_i own
      rw [own, keeps]
    · rfl

theorem Projected.tracked_foldl {projected : Projected}
    (keeps : ∀ incoming ∈ incomings,
      incoming.status = .assigned ↔ isAssigned projected.subtasks incoming.id = true)
    (owns : Owns owner taskId (projected.subtasks.map Subtask.id))
    (owned : ∀ incoming ∈ incomings, owner incoming.id = taskId) :
    Owns owner taskId ((incomings.foldl upsert projected).subtasks.map Subtask.id) ∧
      ∀ id, isAssigned (incomings.foldl upsert projected).subtasks id = true ↔
        isAssigned projected.subtasks id = true := by
  induction incomings generalizing projected with
  | nil => exact ⟨owns, fun _ => Iff.rfl⟩
  | cons first rest ih =>
    obtain ⟨ownsFirst, same⟩ := tracked_upsert (keeps first mem_cons_self) owns
      (owned first mem_cons_self)
    obtain ⟨ownsRest, sameRest⟩ := ih
      (fun incoming member =>
        (keeps incoming (mem_cons_of_mem _ member)).trans (same incoming.id).symm)
      ownsFirst fun incoming member => owned incoming (mem_cons_of_mem _ member)
    exact ⟨ownsRest, fun id => (sameRest id).trans (same id)⟩

def TaskStore.Applies (store : TaskStore) (taskId status : String) (subtasks : List Subtask)
    (description : String) : Prop :=
  ∃ parsed, protoStatusToTaskStatus status = .ok parsed ∧
    match store.tasks.lookup taskId with
    | some current => validateProjection current parsed subtasks = .ok ()
    | none => description ≠ ""

theorem Tracked.project {events : List AgentEvent} (tracked : Tracked owner store)
    (found : store.tasks.lookup taskId = some old)
    (projected : new.subtasks = (incomings.foldl upsert { subtasks := old.subtasks }).subtasks)
    (owned : ∀ incoming ∈ incomings, owner incoming.id = taskId)
    (keeps : ∀ incoming ∈ incomings,
      (incoming.status = .assigned ↔ store.assigns taskId incoming.id = true)) :
    Tracked owner (events.foldl recordEvent (store.putTask taskId new)) := by
  simp only [assigns_of_lookup found] at keeps
  obtain ⟨owns, same⟩ := @tracked_foldl owner taskId incomings
    { subtasks := old.subtasks } keeps (tracked.apart taskId old found) owned
  rw [← projected] at owns
  refine tracked.put ((tasks_recordEvents _ _).trans rfl) owns (fun id own => ?_) fun id _ => ?_
  · rw [times_recordEvents, projected, same, ← assigns_of_lookup found, ← own]
    exact tracked.times id
  · rw [times_recordEvents]
    rfl

/-- A projection keeps the times if no subtask becomes assigned by it or ceases to be. -/
theorem tracked_updateTask {status description projectId : String} (tracked : Tracked owner store)
    (owned : ∀ incoming ∈ incomings, owner incoming.id = taskId)
    (distinct : store.tasks.lookup taskId = none → (incomings.map Subtask.id).Nodup)
    (keeps : store.Applies taskId status incomings description → ∀ incoming ∈ incomings,
      (incoming.status = .assigned ↔ store.assigns taskId incoming.id = true)) :
    Tracked owner (store.updateTask taskId status incomings description projectId now).2 := by
  unfold updateTask
  unfold Applies at keeps
  cases parse : protoStatusToTaskStatus status with
  | error message => exact tracked
  | ok parsed =>
    cases held : store.tasks.lookup taskId with
    | some current =>
      simp only [createProjected_of_known held, held]
      cases valid : validateProjection current parsed incomings with
      | error message => exact tracked
      | ok _ =>
        dsimp only
        exact tracked.project held rfl owned (keeps ⟨parsed, parse, by rw [held]; exact valid⟩)
    | none =>
      by_cases described : description = ""
      · simp only [createProjected, described, ne_eq, not_true_eq_false, decide_false,
          Bool.and_false, Bool.false_eq_true, if_false, held]
        exact tracked
      · have kept := keeps ⟨parsed, parse, by rw [held]; exact described⟩
        have unassigned : ∀ incoming ∈ incomings, incoming.status ≠ .assigned := by
          intro incoming member assigned
          have there := (kept incoming member).mp assigned
          simp [assigns, held] at there
        have owns : Owns owner taskId (incomings.map Subtask.id) := by
          refine ⟨distinct held, fun id member => ?_⟩
          obtain ⟨incoming, inside, rfl⟩ := mem_map.mp member
          exact owned incoming inside
        have fresh : assignedIds incomings = [] := by
          refine eq_nil_iff_forall_not_mem.mpr fun id member => ?_
          obtain ⟨incoming, inside, assigned, _⟩ := mem_assignedIds.mp member
          exact unassigned incoming inside assigned
        have created : Tracked owner
            (store.createProjected taskId parsed incomings description projectId now) := by
          unfold createProjected
          rw [if_pos (by simp [held, described])]
          refine tracked.submit (fun task found => ?_) (tasks_putTask (recordEvent_tasks _ _))
            (by rw [times_putTask, times_recordEvent]) owns fresh
          rw [held] at found
          cases found
        have stored : (store.createProjected taskId parsed incomings description projectId
            now).tasks.lookup taskId = some ⟨taskId, description, projectId, parsed, incomings,
              now, now⟩ := by
          unfold createProjected
          rw [if_pos (by simp [held, described]), putTask, AList.lookup_insert]
        simp only [stored]
        refine created.project stored rfl owned fun incoming member => ?_
        rw [assigns_of_lookup stored, isAssigned_iff owns.distinct, fresh]
        exact iff_of_false (unassigned incoming member) not_mem_nil

/-! ## Reports -/

/-- The times while a report is applied: exact for the subtasks of the task, and left for others. -/
structure TaskStore.Reported.Tracked (owner : String → String) (taskId : String)
    (times : AList fun _ : String => Instant) (reported : Reported) : Prop where
  owns : Owns owner taskId (reported.subtasks.map Subtask.id)
  own : ∀ id, owner id = taskId →
    (id ∈ reported.assignedTimes ↔ isAssigned reported.subtasks id = true)
  others : ∀ id, owner id ≠ taskId → (id ∈ reported.assignedTimes ↔ id ∈ times)

variable {times : AList fun _ : String => Instant} {previous : SubtaskStatus}
  {told : Option SubtaskStatus}

theorem mem_moveAssigned_ne (other : id ≠ subtaskId) :
    id ∈ moveAssigned times subtaskId previous told now ↔ id ∈ times := by
  unfold moveAssigned
  split
  · rfl
  · split
    · rw [AList.mem_erase, and_iff_right other]
    · split
      · rw [AList.mem_insert, or_iff_right other]
      · rfl

theorem mem_moveAssigned (noted : subtaskId ∈ times ↔ previous = .assigned) :
    subtaskId ∈ moveAssigned times subtaskId previous told now ↔
      told.getD previous = .assigned := by
  unfold moveAssigned
  cases told with
  | none => exact noted
  | some status =>
    dsimp only
    by_cases was : previous = .assigned
    · by_cases is_ : status = .assigned
      · simp [was, is_, noted]
      · simp [was, is_]
    · by_cases is_ : status = .assigned
      · simp [was, is_]
      · simp [was, is_, noted]

theorem Reported.tracked_upsert {reported : Reported} {isPartial : Bool}
    {update : NatsSubtaskUpdate} {parentId : String}
    (tracked : reported.Tracked owner taskId times) (owned : owner update.subtaskId = taskId) :
    (reported.upsert parentId isPartial now update).Tracked owner taskId times := by
  unfold Reported.upsert
  split
  · rename_i subtask found
    have sameId := (mem_of_findSubtask found).2
    split
    · exact tracked
    · exact ⟨tracked.owns, tracked.own, tracked.others⟩
    · refine ⟨?_, fun id own => ?_, fun id other => ?_⟩
      · dsimp only
        rw [changeSubtask, Search.map_modify_eq (reportSubtask_id isPartial update now)]
        exact tracked.owns
      · dsimp only
        rw [isAssigned_changed (reportSubtask_id isPartial update now) found]
        split
        · rename_i here
          rw [here, sameId, mem_moveAssigned, reportSubtask_status]
          rw [tracked.own _ owned, isAssigned, found]
          simp
        · rename_i apart
          rw [mem_moveAssigned_ne (sameId ▸ apart)]
          exact tracked.own id own
      · dsimp only
        rw [mem_moveAssigned_ne]
        · exact tracked.others id other
        · rintro rfl
          exact other (sameId ▸ owned)
  · rename_i absent
    have addedId : (newSubtask parentId isPartial update now).id = update.subtaskId := by
      cases isPartial <;> rfl
    rw [← addedId] at absent owned
    dsimp only
    refine ⟨tracked.owns.append absent owned, fun id own => ?_, fun id other => ?_⟩
    · rw [isAssigned_append absent, addedId]
      have gone : ¬ isAssigned reported.subtasks update.subtaskId = true := by
        rw [isAssigned, ← addedId, absent]
        simp
      split
      · rw [AList.mem_insert]
        split
        · rename_i assigned here
          simp [here, assigned]
        · rename_i apart
          rw [or_iff_right apart]
          exact tracked.own id own
      · rename_i open_
        split
        · rename_i here
          rw [here, iff_false_right open_, tracked.own _ (addedId ▸ owned)]
          exact gone
        · exact tracked.own id own
    · split
      · rw [AList.mem_insert, or_iff_right]
        · exact tracked.others id other
        · rintro rfl
          exact other (addedId ▸ owned)
      · exact tracked.others id other

theorem Reported.tracked_foldl {reported : Reported} {isPartial : Bool}
    {updates : List NatsSubtaskUpdate} {parentId : String}
    (tracked : reported.Tracked owner taskId times)
    (owned : ∀ update ∈ updates, owner update.subtaskId = taskId) :
    (updates.foldl (Reported.upsert parentId isPartial now) reported).Tracked owner taskId times := by
  induction updates generalizing reported with
  | nil => exact tracked
  | cons first rest ih =>
    exact ih (Reported.tracked_upsert tracked (owned first mem_cons_self))
      fun update member => owned update (mem_cons_of_mem _ member)

variable {update : NatsTaskUpdate} {description projectId : Option String}

section

variable (tracked : Tracked owner store)
  (owned : ∀ entry ∈ update.subtasks, owner entry.subtaskId = update.taskId)
  (distinct : store.tasks.lookup update.taskId = none →
    (update.subtasks.map NatsSubtaskUpdate.subtaskId).Nodup)

include tracked owned distinct

theorem tracked_rehydrate
    (rehydrated : store.rehydrate update description projectId now = some stored) :
    Tracked owner stored := by
  rcases rehydrate_cases rehydrated with ⟨rfl, -⟩ | ⟨missing, fresh, -, sent, rfl⟩
  · exact tracked
  have sameIds : fresh.subtasks.map Subtask.id =
      update.subtasks.map NatsSubtaskUpdate.subtaskId := by
    rw [sent, map_map]
    rfl
  have owns : Owns owner update.taskId (fresh.subtasks.map Subtask.id) := by
    rw [sameIds]
    refine ⟨distinct missing, fun id member => ?_⟩
    obtain ⟨entry, inside, rfl⟩ := mem_map.mp member
    exact owned entry inside
  refine tracked.put (tasks_putTask ?_) owns (fun id own => ?_) fun id other => ?_
  · rw [tasks_trackAll, recordEvent_tasks]
  · have absent : ¬ id ∈ store.assignedSubtaskTimes := by
      rw [tracked.times, own, assigns, missing]
      simp
    rw [times_putTask, mem_trackAll, times_recordEvent, or_iff_left absent,
      isAssigned_iff owns.distinct]
  · rw [times_putTask, mem_trackAll, times_recordEvent, or_iff_right]
    intro assigned
    obtain ⟨subtask, member, _, rfl⟩ := mem_assignedIds.mp assigned
    exact other (owns.owned _ (mem_map_of_mem member))

theorem tracked_applyUpdate :
    Tracked owner (store.applyUpdateWithMetadata update description projectId now) := by
  unfold applyUpdateWithMetadata
  split
  · exact tracked
  split
  · exact tracked
  rename_i stored rehydrated
  have rebuilt := tracked_rehydrate tracked owned distinct rehydrated
  split
  · exact rebuilt
  rename_i task found
  have start : ({ subtasks := task.subtasks, assignedTimes := stored.assignedSubtaskTimes } :
      Reported).Tracked owner update.taskId stored.assignedSubtaskTimes := by
    refine ⟨rebuilt.apart _ _ found, fun id own => ?_, fun _ _ => Iff.rfl⟩
    rw [← assigns_of_lookup found, ← own]
    exact rebuilt.times id
  have reported : (update.subtasks.foldl (Reported.upsert task.id update.isPartial now)
      { subtasks := task.subtasks, assignedTimes := stored.assignedSubtaskTimes }).Tracked owner
        update.taskId stored.assignedSubtaskTimes := Reported.tracked_foldl start owned
  dsimp only
  refine Tracked.of_same ?_ ((tasks_recordEvents _ _).trans rfl) (times_recordEvents _ _)
  refine Tracked.of_same (tracked_evictCompletedTasks ?_) rfl rfl
  exact rebuilt.put rfl reported.owns reported.own reported.others

end

/-! ## Runs -/

inductive StoreCall where
  | mutate (mutation : Mutation)
  | evictCompletedTasks

open StoreCall

namespace StoreCall

def apply (store : TaskStore) (now : Instant) : StoreCall → TaskStore
  | mutate mutation => mutation.apply store now
  | evictCompletedTasks => store.evictCompletedTasks.2

/-- The subtasks that the call brings are under ids of their task, distinct ones if the call
brings the task. -/
def Distinct (owner : String → String) (store : TaskStore) : StoreCall → Prop
  | mutate (.operate (.updateTask taskId _ subtasks _ _)) =>
    (∀ incoming ∈ subtasks, owner incoming.id = taskId) ∧
      (store.tasks.lookup taskId = none → (subtasks.map Subtask.id).Nodup)
  | mutate (.operate (.applyUpdate update _ _)) =>
    (∀ entry ∈ update.subtasks, owner entry.subtaskId = update.taskId) ∧
      (store.tasks.lookup update.taskId = none →
        (update.subtasks.map NatsSubtaskUpdate.subtaskId).Nodup)
  | mutate (.submitTask taskId subtaskId _ _) => owner subtaskId = taskId
  | _ => True

/-- No subtask becomes assigned through the update call or ceases to be, and no task with assigned
subtasks is replaced by a new one. -/
def KeepsAssigned (store : TaskStore) : StoreCall → Prop
  | mutate (.operate (.updateTask taskId status subtasks description _)) =>
    store.Applies taskId status subtasks description → ∀ incoming ∈ subtasks,
      (incoming.status = .assigned ↔ store.assigns taskId incoming.id = true)
  | mutate (.submitTaskPending taskId _ _) => store.NoneAssigned taskId
  | mutate (.submitTask taskId _ _ _) => store.NoneAssigned taskId
  | _ => True

/-- A call at a moment, on tasks whose subtasks are under distinct ids. -/
def Performs (owner : String → String) (before : TaskStore) (call : StoreCall × Instant)
    (after : TaskStore) : Prop :=
  call.1.Distinct owner before ∧ after = call.1.apply before call.2

end StoreCall

theorem tracked_apply {call : StoreCall} (tracked : Tracked owner store)
    (distinct : call.Distinct owner store) (keeps : call.KeepsAssigned store) :
    Tracked owner (call.apply store now) := by
  cases call with
  | evictCompletedTasks => exact tracked_evictCompletedTasks tracked
  | mutate mutation =>
    cases mutation with
    | operate operation =>
      cases operation with
      | applyUpdate update description projectId =>
        exact tracked_applyUpdate tracked distinct.1 distinct.2
      | updateTask taskId status subtasks description projectId =>
        exact tracked_updateTask tracked distinct.1 distinct.2 keeps
      | pauseTask taskId => exact tracked_pauseTask tracked
      | resumeTask taskId => exact tracked_resumeTask tracked
      | cancelTask taskId => exact tracked_cancelTask tracked
      | failSubtasks taskId subtaskIds => exact tracked_failSubtasks tracked
      | revertSweptSubtask taskId subtaskId rearmed => exact tracked_revertSweptSubtask tracked
      | markStaleTasksFailed timeout => exact tracked_markStaleTasksFailed tracked
      | retrySubtask taskId nodeId expectedAttempt => exact tracked_retrySubtask tracked
    | submitTaskPending taskId description projectId =>
      refine tracked.submit keeps (tasks_putTask (recordEvent_tasks _ _)) ?_ ?_ rfl
      · exact (times_putTask _ _ _).trans (times_recordEvent _ _)
      · exact ⟨nodup_nil, fun id member => absurd member not_mem_nil⟩
    | submitTask taskId subtaskId description projectId =>
      refine tracked.submit keeps (tasks_putTask ?_) ?_ ?_ rfl
      · rw [recordEvent_tasks, recordEvent_tasks]
      · exact (times_putTask _ _ _).trans ((times_recordEvent _ _).trans (times_recordEvent _ _))
      · refine ⟨nodup_singleton _, fun id member => ?_⟩
        rw [mem_singleton.mp member]
        exact distinct
    | updateSubtaskStatus taskId subtaskId status => exact tracked_updateSubtaskStatus tracked
    | incrementDispatchRetry taskId subtaskId => exact tracked_incrementDispatchRetry tracked
    | setTaskStatus taskId status => exact tracked_setTaskStatus tracked
    | recordEvent event =>
      exact tracked.of_same (recordEvent_tasks _ _) (times_recordEvent _ _)
    | updateLastHeartbeat | keepBooks durabilityFaults seenMessages =>
      exact tracked.of_same rfl rfl

/-- In a run whose calls keep what is assigned, the times are exact in every store reached. -/
theorem timesExact_of_run {source target : TaskStore} {calls : List (StoreCall × Instant)}
    (apart : source.Apart owner) (start : source.TimesExact)
    (run : Run (fun before call after => Performs owner before call after ∧
      call.1.KeepsAssigned before) source calls target) : target.TimesExact := by
  have kept : ∀ before call after, Tracked owner before → True →
      (Performs owner before call after ∧ call.1.KeepsAssigned before) →
        Tracked owner after := by
    rintro before call after tracked _ ⟨⟨distinct, rfl⟩, keeps⟩
    exact tracked_apply tracked distinct keeps
  exact (Run.invariant (fun _ => True) kept run (fun _ _ => trivial)
    (Tracked.of_exact apart start)).exact

/-! ## A node that is assigned by a projection -/

/-- A node that waits, in a store without times. -/
def sampleWaiting : TaskStore := sampleStore [sampleSubtask "node-1" .pending .preferRemote]

theorem sampleWaiting_apart : sampleWaiting.Apart fun _ => "task-1" := by
  intro taskId task found
  have here := AList.mem_lookup_iff.mp found
  obtain ⟨rfl, same⟩ := Sigma.mk.inj_iff.mp (mem_singleton.mp here)
  rw [← eq_of_heq same.symm]
  exact ⟨nodup_singleton _, fun _ _ => rfl⟩

theorem sampleWaiting_timesExact : sampleWaiting.TimesExact := fun _ => Iff.rfl

/-- The coordinator says of the node that it is assigned. -/
def sampleProjection : StoreCall :=
  .mutate (.operate (.updateTask "task-1" "InProgress"
    [sampleSubtask "node-1" .assigned .preferRemote] "" ""))

/-- The gateway dispatches the node, and the coordinator says so. -/
theorem timesExact_of_run_dispatched : ∃ target, Run (fun before call after =>
      Performs (fun _ => "task-1") before call after ∧ call.1.KeepsAssigned before)
        sampleWaiting [(.mutate (.updateSubtaskStatus "task-1" "node-1" .assigned), 1),
          (sampleProjection, 2)] target ∧
      target.assignedSubtasks = ["node-1"] ∧ target.TimesExact := by
  have distinct : sampleProjection.Distinct (fun _ => "task-1")
      (sampleWaiting.updateSubtaskStatus "task-1" "node-1" .assigned 1) := by
    refine ⟨fun _ _ => rfl, fun missing => ?_⟩
    cases missing
  have keeps : sampleProjection.KeepsAssigned
      (sampleWaiting.updateSubtaskStatus "task-1" "node-1" .assigned 1) := by
    intro _ incoming member
    rw [mem_singleton.mp member]
    exact iff_of_true rfl rfl
  have run : Run (fun before call after =>
      Performs (fun _ => "task-1") before call after ∧ call.1.KeepsAssigned before)
        sampleWaiting [(.mutate (.updateSubtaskStatus "task-1" "node-1" .assigned), 1),
          (sampleProjection, 2)] _ :=
    .cons ⟨⟨trivial, rfl⟩, trivial⟩ (.cons ⟨⟨distinct, rfl⟩, keeps⟩ (.nil _))
  exact ⟨_, run, rfl, timesExact_of_run sampleWaiting_apart sampleWaiting_timesExact run⟩

/-- The coordinator assigns a node that waits, and no time is noted for it. -/
theorem timesExact_fails_projected : ∃ target,
    sampleWaiting.Apart (fun _ => "task-1") ∧ sampleWaiting.TimesExact ∧
      Run (Performs fun _ => "task-1") sampleWaiting [(sampleProjection, 1)] target ∧
      target.assignedSubtasks = ["node-1"] ∧ target.assignedSubtaskTimes.keys = [] ∧
      ¬ target.TimesExact := by
  have distinct : sampleProjection.Distinct (fun _ => "task-1") sampleWaiting := by
    refine ⟨fun _ _ => rfl, fun missing => ?_⟩
    cases missing
  have run : Run (Performs fun _ => "task-1") sampleWaiting [(sampleProjection, 1)] _ :=
    .cons ⟨distinct, rfl⟩ (.nil _)
  refine ⟨_, sampleWaiting_apart, sampleWaiting_timesExact, run, rfl, rfl, fun exact_ => ?_⟩
  have noted := (exact_ "node-1").mpr mem_cons_self
  cases noted

end UltimateCoders.Gateway
