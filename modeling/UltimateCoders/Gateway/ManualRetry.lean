import UltimateCoders.Gateway.Attempt
import UltimateCoders.Gateway.PlannedExecution
import UltimateCoders.Gateway.Rehydration
import UltimateCoders.Gateway.WorkerRegistry

/-! # Retries and the cap on dispatches

A retry counts the next attempt of a failed subtask with the counter that also counts the
dispatches that were reverted. The dispatch that follows fails a subtask whose counter has reached
the cap, so that a retry is accepted and undone at once if it is the third.
-/

namespace UltimateCoders.Gateway

open Governance (Instant)
open UltimateCoders.Graph (TaskStatus SubtaskStatus)
open TaskStore
open Transition (Run)
open List

/-- What a dispatcher publishes if no publication fails, and the store that it leaves. -/
def dispatchAll (sha256Hex : String → String) (store : TaskStore) (mouth : Mouth) (taskId : String)
    (gate : Gate) (now : Instant) : List NatsSubtaskExecute × TaskStore :=
  let selected := selectReady store mouth taskId gate now
  (selected.1.map (Dispatch.message sha256Hex), selected.2)

section Marking

variable {store : TaskStore} {mouth : Mouth} {taskId subtaskId projectId : String} {gate : Gate}
  {now : Instant} {ready earlier later : List Subtask} {subtask old : Subtask}

theorem markReady_append : (markReady mouth taskId projectId gate now (earlier ++ later) store).2 =
    (markReady mouth taskId projectId gate now later
      (markReady mouth taskId projectId gate now earlier store).2).2 := by
  induction earlier generalizing store with
  | nil => rfl
  | cons first rest ih =>
    simp only [cons_append, markReady]
    by_cases capped : first.dispatchRetryCount ≥ maxDispatchRetries
    · simp only [if_pos capped, ih]
    · cases admits : gate first <;> simp only [if_neg capped, ih]

theorem exists_marked (found : store.subtask taskId subtaskId = some old) :
    ∃ marked, (markReady mouth taskId projectId gate now ready store).2.subtask taskId subtaskId =
      some marked := by
  have kept : (markReady mouth taskId projectId gate now ready store).2.AtAttempt taskId subtaskId
      old.dispatchRetryCount := atAttempt_markReady ⟨old, found, rfl⟩
  exact kept.imp fun _ there => there.1

theorem marked_of_below (found : store.subtask taskId subtaskId = some old)
    (below : ∀ subtask ∈ ready, subtask.id = subtaskId →
      subtask.dispatchRetryCount < maxDispatchRetries) :
    (markReady mouth taskId projectId gate now ready store).2.subtask taskId subtaskId =
      some (if ∃ subtask ∈ ready, subtask.id = subtaskId ∧ gate subtask ≠ none then
        { old with status := .assigned } else old) := by
  induction ready generalizing store old with
  | nil => simpa [markReady] using found
  | cons first rest ih =>
    have belowRest : ∀ subtask ∈ rest, subtask.id = subtaskId →
        subtask.dispatchRetryCount < maxDispatchRetries :=
      fun subtask member => below subtask (mem_cons_of_mem _ member)
    unfold markReady
    by_cases own : first.id = subtaskId
    · have fits := below first mem_cons_self own
      rw [if_neg (UInt32.not_le.mpr fits)]
      cases admits : gate first with
      | none =>
        dsimp only
        rw [ih found belowRest]
        simp [admits]
      | some subject =>
        dsimp only
        rw [own, ih (subtask_updateSubtaskStatus found) belowRest]
        simp [own, admits]
    · have left (status : SubtaskStatus) :
          (store.updateSubtaskStatus taskId first.id status now).subtask taskId subtaskId =
            some old :=
        (subtask_updateSubtaskStatus_ne fun same => own same.2).trans found
      have others : (∃ subtask ∈ first :: rest, subtask.id = subtaskId ∧ gate subtask ≠ none) ↔
          ∃ subtask ∈ rest, subtask.id = subtaskId ∧ gate subtask ≠ none := by
        simp [own]
      simp only [others]
      split
      · exact ih (left .failed) belowRest
      · split
        · exact ih found belowRest
        · exact ih (left .assigned) belowRest

theorem marked_of_capped (found : store.subtask taskId subtask.id = some old)
    (capped : maxDispatchRetries ≤ subtask.dispatchRetryCount) :
    ∃ failed, (markReady mouth taskId projectId gate now (earlier ++ [subtask]) store).2.subtask
      taskId subtask.id = some failed ∧ failed.status = .failed := by
  obtain ⟨status, there⟩ := exists_marked found
  rw [markReady_append]
  unfold markReady
  rw [if_pos capped, markReady, subtask_updateSubtaskStatus there]
  exact ⟨_, rfl, rfl⟩

theorem mem_markReady_of_admits {subject : String} (member : subtask ∈ ready)
    (below : subtask.dispatchRetryCount < maxDispatchRetries)
    (admits : gate subtask = some subject) :
    (⟨mouth, taskId, projectId, subtask, subject⟩ : Dispatch) ∈
      (markReady mouth taskId projectId gate now ready store).1 := by
  induction ready generalizing store with
  | nil => cases member
  | cons first rest ih =>
    unfold markReady
    rcases mem_cons.mp member with rfl | later
    · rw [if_neg (UInt32.not_le.mpr below), admits]
      exact mem_cons_self
    · split
      · exact ih later
      · split
        · exact ih later
        · exact mem_cons_of_mem _ (ih later)

end Marking

def completedIds (subtasks : List Subtask) : List String :=
  (subtasks.filter fun subtask => subtask.status = .completed).map Subtask.id

/-- The subtasks that wait and whose dependencies are completed. -/
def readyOf (subtasks : List Subtask) : List Subtask :=
  subtasks.filter fun subtask =>
    subtask.status = .pending && subtask.dependsOn.all fun dep => (completedIds subtasks).contains dep

section Retry

variable {store : TaskStore} {taskId nodeId : String} {attempt : UInt32} {task : Task}
  {subtasks : List Subtask} {node subtask : Subtask} {now : Instant}

theorem getReadySubtasks_eq (lookedUp : store.tasks.lookup taskId = some task)
    (under : task.status = .inProgress) :
    store.getReadySubtasks taskId =
      if store.durabilityFaults.contains taskId then [] else readyOf task.subtasks := by
  unfold getReadySubtasks
  simp [lookedUp, under, readyOf, completedIds]

theorem split_of_findSubtask (found : findSubtask subtasks nodeId = some node) :
    node.id = nodeId ∧ ∃ before after, subtasks = before ++ node :: after ∧
      ∀ other ∈ before, other.id ≠ node.id := by
  obtain ⟨own, before, after, rfl, others⟩ := find?_eq_some_iff_append.mp found
  have same := of_decide_eq_true own
  refine ⟨same, before, after, rfl, fun other member => ?_⟩
  rw [same]
  simpa using others other member

theorem mem_readyOf_retried (found : findSubtask subtasks nodeId = some node)
    (failed : node.status = .failed)
    (depends : node.dependsOn.all (fun dep => subtasks.any fun other =>
      other.id = dep && other.status = .completed) = true) :
    subtask ∈ readyOf (changeSubtask subtasks nodeId (retried (attempt + 1))) ↔
      subtask = retried (attempt + 1) node ∨ subtask ∈ readyOf subtasks := by
  obtain ⟨rfl, before, after, rfl, others⟩ := split_of_findSubtask found
  rw [changeSubtask_append_cons others]
  have completed : completedIds (before ++ retried (attempt + 1) node :: after) =
      completedIds (before ++ node :: after) := by
    simp [completedIds, retried, failed]
  have satisfied : ∀ dep ∈ node.dependsOn, dep ∈ completedIds (before ++ node :: after) := by
    intro dep member
    have there := all_eq_true.mp depends dep member
    obtain ⟨other, inside, same⟩ := any_eq_true.mp there
    simp only [Bool.and_eq_true, decide_eq_true_eq] at same
    exact mem_map.mpr ⟨other, mem_filter.mpr ⟨inside, decide_eq_true same.2⟩, same.1⟩
  unfold readyOf
  rw [completed]
  generalize completedIds (before ++ node :: after) = ids at satisfied
  simp only [mem_filter, mem_append, mem_cons, Bool.and_eq_true, decide_eq_true_eq,
    all_eq_true, contains_iff_mem]
  constructor
  · rintro ⟨earlier | rfl | later, waits⟩
    · exact .inr ⟨.inl earlier, waits⟩
    · exact .inl rfl
    · exact .inr ⟨.inr (.inr later), waits⟩
  · rintro (rfl | ⟨earlier | rfl | later, waits⟩)
    · exact ⟨.inr (.inl rfl), rfl, satisfied⟩
    · exact ⟨.inl earlier, waits⟩
    · rw [failed] at waits
      cases waits.1
    · exact ⟨.inr (.inr later), waits⟩

theorem retrySubtask_accepted (lookedUp : store.tasks.lookup taskId = some task)
    (found : findSubtask task.subtasks nodeId = some node)
    (accepted : (store.retrySubtask taskId nodeId attempt now).1.isOk = true) :
    RetryAccepted store taskId nodeId attempt now task node := by
  rcases retrySubtask_cases store taskId nodeId attempt now with
    ⟨refused, -⟩ | ⟨other, otherNode, retry⟩
  · rw [refused] at accepted
    cases accepted
  · obtain rfl := Option.some.inj (retry.found.symm.trans lookedUp)
    obtain rfl := Option.some.inj (retry.foundNode.symm.trans found)
    exact retry

end Retry

section TakesUp

variable (sha256Hex : String → String) (store : TaskStore) (mouth : Mouth) (taskId : String)
  (gate : Gate) (now : Instant)

/-- The store when a dispatcher has marked some of the ready subtasks. -/
def markedSoFar (marked : List Subtask) : TaskStore :=
  (markReady mouth taskId (((store.tasks.lookup taskId).map Task.projectId).getD "") gate now
    marked store).2

def Publishes (node : Subtask) (number : Nat) : Prop :=
  ∃ dispatch ∈ (selectReady store mouth taskId gate now).1,
    dispatch.subtask = node ∧
    dispatch.message sha256Hex ∈ (dispatchAll sha256Hex store mouth taskId gate now).1 ∧
    (dispatch.message sha256Hex).graphId = taskId ∧
    (dispatch.message sha256Hex).nodeId = node.id ∧
    (dispatch.message sha256Hex).attemptId = toString number

/-- A dispatcher takes a waiting subtask up. While it marks one ready subtask after the other, the
subtask never fails; in the end it is published under the number and assigned, or it waits because
the registry refuses it. -/
structure TakesUp (node : Subtask) (number : Nat) : Prop where
  unfailed : ∀ marked, marked <+: store.getReadySubtasks taskId → ∀ current,
    (markedSoFar store mouth taskId gate now marked).subtask taskId node.id = some current →
      current.status ≠ .failed
  outcome : ∃ current,
    (dispatchAll sha256Hex store mouth taskId gate now).2.subtask taskId node.id = some current ∧
    (Publishes sha256Hex store mouth taskId gate now node number ∧ current.status = .assigned ∨
      gate node = none ∧ current.status = .pending)

/-- The next attempt of the subtask is below the cap, and what else is ready under its id is below
the cap and refused with it. A task that is not known to be durable is not dispatched, so that
the registry must refuse the subtask anyway. -/
def Dispatchable (task : Task) (node : Subtask) (attempt : UInt32) : Prop :=
  if store.durabilityFaults.contains taskId then gate (retried (attempt + 1) node) = none
  else attempt.toNat + 1 < maxDispatchRetries.toNat ∧
    ∀ twin ∈ readyOf task.subtasks, twin.id = node.id →
      twin.dispatchRetryCount < maxDispatchRetries ∧
        (gate (retried (attempt + 1) node) = none → gate twin = none)

end TakesUp

section Settling

variable {sha256Hex : String → String} {store stored : TaskStore} {mouth : Mouth}
  {taskId nodeId : String} {gate : Gate} {attempt : UInt32} {task : Task} {node : Subtask}
  {ready : List Subtask} {number : Nat} {now retriedAt : Instant}

theorem markedSoFar_of_below (found : stored.subtask taskId node.id = some node)
    (below : ∀ subtask ∈ ready, subtask.id = node.id →
      subtask.dispatchRetryCount < maxDispatchRetries) :
    (markedSoFar stored mouth taskId gate now ready).subtask taskId node.id =
      some (if ∃ subtask ∈ ready, subtask.id = node.id ∧ gate subtask ≠ none then
        { node with status := .assigned } else node) :=
  marked_of_below found below

theorem publishes_of_admits {subject : String} (there : node ∈ stored.getReadySubtasks taskId)
    (below : node.dispatchRetryCount < maxDispatchRetries) (admits : gate node = some subject) :
    Publishes sha256Hex stored mouth taskId gate now node node.dispatchRetryCount.toNat := by
  have member : (⟨mouth, taskId, _, node, subject⟩ : Dispatch) ∈
      (selectReady stored mouth taskId gate now).1 := mem_markReady_of_admits there below admits
  refine ⟨_, member, rfl, mem_map_of_mem member, ?_⟩
  cases mouth with
  | publishReadySubtasks | dispatchReadySubtasks => exact ⟨rfl, rfl, rfl⟩

/-- Whether a dispatcher takes up a waiting subtask, in terms of the subtasks that are ready. -/
theorem takesUp_iff_ready (found : stored.subtask taskId node.id = some node)
    (waits : node.status = .pending) (count : node.dispatchRetryCount.toNat = number) :
    TakesUp sha256Hex stored mouth taskId gate now node number ↔
      (∀ subtask ∈ stored.getReadySubtasks taskId, subtask.id = node.id →
        subtask.dispatchRetryCount < maxDispatchRetries) ∧
      (gate node = none → ∀ subtask ∈ stored.getReadySubtasks taskId, subtask.id = node.id →
        gate subtask = none) ∧
      (gate node ≠ none → node ∈ stored.getReadySubtasks taskId) := by
  constructor
  · intro takes
    have below : ∀ subtask ∈ stored.getReadySubtasks taskId, subtask.id = node.id →
        subtask.dispatchRetryCount < maxDispatchRetries := by
      intro subtask member own
      by_contra capped
      obtain ⟨earlier, later, split⟩ := append_of_mem member
      obtain ⟨failed, held, status⟩ : ∃ failed,
          (markedSoFar stored mouth taskId gate now (earlier ++ [subtask])).subtask taskId
            subtask.id = some failed ∧ failed.status = .failed :=
        marked_of_capped (own ▸ found) (UInt32.not_lt.mp capped)
      refine takes.unfailed (earlier ++ [subtask]) ⟨later, ?_⟩ failed (own ▸ held) status
      rw [split, append_assoc, singleton_append]
    obtain ⟨current, held, ⟨published, assigned⟩ | ⟨refused, pending⟩⟩ := takes.outcome
    · obtain ⟨dispatch, member, rfl, _⟩ := published
      have admits := gate_of_markReady member
      refine ⟨below, fun refused => ?_, fun _ => (mem_marked member).2⟩
      rw [refused] at admits
      cases admits
    · refine ⟨below, fun _ subtask member own => ?_, fun admits => absurd refused admits⟩
      by_contra admitted
      have same := Option.some.inj ((markedSoFar_of_below found below).symm.trans held)
      rw [if_pos ⟨subtask, member, own, admitted⟩] at same
      rw [← same] at pending
      cases pending
  · rintro ⟨below, agree, there⟩
    refine ⟨fun marked inside current held => ?_, _, markedSoFar_of_below found below, ?_⟩
    · have belowMarked : ∀ subtask ∈ marked, subtask.id = node.id →
          subtask.dispatchRetryCount < maxDispatchRetries :=
        fun subtask member => below subtask (inside.subset member)
      rw [← Option.some.inj ((markedSoFar_of_below found belowMarked).symm.trans held)]
      split
      · simp
      · simp [waits]
    · cases admits : gate node with
      | some subject =>
        have admitted : gate node ≠ none := by simp [admits]
        have here := there admitted
        rw [if_pos ⟨node, here, rfl, admitted⟩, ← count]
        exact .inl ⟨publishes_of_admits here (below node here rfl) admits, rfl⟩
      | none =>
        rw [if_neg]
        · exact .inr ⟨rfl, waits⟩
        · rintro ⟨subtask, member, own, admitted⟩
          exact admitted (agree admits subtask member own)

/-- The dispatch that follows a retry takes the subtask up exactly if its next attempt is below the
cap on dispatches. -/
theorem retry_takesUp_iff (lookedUp : store.tasks.lookup taskId = some task)
    (found : findSubtask task.subtasks nodeId = some node)
    (accepted : (store.retrySubtask taskId nodeId attempt retriedAt).1.isOk = true) :
    TakesUp sha256Hex (store.retrySubtask taskId nodeId attempt retriedAt).2 mouth taskId gate now
        (retried (attempt + 1) node) (attempt.toNat + 1) ↔
      Dispatchable store taskId gate task node attempt := by
  have retry := retrySubtask_accepted lookedUp found accepted
  obtain rfl := retry.current
  have own := (mem_of_findSubtask found).2
  subst own
  have kept : (store.retrySubtask taskId node.id node.dispatchRetryCount retriedAt).2.tasks.lookup
      taskId = some (task.retry node.id (node.dispatchRetryCount + 1) retriedAt) := by
    rw [retry.tasks, putTask, AList.lookup_insert]
  have number : (node.dispatchRetryCount + 1).toNat = node.dispatchRetryCount.toNat + 1 := by
    have bounded := node.dispatchRetryCount.toNat_lt
    have fits := retry.fits
    rw [UInt32.toNat_add]
    exact Nat.mod_eq_of_lt (by simp only [UInt32.toNat_one]; omega)
  have changed : findSubtask (task.retry node.id (node.dispatchRetryCount + 1)
      retriedAt).subtasks node.id = some (retried (node.dispatchRetryCount + 1) node) := by
    apply findSubtask_changeSubtask _ found
    exact fun _ => rfl
  have there : (store.retrySubtask taskId node.id node.dispatchRetryCount retriedAt).2.subtask
      taskId node.id = some (retried (node.dispatchRetryCount + 1) node) :=
    subtask_eq_some.mpr ⟨_, kept, changed⟩
  rw [takesUp_iff_ready there rfl number, getReadySubtasks_eq kept rfl, retry.faults]
  unfold Dispatchable
  by_cases faulty : store.durabilityFaults.contains taskId = true
  · simp only [if_pos faulty, not_mem_nil]
    simp
  · simp only [if_neg faulty, Task.subtasks_retry,
      mem_readyOf_retried found retry.failed retry.depends]
    have cap : node.dispatchRetryCount.toNat + 1 < maxDispatchRetries.toNat ↔
        (retried (node.dispatchRetryCount + 1) node).dispatchRetryCount < maxDispatchRetries := by
      rw [UInt32.lt_iff_toNat_lt, ← number]
      rfl
    rw [cap]
    constructor
    · rintro ⟨below, agree, _⟩
      exact ⟨below _ (.inl rfl) rfl, fun twin member same =>
        ⟨below twin (.inr member) same, fun refused => agree refused twin (.inr member) same⟩⟩
    · rintro ⟨below, twins⟩
      refine ⟨?_, fun refused => ?_, fun _ => by simp⟩
      · rintro subtask (rfl | member) same
        · exact below
        · exact (twins subtask member same).1
      · rintro subtask (rfl | member) same
        · exact refused
        · exact (twins subtask member same).2 refused

def sampleFailed (attempt : UInt32) : Subtask :=
  { sampleSubtask "node-1" .failed .preferRemote with dispatchRetryCount := attempt }

theorem retry_takesUp_iff_first :
    ((sampleStore [sampleFailed 0]).retrySubtask "task-1" "node-1" 0 1).1.isOk = true ∧
      TakesUp id ((sampleStore [sampleFailed 0]).retrySubtask "task-1" "node-1" 0 1).2
        .publishReadySubtasks "task-1" (fun _ => some "uc.subtask.execute") 2
        (retried 1 (sampleFailed 0)) 1 := by
  have lookedUp : (sampleStore [sampleFailed 0]).tasks.lookup "task-1" =
      some (sampleTask [sampleFailed 0] 0) := rfl
  have found : findSubtask (sampleTask [sampleFailed 0] 0).subtasks "node-1" =
      some (sampleFailed 0) := rfl
  refine ⟨rfl, (retry_takesUp_iff lookedUp found rfl).mpr ?_⟩
  refine ⟨by decide, fun twin member => ?_⟩
  cases member

/-- The third retry of a subtask is accepted, and the dispatch that follows fails the subtask. -/
theorem retry_takesUp_fails_third :
    ((sampleStore [sampleFailed 2]).retrySubtask "task-1" "node-1" 2 1).1.isOk = true ∧
      ((dispatchAll id ((sampleStore [sampleFailed 2]).retrySubtask "task-1" "node-1" 2 1).2
        .publishReadySubtasks "task-1" (fun _ => some "uc.subtask.execute") 2).2.subtask "task-1"
          "node-1").map Subtask.status = some .failed ∧
      ¬ TakesUp id ((sampleStore [sampleFailed 2]).retrySubtask "task-1" "node-1" 2 1).2
        .publishReadySubtasks "task-1" (fun _ => some "uc.subtask.execute") 2
        (retried 3 (sampleFailed 2)) 3 := by
  refine ⟨rfl, rfl, fun takes => ?_⟩
  obtain ⟨current, held, ⟨_, assigned⟩ | ⟨_, pending⟩⟩ := takes.outcome
  · cases held
    cases assigned
  · cases held
    cases pending

end Settling

end UltimateCoders.Gateway
