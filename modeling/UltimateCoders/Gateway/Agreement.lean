import UltimateCoders.Gateway.Fanout
import UltimateCoders.Gateway.Result

/-! # Agreement of the two planes

Once every call has been executed, the graph plane agrees with the task store on the
outcomes of subtasks, provided no call was lost on the way: the commit of a subtask finds
its attempt running, nothing starts a node after its outcome was told, and no outcome is
kept from the graph plane.
-/

namespace UltimateCoders.Gateway

open Governance (Instant)
open UltimateCoders.Graph (SubtaskStatus Tables Timestamp)
open TaskStore
open Transition (Run runAll)
open List

/-! ## Agreement -/

def hasEnded : SubtaskStatus → Bool
  | .completed => true
  | .failed => true
  | .conflicted => true
  | _ => false

/-- The node of a completed subtask has succeeded, that of an ended one does not run. -/
def Settled (tables : Tables) (taskId subtaskId : String) (status : SubtaskStatus) : Prop :=
  (status = .completed → tables.InState taskId subtaskId .succeeded) ∧
    (hasEnded status = true → ¬ tables.InState taskId subtaskId .running)

instance (tables : Tables) (taskId subtaskId : String) (status : SubtaskStatus) :
    Decidable (Settled tables taskId subtaskId status) :=
  inferInstanceAs (Decidable ((_ → _) ∧ (_ → _)))

namespace SinkCall

def commits (graphId nodeId : String) : SinkCall → Bool
  | onCommit graph node _ => graph = graphId && node = nodeId
  | commitOnce graph node _ _ => graph = graphId && node = nodeId
  | _ => false

def closes (graphId nodeId : String) : SinkCall → Bool
  | onFail graph node => graph = graphId && node = nodeId
  | failAttempt graph node _ => graph = graphId && node = nodeId
  | call => call.commits graphId nodeId

theorem closes_of_commits {graphId nodeId : String} {call : SinkCall}
    (commits : call.commits graphId nodeId = true) : call.closes graphId nodeId = true := by
  cases call <;> simp_all [SinkCall.commits, closes]

end SinkCall

namespace FanoutState

/-- The graph plane agrees on every subtask of the store. -/
def Agrees (state : FanoutState) : Prop :=
  ∀ taskId task, state.store.tasks.lookup taskId = some task → ∀ subtask ∈ task.subtasks,
    Settled state.tables taskId subtask.id subtask.status

/-! ## Runs in which no call is lost -/

def Ended (state : FanoutState) (taskId subtaskId : String) : Prop :=
  ∃ task ∈ state.store.tasks.lookup taskId, ∃ subtask ∈ task.subtasks,
    subtask.id = subtaskId ∧ hasEnded subtask.status = true

instance (state : FanoutState) (taskId subtaskId : String) :
    Decidable (state.Ended taskId subtaskId) :=
  inferInstanceAs (Decidable (∃ _ ∈ _, _))

/-- The subtask has not ended, or the call that tells of its end is still to come. -/
def Awaits (state : FanoutState) (later : List SinkCall) (taskId subtaskId : String) : Prop :=
  ¬ state.Ended taskId subtaskId ∨ ∃ call ∈ later, call.closes taskId subtaskId = true

instance (state : FanoutState) (later : List SinkCall) (taskId subtaskId : String) :
    Decidable (state.Awaits later taskId subtaskId) :=
  inferInstanceAs (Decidable (_ ∨ _))

def Live (state : FanoutState) (attemptId : String) : Prop :=
  ∃ attempt ∈ state.tables.attempt? attemptId, attempt.status = "RUNNING"

instance (state : FanoutState) (attemptId : String) : Decidable (state.Live attemptId) :=
  inferInstanceAs (Decidable (∃ _ ∈ _, _))

/-- What the call has to find for its purpose not to be lost; `later` is still to come. A
commit finds its attempt running and its node without a completion. A failure of a node
that runs finds its attempt running. A dispatch, and a snapshot of a running subtask that
the graph plane does not know, come before the end of the subtask is told. -/
def Heard (state : FanoutState) (later : List SinkCall) : SinkCall → Prop
  | .commitOnce graphId nodeId attemptId _ =>
    state.tables.InState graphId nodeId .succeeded ∨
      (state.tables.InState graphId nodeId .running ∧ state.Live attemptId ∧
        ∀ completion ∈ state.tables.completions.rows, completion.nodeId ≠ nodeId) ∨
      ¬ state.Ended graphId nodeId ∨ ∃ call ∈ later, call.commits graphId nodeId = true
  | .failAttempt graphId nodeId attemptId =>
    ¬ state.tables.InState graphId nodeId .running ∨ state.Live attemptId ∨
      state.Awaits later graphId nodeId
  | .onSchedule graphId nodeId =>
    ¬ state.tables.InState graphId nodeId .ready ∨ state.Awaits later graphId nodeId
  | .shadowPersist task => ∀ subtask ∈ task.subtasks,
      state.tables.node? task.id subtask.id = none →
        subtask.status = .assigned ∨ subtask.status = .inProgress →
          state.Awaits later task.id subtask.id
  | _ => True

instance (state : FanoutState) (later : List SinkCall) :
    (call : SinkCall) → Decidable (state.Heard later call)
  | .commitOnce _ _ _ _ => inferInstanceAs (Decidable (_ ∨ _))
  | .failAttempt _ _ _ => inferInstanceAs (Decidable (_ ∨ _))
  | .onSchedule _ _ => inferInstanceAs (Decidable (_ ∨ _))
  | .shadowPersist _ => inferInstanceAs (Decidable (∀ _ ∈ _, _))
  | .onHeartbeat _ _ | .onCommit _ _ _ | .onFail _ _ | .heartbeatAttempt _ => isTrue trivial

end FanoutState

/-- Where a change gives a subtask an end without telling the graph plane, the graph plane
agrees on it already. -/
def Mutation.Backed (store : TaskStore) (tables : Tables) (now : Instant) : Mutation → Prop
  | .operate (.applyUpdate update description projectId) =>
    -- only a rebuilt task keeps its ends to itself
    store.tasks.lookup update.taskId = none →
      (store.rehydrate update description projectId now).isSome = true →
        ∀ entry ∈ update.subtasks, Settled tables update.taskId entry.subtaskId
          ((subtaskStatusFromStr entry.status).getD .pending)
  | .operate (.updateTask taskId status subtasks description projectId) =>
    (store.updateTask taskId status subtasks description projectId now).1.isOk = true →
      ∀ incoming ∈ subtasks,
        (∃ subtask ∈ store.subtask taskId incoming.id, subtask.status = incoming.status) ∨
          Settled tables taskId incoming.id incoming.status
  | .operate (.cancelTask taskId) =>
    (store.cancelTask taskId now).1.isOk = true →
      ∀ task ∈ store.tasks.lookup taskId, ∀ subtask ∈ task.subtasks,
        isOpen subtask.status = true → Settled tables taskId subtask.id .failed
  | .operate (.failSubtasks taskId subtaskIds) =>
    ∀ task ∈ store.tasks.lookup taskId, ∀ subtask ∈ task.subtasks,
      subtask.id ∈ subtaskIds → isOpen subtask.status = true →
        Settled tables taskId subtask.id .failed
  | .operate (.revertSweptSubtask taskId subtaskId rearmed) =>
    rearmed = true ∨ ∀ subtask ∈ store.subtask taskId subtaskId,
      subtask.status = .inProgress ∨ subtask.status = .assigned →
        Settled tables taskId subtaskId .failed
  | .updateSubtaskStatus taskId subtaskId status =>
    (store.subtask taskId subtaskId).isSome = true → Settled tables taskId subtaskId status
  | _ => True

instance (store : TaskStore) (tables : Tables) (now : Instant) :
    (mutation : Mutation) → Decidable (mutation.Backed store tables now)
  | .operate (.applyUpdate _ _ _) => inferInstanceAs (Decidable (_ → _))
  | .operate (.updateTask _ _ _ _ _) => inferInstanceAs (Decidable (_ → _))
  | .operate (.cancelTask _) => inferInstanceAs (Decidable (_ → _))
  | .operate (.failSubtasks _ _) => inferInstanceAs (Decidable (∀ _ ∈ _, _))
  | .operate (.revertSweptSubtask _ _ _) => inferInstanceAs (Decidable (_ ∨ _))
  | .updateSubtaskStatus _ _ _ => inferInstanceAs (Decidable (_ → _))
  | .operate (.pauseTask _) | .operate (.resumeTask _) | .operate (.markStaleTasksFailed _)
  | .operate (.retrySubtask _ _ _) | .submitTaskPending _ _ _ | .submitTask _ _ _ _
  | .incrementDispatchRetry _ _ | .setTaskStatus _ _ | .recordEvent _ | .updateLastHeartbeat
  | .keepBooks _ _ => isTrue trivial

namespace FanoutState

/-- No call is lost in the step. -/
def Calm (state : FanoutState) : FanoutAction → Prop
  | .mutate mutation now => mutation.Backed state.store state.tables now
  | .execute position _ => ∀ call ∈ state.pending[position]?,
      state.Heard (state.pending.eraseIdx position) call
  | _ => True

instance (state : FanoutState) : (action : FanoutAction) → Decidable (state.Calm action)
  | .mutate _ _ => inferInstanceAs (Decidable (Mutation.Backed _ _ _ _))
  | .execute _ _ => inferInstanceAs (Decidable (∀ _ ∈ _, _))
  | .confirm _ | .transact _ _ => isTrue trivial

/-- No subtask of the store has ended, and nothing is to be executed. -/
structure Started (state : FanoutState) : Prop where
  keyed : state.store.Keyed
  pending : state.pending = []
  unended : ∀ taskId task, state.store.tasks.lookup taskId = some task →
    ∀ subtask ∈ task.subtasks, hasEnded subtask.status = false

def step (before : FanoutState) (action : FanoutAction) (after : FanoutState) : Prop :=
  before.act action = some after

def calmStep (before : FanoutState) (action : FanoutAction) (after : FanoutState) : Prop :=
  before.Calm action ∧ before.act action = some after

end FanoutState

/-! ## What a change of the store tells -/

section Accounting

variable {store current next : TaskStore} {tables : Tables} {calls : List SinkCall}
  {taskId subtaskId : String} {status : SubtaskStatus} {task updated : Task} {subtask : Subtask}
  {now : Instant}

def Told (calls : List SinkCall) (taskId subtaskId : String) (status : SubtaskStatus) : Prop :=
  (status = .completed → ∃ call ∈ calls, call.commits taskId subtaskId = true) ∧
    (hasEnded status = true → ∃ call ∈ calls, call.closes taskId subtaskId = true)

/-- The store holds a subtask with this id and status, the graph plane agrees on it
already, or the calls tell of it. -/
def Accounted (store : TaskStore) (tables : Tables) (calls : List SinkCall)
    (taskId subtaskId : String) (status : SubtaskStatus) : Prop :=
  (∃ task, store.tasks.lookup taskId = some task ∧ ∃ subtask ∈ task.subtasks,
      subtask.id = subtaskId ∧ subtask.status = status) ∨
    Settled tables taskId subtaskId status ∨ Told calls taskId subtaskId status

/-- Every subtask of a later store is accounted for. -/
def AllAccounted (store : TaskStore) (tables : Tables) (calls : List SinkCall)
    (current : TaskStore) : Prop :=
  ∀ taskId task, current.tasks.lookup taskId = some task → ∀ subtask ∈ task.subtasks,
    Accounted store tables calls taskId subtask.id subtask.status

theorem accounted_of_mem (lookedUp : store.tasks.lookup taskId = some task)
    (member : subtask ∈ task.subtasks) :
    Accounted store tables calls taskId subtask.id subtask.status :=
  .inl ⟨task, lookedUp, subtask, member, rfl, rfl⟩

theorem settled_of_open (unended : hasEnded status = false) :
    Settled tables taskId subtaskId status := by
  refine ⟨fun completed => ?_, fun ended => ?_⟩
  · rw [completed] at unended
    cases unended
  · rw [unended] at ended
    cases ended

theorem AllAccounted.refl (store : TaskStore) : AllAccounted store tables calls store :=
  fun _ _ lookedUp _ member => accounted_of_mem lookedUp member

theorem AllAccounted.of_tasks (all : AllAccounted store tables calls current)
    (same : next.tasks = current.tasks) : AllAccounted store tables calls next := by
  intro taskId task lookedUp
  rw [same] at lookedUp
  exact all taskId task lookedUp

theorem AllAccounted.putTask (all : AllAccounted store tables calls current)
    (own : ∀ subtask ∈ updated.subtasks,
      Accounted store tables calls taskId subtask.id subtask.status) :
    AllAccounted store tables calls (current.putTask taskId updated) := by
  intro id task lookedUp
  by_cases here : id = taskId
  · subst here
    rw [TaskStore.putTask, AList.lookup_insert] at lookedUp
    rw [← Option.some.inj lookedUp]
    exact own
  · rw [TaskStore.putTask, AList.lookup_insert_ne here] at lookedUp
    exact all id task lookedUp

variable {subtasks : List Subtask}

variable {change : Subtask → Subtask}

theorem AllAccounted.changeSubtask (lookedUp : store.tasks.lookup taskId = some task)
    (same : current.tasks = store.tasks)
    (changes : updated.subtasks = TaskStore.changeSubtask task.subtasks subtaskId change)
    (own : ∀ subtask, findSubtask task.subtasks subtaskId = some subtask →
      Accounted store tables calls taskId (change subtask).id (change subtask).status) :
    AllAccounted store tables calls (current.putTask taskId updated) := by
  apply ((AllAccounted.refl store).of_tasks same).putTask
  rw [changes]
  intro subtask member
  rcases mem_changeSubtask member with old | ⟨old, found, rfl⟩
  · exact accounted_of_mem lookedUp old
  · exact own old found

theorem allAccounted_of_edits (edits : Edits Eq store next) :
    AllAccounted store tables calls next := by
  intro id new lookedUp subtask member
  obtain ⟨old, lookedUpOld, -, same⟩ := edits id new lookedUp
  rw [← forall₂_eq_eq_eq.le _ _ same] at member
  exact accounted_of_mem lookedUpOld member

theorem allAccounted_setTaskStatus {status : Graph.TaskStatus} :
    AllAccounted store tables calls (store.setTaskStatus taskId status now) := by
  unfold TaskStore.setTaskStatus
  split
  · exact .refl store
  · rename_i task lookedUp
    exact (AllAccounted.refl store).putTask fun subtask member => accounted_of_mem lookedUp member

theorem allAccounted_incrementDispatchRetry :
    AllAccounted store tables calls (store.incrementDispatchRetry taskId subtaskId now).2 := by
  unfold incrementDispatchRetry
  split
  · exact .refl store
  · rename_i task lookedUp
    split
    · exact .refl store
    · refine .changeSubtask lookedUp rfl rfl fun subtask found => ?_
      exact .inl ⟨task, lookedUp, subtask, (mem_of_findSubtask found).1, rfl, rfl⟩

theorem allAccounted_retrySubtask {nodeId : String} {expectedAttempt : UInt32} :
    AllAccounted store tables calls (store.retrySubtask taskId nodeId expectedAttempt now).2 := by
  rcases retrySubtask_cases store taskId nodeId expectedAttempt now with
    ⟨-, same⟩ | ⟨task, node, accepted⟩
  · rw [same]
    exact .refl store
  · refine .of_tasks (.changeSubtask accepted.found rfl rfl fun subtask _ => ?_) accepted.tasks
    exact .inr (.inl (settled_of_open rfl))

theorem accounted_fail {fails : Subtask → Bool} (lookedUp : store.tasks.lookup taskId = some task)
    (settled : ∀ subtask ∈ task.subtasks, fails subtask = true →
      Settled tables taskId subtask.id .failed)
    (same : ∀ subtask, (change subtask).id = subtask.id ∧ (change subtask).status = .failed) :
    ∀ subtask ∈ task.subtasks.map fun subtask => if fails subtask then change subtask else subtask,
      Accounted store tables calls taskId subtask.id subtask.status := by
  intro subtask member
  obtain ⟨old, oldMem, rfl⟩ := mem_map.mp member
  split
  · rename_i failed
    rw [(same old).1, (same old).2]
    exact .inr (.inl (settled old oldMem failed))
  · exact accounted_of_mem lookedUp oldMem

theorem allAccounted_cancelTask
    (backed : (Mutation.operate (.cancelTask taskId)).Backed store tables now) :
    AllAccounted store tables calls (store.cancelTask taskId now).2 := by
  cases lookedUp : store.tasks.lookup taskId with
  | none =>
    simp only [cancelTask, lookedUp]
    exact .refl store
  | some task =>
    have cancelled : (store.cancelTask taskId now).1.isOk = true →
        ∀ untracked : TaskStore, untracked.tasks = store.tasks → AllAccounted store tables calls
          (untracked.putTask taskId { task with
            status := .failed
            updatedAt := now
            subtasks := task.subtasks.map fun subtask =>
              if isOpen subtask.status then { subtask with status := .failed }
              else subtask }) := by
      intro ok untracked same
      apply ((AllAccounted.refl store).of_tasks same).putTask
      exact accounted_fail lookedUp (backed ok task lookedUp) fun _ => ⟨rfl, rfl⟩
    unfold cancelTask at cancelled ⊢
    simp only [lookedUp] at cancelled ⊢
    cases status : task.status with
    | inProgress | planning | paused =>
      simp only [status] at cancelled ⊢
      exact cancelled rfl _ (tasks_untrackAll _ _)
    | created | completed | failed =>
      exact .refl store

theorem allAccounted_failSubtasks {subtaskIds : List String}
    (backed : (Mutation.operate (.failSubtasks taskId subtaskIds)).Backed store tables now) :
    AllAccounted store tables calls (store.failSubtasks taskId subtaskIds now).2 := by
  unfold failSubtasks
  split
  · exact .refl store
  · rename_i task lookedUp
    dsimp only
    split
    · apply ((AllAccounted.refl store).of_tasks (tasks_untrackAll _ _)).putTask
      refine accounted_fail lookedUp (fun subtask member fails => ?_) fun _ => ⟨rfl, rfl⟩
      simp only [Bool.and_eq_true, contains_iff_mem] at fails
      exact backed task lookedUp subtask member fails.1 fails.2
    · exact .refl store

theorem allAccounted_revertSweptSubtask {rearmed : Bool}
    (backed : (Mutation.operate (.revertSweptSubtask taskId subtaskId rearmed)).Backed store tables
      now) :
    AllAccounted store tables calls (store.revertSweptSubtask taskId subtaskId rearmed now).2 := by
  unfold revertSweptSubtask
  split
  · exact .refl store
  · rename_i task lookedUp
    split
    · exact .refl store
    · rename_i subtask found
      split
      · rename_i runs
        refine .changeSubtask lookedUp rfl rfl fun old foundOld => ?_
        rw [found, Option.some.injEq] at foundOld
        subst foundOld
        right
        left
        cases rearmed with
        | true => exact settled_of_open rfl
        | false =>
          have known : store.subtask taskId subtaskId = some subtask :=
            subtask_eq_some.mpr ⟨task, lookedUp, found⟩
          have settled :=
            backed.resolve_left Bool.false_ne_true subtask known (by simpa using runs)
          rw [← (mem_of_findSubtask found).2] at settled
          exact settled
      · exact .refl store

theorem allAccounted_updateSubtaskStatus
    (backed : (Mutation.updateSubtaskStatus taskId subtaskId status).Backed store tables now) :
    AllAccounted store tables calls (store.updateSubtaskStatus taskId subtaskId status now) := by
  unfold updateSubtaskStatus
  split
  · exact .refl store
  · rename_i task lookedUp
    split
    · exact .refl store
    · rename_i subtask found
      refine .changeSubtask lookedUp ?_ rfl fun old foundOld => ?_
      · split_ifs <;> rfl
      · have known : store.subtask taskId subtaskId = some subtask :=
          subtask_eq_some.mpr ⟨task, lookedUp, found⟩
        have settled : Settled tables taskId subtaskId status := backed (by rw [known]; rfl)
        rw [← (mem_of_findSubtask foundOld).2] at settled
        exact .inr (.inl settled)

/-! ### Projections -/

theorem Projected.status_upsert {projected : Projected} {incoming : Subtask}
    (member : subtask ∈ (projected.upsert incoming).subtasks) :
    subtask ∈ projected.subtasks ∨
      (incoming.id = subtask.id ∧ incoming.status = subtask.status) := by
  unfold Projected.upsert at member
  split at member
  · rename_i existing found
    rcases mem_changeSubtask member with old | ⟨old, foundOld, rfl⟩
    · exact .inl old
    · exact .inr ⟨(mem_of_findSubtask foundOld).2.symm, rfl⟩
  · rcases mem_append.mp member with old | new
    · exact .inl old
    · rw [mem_singleton.mp new]
      exact .inr ⟨rfl, rfl⟩

theorem Projected.status_foldl {projected : Projected}
    (member : subtask ∈ (subtasks.foldl Projected.upsert projected).subtasks) :
    subtask ∈ projected.subtasks ∨
      ∃ incoming ∈ subtasks, incoming.id = subtask.id ∧ incoming.status = subtask.status := by
  induction subtasks generalizing projected with
  | nil => exact .inl member
  | cons incoming rest ih =>
    rcases ih member with before | ⟨other, otherMem, same⟩
    · rcases Projected.status_upsert before with old | same
      · exact .inl old
      · exact .inr ⟨incoming, mem_cons_self, same⟩
    · exact .inr ⟨other, mem_cons_of_mem _ otherMem, same⟩

theorem accounted_of_backed {incoming : Subtask}
    (backed : (∃ subtask ∈ store.subtask taskId incoming.id, subtask.status = incoming.status) ∨
      Settled tables taskId incoming.id incoming.status) :
    Accounted store tables calls taskId incoming.id incoming.status := by
  rcases backed with ⟨subtask, known, same⟩ | settled
  · obtain ⟨task, lookedUp, found⟩ := subtask_eq_some.mp known
    have own := mem_of_findSubtask found
    exact .inl ⟨task, lookedUp, subtask, own.1, own.2, same⟩
  · exact .inr (.inl settled)

theorem allAccounted_updateTask {status description projectId : String}
    (backed : (Mutation.operate
      (.updateTask taskId status subtasks description projectId)).Backed store tables now) :
    AllAccounted store tables calls
      (store.updateTask taskId status subtasks description projectId now).2 := by
  have own : (store.updateTask taskId status subtasks description projectId now).1.isOk = true →
      ∀ incoming ∈ subtasks, Accounted store tables calls taskId incoming.id incoming.status :=
    fun ok incoming member => accounted_of_backed (backed ok incoming member)
  rcases updateTask_tasks store taskId status subtasks description projectId now with
    same | ⟨ok, task, parsed, source, written⟩
  · exact (AllAccounted.refl store).of_tasks same
  · refine AllAccounted.of_tasks ((AllAccounted.refl store).putTask fun subtask member => ?_) written
    rcases Projected.status_foldl member with old | ⟨incoming, incomingMem, sameId, sameStatus⟩
    · rcases source with lookedUp | ⟨-, -, brought⟩
      · exact accounted_of_mem lookedUp old
      · exact own ok subtask (brought ▸ old)
    · rw [← sameId, ← sameStatus]
      exact own ok incoming incomingMem

/-! ### Reports -/

theorem told_graphVerbFor {resultRef : Option String} {previous : SubtaskStatus}
    (moved : status ≠ previous) :
    Told (graphVerbFor taskId subtaskId resultRef status previous).toList taskId subtaskId
      status := by
  unfold graphVerbFor
  rw [if_neg moved]
  cases status <;> simp [Told, hasEnded, SinkCall.commits, SinkCall.closes]

theorem Told.mono {more : List SinkCall} (told : Told calls taskId subtaskId status)
    (subset : ∀ call ∈ calls, call ∈ more) : Told more taskId subtaskId status := by
  refine ⟨fun completed => ?_, fun ended => ?_⟩
  · obtain ⟨call, member, commits⟩ := told.1 completed
    exact ⟨call, subset call member, commits⟩
  · obtain ⟨call, member, closes⟩ := told.2 ended
    exact ⟨call, subset call member, closes⟩

variable {reported : Reported} {isPartial : Bool}

theorem Reported.told_upsert {update : NatsSubtaskUpdate}
    (member : subtask ∈ (reported.upsert taskId isPartial now update).subtasks) :
    (∃ old ∈ reported.subtasks, old.id = subtask.id ∧ old.status = subtask.status) ∨
      Told (reported.call taskId isPartial now update).toList taskId subtask.id subtask.status := by
  unfold Reported.upsert at member
  unfold Reported.call
  cases found : findSubtask reported.subtasks update.subtaskId with
  | some node =>
    simp only [found] at member ⊢
    cases passes : (if isPartial then fence node update else .passes) with
    | ignored | stale received current =>
      simp only [passes] at member
      exact .inl ⟨subtask, member, rfl, rfl⟩
    | passes =>
      simp only [passes] at member ⊢
      rcases mem_changeSubtask member with old | ⟨old, foundOld, rfl⟩
      · exact .inl ⟨subtask, old, rfl, rfl⟩
      · rw [found, Option.some.injEq] at foundOld
        subst foundOld
        rw [reportSubtask_id, reportSubtask_status]
        have nodeMem := (mem_of_findSubtask found).1
        cases parsed : subtaskStatusFromStr update.status with
        | none => exact .inl ⟨node, nodeMem, rfl, rfl⟩
        | some status =>
          by_cases same : status = node.status
          · exact .inl ⟨node, nodeMem, rfl, same.symm⟩
          · exact .inr (told_graphVerbFor same)
  | none =>
    simp only [found] at member ⊢
    rcases mem_append.mp member with old | new
    · exact .inl ⟨subtask, old, rfl, rfl⟩
    · rw [mem_singleton.mp new]
      by_cases pending : (newSubtask taskId isPartial update now).status = .pending
      · right
        rw [pending]
        exact ⟨(nomatch ·), (nomatch ·)⟩
      · exact .inr (told_graphVerbFor pending)

theorem Reported.told_foldl {updates : List NatsSubtaskUpdate}
    (member : subtask ∈ (updates.foldl (Reported.upsert taskId isPartial now) reported).subtasks) :
    (∃ old ∈ reported.subtasks, old.id = subtask.id ∧ old.status = subtask.status) ∨
      Told (Reported.calls taskId isPartial now reported updates) taskId subtask.id
        subtask.status := by
  induction updates generalizing reported with
  | nil => exact .inl ⟨subtask, member, rfl, rfl⟩
  | cons update rest ih =>
    rcases ih member with ⟨middle, middleMem, sameId, sameStatus⟩ | told
    · rcases Reported.told_upsert middleMem with ⟨old, oldMem, oldId, oldStatus⟩ | told
      · exact .inl ⟨old, oldMem, oldId.trans sameId, oldStatus.trans sameStatus⟩
      · rw [sameId, sameStatus] at told
        exact .inr (told.mono fun call callMem => mem_append_left _ callMem)
    · exact .inr (told.mono fun call callMem => mem_append_right _ callMem)

variable {update : NatsTaskUpdate} {description projectId : Option String} {stored : TaskStore}

theorem allAccounted_rehydrate
    (backed : (Mutation.operate (.applyUpdate update description projectId)).Backed store tables
      now)
    (rehydrated : store.rehydrate update description projectId now = some stored) :
    AllAccounted store tables calls stored := by
  have some : (store.rehydrate update description projectId now).isSome := by rw [rehydrated]; rfl
  rcases rehydrate_cases rehydrated with ⟨rfl, -⟩ | ⟨missing, fresh, -, sent, rfl⟩
  · exact .refl stored
  · refine .putTask (.of_tasks (.refl store) ?_) fun subtask member => ?_
    · rw [tasks_trackAll, recordEvent_tasks]
    · rw [sent] at member
      obtain ⟨entry, entryMem, rfl⟩ := mem_map.mp member
      exact .inr (.inl (backed missing some entry entryMem))

theorem allAccounted_applyUpdate (keyed : store.Keyed)
    (backed : (Mutation.operate (.applyUpdate update description projectId)).Backed store tables
      now) :
    AllAccounted store tables
      ((Mutation.operate (.applyUpdate update description projectId)).fanout store now)
      (store.applyUpdateWithMetadata update description projectId now) := by
  unfold applyUpdateWithMetadata
  cases stale : store.fullSnapshotIsStale update with
  | true => exact .refl store
  | false =>
    cases rehydrated : store.rehydrate update description projectId now with
    | none => exact .refl store
    | some stored =>
      have rebuilt : ∀ calls, AllAccounted store tables calls stored := fun calls =>
        allAccounted_rehydrate backed rehydrated
      cases lookedUp : stored.tasks.lookup update.taskId with
      | none =>
        simp only [lookedUp]
        exact rebuilt _
      | some task =>
        have sameId : task.id = update.taskId :=
          keyed_rehydrate keyed rehydrated update.taskId task lookedUp
        simp only [lookedUp, Bool.false_eq_true, if_false]
        intro id held heldLookup
        rw [tasks_recordEvents] at heldLookup
        have kept := lookup_of_evictCompletedTasks heldLookup
        refine (rebuilt _).putTask (fun subtask member => ?_) id held kept
        rcases Reported.told_foldl member with ⟨old, oldMem, oldId, oldStatus⟩ | told
        · rw [← oldId, ← oldStatus]
          exact rebuilt _ update.taskId task lookedUp old oldMem
        · rw [sameId] at told
          refine .inr (.inr (told.mono fun call callMem => ?_))
          simp only [Mutation.fanout, stale, Bool.false_eq_true, if_false, rehydrated,
            lookedUp, sameId]
          exact mem_append_right _ callMem

theorem allAccounted_apply {mutation : Mutation} (keyed : store.Keyed)
    (backed : mutation.Backed store tables now) :
    AllAccounted store tables (mutation.fanout store now) (mutation.apply store now) := by
  cases mutation with
  | operate operation =>
    cases operation with
    | applyUpdate update description projectId => exact allAccounted_applyUpdate keyed backed
    | updateTask taskId status subtasks description projectId =>
      exact allAccounted_updateTask backed
    | pauseTask taskId => exact allAccounted_of_edits edits_pauseTask
    | resumeTask taskId => exact allAccounted_of_edits edits_resumeTask
    | cancelTask taskId => exact allAccounted_cancelTask backed
    | failSubtasks taskId subtaskIds => exact allAccounted_failSubtasks backed
    | revertSweptSubtask taskId subtaskId rearmed => exact allAccounted_revertSweptSubtask backed
    | markStaleTasksFailed timeout => exact allAccounted_of_edits edits_markStaleTasksFailed
    | retrySubtask taskId nodeId expectedAttempt => exact allAccounted_retrySubtask
  | submitTaskPending taskId description projectId =>
    refine ((AllAccounted.refl store).of_tasks (recordEvent_tasks _ _)).putTask ?_
    simp
  | submitTask taskId subtaskId description projectId =>
    refine ((AllAccounted.refl store).of_tasks ?_).putTask fun subtask member => ?_
    · rw [recordEvent_tasks, recordEvent_tasks]
    · rw [mem_singleton.mp member]
      exact .inr (.inl (settled_of_open rfl))
  | updateSubtaskStatus taskId subtaskId status => exact allAccounted_updateSubtaskStatus backed
  | incrementDispatchRetry taskId subtaskId => exact allAccounted_incrementDispatchRetry
  | setTaskStatus taskId status => exact allAccounted_setTaskStatus
  | recordEvent event => exact (AllAccounted.refl store).of_tasks (recordEvent_tasks _ _)
  | updateLastHeartbeat | keepBooks durabilityFaults seenMessages =>
    exact (AllAccounted.refl store).of_tasks rfl

end Accounting

/-! ## What the execution of a call does -/

variable {tables : Tables} {call : SinkCall} {now : Timestamp} {graphId nodeId : String}

theorem SinkCall.inState_succeeded (succeeded : tables.InState graphId nodeId .succeeded) :
    (call.exec now tables).2.InState graphId nodeId .succeeded := by
  have lifecycle : ∀ transaction : Graph.Transaction,
      (transaction.exec now tables).InState graphId nodeId .succeeded := fun transaction =>
    (Graph.StoreTransaction.lifecycle now transaction).inState_succeeded succeeded
  cases call with
  | shadowPersist task => exact Graph.inState_succeeded_mirror succeeded
  | onHeartbeat | onCommit | onFail => exact succeeded
  | onSchedule | heartbeatAttempt | commitOnce | failAttempt => exact lifecycle _

theorem SinkCall.inState_running
    (running : (call.exec now tables).2.InState graphId nodeId .running) :
    tables.InState graphId nodeId .running ∨
      (call = .onSchedule graphId nodeId ∧ tables.InState graphId nodeId .ready) ∨
      ∃ task, call = .shadowPersist task ∧ task.id = graphId ∧
        tables.node? graphId nodeId = none ∧ ∃ subtask ∈ task.subtasks, subtask.id = nodeId ∧
          (subtask.status = .assigned ∨ subtask.status = .inProgress) := by
  cases call with
  | shadowPersist task =>
    rcases Graph.inState_running_mirror running with
      ran | ⟨same, fresh, subtask, member, own, state⟩
    · exact .inl ran
    · obtain ⟨origin, originMem, rfl⟩ := mem_map.mp member
      exact .inr (.inr ⟨task, rfl, same, fresh, origin, originMem, own,
        Graph.Task.status_of_running state⟩)
  | onSchedule graph node =>
    rcases Graph.Transaction.inState_running running with ran | ⟨⟨workerId, same⟩, ready⟩
    · exact .inl ran
    · cases same
      exact .inr (.inl ⟨rfl, ready⟩)
  | onHeartbeat | onCommit | onFail => exact .inl running
  | heartbeatAttempt | commitOnce | failAttempt =>
    rcases Graph.Transaction.inState_running running with ran | ⟨⟨workerId, impossible⟩, -⟩
    · exact .inl ran
    · cases impossible

theorem not_running_of_succeeded (succeeded : tables.InState graphId nodeId .succeeded) :
    ¬ tables.InState graphId nodeId .running := by
  obtain ⟨node, member, rfl, rfl, state⟩ := succeeded
  rw [Graph.Tables.inState_of_node? (Graph.Tables.node?_eq_some.mpr ⟨member, rfl, rfl⟩), state]
  decide

namespace FanoutState

/-- The call that tells of the end of the subtask was executed, or is still to come. -/
def Covers (tables : Tables) (pending : List SinkCall) (taskId subtaskId : String)
    (status : SubtaskStatus) : Prop :=
  (status = .completed → tables.InState taskId subtaskId .succeeded ∨
      ∃ call ∈ pending, call.commits taskId subtaskId = true) ∧
    (hasEnded status = true → ¬ tables.InState taskId subtaskId .running ∨
      ∃ call ∈ pending, call.closes taskId subtaskId = true)

/-- Every end of a subtask reaches the graph plane. -/
structure Covered (state : FanoutState) : Prop where
  keyed : state.store.Keyed
  covers : ∀ taskId task, state.store.tasks.lookup taskId = some task →
    ∀ subtask ∈ task.subtasks, Covers state.tables state.pending taskId subtask.id subtask.status

variable {state next : FanoutState}

theorem Started.covered (started : state.Started) : state.Covered where
  keyed := started.keyed
  covers taskId task lookedUp subtask member := by
    have running := started.unended taskId task lookedUp subtask member
    refine ⟨fun completed => ?_, fun ended => ?_⟩
    · rw [completed] at running
      cases running
    · rw [running] at ended
      cases ended

theorem Covered.agrees (covered : state.Covered) (rest : state.pending = []) : state.Agrees := by
  intro taskId task lookedUp subtask member
  have covers := covered.covers taskId task lookedUp subtask member
  simpa [Covers, Settled, rest] using covers

theorem mem_eraseIdx_of_ne {Item : Type} {items : List Item} {position : Nat} {item other : Item}
    (found : items[position]? = some item) (member : other ∈ items) (apart : other ≠ item) :
    other ∈ items.eraseIdx position := by
  obtain ⟨place, foundOther⟩ := mem_iff_getElem?.mp member
  refine mem_eraseIdx_iff_getElem?.mpr ⟨place, fun same => apart ?_, foundOther⟩
  rw [same, found] at foundOther
  exact (Option.some.inj foundOther).symm

theorem Heard.commitOnce {attemptId : String} {resultRef : Option String} {later : List SinkCall}
    (heard : state.Heard later (.commitOnce graphId nodeId attemptId resultRef))
    (ended : state.Ended graphId nodeId) :
    ((SinkCall.commitOnce graphId nodeId attemptId resultRef).exec now state.tables).2.InState
        graphId nodeId .succeeded ∨ ∃ call ∈ later, call.commits graphId nodeId = true := by
  rcases heard with succeeded |
    ⟨⟨node, member, sameGraph, sameNode, running⟩, ⟨attempt, found, live⟩, free⟩ |
    reopened | later
  · exact .inl (SinkCall.inState_succeeded succeeded)
  · left
    have wins : state.tables.CommitWins graphId nodeId attemptId node attempt := {
      found := Graph.Tables.node?_eq_some.mpr ⟨member, sameGraph, sameNode⟩
      foundAttempt := found
      unfinished := by
        rw [running]
        decide
      running := live
      uncommitted := free }
    exact Graph.inState_commitOnce wins running
  · exact absurd ended reopened
  · exact .inr later

theorem Heard.failAttempt {attemptId : String} {later : List SinkCall}
    (heard : state.Heard later (.failAttempt graphId nodeId attemptId))
    (ended : state.Ended graphId nodeId) :
    ¬ ((SinkCall.failAttempt graphId nodeId attemptId).exec now state.tables).2.InState graphId
        nodeId .running ∨ ∃ call ∈ later, call.closes graphId nodeId = true := by
  rcases heard with stopped | ⟨attempt, found, live⟩ | reopened | later
  · left
    intro running
    rcases SinkCall.inState_running running with ran | ⟨impossible, -⟩ | ⟨task, impossible, -⟩
    · exact stopped ran
    · cases impossible
    · cases impossible
  · exact .inl (Graph.not_inState_failAttempt found live)
  · exact absurd ended reopened
  · exact .inr later

variable {position : Nat} {taskId subtaskId : String} {status : SubtaskStatus}

theorem commits_execute (found : state.pending[position]? = some call)
    (heard : state.Heard (state.pending.eraseIdx position) call)
    (ended : state.Ended taskId subtaskId)
    (committed : state.tables.InState taskId subtaskId .succeeded ∨
      ∃ call ∈ state.pending, call.commits taskId subtaskId = true) :
    (call.exec now state.tables).2.InState taskId subtaskId .succeeded ∨
      ∃ other ∈ state.pending.eraseIdx position ++ (call.exec now state.tables).1.toList,
        other.commits taskId subtaskId = true := by
  rcases committed with succeeded | ⟨other, member, commits⟩
  · exact .inl (SinkCall.inState_succeeded succeeded)
  · by_cases same : other = call
    · subst same
      cases other with
      | onCommit graph node resultRef =>
        exact .inr ⟨_, mem_append_right _ (mem_singleton.mpr rfl), commits⟩
      | commitOnce graph node attemptId resultRef =>
        simp only [SinkCall.commits, Bool.and_eq_true, decide_eq_true_eq] at commits
        obtain ⟨rfl, rfl⟩ := commits
        rcases heard.commitOnce ended with succeeded | ⟨later, laterMem, laterCommits⟩
        · exact .inl succeeded
        · exact .inr ⟨later, mem_append_left _ laterMem, laterCommits⟩
      | shadowPersist | onSchedule | onHeartbeat | onFail | heartbeatAttempt | failAttempt =>
        cases commits
    · exact .inr ⟨other, mem_append_left _ (mem_eraseIdx_of_ne found member same), commits⟩

theorem closes_execute (found : state.pending[position]? = some call)
    (heard : state.Heard (state.pending.eraseIdx position) call)
    (ended : state.Ended taskId subtaskId)
    (closed : ¬ state.tables.InState taskId subtaskId .running ∨
      ∃ call ∈ state.pending, call.closes taskId subtaskId = true) :
    ¬ (call.exec now state.tables).2.InState taskId subtaskId .running ∨
      ∃ other ∈ state.pending.eraseIdx position ++ (call.exec now state.tables).1.toList,
        other.closes taskId subtaskId = true := by
  have awaited : state.Awaits (state.pending.eraseIdx position) taskId subtaskId →
      ∃ other ∈ state.pending.eraseIdx position ++ (call.exec now state.tables).1.toList,
        other.closes taskId subtaskId = true := by
    intro awaits
    obtain ⟨later, laterMem, closes⟩ := awaits.resolve_left (not_not_intro ended)
    exact ⟨later, mem_append_left _ laterMem, closes⟩
  by_cases running : (call.exec now state.tables).2.InState taskId subtaskId .running
  · right
    rcases SinkCall.inState_running running with
      ran | ⟨rfl, ready⟩ | ⟨task, rfl, rfl, fresh, subtask, member, rfl, dispatched⟩
    · obtain ⟨other, member, closes⟩ := closed.resolve_left (not_not_intro ran)
      by_cases same : other = call
      · subst same
        cases other with
        | onCommit | onFail =>
          exact ⟨_, mem_append_right _ (mem_singleton.mpr rfl), closes⟩
        | commitOnce graph node attemptId resultRef =>
          simp only [SinkCall.closes, SinkCall.commits, Bool.and_eq_true,
            decide_eq_true_eq] at closes
          obtain ⟨rfl, rfl⟩ := closes
          rcases heard.commitOnce ended with succeeded | ⟨later, laterMem, laterCommits⟩
          · exact absurd running (not_running_of_succeeded succeeded)
          · exact ⟨later, mem_append_left _ laterMem, SinkCall.closes_of_commits laterCommits⟩
        | failAttempt graph node attemptId =>
          simp only [SinkCall.closes, Bool.and_eq_true, decide_eq_true_eq] at closes
          obtain ⟨rfl, rfl⟩ := closes
          rcases heard.failAttempt ended with stopped | ⟨later, laterMem, laterCloses⟩
          · exact absurd running stopped
          · exact ⟨later, mem_append_left _ laterMem, laterCloses⟩
        | shadowPersist | onSchedule | onHeartbeat | heartbeatAttempt => cases closes
      · exact ⟨other, mem_append_left _ (mem_eraseIdx_of_ne found member same), closes⟩
    · exact awaited (heard.resolve_left (not_not_intro ready))
    · exact awaited (heard subtask member fresh dispatched)
  · exact .inl running

/-! ## Runs -/

variable {more : List SinkCall}

theorem Covers.append {pending : List SinkCall}
    (covers : Covers tables pending taskId subtaskId status) :
    Covers tables (pending ++ more) taskId subtaskId status := by
  refine ⟨fun completed => (covers.1 completed).imp_right ?_,
    fun ended => (covers.2 ended).imp_right ?_⟩
  · rintro ⟨call, member, commits⟩
    exact ⟨call, mem_append_left _ member, commits⟩
  · rintro ⟨call, member, closes⟩
    exact ⟨call, mem_append_left _ member, closes⟩

theorem Covered.mutate {mutation : Mutation} {now : Instant} (covered : state.Covered)
    (backed : mutation.Backed state.store state.tables now) :
    Covered { state with
      store := mutation.apply state.store now
      pending := state.pending ++ mutation.fanout state.store now } where
  keyed := Mutation.keyed_apply covered.keyed
  covers taskId task lookedUp subtask member := by
    rcases allAccounted_apply covered.keyed backed taskId task lookedUp subtask member with
      ⟨old, oldLookup, same, sameMem, sameId, sameStatus⟩ | settled | told
    · rw [← sameId, ← sameStatus]
      exact (covered.covers taskId old oldLookup same sameMem).append
    · exact ⟨fun completed => .inl (settled.1 completed), fun ended => .inl (settled.2 ended)⟩
    · have told := told.mono fun call => mem_append_right state.pending
      exact ⟨fun completed => .inr (told.1 completed), fun ended => .inr (told.2 ended)⟩

theorem Covered.transact {transaction : Graph.Transaction} (covered : state.Covered)
    (idle : schedules transaction = false) :
    Covered { state with tables := transaction.exec now state.tables } where
  keyed := covered.keyed
  covers taskId task lookedUp subtask member := by
    have covers := covered.covers taskId task lookedUp subtask member
    refine ⟨fun completed => (covers.1 completed).imp_left fun succeeded => ?_,
      fun ended => (covers.2 ended).imp_left fun stopped running => ?_⟩
    · exact (Graph.StoreTransaction.lifecycle now transaction).inState_succeeded succeeded
    · rcases Graph.Transaction.inState_running running with ran | ⟨⟨workerId, rfl⟩, -⟩
      · exact stopped ran
      · cases idle

theorem Covered.execute (covered : state.Covered) (found : state.pending[position]? = some call)
    (heard : state.Heard (state.pending.eraseIdx position) call) :
    Covered { state with
      tables := (call.exec now state.tables).2
      pending := state.pending.eraseIdx position ++ (call.exec now state.tables).1.toList } where
  keyed := covered.keyed
  covers taskId task lookedUp subtask member := by
    have covers := covered.covers taskId task lookedUp subtask member
    have closed : hasEnded subtask.status = true → state.Ended taskId subtask.id :=
      fun ended => ⟨task, lookedUp, subtask, member, rfl, ended⟩
    refine ⟨fun completed => commits_execute found heard (closed ?_) (covers.1 completed),
      fun ended => closes_execute found heard (closed ended) (covers.2 ended)⟩
    rw [completed]
    rfl

theorem Covered.step {action : FanoutAction} (covered : state.Covered)
    (moved : calmStep state action next) : next.Covered := by
  obtain ⟨calm, acted⟩ := moved
  cases action with
  | mutate mutation now =>
    rw [← Option.some.inj acted]
    exact covered.mutate calm
  | confirm taskId =>
    obtain ⟨task, -, rfl⟩ := Option.map_eq_some_iff.mp acted
    exact ⟨covered.keyed, fun id held lookedUp subtask member =>
      (covered.covers id held lookedUp subtask member).append⟩
  | transact transaction now =>
    simp only [act] at acted
    split at acted
    · cases acted
    · rename_i idle
      rw [← Option.some.inj acted]
      exact covered.transact (Bool.eq_false_iff.mpr idle)
  | execute position now =>
    obtain ⟨call, found, rfl⟩ := Option.map_eq_some_iff.mp acted
    exact covered.execute found (calm call found)

/-- If no call is lost on the way, the two planes agree once every call was executed. -/
theorem agrees_of_run {start reached : FanoutState} {actions : List FanoutAction}
    (started : start.Started) (run : Run calmStep start actions reached)
    (rest : reached.pending = []) : reached.Agrees := by
  have covered : reached.Covered := by
    refine run.invariant (fun _ => True) (fun before action after covered _ moved => ?_)
      (fun _ _ => trivial) started.covered
    exact Covered.step covered moved
  exact covered.agrees rest

/-- A task is submitted, its subtask dispatched and reported as completed. -/
def sampleWork : List FanoutAction := [
  .mutate (.submitTask "task-1" "node-1" "write" "project") 1,
  .mutate (.updateSubtaskStatus "task-1" "node-1" .assigned) 2,
  .mutate (.operate (.applyUpdate (sampleResult none) none none)) 3]

/-- Nothing was submitted yet. -/
def sampleIdle : FanoutState := ⟨{ sampleStore [] with tasks := ∅ }, Graph.Tables.empty, []⟩

theorem started_sampleIdle : sampleIdle.Started where
  keyed := keyed_empty
  pending := rfl
  unended taskId task lookedUp := by
    cases lookedUp

def executions (positions : List Nat) : List FanoutAction :=
  positions.map fun position => .execute position 9

/-- How many calls are left, the states of the nodes and the status of the subtask. -/
def outcome (state : FanoutState) : Nat × List String × Option SubtaskStatus :=
  (state.pending.length, state.tables.nodes.rows.map (·.state),
    (state.store.subtask "task-1" "node-1").map (·.status))

theorem agrees_of_run_ordered : sampleIdle.Started ∧ ∃ reached,
    Run calmStep sampleIdle (sampleWork ++ executions [0, 0, 0, 1, 1, 0]) reached ∧
      reached.outcome = (0, ["SUCCEEDED"], some .completed) ∧ reached.Agrees := by
  have ran : (runAll (fun state action => if state.Calm action then state.act action else none)
      sampleIdle (sampleWork ++ executions [0, 0, 0, 1, 1, 0])).map outcome =
      some (0, ["SUCCEEDED"], some .completed) := by
    decide +kernel
  obtain ⟨reached, run, left⟩ := Option.map_eq_some_iff.mp ran
  have calm : Run calmStep sampleIdle _ reached :=
    (Transition.run_iff_runAll.mpr run).mono fun before action after moved => by
      simpa [calmStep] using moved
  have rest : reached.pending = [] := length_eq_zero_iff.mp (congrArg Prod.fst left)
  exact ⟨started_sampleIdle, reached, calm, left, agrees_of_run started_sampleIdle calm rest⟩

theorem not_agrees_of_outcome (left : state.outcome = (0, ["RUNNING"], some .completed)) :
    ¬ state.Agrees := by
  intro agrees
  simp only [outcome, Prod.mk.injEq, Option.map_eq_some_iff] at left
  obtain ⟨-, states, subtask, known, completed⟩ := left
  obtain ⟨task, lookedUp, found⟩ := subtask_eq_some.mp known
  have settled := agrees "task-1" task lookedUp subtask (mem_of_findSubtask found).1
  obtain ⟨node, member, -, -, succeeded⟩ := settled.1 completed
  have running : node.state ∈ state.tables.nodes.rows.map (·.state) :=
    mem_map_of_mem member
  rw [states, succeeded] at running
  simp [Graph.NodeStatus.asStr] at running

/-- Executed in the order in which they were spawned, the snapshot of the completed task
comes before the commit, which is then late; executed before the dispatch, the commit finds
nothing to commit. -/
theorem agrees_fails_unordered : sampleIdle.Started ∧
    ∀ positions ∈ [[0, 0, 0, 0, 0, 0], [0, 3, 3, 0, 0, 0]], ∃ reached,
      Run step sampleIdle (sampleWork ++ executions positions) reached ∧
        reached.pending = [] ∧ ¬ reached.Agrees := by
  have ran : ∀ positions ∈ [[0, 0, 0, 0, 0, 0], [0, 3, 3, 0, 0, 0]],
      (runAll act sampleIdle (sampleWork ++ executions positions)).map outcome =
        some (0, ["RUNNING"], some .completed) := by
    decide +kernel
  refine ⟨started_sampleIdle, fun positions member => ?_⟩
  obtain ⟨reached, run, left⟩ := Option.map_eq_some_iff.mp (ran positions member)
  exact ⟨reached, Transition.run_iff_runAll.mpr run,
    length_eq_zero_iff.mp (congrArg Prod.fst left), not_agrees_of_outcome left⟩

end FanoutState

end UltimateCoders.Gateway
