import UltimateCoders.Gateway.Persistence

/-! # Control commands

A command changes the task in memory, records its event, and is answered only after
both were flushed; dispatch of the task stays closed meanwhile. If the flush fails,
the caller sees an error while the change stays.
-/

namespace UltimateCoders.Gateway

open Governance (Instant)
open UltimateCoders.Graph (TaskStatus SubtaskStatus)
open TaskStore
open Durable (Chain Outcome swallow latch)
open Mutation

inductive Command where
  | pauseTask (taskId : String)
  | resumeTask (taskId : String)
  | cancelTask (taskId : String)
  | retrySubtask (taskId nodeId : String) (expectedAttempt : UInt32)
  deriving DecidableEq

/-- What is done after a command was flushed. -/
inductive FollowUp where
  | broadcast (event : AgentEvent)
  | armPauseGraceTimer (taskId : String)
  | cancelPauseGraceTimer (taskId : String)
  | publishTaskStatus (taskId type : String)
  | failRunningAttempts (taskId reason : String)
  | retryNode (taskId nodeId : String) (attempt : UInt32)
  | dispatchReadySubtasks (taskId : String)
  deriving DecidableEq

inductive Reply where
  /-- The call fails. -/
  | unavailable (error : String)
  /-- The call says that the command was not carried out. -/
  | refused (error : String)
  | success (task : Task) (followUps : List FollowUp)
  deriving DecidableEq

namespace Command

def taskId : Command → String
  | pauseTask taskId => taskId
  | resumeTask taskId => taskId
  | cancelTask taskId => taskId
  | retrySubtask taskId _ _ => taskId

def operation : Command → TaskOperation
  | pauseTask taskId => .pauseTask taskId
  | resumeTask taskId => .resumeTask taskId
  | cancelTask taskId => .cancelTask taskId
  | retrySubtask taskId nodeId expectedAttempt => .retrySubtask taskId nodeId expectedAttempt

def result (store : TaskStore) (now : Instant) : Command → Except String Task
  | pauseTask taskId => (store.pauseTask taskId now).1
  | resumeTask taskId => (store.resumeTask taskId now).1
  | cancelTask taskId => (store.cancelTask taskId now).1
  | retrySubtask taskId nodeId expectedAttempt =>
    (store.retrySubtask taskId nodeId expectedAttempt now).1

/-- The event that the call records; the store records those of a retry itself. -/
def controlEvents (task : Task) : Command → List AgentEvent
  | pauseTask _ => [.taskPaused task.id]
  | resumeTask _ => [.taskResumed task.id]
  | cancelTask _ => [.taskCancelled task.id]
  | retrySubtask _ _ _ => []

/-- How many events a command records. -/
def eventCount : Command → Nat
  | retrySubtask _ _ _ => 2
  | _ => 1

def followUps (task : Task) : Command → List FollowUp
  | pauseTask taskId =>
    [.broadcast (.taskPaused task.id), .armPauseGraceTimer taskId,
      .publishTaskStatus taskId "task_paused"]
  | resumeTask taskId =>
    [.broadcast (.taskResumed task.id), .cancelPauseGraceTimer taskId,
      .dispatchReadySubtasks taskId, .publishTaskStatus taskId "task_resumed"]
  | cancelTask taskId =>
    [.broadcast (.taskCancelled task.id), .publishTaskStatus taskId "task_cancelled",
      .failRunningAttempts taskId "task_cancelled"]
  | retrySubtask taskId nodeId expectedAttempt =>
    [.retryNode taskId nodeId (((findSubtask task.subtasks nodeId).map
        Subtask.dispatchRetryCount).getD (expectedAttempt + 1)),
      .publishTaskStatus taskId "task_resumed", .dispatchReadySubtasks taskId]

end Command

/-- How the writes that have not ended will end. -/
structure Outcomes where
  task : Nat → Outcome
  event : Nat → Outcome

def Outcomes.working : Outcomes := ⟨fun _ => .ok, fun _ => .ok⟩

namespace PersistedStore

/-- Wait for all writes, with dispatch of a task closed; it is opened again if nothing is
wrong. Returns the error. -/
def flushTaskState (persisted : PersistedStore) (taskId : String) (outcomes : Outcomes) :
    Option String × PersistedStore :=
  let taskWrites := persisted.taskWrites.drain swallow outcomes.task
  let eventWrites := persisted.eventWrites.drain latch outcomes.event
  let error := (taskWrites.awaited taskWrites.tail).join.or
    (eventWrites.awaited eventWrites.tail).join
  let faults := persisted.store.durabilityFaults.insert taskId
  (error, { persisted with
    store := { persisted.store with
      durabilityFaults := if error.isSome then faults else faults.filter (· ≠ taskId) }
    taskWrites := taskWrites
    eventWrites := eventWrites })

def call (persisted : PersistedStore) (command : Command) (now : Instant) (outcomes : Outcomes) :
    Reply × PersistedStore :=
  match command.result persisted.store now with
  | .error error => (.refused error, persisted)
  | .ok task =>
    let changed := persisted.mutate now (.operate command.operation)
    let recorded := (command.controlEvents task).foldl (fun persisted event =>
      persisted.mutate now (.recordEvent event)) changed
    match recorded.flushTaskState command.taskId outcomes with
    | (some error, flushed) => (.unavailable error, flushed)
    | (none, flushed) => (.success task (command.followUps task), flushed)

/-- If a command fails, it has left its task as it was, or can be given again once
persistence works: it then does what it would have done at first. -/
def Retryable (persisted : PersistedStore) (command : Command) (now later : Instant)
    (outcomes : Outcomes) : Prop :=
  ∀ error, (persisted.call command now outcomes).1 = .unavailable error →
    let failed := (persisted.call command now outcomes).2
    let again := failed.call command later .working
    let undisturbed := persisted.call command later .working
    failed.store.tasks.lookup command.taskId = persisted.store.tasks.lookup command.taskId ∨
    (∃ task followUps, again.1 = .success task followUps ∧
      undisturbed.1 = .success task followUps) ∧
    again.2.store.tasks.lookup command.taskId = undisturbed.2.store.tasks.lookup command.taskId ∧
    command.taskId ∉ again.2.store.durabilityFaults

/-- No event write has failed or will, up to those of the command, and the task it has
changed will be written. -/
structure Confirms (persisted : PersistedStore) (command : Command) (outcomes : Outcomes) :
    Prop where
  task : persisted.backend.isSome →
    (outcomes.task persisted.taskWrites.payloads.length).error = none
  events : ∀ number < persisted.eventWrites.payloads.length + command.eventCount,
    ((persisted.eventWrites.outcome number).getD (outcomes.event number)).error = none

/-- The store and its writes at some time after the process has started. -/
def Reached (persisted : PersistedStore) : Prop :=
  ∃ start, Started start ∧ Relation.ReflTransGen Moves start persisted

variable {persisted : PersistedStore} {command : Command} {now later : Instant}
  {outcomes : Outcomes} {store stored : TaskStore} {task : Task} {error : String}

theorem Reached.ordered (reached : persisted.Reached) : persisted.Ordered := by
  obtain ⟨start, started, moved⟩ := reached
  induction moved with
  | refl => exact started.ordered
  | tail _ moves ih => exact moves.ordered ih

/-- What has come of a command: its task has changed, and from then on it is refused. -/
structure Carried (store : TaskStore) (command : Command) (now : Instant) (task : Task) : Prop where
  after : (command.operation.apply store now).tasks = store.tasks.insert command.taskId task
  changed : store.tasks.lookup command.taskId ≠ some task
  final : ∀ (stored : TaskStore) (later : Instant),
    stored.tasks.lookup command.taskId = some task →
    ∃ error, command.result stored later = .error error

theorem Carried.of_status {old : Task} (found : store.tasks.lookup command.taskId = some old)
    (after : (command.operation.apply store now).tasks = store.tasks.insert command.taskId task)
    (moved : old.status ≠ task.status)
    (final : ∀ (stored : TaskStore) (later : Instant),
      stored.tasks.lookup command.taskId = some task →
      ∃ error, command.result stored later = .error error) :
    Carried store command now task := by
  refine ⟨after, fun held => moved ?_, final⟩
  rw [found] at held
  rw [Option.some.inj held]

variable {taskId : String}

theorem carried_pauseTask (ok : (Command.pauseTask taskId).result store now = .ok task) :
    Carried store (.pauseTask taskId) now task := by
  simp only [Command.result, pauseTask] at ok
  split at ok
  · cases ok
  · rename_i old found
    have carried (status : old.status = .inProgress ∨ old.status = .planning) :
        Carried store (.pauseTask taskId) now { old with status := .paused, updatedAt := now } := by
      refine .of_status found ?_ ?_ fun stored later held => ?_
      · rcases status with status | status <;>
          simp [Command.operation, TaskOperation.apply, pauseTask, found, status, putTask,
            Command.taskId]
      · rcases status with status | status <;> simp [status]
      · rw [show (Command.pauseTask taskId).taskId = taskId from rfl] at held
        simp only [Command.result, pauseTask, held]
        exact ⟨_, rfl⟩
    split at ok
    · exact Except.ok.inj ok ▸ carried (.inl ‹_›)
    · exact Except.ok.inj ok ▸ carried (.inr ‹_›)
    · cases ok

theorem carried_resumeTask (ok : (Command.resumeTask taskId).result store now = .ok task) :
    Carried store (.resumeTask taskId) now task := by
  simp only [Command.result, resumeTask] at ok
  split at ok
  · cases ok
  · rename_i old found
    split at ok
    · rename_i status
      rw [← Except.ok.inj ok]
      refine .of_status found ?_ (by simp [status]) fun stored later held => ?_
      · simp [Command.operation, TaskOperation.apply, resumeTask, found, status, putTask,
          Command.taskId]
      · rw [show (Command.resumeTask taskId).taskId = taskId from rfl] at held
        simp only [Command.result, resumeTask, held]
        exact ⟨_, rfl⟩
    · cases ok

theorem carried_cancelTask (ok : (Command.cancelTask taskId).result store now = .ok task) :
    Carried store (.cancelTask taskId) now task := by
  simp only [Command.result, cancelTask] at ok
  split at ok
  · cases ok
  · rename_i old found
    have carried (status : old.status = .inProgress ∨ old.status = .planning ∨
        old.status = .paused) : Carried store (.cancelTask taskId) now { old with
          status := .failed
          updatedAt := now
          subtasks := old.subtasks.map fun subtask =>
            if isOpen subtask.status then { subtask with status := .failed } else subtask } := by
      refine .of_status found ?_ ?_ fun stored later held => ?_
      · rcases status with status | status | status <;>
          simp [Command.operation, TaskOperation.apply, cancelTask, found, status, putTask,
            Command.taskId]
      · rcases status with status | status | status <;> simp [status]
      · rw [show (Command.cancelTask taskId).taskId = taskId from rfl] at held
        simp only [Command.result, cancelTask, held]
        exact ⟨_, rfl⟩
    split at ok
    · exact Except.ok.inj ok ▸ carried (.inl ‹_›)
    · exact Except.ok.inj ok ▸ carried (.inr (.inl ‹_›))
    · exact Except.ok.inj ok ▸ carried (.inr (.inr ‹_›))
    · cases ok
    · cases ok
    · cases ok

theorem carried_retrySubtask {nodeId : String} {expectedAttempt : UInt32}
    (ok : (Command.retrySubtask taskId nodeId expectedAttempt).result store now = .ok task) :
    Carried store (.retrySubtask taskId nodeId expectedAttempt) now task := by
  simp only [Command.result] at ok
  rcases retrySubtask_cases store taskId nodeId expectedAttempt now with
    ⟨refused, -⟩ | ⟨old, node, accepted⟩
  · rw [ok] at refused
    cases refused
  · obtain rfl := Except.ok.inj (accepted.result.symm.trans ok)
    have apart : expectedAttempt + 1 ≠ expectedAttempt := by simp
    -- the subtask is at its next attempt
    have next : findSubtask (old.retry nodeId (expectedAttempt + 1) now).subtasks nodeId =
        some (retried (expectedAttempt + 1) node) :=
      findSubtask_changeSubtask (fun _ => rfl) accepted.foundNode
    refine ⟨accepted.tasks, fun held => ?_, fun stored later held => ?_⟩
    · have same := Option.some.inj (accepted.found.symm.trans held)
      rw [← same, accepted.foundNode] at next
      have counted := congrArg Subtask.dispatchRetryCount (Option.some.inj next)
      exact apart (counted.symm.trans accepted.current)
    · have lookedUp : stored.tasks.lookup taskId =
          some (old.retry nodeId (expectedAttempt + 1) now) := held
      have status : (old.retry nodeId (expectedAttempt + 1) now).status = .inProgress := rfl
      simp only [Command.result, retrySubtask, lookedUp, status, next]
      rw [if_neg (by simp), if_pos (by simp [retried, apart])]
      exact ⟨_, rfl⟩

section

variable (ok : command.result store now = .ok task)

include ok

theorem carried_of_result : Carried store command now task := by
  cases command with
  | pauseTask => exact carried_pauseTask ok
  | resumeTask => exact carried_resumeTask ok
  | cancelTask => exact carried_cancelTask ok
  | retrySubtask => exact carried_retrySubtask ok

theorem persisted_operation : ((operate command.operation).persisted store now).length = 1 := by
  have after := (carried_of_result ok).after
  have held : (command.operation.apply store now).tasks.lookup command.taskId = some task := by
    rw [after, AList.lookup_insert]
  have touched : (operate command.operation).touched store now = [command.taskId] := by
    have isOk : (command.result store now).isOk = true := by rw [ok]; rfl
    cases command <;> exact if_pos isOk
  have stage : (operate command.operation).stage store now =
      command.operation.apply store now := by
    cases command <;> rfl
  simp [persisted, touched, stage, held]

theorem recorded_operation : ((operate command.operation).recorded store now).length +
      (command.controlEvents task).length = command.eventCount := by
  cases command with
  | retrySubtask taskId nodeId expectedAttempt =>
    have result : (store.retrySubtask taskId nodeId expectedAttempt now).1 = .ok task := ok
    simp [Command.operation, recorded, result, Command.controlEvents, Command.eventCount]
  | _ => rfl

end

theorem mutate_fields (persisted : PersistedStore) (now : Instant) (mutation : Mutation) :
    (persisted.mutate now mutation).store = mutation.apply persisted.store now ∧
    (persisted.mutate now mutation).backend = persisted.backend ∧
    (persisted.mutate now mutation).eventWrites =
      (mutation.recorded persisted.store now).foldl Chain.enqueue persisted.eventWrites ∧
    (persisted.mutate now mutation).taskWrites =
      if persisted.backend.isSome then
        (mutation.persisted persisted.store now).foldl Chain.enqueue persisted.taskWrites
      else persisted.taskWrites := by
  unfold mutate persistTasks
  cases persisted.backend <;> simp

theorem recordEvents_fields (persisted : PersistedStore) (now : Instant) (events : List AgentEvent) :
    let recorded := events.foldl (fun persisted event =>
      persisted.mutate now (.recordEvent event)) persisted
    recorded.store.tasks = persisted.store.tasks ∧ recorded.backend = persisted.backend ∧
      recorded.eventWrites = events.foldl Chain.enqueue persisted.eventWrites ∧
      recorded.taskWrites = persisted.taskWrites := by
  induction events generalizing persisted with
  | nil => exact ⟨rfl, rfl, rfl, rfl⟩
  | cons event rest ih =>
    obtain ⟨store, backend, events, tasks⟩ := mutate_fields persisted now (.recordEvent event)
    obtain ⟨store', backend', events', tasks'⟩ := ih (persisted.mutate now (.recordEvent event))
    refine ⟨store'.trans ?_, backend'.trans backend, events'.trans ?_, tasks'.trans ?_⟩
    · rw [store]
      exact recordEvent_tasks _ _
    · rw [events]
      rfl
    · rw [tasks]
      split <;> rfl

section

variable (ordered : persisted.Ordered)

include ordered

theorem ordered_recordEvents (now : Instant) (events : List AgentEvent) :
    (events.foldl (fun persisted event =>
      persisted.mutate now (.recordEvent event)) persisted).Ordered := by
  induction events generalizing persisted with
  | nil => exact ordered
  | cons event rest ih => exact ih (ordered.mutate now (.recordEvent event))

theorem flush_error_iff (taskId : String) (outcomes : Outcomes) :
    (persisted.flushTaskState taskId outcomes).1 = none ↔
      (∀ last, persisted.taskWrites.payloads.length = last + 1 →
        ((persisted.taskWrites.outcome last).getD (outcomes.task last)).error = none) ∧
      ∀ number < persisted.eventWrites.payloads.length,
        ((persisted.eventWrites.outcome number).getD (outcomes.event number)).error = none := by
  rw [Chain.length_payloads, Chain.length_payloads, ← ordered.taskWrites.drain_swallow outcomes.task,
    ← ordered.eventWrites.drain_latch outcomes.event, ← Option.or_eq_none_iff]
  rfl

theorem task_write_iff (ok : command.result persisted.store now = .ok task) :
    (∀ last, (persisted.mutate now (.operate command.operation)).taskWrites.payloads.length =
        last + 1 →
      (((persisted.mutate now (.operate command.operation)).taskWrites.outcome last).getD
        (outcomes.task last)).error = none) ↔
    (persisted.backend.isSome →
      (outcomes.task persisted.taskWrites.payloads.length).error = none) := by
  rw [(mutate_fields persisted now (.operate command.operation)).2.2.2]
  cases wired : persisted.backend with
  | none => simp [ordered.unwired wired, Chain.payloads]
  | some durable =>
    have beyond : persisted.taskWrites.outcome persisted.taskWrites.payloads.length = none := by
      simp [Chain.outcome, Chain.length_payloads]
    simp [Chain.outcome_foldl_enqueue, persisted_operation ok, beyond]

theorem flush_command_iff (ok : command.result persisted.store now = .ok task) :
    (((command.controlEvents task).foldl (fun persisted event =>
      persisted.mutate now (.recordEvent event))
        (persisted.mutate now (.operate command.operation))).flushTaskState command.taskId
          outcomes).1 = none ↔ persisted.Confirms command outcomes := by
  have changed := ordered.mutate now (.operate command.operation)
  rw [flush_error_iff (ordered_recordEvents changed now _)]
  obtain ⟨-, -, events, tasks⟩ := recordEvents_fields
    (persisted.mutate now (.operate command.operation)) now (command.controlEvents task)
  obtain ⟨-, -, events', -⟩ := mutate_fields persisted now (.operate command.operation)
  rw [tasks, task_write_iff ordered ok, events, events']
  simp only [Chain.outcome_foldl_enqueue, Chain.payloads_foldl_enqueue, List.length_append,
    Nat.add_assoc, recorded_operation ok]
  exact ⟨fun fine => ⟨fine.1, fine.2⟩, fun confirms => ⟨confirms.task, confirms.events⟩⟩

end

theorem call_of_error (refused : command.result persisted.store now = .error error) :
    persisted.call command now outcomes = (.refused error, persisted) := by
  simp only [call, refused]

theorem tasks_call (ok : command.result persisted.store now = .ok task) :
    (persisted.call command now outcomes).2.store.tasks =
      persisted.store.tasks.insert command.taskId task := by
  have recorded := (recordEvents_fields (persisted.mutate now (.operate command.operation)) now
    (command.controlEvents task)).1
  rw [(mutate_fields persisted now (.operate command.operation)).1] at recorded
  have after : ((operate command.operation).apply persisted.store now).tasks =
    persisted.store.tasks.insert command.taskId task := (carried_of_result ok).after
  rw [← after, ← recorded]
  simp only [call, ok]
  -- flushing leaves the tasks alone
  split
  · rename_i failed
    exact (congrArg (fun flushed => flushed.2.store.tasks) failed).symm
  · rename_i fine
    exact (congrArg (fun flushed => flushed.2.store.tasks) fine).symm

theorem unavailable_iff (ordered : persisted.Ordered)
    (ok : command.result persisted.store now = .ok task) :
    (∃ error, (persisted.call command now outcomes).1 = .unavailable error) ↔
      ¬ persisted.Confirms command outcomes := by
  rw [← flush_command_iff ordered ok]
  simp only [call, ok]
  split
  · rename_i failed
    simp [failed]
  · rename_i fine
    simp [fine]

/-- A command that fails can be given again only where it does not fail: exactly if no event
write has failed or will, and the task it has changed will be written. -/
theorem retryable_iff (reached : persisted.Reached)
    (applicable : (command.result persisted.store now).isOk = true) :
    persisted.Retryable command now later outcomes ↔ persisted.Confirms command outcomes := by
  obtain ⟨task, ok⟩ : ∃ task, command.result persisted.store now = .ok task := by
    cases result : command.result persisted.store now with
    | error error => simp [result, Except.isOk, Except.toBool] at applicable
    | ok task => exact ⟨task, rfl⟩
  have carried := carried_of_result ok
  have held : (persisted.call command now outcomes).2.store.tasks.lookup command.taskId =
      some task := by
    rw [tasks_call ok, AList.lookup_insert]
  constructor
  · intro retryable
    by_contra unconfirmed
    obtain ⟨error, failed⟩ := (unavailable_iff reached.ordered ok).mpr unconfirmed
    rcases retryable error failed with same | ⟨⟨again, followUps, success, -⟩, -⟩
    · rw [held] at same
      exact carried.changed same.symm
    · obtain ⟨error, refused⟩ := carried.final _ later held
      rw [call_of_error refused] at success
      cases success
  · intro confirms error failed
    exact absurd confirms ((unavailable_iff reached.ordered ok).mp ⟨error, failed⟩)

/-- A process with a task under way. -/
def sample (subtasks : List Subtask) : PersistedStore where
  store := sampleStore subtasks
  backend := some true
  taskWrites := {}
  eventWrites := {}
  loadedRows := ∅
  versions := (sampleStore subtasks).tasks

theorem reached_sample (subtasks : List Subtask) : (sample subtasks).Reached :=
  ⟨sample subtasks, ⟨keyed_sampleStore subtasks, rfl, rfl, rfl⟩, .refl⟩

theorem retryable_iff_flushed :
    (sample []).Retryable (.pauseTask "task-1") 1 2 .working :=
  (retryable_iff (reached_sample []) rfl).mpr ⟨fun _ => rfl, fun _ _ => rfl⟩

/-- A task is paused, its write fails, and it cannot be paused again. -/
theorem retryable_fails_unwritten :
    (sample []).Reached ∧ ((Command.pauseTask "task-1").result (sample []).store 1).isOk = true ∧
      ¬ (sample []).Retryable (.pauseTask "task-1") 1 2
        ⟨fun _ => .failed "timeout" false, fun _ => .ok⟩ := by
  refine ⟨reached_sample [], rfl, fun retryable => ?_⟩
  have failed : ((sample []).call (.pauseTask "task-1") 1
      ⟨fun _ => .failed "timeout" false, fun _ => .ok⟩).1 = .unavailable "timeout" := by
    decide +kernel
  rcases retryable "timeout" failed with same | ⟨⟨task, followUps, success, -⟩, -⟩
  · revert same
    decide +kernel
  · have refused : (((sample []).call (.pauseTask "task-1") 1
        ⟨fun _ => .failed "timeout" false, fun _ => .ok⟩).2.call (.pauseTask "task-1") 2
          .working).1 = .refused
            "Cannot pause task in Paused status (expected InProgress or Planning)" := by
      decide +kernel
    rw [refused] at success
    cases success

end PersistedStore

end UltimateCoders.Gateway
