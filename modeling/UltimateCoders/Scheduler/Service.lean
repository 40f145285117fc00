import UltimateCoders.Scheduler.Store
import UltimateCoders.Text.Split
import UltimateCoders.Transition.Program

/-! # The scheduler service

The service keeps its jobs in a registry, writes them to a store of scheduled tasks and
registers them with a runtime scheduler that fires them. Every section under a lock, every
call on the store and every call on the runtime scheduler is one operation; what the service
does is a program of such operations.
-/

namespace UltimateCoders.Scheduler

open Function
open Governance (Instant)
open Transition

/-- Where an attempt comes from: the runtime scheduler has fired, or somebody asks for it. -/
inductive DispatchSource where
  | scheduled
  | manual
  deriving DecidableEq

/-- How an attempt ended. -/
inductive DispatchOutcome where
  | succeeded
  | failedRetryable
  | failedObserved
  deriving DecidableEq

/-- A second, in nanoseconds. -/
def second : Int := 1000000000

def maxDispatchRetries : Nat := 3

def dispatchRetryBaseSecs : Nat := 60

def dispatchRetryMaxSecs : Nat := 900

/-- The largest number of an attempt. -/
def maxAttempts : Nat := 2 ^ 32 - 1

def retryDelayFor (attempt : Nat) : Int :=
  let largest := 2 ^ 64 - 1
  let factor := if attempt - 1 < 64 then 2 ^ (attempt - 1) else largest
  min (min (dispatchRetryBaseSecs * factor) largest) dispatchRetryMaxSecs * second

/-- What the libraries for times and cron expressions provide. -/
structure Calendar where
  displayInstant : Instant → String
  fromStr : String → Except String (Instant → Except String Instant)

/-- A cron expression of five fields, with a field for the seconds. -/
def cronTo6Field (expression : String) : String :=
  let fields := (expression.toList.splitOnP Text.isWhitespace).filter fun field => !field.isEmpty
  if fields.length = 5 then "0 " ++ expression else expression

def nextCronExecution (calendar : Calendar) (expression : String) (after : Instant) :
    Except EngineError Instant :=
  match calendar.fromStr (cronTo6Field expression) with
  | .error error => .error (.configError ("Invalid cron expression '" ++ expression ++ "': " ++ error))
  | .ok findNextOccurrence =>
    match findNextOccurrence after with
    | .error error => .error (.configError ("Unable to calculate next execution for cron '" ++
        expression ++ "': " ++ error))
    | .ok next => .ok next

variable (task : ScheduledTask)

namespace ScheduledTask

/-- The instant of the attempt that a one-shot is owed. -/
def oneShotAttemptAt (after : Instant) : Option Instant :=
  (task.nextExecution.filter fun next => after < next).or
    (task.executeAfter.filter fun executeAfter => after < executeAfter)

def nextExecutionForTask (calendar : Calendar) (task : ScheduledTask) (after : Instant) :
    Except EngineError (Option Instant) :=
  match task.cronExpression with
  | some expression => (nextCronExecution calendar expression after).map some
  | none => .ok (task.oneShotAttemptAt after)

/-- The next execution, or none if it cannot be calculated. -/
def nextExecutionOrNone (calendar : Calendar) (task : ScheduledTask) (after : Instant) :
    Option Instant :=
  match task.nextExecutionForTask calendar after with
  | .ok next => next
  | .error _ => none

/-- The attempt is not older than the last one that is visible. -/
def isLatest (startedAt : Instant) : Bool :=
  match task.lastExecution with
  | some last => last ≤ startedAt
  | none => true

/-- The number of failed attempts after one more. -/
def attemptsAfter : DispatchOutcome → Nat
  | .succeeded => 0
  | .failedRetryable => min (task.dispatchAttempts + 1) maxAttempts
  | .failedObserved => task.dispatchAttempts

def executionStarted (calendar : Calendar) (task : ScheduledTask) (startedAt : Instant)
    (outcome : DispatchOutcome) (now : Instant) : ScheduledTask :=
  if task.isLatest startedAt then
    let counted := { task with
      lastExecution := some startedAt
      dispatchAttempts := task.attemptsAfter outcome }
    { counted with
      -- a paused job does not advertise a run
      nextExecution := if task.enabled then counted.nextExecutionOrNone calendar startedAt else none
      updatedAt := now }
  else { task with updatedAt := now }

/-- The job with a later attempt; an attempt that is owed later stays. -/
def rearmed (when_ now : Instant) : ScheduledTask :=
  { task with
    nextExecution := some <|
      match task.oneShotAttemptAt now with
      | some owed => if when_ < owed then owed else when_
      | none => when_
    updatedAt := now }

section Changes

variable {calendar : Calendar} {task : ScheduledTask} {startedAt when_ now : Instant}
  {outcome : DispatchOutcome}

@[simp] theorem executionStarted_id :
    (task.executionStarted calendar startedAt outcome now).id = task.id := by
  unfold executionStarted
  split <;> rfl

@[simp] theorem executionStarted_createdAt :
    (task.executionStarted calendar startedAt outcome now).createdAt = task.createdAt := by
  unfold executionStarted
  split <;> rfl

@[simp] theorem executionStarted_enabled :
    (task.executionStarted calendar startedAt outcome now).enabled = task.enabled := by
  unfold executionStarted
  split <;> rfl

@[simp] theorem executionStarted_cronExpression :
    (task.executionStarted calendar startedAt outcome now).cronExpression =
      task.cronExpression := by
  unfold executionStarted
  split <;> rfl

@[simp] theorem rearmed_id : (task.rearmed when_ now).id = task.id := rfl

end Changes

end ScheduledTask

/-- The id that the runtime scheduler has given to a job. -/
abbrev JobUuid := Nat

/-- A job of the runtime scheduler: it fires once, or whenever its cron expression says. -/
structure RuntimeJob where
  uuid : JobUuid
  taskId : Uuid
  fireAt : Option Instant
  deriving DecidableEq

/-- The state of the service, with the registration tasks that were spawned and have not begun. -/
structure SchedulerService where
  jobMetadata : Uuid → Option ScheduledTask
  keyed : ∀ id task, jobMetadata id = some task → task.id = id
  executionHistory : List ExecutionHistory
  store : ScheduleStore
  jobScheduler : Option (List RuntimeJob)
  schedulerJobIds : Uuid → Option JobUuid
  freshUuid : JobUuid
  detached : List ScheduledTask

def SchedulerService.new (store : ScheduleStore) : SchedulerService where
  jobMetadata _ := none
  keyed _ _ found := by cases found
  executionHistory := []
  store := store
  jobScheduler := none
  schedulerJobIds _ := none
  freshUuid := 0
  detached := []

/-- What the surroundings contribute to an operation. -/
structure Surroundings where
  now : Instant
  uuid : Uuid
  opening : Option Instant
  dispatched : Except EngineError Unit
  acquired : Bool
  statement : Except String Unit
  added : Except EngineError Unit
  removed : Except EngineError Unit

inductive SchedulerOperation where
  | clock
  | newUuid
  | readJob (id : Uuid)
  | startExecution (id : Uuid) (startedAt : Instant) (outcome : DispatchOutcome)
  | rearmJob (id : Uuid) (when_ : Instant)
  | commitJob (task : ScheduledTask)
  | store (call : ScheduleCall)
  | pushHistory (history : ExecutionHistory)
  | nextWindowOpening
  | dispatch (source : DispatchSource) (task : ScheduledTask)
  | tryAcquire (key : String)
  | registerRuntimeJob (task : ScheduledTask)
  | registerOneShot (task : ScheduledTask)
  | insertJobId (id : Uuid) (uuid : JobUuid)
  | readRuntimeJobId (id : Uuid)
  | removeRuntimeJob (uuid : JobUuid)
  | forgetJobId (id : Uuid)
  | fire (uuid : JobUuid)
  | spawnRegistration (task : ScheduledTask)
  | takeRegistration (position : Nat)

abbrev SchedulerOperation.Answer : SchedulerOperation → Type
  | .clock => Instant
  | .newUuid => Uuid
  | .readJob _ => Option ScheduledTask
  | .startExecution _ _ _ => Option ScheduledTask
  | .rearmJob _ _ => Option ScheduledTask
  | .commitJob _ => Unit
  | .store _ => ScheduleAnswer
  | .pushHistory _ => Unit
  | .nextWindowOpening => Option Instant
  | .dispatch _ _ => Except EngineError Unit
  | .tryAcquire _ => Bool
  | .registerRuntimeJob _ => Option (Except EngineError (Option JobUuid))
  | .registerOneShot _ => Option (Except EngineError (Option JobUuid))
  | .insertJobId _ _ => Option JobUuid
  | .readRuntimeJobId _ => Option JobUuid
  | .removeRuntimeJob _ => Except EngineError Unit
  | .forgetJobId _ => Unit
  | .fire _ => Option RuntimeJob
  | .spawnRegistration _ => Unit
  | .takeRegistration _ => Option ScheduledTask

/-- What can be answered: a record of a job is found under its id, and only a one-shot is
re-armed. -/
def SchedulerOperation.possible : (operation : SchedulerOperation) → operation.Answer → Prop
  | .readJob id, answer => ∀ task : ScheduledTask, answer = some task → task.id = id
  | .startExecution id _ _, answer => ∀ task : ScheduledTask, answer = some task → task.id = id
  | .rearmJob id _, answer => ∀ task : ScheduledTask, answer = some task →
      task.id = id ∧ task.isOneShot
  | _, _ => True

/-- What is registered for a one-shot: nothing if no attempt is owed. -/
def ScheduledTask.oneShotShape (now : Instant) : Except EngineError (Option (Option Instant)) :=
  match task.executeAfter with
  | none => .error (.configError "execute_after missing")
  | some _ => .ok ((task.oneShotAttemptAt now).map some)

/-- What is registered for a task; a cron expression comes first. -/
def ScheduledTask.runtimeShape (now : Instant) : Except EngineError (Option (Option Instant)) :=
  if task.cronExpression.isSome then .ok (some none)
  else if task.executeAfter.isSome then task.oneShotShape now
  else .ok none

/-- The job that is added to the runtime scheduler, if any. -/
def placeJob (uuid : JobUuid) (taskId : Uuid) (added : Except EngineError Unit) :
    Except EngineError (Option (Option Instant)) → Except EngineError (Option RuntimeJob)
  | .error error => .error error
  | .ok none => .ok none
  | .ok (some fireAt) => added.map fun _ => some ⟨uuid, taskId, fireAt⟩

def placedJobs : Except EngineError (Option RuntimeJob) → List RuntimeJob
  | .ok (some job) => [job]
  | _ => []

def placedUuid (placed : Except EngineError (Option RuntimeJob)) :
    Except EngineError (Option JobUuid) :=
  placed.map (Option.map RuntimeJob.uuid)

def RuntimeJob.isDue (job : RuntimeJob) (now : Instant) : Bool :=
  match job.fireAt with
  | some fireAt => fireAt ≤ now
  | none => true

namespace SchedulerService

variable (service : SchedulerService)

def withJob (task : ScheduledTask) : SchedulerService :=
  { service with
    jobMetadata := update service.jobMetadata task.id (some task)
    keyed := fun id stored found => by
      by_cases same : id = task.id
      · subst same
        rw [update_self, Option.some.injEq] at found
        exact found ▸ rfl
      · rw [update_of_ne same] at found
        exact service.keyed id stored found }

/-- Change the record of a job, if there is one, and return it. -/
def changeJob (id : Uuid) (change : ScheduledTask → Option ScheduledTask) :
    Option ScheduledTask × SchedulerService :=
  match (service.jobMetadata id).bind change with
  | some task => (some task, service.withJob task)
  | none => (none, service)

/-- Register a task with the runtime scheduler, if it runs. -/
def register (taskId : Uuid) (shape : Except EngineError (Option (Option Instant)))
    (added : Except EngineError Unit) :
    Option (Except EngineError (Option JobUuid)) × SchedulerService :=
  match service.jobScheduler with
  | none => (none, service)
  | some jobs =>
    let placed := placeJob service.freshUuid taskId added shape
    (some (placedUuid placed), { service with
      jobScheduler := some (jobs ++ placedJobs placed)
      freshUuid := service.freshUuid + 1 })

def withoutRuntimeJob (uuid : JobUuid) : SchedulerService :=
  { service with
    jobScheduler := service.jobScheduler.map fun jobs => jobs.filter fun entry => entry.uuid != uuid }

/-- Fire a job that is due; one that fires once is consumed. -/
def fire (uuid : JobUuid) (now : Instant) : Option RuntimeJob × SchedulerService :=
  match (service.jobScheduler.getD []).find? fun job => job.uuid == uuid && job.isDue now with
  | none => (none, service)
  | some job =>
    (some job, if job.fireAt.isSome then service.withoutRuntimeJob uuid else service)

def execute (calendar : Calendar) (database : Database) (input : Surroundings)
    (operation : SchedulerOperation) (service : SchedulerService) :
    operation.Answer × SchedulerService :=
  match operation with
  | .clock => (input.now, service)
  | .newUuid => (input.uuid, service)
  | .readJob id => (service.jobMetadata id, service)
  | .startExecution id startedAt outcome => service.changeJob id fun task =>
    some (task.executionStarted calendar startedAt outcome input.now)
  | .rearmJob id when_ => service.changeJob id fun task =>
    if task.isOneShot then some (task.rearmed when_ input.now) else none
  | .commitJob task => ((), (service.changeJob task.id fun _ => some task).2)
  | .store call =>
    let served := service.store.execute database input.statement call
    (served.1, { service with store := served.2 })
  | .pushHistory history =>
    ((), { service with executionHistory := service.executionHistory ++ [history] })
  | .nextWindowOpening => (input.opening, service)
  | .dispatch _ _ => (input.dispatched, service)
  | .tryAcquire _ => (input.acquired, service)
  | .registerRuntimeJob task => service.register task.id (task.runtimeShape input.now) input.added
  | .registerOneShot task => service.register task.id (task.oneShotShape input.now) input.added
  | .insertJobId id uuid =>
    (service.schedulerJobIds id, { service with
      schedulerJobIds := update service.schedulerJobIds id (some uuid) })
  | .readRuntimeJobId id =>
    (service.jobScheduler.bind fun _ => service.schedulerJobIds id, service)
  | .removeRuntimeJob uuid =>
    match input.removed with
    | .error error => (.error error, service)
    | .ok () => (.ok (), service.withoutRuntimeJob uuid)
  | .forgetJobId id =>
    ((), { service with schedulerJobIds := update service.schedulerJobIds id none })
  | .fire uuid => service.fire uuid input.now
  | .spawnRegistration task => ((), { service with detached := service.detached ++ [task] })
  | .takeRegistration position =>
    (service.detached[position]?, { service with detached := service.detached.eraseIdx position })

section Records

variable {service} {id : Uuid} {change : ScheduledTask → Option ScheduledTask}

theorem changeJob_of_absent (absent : (service.jobMetadata id).bind change = none) :
    service.changeJob id change = (none, service) := by
  simp only [changeJob, absent]

theorem changeJob_of_changed {task : ScheduledTask}
    (changed : (service.jobMetadata id).bind change = some task) :
    service.changeJob id change = (some task, service.withJob task) := by
  simp only [changeJob, changed]

theorem changeJob_fst : (service.changeJob id change).1 = (service.jobMetadata id).bind change := by
  unfold changeJob
  split
  · rename_i task changed
    exact changed.symm
  · rename_i absent
    exact absent.symm

end Records

@[simp] theorem withJob_jobMetadata (task : ScheduledTask) :
    (service.withJob task).jobMetadata = update service.jobMetadata task.id (some task) :=
  rfl

theorem possible_execute (calendar : Calendar) (database : Database) (input : Surroundings)
    (operation : SchedulerOperation) (service : SchedulerService) :
    operation.possible (execute calendar database input operation service).1 := by
  cases operation with
  | readJob id => exact service.keyed id
  | startExecution id startedAt outcome =>
    intro task answered
    obtain ⟨stored, found, same⟩ := Option.bind_eq_some_iff.mp (changeJob_fst.symm.trans answered)
    cases same
    simpa using service.keyed id stored found
  | rearmJob id when_ =>
    intro task answered
    obtain ⟨stored, found, same⟩ := Option.bind_eq_some_iff.mp (changeJob_fst.symm.trans answered)
    split at same
    · rename_i oneShot
      cases same
      exact ⟨service.keyed id stored found, oneShot⟩
    · cases same
  | _ => trivial

end SchedulerService

end UltimateCoders.Scheduler
