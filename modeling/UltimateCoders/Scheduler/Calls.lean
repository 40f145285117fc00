import UltimateCoders.Scheduler.Service

/-! # Calls of the scheduler service

The functions of the service, as programs of operations that other calls may interrupt.
-/

namespace UltimateCoders.Scheduler

open Governance (Instant)
open Transition

abbrev Scheduling := Program SchedulerOperation SchedulerOperation.Answer

def ask (operation : SchedulerOperation) : Scheduling operation.Answer := Program.perform operation

/-- Write a task to the store; a failure is only reported. -/
def updateTask (task : ScheduledTask) : Scheduling Unit := do
  let _ ← ask (.store (.updateTask task))
  return ()

def saveExecution (history : ExecutionHistory) : Scheduling Unit := do
  let _ ← ask (.store (.saveExecution history))
  return ()

def recordExecution (history : ExecutionHistory) : Scheduling Unit := do
  saveExecution history
  ask (.pushHistory history)

def unregisterRuntimeJob (id : Uuid) : Scheduling Unit := do
  match ← ask (.readRuntimeJobId id) with
  | some uuid =>
    let _ ← ask (.removeRuntimeJob uuid)
    ask (.forgetJobId id)
  | none => ask (.forgetJobId id)

def resumeRuntimeJob (candidate : ScheduledTask) : Scheduling (Except EngineError Unit) := do
  match ← ask (.registerRuntimeJob candidate) with
  | some (.error error) => return .error error
  | some (.ok (some uuid)) =>
    let _ ← ask (.insertJobId candidate.id uuid)
    return .ok ()
  | some (.ok none) | none => return .ok ()

/-- Commit the candidate, in the registry and then in the store. -/
def commitCandidate (candidate : ScheduledTask) : Scheduling (Except EngineError ScheduledTask) := do
  ask (.commitJob candidate)
  updateTask candidate
  return .ok candidate

def setJobEnabled (calendar : Calendar) (id : Uuid) (enabled : Bool) :
    Scheduling (Except EngineError ScheduledTask) := do
  match ← ask (.readJob id) with
  | none => return .error (.taskError ("Scheduled task not found: " ++ id))
  | some current =>
    if current.enabled = enabled then return .ok current
    else if enabled then do
      let resumed := { current with enabled := true }
      let now ← ask .clock
      let next := resumed.nextExecutionOrNone calendar now
      let updatedAt ← ask .clock
      let candidate := { resumed with nextExecution := next, updatedAt := updatedAt }
      match ← resumeRuntimeJob candidate with
      | .error error => return .error error
      | .ok () => commitCandidate candidate
    else do
      let updatedAt ← ask .clock
      unregisterRuntimeJob id
      commitCandidate { current with enabled := false, nextExecution := none, updatedAt := updatedAt }

def markExecutionStarted (id : Uuid) (startedAt : Instant) (outcome : DispatchOutcome) :
    Scheduling Nat := do
  match ← ask (.startExecution id startedAt outcome) with
  | none => return 0
  | some updated =>
    updateTask updated
    return updated.dispatchAttempts

def rearmOneShotAt (id : Uuid) (when_ : Instant) : Scheduling Unit := do
  match ← ask (.rearmJob id when_) with
  | none => return ()
  | some rearmed =>
    updateTask rearmed
    ask (.spawnRegistration rearmed)

/-- The task that was spawned for a job that was re-armed. -/
def rearmRegistrationTask (position : Nat) : Scheduling Unit := do
  match ← ask (.takeRegistration position) with
  | none => return ()
  | some task =>
    match ← ask (.registerOneShot task) with
    | some (.ok (some uuid)) =>
      match ← ask (.insertJobId task.id uuid) with
      | some previous =>
        let _ ← ask (.removeRuntimeJob previous)
        return ()
      | none => return ()
    | _ => return ()

def outsideWindowError (calendar : Calendar) (nextStart : Instant) : EngineError :=
  .taskError ("Outside night window. Next window starts at " ++ calendar.displayInstant nextStart)

/-- When a failed attempt is made again. -/
def retryAt (spendsBudget : Bool) (attempts : Nat) (startedAt : Instant) : Option Instant :=
  if spendsBudget && attempts ≤ maxDispatchRetries then some (startedAt + retryDelayFor attempts)
  else none

def skippedSummary (calendar : Calendar) (error : EngineError) (spendsBudget : Bool) (attempts : Nat)
    (retry : Option Instant) : String :=
  match retry, spendsBudget with
  | some instant, true => "Dispatch skipped (no worker): " ++ error.display ++ "; retry " ++
      toString attempts ++ " of " ++ toString maxDispatchRetries ++ " at " ++
      calendar.displayInstant instant
  | none, true => "Dispatch skipped (no worker): " ++ error.display ++ "; retries exhausted after " ++
      toString attempts ++ " attempts"
  | _, _ => "Dispatch skipped (no worker): " ++ error.display

def recordDispatched (id : Uuid) (startedAt : Instant) : Scheduling (Except EngineError Unit) := do
  let _ ← markExecutionStarted id startedAt .succeeded
  let uuid ← ask .newUuid
  let completedAt ← ask .clock
  recordExecution {
    id := uuid
    scheduledTaskId := id
    startedAt := startedAt
    completedAt := some completedAt
    status := .completed
    resultSummary := some "Task dispatched successfully"
    deferredReason := none }
  return .ok ()

/-- The dispatcher has refused the task; only a one-shot that has fired is owed a retry. -/
def recordRefused (calendar : Calendar) (id : Uuid) (source : DispatchSource) (task : ScheduledTask)
    (startedAt : Instant) (error : EngineError) : Scheduling (Except EngineError Unit) := do
  let spendsBudget := source = .scheduled && task.isOneShot
  let attempts ← markExecutionStarted id startedAt
    (if spendsBudget then .failedRetryable else .failedObserved)
  let retry := retryAt spendsBudget attempts startedAt
  let uuid ← ask .newUuid
  let completedAt ← ask .clock
  recordExecution {
    id := uuid
    scheduledTaskId := id
    startedAt := startedAt
    completedAt := some completedAt
    status := .skipped
    resultSummary := some (skippedSummary calendar error spendsBudget attempts retry)
    deferredReason := none }
  match retry with
  | some instant => rearmOneShotAt id instant
  | none => pure ()
  return .error error

/-- The night window is closed until `nextStart`. -/
def recordDeferred (calendar : Calendar) (id : Uuid) (source : DispatchSource)
    (nextStart : Instant) : Scheduling (Except EngineError Unit) := do
  let reason := outsideWindowError calendar nextStart
  let now ← ask .clock
  let uuid ← ask .newUuid
  recordExecution {
    id := uuid
    scheduledTaskId := id
    startedAt := now
    completedAt := some now
    status := .deferred
    resultSummary := none
    deferredReason := some reason.display }
  if source = .scheduled then rearmOneShotAt id nextStart
  else pure ()
  return .error reason

def attemptTask (calendar : Calendar) (id : Uuid) (source : DispatchSource) (task : ScheduledTask) :
    Scheduling (Except EngineError Unit) := do
  match ← ask .nextWindowOpening with
  | none =>
    let startedAt ← ask .clock
    match ← ask (.dispatch source task) with
    | .ok () => recordDispatched id startedAt
    | .error error => recordRefused calendar id source task startedAt error
  | some nextStart => recordDeferred calendar id source nextStart

def dispatchWithGuardFrom (calendar : Calendar) (id : Uuid) (source : DispatchSource) :
    Scheduling (Except EngineError Unit) := do
  match ← ask (.readJob id) with
  | none => return .error (.taskError ("Job " ++ id ++ " not found"))
  | some task => attemptTask calendar id source task

def dispatchWithGuard (calendar : Calendar) (id : Uuid) : Scheduling (Except EngineError Unit) :=
  dispatchWithGuardFrom calendar id .scheduled

/-- The key of the lock that gateways contend for when a job fires. -/
def tickKey (id : Uuid) (now : Instant) : String :=
  "scheduler:" ++ id ++ ":" ++ toString (now / second)

/-- Attempt the job, if no other gateway does. -/
def dispatchLocked (calendar : Calendar) (id : Uuid) : Scheduling Unit := do
  let now ← ask .clock
  match ← ask (.tryAcquire (tickKey id now)) with
  | false => return ()
  | true =>
    let _ ← dispatchWithGuard calendar id
    return ()

/-- The callback of a job of the runtime scheduler, from the moment it fires. -/
def firing (calendar : Calendar) (uuid : JobUuid) : Scheduling Unit := do
  match ← ask (.fire uuid) with
  | none => return ()
  | some job =>
    if job.fireAt.isSome then do
      -- the registration is consumed, so it is forgotten before anything else
      ask (.forgetJobId job.taskId)
      dispatchLocked calendar job.taskId
    else dispatchLocked calendar job.taskId

end UltimateCoders.Scheduler
