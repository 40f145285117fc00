import Mathlib.Data.List.Basic
import UltimateCoders.Governance.Policy

/-! # Scheduled tasks

What is scheduled, and what is recorded about every attempt to run it.
-/

namespace UltimateCoders.Scheduler

open Governance (Instant)

/-- An id, as its text. -/
abbrev Uuid := String

/-- A time of the day, in nanoseconds. -/
abbrev DayTime := Int

/-- The errors of the engine that the scheduler reports. -/
inductive EngineError where
  | connectionError (message : String)
  | taskError (message : String)
  | configError (message : String)
  | internalError (message : String)
  deriving DecidableEq

def EngineError.display : EngineError → String
  | connectionError message => "Connection error: " ++ message
  | taskError message => "Task failed: " ++ message
  | configError message => "Configuration error: " ++ message
  | internalError message => "Internal error: " ++ message

/-- A task that recurs, or is to be run once. -/
structure ScheduledTask where
  id : Uuid
  description : String
  projectId : String
  cronExpression : Option String
  executeAfter : Option Instant
  nightWindowStart : DayTime
  nightWindowEnd : DayTime
  timezone : String
  enabled : Bool
  lastExecution : Option Instant
  nextExecution : Option Instant
  createdAt : Instant
  updatedAt : Instant
  verifyCommand : Option String
  dispatchAttempts : Nat
  deriving DecidableEq

def ScheduledTask.isOneShot (task : ScheduledTask) : Bool :=
  task.executeAfter.isSome && task.cronExpression.isNone

inductive ExecutionStatus where
  | completed
  | failed
  | skipped
  | deferred
  deriving DecidableEq

def executionStatusToStr : ExecutionStatus → String
  | .completed => "Completed"
  | .failed => "Failed"
  | .skipped => "Skipped"
  | .deferred => "Deferred"

def parseExecutionStatus (text : String) : ExecutionStatus :=
  if text = "Completed" then .completed
  else if text = "Failed" then .failed
  else if text = "Skipped" then .skipped
  else if text = "Deferred" then .deferred
  else .failed

@[simp] theorem parseExecutionStatus_toStr (status : ExecutionStatus) :
    parseExecutionStatus (executionStatusToStr status) = status := by
  cases status <;> decide +kernel

/-- The record of an attempt. -/
structure ExecutionHistory where
  id : Uuid
  scheduledTaskId : Uuid
  startedAt : Instant
  completedAt : Option Instant
  status : ExecutionStatus
  resultSummary : Option String
  deferredReason : Option String
  deriving DecidableEq

/-- A task that is to be run once, a minute after its creation. -/
def reviewTask : ScheduledTask where
  id := "7f1d6c1e-2f5b-4a52-9a38-0d5c1f4c9b10"
  description := "Run review"
  projectId := "test-project"
  cronExpression := none
  executeAfter := some 60000000000
  nightWindowStart := 79200000000000
  nightWindowEnd := 21600000000000
  timezone := "UTC"
  enabled := true
  lastExecution := none
  nextExecution := some 60000000000
  createdAt := 0
  updatedAt := 0
  verifyCommand := none
  dispatchAttempts := 0

end UltimateCoders.Scheduler
