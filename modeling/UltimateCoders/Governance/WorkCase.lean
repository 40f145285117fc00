import UltimateCoders.Governance.Policy

/-! # Work cases

A case is what survives between the runs of its task. It keeps links to the runs,
of which only the youngest are retained, and a status whose changes are checked.
-/

namespace UltimateCoders.Governance

def caseNamespace : String := "work_case"

/-- How many runs a case retains. -/
def maxRunHistory : Nat := 64

inductive CaseStatus where
  | «open»
  | active
  | waitingEvent
  | needsHuman
  | blocked
  | verifying
  | completed
  | failed
  | cancelled
  deriving DecidableEq

namespace CaseStatus

def asStr : CaseStatus → String
  | «open» => "open"
  | active => "active"
  | waitingEvent => "waiting_event"
  | needsHuman => "needs_human"
  | blocked => "blocked"
  | verifying => "verifying"
  | completed => "completed"
  | failed => "failed"
  | cancelled => "cancelled"

def isTerminal : CaseStatus → Bool
  | completed | failed | cancelled => true
  | _ => false

/-- No execution resource is used in a quiescent status. -/
def isQuiescent : CaseStatus → Bool
  | waitingEvent | needsHuman | blocked | verifying => true
  | _ => false

/-- The changes of status that are allowed. -/
def canTransitionTo (status next : CaseStatus) : Bool :=
  if status.isTerminal then false
  else if status = next then true
  else
    match status, next with
    | «open», active => true
    | «open», blocked => true
    | «open», needsHuman => true
    | «open», cancelled => true
    | «open», failed => true
    | active, waitingEvent => true
    | active, needsHuman => true
    | active, blocked => true
    | active, verifying => true
    | active, completed => false
    | active, failed => true
    | active, cancelled => true
    | waitingEvent, active => true
    | waitingEvent, needsHuman => true
    | waitingEvent, blocked => true
    | waitingEvent, verifying => true
    | waitingEvent, cancelled => true
    | waitingEvent, failed => true
    | needsHuman, active => true
    | needsHuman, blocked => true
    | needsHuman, cancelled => true
    | needsHuman, failed => true
    | blocked, active => true
    | blocked, needsHuman => true
    | blocked, waitingEvent => true
    | blocked, cancelled => true
    | blocked, failed => true
    | verifying, completed => true
    | verifying, failed => true
    | verifying, active => true
    | verifying, needsHuman => true
    | verifying, cancelled => true
    | _, _ => false

end CaseStatus

structure CaseOrigin where
  source : String
  externalRef : Option String
  threadKey : Option String
  triggerId : Option String
  deriving DecidableEq

inductive CaseRunOutcome where
  | succeeded
  | failed
  | cancelled
  | superseded
  deriving DecidableEq

/-- The status of the case after a run has ended so. -/
def CaseRunOutcome.next : CaseRunOutcome → CaseStatus
  | succeeded => .verifying
  | failed => .active
  | cancelled => .cancelled
  | superseded => .active

structure CaseRun where
  runId : String
  taskId : String
  attempt : UInt32
  submissionId : Option String
  startedAt : Instant
  endedAt : Option Instant
  outcome : Option CaseRunOutcome
  detail : Option String
  deriving DecidableEq

namespace CaseRun

/-- A new run; its id is drawn at random. -/
def «open» (runId taskId : String) (attempt : UInt32) (now : Instant) : CaseRun where
  runId := runId
  taskId := taskId
  attempt := attempt
  submissionId := none
  startedAt := now
  endedAt := none
  outcome := none
  detail := none

def isOpen (run : CaseRun) : Bool := run.outcome.isNone

def finish (run : CaseRun) (outcome : CaseRunOutcome) (detail : Option String) (now : Instant) :
    CaseRun :=
  if run.outcome.isSome then run
  else { run with outcome := some outcome, endedAt := some now, detail := detail }

end CaseRun

/-- A long-running governed unit of work. -/
structure WorkCase where
  id : String
  title : String
  description : String
  projectId : String
  status : CaseStatus
  origin : CaseOrigin
  contractDigest : Option String
  mandateId : Option String
  subscriptions : List String
  runs : List CaseRun
  compactedRuns : UInt32
  priority : Nat
  labels : List String
  createdAt : Instant
  updatedAt : Instant
  version : Nat
  deriving DecidableEq

/-- Rejected changes of a case. -/
inductive CaseTransitionError where
  | illegal (source target : CaseStatus)
  | terminal (status : CaseStatus)
  | quiescent (status : CaseStatus)
  | runAlreadyOpen
  | runAlreadyFinished
  | unknownRun
  | noMandate
  deriving DecidableEq

def CaseTransitionError.display : CaseTransitionError → String
  | illegal source target => "illegal case transition " ++ source.asStr ++ " -> " ++ target.asStr
  | terminal status => "case is terminal (" ++ status.asStr ++ ")"
  | quiescent status => "case is quiescent (" ++ status.asStr ++ ") and may not start a run"
  | runAlreadyOpen => "case already has an open run"
  | runAlreadyFinished => "run is already finished"
  | unknownRun => "unknown run id"
  | noMandate => "case has no mandate and may not execute"

namespace WorkCase

/-- An open case; its id is drawn at random. -/
def new (id title description projectId : String) (origin : CaseOrigin) (now : Instant) :
    WorkCase where
  id := id
  title := title
  description := description
  projectId := projectId
  status := .open
  origin := origin
  contractDigest := none
  mandateId := none
  subscriptions := []
  runs := []
  compactedRuns := 0
  priority := 0
  labels := []
  createdAt := now
  updatedAt := now
  version := 0

variable (case : WorkCase)

def activeRun : Option CaseRun := case.runs.find? CaseRun.isOpen

def nextAttempt : UInt32 :=
  case.compactedRuns + UInt32.ofNat case.runs.length + 1

/-- Drop the oldest runs while there are too many, but no open one. -/
def compactRuns : List CaseRun → UInt32 → List CaseRun × UInt32
  | [], compacted => ([], compacted)
  | removed :: rest, compacted =>
    if rest.length + 1 > maxRunHistory then
      if removed.isOpen then (removed :: rest, compacted) else compactRuns rest (compacted + 1)
    else (removed :: rest, compacted)

def transition (next : CaseStatus) (now : Instant) : Except CaseTransitionError WorkCase :=
  if case.status.canTransitionTo next then .ok { case with status := next, updatedAt := now }
  else .error (.illegal case.status next)

/-- Open a new run of a case that may execute and has none open. -/
def openRun (runId taskId : String) (submissionId : Option String) (now : Instant) :
    Except CaseTransitionError WorkCase :=
  if case.status.isTerminal then .error (.terminal case.status)
  else if case.status.isQuiescent then .error (.quiescent case.status)
  else if case.activeRun.isSome then .error .runAlreadyOpen
  else if case.mandateId.isNone then .error .noMandate
  else
    let run := { CaseRun.open runId taskId case.nextAttempt now with submissionId := submissionId }
    let kept := compactRuns (case.runs ++ [run]) case.compactedRuns
    .ok { case with runs := kept.1, compactedRuns := kept.2, updatedAt := now }

/-- Finish the first run under the id, and move the case on. -/
def finishRun (runId : String) (outcome : CaseRunOutcome) (detail : Option String) (now : Instant) :
    Except CaseTransitionError WorkCase :=
  let index := case.runs.findIdx fun run => run.runId = runId
  match case.runs[index]? with
  | none => .error .unknownRun
  | some run =>
    if run.isOpen then
      { case with runs := case.runs.modify index fun run => run.finish outcome detail now }.transition
        outcome.next now
    else .error .runAlreadyFinished

def attachSubscription (subscriptionId : String) : WorkCase :=
  if case.subscriptions.contains subscriptionId then case
  else { case with subscriptions := case.subscriptions ++ [subscriptionId] }

end WorkCase

end UltimateCoders.Governance
