import UltimateCoders.Graph.Projection
import UltimateCoders.Orchestrator.ConflictGrade
import UltimateCoders.Transition.Run

/-! # The claim loop

The orchestrator keeps a mirror of its task. In every tick it takes over what the gateway reports
about the subtasks that it has not claimed, and then claims subtasks that are ready and runs them
itself. Wherever it waits, local executions may end.
-/

namespace UltimateCoders.Orchestrator

open UltimateCoders.Graph (SubtaskStatus)

/-- The status of a subtask in the mirror. -/
inductive LocalStatus where
  | pending
  | running
  | reviewing
  | completed
  | failed
  | cancelled
  deriving DecidableEq

structure SubtaskResult where
  id : String
  status : LocalStatus := .pending
  dependsOn : List String
  files : List String
  result : Option String := none
  error : Option String := none
  dispatchMode : Option DispatchMode := none
  conflictRisk : Option ConflictRisk := none
  deriving DecidableEq

/-- What the gateway tells about a subtask. -/
structure SubtaskSync where
  id : String
  status : SubtaskStatus
  result : String := ""
  deriving DecidableEq

/-- What the loop over the subtasks carries along. -/
structure Batch where
  server : List SubtaskSync
  inflightMedium : Nat
  selected : List SubtaskResult := []
  position : Nat := 0
  deriving DecidableEq

def Batch.next (batch : Batch) : Batch := { batch with position := batch.position + 1 }

/-- How far the tick has come that is under way. -/
inductive Tick where
  | idle
  /-- The report is taken over, the mirror is being saved. -/
  | adopted (server : List SubtaskSync)
  /-- The loop goes on with the subtask at its position. -/
  | claiming (batch : Batch)
  /-- The claim of that subtask is being reported. -/
  | reporting (batch : Batch)
  /-- That subtask is claimed, the mirror is being saved. -/
  | starting (batch : Batch)
  deriving DecidableEq

/-- The mirror of a task, what is claimed, and what of it is being executed or reports how it
ended. -/
structure ClaimLoop where
  subtasks : List SubtaskResult
  maxConcurrency : Nat
  claimed : List String := []
  executing : List String := []
  finishing : List String := []
  tick : Tick := .idle
  deriving DecidableEq

variable (subtask : SubtaskResult) (loop : ClaimLoop)

/-- Take over what the gateway reports about one subtask. -/
def SubtaskResult.adopt (sst : SubtaskSync) : SubtaskResult :=
  let result := if sst.result.isEmpty then none else some sst.result
  match sst.status with
  | .completed =>
    if subtask.status ≠ .completed then
      { subtask with status := .completed, result := result.or subtask.result }
    else subtask
  | .failed =>
    if subtask.status ≠ .failed then
      { subtask with
        status := .failed
        error := result.or
          ((subtask.error.filter fun error => !error.isEmpty).or (some "Failed server-side")) }
    else subtask
  | .assigned | .inProgress =>
    if subtask.status = .pending ∨ subtask.status = .reviewing then
      { subtask with status := .running }
    else subtask
  | .pending =>
    if subtask.status = .running ∨ subtask.status = .reviewing then
      { subtask with status := .pending }
    else subtask
  | .conflicted => subtask

/-- Take over the report, save for what is claimed. -/
def adoptAll (claimed : List String) (server : List SubtaskSync) (subtasks : List SubtaskResult) :
    List SubtaskResult :=
  server.foldl (fun subtasks sst =>
    if sst.id ∈ claimed then subtasks
    else subtasks.modify (subtasks.findIdx fun subtask => subtask.id = sst.id) (·.adopt sst)) subtasks

def serverById (server : List SubtaskSync) (id : String) : Option SubtaskSync :=
  server.reverse.find? fun sst => sst.id = id

def SubtaskResult.isOpen : Bool :=
  subtask.status ≠ .completed && subtask.status ≠ .failed && subtask.status ≠ .cancelled

/-- A subtask may be claimed: nobody has it, and what it depends on is completed. -/
def SubtaskResult.claimable (claimed : List String) (server : List SubtaskSync) : Bool :=
  subtask.status = .pending && subtask.id ∉ claimed &&
    subtask.dispatchMode.getD .preferRemote ≠ .remote &&
    (serverById server subtask.id).any (·.status = .pending) &&
    subtask.dependsOn.all fun depId => (serverById server depId).any (·.status = .completed)

def SubtaskResult.risk : ConflictRisk := subtask.conflictRisk.getD .low

/-- The gate on what runs side by side. -/
def SubtaskResult.admitted (claimed : List String) (inflightMedium : Nat)
    (batchSelected : List SubtaskResult) : Bool :=
  match subtask.risk with
  | .high => claimed.isEmpty && batchSelected.isEmpty
  | .medium => inflightMedium + (batchSelected.filter (·.risk = .medium)).length = 0
  | .low => true

namespace ClaimLoop

def setStatus (position : Nat) (status : LocalStatus) : ClaimLoop :=
  { loop with subtasks := loop.subtasks.modify position ({ · with status }) }

/-- The claimed subtasks that are graded medium. -/
def inflightMedium : Nat :=
  (loop.claimed.filter fun id =>
    ((loop.subtasks.reverse.find? fun subtask => subtask.id = id).bind (·.conflictRisk)) =
      some .medium).length

/-- One round of the loop over the subtasks, up to where a claim is reported. -/
def scan (batch : Batch) : ClaimLoop :=
  match loop.subtasks[batch.position]? with
  | none => { loop with tick := .idle }
  | some subtask =>
    if loop.maxConcurrency ≤ loop.claimed.length then { loop with tick := .idle }
    else if subtask.claimable loop.claimed batch.server &&
        subtask.admitted loop.claimed batch.inflightMedium batch.selected then
      { loop.setStatus batch.position .running with tick := .reporting batch }
    else { loop with tick := .claiming batch.next }

inductive Move where
  /-- A tick begins with a report of the gateway. -/
  | reconcile (server : List SubtaskSync)
  /-- The mirror is saved; the tick ends or the loop begins. -/
  | gate
  /-- The loop looks at the next subtask. -/
  | scan
  /-- The report of a claim is answered. -/
  | reported (accepted : Bool)
  /-- The mirror is saved and the claimed subtask starts. -/
  | start
  /-- A local execution ends. -/
  | outcome (id : String) (status : LocalStatus) (result error : Option String)
  /-- The outcome has been reported, or not; the claim ends. -/
  | unclaim (id : String)
  deriving DecidableEq

def step : Move → Option ClaimLoop
  | .reconcile server =>
    match loop.tick with
    | .idle => some { loop with
        subtasks := adoptAll loop.claimed server loop.subtasks
        tick := .adopted server }
    | _ => none
  | .gate =>
    match loop.tick with
    | .adopted server =>
      if loop.subtasks.all (!·.isOpen) && loop.claimed.isEmpty then
        some { loop with tick := .idle }
      else some { loop with
        tick := .claiming { server, inflightMedium := loop.inflightMedium } }
    | _ => none
  | .scan =>
    match loop.tick with
    | .claiming batch => some (loop.scan batch)
    | _ => none
  | .reported accepted =>
    match loop.tick with
    | .reporting batch =>
      (loop.subtasks[batch.position]?).map fun subtask =>
        if accepted then
          { loop with
            claimed := loop.claimed.insert subtask.id
            tick := .starting batch }
        else { loop.setStatus batch.position .pending with tick := .claiming batch.next }
    | _ => none
  | .start =>
    match loop.tick with
    | .starting batch =>
      (loop.subtasks[batch.position]?).map fun subtask =>
        { loop with
          executing := loop.executing ++ [subtask.id]
          tick := if subtask.risk = .high then .idle
            else .claiming { batch.next with selected := batch.selected ++ [subtask] } }
    | _ => none
  | .outcome id status result error =>
    if id ∈ loop.executing then
      some { loop with
        executing := loop.executing.filter (· ≠ id)
        finishing := loop.finishing ++ [id]
        subtasks := loop.subtasks.modify (loop.subtasks.findIdx fun subtask => subtask.id = id)
          ({ · with status, result, error }) }
    else none
  | .unclaim id =>
    if id ∈ loop.finishing then
      some { loop with
        finishing := loop.finishing.filter (· ≠ id)
        claimed := loop.claimed.filter (· ≠ id) }
    else none

end ClaimLoop

/-- The mirror of a freshly decomposed task. -/
def ClaimLoop.start (platform : Platform) (defs : List SubtaskDef) (maxConcurrency : Nat) :
    ClaimLoop where
  subtasks := defs.map fun definition =>
    { id := definition.id
      dependsOn := definition.dependsOn
      files := definition.files
      dispatchMode := definition.dispatchMode
      conflictRisk := riskOf (classifyConflicts platform defs) definition.id }
  maxConcurrency

end UltimateCoders.Orchestrator
