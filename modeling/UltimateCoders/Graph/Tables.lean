import UltimateCoders.Graph.Projection
import UltimateCoders.Relational.Table
import UltimateCoders.Transition.Transaction

/-! # Graph tables

The row tables of the graph plane under the constraints of their schema, and
the statements that the store's transactions are made of. Node rows leave out
the columns that no statement reads or writes (dependency policy, scope, refs,
priority, deadline), event rows their payload and usage columns. Version and
epoch columns are unbounded here; the 32-bit retry number is not.
-/

namespace UltimateCoders.Graph

open Relational Transition

/-- A row of `execution_graphs`. -/
structure ExecutionGraph where
  graphId : String
  projectId : String
  status : String
  version : Nat
  imported : Bool
  createdAt : Timestamp
  updatedAt : Timestamp
  deriving DecidableEq

/-- A row of `graph_nodes`. -/
structure GraphNode where
  graphId : String
  nodeId : String
  nodeType : String
  state : String
  dependencies : List String
  isOptional : Bool
  effectClass : String
  requiredCapabilities : List String
  version : Nat
  deriving DecidableEq

/-- A row of `task_attempts`. -/
structure TaskAttempt where
  attemptId : String
  graphId : String
  nodeId : String
  workerId : Option String
  workerEpoch : Option Nat
  status : String
  retryNo : Int
  startedAt : Option Timestamp
  heartbeatAt : Option Timestamp
  finishedAt : Option Timestamp
  resultRef : Option String
  deriving DecidableEq

open TaskAttempt

/-- A row of `node_completions`. -/
structure NodeCompletion where
  nodeId : String
  graphId : String
  winningAttemptId : String
  resultRef : Option String
  committedAt : Timestamp
  deriving DecidableEq

inductive EventType where
  | nodeScheduled
  | nodeRunning
  | attemptStarted
  | nodeRetried
  | attemptHeartbeat
  | lateResult
  | nodeSucceeded
  | attemptFailed
  | nodeReady
  | nodeFailed
  | nodeCancelled
  deriving DecidableEq

/-- A row of `execution_events`. -/
structure ExecutionEvent where
  graphId : String
  nodeId : Option String
  attemptId : Option String
  graphVersion : Option Nat
  eventType : EventType
  deriving DecidableEq

/-- The arbiter's report of a merge. -/
structure MergeOutcomeReport where
  status : String
  mergedBranches : List String
  conflictBranches : List String
  pushStatus : String
  deriving DecidableEq

/-- A row of `merge_grants`. -/
structure MergeGrant where
  graphId : String
  mergeIdempotencyKey : String
  issuedAt : Timestamp
  consumedAt : Option Timestamp
  outcome : Option MergeOutcomeReport
  deriving DecidableEq

/-- Primary key of `execution_graphs`. -/
def ExecutionGraph.Clash (first second : ExecutionGraph) : Prop :=
  first.graphId = second.graphId

/-- Primary key of `graph_nodes`. -/
def GraphNode.Clash (first second : GraphNode) : Prop :=
  first.nodeId = second.nodeId ∧ first.graphId = second.graphId

/-- Primary key and unique constraint of `task_attempts`. -/
def TaskAttempt.Clash (first second : TaskAttempt) : Prop :=
  first.attemptId = second.attemptId ∨ first.nodeId = second.nodeId ∧ first.retryNo = second.retryNo

/-- Primary key of `node_completions`: the node id alone. -/
def NodeCompletion.Clash (first second : NodeCompletion) : Prop :=
  first.nodeId = second.nodeId

/-- Primary key of `merge_grants`. -/
def MergeGrant.Clash (first second : MergeGrant) : Prop :=
  first.graphId = second.graphId

instance : DecidableRel ExecutionGraph.Clash := fun first second =>
  inferInstanceAs (Decidable (first.graphId = second.graphId))

instance : DecidableRel GraphNode.Clash := fun first second =>
  inferInstanceAs (Decidable (first.nodeId = second.nodeId ∧ first.graphId = second.graphId))

instance : DecidableRel Clash := fun first second =>
  inferInstanceAs (Decidable (first.attemptId = second.attemptId ∨
    first.nodeId = second.nodeId ∧ first.retryNo = second.retryNo))

instance : DecidableRel NodeCompletion.Clash := fun first second =>
  inferInstanceAs (Decidable (first.nodeId = second.nodeId))

instance : DecidableRel MergeGrant.Clash := fun first second =>
  inferInstanceAs (Decidable (first.graphId = second.graphId))

instance : Std.Symm GraphNode.Clash := ⟨fun _ _ same => ⟨same.1.symm, same.2.symm⟩⟩

instance : Std.Symm Clash :=
  ⟨fun _ _ same => same.imp Eq.symm fun pair => ⟨pair.1.symm, pair.2.symm⟩⟩

instance : Std.Symm NodeCompletion.Clash := ⟨fun _ _ same => Eq.symm same⟩

instance : Std.Refl GraphNode.Clash := ⟨fun _ => ⟨rfl, rfl⟩⟩

instance : Std.Refl Clash := ⟨fun _ => .inl rfl⟩

instance : Std.Refl NodeCompletion.Clash := ⟨fun _ => rfl⟩

@[ext]
structure Tables where
  graphs : Table ExecutionGraph ExecutionGraph.Clash
  nodes : Table GraphNode GraphNode.Clash
  attempts : Table TaskAttempt Clash
  completions : Table NodeCompletion NodeCompletion.Clash
  events : List ExecutionEvent
  grants : Table MergeGrant MergeGrant.Clash

inductive EngineError where
  | storageError (context : String)
  | invalidOperation (message : String)
  deriving DecidableEq

/-- A transaction body over the graph tables. -/
abbrev GraphTx := Tx Tables EngineError

namespace Tables

/-- Freshly migrated tables. -/
def empty : Tables where
  graphs := .empty
  nodes := .empty
  attempts := .empty
  completions := .empty
  events := []
  grants := .empty

variable (tables : Tables)

def node? (graphId nodeId : String) : Option GraphNode :=
  tables.nodes.rows.find? fun row => row.graphId = graphId ∧ row.nodeId = nodeId

def attempt? (attemptId : String) : Option TaskAttempt :=
  tables.attempts.rows.find? fun row => row.attemptId = attemptId

/-- The attempt rows of (graph, node), oldest first. -/
def attemptsOf (graphId nodeId : String) : List TaskAttempt :=
  tables.attempts.rows.filter fun row => row.graphId = graphId ∧ row.nodeId = nodeId

def graph? (graphId : String) : Option ExecutionGraph :=
  tables.graphs.rows.find? fun row => row.graphId = graphId

/-- Set the state of the node rows hit, and count the write in their version. -/
def setNodeState (hit : GraphNode → Bool) (newState : String) : Tables :=
  { tables with
    nodes := tables.nodes.update
      (fun row => if hit row then { row with state := newState, version := row.version + 1 }
        else row)
      (by intro first second same; unfold GraphNode.Clash at *; grind) }

/-- Give the attempt rows hit a final status. A `none` reference keeps the
stored one. -/
def finishAttempts (hit : TaskAttempt → Bool) (status : String) (now : Timestamp)
    (resultRef : Option String) : Tables :=
  { tables with
    attempts := tables.attempts.update
      (fun row => if hit row then
        { row with
          status := status
          finishedAt := some now
          resultRef := resultRef.or row.resultRef }
        else row)
      (by intro first second same; unfold Clash at *; grind) }

/-- Refresh the heartbeat of the attempt rows hit. -/
def beatAttempts (hit : TaskAttempt → Bool) (now : Timestamp) : Tables :=
  { tables with
    attempts := tables.attempts.update
      (fun row => if hit row then { row with heartbeatAt := some now } else row)
      (by intro first second same; unfold Clash at *; grind) }

end Tables

/-- `MAX(retry_no) + 1` over the attempts of a node, 0 without attempts. -/
def nextRetryNo (attempts : List TaskAttempt) : Int :=
  ((attempts.map retryNo).max?).getD (-1) + 1

/-- `MAX(worker_epoch) + 1` over the attempts of a node; rows without an epoch
do not count. -/
def nextWorkerEpoch (attempts : List TaskAttempt) : Nat :=
  ((attempts.filterMap workerEpoch).max?).getD 0 + 1

/-- The retry number and the fence token of the next attempt. -/
def probeRetry (graphId nodeId : String) : GraphTx (Int × Nat) := do
  let tables ← get
  if (i32Max : Int) < nextRetryNo (tables.attemptsOf graphId nodeId) then
    throw (.storageError "schedule: retry probe")
  else
    return (nextRetryNo (tables.attemptsOf graphId nodeId),
      nextWorkerEpoch (tables.attemptsOf graphId nodeId))

/-- Bump the graph row's version, or materialize the row with version 1. -/
def bumpGraphVersion (graphId : String) (now : Timestamp) : GraphTx Nat := do
  match (← get).graph? graphId with
  | none =>
    modify fun tables => { tables with
      graphs := tables.graphs.insertOrIgnore {
        graphId := graphId
        projectId := ""
        status := "RUNNING"
        version := 1
        imported := false
        createdAt := now
        updatedAt := now } }
    return 1
  | some row =>
    modify fun tables => { tables with
      graphs := tables.graphs.update
        (fun stored => if stored.graphId = graphId then
          { stored with version := stored.version + 1, updatedAt := now } else stored)
        (by intro first second same; unfold ExecutionGraph.Clash at *; grind) }
    return row.version + 1

def appendEvent (graphId : String) (nodeId attemptId : Option String)
    (graphVersion : Option Nat) (eventType : EventType) : GraphTx Unit :=
  modify fun tables => { tables with
    events := tables.events ++ [{
      graphId := graphId
      nodeId := nodeId
      attemptId := attemptId
      graphVersion := graphVersion
      eventType := eventType }] }

/-- Version-CAS move of a node state. An illegal edge is an error; a row whose
state or version moved on is a miss. -/
def casNodeState (graphId nodeId expectState : String) (expectVersion : Nat)
    (newState : String) : GraphTx Bool := do
  if !transitionOk expectState newState then
    throw (.invalidOperation ("illegal node transition " ++ expectState ++ " -> " ++ newState))
  else
    let hit : GraphNode → Bool := fun row =>
      row.graphId = graphId ∧ row.nodeId = nodeId ∧ row.state = expectState ∧
        row.version = expectVersion
    let tables ← get
    set (tables.setNodeState hit newState)
    return tables.nodes.rows.countP hit == 1

/-- `INSERT` of an attempt row. A missing node row or a taken key is an error. -/
def insertAttempt (row : TaskAttempt) (context : String) : GraphTx Unit := do
  let tables ← get
  if (tables.node? row.graphId row.nodeId).isNone then
    throw (.storageError context)
  else if free : tables.attempts.Free row then
    set { tables with attempts := tables.attempts.append row free }
  else
    throw (.storageError context)

end UltimateCoders.Graph
