import UltimateCoders.Graph.Tables

/-! # Graph store

The attempt-lifecycle verbs of the graph plane and the projection write. Each
body below is the content of one database transaction; the verbs run it
atomically. The graph lock that every verb takes first has no effect on the
rows and does not appear. A path that returns without committing restores the
tables it started from.
-/

namespace UltimateCoders.Graph

open Relational Transition
open NodeStatus (created failed ready succeeded)

/-- Dispatch a ready node: two state moves and a fresh running attempt.
Returns the new attempt id, or `none` when the node is absent or not ready. -/
def scheduleAttemptTx (graphId nodeId : String) (workerId : Option String) (now : Timestamp) :
    GraphTx (Option String) := do
  let before ← get
  match before.node? graphId nodeId with
  | none => return none
  | some node =>
    if node.state ≠ ready.asStr ∨
        ¬ transitionOk node.state NodeStatus.scheduled.asStr ∨
        ¬ transitionOk NodeStatus.scheduled.asStr NodeStatus.running.asStr then
      return none
    let (retryNo, workerEpoch) ← probeRetry graphId nodeId
    let gv ← bumpGraphVersion graphId now
    let scheduled ← casNodeState graphId nodeId ready.asStr node.version
      NodeStatus.scheduled.asStr
    if !scheduled then
      set before
      return none
    appendEvent graphId (some nodeId) none (some gv) .nodeScheduled
    let running ← casNodeState graphId nodeId NodeStatus.scheduled.asStr (node.version + 1)
      NodeStatus.running.asStr
    if !running then
      set before
      return none
    appendEvent graphId (some nodeId) none (some gv) .nodeRunning
    let attempt := attemptId graphId nodeId retryNo
    insertAttempt {
      attemptId := attempt
      graphId := graphId
      nodeId := nodeId
      workerId := workerId
      workerEpoch := some workerEpoch
      status := "RUNNING"
      retryNo := retryNo
      startedAt := some now
      heartbeatAt := some now
      finishedAt := none
      resultRef := some (graphId ++ "/" ++ nodeId ++ "/" ++ toString retryNo) }
      "schedule: attempt insert"
    appendEvent graphId (some nodeId) (some attempt) (some gv) .attemptStarted
    return some attempt

def retryFailedNodeTx (graphId nodeId : String) (now : Timestamp) : GraphTx Bool := do
  let before ← get
  match before.node? graphId nodeId with
  | none => return false
  | some node =>
    if node.state ≠ failed.asStr ∨
        ¬ transitionOk node.state ready.asStr then
      return false
    let gv ← bumpGraphVersion graphId now
    let moved ← casNodeState graphId nodeId node.state node.version ready.asStr
    if !moved then
      set before
      return false
    appendEvent graphId (some nodeId) none (some gv) .nodeRetried
    return true

/-- Refresh the heartbeat of a still-running attempt. -/
def heartbeatAttemptTx (attemptId : String) (now : Timestamp) : GraphTx Bool := do
  let tables ← get
  match tables.attempt? attemptId with
  | none => return false
  | some attempt =>
    let hit : TaskAttempt → Bool := fun row =>
      row.attemptId = attemptId ∧ row.status = "RUNNING"
    let affected := tables.attempts.rows.countP hit
    set (tables.beatAttempts hit now)
    if affected == 1 then
      let version := ((tables.graph? attempt.graphId).map ExecutionGraph.version).getD 0
      appendEvent attempt.graphId (some attempt.nodeId) (some attemptId) (some version)
        .attemptHeartbeat
      return true
    else
      return false

/-- Are all dependencies of a node done, given the finished rows of its graph?
A skipped dependency counts only when it is optional. -/
def dependenciesSatisfied (finished : List GraphNode) (node : GraphNode) : Bool :=
  node.dependencies.all fun dep =>
    finished.any fun row => row.nodeId == dep && (row.state == "SUCCEEDED" || row.isOptional)

variable (tables : Tables)

/-- The rows of a graph that may satisfy a dependency. -/
def Tables.finishedNodes (graphId : String) : List GraphNode :=
  tables.nodes.rows.filter fun row =>
    row.graphId = graphId ∧ (row.state = "SUCCEEDED" ∨ row.state = "SKIPPED")

def Tables.createdNodes (graphId : String) : List GraphNode :=
  (tables.nodes.rows.filter fun row =>
    row.graphId = graphId ∧ row.state = created.asStr).insertionSort
      fun first second => first.nodeId ≤ second.nodeId

/-- The version already bumped by the caller, or a fresh bump. -/
def ensureGraphVersion (graphId : String) (gv : Option Nat) (now : Timestamp) : GraphTx Nat :=
  match gv with
  | some version => pure version
  | none => bumpGraphVersion graphId now

/-- Flip the candidates whose dependencies are done. The graph version is
bumped once, at the first flip, unless the caller already did. -/
def flipReady (graphId : String) (finished : List GraphNode) (now : Timestamp) :
    List GraphNode → Option Nat → GraphTx (List String)
  | [], _ => return []
  | node :: rest, gv => do
      if !dependenciesSatisfied finished node then
        flipReady graphId finished now rest gv
      else
        let moved ← casNodeState graphId node.nodeId created.asStr node.version
          ready.asStr
        if !moved then
          flipReady graphId finished now rest gv
        else
          let version ← ensureGraphVersion graphId gv now
          appendEvent graphId (some node.nodeId) none (some version) .nodeReady
          let flipped ← flipReady graphId finished now rest (some version)
          return node.nodeId :: flipped

/-- Flip every created node of the graph whose dependencies are done. -/
def recomputeReadyTx (graphId : String) (graphVersion : Option Nat) (now : Timestamp) :
    GraphTx (List String) := do
  let tables ← get
  flipReady graphId (tables.finishedNodes graphId) now (tables.createdNodes graphId) graphVersion

/-- Move a node that was read under the lock where the edge is legal. An illegal
edge and a miss are only warned about. -/
def moveWhereLegal (graphId nodeId : String) (node : GraphNode) (target : NodeStatus) :
    GraphTx Bool :=
  if transitionOk node.state target.asStr then
    casNodeState graphId nodeId node.state node.version target.asStr
  else pure false

/-- The winning half of a commit: the attempt succeeds, its node where the edge
is legal, and the created nodes that waited for it become ready. -/
def commitWinner (node : GraphNode) (completion : NodeCompletion) (now : Timestamp) :
    GraphTx Bool := do
  modify fun tables =>
    { tables with completions := tables.completions.insertOrIgnore completion }
  let gv ← bumpGraphVersion completion.graphId now
  modify fun tables => tables.finishAttempts
    (fun row => row.attemptId = completion.winningAttemptId ∧ row.status = "RUNNING") "SUCCEEDED"
    now completion.resultRef
  let _moved ← moveWhereLegal completion.graphId completion.nodeId node .succeeded
  appendEvent completion.graphId (some completion.nodeId) (some completion.winningAttemptId)
    (some gv) .nodeSucceeded
  let _flipped ← recomputeReadyTx completion.graphId (some gv) now
  return true

/-- Commit the node's result once. A late, fenced or losing commit only leaves
an event. -/
def commitOnceTx (graphId nodeId winningAttemptId : String) (resultRef : Option String)
    (now : Timestamp) : GraphTx Bool := do
  let tables ← get
  let late : GraphTx Bool := do
    appendEvent graphId (some nodeId) (some winningAttemptId) none .lateResult
    return false
  match tables.node? graphId nodeId, tables.attempt? winningAttemptId with
  | some node, some attempt =>
    if node.state = succeeded.asStr ∨ attempt.status ≠ "RUNNING" then late
    else
      let completion : NodeCompletion := {
        nodeId := nodeId
        graphId := graphId
        winningAttemptId := winningAttemptId
        resultRef := resultRef
        committedAt := now }
      if tables.completions.Free completion then commitWinner node completion now else late
  | _, _ => late

inductive FailOutcome where
  | fenced
  | rearmedToReady
  | nodeFailed
  deriving DecidableEq

/-- `DEFAULT_MAX_ATTEMPTS` -/
def defaultMaxAttempts : Int := 3

/-- `max_attempts.saturating_sub(1)` on 32-bit signed integers. -/
def lastRetryNo (maxAttempts : Int) : Int :=
  max (-2147483648) (maxAttempts - 1)

/-- The live half of a failure: the attempt fails, its node where the edge is
legal. -/
def failLiveAttempt (graphId nodeId : String) (node : GraphNode) (attempt : TaskAttempt)
    (maxAttempts : Int) (now : Timestamp) : GraphTx FailOutcome := do
  modify fun tables =>
    tables.finishAttempts (fun row => row.attemptId = attempt.attemptId) "FAILED" now none
  let gv ← bumpGraphVersion graphId now
  appendEvent graphId (some nodeId) (some attempt.attemptId) (some gv) .attemptFailed
  let target : NodeStatus := if attempt.retryNo < lastRetryNo maxAttempts then .ready else .failed
  let outcome : FailOutcome := if target = .ready then .rearmedToReady else .nodeFailed
  if transitionOk node.state target.asStr then
    -- a miss is only warned about
    let _moved ← casNodeState graphId nodeId node.state node.version target.asStr
    appendEvent graphId (some nodeId) (some attempt.attemptId) (some gv)
      (if outcome = .rearmedToReady then .nodeReady else .nodeFailed)
    return outcome
  else
    return outcome

/-- Fail one running attempt; its node follows the retry budget. -/
def failAttemptTx (graphId nodeId attemptId : String) (maxAttempts : Int) (now : Timestamp) :
    GraphTx FailOutcome := do
  let tables ← get
  let late : GraphTx FailOutcome := do
    appendEvent graphId (some nodeId) (some attemptId) none .lateResult
    return .fenced
  match tables.node? graphId nodeId, tables.attempt? attemptId with
  | some node, some attempt =>
    if attempt.status = "RUNNING" ∧ node.state ≠ succeeded.asStr then
      failLiveAttempt graphId nodeId node attempt maxAttempts now
    else late
  | _, _ => late

/-- The id of the node's running attempt, the first in id order. -/
def Tables.runningAttempt (graphId nodeId : String) : Option String :=
  (((tables.attemptsOf graphId nodeId).filter fun row => row.status = "RUNNING").map
    TaskAttempt.attemptId).insertionSort (· ≤ ·) |>.head?

/-- The id of the node's running attempt, the latest one. -/
def Tables.runningAttemptId (graphId nodeId : String) : Option String :=
  (((tables.attemptsOf graphId nodeId).filter fun row => row.status = "RUNNING").insertionSort
    fun first second => second.retryNo ≤ first.retryNo).head?.map TaskAttempt.attemptId

/-- Fail the node's running attempt where it has one. -/
def Tables.stopRunning (graphId nodeId : String) (now : Timestamp) : Tables :=
  match tables.runningAttempt graphId nodeId with
  | some attempt => tables.finishAttempts (fun row => row.attemptId = attempt) "FAILED" now none
  | none => tables

/-- Cancel one live node, failing its running attempt. -/
def cancelLiveNode (graphId nodeId : String) (node : GraphNode) (now : Timestamp) :
    GraphTx Unit := do
  let tables ← get
  set (tables.stopRunning graphId nodeId now)
  let gv ← bumpGraphVersion graphId now
  let _moved ← casNodeState graphId nodeId node.state node.version NodeStatus.cancelled.asStr
  appendEvent graphId (some nodeId) (tables.runningAttempt graphId nodeId) (some gv) .nodeCancelled

/-- Cancel every listed node that is still live. Unknown ids and nodes without
an edge to the cancelled state are skipped. -/
def cancelNodesTx (graphId : String) (now : Timestamp) : List String → GraphTx (List String)
  | [] => return []
  | nodeId :: rest => do
      let tables ← get
      match tables.node? graphId nodeId with
      | none => cancelNodesTx graphId now rest
      | some node =>
        if !transitionOk node.state NodeStatus.cancelled.asStr then
          cancelNodesTx graphId now rest
        else
          cancelLiveNode graphId nodeId node now
          let cancelled ← cancelNodesTx graphId now rest
          return nodeId :: cancelled

/-- One attempt reaped by a sweep. -/
structure SweptAttempt where
  graphId : String
  nodeId : String
  attemptId : String
  rearmed : Bool
  deriving DecidableEq

/-- The running attempts whose heartbeat, or start when there was none, is
older than the timeout, in id order. -/
def Tables.staleAttempts (timeout now : Timestamp) : List TaskAttempt :=
  (tables.attempts.rows.filter fun row =>
    row.status = "RUNNING" ∧ (row.heartbeatAt.or row.startedAt).any (· < now - timeout)).insertionSort
      fun first second => first.attemptId ≤ second.attemptId

/-- The running attempts of one graph in id order. -/
def Tables.runningAttempts (graphId : String) : List TaskAttempt :=
  (tables.attempts.rows.filter fun row =>
    row.graphId = graphId ∧ row.status = "RUNNING").insertionSort
      fun first second => first.attemptId ≤ second.attemptId

/-- Fail the scanned attempts one transaction after the other. Fenced ones are
not reported; an error ends the sweep after what is already committed. -/
def failScanned (maxAttempts : Int) (now : Timestamp) :
    List TaskAttempt → Tables → Except EngineError (List SweptAttempt) × Tables
  | [], tables => (.ok [], tables)
  | attempt :: rest, tables =>
    match atomically
      (failAttemptTx attempt.graphId attempt.nodeId attempt.attemptId maxAttempts now) tables with
    | (.error failure, next) => (.error failure, next)
    | (.ok outcome, next) =>
      match failScanned maxAttempts now rest next with
      | (.error failure, last) => (.error failure, last)
      | (.ok swept, last) =>
        (.ok (if outcome = .fenced then swept
          else {
            graphId := attempt.graphId
            nodeId := attempt.nodeId
            attemptId := attempt.attemptId
            rearmed := outcome = .rearmedToReady } :: swept), last)

/-- Attempt-level cancel: the node's running attempt takes the fail path. -/
def cancelRunningAttempt (graphId nodeId : String) (maxAttempts : Int) (now : Timestamp)
    (tables : Tables) : Except EngineError (Option SweptAttempt) × Tables :=
  match tables.runningAttempt graphId nodeId with
  | none => (.ok none, tables)
  | some attempt =>
    match atomically (failAttemptTx graphId nodeId attempt maxAttempts now) tables with
    | (.error failure, next) => (.error failure, next)
    | (.ok outcome, next) =>
      (.ok (if outcome = .fenced then none
        else some {
          graphId := graphId
          nodeId := nodeId
          attemptId := attempt
          rearmed := outcome = .rearmedToReady }), next)

/-- The lifecycle verbs of the graph store with their arguments. -/
inductive Verb where
  | scheduleAttempt (graphId nodeId : String) (workerId : Option String)
  | heartbeatAttempt (attemptId : String)
  | commitOnce (graphId nodeId winningAttemptId : String) (resultRef : Option String)
  | failAttempt (graphId nodeId attemptId : String) (maxAttempts : Int)
  | timeoutSweep (heartbeatTimeout : Timestamp) (maxAttempts : Int)
  | failRunningAttempts (graphId : String) (maxAttempts : Int)
  | cancelRunningAttempt (graphId nodeId : String) (maxAttempts : Int)
  | cancelNodes (graphId : String) (nodeIds : List String)
  | retryFailedNode (graphId nodeId : String)
  | recomputeReady (graphId : String)
  deriving DecidableEq

inductive VerbResult where
  | attempt (id : Option String)
  | flag (value : Bool)
  | outcome (value : FailOutcome)
  | swept (attempts : List SweptAttempt)
  | sweptOne (attempt : Option SweptAttempt)
  | nodes (ids : List String)
  deriving DecidableEq

/-- Wrap the result of a verb and keep its tables. -/
def wrap {α : Type} (into : α → VerbResult) (ran : Except EngineError α × Tables) :
    Except EngineError VerbResult × Tables :=
  (ran.1.map into, ran.2)

/-- Execute a verb at a time. -/
def Verb.exec (now : Timestamp) : Verb → Tables → Except EngineError VerbResult × Tables
  | scheduleAttempt graphId nodeId workerId, tables =>
    wrap .attempt (atomically (scheduleAttemptTx graphId nodeId workerId now) tables)
  | heartbeatAttempt attemptId, tables =>
    wrap .flag (atomically (heartbeatAttemptTx attemptId now) tables)
  | commitOnce graphId nodeId winningAttemptId resultRef, tables =>
    wrap .flag (atomically (commitOnceTx graphId nodeId winningAttemptId resultRef now) tables)
  | failAttempt graphId nodeId attemptId maxAttempts, tables =>
    wrap .outcome (atomically (failAttemptTx graphId nodeId attemptId maxAttempts now) tables)
  | timeoutSweep heartbeatTimeout maxAttempts, tables =>
    wrap .swept (failScanned maxAttempts now (tables.staleAttempts heartbeatTimeout now) tables)
  | failRunningAttempts graphId maxAttempts, tables =>
    wrap .swept (failScanned maxAttempts now (tables.runningAttempts graphId) tables)
  | cancelRunningAttempt graphId nodeId maxAttempts, tables =>
    wrap .sweptOne (Graph.cancelRunningAttempt graphId nodeId maxAttempts now tables)
  | cancelNodes graphId nodeIds, tables =>
    wrap .nodes (atomically (cancelNodesTx graphId now nodeIds) tables)
  | retryFailedNode graphId nodeId, tables =>
    wrap .flag (atomically (retryFailedNodeTx graphId nodeId now) tables)
  | recomputeReady graphId, tables =>
    wrap .nodes (atomically (recomputeReadyTx graphId none now) tables)

/-- Row counts of a projection write. -/
structure BackfillStats where
  graphs : Nat := 0
  nodes : Nat := 0
  attempts : Nat := 0
  completions : Nat := 0
  skippedExisting : Nat := 0
  mirrorStateDropped : Nat := 0
  mirrorRejected : Nat := 0
  deriving DecidableEq

/-- `ON CONFLICT (graph_id) DO UPDATE` of a mirror write. -/
def Tables.refreshGraph (p : GraphProjection) : Tables :=
  { tables with
    graphs := tables.graphs.update
      (fun stored => if stored.graphId = p.graphId then
        { stored with
          status := p.status
          projectId := p.projectId
          updatedAt := p.updatedAt } else stored)
      (by intro first second same; unfold ExecutionGraph.Clash at *; grind) }

/-- Insert the graph row. On a conflict the mirror refreshes status, project
and update time, the import nothing. -/
def writeGraph (p : GraphProjection) (shadow imported : Bool) : GraphTx Nat := do
  match (← get).graph? p.graphId with
  | none =>
    modify fun tables => { tables with
      graphs := tables.graphs.insertOrIgnore {
        graphId := p.graphId
        projectId := p.projectId
        status := p.status
        version := 1
        imported := imported
        createdAt := p.createdAt
        updatedAt := p.updatedAt } }
    return 1
  | some _ =>
    if shadow then
      modify fun tables => tables.refreshGraph p
      return 1
    else
      return 0

/-- The columns a mirror write refreshes on an existing node row. The state is
deliberately not among them. -/
def GraphNode.refresh (row : GraphNode) (node : NodeRow) : GraphNode :=
  { row with
    dependencies := node.dependencies
    requiredCapabilities := node.requiredCapabilities
    effectClass := node.effectClass
    nodeType := node.nodeType }

/-- A node row as first inserted. -/
def NodeRow.toNode (node : NodeRow) (graphId : String) : GraphNode where
  graphId := graphId
  nodeId := node.nodeId
  nodeType := node.nodeType
  state := node.state
  dependencies := node.dependencies
  isOptional := false
  effectClass := node.effectClass
  requiredCapabilities := node.requiredCapabilities
  version := 1

/-- `ON CONFLICT (node_id, graph_id) DO UPDATE` of a mirror write. -/
def Tables.refreshNode (graphId : String) (node : NodeRow) : Tables :=
  { tables with
    nodes := tables.nodes.update
      (fun row => if row.graphId = graphId ∧ row.nodeId = node.nodeId then row.refresh node
        else row)
      (by intro first second same; unfold GraphNode.Clash GraphNode.refresh at *; grind) }

/-- Insert a node row. On a conflict the mirror refreshes it, the import leaves
it. -/
def Tables.upsertNode (graphId : String) (shadow : Bool) (node : NodeRow) : Tables :=
  if (tables.node? graphId node.nodeId).isNone then
    { tables with nodes := tables.nodes.insertOrIgnore (node.toNode graphId) }
  else if shadow then tables.refreshNode graphId node
  else tables

/-- Write the node rows. A mirror row whose state is neither the stored one nor
a legal move from it is refused. -/
def writeNodes (graphId : String) (shadow : Bool) (existingStates : List (String × String)) :
    List NodeRow → BackfillStats → GraphTx BackfillStats
  | [], stats => return stats
  | node :: rest, stats => do
      let tables ← get
      match if shadow then existingStates.lookup node.nodeId else none with
      | some prevState =>
        if !mirrorWriteAllowed prevState node.state then
          writeNodes graphId shadow existingStates rest
            { stats with mirrorRejected := stats.mirrorRejected + 1 }
        else
          set (tables.upsertNode graphId shadow node)
          writeNodes graphId shadow existingStates rest
            { stats with
              nodes := stats.nodes + 1
              mirrorStateDropped :=
                stats.mirrorStateDropped + if prevState ≠ node.state then 1 else 0 }
      | none =>
        let affected :=
          if (tables.node? graphId node.nodeId).isNone ∨ shadow then 1 else 0
        set (tables.upsertNode graphId shadow node)
        writeNodes graphId shadow existingStates rest { stats with nodes := stats.nodes + affected }

/-- An attempt row as a projection inserts it: without epoch and heartbeat. -/
def AttemptRow.toAttempt (attempt : AttemptRow) (graphId : String) : TaskAttempt where
  attemptId := attempt.attemptId
  graphId := graphId
  nodeId := attempt.nodeId
  workerId := attempt.workerId
  workerEpoch := none
  status := attempt.status
  retryNo := attempt.retryNo
  startedAt := attempt.startedAt
  heartbeatAt := none
  finishedAt := attempt.finishedAt
  resultRef := attempt.resultRef

/-- Insert the attempt rows, skipping every conflict. A row of an unknown node
violates its foreign key. -/
def writeAttempts (graphId : String) : List AttemptRow → GraphTx Nat
  | [] => return 0
  | attempt :: rest => do
      let tables ← get
      let row := attempt.toAttempt graphId
      if !decide (tables.attempts.Free row) then
        writeAttempts graphId rest
      else if (tables.node? graphId attempt.nodeId).isNone then
        throw (.storageError "attempt insert")
      else
        set { tables with attempts := tables.attempts.insertOrIgnore row }
        let inserted ← writeAttempts graphId rest
        return inserted + 1

/-- A completion row as a projection inserts it. -/
def CompletionRow.toCompletion (completion : CompletionRow) (graphId : String)
    (updatedAt : Timestamp) : NodeCompletion where
  nodeId := completion.nodeId
  graphId := graphId
  winningAttemptId := completion.winningAttemptId
  resultRef := completion.resultRef
  committedAt := completion.committedAt.getD updatedAt

/-- Insert the completion rows, skipping every conflict. -/
def writeCompletions (graphId : String) (updatedAt : Timestamp) :
    List CompletionRow → GraphTx Nat
  | [] => return 0
  | completion :: rest => do
      let tables ← get
      let row := completion.toCompletion graphId updatedAt
      if !decide (tables.completions.Free row) then
        writeCompletions graphId updatedAt rest
      else if (tables.node? graphId completion.nodeId).isNone then
        throw (.storageError "completion insert")
      else
        set { tables with completions := tables.completions.insertOrIgnore row }
        let inserted ← writeCompletions graphId updatedAt rest
        return inserted + 1

/-- The states of a graph's nodes, as the mirror reads them before it writes. -/
def Tables.nodeStates (graphId : String) : List (String × String) :=
  (tables.nodes.rows.filter fun row => row.graphId = graphId).map fun row =>
    (row.nodeId, row.state)

/-- Write one projected graph, as an import or as a mirror (`shadow`). -/
def writeProjectionTx (p : GraphProjection) (shadow imported : Bool) : GraphTx BackfillStats := do
  let graphs ← writeGraph p shadow imported
  let tables ← get
  let existingStates := if shadow then tables.nodeStates p.graphId else []
  let stats ← writeNodes p.graphId shadow existingStates p.nodes { graphs := graphs }
  let attempts ← writeAttempts p.graphId p.attempts
  let completions ← writeCompletions p.graphId p.updatedAt p.completions
  return { stats with attempts := attempts, completions := completions }

def writeProjection (p : GraphProjection) (shadow imported : Bool) (tables : Tables) :
    Except EngineError BackfillStats × Tables :=
  atomically (writeProjectionTx p shadow imported) tables

/-- A graph's scope must be a non-blank project id. -/
def graphScopeIsValid (projectId : String) : Bool :=
  !projectId.toList.all Text.isWhitespace

/-- Mirror the gateway's task into the graph tables. -/
def upsertTaskShadow (task : Task) (tables : Tables) :
    Except EngineError BackfillStats × Tables :=
  if !graphScopeIsValid task.projectId then
    (.error (.storageError
      "graph project_id cannot be empty — every execution graph must declare a project scope (D8 #645)"),
      tables)
  else writeProjection (projectTask task) true false tables

/-- Import a task, as the backfill of the task table does. -/
def importTask (task : Task) (tables : Tables) : Tables :=
  (writeProjection (projectTask task) false true tables).2

end UltimateCoders.Graph
