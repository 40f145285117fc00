import UltimateCoders.Graph.Selection

/-! # Transactions are local to their graph

Where graphs are keyed apart, every transaction body on one graph acts on the
rows of that graph as if they were the only ones, and leaves all other rows
alone.
-/

namespace UltimateCoders.Graph

open Relational Transition

variable {layout : NodeKeys} {graphId : String} {frame : Tables}

/-- The body acts on the rows of the graph as if they were the only ones. -/
abbrev Local {α : Type} (layout : NodeKeys) (graphId : String) (frame : Tables)
    (body : GraphTx α) : Prop :=
  Tx.Simulates (layout.Split graphId frame) body body

theorem probeRetry_local (nodeId : String) :
    Local layout graphId frame (probeRetry graphId nodeId) := by
  refine .get_bind fun store part split => ?_
  rw [split.attemptsOf_eq nodeId]
  split
  · exact .throw _ _
  · exact .pure _ _

theorem bumpGraphVersion_local (now : Timestamp) :
    Local layout graphId frame (bumpGraphVersion graphId now) := by
  refine .get_bind fun store part split => ?_
  rw [split.graph?_eq]
  cases store.graph? graphId with
  | none => exact .bind (.modify fun _ _ split => split.insertGraph rfl) fun _ => .pure _ _
  | some row =>
    refine .bind (.modify fun store part split => split.updateGraphs ?_ _ ?_) fun _ => .pure _ _
    · intro row
      split
      · rfl
      · rfl
    · intro row other
      rw [if_neg other]

theorem appendEvent_local (nodeId attemptId : Option String) (graphVersion : Option Nat)
    (eventType : EventType) :
    Local layout graphId frame (appendEvent graphId nodeId attemptId graphVersion eventType) :=
  .modify fun _ _ split => split.appendEvent rfl

theorem casNodeState_local (nodeId expectState : String) (expectVersion : Nat) (newState : String) :
    Local layout graphId frame
      (casNodeState graphId nodeId expectState expectVersion newState) := by
  unfold casNodeState
  split
  · exact .throw _ _
  · refine .get_bind fun store part split => ?_
    have only : ∀ row : GraphNode, decide (row.graphId = graphId ∧ row.nodeId = nodeId ∧
        row.state = expectState ∧ row.version = expectVersion) = true → row.graphId = graphId :=
      fun row hit => (of_decide_eq_true hit).1
    rw [split.countP_nodes_eq only]
    exact .bind (.set (split.setNodeState only newState)) fun _ => .pure _ _

theorem insertAttempt_local (row : TaskAttempt) (ofGraph : row.graphId = graphId)
    (name : row.attemptId = attemptId graphId row.nodeId row.retryNo) (context : String) :
    Local layout graphId frame (insertAttempt row context) := by
  refine .get_bind fun store part split => ?_
  rw [ofGraph, split.node?_eq]
  cases found : store.node? graphId row.nodeId with
  | none => exact .throw _ _
  | some node =>
    have key : layout.keys graphId row.nodeId := split.key_of_node found
    simp only [Option.isNone_some, Bool.false_eq_true, ↓reduceIte]
    have freeIff := split.attempt_free_iff key name
    by_cases free : store.attempts.Free row
    · have partFree := freeIff.mpr free
      simp only [free, partFree, ↓reduceDIte]
      exact .set (split.appendAttempt ofGraph key name free partFree)
    · have taken : ¬ part.attempts.Free row := fun partFree => free (freeIff.mp partFree)
      simp only [free, taken, ↓reduceDIte]
      exact .throw _ _

theorem scheduleAttemptTx_local (nodeId : String) (workerId : Option String) (now : Timestamp) :
    Local layout graphId frame (scheduleAttemptTx graphId nodeId workerId now) := by
  refine .get_bind fun store part split => ?_
  rw [split.node?_eq]
  cases store.node? graphId nodeId with
  | none => exact .pure _ _
  | some node =>
    have abort : Tx.Simulates (layout.Split graphId frame)
        (do set store; return (none : Option String) : GraphTx (Option String))
        (do set part; return none) := .bind (.set split) fun _ => .pure _ _
    simp only
    split
    · exact .pure _ _
    · refine .bind (probeRetry_local nodeId) fun probe => ?_
      refine .bind (bumpGraphVersion_local now) fun gv => ?_
      refine .bind (casNodeState_local _ _ _ _) fun scheduled => ?_
      split
      · exact abort
      · refine .bind (appendEvent_local _ _ _ _) fun _ => ?_
        refine .bind (casNodeState_local _ _ _ _) fun running => ?_
        split
        · exact abort
        · refine .bind (appendEvent_local _ _ _ _) fun _ => ?_
          refine .bind ?_ fun _ => .bind (appendEvent_local _ _ _ _) fun _ => .pure _ _
          exact insertAttempt_local _ (by rfl) (by rfl) _

theorem retryFailedNodeTx_local (nodeId : String) (now : Timestamp) :
    Local layout graphId frame (retryFailedNodeTx graphId nodeId now) := by
  refine .get_bind fun store part split => ?_
  rw [split.node?_eq]
  cases store.node? graphId nodeId with
  | none => exact .pure _ _
  | some node =>
    simp only
    split
    · exact .pure _ _
    · refine .bind (bumpGraphVersion_local now) fun gv => ?_
      refine .bind (casNodeState_local _ _ _ _) fun moved => ?_
      split
      · exact .bind (.set split) fun _ => .pure _ _
      · exact .bind (appendEvent_local _ _ _ _) fun _ => .pure _ _

theorem ensureGraphVersion_local (gv : Option Nat) (now : Timestamp) :
    Local layout graphId frame (ensureGraphVersion graphId gv now) := by
  cases gv with
  | none => exact bumpGraphVersion_local now
  | some version => exact .pure _ version

theorem flipReady_local (finished : List GraphNode) (now : Timestamp)
    (candidates : List GraphNode) (gv : Option Nat) :
    Local layout graphId frame (flipReady graphId finished now candidates gv) := by
  induction candidates generalizing gv with
  | nil => exact .pure _ _
  | cons node rest ih =>
    unfold flipReady
    split
    · exact ih gv
    · refine .bind (casNodeState_local _ _ _ _) fun moved => ?_
      split
      · exact ih gv
      · refine .bind (ensureGraphVersion_local gv now) fun version => ?_
        refine .bind (appendEvent_local _ _ _ _) fun _ => ?_
        exact .bind (ih (some version)) fun _ => .pure _ _

theorem recomputeReadyTx_local (gv : Option Nat) (now : Timestamp) :
    Local layout graphId frame (recomputeReadyTx graphId gv now) := by
  refine .get_bind fun store part split => ?_
  rw [split.finishedNodes_eq, split.createdNodes_eq]
  exact flipReady_local _ now _ gv

theorem moveWhereLegal_local (nodeId : String) (node : GraphNode) (target : NodeStatus) :
    Local layout graphId frame (moveWhereLegal graphId nodeId node target) := by
  unfold moveWhereLegal
  split
  · exact casNodeState_local _ _ _ _
  · exact .pure _ _

variable {nodeId : String} {retryNo : Int}

theorem finishAttempt_local (key : layout.keys graphId nodeId) {id : String}
    (name : id = attemptId graphId nodeId retryNo) {hit : TaskAttempt → Bool}
    (hits : ∀ row, hit row = true → row.attemptId = id) (status : String) (now : Timestamp)
    (resultRef : Option String) :
    Local layout graphId frame
      (modify fun tables => tables.finishAttempts hit status now resultRef) := by
  refine .modify fun store part split => split.finishAttempts ?_ status now resultRef
  intro row member isHit
  exact split.keyed.graph_eq key member ((hits row isHit).trans name)

theorem commitWinner_local {completion : NodeCompletion} (ofGraph : completion.graphId = graphId)
    (key : layout.keys graphId completion.nodeId)
    (name : completion.winningAttemptId = attemptId graphId completion.nodeId retryNo)
    (node : GraphNode) (now : Timestamp) :
    Local layout graphId frame (commitWinner node completion now) := by
  unfold commitWinner
  rw [ofGraph]
  refine .bind (.modify fun _ _ split => split.insertCompletion ofGraph key) fun _ => ?_
  refine .bind (bumpGraphVersion_local now) fun gv => ?_
  refine .bind (finishAttempt_local key name (fun _ hit => (of_decide_eq_true hit).1) _ _ _)
    fun _ => ?_
  refine .bind (moveWhereLegal_local _ _ _) fun _ => ?_
  refine .bind (appendEvent_local _ _ _ _) fun _ => ?_
  exact .bind (recomputeReadyTx_local _ _) fun _ => .pure _ _

theorem commitOnceTx_local (nodeId : String) (retryNo : Int) (resultRef : Option String)
    (now : Timestamp) :
    Local layout graphId frame
      (commitOnceTx graphId nodeId (attemptId graphId nodeId retryNo) resultRef now) := by
  refine .get_bind fun store part split => ?_
  have late : Local layout graphId frame (do
      appendEvent graphId (some nodeId) (some (attemptId graphId nodeId retryNo)) none .lateResult
      return false) := .bind (appendEvent_local _ _ _ _) fun _ => .pure _ _
  rw [split.node?_eq]
  cases found : store.node? graphId nodeId with
  | none => exact late
  | some node =>
    have key : layout.keys graphId nodeId := split.key_of_node found
    rw [split.attempt?_eq key]
    cases store.attempt? (attemptId graphId nodeId retryNo) with
    | none => exact late
    | some attempt =>
      simp only
      split
      · exact late
      · have freeIff := split.completion_free_iff {
          nodeId := nodeId
          graphId := graphId
          winningAttemptId := attemptId graphId nodeId retryNo
          resultRef := resultRef
          committedAt := now } key
        simp only [freeIff]
        split
        · exact commitWinner_local (by rfl) key (by rfl) node now
        · exact late

theorem failLiveAttempt_local (key : layout.keys graphId nodeId) (node : GraphNode)
    {attempt : TaskAttempt} (name : attempt.attemptId = attemptId graphId nodeId retryNo)
    (maxAttempts : Int) (now : Timestamp) :
    Local layout graphId frame (failLiveAttempt graphId nodeId node attempt maxAttempts now) := by
  unfold failLiveAttempt
  refine .bind (finishAttempt_local key name (fun _ hit => of_decide_eq_true hit) _ _ _) fun _ => ?_
  refine .bind (bumpGraphVersion_local now) fun gv => ?_
  refine .bind (appendEvent_local _ _ _ _) fun _ => ?_
  generalize (if attempt.retryNo < lastRetryNo maxAttempts then NodeStatus.ready else .failed) =
    target
  simp only
  by_cases legal : transitionOk node.state target.asStr = true
  · simp only [legal, ↓reduceIte]
    refine .bind (casNodeState_local _ _ _ _) fun _ => ?_
    exact .bind (appendEvent_local _ _ _ _) fun _ => .pure _ _
  · simp only [legal, Bool.false_eq_true, ↓reduceIte]
    exact .pure _ _

theorem failAttemptTx_local (nodeId : String) (retryNo : Int) (maxAttempts : Int)
    (now : Timestamp) :
    Local layout graphId frame
      (failAttemptTx graphId nodeId (attemptId graphId nodeId retryNo) maxAttempts now) := by
  refine .get_bind fun store part split => ?_
  have late : Local layout graphId frame (do
      appendEvent graphId (some nodeId) (some (attemptId graphId nodeId retryNo)) none .lateResult
      return FailOutcome.fenced) := .bind (appendEvent_local _ _ _ _) fun _ => .pure _ _
  rw [split.node?_eq]
  cases found : store.node? graphId nodeId with
  | none => exact late
  | some node =>
    have key : layout.keys graphId nodeId := split.key_of_node found
    rw [split.attempt?_eq key]
    cases foundAttempt : store.attempt? (attemptId graphId nodeId retryNo) with
    | none => exact late
    | some attempt =>
      simp only
      split
      · exact failLiveAttempt_local key node (Tables.attempt?_eq_some.mp foundAttempt).2 _ _
      · exact late

theorem runningAttempt_name {tables : Tables} (keyed : layout.Keyed tables) {nodeId id : String}
    (running : tables.runningAttempt graphId nodeId = some id) :
    layout.keys graphId nodeId ∧ ∃ retryNo, id = attemptId graphId nodeId retryNo := by
  rcases runningAttempt_spec tables graphId nodeId with
    ⟨attempt, found, member, sameGraph, sameNode, -⟩ | ⟨none, -⟩
  · obtain ⟨key, name⟩ := keyed.attempts attempt member
    rw [sameGraph, sameNode] at key name
    rw [running] at found
    exact ⟨key, attempt.retryNo, (Option.some.inj found).trans name⟩
  · rw [running] at none
    cases none

theorem cancelLiveNode_local (nodeId : String) (node : GraphNode) (now : Timestamp) :
    Local layout graphId frame (cancelLiveNode graphId nodeId node now) := by
  refine .get_bind fun store part split => ?_
  have stopped : layout.Split graphId frame (store.stopRunning graphId nodeId now)
      (part.stopRunning graphId nodeId now) := by
    unfold Tables.stopRunning
    rw [split.runningAttempt_eq]
    cases running : store.runningAttempt graphId nodeId with
    | none => exact split
    | some attempt =>
      obtain ⟨key, retryNo, name⟩ := runningAttempt_name split.keyed running
      refine split.finishAttempts (fun row member hit => ?_) _ _ _
      exact split.keyed.graph_eq key member ((of_decide_eq_true hit).trans name)
  rw [split.runningAttempt_eq]
  refine .bind (.set stopped) fun _ => ?_
  refine .bind (bumpGraphVersion_local now) fun gv => ?_
  refine .bind (casNodeState_local _ _ _ _) fun _ => ?_
  exact appendEvent_local _ _ _ _

theorem cancelNodesTx_local (now : Timestamp) (nodeIds : List String) :
    Local layout graphId frame (cancelNodesTx graphId now nodeIds) := by
  induction nodeIds with
  | nil => exact .pure _ _
  | cons nodeId rest ih =>
    refine .get_bind fun store part split => ?_
    rw [split.node?_eq]
    cases store.node? graphId nodeId with
    | none => exact ih
    | some node =>
      simp only
      split
      · exact ih
      · refine .bind (cancelLiveNode_local _ _ _) fun _ => ?_
        exact .bind ih fun _ => .pure _ _

theorem heartbeatAttemptTx_local (key : layout.keys graphId nodeId) (retryNo : Int)
    (now : Timestamp) :
    Local layout graphId frame (heartbeatAttemptTx (attemptId graphId nodeId retryNo) now) := by
  refine .get_bind fun store part split => ?_
  rw [split.attempt?_eq key]
  cases found : store.attempt? (attemptId graphId nodeId retryNo) with
  | none => exact .pure _ _
  | some attempt =>
    obtain ⟨member, name⟩ := Tables.attempt?_eq_some.mp found
    have sameGraph := split.keyed.graph_eq key member name
    have only : ∀ row ∈ store.attempts.rows,
        decide (row.attemptId = attemptId graphId nodeId retryNo ∧ row.status = "RUNNING") =
          true → row.graphId = graphId := fun row rowMem hit =>
      split.keyed.graph_eq key rowMem (of_decide_eq_true hit).1
    simp only
    rw [split.countP_attempts_eq only, sameGraph, split.graph?_eq]
    refine .bind (.set (split.beatAttempts only now)) fun _ => ?_
    split
    · exact .bind (appendEvent_local _ _ _ _) fun _ => .pure _ _
    · exact .pure _ _

end UltimateCoders.Graph
