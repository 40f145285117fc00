import UltimateCoders.Graph.Changes

/-! # Verbs as sequences of transactions

A verb is one transaction, except for the sweeps, which fail the attempts they
scanned one transaction after the other. Every transaction is a short list of
changes.
-/

namespace UltimateCoders.Graph

open Relational Transition

/-- The lifecycle transactions with their arguments. -/
inductive Transaction where
  | scheduleAttempt (graphId nodeId : String) (workerId : Option String)
  | heartbeatAttempt (attemptId : String)
  | commitOnce (graphId nodeId winningAttemptId : String) (resultRef : Option String)
  | failAttempt (graphId nodeId attemptId : String) (maxAttempts : Int)
  | cancelNodes (graphId : String) (nodeIds : List String)
  | retryFailedNode (graphId nodeId : String)
  | recomputeReady (graphId : String)
  deriving DecidableEq

/-- The tables after a transaction, committed or rolled back. -/
def Transaction.exec (now : Timestamp) : Transaction → Tables → Tables
  | scheduleAttempt graphId nodeId workerId, tables =>
    (atomically (scheduleAttemptTx graphId nodeId workerId now) tables).2
  | heartbeatAttempt attemptId, tables => (atomically (heartbeatAttemptTx attemptId now) tables).2
  | commitOnce graphId nodeId winningAttemptId resultRef, tables =>
    (atomically (commitOnceTx graphId nodeId winningAttemptId resultRef now) tables).2
  | failAttempt graphId nodeId attemptId maxAttempts, tables =>
    (atomically (failAttemptTx graphId nodeId attemptId maxAttempts now) tables).2
  | cancelNodes graphId nodeIds, tables =>
    (atomically (cancelNodesTx graphId now nodeIds) tables).2
  | retryFailedNode graphId nodeId, tables =>
    (atomically (retryFailedNodeTx graphId nodeId now) tables).2
  | recomputeReady graphId, tables => (atomically (recomputeReadyTx graphId none now) tables).2

def Transaction.execAll (now : Timestamp) (transactions : List Transaction) (tables : Tables) :
    Tables :=
  transactions.foldl (fun current transaction => transaction.exec now current) tables

/-- The changes a transaction may consist of when it starts from `before`. -/
inductive Transaction.Effect (before : Tables) : Transaction → List Change → Prop where
  | rollback (transaction : Transaction) : Effect before transaction []
  | idle (transaction : Transaction) : Effect before transaction [.idle]
  | schedule {graphId nodeId : String} {node : GraphNode}
      (found : before.node? graphId nodeId = some node) (workerId : Option String)
      (attempt : TaskAttempt) :
      Effect before (.scheduleAttempt graphId nodeId workerId) [.schedule node attempt]
  | retry {graphId nodeId : String} {node : GraphNode}
      (found : before.node? graphId nodeId = some node) :
      Effect before (.retryFailedNode graphId nodeId) [.retry node]
  | fail {graphId nodeId id : String} {node : GraphNode} {attempt : TaskAttempt}
      (found : before.node? graphId nodeId = some node)
      (foundAttempt : before.attempt? id = some attempt) (maxAttempts : Int)
      (target : NodeStatus) :
      Effect before (.failAttempt graphId nodeId id maxAttempts) [.fail node attempt target]
  | commit {graphId nodeId id : String} {node : GraphNode} {attempt : TaskAttempt}
      (wins : before.CommitWins graphId nodeId id node attempt) (resultRef : Option String)
      (completion : NodeCompletion) :
      Effect before (.commitOnce graphId nodeId id resultRef)
        [.commit node attempt completion, .recompute graphId]
  | cancel (graphId : String) (nodeIds : List String) (changes : List Change)
      (cancels : ∀ change ∈ changes, ∃ node attempt, change = .cancel node attempt) :
      Effect before (.cancelNodes graphId nodeIds) changes
  | recompute (graphId : String) : Effect before (.recomputeReady graphId) [.recompute graphId]

private theorem changes_singleton {before after : Tables} {change : Change}
    (applies : change.Applies before after) : Changes before [change] after :=
  .cons applies (.nil after)

/-- Every transaction is a run of the changes it may consist of. -/
theorem Transaction.exec_changes (now : Timestamp) (transaction : Transaction) (before : Tables) :
    ∃ changes, Transaction.Effect before transaction changes ∧
      Changes before changes (transaction.exec now before) := by
  cases transaction with
  | scheduleAttempt graphId nodeId workerId =>
    cases ran : (scheduleAttemptTx graphId nodeId workerId now).run before with
    | error failure =>
      rw [exec, atomically_of_error ran]
      exact ⟨[], .rollback _, .nil before⟩
    | ok pair =>
      rw [exec, atomically_of_ok ran]
      rcases scheduleAttemptTx_changes ran with ⟨-, same⟩ | ⟨node, attempt, found, -, applies⟩
      · rw [same]
        exact ⟨[], .rollback _, .nil before⟩
      · exact ⟨_, .schedule found workerId attempt, changes_singleton applies⟩
  | heartbeatAttempt attemptId =>
    obtain ⟨result, after, ran, applies⟩ := heartbeatAttemptTx_changes attemptId now before
    rw [exec, atomically_of_ok ran]
    exact ⟨_, .idle _, changes_singleton applies⟩
  | commitOnce graphId nodeId id resultRef =>
    by_cases wins : ∃ node attempt, before.CommitWins graphId nodeId id node attempt
    · obtain ⟨node, attempt, wins⟩ := wins
      obtain ⟨completion, middle, after, ran, committed, recomputed⟩ :=
        commitOnceTx_of_wins wins resultRef now
      rw [exec, atomically_of_ok ran]
      exact ⟨_, .commit wins resultRef completion, .cons committed (changes_singleton recomputed)⟩
    · obtain ⟨after, ran, same⟩ := commitOnceTx_of_not_wins wins resultRef now
      rw [exec, atomically_of_ok ran]
      exact ⟨_, .idle _, changes_singleton (.idle_of_same same)⟩
  | failAttempt graphId nodeId id maxAttempts =>
    obtain ⟨outcome, after, ran, effect⟩ :=
      failAttemptTx_changes graphId nodeId id maxAttempts now before
    rw [exec, atomically_of_ok ran]
    rcases effect with same | ⟨node, attempt, target, found, foundAttempt, applies⟩
    · exact ⟨_, .idle _, changes_singleton (.idle_of_same same)⟩
    · exact ⟨_, .fail found foundAttempt maxAttempts target, changes_singleton applies⟩
  | cancelNodes graphId nodeIds =>
    obtain ⟨result, after, changes, ran, run, cancels⟩ :=
      cancelNodesTx_changes graphId now nodeIds before
    rw [exec, atomically_of_ok ran]
    exact ⟨changes, .cancel graphId nodeIds changes cancels, run⟩
  | retryFailedNode graphId nodeId =>
    obtain ⟨result, after, ran, effect⟩ := retryFailedNodeTx_changes graphId nodeId now before
    rw [exec, atomically_of_ok ran]
    rcases effect with same | ⟨node, found, applies⟩
    · rw [same]
      exact ⟨[], .rollback _, .nil before⟩
    · exact ⟨_, .retry found, changes_singleton applies⟩
  | recomputeReady graphId =>
    obtain ⟨flipped, after, ran, applies⟩ := recomputeReadyTx_changes graphId none now before
    rw [exec, atomically_of_ok ran]
    exact ⟨_, .recompute graphId, changes_singleton applies⟩

/-- The transaction a sweep runs on one attempt it scanned. -/
def sweepTransaction (maxAttempts : Int) (attempt : TaskAttempt) : Transaction :=
  .failAttempt attempt.graphId attempt.nodeId attempt.attemptId maxAttempts

/-- The transactions a verb runs from these tables. -/
def Verb.transactions (now : Timestamp) : Verb → Tables → List Transaction
  | scheduleAttempt graphId nodeId workerId, _ => [.scheduleAttempt graphId nodeId workerId]
  | heartbeatAttempt attemptId, _ => [.heartbeatAttempt attemptId]
  | commitOnce graphId nodeId winningAttemptId resultRef, _ =>
    [.commitOnce graphId nodeId winningAttemptId resultRef]
  | failAttempt graphId nodeId attemptId maxAttempts, _ =>
    [.failAttempt graphId nodeId attemptId maxAttempts]
  | timeoutSweep heartbeatTimeout maxAttempts, tables =>
    (tables.staleAttempts heartbeatTimeout now).map (sweepTransaction maxAttempts)
  | failRunningAttempts graphId maxAttempts, tables =>
    (tables.runningAttempts graphId).map (sweepTransaction maxAttempts)
  | cancelRunningAttempt graphId nodeId maxAttempts, tables =>
    match tables.runningAttempt graphId nodeId with
    | none => []
    | some attempt => [.failAttempt graphId nodeId attempt maxAttempts]
  | cancelNodes graphId nodeIds, _ => [.cancelNodes graphId nodeIds]
  | retryFailedNode graphId nodeId, _ => [.retryFailedNode graphId nodeId]
  | recomputeReady graphId, _ => [.recomputeReady graphId]

theorem failScanned_tables (maxAttempts : Int) (now : Timestamp) (scanned : List TaskAttempt)
    (tables : Tables) :
    ∃ swept, failScanned maxAttempts now scanned tables =
      (.ok swept, Transaction.execAll now (scanned.map (sweepTransaction maxAttempts)) tables) := by
  induction scanned generalizing tables with
  | nil => exact ⟨[], rfl⟩
  | cons attempt rest ih =>
    obtain ⟨outcome, after, ran, -⟩ := failAttemptTx_changes attempt.graphId attempt.nodeId
      attempt.attemptId maxAttempts now tables
    have head : (sweepTransaction maxAttempts attempt).exec now tables = after := by
      rw [sweepTransaction, Transaction.exec, atomically_of_ok ran]
    obtain ⟨swept, tail⟩ := ih after
    rw [Transaction.execAll, List.map_cons, List.foldl_cons, head, ← Transaction.execAll]
    unfold failScanned
    simp only [atomically_of_ok ran, tail]
    exact ⟨_, rfl⟩

theorem Verb.exec_tables (now : Timestamp) (verb : Verb) (tables : Tables) :
    (verb.exec now tables).2 = Transaction.execAll now (verb.transactions now tables) tables := by
  cases verb with
  | timeoutSweep heartbeatTimeout maxAttempts =>
    obtain ⟨swept, ran⟩ := failScanned_tables maxAttempts now
      (tables.staleAttempts heartbeatTimeout now) tables
    simp only [exec, transactions, wrap, ran]
  | failRunningAttempts graphId maxAttempts =>
    obtain ⟨swept, ran⟩ := failScanned_tables maxAttempts now
      (tables.runningAttempts graphId) tables
    simp only [exec, transactions, wrap, ran]
  | cancelRunningAttempt graphId nodeId maxAttempts =>
    simp only [exec, transactions, wrap, Graph.cancelRunningAttempt]
    cases tables.runningAttempt graphId nodeId with
    | none => rfl
    | some attempt =>
      obtain ⟨outcome, after, ran, -⟩ :=
        failAttemptTx_changes graphId nodeId attempt maxAttempts now tables
      simp only [Transaction.execAll, List.foldl_cons, List.foldl_nil, Transaction.exec,
        atomically_of_ok ran]
  | _ => rfl

end UltimateCoders.Graph
