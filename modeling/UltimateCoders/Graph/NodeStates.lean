import UltimateCoders.Graph.Mirror
import UltimateCoders.Graph.Readiness
import UltimateCoders.Graph.StateMachine

/-! # States of single nodes

What the writes of the graph plane do to the state of one node. Nothing takes a node out of
the succeeded state, and only a dispatch or the first mirror write of a node makes it run.
-/

namespace UltimateCoders.Graph

open Relational Transition

def Tables.InState (tables : Tables) (graphId nodeId : String) (status : NodeStatus) : Prop :=
  ∃ node ∈ tables.nodes.rows, node.graphId = graphId ∧ node.nodeId = nodeId ∧
    node.state = status.asStr

instance (tables : Tables) (graphId nodeId : String) (status : NodeStatus) :
    Decidable (tables.InState graphId nodeId status) :=
  inferInstanceAs (Decidable (∃ _ ∈ _, _))

variable {before after : Tables} {graphId nodeId : String} {now : Timestamp}

theorem Tables.inState_of_node? {node : GraphNode} {status : NodeStatus}
    (found : before.node? graphId nodeId = some node) :
    before.InState graphId nodeId status ↔ node.state = status.asStr := by
  obtain ⟨member, rfl, rfl⟩ := Tables.node?_eq_some.mp found
  constructor
  · rintro ⟨row, rowMem, sameGraph, sameNode, state⟩
    rwa [before.nodes.eq_of_clash rowMem member ⟨sameNode, sameGraph⟩] at state
  · exact fun state => ⟨node, member, rfl, rfl, state⟩

theorem StoreTransaction.inState_succeeded (transaction : StoreTransaction)
    (succeeded : before.InState graphId nodeId .succeeded) :
    (transaction.exec before).InState graphId nodeId .succeeded := by
  obtain ⟨node, member, sameGraph, sameNode, state⟩ := succeeded
  obtain ⟨next, nextMem, nextGraph, nextNode, follows⟩ := transaction.exec_tracks before node member
  exact ⟨next, nextMem, nextGraph.trans sameGraph, nextNode.trans sameNode,
    follows.keepsTerminal .succeeded rfl state⟩

theorem Change.Applies.inState_running {change : Change} (applies : change.Applies before after)
    (running : after.InState graphId nodeId .running) :
    before.InState graphId nodeId .running ∨
      ∃ node attempt, change = .schedule node attempt ∧ node.graphId = graphId ∧
        node.nodeId = nodeId ∧ before.InState graphId nodeId .ready := by
  obtain ⟨row, member, rfl, rfl, state⟩ := running
  obtain ⟨old, oldMem, place, same⟩ := applies.exists_before member
  rw [same] at state
  rcases applies.stateAfter_cases old with kept | ⟨source, target, move, started, moved⟩
  · exact .inl ⟨old, oldMem, place.graphId.symm, place.nodeId.symm, kept.symm.trans state⟩
  · have target := NodeStatus.asStr_injective (moved.symm.trans state)
    subst target
    cases move with
    | schedule node attempt =>
      exact .inr ⟨old, attempt, rfl, place.graphId.symm, place.nodeId.symm,
        ⟨old, oldMem, place.graphId.symm, place.nodeId.symm, started⟩⟩
    | fail _ _ targets _ => rcases targets with impossible | impossible <;> cases impossible

theorem Changes.inState_running {changes : List Change} (run : Changes before changes after)
    (unscheduled : ∀ change ∈ changes, ∀ node attempt, change ≠ .schedule node attempt)
    (running : after.InState graphId nodeId .running) :
    before.InState graphId nodeId .running := by
  induction run with
  | nil => exact running
  | cons first rest ih =>
    have ran :=
      ih (fun change member => unscheduled change (List.mem_cons_of_mem _ member)) running
    rcases first.inState_running ran with ran | ⟨node, attempt, same, -⟩
    · exact ran
    · exact (unscheduled _ List.mem_cons_self node attempt same).elim

theorem Transaction.inState_running {transaction : Transaction}
    (running : (transaction.exec now before).InState graphId nodeId .running) :
    before.InState graphId nodeId .running ∨
      (∃ workerId, transaction = .scheduleAttempt graphId nodeId workerId) ∧
        before.InState graphId nodeId .ready := by
  obtain ⟨changes, effect, run⟩ := transaction.exec_changes now before
  cases effect with
  | schedule found workerId attempt =>
    cases run with
    | cons first rest =>
      cases rest
      rcases first.inState_running running with ran | ⟨node, attempt, same, rfl, rfl, ready⟩
      · exact .inl ran
      · cases same
        obtain ⟨-, rfl, rfl⟩ := Tables.node?_eq_some.mp found
        exact .inr ⟨⟨workerId, rfl⟩, ready⟩
  | cancel graphId nodeIds changes cancels =>
    refine .inl (Changes.inState_running run ?_ running)
    intro change member node attempt same
    obtain ⟨_, _, cancelled⟩ := cancels change member
    rw [cancelled] at same
    cases same
  | rollback | idle | retry | fail | commit | recompute =>
    exact .inl (Changes.inState_running run (by simp) running)

theorem inState_commitOnce {id : String} {resultRef : Option String} {node : GraphNode}
    {attempt : TaskAttempt} (wins : before.CommitWins graphId nodeId id node attempt)
    (running : node.state = NodeStatus.running.asStr) :
    ((Transaction.commitOnce graphId nodeId id resultRef).exec now before).InState graphId nodeId
      .succeeded := by
  obtain ⟨completion, middle, after, ran, committed, recomputed⟩ :=
    commitOnceTx_of_wins wins resultRef now
  rw [Transaction.exec, atomically_of_ok ran]
  obtain ⟨member, rfl, rfl⟩ := Tables.node?_eq_some.mp wins.found
  obtain ⟨rewrite, rows, spec⟩ := committed.restates
  obtain ⟨again, rowsAgain, specAgain⟩ := recomputed.restates
  have legal : transitionOk node.state NodeStatus.succeeded.asStr = true := by
    rw [running]
    decide
  have succeeded : (rewrite node).state = NodeStatus.succeeded.asStr :=
    (spec node).2.trans (if_pos ⟨rfl, legal⟩)
  refine ⟨again (rewrite node), ?_, ?_, ?_, ?_⟩
  · rw [rowsAgain, rows]
    exact List.mem_map_of_mem (List.mem_map_of_mem member)
  · exact (specAgain _).1.graphId.trans (spec node).1.graphId
  · exact (specAgain _).1.nodeId.trans (spec node).1.nodeId
  · exact (specAgain _).2.trans
      ((recomputed.stateAfter_of_finished (.inl succeeded)).trans succeeded)

theorem not_inState_failAttempt {id : String} {maxAttempts : Int} {attempt : TaskAttempt}
    (found : before.attempt? id = some attempt) (live : attempt.status = "RUNNING") :
    ¬ ((Transaction.failAttempt graphId nodeId id maxAttempts).exec now before).InState graphId
      nodeId .running := by
  intro running
  rcases Transaction.inState_running running with ran | ⟨⟨workerId, impossible⟩, -⟩
  · obtain ⟨node, member, rfl, rfl, state⟩ := ran
    have foundNode : before.node? node.graphId node.nodeId = some node :=
      Tables.node?_eq_some.mpr ⟨member, rfl, rfl⟩
    have unfinished : node.state ≠ NodeStatus.succeeded.asStr := by
      rw [state]
      decide
    obtain ⟨attemptMem, rfl⟩ := Tables.attempt?_eq_some.mp found
    obtain ⟨after, failed, applies⟩ :=
      failLiveAttempt_run foundNode attemptMem live unfinished maxAttempts now
    generalize failTarget attempt maxAttempts = target at applies
    have ran : (failAttemptTx node.graphId node.nodeId attempt.attemptId maxAttempts now).run
        before = .ok (failReport attempt maxAttempts, after) := by
      unfold failAttemptTx
      rw [StateT.run_bind, StateT.run_get, pure_bind]
      simp only [foundNode, found, if_pos (And.intro live unfinished)]
      exact failed
    rw [Transaction.exec, atomically_of_ok ran] at running
    obtain ⟨rewrite, rows, spec⟩ := applies.restates
    have stored : after.node? node.graphId node.nodeId = some (rewrite node) :=
      Tables.node?_eq_some.mpr ⟨rows ▸ List.mem_map_of_mem member, (spec node).1.graphId,
        (spec node).1.nodeId⟩
    rw [Tables.inState_of_node? stored, (spec node).2] at running
    cases applies with
    | fail _ _ _ _ targets =>
      simp only [Change.stateAfter, state, true_and] at running
      rcases targets with rfl | rfl
      · exact absurd running (by decide)
      · exact absurd running (by decide)
  · cases impossible

theorem inState_succeeded_mirror {task : Task}
    (succeeded : before.InState graphId nodeId .succeeded) :
    (upsertTaskShadow task before).2.InState graphId nodeId .succeeded := by
  unfold upsertTaskShadow
  split
  · exact succeeded
  · exact (StoreTransaction.project (projectTask task) true false).inState_succeeded succeeded

/-- A snapshot gives the running state to subtasks that were dispatched. -/
theorem Task.status_of_running {task : Task} {subtask : Subtask}
    (running : task.nodeState subtask = NodeStatus.running.asStr) :
    subtask.status = .assigned ∨ subtask.status = .inProgress := by
  have token : nodeStateToken subtask.status.debug = NodeStatus.running.asStr := by
    unfold Task.nodeState nodeStatusOfSubtask dependencyAwareState at running
    dsimp only at running
    split at running
    · exact running
    · split at running
      · exact absurd running (by decide)
      · exact absurd running (by decide)
  revert token
  cases subtask.status <;> decide

theorem inState_running_mirror {task : Task}
    (running : (upsertTaskShadow task before).2.InState graphId nodeId .running) :
    before.InState graphId nodeId .running ∨
      (task.id = graphId ∧ before.node? graphId nodeId = none ∧ ∃ subtask ∈ task.subtasks,
        subtask.id = nodeId ∧ task.nodeState subtask = NodeStatus.running.asStr) := by
  cases valid : graphScopeIsValid task.projectId with
  | false =>
    rw [upsertTaskShadow_of_invalid valid] at running
    exact .inl running
  | true =>
    obtain ⟨stats, -, written⟩ := upsertTaskShadow_of_valid valid before
    obtain ⟨row, member, rfl, rfl, state⟩ := running
    rcases written.node_cases member with ⟨node, nodeMem, same⟩ | ⟨sameGraph, fresh, subtask,
      subtaskMem, sameNode, given⟩
    · exact .inl ⟨node, nodeMem, same.graphId.symm, same.nodeId.symm, same.state.symm.trans state⟩
    · rw [sameGraph]
      exact .inr ⟨rfl, fresh, subtask, subtaskMem, sameNode, given.trans state⟩

end UltimateCoders.Graph
