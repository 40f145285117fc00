import UltimateCoders.Graph.CommitOnce

/-! # Mirror writes and execution history

A mirror write guards the node row only: attempts and completions of the same
snapshot are inserted by statements of their own. It forges no history exactly
when the tables back the snapshot, and as long as every mirrored snapshot is
backed, the live attempt of a running node commits.
-/

namespace UltimateCoders.Graph

open Relational Transition

/-- No history is forged for a stored node: a completion is added only once it
succeeded, a running attempt only while it runs without one. -/
structure NoForgery (before after : Tables) : Prop where
  completions : ∀ completion ∈ after.completions.rows, completion ∉ before.completions.rows →
    ∀ node ∈ before.nodes.rows, node.graphId = completion.graphId →
      node.nodeId = completion.nodeId → node.state = NodeStatus.succeeded.asStr
  attempts : ∀ attempt ∈ after.attempts.rows, attempt ∉ before.attempts.rows →
    attempt.status = "RUNNING" → ∀ node ∈ before.nodes.rows, node.graphId = attempt.graphId →
      node.nodeId = attempt.nodeId →
        node.state = NodeStatus.running.asStr ∧ ∀ other ∈ before.attempts.rows,
          other.graphId = node.graphId → other.nodeId = node.nodeId → other.status ≠ "RUNNING"

theorem NoForgery.refl (tables : Tables) : NoForgery tables tables :=
  ⟨fun _ member absent => (absent member).elim, fun _ member absent => (absent member).elim⟩

/-- The commit of a running node's only running attempt wins. -/
def Tables.LiveCommitWins (tables : Tables) : Prop :=
  ∀ node ∈ tables.nodes.rows, node.state = NodeStatus.running.asStr →
    ∀ attempt ∈ tables.attempts.rows, attempt.graphId = node.graphId →
      attempt.nodeId = node.nodeId → attempt.status = "RUNNING" →
        ∀ resultRef now, ((Verb.commitOnce node.graphId node.nodeId attempt.attemptId
          resultRef).exec now tables).1 = .ok (.flag true)

theorem Consistent.liveCommitWins {graphId : String} {tables : Tables}
    (consistent : Consistent graphId tables) : tables.LiveCommitWins := by
  intro node member runs attempt attemptMem sameGraph sameNode live resultRef now
  have unfinished : node.state ≠ NodeStatus.succeeded.asStr := by
    rw [runs]
    decide
  have wins : tables.CommitWins node.graphId node.nodeId attempt.attemptId node attempt := {
    found := Tables.node?_eq_some.mpr ⟨member, rfl, rfl⟩
    foundAttempt := Tables.attempt?_eq_some.mpr ⟨attemptMem, rfl⟩
    unfinished := unfinished
    running := live
    uncommitted := fun completion completionMem same =>
      unfinished ((consistent.completed node member).mpr ⟨completion, completionMem, same⟩) }
  obtain ⟨completion, middle, after, ran, -, -⟩ := commitOnceTx_of_wins wins resultRef now
  rw [Verb.exec, wrap, atomically_of_ok ran]
  rfl

theorem upsertTaskShadow_of_invalid {task : Task} (invalid : graphScopeIsValid task.projectId = false)
    (before : Tables) : (upsertTaskShadow task before).2 = before := by
  simp only [upsertTaskShadow, invalid, Bool.not_false, ↓reduceIte]

theorem upsertTaskShadow_of_valid {task : Task} (valid : graphScopeIsValid task.projectId = true)
    (before : Tables) :
    ∃ stats, (upsertTaskShadow task before).1 = .ok stats ∧
      Written (projectTask task) before (upsertTaskShadow task before).2 := by
  simp only [upsertTaskShadow, valid, Bool.not_true, Bool.false_eq_true, ↓reduceIte]
  exact writeProjection_projectTask task true false before

section Forgery

variable {task : Task} {before after : Tables} (consistent : Consistent task.id before)
  (written : Written (projectTask task) before after)

include consistent written

theorem NoForgery.succeeded (clean : NoForgery before after) {subtask : Subtask}
    (member : subtask ∈ task.subtasks)
    (succeeded : task.nodeState subtask = NodeStatus.succeeded.asStr) {node : GraphNode}
    (nodeMem : node ∈ before.nodes.rows) (key : node.nodeId = subtask.id) :
    node.state = NodeStatus.succeeded.asStr := by
  obtain ⟨row, offered, offeredRow⟩ := Task.exists_offeredCompletion member succeeded
  obtain ⟨stored, inserted, clashes⟩ :=
    before.completions.exists_clash_insertAllOrIgnore task.offeredCompletions offered
  have storedMem : stored ∈ after.completions.rows := by
    rw [written.completions]
    exact inserted
  have sameNode : node.nodeId = stored.nodeId :=
    key.trans (offeredRow.nodeId.symm.trans (Eq.symm clashes))
  by_cases old : stored ∈ before.completions.rows
  · exact (consistent.completed node nodeMem).mpr ⟨stored, old, sameNode.symm⟩
  · obtain ⟨added, completions, origin⟩ := written.completions_append
    have new : stored ∈ added := by
      rw [completions] at storedMem
      exact (List.mem_append.mp storedMem).resolve_left old
    obtain ⟨other, -, storedRow⟩ := Task.exists_of_mem_offeredCompletions (origin stored new).1
    exact clean.completions stored storedMem old node nodeMem
      ((consistent.nodeGraph node nodeMem).trans storedRow.graphId.symm) sameNode

theorem NoForgery.running (coherent : task.Coherent) (clean : NoForgery before after)
    {subtask : Subtask} (member : subtask ∈ task.subtasks)
    (running : task.nodeState subtask = NodeStatus.running.asStr)
    (present : before.HasNode subtask.id) :
    ∃ attempt ∈ before.attempts.rows,
      attempt.attemptId = attemptId task.id subtask.id (retryNoOf subtask.retryCount) := by
  obtain ⟨node, nodeMem, key⟩ := present
  obtain ⟨row, offered, offeredRow⟩ :=
    Task.exists_offeredAttempt member (Task.tried_of_running running)
  obtain ⟨stored, inserted, clashes⟩ :=
    before.attempts.exists_clash_insertAllOrIgnore task.offeredAttempts offered
  have storedMem : stored ∈ after.attempts.rows := by
    rw [written.attempts]
    exact inserted
  by_cases old : stored ∈ before.attempts.rows
  · refine ⟨stored, old, ?_⟩
    rcases clashes with sameId | ⟨sameNode, sameRetry⟩
    · exact sameId.trans offeredRow.attemptId
    · rw [consistent.attemptName stored old, sameNode, sameRetry, offeredRow.nodeId,
        offeredRow.retryNo]
  · obtain ⟨added, attempts, origin⟩ := written.attempts_append
    have new : stored ∈ added := by
      rw [attempts] at storedMem
      exact (List.mem_append.mp storedMem).resolve_left old
    obtain ⟨other, otherMem, storedRow⟩ :=
      Task.exists_of_mem_offeredAttempts (origin stored new).1
    have sameId : other.id = subtask.id := by
      rcases clashes with sameId | ⟨sameNode, -⟩
      · rw [storedRow.attemptId, offeredRow.attemptId] at sameId
        exact nodeId_eq_of_attemptId_eq sameId
      · exact storedRow.nodeId.symm.trans (sameNode.trans offeredRow.nodeId)
    have live : stored.status = "RUNNING" := storedRow.status.trans
      ((coherent subtask member other otherMem sameId.symm).1 running).1
    obtain ⟨runs, idle⟩ := clean.attempts stored storedMem old live node nodeMem
      ((consistent.nodeGraph node nodeMem).trans storedRow.graphId.symm)
      (key.trans (sameId.symm.trans storedRow.nodeId.symm))
    obtain ⟨attempt, attemptMem, sameNode, attemptLive⟩ :=
      (consistent.running node nodeMem).mp runs
    exact (idle attempt attemptMem ((consistent.attemptGraph attempt attemptMem).trans
      (consistent.nodeGraph node nodeMem).symm) sameNode attemptLive).elim

theorem Task.SafeFor.noForgery (safe : task.SafeFor before) : NoForgery before after := by
  obtain ⟨addedAttempts, attempts, attemptOrigin⟩ := written.attempts_append
  obtain ⟨addedCompletions, completions, completionOrigin⟩ := written.completions_append
  constructor
  · intro completion member absent node nodeMem _ sameNode
    rw [completions] at member
    obtain ⟨offered, free⟩ := completionOrigin completion
      ((List.mem_append.mp member).resolve_left absent)
    exact (safe.fresh_of_completion consistent offered free ⟨node, nodeMem, sameNode⟩).elim
  · intro attempt member absent live node nodeMem _ sameNode
    rw [attempts] at member
    obtain ⟨offered, free⟩ := attemptOrigin attempt
      ((List.mem_append.mp member).resolve_left absent)
    exact (safe.fresh_of_running offered free live ⟨node, nodeMem, sameNode⟩).elim

theorem noForgery_iff_backedBy (coherent : task.Coherent) :
    NoForgery before after ↔ task.BackedBy before := by
  constructor
  · intro clean
    exact ⟨fun _ member succeeded _ nodeMem key =>
        clean.succeeded consistent written member succeeded nodeMem key,
      fun _ member running present =>
        clean.running consistent written coherent member running present⟩
  · intro backed
    exact Task.SafeFor.noForgery consistent written ⟨backed, coherent⟩

end Forgery

/-- A write to the tables of a graph: a verb at a time, or a mirrored snapshot. -/
inductive GraphWrite where
  | call (now : Timestamp) (verb : Verb)
  | mirror (task : Task)

/-- Verbs are owned and snapshots are of the graph. -/
def mirroredStep (graphId : String) (before : Tables) (write : GraphWrite) (after : Tables) : Prop :=
  match write with
  | .call now verb => verb.Owned before ∧ (verb.exec now before).2 = after
  | .mirror task => task.id = graphId ∧ (upsertTaskShadow task before).2 = after

/-- A write is backed when it is a verb or mirrors a safe snapshot. -/
def GraphWrite.BackedBy (write : GraphWrite) (tables : Tables) : Prop :=
  match write with
  | .call _ _ => True
  | .mirror task => task.SafeFor tables

/-- Steps that mirror only safe snapshots. -/
def backedStep (graphId : String) (before : Tables) (write : GraphWrite) (after : Tables) : Prop :=
  write.BackedBy before ∧ mirroredStep graphId before write after

theorem Consistent.backedRun {graphId : String} {source target : Tables}
    {writes : List GraphWrite} (run : Run (backedStep graphId) source writes target)
    (consistent : Consistent graphId source) : Consistent graphId target := by
  refine run.invariant (fun _ => True) ?_ (fun _ _ => trivial) consistent
  rintro before write after holds - ⟨backed, step⟩
  cases write with
  | call now verb =>
    obtain ⟨owned, rfl⟩ := step
    exact holds.verb owned now
  | mirror task =>
    obtain ⟨rfl, rfl⟩ := step
    cases valid : graphScopeIsValid task.projectId with
    | false =>
      rw [upsertTaskShadow_of_invalid valid]
      exact holds
    | true =>
      obtain ⟨stats, -, written⟩ := upsertTaskShadow_of_valid valid before
      exact holds.of_written backed written

/-- **Backed mirror writes forge no history.** After an import and any
interleaving of verbs with backed mirror writes, the live attempt of a running
node still commits, and a coherent snapshot of the graph is mirrored without
forgery exactly when it is refused for its scope or the tables back it. -/
theorem mirror_of_backedRun {imported : Task} (coherent : imported.Coherent)
    {writes : List GraphWrite} {target : Tables}
    (run : Run (backedStep imported.id) (importTask imported .empty) writes target) :
    target.LiveCommitWins ∧ ∀ task : Task, task.id = imported.id → task.Coherent →
      (NoForgery target (upsertTaskShadow task target).2 ↔
        graphScopeIsValid task.projectId = false ∨ task.BackedBy target) := by
  have consistent := Consistent.backedRun run (consistent_importTask coherent)
  refine ⟨consistent.liveCommitWins, ?_⟩
  intro task sameGraph taskCoherent
  rw [← sameGraph] at consistent
  cases valid : graphScopeIsValid task.projectId with
  | false =>
    rw [upsertTaskShadow_of_invalid valid]
    exact iff_of_true (.refl target) (.inl rfl)
  | true =>
    obtain ⟨stats, -, written⟩ := upsertTaskShadow_of_valid valid target
    rw [noForgery_iff_backedBy consistent written taskCoherent]
    simp only [Bool.true_eq_false, false_or]

/-- The snapshot in which the first subtask of the chain runs. -/
def runningChain : Task :=
  { chainTask with
    subtasks := [{ pendingSubtask "a" [] with status := .inProgress }, pendingSubtask "b" ["a"]] }

theorem mirror_of_backedRun_chainTask :
    ∃ target, Run (backedStep chainTask.id) (importTask chainTask .empty)
      [.call 1 (.scheduleAttempt "g" "a" none), .mirror runningChain] target ∧
      target.LiveCommitWins := by
  have coherent : chainTask.Coherent := Task.coherent_of_nodup (by decide)
  have run : Run (backedStep chainTask.id) (importTask chainTask .empty)
      [.call 1 (.scheduleAttempt "g" "a" none), .mirror runningChain] _ :=
    .cons ⟨trivial, trivial, rfl⟩ (.cons ⟨⟨⟨by decide, by unfold Tables.HasNode; decide⟩,
      Task.coherent_of_nodup (by decide)⟩, rfl, rfl⟩ (.nil _))
  exact ⟨_, run, (mirror_of_backedRun coherent run).1⟩

/-- The snapshot in which the first subtask of the chain is done. -/
def doneChain : Task :=
  { chainTask with
    subtasks := [{ pendingSubtask "a" [] with status := .completed }, pendingSubtask "b" ["a"]] }

/-- A snapshot that runs ahead of the commit forges a completion, and the live
attempt then loses. -/
theorem mirror_forges_doneChain :
    ∃ before after, Run (mirroredStep "g") (importTask chainTask .empty)
        [.call 1 (.scheduleAttempt "g" "a" none)] before ∧
      mirroredStep "g" before (.mirror doneChain) after ∧ ¬ NoForgery before after ∧
      ¬ after.LiveCommitWins := by
  refine ⟨_, _, .cons ⟨trivial, rfl⟩ (.nil _), ⟨rfl, rfl⟩, ?_, ?_⟩
  · intro clean
    exact absurd clean.completions (by decide)
  · intro wins
    have committed := fun node member runs attempt attemptMem sameGraph sameNode live =>
      wins node member runs attempt attemptMem sameGraph sameNode live none 2
    exact absurd committed (by decide)

end UltimateCoders.Graph
