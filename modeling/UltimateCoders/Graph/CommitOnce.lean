import UltimateCoders.Graph.Snapshot

/-! # The commit-once law

What the attempt lifecycle guarantees for every node after an import and any
sequence of verbs: one running attempt exactly while the node runs, one
completion exactly once it succeeded, and increasing fence tokens.
-/

namespace UltimateCoders.Graph

open Relational Transition

/-- What the attempts and completions of a node say about its state. -/
structure Tables.CommitOnceAt (tables : Tables) (node : GraphNode) : Prop where
  /-- One running attempt while the node runs, none otherwise. -/
  running : ((tables.attemptsOf node.graphId node.nodeId).countP fun attempt =>
    attempt.status = "RUNNING") = if node.state = NodeStatus.running.asStr then 1 else 0
  /-- A completion exactly when the node succeeded. -/
  completed : (∃ completion ∈ tables.completions.rows, completion.nodeId = node.nodeId) ↔
    node.state = NodeStatus.succeeded.asStr
  /-- The winner is a succeeded attempt of the node. -/
  winner : ∀ completion ∈ tables.completions.rows, completion.nodeId = node.nodeId →
    ∃ attempt ∈ tables.attemptsOf node.graphId node.nodeId,
      attempt.attemptId = completion.winningAttemptId ∧ attempt.status = "SUCCEEDED"
  /-- Attempts have different retry numbers. -/
  retries : (tables.attemptsOf node.graphId node.nodeId).Pairwise fun first second =>
    first.retryNo ≠ second.retryNo
  /-- A dispatched attempt carries a larger fence token than any earlier one. -/
  epochs : (tables.attemptsOf node.graphId node.nodeId).Pairwise fun earlier later =>
    ∀ epoch, later.workerEpoch = some epoch → earlier.workerEpoch.getD 0 < epoch

theorem mem_attemptsOf {tables : Tables} {graphId nodeId : String} {attempt : TaskAttempt} :
    attempt ∈ tables.attemptsOf graphId nodeId ↔ attempt ∈ tables.attempts.rows ∧
      attempt.graphId = graphId ∧ attempt.nodeId = nodeId := by
  rw [Tables.attemptsOf, List.mem_filter, decide_eq_true_eq]

/-- A consistent graph obeys the law at each of its nodes. -/
theorem Consistent.commitOnceAt {graphId : String} {tables : Tables}
    (consistent : Consistent graphId tables) {node : GraphNode}
    (member : node ∈ tables.nodes.rows) : tables.CommitOnceAt node := by
  have sameGraph := consistent.nodeGraph node member
  have ofNode : ∀ attempt, attempt ∈ tables.attemptsOf node.graphId node.nodeId ↔
      attempt ∈ tables.attempts.rows ∧ attempt.nodeId = node.nodeId := by
    intro attempt
    rw [mem_attemptsOf, sameGraph]
    constructor
    · rintro ⟨attemptMem, -, key⟩
      exact ⟨attemptMem, key⟩
    · rintro ⟨attemptMem, key⟩
      exact ⟨attemptMem, consistent.attemptGraph attempt attemptMem, key⟩
  refine {
    running := ?_
    completed := (consistent.completed node member).symm
    winner := ?_
    retries := ?_
    epochs := ?_ }
  · by_cases runs : node.state = NodeStatus.running.asStr
    · obtain ⟨attempt, attemptMem, key, live⟩ := (consistent.running node member).mp runs
      rw [if_pos runs, Tables.attemptsOf, List.countP_filter]
      refine tables.attempts.countP_eq_one attemptMem fun stored storedMem => ?_
      simp only [Bool.and_eq_true, decide_eq_true_eq]
      constructor
      · rintro ⟨storedLive, -, storedKey⟩
        exact consistent.single stored storedMem attempt attemptMem (storedKey.trans key.symm)
          storedLive live
      · rintro rfl
        exact ⟨live, (consistent.attemptGraph stored storedMem).trans sameGraph.symm, key⟩
    · rw [if_neg runs, List.countP_eq_zero]
      intro attempt listed
      rw [decide_eq_true_eq]
      intro live
      obtain ⟨attemptMem, key⟩ := (ofNode attempt).mp listed
      exact runs ((consistent.running node member).mpr ⟨attempt, attemptMem, key, live⟩)
  · intro completion completionMem key
    obtain ⟨attempt, attemptMem, name, sameNode, succeeded⟩ :=
      consistent.winner completion completionMem
    exact ⟨attempt, (ofNode attempt).mpr ⟨attemptMem, sameNode.trans key⟩, name, succeeded⟩
  · refine (tables.attempts.distinct.filter _).imp_of_mem ?_
    intro first second firstMem secondMem apart same
    have firstKey := (mem_attemptsOf.mp firstMem).2.2
    have secondKey := (mem_attemptsOf.mp secondMem).2.2
    exact apart (.inr ⟨firstKey.trans secondKey.symm, same⟩)
  · refine (consistent.epochs.filter _).imp_of_mem ?_
    intro earlier later earlierMem laterMem increases
    have earlierKey := (mem_attemptsOf.mp earlierMem).2.2
    have laterKey := (mem_attemptsOf.mp laterMem).2.2
    exact increases (earlierKey.trans laterKey.symm)

theorem scheduleAttempt_epoch {before after : Tables} {graphId nodeId id : String}
    {workerId : Option String} {now : Timestamp}
    (ran : (Verb.scheduleAttempt graphId nodeId workerId).exec now before =
      (.ok (.attempt (some id)), after)) :
    ∃ attempt ∈ after.attemptsOf graphId nodeId, attempt.attemptId = id ∧
      ∃ epoch, attempt.workerEpoch = some epoch ∧
        ∀ earlier ∈ before.attemptsOf graphId nodeId, earlier.workerEpoch.getD 0 < epoch := by
  rw [Verb.exec, wrap] at ran
  cases run : (scheduleAttemptTx graphId nodeId workerId now).run before with
  | error failure =>
    rw [atomically_of_error run] at ran
    cases ran
  | ok pair =>
    obtain ⟨result, tables⟩ := pair
    rw [atomically_of_ok run] at ran
    cases ran
    rcases scheduleAttemptTx_changes run with ⟨impossible, -⟩ | ⟨node, attempt, found, name, applies⟩
    · cases impossible
    · cases name
      obtain ⟨-, rfl, rfl⟩ := Tables.node?_eq_some.mp found
      cases applies with
      | schedule member ready sameGraph sameNode identity live retryNo workerEpoch free nodes
          attempts completions =>
          refine ⟨attempt, mem_attemptsOf.mpr ⟨?_, sameGraph, sameNode⟩, rfl, _, workerEpoch,
            fun earlier listed => lt_nextWorkerEpoch listed⟩
          rw [attempts]
          exact List.mem_append_right _ List.mem_cons_self

/-- A verb called at a time, with attempt ids that belong to their node. -/
def lifecycleStep (before : Tables) (call : Timestamp × Verb) (after : Tables) : Prop :=
  call.2.Owned before ∧ (call.2.exec call.1 before).2 = after

/-- Every run of verbs keeps a consistent graph consistent. -/
theorem Consistent.run {graphId : String} {source target : Tables}
    {calls : List (Timestamp × Verb)} (run : Run lifecycleStep source calls target)
    (consistent : Consistent graphId source) : Consistent graphId target := by
  refine run.invariant (fun _ => True) ?_ (fun _ _ => trivial) consistent
  rintro before ⟨now, verb⟩ after holds - ⟨owned, rfl⟩
  exact holds.verb owned now

theorem consistent_importTask {task : Task} (coherent : task.Coherent) :
    Consistent task.id (importTask task .empty) := by
  have safe : task.SafeFor .empty := {
    coherent := coherent
    succeeded := by
      intro subtask _ _ node member
      exact (List.not_mem_nil member).elim
    running := by
      rintro subtask _ _ ⟨node, member, -⟩
      exact (List.not_mem_nil member).elim }
  exact (consistent_empty task.id).of_written safe (written_importTask task .empty)

/-- **The commit-once law.** After an import of a coherent task and any sequence
of verbs, every node obeys the law, and whatever a dispatch returns next is
fenced off from the attempts before it. -/
theorem commitOnce_of_run {task : Task} (coherent : task.Coherent)
    {calls : List (Timestamp × Verb)} {target : Tables}
    (run : Run lifecycleStep (importTask task .empty) calls target) :
    (∀ node ∈ target.nodes.rows, target.CommitOnceAt node) ∧
      ∀ nodeId workerId now id after,
        (Verb.scheduleAttempt task.id nodeId workerId).exec now target =
          (.ok (.attempt (some id)), after) →
        ∃ attempt ∈ after.attemptsOf task.id nodeId, attempt.attemptId = id ∧
          ∃ epoch, attempt.workerEpoch = some epoch ∧
            ∀ earlier ∈ target.attemptsOf task.id nodeId,
              earlier.workerEpoch.getD 0 < epoch := by
  have consistent := Consistent.run run (consistent_importTask coherent)
  exact ⟨fun node member => consistent.commitOnceAt member,
    fun _ _ _ _ _ ran => scheduleAttempt_epoch ran⟩

/-- A subtask as the gateway creates it. -/
def pendingSubtask (id : String) (dependsOn : List String) : Subtask where
  id := id
  status := .pending
  assignedWorker := none
  dependsOn := dependsOn
  result := none
  effectClass := .requiresWorker
  requiredCapabilities := []
  retryCount := 0

/-- Two subtasks, the second waiting for the first. -/
def chainTask : Task where
  id := "g"
  projectId := "p"
  status := .inProgress
  subtasks := [pendingSubtask "a" [], pendingSubtask "b" ["a"]]
  createdAt := 0
  updatedAt := 0

theorem commitOnce_of_run_chainTask :
    ∃ target, Run lifecycleStep (importTask chainTask .empty)
      [(1, .scheduleAttempt "g" "a" none), (2, .commitOnce "g" "a" "g:a:0" none)] target ∧
      target.completions.rows.length = 1 ∧
      ∀ node ∈ target.nodes.rows, target.CommitOnceAt node := by
  have run : Run lifecycleStep (importTask chainTask .empty)
      [(1, .scheduleAttempt "g" "a" none), (2, .commitOnce "g" "a" "g:a:0" none)] _ :=
    .cons ⟨trivial, rfl⟩ (.cons ⟨by unfold Verb.Owned Tables.Owns; decide, rfl⟩ (.nil _))
  exact ⟨_, run, by decide, (commitOnce_of_run (Task.coherent_of_nodup (by decide)) run).1⟩

/-- Two subtasks under one id, one pending and one completed. -/
def duplicateTask : Task :=
  { chainTask with
    subtasks := [pendingSubtask "a" [], { pendingSubtask "a" [] with status := .completed }] }

/-- The law fails for tasks whose subtasks disagree under one id: the node row
comes from the first subtask, the completion from the second. -/
theorem commitOnce_fails_duplicateTask :
    ¬ ∀ (task : Task) (calls : List (Timestamp × Verb)) (target : Tables),
      Run lifecycleStep (importTask task .empty) calls target →
        ∀ node ∈ target.nodes.rows, target.CommitOnceAt node := by
  intro law
  have completed : ∀ node ∈ (importTask duplicateTask .empty).nodes.rows,
      (∃ completion ∈ (importTask duplicateTask .empty).completions.rows,
        completion.nodeId = node.nodeId) ↔ node.state = NodeStatus.succeeded.asStr :=
    fun node member => (law duplicateTask [] _ (.nil _) node member).completed
  exact absurd completed (by decide)

end UltimateCoders.Graph
