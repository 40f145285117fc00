import UltimateCoders.Graph.Transactions
import UltimateCoders.Graph.ProjectionWrite

/-! # Attempts, completions and node states agree

The tables of one graph are consistent when a node runs exactly while it has
its one running attempt, succeeded exactly when it has a completion whose
winner is a succeeded attempt of the node, and later epochs exceed earlier ones.
Every change of a lifecycle transaction keeps the tables consistent, as long as
an attempt is failed or committed for the node it belongs to.
-/

namespace UltimateCoders.Graph

open Relational Transition List

def Tables.HasRunning (tables : Tables) (nodeId : String) : Prop :=
  ∃ attempt ∈ tables.attempts.rows, attempt.nodeId = nodeId ∧ attempt.status = "RUNNING"

open Tables

def Tables.HasCompletion (tables : Tables) (nodeId : String) : Prop :=
  ∃ completion ∈ tables.completions.rows, completion.nodeId = nodeId

def Tables.HasNode (tables : Tables) (nodeId : String) : Prop :=
  ∃ node ∈ tables.nodes.rows, node.nodeId = nodeId

/-- A dispatched attempt is fenced off from the earlier attempts of its node. A
row without an epoch counts as epoch zero. -/
def TaskAttempt.EpochIncreases (earlier later : TaskAttempt) : Prop :=
  earlier.nodeId = later.nodeId → ∀ epoch, later.workerEpoch = some epoch →
    earlier.workerEpoch.getD 0 < epoch

/-- The tables hold one graph, whose states, attempts and completions agree. -/
structure Consistent (graphId : String) (tables : Tables) : Prop where
  nodeGraph : ∀ node ∈ tables.nodes.rows, node.graphId = graphId
  attemptGraph : ∀ attempt ∈ tables.attempts.rows, attempt.graphId = graphId
  attemptNode : ∀ attempt ∈ tables.attempts.rows, tables.HasNode attempt.nodeId
  attemptName : ∀ attempt ∈ tables.attempts.rows,
    attempt.attemptId = attemptId graphId attempt.nodeId attempt.retryNo
  single : ∀ first ∈ tables.attempts.rows, ∀ second ∈ tables.attempts.rows,
    first.nodeId = second.nodeId → first.status = "RUNNING" → second.status = "RUNNING" →
      first = second
  running : ∀ node ∈ tables.nodes.rows,
    node.state = NodeStatus.running.asStr ↔ tables.HasRunning node.nodeId
  completionGraph : ∀ completion ∈ tables.completions.rows, completion.graphId = graphId
  completionNode : ∀ completion ∈ tables.completions.rows, tables.HasNode completion.nodeId
  completed : ∀ node ∈ tables.nodes.rows,
    node.state = NodeStatus.succeeded.asStr ↔ tables.HasCompletion node.nodeId
  winner : ∀ completion ∈ tables.completions.rows, ∃ attempt ∈ tables.attempts.rows,
    attempt.attemptId = completion.winningAttemptId ∧ attempt.nodeId = completion.nodeId ∧
      attempt.status = "SUCCEEDED"
  epochs : tables.attempts.rows.Pairwise TaskAttempt.EpochIncreases

theorem consistent_empty (graphId : String) : Consistent graphId .empty := by
  constructor <;> simp [empty]

variable {tables : Tables} {node : GraphNode}

variable {graphId : String} {before after : Tables} {attempt : TaskAttempt}

theorem Consistent.node_eq (consistent : Consistent graphId tables) {first second : GraphNode}
    (firstMem : first ∈ tables.nodes.rows) (secondMem : second ∈ tables.nodes.rows)
    (same : first.nodeId = second.nodeId) : first = second :=
  tables.nodes.eq_of_clash firstMem secondMem ⟨same,
    (consistent.nodeGraph first firstMem).trans (consistent.nodeGraph second secondMem).symm⟩

section

variable (consistent : Consistent graphId before)

include consistent

/-- A change that rewrites the rows in place, may end attempts and may record
completions, keeps the graph consistent when its states follow. -/
theorem Consistent.of_restated {status : TaskAttempt → String}
    (restated : Restated before after status) {rewrite : GraphNode → GraphNode}
    (nodes : after.nodes.rows = before.nodes.rows.map rewrite)
    (keys : ∀ node, (rewrite node).graphId = node.graphId ∧ (rewrite node).nodeId = node.nodeId)
    (noStart : ∀ attempt ∈ before.attempts.rows, status attempt = "RUNNING" →
      attempt.status = "RUNNING")
    (noLoss : ∀ attempt ∈ before.attempts.rows, attempt.status = "SUCCEEDED" →
      status attempt = "SUCCEEDED")
    (running : ∀ node ∈ before.nodes.rows, (rewrite node).state = NodeStatus.running.asStr ↔
      ∃ attempt ∈ before.attempts.rows, attempt.nodeId = node.nodeId ∧ status attempt = "RUNNING")
    (added : List NodeCompletion)
    (completions : after.completions.rows = before.completions.rows ++ added)
    (addedGraph : ∀ completion ∈ added, completion.graphId = graphId)
    (addedNode : ∀ completion ∈ added, before.HasNode completion.nodeId)
    (addedWinner : ∀ completion ∈ added, ∃ attempt ∈ before.attempts.rows, attempt.attemptId =
        completion.winningAttemptId ∧ attempt.nodeId = completion.nodeId ∧
        status attempt = "SUCCEEDED")
    (completed : ∀ node ∈ before.nodes.rows, (rewrite node).state = NodeStatus.succeeded.asStr ↔
      node.state = NodeStatus.succeeded.asStr ∨ ∃ completion ∈ added, completion.nodeId =
        node.nodeId) :
    Consistent graphId after := by
  obtain ⟨restate, attempts, restateSpec⟩ := restated
  have agrees := fun attempt member => (restateSpec attempt member).1
  have hasNode (nodeId : String) : after.HasNode nodeId ↔ before.HasNode nodeId := by
    simp [HasNode, nodes, keys]
  have hasRunning (nodeId : String) : after.HasRunning nodeId ↔ ∃ attempt ∈ before.attempts.rows,
      attempt.nodeId = nodeId ∧ status attempt = "RUNNING" := by
    simp only [HasRunning, attempts, mem_map, exists_exists_and_eq_and]
    refine exists_congr fun attempt => and_congr_right fun member => ?_
    rw [(agrees attempt member).nodeId, (restateSpec attempt member).2]
  exact {
    nodeGraph := by
      rw [nodes, forall_mem_map]
      exact fun node member => (keys node).1.trans (consistent.nodeGraph node member)
    attemptGraph := by
      rw [attempts, forall_mem_map]
      exact fun attempt member =>
        (agrees attempt member).graphId.trans (consistent.attemptGraph attempt member)
    attemptNode := by
      rw [attempts, forall_mem_map]
      intro attempt member
      rw [(agrees attempt member).nodeId, hasNode]
      exact consistent.attemptNode attempt member
    attemptName := by
      rw [attempts, forall_mem_map]
      intro attempt member
      have agree := agrees attempt member
      rw [agree.attemptId, agree.nodeId, agree.retryNo]
      exact consistent.attemptName attempt member
    single := by
      simp only [attempts, forall_mem_map]
      intro first firstMem second secondMem same firstLive secondLive
      rw [(agrees first firstMem).nodeId, (agrees second secondMem).nodeId] at same
      rw [(restateSpec first firstMem).2] at firstLive
      rw [(restateSpec second secondMem).2] at secondLive
      rw [consistent.single first firstMem second secondMem same
        (noStart first firstMem firstLive) (noStart second secondMem secondLive)]
    running := by
      rw [nodes, forall_mem_map]
      intro node member
      rw [running node member, hasRunning, (keys node).2]
    completionGraph := by
      rw [completions, forall_mem_append]
      exact ⟨consistent.completionGraph, addedGraph⟩
    completionNode := by
      simp only [completions, forall_mem_append, hasNode]
      exact ⟨consistent.completionNode, addedNode⟩
    completed := by
      rw [nodes, forall_mem_map]
      intro node member
      rw [completed node member, (keys node).2, consistent.completed node member]
      simp only [HasCompletion, completions, mem_append, or_and_right, exists_or]
    winner := by
      simp only [completions, attempts, forall_mem_append, mem_map, exists_exists_and_eq_and]
      constructor
      · intro completion old
        obtain ⟨attempt, member, id, nodeId, succeeded⟩ := consistent.winner completion old
        obtain ⟨agree, same⟩ := restateSpec attempt member
        exact ⟨attempt, member, agree.attemptId.trans id, agree.nodeId.trans nodeId,
          same.trans (noLoss attempt member succeeded)⟩
      · intro completion new
        obtain ⟨attempt, member, id, nodeId, succeeded⟩ := addedWinner completion new
        obtain ⟨agree, same⟩ := restateSpec attempt member
        exact ⟨attempt, member, agree.attemptId.trans id, agree.nodeId.trans nodeId,
          same.trans succeeded⟩
    epochs := by
      rw [attempts, pairwise_map]
      refine consistent.epochs.imp_of_mem ?_
      intro earlier later earlierMem laterMem increases same epoch found
      rw [(agrees earlier earlierMem).nodeId, (agrees later laterMem).nodeId] at same
      rw [(agrees later laterMem).workerEpoch] at found
      rw [(agrees earlier earlierMem).workerEpoch]
      exact increases same epoch found }

theorem Consistent.of_quiet (attempts : Restated before after TaskAttempt.status)
    (rewrite : GraphNode → GraphNode) (nodes : after.nodes.rows = before.nodes.rows.map rewrite)
    (keys : ∀ node, (rewrite node).graphId = node.graphId ∧ (rewrite node).nodeId = node.nodeId)
    (quiet : ∀ node ∈ before.nodes.rows, (rewrite node).state = node.state ∨ ∀ status :
        NodeStatus, status = .running ∨ status = .succeeded → (rewrite node).state ≠ status.asStr ∧
        node.state ≠ status.asStr)
    (completions : after.completions = before.completions) : Consistent graphId after := by
  have agree : ∀ node ∈ before.nodes.rows, ∀ status : NodeStatus,
      status = .running ∨ status = .succeeded →
        ((rewrite node).state = status.asStr ↔ node.state = status.asStr) := by
    intro node member status one
    rcases quiet node member with same | different
    · rw [same]
    · exact iff_of_false (different status one).1 (different status one).2
  refine consistent.of_restated attempts nodes keys (fun _ _ live => live)
    (fun _ _ succeeded => succeeded) ?_ [] (by rw [completions, append_nil]) (by simp) (by simp)
    (by simp) ?_
  · intro node member
    rw [agree node member .running (.inl rfl), consistent.running node member]
    rfl
  · intro node member
    rw [agree node member .succeeded (.inr rfl)]
    simp

/-- Ending the running attempt of a node, if it has one, while the node leaves
the running state keeps the graph consistent. A node that succeeds needs its
completion. -/
theorem Consistent.of_settled (member : node ∈ before.nodes.rows) {target : NodeStatus}
    (moved : Moved before after node target 1) (stops : target ≠ .running)
    (unfinished : node.state ≠ NodeStatus.succeeded.asStr) (ended : Option TaskAttempt)
    (chosen : ∀ attempt, ended = some attempt → attempt ∈ before.attempts.rows ∧
      attempt.nodeId = node.nodeId ∧ attempt.status = "RUNNING")
    (missing : ended = none → ¬ before.HasRunning node.nodeId) (final : String)
    (ends : final ≠ "RUNNING")
    (restated : Restated before after fun row => if some row = ended then final else row.status)
    (added : List NodeCompletion)
    (completions : after.completions.rows = before.completions.rows ++ added)
    (outcome : (target ≠ .succeeded ∧ added = []) ∨ (target = .succeeded ∧ final = "SUCCEEDED" ∧
      ∃ attempt completion, ended = some attempt ∧ added = [completion] ∧
      completion.graphId = graphId ∧ completion.nodeId = node.nodeId ∧
      completion.winningAttemptId = attempt.attemptId)) :
    Consistent graphId after := by
  have addedSpec : ∀ completion ∈ added, completion.graphId = graphId ∧
      completion.nodeId = node.nodeId ∧ ∃ attempt, ended = some attempt ∧
        completion.winningAttemptId = attempt.attemptId ∧ final = "SUCCEEDED" := by
    rcases outcome with ⟨-, none⟩ | ⟨-, succeeded, attempt, completion, some, one, facts⟩
    · simp [none]
    · intro other otherMem
      rw [one, mem_singleton] at otherMem
      subst otherMem
      exact ⟨facts.1, facts.2.1, attempt, some, facts.2.2, succeeded⟩
  have addedIff : ∀ nodeId, (∃ completion ∈ added, completion.nodeId = nodeId) ↔
      target = .succeeded ∧ nodeId = node.nodeId := by
    intro nodeId
    rcases outcome with ⟨other, none⟩ | ⟨same, -, attempt, completion, -, one, -, key, -⟩
    · simp [none, other]
    · simp only [one, mem_singleton, exists_eq_left, key, same, true_and]
      exact eq_comm
  have apart : ∀ row ∈ before.nodes.rows, row ≠ node → row.nodeId ≠ node.nodeId :=
    fun row rowMem different same => different (consistent.node_eq rowMem member same)
  refine consistent.of_restated restated moved ?_ ?_ ?_ ?_ added completions
    (fun completion added => (addedSpec completion added).1) ?_ ?_ ?_
  · intro row
    split
    · exact ⟨rfl, rfl⟩
    · exact ⟨rfl, rfl⟩
  · intro attempt attemptMem live
    split at live
    · exact (ends live).elim
    · exact live
  · intro attempt attemptMem succeeded
    split
    · rename_i isEnded
      have running := (chosen attempt isEnded.symm).2.2
      rw [running] at succeeded
      exact absurd succeeded (by decide)
    · exact succeeded
  · intro row rowMem
    by_cases same : row = node
    · subst same
      rw [if_pos rfl]
      refine iff_of_false (fun state => stops (NodeStatus.asStr_injective state)) ?_
      rintro ⟨attempt, attemptMem, key, live⟩
      split at live
      · exact ends live
      · rename_i notEnded
        cases found : ended with
        | none => exact missing found ⟨attempt, attemptMem, key, live⟩
        | some other =>
          obtain ⟨otherMem, otherKey, otherLive⟩ := chosen other found
          rw [found, consistent.single attempt attemptMem other otherMem
            (key.trans otherKey.symm) live otherLive] at notEnded
          exact notEnded rfl
    · rw [if_neg same, consistent.running row rowMem]
      refine exists_congr fun attempt => and_congr_right fun attemptMem =>
        and_congr_right fun key => ?_
      rw [if_neg]
      intro isEnded
      exact apart row rowMem same (key.symm.trans (chosen attempt isEnded.symm).2.1)
  · intro completion completionMem
    exact ⟨node, member, (addedSpec completion completionMem).2.1.symm⟩
  · intro completion completionMem
    obtain ⟨-, key, attempt, found, winner, succeeded⟩ := addedSpec completion completionMem
    obtain ⟨attemptMem, attemptKey, -⟩ := chosen attempt found
    exact ⟨attempt, attemptMem, winner.symm, attemptKey.trans key.symm,
      by rw [if_pos found.symm]; exact succeeded⟩
  · intro row rowMem
    rw [addedIff]
    by_cases same : row = node
    · subst same
      rw [if_pos rfl]
      simp only [GraphNode.move, NodeStatus.asStr_inj, and_true, unfinished, false_or]
    · rw [if_neg same]
      simp only [apart row rowMem same, and_false, or_false]

end

theorem lt_nextWorkerEpoch {attempts : List TaskAttempt} (member : attempt ∈ attempts) :
    attempt.workerEpoch.getD 0 < nextWorkerEpoch attempts := by
  cases found : attempt.workerEpoch with
  | none => exact Nat.succ_pos _
  | some epoch =>
    have listed : epoch ∈ attempts.filterMap TaskAttempt.workerEpoch :=
      mem_filterMap.mpr ⟨attempt, member, found⟩
    exact Nat.lt_succ_of_le (le_max?_getD_of_mem listed)

/-- A dispatch keeps the graph consistent. -/
theorem Consistent.of_schedule (consistent : Consistent graphId before)
    (applies : (Change.schedule node attempt).Applies before after) : Consistent graphId after := by
  cases applies with
  | schedule member ready sameGraph sameNode identity live retryNo workerEpoch free nodes attempts
      completions =>
    have nodes : after.nodes.rows = _ := nodes
    have nodeGraph := consistent.nodeGraph node member
    have idle : ¬ before.HasRunning node.nodeId := by
      rw [← consistent.running node member, ready]
      decide
    have apart : ∀ row ∈ before.nodes.rows, row ≠ node → row.nodeId ≠ node.nodeId :=
      fun row rowMem different same => different (consistent.node_eq rowMem member same)
    have hasNode (nodeId : String) : after.HasNode nodeId ↔ before.HasNode nodeId := by
      simp only [HasNode, nodes, mem_map, exists_exists_and_eq_and]
      refine exists_congr fun row => and_congr_right fun _ => ?_
      split <;> rfl
    have hasRunning (nodeId : String) : after.HasRunning nodeId ↔
        before.HasRunning nodeId ∨ nodeId = node.nodeId := by
      simp only [HasRunning, attempts, mem_append, mem_singleton, or_and_right,
        exists_or, exists_eq_left, sameNode, live, and_true]
      rw [eq_comm (a := nodeId)]
    exact {
      nodeGraph := by
        rw [nodes, forall_mem_map]
        intro row rowMem
        split <;> exact consistent.nodeGraph row rowMem
      attemptGraph := by
        rw [attempts, forall_mem_append, forall_mem_singleton]
        exact ⟨consistent.attemptGraph, sameGraph.trans nodeGraph⟩
      attemptNode := by
        simp only [attempts, forall_mem_append, forall_mem_singleton, hasNode]
        exact ⟨consistent.attemptNode, node, member, sameNode.symm⟩
      attemptName := by
        rw [attempts, forall_mem_append, forall_mem_singleton]
        exact ⟨consistent.attemptName, by rw [identity, nodeGraph, sameNode]⟩
      single := by
        simp only [attempts, forall_mem_append, forall_mem_singleton]
        refine ⟨fun first old => ⟨consistent.single first old, ?_⟩, ?_, fun _ _ _ => trivial⟩
        · exact fun same firstLive _ =>
            (idle ⟨first, old, same.trans sameNode, firstLive⟩).elim
        · exact fun second old same _ secondLive =>
            (idle ⟨second, old, same.symm.trans sameNode, secondLive⟩).elim
      running := by
        rw [nodes, forall_mem_map]
        intro row rowMem
        by_cases same : row = node
        · rw [if_pos same]
          have sameId : row.nodeId = node.nodeId := congrArg GraphNode.nodeId same
          exact iff_of_true rfl ((hasRunning _).mpr (.inr sameId))
        · rw [if_neg same, consistent.running row rowMem, hasRunning]
          simp only [apart row rowMem same, or_false]
      completionGraph := by
        rw [completions]
        exact consistent.completionGraph
      completionNode := by
        simp only [completions, hasNode]
        exact consistent.completionNode
      completed := by
        rw [nodes, forall_mem_map]
        intro row rowMem
        simp only [HasCompletion, completions]
        by_cases same : row = node
        · have unfinished : ¬ before.HasCompletion row.nodeId := by
            rw [← consistent.completed row rowMem, same, ready]
            decide
          rw [if_pos same]
          exact iff_of_false
            (show NodeStatus.running.asStr ≠ NodeStatus.succeeded.asStr by decide) unfinished
        · rw [if_neg same]
          exact consistent.completed row rowMem
      winner := by
        rw [completions, attempts]
        intro completion completionMem
        obtain ⟨winner, winnerMem, facts⟩ := consistent.winner completion completionMem
        exact ⟨winner, mem_append_left _ winnerMem, facts⟩
      epochs := by
        rw [attempts]
        refine pairwise_append.mpr ⟨consistent.epochs, pairwise_singleton _ _, ?_⟩
        intro earlier earlierMem later laterMem same epoch found
        rw [mem_singleton.mp laterMem] at same found
        rw [workerEpoch] at found
        cases found
        apply lt_nextWorkerEpoch
        refine mem_filter.mpr ⟨earlierMem, decide_eq_true ⟨?_, same.trans sameNode⟩⟩
        exact (consistent.attemptGraph earlier earlierMem).trans nodeGraph.symm }

/-- The attempt a change ends belongs to the node it is ended for. -/
def Change.Owned : Change → Prop
  | .fail node attempt _ => attempt.nodeId = node.nodeId
  | .commit node attempt _ => attempt.nodeId = node.nodeId
  | _ => True

theorem Consistent.running_of_attempt (consistent : Consistent graphId tables)
    (member : node ∈ tables.nodes.rows) (attemptMem : attempt ∈ tables.attempts.rows)
    (owned : attempt.nodeId = node.nodeId) (live : attempt.status = "RUNNING") :
    node.state = NodeStatus.running.asStr :=
  (consistent.running node member).mpr ⟨attempt, attemptMem, owned, live⟩

/-- Every change keeps the graph consistent. -/
theorem Consistent.applies {change : Change} (consistent : Consistent graphId before)
    (owned : change.Owned) (applies : change.Applies before after) : Consistent graphId after := by
  cases applies with
  | idle nodes attempts completions =>
    exact consistent.of_quiet attempts id (by rw [nodes, map_id])
      (fun _ => ⟨rfl, rfl⟩) (fun _ _ => .inl rfl) completions
  | schedule member ready sameGraph sameNode identity live retryNo workerEpoch free nodes attempts
      completions =>
      exact consistent.of_schedule (.schedule member ready sameGraph sameNode identity live retryNo
        workerEpoch free nodes attempts completions)
  | @retry _ _ node member failed nodes attempts completions =>
    refine consistent.of_quiet (.refl_of_eq attempts) _ nodes ?_ ?_ completions
    · intro row
      split
      · exact ⟨rfl, rfl⟩
      · exact ⟨rfl, rfl⟩
    · intro row rowMem
      by_cases same : row = node
      · subst same
        rw [if_pos rfl, failed]
        refine .inr ?_
        rintro status (rfl | rfl)
        · exact ⟨by change ¬ NodeStatus.ready.asStr = _; decide, by decide⟩
        · exact ⟨by change ¬ NodeStatus.ready.asStr = _; decide, by decide⟩
      · rw [if_neg same]
        exact .inl rfl
  | @fail _ _ node attempt target member attemptMem live unfinished targets nodes attempts
      completions =>
      have running := consistent.running_of_attempt member attemptMem owned live
      have legal : transitionOk node.state target.asStr = true := by
        rw [running]
        rcases targets with rfl | rfl
        · decide
        · decide
      rw [MovedWhereLegal, if_pos legal] at nodes
      refine consistent.of_settled member nodes ?_ unfinished (some attempt) ?_
        (fun none => absurd none (Option.some_ne_none attempt)) "FAILED" (by decide) ?_ []
        (by rw [completions, append_nil]) ?_
      · rcases targets with rfl | rfl
        · decide
        · decide
      · rintro other ⟨⟩
        exact ⟨attemptMem, owned, live⟩
      · simp only [Option.some.injEq]
        exact attempts
      · rcases targets with rfl | rfl
        · exact .inl ⟨by decide, rfl⟩
        · exact .inl ⟨by decide, rfl⟩
  | @commit _ _ node attempt completion member attemptMem live unfinished sameNode sameGraph winner
      free nodes attempts completions =>
      have running := consistent.running_of_attempt member attemptMem owned live
      have legal : transitionOk node.state NodeStatus.succeeded.asStr = true := by
        rw [running]
        decide
      rw [MovedWhereLegal, if_pos legal] at nodes
      refine consistent.of_settled member nodes (by decide) unfinished (some attempt) ?_
        (fun none => absurd none (Option.some_ne_none attempt)) "SUCCEEDED" (by decide) ?_
        [completion] completions (.inr ⟨rfl, rfl, attempt, completion, rfl, rfl,
          sameGraph.trans (consistent.nodeGraph node member), sameNode, winner⟩)
      · rintro other ⟨⟩
        exact ⟨attemptMem, owned, live⟩
      · simp only [Option.some.injEq]
        exact attempts
  | @cancel _ _ node attempt member live chosen missing nodes attempts completions =>
    have unfinished : node.state ≠ NodeStatus.succeeded.asStr := by
      intro succeeded
      rw [succeeded] at live
      exact absurd live (by decide)
    refine consistent.of_settled member nodes (by decide) unfinished attempt ?_ ?_ "FAILED"
      (by decide) attempts [] (by rw [completions, append_nil]) (.inl ⟨by decide, rfl⟩)
    · intro row found
      obtain ⟨rowMem, -, key, running⟩ := chosen row found
      exact ⟨rowMem, key, running⟩
    · rintro none ⟨row, rowMem, key, running⟩
      refine missing none row rowMem ?_ key running
      exact (consistent.attemptGraph row rowMem).trans (consistent.nodeGraph node member).symm
  | recompute nodes attempts completions =>
    refine consistent.of_quiet (.refl_of_eq attempts) _ nodes ?_ ?_ completions
    · intro row
      split
      · exact ⟨rfl, rfl⟩
      · exact ⟨rfl, rfl⟩
    · intro row rowMem
      split
      · rename_i flips
        refine .inr ?_
        rw [flips.2.1]
        rintro status (rfl | rfl)
        · exact ⟨by change ¬ NodeStatus.ready.asStr = _; decide, by decide⟩
        · exact ⟨by change ¬ NodeStatus.ready.asStr = _; decide, by decide⟩
      · exact .inl rfl

/-- Every stored attempt with this id is an attempt of this node. -/
def Tables.Owns (tables : Tables) (graphId nodeId id : String) : Prop :=
  ∀ attempt ∈ tables.attempts.rows, attempt.attemptId = id →
    attempt.graphId = graphId ∧ attempt.nodeId = nodeId

/-- The attempt a transaction ends, if any, belongs to the node it names. -/
def Transaction.Owned (tables : Tables) : Transaction → Prop
  | .commitOnce graphId nodeId id _ => tables.Owns graphId nodeId id
  | .failAttempt graphId nodeId id _ => tables.Owns graphId nodeId id
  | _ => True

theorem Transaction.Effect.owned {transaction : Transaction} {changes : List Change}
    (effect : Transaction.Effect before transaction changes) (owned : transaction.Owned before) :
    ∀ change ∈ changes, change.Owned := by
  cases effect with
  | rollback => simp
  | idle | schedule | retry | recompute => simp [Change.Owned]
  | @fail graphId nodeId id node attempt found foundAttempt maxAttempts target =>
    obtain ⟨attemptMem, same⟩ := attempt?_eq_some.mp foundAttempt
    obtain ⟨-, -, nodeEq⟩ := node?_eq_some.mp found
    have ownedBy : attempt.nodeId = node.nodeId :=
      (owned attempt attemptMem same).2.trans nodeEq.symm
    simpa [Change.Owned] using ownedBy
  | @commit graphId nodeId id node attempt wins resultRef completion =>
    obtain ⟨attemptMem, same⟩ := attempt?_eq_some.mp wins.foundAttempt
    obtain ⟨-, -, nodeEq⟩ := node?_eq_some.mp wins.found
    have ownedBy : attempt.nodeId = node.nodeId :=
      (owned attempt attemptMem same).2.trans nodeEq.symm
    simpa [Change.Owned] using ownedBy
  | cancel _ _ _ cancels =>
    intro change member
    obtain ⟨node, attempt, rfl⟩ := cancels change member
    trivial

theorem Consistent.exec (consistent : Consistent graphId tables) (transaction : Transaction)
    (owned : transaction.Owned tables) (now : Timestamp) :
    Consistent graphId (transaction.exec now tables) := by
  obtain ⟨changes, effect, run⟩ := transaction.exec_changes now tables
  exact run.invariant Change.Owned (fun _ _ _ holds owned applies => holds.applies owned applies)
    (effect.owned owned) consistent

/-- The attempts are of one graph, under the ids that the graph gives. -/
def Tables.Named (graphId : String) (tables : Tables) : Prop :=
  ∀ attempt ∈ tables.attempts.rows, attempt.graphId = graphId ∧
    attempt.attemptId = attemptId graphId attempt.nodeId attempt.retryNo

theorem Consistent.named (consistent : Consistent graphId tables) : tables.Named graphId :=
  fun attempt member => ⟨consistent.attemptGraph attempt member,
    consistent.attemptName attempt member⟩

theorem Tables.Named.owns (named : tables.Named graphId) (nodeId : String) (retryNo : Int) :
    tables.Owns graphId nodeId (attemptId graphId nodeId retryNo) := by
  intro attempt member same
  obtain ⟨sameGraph, name⟩ := named attempt member
  rw [name] at same
  exact ⟨sameGraph, nodeId_eq_of_attemptId_eq same⟩

theorem Tables.Named.owns_stored (named : tables.Named graphId)
    (member : attempt ∈ tables.attempts.rows) :
    tables.Owns attempt.graphId attempt.nodeId attempt.attemptId := by
  obtain ⟨sameGraph, name⟩ := named attempt member
  rw [sameGraph, name]
  exact named.owns attempt.nodeId attempt.retryNo

/-- The attempt a verb is called with, if any, belongs to the node it names. -/
def Verb.Owned (tables : Tables) : Verb → Prop
  | .commitOnce graphId nodeId id _ => tables.Owns graphId nodeId id
  | .failAttempt graphId nodeId id _ => tables.Owns graphId nodeId id
  | _ => True

section OwnedVerbs

variable {graphId : String} {holds : Tables → Prop}
  (named : ∀ tables, holds tables → tables.Named graphId)
  (preserved : ∀ tables transaction now, holds tables → Transaction.Owned tables transaction →
    holds (transaction.exec now tables))

include named preserved

theorem sweep_preserves {tables : Tables} (start : holds tables) {scanned : List TaskAttempt}
    (subset : ∀ attempt ∈ scanned, attempt ∈ tables.attempts.rows) (maxAttempts : Int)
    (now : Timestamp) :
    holds (Transaction.execAll now (scanned.map (sweepTransaction maxAttempts)) tables) := by
  have scannedNamed : ∀ attempt ∈ scanned, attempt.graphId = graphId ∧
      attempt.attemptId = attemptId graphId attempt.nodeId attempt.retryNo :=
    fun attempt member => named tables start attempt (subset attempt member)
  clear subset
  induction scanned generalizing tables with
  | nil => exact start
  | cons attempt rest ih =>
    obtain ⟨sameGraph, name⟩ := scannedNamed attempt mem_cons_self
    refine ih (preserved tables (sweepTransaction maxAttempts attempt) now start ?_)
      fun other member => scannedNamed other (mem_cons_of_mem _ member)
    rw [sweepTransaction, Transaction.Owned, sameGraph, name]
    exact (named tables start).owns attempt.nodeId attempt.retryNo

/-- What owned transactions preserve is preserved by owned verbs. -/
theorem Verb.preserves {tables : Tables} (start : holds tables) {verb : Verb}
    (owned : verb.Owned tables) (now : Timestamp) : holds (verb.exec now tables).2 := by
  rw [verb.exec_tables now tables]
  cases verb with
  | scheduleAttempt graphId nodeId workerId =>
    exact preserved tables (.scheduleAttempt graphId nodeId workerId) now start trivial
  | heartbeatAttempt attemptId =>
    exact preserved tables (.heartbeatAttempt attemptId) now start trivial
  | commitOnce graphId nodeId id resultRef =>
    exact preserved tables (.commitOnce graphId nodeId id resultRef) now start owned
  | failAttempt graphId nodeId id maxAttempts =>
    exact preserved tables (.failAttempt graphId nodeId id maxAttempts) now start owned
  | timeoutSweep heartbeatTimeout maxAttempts =>
    refine sweep_preserves named preserved start (fun attempt member => ?_) maxAttempts now
    rw [staleAttempts, mem_insertionSort] at member
    exact (mem_filter.mp member).1
  | failRunningAttempts graphId maxAttempts =>
    refine sweep_preserves named preserved start (fun attempt member => ?_) maxAttempts now
    rw [runningAttempts, mem_insertionSort] at member
    exact (mem_filter.mp member).1
  | cancelRunningAttempt graphId nodeId maxAttempts =>
    rw [Verb.transactions]
    rcases runningAttempt_spec tables graphId nodeId with
      ⟨attempt, running, attemptMem, sameGraph, sameNode, -⟩ | ⟨running, -⟩
    · rw [running]
      have owned := (named tables start).owns_stored attemptMem
      rw [sameGraph, sameNode] at owned
      exact preserved tables (.failAttempt graphId nodeId attempt.attemptId maxAttempts) now start
        owned
    · rw [running]
      exact start
  | cancelNodes graphId nodeIds =>
    exact preserved tables (.cancelNodes graphId nodeIds) now start trivial
  | retryFailedNode graphId nodeId =>
    exact preserved tables (.retryFailedNode graphId nodeId) now start trivial
  | recomputeReady graphId => exact preserved tables (.recomputeReady graphId) now start trivial

end OwnedVerbs

theorem Consistent.verb (consistent : Consistent graphId tables) {verb : Verb}
    (owned : verb.Owned tables) (now : Timestamp) : Consistent graphId (verb.exec now tables).2 :=
  Verb.preserves (fun _ holds => holds.named)
    (fun _ transaction now holds owned => holds.exec transaction owned now) consistent owned now

end UltimateCoders.Graph
