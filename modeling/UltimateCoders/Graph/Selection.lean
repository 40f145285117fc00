import UltimateCoders.Graph.Transactions

/-! # The rows of one graph

Selecting the rows of some graphs commutes with the statements of the store. A
statement on one graph reads and writes the rows of that graph only, as long as
the rows of the other graphs are keyed apart from it.
-/

namespace UltimateCoders.Graph

open Relational Transition Table List

def Tables.select (tables : Tables) (keep : String → Bool) : Tables where
  graphs := tables.graphs.filter fun row => keep row.graphId
  nodes := tables.nodes.filter fun row => keep row.graphId
  attempts := tables.attempts.filter fun row => keep row.graphId
  completions := tables.completions.filter fun row => keep row.graphId
  events := tables.events.filter fun row => keep row.graphId
  grants := tables.grants.filter fun row => keep row.graphId

/-- Which (graph, node) pairs there are, and that graphs are keyed apart: they
share no node id, and no attempt id of one reads like one of another. -/
structure NodeKeys where
  keys : String → String → Prop
  apart : ∀ {first second firstNode secondNode}, first ≠ second → keys first firstNode →
    keys second secondNode →
      firstNode ≠ secondNode ∧ first ++ ":" ++ firstNode ≠ second ++ ":" ++ secondNode

/-- The rows belong to the given nodes, and attempts carry their own ids. -/
structure NodeKeys.Keyed (layout : NodeKeys) (tables : Tables) : Prop where
  nodes : ∀ row ∈ tables.nodes.rows, layout.keys row.graphId row.nodeId
  attempts : ∀ row ∈ tables.attempts.rows, layout.keys row.graphId row.nodeId ∧
    row.attemptId = attemptId row.graphId row.nodeId row.retryNo
  completions : ∀ row ∈ tables.completions.rows, layout.keys row.graphId row.nodeId

theorem NodeKeys.Keyed.graph_eq {layout : NodeKeys} {tables : Tables} (keyed : layout.Keyed tables)
    {graphId nodeId : String} (key : layout.keys graphId nodeId) {retryNo : Int}
    {row : TaskAttempt} (member : row ∈ tables.attempts.rows)
    (same : row.attemptId = attemptId graphId nodeId retryNo) : row.graphId = graphId := by
  by_contra different
  obtain ⟨rowKey, name⟩ := keyed.attempts row member
  rw [name] at same
  exact (layout.apart different rowKey key).2 (scope_eq_of_attemptId_eq same)

/-- `part` are the rows of the graph, `frame` all the others. -/
structure NodeKeys.Split (layout : NodeKeys) (graphId : String) (frame store part : Tables) :
    Prop where
  part : part = store.select (· == graphId)
  frame : store.select (· != graphId) = frame
  keyed : layout.Keyed store

variable {layout : NodeKeys} {graphId : String} {frame store part : Tables}

variable {Row : Type} {rows : List Row} {hit : TaskAttempt → Bool}

section

variable {keep hit : Row → Bool} (implies : ∀ row ∈ rows, hit row = true → keep row = true)

include implies

theorem filter_filter_of_imp : (rows.filter keep).filter hit = rows.filter hit := by
  rw [filter_filter]
  apply filter_congr
  intro row member
  cases isHit : hit row with
  | false => rfl
  | true => rw [implies row member isHit]; rfl

theorem find?_filter_of_imp : (rows.filter keep).find? hit = rows.find? hit := by
  rw [← head?_filter, ← head?_filter, filter_filter_of_imp implies]

theorem countP_filter_of_imp : (rows.filter keep).countP hit = rows.countP hit := by
  rw [countP_eq_length_filter, countP_eq_length_filter, filter_filter_of_imp implies]

end

theorem own_of_key {key : String} {condition : Prop} [Decidable (key = graphId ∧ condition)]
    (hit : decide (key = graphId ∧ condition) = true) : (key == graphId) = true :=
  beq_iff_eq.mpr (of_decide_eq_true hit).1

namespace NodeKeys.Split

section Reads

variable (split : layout.Split graphId frame store part)

include split

theorem node?_eq (nodeId : String) : part.node? graphId nodeId = store.node? graphId nodeId := by
  rw [split.part]
  exact find?_filter_of_imp fun _ _ => own_of_key

theorem graph?_eq : part.graph? graphId = store.graph? graphId := by
  rw [split.part]
  exact find?_filter_of_imp fun _ _ hit => beq_iff_eq.mpr (of_decide_eq_true hit)

theorem attemptsOf_eq (nodeId : String) :
    part.attemptsOf graphId nodeId = store.attemptsOf graphId nodeId := by
  rw [split.part]
  exact filter_filter_of_imp fun _ _ => own_of_key

theorem finishedNodes_eq : part.finishedNodes graphId = store.finishedNodes graphId := by
  rw [split.part]
  exact filter_filter_of_imp fun _ _ => own_of_key

theorem createdNodes_eq : part.createdNodes graphId = store.createdNodes graphId := by
  rw [split.part]
  exact congrArg (insertionSort _) (filter_filter_of_imp fun _ _ => own_of_key)

theorem runningAttempts_eq : part.runningAttempts graphId = store.runningAttempts graphId := by
  rw [split.part]
  exact congrArg (insertionSort _) (filter_filter_of_imp fun _ _ => own_of_key)

theorem runningAttempt_eq (nodeId : String) :
    part.runningAttempt graphId nodeId = store.runningAttempt graphId nodeId := by
  rw [Tables.runningAttempt, split.attemptsOf_eq nodeId]
  rfl

theorem key_of_node {nodeId : String}
    {node : GraphNode} (found : store.node? graphId nodeId = some node) :
    layout.keys graphId nodeId := by
  obtain ⟨member, rfl, rfl⟩ := Tables.node?_eq_some.mp found
  exact split.keyed.nodes node member

theorem attempt?_eq {nodeId : String} (key : layout.keys graphId nodeId) (retryNo : Int) :
    part.attempt? (attemptId graphId nodeId retryNo) =
      store.attempt? (attemptId graphId nodeId retryNo) := by
  rw [split.part]
  refine find?_filter_of_imp fun row member hit => ?_
  exact beq_iff_eq.mpr (split.keyed.graph_eq key member (of_decide_eq_true hit))

theorem countP_nodes_eq {hit : GraphNode → Bool} (only : ∀ row, hit row = true →
    row.graphId = graphId) : part.nodes.rows.countP hit = store.nodes.rows.countP hit := by
  rw [split.part]
  refine countP_filter_of_imp fun row _ isHit => ?_
  rw [beq_iff_eq]
  exact only row isHit

theorem countP_attempts_eq
    (only : ∀ row ∈ store.attempts.rows, hit row = true → row.graphId = graphId) :
    part.attempts.rows.countP hit = store.attempts.rows.countP hit := by
  rw [split.part]
  refine countP_filter_of_imp fun row member isHit => ?_
  rw [beq_iff_eq]
  exact only row member isHit

end Reads

end NodeKeys.Split

theorem filter_map_of_key {change : Row → Row} {key : Row → String}
    (same : ∀ row, key (change row) = key row) (keep : String → Bool) :
    (rows.map change).filter (fun row => keep (key row)) =
      (rows.filter fun row => keep (key row)).map change := by
  rw [filter_map]
  congr 1
  apply filter_congr
  intro row _
  rw [Function.comp, same]

theorem filter_map_of_only {change : Row → Row} {key : Row → String}
    (same : ∀ row, key (change row) = key row)
    (only : ∀ row ∈ rows, key row ≠ graphId → change row = row) :
    (rows.map change).filter (fun row => key row != graphId) =
      rows.filter fun row => key row != graphId := by
  rw [filter_map_of_key same fun key => key != graphId]
  refine (map_congr_left ?_).trans (map_id _)
  intro row member
  obtain ⟨rowMem, other⟩ := mem_filter.mp member
  exact only row rowMem (bne_iff_ne.mp other)

theorem filter_append_of_key (rows : List Row) {row : Row} (key : Row → String)
    (ofGraph : key row = graphId) : (rows ++ [row]).filter (fun row => key row != graphId) =
        rows.filter (fun row => key row != graphId) ∧
      (rows ++ [row]).filter (fun row => key row == graphId) =
        rows.filter (fun row => key row == graphId) ++ [row] := by
  constructor
  · simp [filter_append, ofGraph]
  · simp [filter_append, ofGraph]

namespace NodeKeys.Split

section

variable (split : layout.Split graphId frame store part)

include split

theorem updateGraphs {change : ExecutionGraph → ExecutionGraph}
    (keys : ∀ row, (change row).graphId = row.graphId)
    (faithful : ∀ first second, ExecutionGraph.Clash (change first) (change second) →
      ExecutionGraph.Clash first second)
    (only : ∀ row, row.graphId ≠ graphId → change row = row) :
    layout.Split graphId frame { store with graphs := store.graphs.update change faithful }
      { part with graphs := part.graphs.update change faithful } := by
  obtain ⟨rfl, rfl, keyed⟩ := split
  refine ⟨?_, ?_, keyed.nodes, keyed.attempts, keyed.completions⟩
  · refine Tables.ext (ext ?_) rfl rfl rfl rfl rfl
    exact (filter_map_of_key keys (· == graphId)).symm
  · refine Tables.ext (ext ?_) rfl rfl rfl rfl rfl
    exact filter_map_of_only keys fun row _ other => only row other

theorem insertGraph {row : ExecutionGraph} (ofGraph : row.graphId = graphId) :
    layout.Split graphId frame { store with graphs := store.graphs.insertOrIgnore row }
      { part with graphs := part.graphs.insertOrIgnore row } := by
  obtain ⟨rfl, rfl, keyed⟩ := split
  have freeIff : (store.select (· == graphId)).graphs.Free row ↔ store.graphs.Free row := by
    constructor
    · intro free stored member clashes
      refine free stored (mem_filter.mpr ⟨member, ?_⟩) clashes
      rw [beq_iff_eq]
      exact Eq.trans clashes ofGraph
    · intro free stored member
      exact free stored (mem_filter.mp member).1
  by_cases free : store.graphs.Free row
  · obtain ⟨others, own⟩ := filter_append_of_key store.graphs.rows ExecutionGraph.graphId ofGraph
    have rows := rows_insertOrIgnore_of_free free
    have partRows := rows_insertOrIgnore_of_free (freeIff.mpr free)
    refine ⟨?_, ?_, keyed.nodes, keyed.attempts, keyed.completions⟩
    · refine Tables.ext (ext ?_) rfl rfl rfl rfl rfl
      rw [partRows]
      change _ = filter _ (store.graphs.insertOrIgnore row).rows
      rw [rows]
      exact own.symm
    · refine Tables.ext (ext ?_) rfl rfl rfl rfl rfl
      change filter _ (store.graphs.insertOrIgnore row).rows = _
      rw [rows]
      exact others
  · rw [insertOrIgnore_of_not_free free,
      insertOrIgnore_of_not_free (fun partFree => free (freeIff.mp partFree))]
    exact ⟨rfl, rfl, keyed⟩

theorem appendEvent {event : ExecutionEvent} (ofGraph : event.graphId = graphId) :
    layout.Split graphId frame { store with events := store.events ++ [event] }
      { part with events := part.events ++ [event] } := by
  obtain ⟨rfl, rfl, keyed⟩ := split
  obtain ⟨others, own⟩ := filter_append_of_key store.events ExecutionEvent.graphId ofGraph
  exact ⟨Tables.ext rfl rfl rfl rfl own.symm rfl, Tables.ext rfl rfl rfl rfl others rfl,
    keyed.nodes, keyed.attempts, keyed.completions⟩

theorem setNodeState {hit : GraphNode → Bool}
    (only : ∀ row, hit row = true → row.graphId = graphId) (newState : String) :
    layout.Split graphId frame (store.setNodeState hit newState)
      (part.setNodeState hit newState) := by
  obtain ⟨rfl, rfl, keyed⟩ := split
  have keys : ∀ row : GraphNode, (if hit row = true then
      { row with state := newState, version := row.version + 1 } else row).graphId =
        row.graphId := by
    intro row
    split
    · rfl
    · rfl
  refine ⟨?_, ?_, ?_⟩
  · refine Tables.ext rfl (ext ?_) rfl rfl rfl rfl
    exact (filter_map_of_key keys (· == graphId)).symm
  · refine Tables.ext rfl (ext ?_) rfl rfl rfl rfl
    refine filter_map_of_only keys fun row _ other => ?_
    rw [if_neg]
    exact fun isHit => other (only row isHit)
  · refine ⟨?_, keyed.attempts, keyed.completions⟩
    intro row member
    obtain ⟨old, oldMem, rfl⟩ := mem_map.mp member
    have oldKey := keyed.nodes old oldMem
    split
    · exact oldKey
    · exact oldKey

theorem updateAttempts {change : TaskAttempt → TaskAttempt}
    (same : ∀ row, (change row).SameAttempt row)
    (faithful : ∀ first second, TaskAttempt.Clash (change first) (change second) →
      TaskAttempt.Clash first second)
    (only : ∀ row ∈ store.attempts.rows, row.graphId ≠ graphId → change row = row) :
    layout.Split graphId frame { store with attempts := store.attempts.update change faithful }
      { part with attempts := part.attempts.update change faithful } := by
  obtain ⟨rfl, rfl, keyed⟩ := split
  have keys : ∀ row : TaskAttempt, (change row).graphId = row.graphId := fun row =>
    (same row).graphId
  refine ⟨?_, ?_, ?_⟩
  · refine Tables.ext rfl rfl (ext ?_) rfl rfl rfl
    exact (filter_map_of_key keys (· == graphId)).symm
  · refine Tables.ext rfl rfl (ext ?_) rfl rfl rfl
    exact filter_map_of_only keys only
  · refine ⟨keyed.nodes, ?_, keyed.completions⟩
    intro row member
    obtain ⟨old, oldMem, rfl⟩ := mem_map.mp member
    have agree := same old
    rw [agree.graphId, agree.nodeId, agree.retryNo, agree.attemptId]
    exact keyed.attempts old oldMem

theorem finishAttempts
    (only : ∀ row ∈ store.attempts.rows, hit row = true → row.graphId = graphId) (status : String)
    (now : Timestamp) (resultRef : Option String) :
    layout.Split graphId frame (store.finishAttempts hit status now resultRef)
      (part.finishAttempts hit status now resultRef) := by
  refine split.updateAttempts ?_ _ ?_
  · intro row
    split
    · exact ⟨rfl, rfl, rfl, rfl, rfl⟩
    · exact ⟨rfl, rfl, rfl, rfl, rfl⟩
  · intro row member other
    rw [if_neg]
    exact fun isHit => other (only row member isHit)

theorem beatAttempts (only : ∀ row ∈ store.attempts.rows, hit row = true → row.graphId = graphId)
    (now : Timestamp) :
    layout.Split graphId frame (store.beatAttempts hit now) (part.beatAttempts hit now) := by
  refine split.updateAttempts ?_ _ ?_
  · intro row
    split
    · exact ⟨rfl, rfl, rfl, rfl, rfl⟩
    · exact ⟨rfl, rfl, rfl, rfl, rfl⟩
  · intro row member other
    rw [if_neg]
    exact fun isHit => other (only row member isHit)

theorem attempt_free_iff {row : TaskAttempt} (key : layout.keys graphId row.nodeId)
    (name : row.attemptId = attemptId graphId row.nodeId row.retryNo) :
    part.attempts.Free row ↔ store.attempts.Free row := by
  obtain ⟨rfl, -, keyed⟩ := split
  constructor
  · intro free stored member clashes
    refine free stored (mem_filter.mpr ⟨member, ?_⟩) clashes
    rw [beq_iff_eq]
    by_contra other
    obtain ⟨storedKey, storedName⟩ := keyed.attempts stored member
    obtain ⟨nodes, scopes⟩ := layout.apart other storedKey key
    rcases clashes with sameId | ⟨sameNode, -⟩
    · rw [storedName, name] at sameId
      exact scopes (scope_eq_of_attemptId_eq sameId)
    · exact nodes sameNode
  · intro free stored member
    exact free stored (mem_filter.mp member).1

theorem completion_free_iff (row : NodeCompletion) (key : layout.keys graphId row.nodeId) :
    part.completions.Free row ↔ store.completions.Free row := by
  obtain ⟨rfl, -, keyed⟩ := split
  constructor
  · intro free stored member clashes
    refine free stored (mem_filter.mpr ⟨member, ?_⟩) clashes
    rw [beq_iff_eq]
    by_contra other
    exact (layout.apart other (keyed.completions stored member) key).1 clashes
  · intro free stored member
    exact free stored (mem_filter.mp member).1

theorem appendAttempt {row : TaskAttempt} (ofGraph : row.graphId = graphId)
    (key : layout.keys graphId row.nodeId)
    (name : row.attemptId = attemptId graphId row.nodeId row.retryNo)
    (free : store.attempts.Free row) (partFree : part.attempts.Free row) :
    layout.Split graphId frame { store with attempts := store.attempts.append row free }
      { part with attempts := part.attempts.append row partFree } := by
  obtain ⟨rfl, rfl, keyed⟩ := split
  obtain ⟨others, own⟩ := filter_append_of_key store.attempts.rows TaskAttempt.graphId ofGraph
  refine ⟨?_, ?_, ?_⟩
  · exact Tables.ext rfl rfl (ext own.symm) rfl rfl rfl
  · exact Tables.ext rfl rfl (ext others) rfl rfl rfl
  · refine ⟨keyed.nodes, ?_, keyed.completions⟩
    intro added member
    rcases mem_append.mp member with old | new
    · exact keyed.attempts added old
    · rw [mem_singleton.mp new, ofGraph]
      exact ⟨key, name⟩

theorem insertCompletion {row : NodeCompletion} (ofGraph : row.graphId = graphId)
    (key : layout.keys graphId row.nodeId) : layout.Split graphId frame
      { store with completions := store.completions.insertOrIgnore row }
      { part with completions := part.completions.insertOrIgnore row } := by
  have freeIff := split.completion_free_iff row key
  obtain ⟨rfl, rfl, keyed⟩ := split
  by_cases free : store.completions.Free row
  · obtain ⟨others, own⟩ := filter_append_of_key store.completions.rows
      NodeCompletion.graphId ofGraph
    have rows := rows_insertOrIgnore_of_free free
    have partRows := rows_insertOrIgnore_of_free (freeIff.mpr free)
    refine ⟨?_, ?_, keyed.nodes, keyed.attempts, ?_⟩
    · refine Tables.ext rfl rfl rfl (ext ?_) rfl rfl
      rw [partRows]
      change _ = filter _ (store.completions.insertOrIgnore row).rows
      rw [rows]
      exact own.symm
    · refine Tables.ext rfl rfl rfl (ext ?_) rfl rfl
      change filter _ (store.completions.insertOrIgnore row).rows = _
      rw [rows]
      exact others
    · intro added member
      change added ∈ (store.completions.insertOrIgnore row).rows at member
      rw [rows] at member
      rcases mem_append.mp member with old | new
      · exact keyed.completions added old
      · rw [mem_singleton.mp new, ofGraph]
        exact key
  · rw [insertOrIgnore_of_not_free free,
      insertOrIgnore_of_not_free (fun partFree => free (freeIff.mp partFree))]
    exact ⟨rfl, rfl, keyed⟩

end

end NodeKeys.Split

end UltimateCoders.Graph
