import UltimateCoders.Graph.Store

/-! # What the statements do

One lemma per statement of the store's transactions, so that no later proof
looks inside a statement.
-/

namespace UltimateCoders.Graph

open Relational Transition List

/-- The row after its state moved along `edges` edges. -/
def GraphNode.move (row : GraphNode) (newState : String) (edges : Nat) : GraphNode :=
  { row with state := newState, version := row.version + edges }

namespace Tables

variable {tables : Tables} {graphId nodeId : String}

theorem node?_eq_some {row : GraphNode} :
    tables.node? graphId nodeId = some row ↔
      row ∈ tables.nodes.rows ∧ row.graphId = graphId ∧ row.nodeId = nodeId := by
  constructor
  · intro found
    have key := find?_some found
    simp only [decide_eq_true_eq] at key
    exact ⟨mem_of_find?_eq_some found, key.1, key.2⟩
  · rintro ⟨member, rfl, rfl⟩
    cases found : tables.node? row.graphId row.nodeId with
    | none =>
      have absent := find?_eq_none.mp found row member
      simp only [and_self, decide_true, not_true_eq_false] at absent
    | some stored =>
      have key := find?_some found
      simp only [decide_eq_true_eq] at key
      have storedMem : stored ∈ tables.nodes.rows := mem_of_find?_eq_some found
      rw [tables.nodes.eq_of_clash storedMem member ⟨key.2, key.1⟩]

theorem node?_eq_none :
    tables.node? graphId nodeId = none ↔
      ∀ row ∈ tables.nodes.rows, ¬ (row.graphId = graphId ∧ row.nodeId = nodeId) := by
  simp only [node?, find?_eq_none, decide_eq_true_eq]

theorem node?_isSome_of_mem {row : GraphNode} (member : row ∈ tables.nodes.rows)
    (sameGraph : row.graphId = graphId) (sameNode : row.nodeId = nodeId) :
    (tables.node? graphId nodeId).isSome := by
  rw [node?_eq_some.mpr ⟨member, sameGraph, sameNode⟩]
  rfl

theorem attempt?_eq_some {attemptId : String} {row : TaskAttempt} :
    tables.attempt? attemptId = some row ↔
      row ∈ tables.attempts.rows ∧ row.attemptId = attemptId := by
  constructor
  · intro found
    have key := find?_some found
    simp only [decide_eq_true_eq] at key
    exact ⟨mem_of_find?_eq_some found, key⟩
  · rintro ⟨member, rfl⟩
    cases found : tables.attempt? row.attemptId with
    | none =>
      have absent := find?_eq_none.mp found row member
      simp only [decide_true, not_true_eq_false] at absent
    | some stored =>
      have key := find?_some found
      simp only [decide_eq_true_eq] at key
      have storedMem : stored ∈ tables.attempts.rows := mem_of_find?_eq_some found
      rw [tables.attempts.eq_of_clash storedMem member (.inl key)]

/-- Move the node of (graph, node) along one edge. -/
def moveNode (tables : Tables) (graphId nodeId newState : String) : Tables :=
  tables.setNodeState (fun row => row.graphId = graphId ∧ row.nodeId = nodeId) newState

theorem moveNode_rows (tables : Tables) (graphId nodeId newState : String) :
    (tables.moveNode graphId nodeId newState).nodes.rows = tables.nodes.rows.map fun row =>
      if row.graphId = graphId ∧ row.nodeId = nodeId then row.move newState 1 else row := by
  simp only [moveNode, setNodeState, Table.rows_update, decide_eq_true_eq, GraphNode.move]

@[simp] theorem moveNode_attempts (tables : Tables) (graphId nodeId newState : String) :
    (tables.moveNode graphId nodeId newState).attempts = tables.attempts := rfl

theorem node?_moveNode {node : GraphNode} (found : tables.node? graphId nodeId = some node)
    (newState : String) :
    (tables.moveNode graphId nodeId newState).node? graphId nodeId =
      some (node.move newState 1) := by
  obtain ⟨member, rfl, rfl⟩ := node?_eq_some.mp found
  refine node?_eq_some.mpr ⟨?_, rfl, rfl⟩
  rw [moveNode_rows]
  exact mem_map.mpr ⟨node, member, by simp only [and_self, ↓reduceIte]⟩

theorem node?_moveNode_of_ne {graphId nodeId other : String} {node : GraphNode}
    (found : tables.node? graphId other = some node) (different : other ≠ nodeId)
    (newState : String) :
    (tables.moveNode graphId nodeId newState).node? graphId other = some node := by
  obtain ⟨member, rfl, rfl⟩ := node?_eq_some.mp found
  refine node?_eq_some.mpr ⟨?_, rfl, rfl⟩
  rw [moveNode_rows]
  exact mem_map.mpr ⟨node, member, by simp only [different, and_false, ↓reduceIte]⟩

theorem moveNode_moveNode_rows (tables : Tables) (graphId nodeId first second : String) :
    ((tables.moveNode graphId nodeId first).moveNode graphId nodeId second).nodes.rows =
      tables.nodes.rows.map fun row =>
        if row.graphId = graphId ∧ row.nodeId = nodeId then row.move second 2 else row := by
  rw [moveNode_rows, moveNode_rows, map_map]
  apply map_congr_left
  intro row _
  by_cases key : row.graphId = graphId ∧ row.nodeId = nodeId
  · simp only [Function.comp, key, and_self, ↓reduceIte, GraphNode.move]
  · simp only [Function.comp, key, ↓reduceIte]

/-- The execution rows (nodes, attempts, completions) are as before. Version
bumps and appended events touch nothing else. -/
structure SameRows (before after : Tables) : Prop where
  nodes : after.nodes = before.nodes
  attempts : after.attempts = before.attempts
  completions : after.completions = before.completions

namespace SameRows

variable {before middle after : Tables}

theorem refl (tables : Tables) : SameRows tables tables := ⟨rfl, rfl, rfl⟩

theorem trans (first : SameRows before middle) (second : SameRows middle after) :
    SameRows before after where
  nodes := second.nodes.trans first.nodes
  attempts := second.attempts.trans first.attempts
  completions := second.completions.trans first.completions

theorem node?_eq (same : SameRows before after) (graphId nodeId : String) :
    after.node? graphId nodeId = before.node? graphId nodeId := by
  rw [node?, node?, same.nodes]

end SameRows

end Tables

/-- A version bump never fails and touches no execution row. -/
theorem bumpGraphVersion_run (tables : Tables) (graphId : String) (now : Timestamp) :
    ∃ version next, (bumpGraphVersion graphId now).run tables = .ok (version, next) ∧
      tables.SameRows next := by
  cases found : tables.graph? graphId with
  | none | some row =>
    simp only [bumpGraphVersion, StateT.run_bind, StateT.run_get, pure_bind, found]
    exact ⟨_, _, rfl, rfl, rfl, rfl⟩

theorem appendEvent_run (tables : Tables) (graphId : String) (nodeId attemptId : Option String)
    (graphVersion : Option Nat) (eventType : EventType) :
    ∃ next, (appendEvent graphId nodeId attemptId graphVersion eventType).run tables =
      .ok ((), next) ∧ tables.SameRows next :=
  ⟨_, rfl, rfl, rfl, rfl⟩

theorem casNodeState_run {tables : Tables} {graphId nodeId expectState newState : String}
    {expectVersion : Nat} {node : GraphNode} (found : tables.node? graphId nodeId = some node)
    (state : node.state = expectState) (version : node.version = expectVersion)
    (legal : transitionOk expectState newState = true) :
    (casNodeState graphId nodeId expectState expectVersion newState).run tables =
      .ok (true, tables.moveNode graphId nodeId newState) := by
  obtain ⟨member, rfl, rfl⟩ := Tables.node?_eq_some.mp found
  subst state version
  have only : ∀ stored ∈ tables.nodes.rows,
      (decide (stored.graphId = node.graphId ∧ stored.nodeId = node.nodeId ∧
        stored.state = node.state ∧ stored.version = node.version)) = true ↔ stored = node := by
    intro stored storedMem
    rw [decide_eq_true_eq]
    constructor
    · rintro ⟨graphEq, nodeEq, -, -⟩
      exact tables.nodes.eq_of_clash storedMem member ⟨nodeEq, graphEq⟩
    · rintro rfl
      exact ⟨rfl, rfl, rfl, rfl⟩
  have counted := tables.nodes.countP_eq_one member only
  have sameTables : tables.setNodeState (fun row => row.graphId = node.graphId ∧
      row.nodeId = node.nodeId ∧ row.state = node.state ∧ row.version = node.version) newState =
        tables.moveNode node.graphId node.nodeId newState := by
    apply Tables.ext <;> try rfl
    apply Table.ext
    apply map_congr_left
    intro row rowMem
    by_cases key : row.graphId = node.graphId ∧ row.nodeId = node.nodeId
    · have same := tables.nodes.eq_of_clash rowMem member ⟨key.2, key.1⟩
      subst same
      simp only [and_self, decide_true, ↓reduceIte]
    · have apart : ¬ (row.graphId = node.graphId ∧ row.nodeId = node.nodeId ∧
          row.state = node.state ∧ row.version = node.version) :=
        fun hit => key ⟨hit.1, hit.2.1⟩
      simp only [key, apart, decide_false, Bool.false_eq_true, ↓reduceIte]
  simp only [casNodeState, legal, Bool.not_true, Bool.false_eq_true, ↓reduceIte, pure_bind,
    StateT.run_bind, StateT.run_get, StateT.run_set, StateT.run_pure, counted, sameTables,
    beq_self_eq_true]
  rfl

theorem probeRetry_run {tables next : Tables} {graphId nodeId : String} {probe : Int × Nat}
    (ran : (probeRetry graphId nodeId).run tables = .ok (probe, next)) :
    next = tables ∧ probe.1 = nextRetryNo (tables.attemptsOf graphId nodeId) ∧
      probe.2 = nextWorkerEpoch (tables.attemptsOf graphId nodeId) := by
  unfold probeRetry at ran
  rw [StateT.run_bind, StateT.run_get, pure_bind] at ran
  split at ran
  · cases ran
  · cases ran
    exact ⟨rfl, rfl, rfl⟩

theorem insertAttempt_run {tables next : Tables} {row : TaskAttempt} {context : String}
    (ran : (insertAttempt row context).run tables = .ok ((), next)) :
    ∃ free : tables.attempts.Free row,
      next = { tables with attempts := tables.attempts.append row free } := by
  unfold insertAttempt at ran
  rw [StateT.run_bind, StateT.run_get, pure_bind] at ran
  split at ran
  · cases ran
  · split at ran
    · rename_i free
      cases ran
      exact ⟨free, rfl⟩
    · cases ran

end UltimateCoders.Graph
