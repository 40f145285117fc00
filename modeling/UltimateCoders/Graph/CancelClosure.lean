import UltimateCoders.Graph.Closure
import UltimateCoders.Graph.StateMachine
import UltimateCoders.Graph.TsProjection

/-! # Cancelling a closure

The nodes of a closure are cancelled one after the other in one transaction. A node without an edge
to the cancelled state is skipped, whatever runs for it, and of the attempts of a cancelled node one
is stopped.
-/

namespace UltimateCoders.Graph

open Relational Transition
open Search Tables StoreWrite List

namespace Tables

def runningCount (tables : Tables) (graphId nodeId : String) : Nat :=
  tables.attempts.rows.countP fun row =>
    row.graphId = graphId ∧ row.nodeId = nodeId ∧ row.status = "RUNNING"

def nodeState? (tables : Tables) (graphId nodeId : String) : Option String :=
  (tables.node? graphId nodeId).map GraphNode.state

end Tables

/-- The tokens of the states in which a node is over. -/
def Settled (state : String) : Prop :=
  state = NodeStatus.succeeded.asStr ∨ state = NodeStatus.failed.asStr ∨
    state = NodeStatus.cancelled.asStr ∨ state = NodeStatus.skipped.asStr

def Live (state : String) : Prop := transitionOk state NodeStatus.cancelled.asStr = true

instance : DecidablePred Live := fun state =>
  inferInstanceAs (Decidable (transitionOk state NodeStatus.cancelled.asStr = true))

/-- What cancelling the nodes of a closure is to do. -/
structure CancelReaches (graphId : String) (closure result : List String) (before after : Tables) :
    Prop where
  settled : ∀ id ∈ closure, ∃ state, after.nodeState? graphId id = some state ∧ Settled state
  stopped : ∀ id ∈ closure, ∀ row ∈ after.attempts.rows,
    row.graphId = graphId → row.nodeId = id → row.status ≠ "RUNNING"
  unchanged : ∀ graph id, ¬ (graph = graphId ∧ id ∈ closure) →
    after.node? graph id = before.node? graph id ∧
      after.attemptsOf graph id = before.attemptsOf graph id
  result : result.Nodup ∧ ∀ id, id ∈ result ↔
    id ∈ closure ∧ after.nodeState? graphId id ≠ before.nodeState? graphId id

/-- The node can be cancelled and runs in one attempt at most, or it is over and does not run. -/
def Cancellable (tables : Tables) (graphId id : String) : Prop :=
  ∃ state, tables.nodeState? graphId id = some state ∧
    (Live state ∧ tables.runningCount graphId id ≤ 1 ∨
      Settled state ∧ tables.runningCount graphId id = 0)

theorem live_iff {state : String} :
    Live state ↔ state = NodeStatus.created.asStr ∨ state = NodeStatus.ready.asStr ∨
      state = NodeStatus.scheduled.asStr ∨ state = NodeStatus.running.asStr := by
  constructor
  · intro live
    obtain ⟨source, rfl, edge⟩ := exists_source_of_transitionOk live
    revert edge
    cases source <;> decide
  · rintro (rfl | rfl | rfl | rfl) <;> decide

theorem not_settled_of_live {state : String} (live : Live state) : ¬ Settled state := by
  rcases live_iff.1 live with rfl | rfl | rfl | rfl <;> unfold Settled <;> decide

theorem countP_map_drop {α : Type} [DecidableEq α] {rows : List α} {row : α} {change : α → α}
    {counts : α → Bool} (distinct : rows.Nodup) (member : row ∈ rows) (counted : counts row = true)
    (dropped : counts (change row) = false)
    (others : ∀ other ∈ rows, other ≠ row → change other = other) :
    (rows.map change).countP counts + 1 = rows.countP counts := by
  have split := perm_cons_erase member
  rw [countP_map, split.countP_eq, split.countP_eq, countP_cons, countP_cons,
    Function.comp, dropped, counted, if_neg Bool.false_ne_true, if_pos rfl, Nat.add_zero]
  congr 1
  refine countP_congr fun other otherMem => ?_
  have apart := (Nodup.mem_erase_iff distinct).1 otherMem
  rw [Function.comp, others other apart.2 apart.1]

namespace Tables

variable {tables after : Tables} {graphId nodeId : String} {now : Timestamp}

theorem attemptsOf_stopRunning_of_ne {graph id : String} (apart : ¬ (graph = graphId ∧ id = nodeId)) :
    (tables.stopRunning graphId nodeId now).attemptsOf graph id = tables.attemptsOf graph id := by
  rcases runningAttempt_spec tables graphId nodeId with
    ⟨attempt, running, attemptMem, rfl, rfl, -⟩ | ⟨running, -⟩
  · rw [stopRunning, running]
    simp only [attemptsOf, finishAttempts, Table.rows_update]
    rw [filter_map, map_congr_left (g := fun row => row), map_id']
    · refine filter_congr fun row _ => ?_
      dsimp only [Function.comp]
      split <;> rfl
    · intro row rowMem
      obtain ⟨stored, key⟩ := mem_filter.1 rowMem
      have other : ¬ row.attemptId = attempt.attemptId := by
        intro same
        have equal := tables.attempts.eq_of_clash stored attemptMem (.inl same)
        subst equal
        simp only [Function.comp, decide_true, if_true, decide_eq_true_eq] at key
        exact apart ⟨key.1.symm, key.2.symm⟩
      rw [if_neg (by simpa using other)]
  · rw [stopRunning, running]

theorem runningCount_stopRunning :
    (tables.stopRunning graphId nodeId now).runningCount graphId nodeId =
      tables.runningCount graphId nodeId - 1 := by
  rcases runningAttempt_spec tables graphId nodeId with
    ⟨attempt, running, attemptMem, rfl, rfl, status⟩ | ⟨running, none⟩
  · rw [stopRunning, running, runningCount, runningCount]
    simp only [finishAttempts, Table.rows_update]
    refine Nat.eq_sub_of_add_eq
      (countP_map_drop tables.attempts.nodup attemptMem (by simp [status]) (by simp) ?_)
    intro other otherMem apart
    rw [if_neg]
    rw [decide_eq_true_eq]
    exact fun same => apart (tables.attempts.eq_of_clash otherMem attemptMem (.inl same))
  · have idle : tables.runningCount graphId nodeId = 0 := by
      rw [runningCount, countP_eq_zero]
      intro row member counted
      rw [decide_eq_true_eq] at counted
      exact none row member counted.1 counted.2.1 counted.2.2
    rw [stopRunning, running]
    dsimp only
    omega

theorem node?_moveNode_eq (newState graph id : String) :
    (tables.moveNode graphId nodeId newState).node? graph id =
      if graph = graphId ∧ id = nodeId then
        (tables.node? graph id).map fun row => row.move newState 1
      else tables.node? graph id := by
  have keys : ((fun row : GraphNode => decide (row.graphId = graph ∧ row.nodeId = id)) ∘ fun row =>
      if row.graphId = graphId ∧ row.nodeId = nodeId then row.move newState 1 else row) =
        fun row => decide (row.graphId = graph ∧ row.nodeId = id) := by
    funext row
    dsimp only [Function.comp]
    split <;> rfl
  rw [node?, moveNode_rows, find?_map, keys, ← node?]
  cases found : tables.node? graph id with
  | none => simp
  | some row =>
    obtain ⟨-, rfl, rfl⟩ := node?_eq_some.1 found
    rw [Option.map_some, Option.map_some]
    split <;> rfl

/-- Nodes of a graph were cancelled, and nothing else was changed. -/
structure CancelsOnly (graphId : String) (cancelled : List String) (before after : Tables) :
    Prop where
  nodes : ∀ graph id, after.node? graph id =
    if graph = graphId ∧ id ∈ cancelled then
      (before.node? graph id).map fun row => row.move NodeStatus.cancelled.asStr 1
    else before.node? graph id
  attempts : ∀ graph id, ¬ (graph = graphId ∧ id ∈ cancelled) →
    after.attemptsOf graph id = before.attemptsOf graph id
  running : ∀ id ∈ cancelled, after.runningCount graphId id = before.runningCount graphId id - 1

theorem runningCount_eq (tables : Tables) (graphId nodeId : String) :
    tables.runningCount graphId nodeId =
      (tables.attemptsOf graphId nodeId).countP fun row => row.status = "RUNNING" := by
  rw [runningCount, attemptsOf, countP_filter]
  refine countP_congr fun row _ => ?_
  simp only [Bool.and_eq_true, decide_eq_true_eq]
  exact ⟨fun all => ⟨all.2.2, all.1, all.2.1⟩, fun all => ⟨all.2.1, all.2.2, all.1⟩⟩

theorem CancelsOnly.refl (tables : Tables) (graphId : String) :
    tables.CancelsOnly graphId [] tables :=
  ⟨fun _ _ => by simp, fun _ _ _ => rfl, fun _ member => by cases member⟩

theorem node?_of_cancelNode {before middle : Tables}
    (first : (before.cancelNode graphId nodeId now).SameRows middle) (graph id : String) :
    middle.node? graph id =
      if graph = graphId ∧ id = nodeId then
        (before.node? graph id).map fun row => row.move NodeStatus.cancelled.asStr 1
      else before.node? graph id := by
  rw [first.node?_eq, cancelNode, node?_moveNode_eq, node?, stopRunning_nodes, ← node?]

theorem CancelsOnly.cons {before middle after : Tables} {cancelled : List String}
    (first : (before.cancelNode graphId nodeId now).SameRows middle)
    (fresh : nodeId ∉ cancelled) (rest : middle.CancelsOnly graphId cancelled after) :
    before.CancelsOnly graphId (nodeId :: cancelled) after := by
  have attempts (graph id : String) :
      middle.attemptsOf graph id = (before.stopRunning graphId nodeId now).attemptsOf graph id := by
    rw [attemptsOf, first.attempts, cancelNode, moveNode_attempts, ← attemptsOf]
  refine ⟨fun graph id => ?_, fun graph id outside => ?_, fun id member => ?_⟩
  · rw [rest.nodes, node?_of_cancelNode first]
    by_cases same : graph = graphId ∧ id = nodeId
    · obtain ⟨rfl, rfl⟩ := same
      simp [fresh]
    · by_cases listed : graph = graphId ∧ id ∈ cancelled
      · obtain ⟨rfl, listed⟩ := listed
        have other : id ≠ nodeId := fun equal => fresh (equal ▸ listed)
        simp [other, listed]
      · rw [if_neg listed, if_neg same, if_neg]
        rintro ⟨rfl, member⟩
        rcases mem_cons.1 member with rfl | later
        · exact same ⟨rfl, rfl⟩
        · exact listed ⟨rfl, later⟩
  · rw [rest.attempts graph id fun listed => outside ⟨listed.1, mem_cons_of_mem _ listed.2⟩,
      attempts]
    exact attemptsOf_stopRunning_of_ne fun same =>
      outside ⟨same.1, same.2 ▸ mem_cons_self⟩
  · rcases mem_cons.1 member with rfl | later
    · have kept := rest.attempts graphId id fun listed => fresh listed.2
      rw [runningCount_eq, kept, attempts, ← runningCount_eq, runningCount_stopRunning]
    · have other : id ≠ nodeId := fun equal => fresh (equal ▸ later)
      rw [rest.running id later, runningCount_eq middle, attempts,
        attemptsOf_stopRunning_of_ne fun same => other same.2, ← runningCount_eq]

end Tables

/-- Cancelling different nodes cancels those of them that may be moved, and nothing else. -/
theorem cancelNodesTx_run {graphId : String} (now : Timestamp) {nodeIds : List String}
    (distinct : nodeIds.Nodup) (before : Tables) :
    ∃ after, (cancelNodesTx graphId now nodeIds).run before =
        .ok (nodeIds.filter fun id => (before.nodeState? graphId id).any fun state => Live state,
          after) ∧
      before.CancelsOnly graphId
        (nodeIds.filter fun id => (before.nodeState? graphId id).any fun state => Live state)
        after := by
  induction nodeIds generalizing before with
  | nil => exact ⟨before, rfl, .refl before graphId⟩
  | cons nodeId rest ih =>
    obtain ⟨fresh, distinct⟩ := nodup_cons.1 distinct
    unfold cancelNodesTx
    rw [StateT.run_bind, StateT.run_get, pure_bind, filter_cons]
    cases found : before.node? graphId nodeId with
    | none =>
      simp only [nodeState?, found, Option.map_none, Option.any_none, Bool.false_eq_true, if_false]
      exact ih distinct before
    | some node =>
      by_cases live : Live node.state
      · obtain ⟨middle, cancel, same⟩ := cancelLiveNode_run found live now
        obtain ⟨after, ran, others⟩ := ih distinct middle
        have states : ∀ id ∈ rest,
            middle.nodeState? graphId id = before.nodeState? graphId id := by
          intro id member
          have other : id ≠ nodeId := fun equal => fresh (equal ▸ member)
          rw [nodeState?, node?_of_cancelNode same, if_neg fun key => other key.2, ← nodeState?]
        rw [filter_congr fun id member => by rw [states id member]] at ran others
        have listed : ((before.nodeState? graphId nodeId).any fun state =>
            decide (Live state)) = true := by
          simp [nodeState?, found, live]
        rw [if_pos listed]
        refine ⟨after, ?_, .cons same (fun member => fresh (mem_filter.1 member).1) others⟩
        unfold Live at live
        simp only [live, Bool.not_true, Bool.false_eq_true, if_false]
        rw [Tx.run_bind_of cancel, Tx.run_bind_of ran]
        rfl
      · simp only [nodeState?, found, Option.map_some, Option.any_some, live,
          decide_false, Bool.false_eq_true, if_false]
        unfold Live at live
        simp only [live, Bool.not_false, if_true]
        exact ih distinct before

section Closure

variable {graphId id state : String} {closure : List String} {before after : Tables}

theorem Tables.runningCount_eq_zero_iff (tables : Tables) (graphId nodeId : String) :
    tables.runningCount graphId nodeId = 0 ↔ ∀ row ∈ tables.attempts.rows,
      row.graphId = graphId → row.nodeId = nodeId → row.status ≠ "RUNNING" := by
  simp only [runningCount, countP_eq_zero, decide_eq_true_eq, not_and]

def liveNodes (tables : Tables) (graphId : String) (closure : List String) : List String :=
  closure.filter fun id => (tables.nodeState? graphId id).any fun state => Live state

theorem mem_liveNodes {tables : Tables} (found : tables.nodeState? graphId id = some state) :
    id ∈ liveNodes tables graphId closure ↔ id ∈ closure ∧ Live state := by
  simp [liveNodes, found]

variable (cancels : before.CancelsOnly graphId (liveNodes before graphId closure) after)

include cancels

theorem nodeState?_of_live (member : id ∈ closure) (found : before.nodeState? graphId id = some state)
    (live : Live state) : after.nodeState? graphId id = some NodeStatus.cancelled.asStr := by
  have listed := (mem_liveNodes found).2 ⟨member, live⟩
  obtain ⟨node, stored, rfl⟩ := Option.map_eq_some_iff.1 found
  rw [nodeState?, cancels.nodes, if_pos ⟨rfl, listed⟩, stored]
  rfl

theorem node?_of_not_live (found : before.nodeState? graphId id = some state)
    (skipped : ¬ Live state) :
    after.node? graphId id = before.node? graphId id ∧
      after.attemptsOf graphId id = before.attemptsOf graphId id := by
  have unlisted : ¬ (graphId = graphId ∧ id ∈ liveNodes before graphId closure) := fun listed =>
    skipped ((mem_liveNodes found).1 listed.2).2
  exact ⟨by rw [cancels.nodes, if_neg unlisted], cancels.attempts graphId id unlisted⟩

theorem cancellable_iff (member : id ∈ closure)
    (found : before.nodeState? graphId id = some state) :
    ((∃ last, after.nodeState? graphId id = some last ∧ Settled last) ∧
        after.runningCount graphId id = 0) ↔ Cancellable before graphId id := by
  by_cases live : Live state
  · have moved := nodeState?_of_live cancels member found live
    have less := cancels.running id ((mem_liveNodes found).2 ⟨member, live⟩)
    constructor
    · rintro ⟨-, idle⟩
      exact ⟨state, found, .inl ⟨live, by omega⟩⟩
    · rintro ⟨other, same, kinds⟩
      rw [found, Option.some.injEq] at same
      subst same
      refine ⟨⟨_, moved, .inr (.inr (.inl rfl))⟩, ?_⟩
      rcases kinds with ⟨-, few⟩ | ⟨settled, -⟩
      · omega
      · exact absurd settled (not_settled_of_live live)
  · obtain ⟨node, attempts⟩ := node?_of_not_live cancels found live
    rw [nodeState?, node, ← nodeState?, found, runningCount_eq, attempts, ← runningCount_eq]
    constructor
    · rintro ⟨⟨last, same, settled⟩, idle⟩
      rw [Option.some.injEq] at same
      subst same
      exact ⟨state, found, .inr ⟨settled, idle⟩⟩
    · rintro ⟨other, same, kinds⟩
      rw [found, Option.some.injEq] at same
      subst same
      rcases kinds with ⟨impossible, -⟩ | ⟨settled, idle⟩
      · exact absurd impossible live
      · exact ⟨⟨state, rfl, settled⟩, idle⟩

theorem cancelReaches_iff (distinct : closure.Nodup)
    (known : ∀ id ∈ closure, ∃ state, before.nodeState? graphId id = some state) :
    CancelReaches graphId closure (liveNodes before graphId closure) before after ↔
      ∀ id ∈ closure, Cancellable before graphId id := by
  constructor
  · intro reaches id member
    obtain ⟨state, found⟩ := known id member
    refine (cancellable_iff cancels member found).1 ⟨reaches.settled id member, ?_⟩
    exact (after.runningCount_eq_zero_iff graphId id).2 (reaches.stopped id member)
  · intro cancellable
    have settled (id : String) (member : id ∈ closure) :=
      (cancellable_iff cancels member (known id member).choose_spec).2 (cancellable id member)
    refine ⟨fun id member => (settled id member).1, fun id member =>
      (after.runningCount_eq_zero_iff graphId id).1 (settled id member).2, ?_, ?_, fun id => ?_⟩
    · intro graph id outside
      have unlisted : ¬ (graph = graphId ∧ id ∈ liveNodes before graphId closure) := fun listed =>
        outside ⟨listed.1, (mem_filter.1 listed.2).1⟩
      exact ⟨by rw [cancels.nodes, if_neg unlisted], cancels.attempts graph id unlisted⟩
    · exact distinct.filter _
    · by_cases member : id ∈ closure
      · obtain ⟨state, found⟩ := known id member
        rw [mem_liveNodes found, found]
        by_cases live : Live state
        · have different : ¬ NodeStatus.cancelled.asStr = state := by
            rintro rfl
            exact absurd live (by decide)
          simp [member, live, nodeState?_of_live cancels member found live, different]
        · have same := (node?_of_not_live cancels found live).1
          rw [nodeState?, same, ← nodeState?, found]
          simp [live]
      · simp [member, liveNodes]

end Closure

theorem known_of_mem_closure {tables : Tables} {graphId root id : String}
    (known : root ∈ (tables.dependencyTable graphId).map Prod.fst)
    (reached : Relation.ReflTransGen (DependedOn (tables.dependencyTable graphId)) root id) :
    ∃ state, tables.nodeState? graphId id = some state := by
  have listed : id ∈ (tables.dependencyTable graphId).map Prod.fst := by
    rcases Relation.ReflTransGen.cases_tail reached with rfl | ⟨other, -, entry, member, rfl, -⟩
    · exact known
    · exact mem_map_of_mem member
  simp only [dependencyTable, map_map, mem_map, mem_filter,
    decide_eq_true_eq, Function.comp] at listed
  obtain ⟨row, ⟨stored, graph⟩, rfl⟩ := listed
  exact ⟨row.state, Option.map_eq_some_iff.2 ⟨row, node?_eq_some.2 ⟨stored, graph, rfl⟩, rfl⟩⟩

/-- **Cancelling a closure.** The closure of any roots in any tables is computed and cancelled, and
this reaches every node of it if and only if each of them can be cancelled and runs in one attempt
at most, or is over and does not run. -/
theorem cancelClosure_iff (before : Tables) (graphId : String) (roots : List String)
    (now : Timestamp) (order : Nat → DependencyTable)
    (shuffled : ∀ turn, (order turn).Perm (before.dependencyTable graphId)) :
    ∃ closure result after,
      downstreamClosure (before.dependencyTable graphId) order roots = some closure ∧
      (Verb.cancelNodes graphId closure).exec now before = (.ok (.nodes result), after) ∧
      (CancelReaches graphId closure result before after ↔
        ∀ id ∈ closure, Cancellable before graphId id) := by
  obtain ⟨closure, found, distinct, members⟩ := downstreamClosure_spec shuffled roots
  obtain ⟨after, ran, cancels⟩ := @cancelNodesTx_run graphId now closure distinct before
  refine ⟨closure, _, after, found, ?_, cancelReaches_iff cancels distinct fun id member => ?_⟩
  · simp only [Verb.exec, wrap, atomically_of_ok ran]
    rfl
  · obtain ⟨root, -, known, reached⟩ := (members id).1 member
    exact known_of_mem_closure known reached

/-- An open node is cancelled with the one that is blocked by it. -/
theorem cancelClosure_iff_open :
    ∃ closure result after,
      downstreamClosure ((importTask plainGraph .empty).dependencyTable "g-x")
        (fun _ => (importTask plainGraph .empty).dependencyTable "g-x") ["n-open"] = some closure ∧
      (Verb.cancelNodes "g-x" closure).exec 2 (importTask plainGraph .empty) =
        (.ok (.nodes result), after) ∧
      CancelReaches "g-x" closure result (importTask plainGraph .empty) after := by
  obtain ⟨closure, result, after, found, ran, reaches⟩ :=
    cancelClosure_iff (importTask plainGraph .empty) "g-x" ["n-open"] 2
      (fun _ => (importTask plainGraph .empty).dependencyTable "g-x") fun _ => Perm.refl _
  have computed : downstreamClosure ((importTask plainGraph .empty).dependencyTable "g-x")
      (fun _ => (importTask plainGraph .empty).dependencyTable "g-x") ["n-open"] =
        some ["n-open", "n-blocked"] := by
    decide +kernel
  refine ⟨closure, result, after, found, ran, reaches.2 fun id member => ?_⟩
  rw [computed, Option.some.injEq] at found
  subst found
  rcases mem_cons.1 member with rfl | later
  · exact ⟨"READY", by decide +kernel, .inl ⟨by decide, by decide +kernel⟩⟩
  · cases mem_singleton.1 later
    exact ⟨"CREATED", by decide +kernel, .inl ⟨by decide, by decide +kernel⟩⟩

/-- A task of one subtask that waits, as the orchestrator stores it. -/
def storedWaiting : TsPersistedTask where
  id := "g"
  status := "in_progress"
  projectId := some "p"
  savedAt := some 1
  createdAt := some 0
  subtasks := [storedSubtask "a" "waiting" []]

/-- A waiting node is not cancelled. -/
theorem not_cancelReaches_waiting :
    ¬ ∀ (writes : List StoreWrite) (graphId : String) (roots closure result : List String)
        (now : Timestamp) (order : Nat → DependencyTable) (after : Tables),
      (∀ turn, (order turn).Perm ((execAll writes .empty).dependencyTable graphId)) →
      downstreamClosure ((execAll writes .empty).dependencyTable graphId) order roots =
        some closure →
      (Verb.cancelNodes graphId closure).exec now (execAll writes .empty) =
        (.ok (.nodes result), after) →
      CancelReaches graphId closure result (execAll writes .empty) after := by
  intro reaches
  have replied : ((Verb.cancelNodes "g" ["a"]).exec 2 (execAll
      [.project (projectTsTask storedWaiting) false true] .empty)).1 = .ok (.nodes []) := by
    decide +kernel
  have reached := reaches [.project (projectTsTask storedWaiting) false true] "g" ["a"] ["a"] [] 2
    _ _ (fun _ => Perm.refl _) (by decide +kernel) (Prod.ext replied rfl)
  obtain ⟨state, found, settled⟩ := reached.settled "a" mem_cons_self
  have waiting : ((Verb.cancelNodes "g" ["a"]).exec 2 (execAll
      [.project (projectTsTask storedWaiting) false true] .empty)).2.nodeState? "g" "a" =
        some "WAITING" := by
    decide +kernel
  cases waiting.symm.trans found
  revert settled
  unfold Settled
  decide

end UltimateCoders.Graph
