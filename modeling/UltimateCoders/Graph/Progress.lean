import UltimateCoders.Graph.Readiness
import UltimateCoders.Search.Layering

/-! # Progress of a graph

The store decides about dispatches by node states alone. For a task whose dependencies exist and are
acyclic that never gets stuck: as long as not all nodes have succeeded, there is one with its
dependencies done that can be dispatched or runs, unless one was failed or cancelled.
-/

namespace UltimateCoders.Graph

open Relational Transition List NodeStatus

def Tables.DependsOn (tables : Tables) (nodeId dep : String) : Prop :=
  ∃ node ∈ tables.nodes.rows, node.nodeId = nodeId ∧ dep ∈ node.dependencies

open Tables

/-- The states that nodes of an imported graph are in. -/
def NodeStatus.lively : List NodeStatus := [created, ready, running, succeeded, failed, cancelled]

/-- The tables hold one graph, in which every dependency is a node and none leads back. -/
structure Arranged (graphId : String) (tables : Tables) : Prop where
  nodeGraph : ∀ node ∈ tables.nodes.rows, node.graphId = graphId
  known : ∀ nodeId dep, tables.DependsOn nodeId dep → tables.HasNode dep
  acyclic : ∀ nodeId,
    ¬ Relation.TransGen (fun dep nodeId => tables.DependsOn nodeId dep) nodeId nodeId
  states : ∀ node ∈ tables.nodes.rows, ∃ status ∈ lively, node.state = status.asStr

variable {graphId : String} {tables before after : Tables} {change : Change}

theorem Change.Applies.dependsOn (applies : change.Applies before after) {nodeId dep : String}
    (depends : after.DependsOn nodeId dep) : before.DependsOn nodeId dep := by
  obtain ⟨row, member, same, depMem⟩ := depends
  obtain ⟨old, oldMem, place, -⟩ := applies.exists_before member
  exact ⟨old, oldMem, place.nodeId.symm.trans same, place.dependencies ▸ depMem⟩

theorem Change.Applies.hasNode (applies : change.Applies before after) {nodeId : String}
    (has : before.HasNode nodeId) : after.HasNode nodeId := by
  obtain ⟨rewrite, rows, spec⟩ := applies.restates
  obtain ⟨row, member, same⟩ := has
  refine ⟨rewrite row, ?_, (spec row).1.nodeId.trans same⟩
  rw [rows]
  exact mem_map_of_mem member

theorem Change.StateMove.lively {row : GraphNode} {source target : NodeStatus}
    (move : change.StateMove before row source target) : target ∈ NodeStatus.lively := by
  cases move with
  | fail _ _ targets _ => rcases targets with rfl | rfl <;> decide
  | schedule | retry | commit | cancel | recompute => decide

theorem Arranged.applies (arranged : Arranged graphId before)
    (applies : change.Applies before after) : Arranged graphId after where
  nodeGraph node member := by
    obtain ⟨old, oldMem, place, -⟩ := applies.exists_before member
    exact place.graphId.trans (arranged.nodeGraph old oldMem)
  known nodeId dep depends := applies.hasNode (arranged.known nodeId dep (applies.dependsOn depends))
  acyclic nodeId cycle :=
    arranged.acyclic nodeId
      (Relation.TransGen.mono (fun _ _ depends => applies.dependsOn depends) _ _ cycle)
  states node member := by
    obtain ⟨old, oldMem, -, state⟩ := applies.exists_before member
    rcases applies.stateAfter_cases old with same | ⟨source, target, move, -, moved⟩
    · rw [state, same]
      exact arranged.states old oldMem
    · exact ⟨target, move.lively, state.trans moved⟩

theorem Arranged.verb (arranged : Arranged graphId tables) (verb : Verb) (now : Timestamp) :
    Arranged graphId (verb.exec now tables).2 := by
  rw [verb.exec_tables now tables]
  generalize verb.transactions now tables = transactions
  induction transactions generalizing tables with
  | nil => exact arranged
  | cons transaction rest ih =>
    obtain ⟨changes, -, run⟩ := transaction.exec_changes now tables
    exact ih (run.invariant (fun _ => True) (fun _ _ _ holds _ applies => holds.applies applies)
      (fun _ _ => trivial) arranged)

/-- A node that has not succeeded waits for another one, or for nothing. -/
theorem Arranged.waits (arranged : Arranged graphId tables) (awake : tables.NoLostWakeUp)
    {node : GraphNode} (member : node ∈ tables.nodes.rows) :
    (∃ other ∈ tables.nodes.rows, other.nodeId ∈ node.dependencies ∧
        other.state ≠ succeeded.asStr) ∨
      tables.DependenciesDone node ∧ ∃ status ∈ [ready, running, succeeded, failed, cancelled],
        node.state = status.asStr := by
  by_cases done : tables.DependenciesDone node
  · obtain ⟨status, live, state⟩ := arranged.states node member
    rcases mem_cons.mp live with rfl | other
    · exact absurd done (awake node member state)
    · exact .inr ⟨done, status, other, state⟩
  · unfold DependenciesDone at done
    push Not at done
    obtain ⟨dep, depMem, missing⟩ := done
    obtain ⟨other, otherMem, rfl⟩ := arranged.known node.nodeId dep ⟨node, member, rfl, depMem⟩
    refine .inl ⟨other, otherMem, depMem, fun finished => missing ?_⟩
    rw [arranged.nodeGraph node member]
    exact ⟨other, otherMem, arranged.nodeGraph other otherMem, rfl, .inl finished⟩

section Import

variable {task : Task}

theorem writeNodes_new {offered : List NodeRow} {stats result : BackfillStats}
    (ran : (writeNodes graphId false [] offered stats).run before = .ok (result, after)) :
    ∀ row ∈ after.nodes.rows,
      row ∈ before.nodes.rows ∨ ∃ node ∈ offered, row = node.toNode graphId := by
  induction offered generalizing stats before with
  | nil =>
    cases ran
    exact fun _ member => .inl member
  | cons node rest ih =>
    unfold writeNodes at ran
    rw [StateT.run_bind, StateT.run_get, pure_bind] at ran
    simp only [Bool.false_eq_true, ↓reduceIte] at ran
    rw [StateT.run_bind, StateT.run_set, pure_bind] at ran
    intro row member
    rcases ih ran row member with old | ⟨other, otherMem, new⟩
    · simp only [upsertNode, Bool.false_eq_true, ↓reduceIte] at old
      split at old
      · exact (Table.mem_of_mem_insertOrIgnore old).imp_right fun new => ⟨node, mem_cons_self, new⟩
      · exact .inl old
    · exact .inr ⟨other, mem_cons_of_mem _ otherMem, new⟩

/-- An import into empty tables stores the node rows of its subtasks and no others. -/
theorem exists_of_mem_importTask {row : GraphNode}
    (member : row ∈ (importTask task .empty).nodes.rows) :
    ∃ subtask ∈ task.subtasks, row = (projectNode task subtask).toNode task.id := by
  unfold importTask writeProjection at member
  cases ran : (writeProjectionTx (projectTask task) false true).run .empty with
  | error failure =>
    rw [atomically_of_error ran] at member
    exact (not_mem_nil member).elim
  | ok pair =>
    obtain ⟨result, after⟩ := pair
    rw [atomically_of_ok ran] at member
    unfold writeProjectionTx at ran
    obtain ⟨graphs, first, wroteGraph, ran⟩ := Tx.run_bind_ok ran
    rw [StateT.run_bind, StateT.run_get, pure_bind] at ran
    obtain ⟨stats, second, wroteNodes, ran⟩ := Tx.run_bind_ok ran
    obtain ⟨attempts, third, wroteAttempts, ran⟩ := Tx.run_bind_ok ran
    obtain ⟨completions, fourth, wroteCompletions, ran⟩ := Tx.run_bind_ok ran
    cases ran
    rw [(writeCompletions_inserts _ _ _).eq wroteCompletions,
      (writeAttempts_inserts _ _).eq wroteAttempts] at member
    obtain ⟨count, written, wrote, same⟩ := writeGraph_run (projectTask task) false true .empty
    cases wroteGraph.symm.trans wrote
    rcases writeNodes_new wroteNodes row member with old | ⟨node, nodeMem, new⟩
    · rw [same.nodes] at old
      exact (not_mem_nil old).elim
    · obtain ⟨subtask, subtaskMem, rfl⟩ := mem_map.mp nodeMem
      exact ⟨subtask, subtaskMem, new⟩

theorem state_toNode_projectNode (subtask : Subtask) :
    ((projectNode task subtask).toNode graphId).state = task.nodeState subtask := by
  simp only [NodeRow.toNode, projectNode_state]

theorem Task.completed_of_succeeded {subtask : Subtask}
    (finished : task.nodeState subtask = succeeded.asStr) : subtask.status = .completed := by
  unfold Task.nodeState nodeStatusOfSubtask dependencyAwareState at finished
  generalize subtask.dependsOn.all _ = met at finished
  cases status : subtask.status with
  | completed => rfl
  | pending | assigned | inProgress | failed | conflicted =>
    rw [status] at finished
    cases met with
    | false | true => exact absurd finished (by decide)

theorem Task.exists_unmet {subtask : Subtask} (waiting : task.nodeState subtask = created.asStr) :
    ∃ dep ∈ subtask.dependsOn, subtaskStatusIndex task dep ≠ some .completed := by
  by_contra met
  push Not at met
  have all : subtask.dependsOn.all (fun dep => subtaskStatusIndex task dep == some .completed) =
      true := all_eq_true.mpr fun dep member => beq_iff_eq.mpr (met dep member)
  unfold Task.nodeState nodeStatusOfSubtask dependencyAwareState at waiting
  simp only [all, ↓reduceIte] at waiting
  cases status : subtask.status with
  | _ =>
    rw [status] at waiting
    exact absurd waiting (by decide)

theorem subtaskStatusIndex_of_mem (distinct : (task.subtasks.map Subtask.id).Nodup)
    {subtask : Subtask} (member : subtask ∈ task.subtasks) :
    subtaskStatusIndex task subtask.id = some subtask.status := by
  have present : (task.subtasks.reverse.find? fun other => other.id == subtask.id).isSome :=
    find?_isSome.mpr ⟨subtask, mem_reverse.mpr member, beq_self_eq_true _⟩
  obtain ⟨found, search⟩ := Option.isSome_iff_exists.mp present
  have chosen : (found.id == subtask.id) = true := by simpa using find?_some search
  have equal := inj_on_of_nodup_map distinct (mem_reverse.mp (mem_of_find?_eq_some search)) member
    (beq_iff_eq.mp chosen)
  rw [subtaskStatusIndex, search, Option.map_some, equal]

/-- The subtask with the second id waits for the first id. -/
def Task.Precedes (task : Task) (dep id : String) : Prop :=
  ∃ subtask ∈ task.subtasks, subtask.id = id ∧ dep ∈ subtask.dependsOn

theorem arranged_importTask
    (known : ∀ dep id, task.Precedes dep id → ∃ subtask ∈ task.subtasks, subtask.id = dep)
    (acyclic : ∀ id, ¬ Relation.TransGen task.Precedes id id) :
    Arranged task.id (importTask task .empty) := by
  have precedes : ∀ nodeId dep, (importTask task .empty).DependsOn nodeId dep →
      task.Precedes dep nodeId := by
    intro nodeId dep depends
    obtain ⟨row, member, same, depMem⟩ := depends
    obtain ⟨subtask, subtaskMem, rfl⟩ := exists_of_mem_importTask member
    exact ⟨subtask, subtaskMem, same, depMem⟩
  refine ⟨fun node member => ?_, fun nodeId dep depends => ?_, fun nodeId cycle => ?_,
    fun node member => ?_⟩
  · obtain ⟨subtask, -, rfl⟩ := exists_of_mem_importTask member
    rfl
  · obtain ⟨subtask, member, rfl⟩ := known dep nodeId (precedes nodeId dep depends)
    exact (written_importTask task .empty).hasNode_of_subtask member
  · exact acyclic nodeId
      (Relation.TransGen.mono (fun dep nodeId depends => precedes nodeId dep depends) _ _ cycle)
  · obtain ⟨subtask, -, rfl⟩ := exists_of_mem_importTask member
    rw [state_toNode_projectNode]
    rcases task.nodeState_cases subtask with state | state | state | state | state
    · exact ⟨created, by decide, state⟩
    · exact ⟨ready, by decide, state⟩
    · exact ⟨running, by decide, state⟩
    · exact ⟨succeeded, by decide, state⟩
    · exact ⟨failed, by decide, state⟩

theorem awake_importTask (distinct : (task.subtasks.map Subtask.id).Nodup) :
    (importTask task .empty).NoLostWakeUp := by
  intro node member waiting done
  obtain ⟨subtask, -, rfl⟩ := exists_of_mem_importTask member
  rw [state_toNode_projectNode] at waiting
  obtain ⟨dep, depMem, unmet⟩ := Task.exists_unmet waiting
  obtain ⟨row, rowMem, -, sameId, finished⟩ := done dep depMem
  obtain ⟨other, otherMem, rfl⟩ := exists_of_mem_importTask rowMem
  rcases finished with succeeded | ⟨-, optional⟩
  · rw [state_toNode_projectNode] at succeeded
    refine unmet ?_
    rw [← sameId]
    exact (subtaskStatusIndex_of_mem distinct otherMem).trans
      (congrArg some (Task.completed_of_succeeded succeeded))
  · cases optional

end Import

/-- After the import of a task with distinct ids and existing, acyclic dependencies, in every state
that verbs lead to: all nodes have succeeded, or one with its dependencies done is ready, runs with
an attempt of its own, has failed or is cancelled. -/
theorem progress_of_run {task : Task} (distinct : (task.subtasks.map Subtask.id).Nodup)
    (known : ∀ dep id, task.Precedes dep id → ∃ subtask ∈ task.subtasks, subtask.id = dep)
    (acyclic : ∀ id, ¬ Relation.TransGen task.Precedes id id)
    {calls : List (Timestamp × Verb)} {target : Tables}
    (run : Run lifecycleStep (importTask task .empty) calls target) :
    (∀ node ∈ target.nodes.rows, node.state = succeeded.asStr) ∨
      ∃ node ∈ target.nodes.rows, target.DependenciesDone node ∧
        (node.state = ready.asStr ∨
          node.state = running.asStr ∧ target.HasRunning node.nodeId ∨
          node.state = failed.asStr ∨ node.state = cancelled.asStr) := by
  have consistent := Consistent.run run (consistent_importTask (Task.coherent_of_nodup distinct))
  have step : ∀ before (call : Timestamp × Verb) after,
      Arranged task.id before ∧ before.NoLostWakeUp → True → lifecycleStep before call after →
        Arranged task.id after ∧ after.NoLostWakeUp := by
    intro before call after holds _ taken
    rw [← taken.2]
    exact ⟨holds.1.verb call.2 call.1, holds.2.verb call.2 call.1⟩
  obtain ⟨arranged, awake⟩ := run.invariant _ step (fun _ _ => trivial)
    ⟨arranged_importTask known acyclic, awake_importTask distinct⟩
  by_contra stuck
  push Not at stuck
  obtain ⟨⟨node, member, unfinished⟩, still⟩ := stuck
  let unfinishedNodes := target.nodes.rows.filter fun node => node.state ≠ succeeded.asStr
  have stays : ∀ node ∈ target.nodes.rows, node.state ≠ succeeded.asStr →
      ∃ other ∈ target.nodes.rows, other.nodeId ∈ node.dependencies ∧
        other.state ≠ succeeded.asStr := by
    intro node member unfinished
    rcases arranged.waits awake member with waits | ⟨done, status, live, state⟩
    · exact waits
    · obtain ⟨notReady, idle, notFailed, notCancelled⟩ := still node member done
      simp only [mem_cons, not_mem_nil, or_false] at live
      rcases live with rfl | rfl | rfl | rfl | rfl
      · exact absurd state notReady
      · exact absurd ((consistent.running node member).mp state) (idle state)
      · exact absurd state unfinished
      · exact absurd state notFailed
      · exact absurd state notCancelled
  have waited : ∀ nodeId ∈ unfinishedNodes.map GraphNode.nodeId,
      ∃ dep ∈ unfinishedNodes.map GraphNode.nodeId, target.DependsOn nodeId dep := by
    intro nodeId stuckMem
    obtain ⟨node, nodeMem, rfl⟩ := mem_map.mp stuckMem
    obtain ⟨rowMem, unfinished⟩ := mem_filter.mp nodeMem
    obtain ⟨other, otherMem, depends, otherUnfinished⟩ :=
      stays node rowMem (of_decide_eq_true unfinished)
    exact ⟨other.nodeId, mem_map_of_mem (mem_filter.mpr ⟨otherMem, decide_eq_true otherUnfinished⟩),
      node, rowMem, rfl, depends⟩
  have listed : node ∈ unfinishedNodes := mem_filter.mpr ⟨member, decide_eq_true unfinished⟩
  obtain ⟨nodeId, -, cycle⟩ := @Search.exists_cycle _
    (fun dep nodeId => target.DependsOn nodeId dep) _ (ne_nil_of_mem (mem_map_of_mem listed)) waited
  exact arranged.acyclic nodeId cycle

theorem progress_of_run_chainTask :
    ∃ target, Run lifecycleStep (importTask chainTask .empty)
        [(1, .scheduleAttempt "g" "a" none), (2, .commitOnce "g" "a" "g:a:0" none)] target ∧
      ∃ node ∈ target.nodes.rows, target.DependenciesDone node ∧
        (node.state = ready.asStr ∨
          node.state = running.asStr ∧ target.HasRunning node.nodeId ∨
          node.state = failed.asStr ∨ node.state = cancelled.asStr) := by
  have pair : ∀ dep id, chainTask.Precedes dep id → dep = "a" ∧ id = "b" := by
    intro dep id precedes
    obtain ⟨subtask, member, rfl, depMem⟩ := precedes
    rcases mem_pair.mp member with rfl | rfl
    · exact (not_mem_nil depMem).elim
    · exact ⟨mem_singleton.mp depMem, rfl⟩
  have acyclic : ∀ id, ¬ Relation.TransGen chainTask.Precedes id id := by
    intro id cycle
    obtain ⟨_, first, -⟩ := Relation.TransGen.head'_iff.mp cycle
    obtain ⟨_, -, last⟩ := Relation.TransGen.tail'_iff.mp cycle
    exact absurd ((pair _ _ first).1.symm.trans (pair _ _ last).2) (by decide)
  have run : Run lifecycleStep (importTask chainTask .empty)
      [(1, .scheduleAttempt "g" "a" none), (2, .commitOnce "g" "a" "g:a:0" none)] _ :=
    .cons ⟨trivial, rfl⟩ (.cons ⟨by unfold Verb.Owned Owns; decide, rfl⟩ (.nil _))
  refine ⟨_, run, (progress_of_run (by decide) (fun dep id precedes => ?_) acyclic
    run).resolve_left (by decide)⟩
  rw [(pair dep id precedes).1]
  exact ⟨pendingSubtask "a" [], mem_cons_self, rfl⟩

end UltimateCoders.Graph
