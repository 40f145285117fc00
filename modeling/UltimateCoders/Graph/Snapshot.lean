import UltimateCoders.Graph.Consistency

/-! # Snapshots that agree with the tables

A task snapshot carries attempt and completion rows of its own. Writing it
keeps the graph consistent when it claims no success and no running attempt
that the tables do not already have.
-/

namespace UltimateCoders.Graph

open Relational Transition NodeStatus List

/-- Subtasks sharing an id agree on whether they run, under which retry number,
and on whether they succeeded. -/
def Task.Coherent (task : Task) : Prop :=
  ∀ first ∈ task.subtasks, ∀ second ∈ task.subtasks, first.id = second.id →
    (task.nodeState first = running.asStr →
      task.nodeState second = running.asStr ∧
        retryNoOf first.retryCount = retryNoOf second.retryCount) ∧
    (task.nodeState first = succeeded.asStr → task.nodeState second = succeeded.asStr)

variable {task : Task} {subtask : Subtask}

theorem Task.coherent_of_nodup (distinct : (task.subtasks.map Subtask.id).Nodup) :
    task.Coherent := by
  intro first firstMem second secondMem same
  have equal := inj_on_of_nodup_map distinct firstMem secondMem same
  subst equal
  exact ⟨fun running => ⟨running, rfl⟩, fun succeeded => succeeded⟩

/-- The snapshot claims no success and no running attempt that the tables do not
have: a stored node it reports as succeeded has succeeded, and of a stored node
it reports as running the reported attempt is stored. -/
structure Task.BackedBy (task : Task) (tables : Tables) : Prop where
  succeeded : ∀ subtask ∈ task.subtasks, task.nodeState subtask = succeeded.asStr →
    ∀ node ∈ tables.nodes.rows, node.nodeId = subtask.id → node.state = succeeded.asStr
  running : ∀ subtask ∈ task.subtasks, task.nodeState subtask = running.asStr →
    tables.HasNode subtask.id → ∃ attempt ∈ tables.attempts.rows,
      attempt.attemptId = attemptId task.id subtask.id (retryNoOf subtask.retryCount)

/-- A coherent snapshot that is backed by the tables. -/
structure Task.SafeFor (task : Task) (tables : Tables) : Prop extends task.BackedBy tables where
  coherent : task.Coherent

/-- The attempt row a snapshot offers for a subtask. -/
structure OfferedAttempt (task : Task) (subtask : Subtask) (row : TaskAttempt) : Prop where
  graphId : row.graphId = task.id
  nodeId : row.nodeId = subtask.id
  retryNo : row.retryNo = retryNoOf subtask.retryCount
  attemptId : row.attemptId = attemptId task.id subtask.id (retryNoOf subtask.retryCount)
  status : row.status = task.nodeState subtask
  workerEpoch : row.workerEpoch = none

/-- The completion row a snapshot offers for a subtask. -/
structure OfferedCompletion (task : Task) (subtask : Subtask) (row : NodeCompletion) : Prop where
  graphId : row.graphId = task.id
  nodeId : row.nodeId = subtask.id
  winningAttemptId : row.winningAttemptId =
    attemptId task.id subtask.id (retryNoOf subtask.retryCount)
  succeeded : task.nodeState subtask = succeeded.asStr

/-- The attempt rows a snapshot offers. -/
def Task.offeredAttempts (task : Task) : List TaskAttempt :=
  (projectTask task).attempts.map fun attempt => attempt.toAttempt task.id

/-- The completion rows a snapshot offers. -/
def Task.offeredCompletions (task : Task) : List NodeCompletion :=
  (projectTask task).completions.map fun completion =>
    completion.toCompletion task.id task.updatedAt

/-- The snapshot reports an attempt of the subtask. -/
def Task.Tried (task : Task) (subtask : Subtask) : Prop :=
  ¬ (task.nodeState subtask = ready.asStr ∨ task.nodeState subtask = created.asStr)

theorem attemptAndCompletion_of_tried {state : String}
    (tried : ¬ (state = ready.asStr ∨ state = created.asStr))
    (graphId nodeId : String) (retryCount : Nat) (workerId : Option String)
    (startedAt finishedAt : Option Timestamp) :
    ∃ attempt completion,
      attemptAndCompletion graphId nodeId state retryCount workerId startedAt finishedAt =
        (some attempt, if state = succeeded.asStr then some completion else none) ∧
      attempt.nodeId = nodeId ∧ attempt.retryNo = retryNoOf retryCount ∧
      attempt.attemptId = attemptId graphId nodeId (retryNoOf retryCount) ∧
      attempt.status = state ∧ completion.nodeId = nodeId ∧
      completion.winningAttemptId = attemptId graphId nodeId (retryNoOf retryCount) :=
  ⟨_, _, if_neg tried, rfl, rfl, rfl, rfl, rfl, rfl⟩

theorem projectAttempt_of_not_tried (untried : ¬ task.Tried subtask) :
    projectAttempt task subtask = (none, none) := by
  simp only [projectAttempt, attemptAndCompletion, if_pos (not_not.mp untried)]

theorem projectAttempt_of_tried (tried : task.Tried subtask) :
    ∃ attempt completion, projectAttempt task subtask = (some attempt,
        if task.nodeState subtask = succeeded.asStr then some completion else none) ∧
      OfferedAttempt task subtask (attempt.toAttempt task.id) ∧
      (task.nodeState subtask = succeeded.asStr →
        OfferedCompletion task subtask (completion.toCompletion task.id task.updatedAt)) := by
  obtain ⟨attempt, completion, pair, nodeId, retryNo, name, status, completionNode, winner⟩ :=
    attemptAndCompletion_of_tried tried task.id subtask.id subtask.retryCount _ _ _
  exact ⟨attempt, completion, pair, ⟨rfl, nodeId, retryNo, name, status, rfl⟩,
    fun succeeded => ⟨rfl, completionNode, winner, succeeded⟩⟩

theorem Task.exists_of_mem_offeredAttempts {row : TaskAttempt}
    (offered : row ∈ task.offeredAttempts) :
    ∃ subtask ∈ task.subtasks, OfferedAttempt task subtask row := by
  obtain ⟨attempt, attemptMem, rfl⟩ := mem_map.mp offered
  obtain ⟨subtask, subtaskMem, projected⟩ := mem_filterMap.mp attemptMem
  refine ⟨subtask, subtaskMem, ?_⟩
  by_cases tried : task.Tried subtask
  · obtain ⟨row, completion, pair, offeredRow, -⟩ := projectAttempt_of_tried tried
    rw [pair] at projected
    cases projected
    exact offeredRow
  · rw [projectAttempt_of_not_tried tried] at projected
    cases projected

theorem Task.exists_offeredAttempt (member : subtask ∈ task.subtasks) (tried : task.Tried subtask) :
    ∃ row ∈ task.offeredAttempts, OfferedAttempt task subtask row := by
  obtain ⟨row, completion, pair, offeredRow, -⟩ := projectAttempt_of_tried tried
  refine ⟨row.toAttempt task.id, mem_map_of_mem (mem_filterMap.mpr
    ⟨subtask, member, ?_⟩), offeredRow⟩
  rw [pair]

theorem Task.exists_of_mem_offeredCompletions {row : NodeCompletion}
    (offered : row ∈ task.offeredCompletions) :
    ∃ subtask ∈ task.subtasks, OfferedCompletion task subtask row := by
  obtain ⟨completion, completionMem, rfl⟩ := mem_map.mp offered
  obtain ⟨subtask, subtaskMem, projected⟩ := mem_filterMap.mp completionMem
  refine ⟨subtask, subtaskMem, ?_⟩
  by_cases tried : task.Tried subtask
  · obtain ⟨attempt, row, pair, -, offeredRow⟩ := projectAttempt_of_tried tried
    rw [pair] at projected
    by_cases succeeded : task.nodeState subtask = succeeded.asStr
    · rw [if_pos succeeded] at projected
      cases projected
      exact offeredRow succeeded
    · rw [if_neg succeeded] at projected
      cases projected
  · rw [projectAttempt_of_not_tried tried] at projected
    cases projected

theorem Task.tried_of_running (running : task.nodeState subtask = running.asStr) :
    task.Tried subtask := by
  rw [Task.Tried, running]
  decide

theorem Task.tried_of_succeeded (succeeded : task.nodeState subtask = succeeded.asStr) :
    task.Tried subtask := by
  rw [Task.Tried, succeeded]
  decide

theorem Task.exists_offeredCompletion (member : subtask ∈ task.subtasks)
    (succeeded : task.nodeState subtask = succeeded.asStr) :
    ∃ row ∈ task.offeredCompletions, OfferedCompletion task subtask row := by
  obtain ⟨attempt, completion, pair, -, offeredRow⟩ :=
    projectAttempt_of_tried (Task.tried_of_succeeded succeeded)
  refine ⟨completion.toCompletion task.id task.updatedAt, mem_map_of_mem
    (mem_filterMap.mpr ⟨subtask, member, ?_⟩), offeredRow succeeded⟩
  rw [pair, if_pos succeeded]

theorem writeProjection_projectTask_ok (task : Task) (shadow imported : Bool) (before : Tables) :
    ∃ stats after, writeProjection (projectTask task) shadow imported before = (.ok stats, after) := by
  refine writeProjection_ok ?_ ?_ shadow imported before
  · intro attempt member
    obtain ⟨subtask, subtaskMem, offered⟩ :=
      Task.exists_of_mem_offeredAttempts (mem_map_of_mem member)
    exact ⟨projectNode task subtask, mem_map_of_mem subtaskMem, offered.nodeId.symm⟩
  · intro completion member
    obtain ⟨subtask, subtaskMem, offered⟩ :=
      Task.exists_of_mem_offeredCompletions (mem_map_of_mem member)
    exact ⟨projectNode task subtask, mem_map_of_mem subtaskMem, offered.nodeId.symm⟩

theorem writeProjection_projectTask (task : Task) (shadow imported : Bool) (before : Tables) :
    ∃ stats, (writeProjection (projectTask task) shadow imported before).1 = .ok stats ∧
      Written (projectTask task) before
        (writeProjection (projectTask task) shadow imported before).2 := by
  obtain ⟨stats, after, ran⟩ := writeProjection_projectTask_ok task shadow imported before
  rcases writeProjection_spec (projectTask task) shadow imported before with
    ⟨failure, failed⟩ | ⟨result, tables, wrote, written⟩
  · rw [failed] at ran
    cases ran
  · rw [wrote]
    exact ⟨result, rfl, written⟩

theorem written_importTask (task : Task) (before : Tables) :
    Written (projectTask task) before (importTask task before) :=
  (writeProjection_projectTask task false true before).choose_spec.2

section Written

variable {task : Task} {before after : Tables}

section

variable (written : Written (projectTask task) before after)

include written

theorem Written.attempts_append : ∃ added, after.attempts.rows = before.attempts.rows ++ added ∧
      ∀ row ∈ added, row ∈ task.offeredAttempts ∧ before.attempts.Free row := by
  obtain ⟨added, rows, origin⟩ :=
    before.attempts.rows_insertAllOrIgnore task.offeredAttempts
  refine ⟨added, ?_, origin⟩
  rw [← rows, written.attempts]
  rfl

theorem Written.completions_append :
    ∃ added, after.completions.rows = before.completions.rows ++ added ∧
      ∀ row ∈ added, row ∈ task.offeredCompletions ∧ before.completions.Free row := by
  obtain ⟨added, rows, origin⟩ :=
    before.completions.rows_insertAllOrIgnore task.offeredCompletions
  refine ⟨added, ?_, origin⟩
  rw [← rows, written.completions]
  rfl

theorem Written.node_cases {row : GraphNode} (member : row ∈ after.nodes.rows) :
    (∃ node ∈ before.nodes.rows, row.SameNode node) ∨
      (row.graphId = task.id ∧ before.node? task.id row.nodeId = none ∧
        ∃ subtask ∈ task.subtasks, subtask.id = row.nodeId ∧ task.nodeState subtask = row.state) := by
  obtain ⟨keep, appended, rows, same, inserted⟩ := written.nodes
  rw [rows] at member
  rcases mem_append.mp member with kept | added
  · obtain ⟨node, nodeMem, rfl⟩ := mem_map.mp kept
    exact .inl ⟨node, nodeMem, same node⟩
  · obtain ⟨origin, fresh⟩ := inserted row added
    obtain ⟨offered, offeredMem, nodeId, state⟩ := origin.offered
    obtain ⟨subtask, subtaskMem, rfl⟩ := mem_map.mp offeredMem
    rw [projectNode_nodeId] at nodeId
    rw [projectNode_state] at state
    exact .inr ⟨origin.graphId, fresh, subtask, subtaskMem, nodeId, state⟩

theorem Written.hasNode {nodeId : String} (stored : before.HasNode nodeId) :
    after.HasNode nodeId := by
  obtain ⟨keep, appended, rows, same, -⟩ := written.nodes
  obtain ⟨node, member, key⟩ := stored
  refine ⟨keep node, ?_, (same node).nodeId.trans key⟩
  rw [rows]
  exact mem_append_left _ (mem_map_of_mem member)

theorem Written.hasNode_of_subtask (member : subtask ∈ task.subtasks) :
    after.HasNode subtask.id := by
  have stored := written.stored (projectNode task subtask) (mem_map_of_mem member)
  obtain ⟨row, found⟩ := Option.isSome_iff_exists.mp stored
  obtain ⟨rowMem, -, key⟩ := Tables.node?_eq_some.mp found
  exact ⟨row, rowMem, key⟩

end

variable (consistent : Consistent task.id before)

include consistent

theorem Consistent.hasNode_iff (nodeId : String) :
    before.HasNode nodeId ↔ (before.node? task.id nodeId).isSome := by
  constructor
  · rintro ⟨node, member, key⟩
    exact Tables.node?_isSome_of_mem member (consistent.nodeGraph node member) key
  · intro stored
    obtain ⟨node, found⟩ := Option.isSome_iff_exists.mp stored
    obtain ⟨member, -, key⟩ := Tables.node?_eq_some.mp found
    exact ⟨node, member, key⟩

theorem Written.exists_attempt (written : Written (projectTask task) before after)
    (member : subtask ∈ task.subtasks) (tried : task.Tried subtask)
    (fresh : ¬ before.HasNode subtask.id) : ∃ row ∈ after.attempts.rows,
      row.attemptId = attemptId task.id subtask.id (retryNoOf subtask.retryCount) ∧
        ∃ other ∈ task.subtasks, other.id = subtask.id ∧ OfferedAttempt task other row := by
  obtain ⟨row, offered, offeredRow⟩ := Task.exists_offeredAttempt member tried
  obtain ⟨stored, storedMem, clashes⟩ :=
    before.attempts.exists_clash_insertAllOrIgnore task.offeredAttempts offered
  have storedMem : stored ∈ after.attempts.rows := by
    rw [written.attempts]
    exact storedMem
  obtain ⟨added, rows, origin⟩ := written.attempts_append
  rw [rows] at storedMem
  rcases mem_append.mp storedMem with old | new
  · have sameNode : stored.nodeId = subtask.id := by
      rcases clashes with sameId | ⟨sameNode, -⟩
      · rw [consistent.attemptName stored old, offeredRow.attemptId] at sameId
        exact nodeId_eq_of_attemptId_eq sameId
      · exact sameNode.trans offeredRow.nodeId
    rw [← sameNode] at fresh
    exact (fresh (consistent.attemptNode stored old)).elim
  · obtain ⟨other, otherMem, otherRow⟩ := Task.exists_of_mem_offeredAttempts (origin stored new).1
    have sameId : stored.attemptId = row.attemptId := by
      rcases clashes with sameId | ⟨sameNode, sameRetry⟩
      · exact sameId
      · rw [otherRow.attemptId, offeredRow.attemptId, ← otherRow.nodeId, ← otherRow.retryNo,
          sameNode, sameRetry, offeredRow.nodeId, offeredRow.retryNo]
    refine ⟨stored, ?_, sameId.trans offeredRow.attemptId, other, otherMem, ?_, otherRow⟩
    · rw [rows]
      exact mem_append_right _ new
    · rw [otherRow.attemptId, offeredRow.attemptId] at sameId
      exact nodeId_eq_of_attemptId_eq sameId

variable (safe : task.SafeFor before)

include safe

omit consistent in
/-- A safe snapshot adds a running attempt to new nodes only. -/
theorem Task.SafeFor.fresh_of_running {row : TaskAttempt} (offered : row ∈ task.offeredAttempts)
    (free : before.attempts.Free row) (running : row.status = "RUNNING") :
    ¬ before.HasNode row.nodeId := by
  intro stored
  obtain ⟨subtask, member, offeredRow⟩ := Task.exists_of_mem_offeredAttempts offered
  rw [offeredRow.nodeId] at stored
  obtain ⟨attempt, attemptMem, name⟩ :=
    safe.running subtask member (offeredRow.status.symm.trans running) stored
  exact free attempt attemptMem (.inl (name.trans offeredRow.attemptId.symm))

theorem Task.SafeFor.fresh_of_completion {row : NodeCompletion}
    (offered : row ∈ task.offeredCompletions) (free : before.completions.Free row) :
    ¬ before.HasNode row.nodeId := by
  rintro ⟨node, nodeMem, key⟩
  obtain ⟨subtask, member, offeredRow⟩ := Task.exists_of_mem_offeredCompletions offered
  have done := safe.succeeded subtask member offeredRow.succeeded node nodeMem
    (key.trans offeredRow.nodeId)
  obtain ⟨completion, completionMem, same⟩ := (consistent.completed node nodeMem).mp done
  exact free completion completionMem (same.trans key)

section

variable (written : Written (projectTask task) before after)

include written

/-- After a safe snapshot a node still runs exactly while it has a running
attempt. -/
theorem Written.running_iff {row : GraphNode} (member : row ∈ after.nodes.rows) :
    row.state = running.asStr ↔ after.HasRunning row.nodeId := by
  obtain ⟨added, attempts, origin⟩ := written.attempts_append
  have hasRunning : after.HasRunning row.nodeId ↔ before.HasRunning row.nodeId ∨
      ∃ attempt ∈ added, attempt.nodeId = row.nodeId ∧ attempt.status = "RUNNING" := by
    simp only [Tables.HasRunning, attempts, mem_append, or_and_right, exists_or]
  rw [hasRunning]
  rcases written.node_cases member with ⟨node, nodeMem, same⟩ |
    ⟨-, fresh, subtask, subtaskMem, key, state⟩
  · rw [same.state, same.nodeId, consistent.running node nodeMem]
    refine (or_iff_left ?_).symm
    rintro ⟨attempt, new, sameNode, live⟩
    exact safe.fresh_of_running (origin attempt new).1 (origin attempt new).2 live
      ⟨node, nodeMem, sameNode.symm⟩
  · have absent : ¬ before.HasNode row.nodeId := by
      rw [consistent.hasNode_iff, fresh]
      exact Bool.false_ne_true
    rw [← state]
    constructor
    · intro running
      rw [← key] at absent
      obtain ⟨attempt, stored, -, other, otherMem, sameId, offered⟩ :=
        written.exists_attempt consistent subtaskMem (Task.tried_of_running running) absent
      have otherRunning := ((safe.coherent subtask subtaskMem other otherMem sameId.symm).1
        running).1
      exact hasRunning.mp ⟨attempt, stored, offered.nodeId.trans (sameId.trans key),
        offered.status.trans otherRunning⟩
    · rintro (⟨attempt, old, sameNode, -⟩ | ⟨attempt, new, sameNode, live⟩)
      · rw [← sameNode] at absent
        exact (absent (consistent.attemptNode attempt old)).elim
      · obtain ⟨other, otherMem, offered⟩ :=
          Task.exists_of_mem_offeredAttempts (origin attempt new).1
        have sameId : other.id = subtask.id :=
          offered.nodeId.symm.trans (sameNode.trans key.symm)
        exact ((safe.coherent other otherMem subtask subtaskMem sameId).1
          (offered.status.symm.trans live)).1

theorem Written.completed_iff {row : GraphNode} (member : row ∈ after.nodes.rows) :
    row.state = succeeded.asStr ↔ after.HasCompletion row.nodeId := by
  obtain ⟨added, completions, origin⟩ := written.completions_append
  have hasCompletion : after.HasCompletion row.nodeId ↔ before.HasCompletion row.nodeId ∨
      ∃ completion ∈ added, completion.nodeId = row.nodeId := by
    simp only [Tables.HasCompletion, completions, mem_append, or_and_right, exists_or]
  rw [hasCompletion]
  rcases written.node_cases member with ⟨node, nodeMem, same⟩ |
    ⟨-, fresh, subtask, subtaskMem, key, state⟩
  · rw [same.state, same.nodeId, consistent.completed node nodeMem]
    refine (or_iff_left ?_).symm
    rintro ⟨completion, new, sameNode⟩
    exact safe.fresh_of_completion consistent (origin completion new).1 (origin completion new).2
      ⟨node, nodeMem, sameNode.symm⟩
  · have absent : ¬ before.HasNode row.nodeId := by
      rw [consistent.hasNode_iff, fresh]
      exact Bool.false_ne_true
    rw [← state]
    constructor
    · intro succeeded
      obtain ⟨completion, offered, offeredRow⟩ :=
        Task.exists_offeredCompletion subtaskMem succeeded
      obtain ⟨stored, storedMem, clashes⟩ :=
        before.completions.exists_clash_insertAllOrIgnore task.offeredCompletions offered
      refine hasCompletion.mp ⟨stored, ?_, ?_⟩
      · rw [written.completions]
        exact storedMem
      · exact Eq.trans clashes (offeredRow.nodeId.trans key)
    · rintro (⟨completion, old, sameNode⟩ | ⟨completion, new, sameNode⟩)
      · rw [← sameNode] at absent
        exact (absent (consistent.completionNode completion old)).elim
      · obtain ⟨other, otherMem, offered⟩ :=
          Task.exists_of_mem_offeredCompletions (origin completion new).1
        have sameId : other.id = subtask.id :=
          offered.nodeId.symm.trans (sameNode.trans key.symm)
        exact (safe.coherent other otherMem subtask subtaskMem sameId).2 offered.succeeded

/-- Writing a safe snapshot keeps the graph consistent. -/
theorem Consistent.of_written : Consistent task.id after := by
  obtain ⟨addedAttempts, attempts, attemptOrigin⟩ := written.attempts_append
  obtain ⟨addedCompletions, completions, completionOrigin⟩ := written.completions_append
  have offered (row : TaskAttempt) (new : row ∈ addedAttempts) :=
    Task.exists_of_mem_offeredAttempts (attemptOrigin row new).1
  have completes (row : NodeCompletion) (new : row ∈ addedCompletions) :=
    Task.exists_of_mem_offeredCompletions (completionOrigin row new).1
  have fresh {row : TaskAttempt} (new : row ∈ addedAttempts) (running : row.status = "RUNNING") :=
    safe.fresh_of_running (attemptOrigin row new).1 (attemptOrigin row new).2 running
  exact {
    nodeGraph := by
      intro row member
      rcases written.node_cases member with ⟨node, nodeMem, same⟩ | ⟨sameGraph, -, -⟩
      · exact same.graphId.trans (consistent.nodeGraph node nodeMem)
      · exact sameGraph
    attemptGraph := by
      rw [attempts, forall_mem_append]
      refine ⟨consistent.attemptGraph, fun row new => ?_⟩
      obtain ⟨subtask, -, offered⟩ := offered row new
      exact offered.graphId
    attemptNode := by
      rw [attempts, forall_mem_append]
      refine ⟨fun row old => written.hasNode (consistent.attemptNode row old), fun row new => ?_⟩
      obtain ⟨subtask, subtaskMem, offered⟩ := offered row new
      rw [offered.nodeId]
      exact written.hasNode_of_subtask subtaskMem
    attemptName := by
      rw [attempts, forall_mem_append]
      refine ⟨consistent.attemptName, fun row new => ?_⟩
      obtain ⟨subtask, -, offered⟩ := offered row new
      rw [offered.attemptId, offered.nodeId, offered.retryNo]
    single := by
      intro first firstMem second secondMem same firstLive secondLive
      rw [attempts, mem_append] at firstMem secondMem
      rcases firstMem, secondMem with ⟨firstOld | firstNew, secondOld | secondNew⟩
      · exact consistent.single first firstOld second secondOld same firstLive secondLive
      · exact absurd (same ▸ consistent.attemptNode first firstOld) (fresh secondNew secondLive)
      · exact absurd (same ▸ consistent.attemptNode second secondOld) (fresh firstNew firstLive)
      · obtain ⟨left, leftMem, leftRow⟩ := offered first firstNew
        obtain ⟨right, rightMem, rightRow⟩ := offered second secondNew
        have sameId : left.id = right.id := leftRow.nodeId.symm.trans (same.trans rightRow.nodeId)
        have sameRetry := ((safe.coherent left leftMem right rightMem sameId).1
          (leftRow.status.symm.trans firstLive)).2
        exact after.attempts.eq_of_clash (attempts ▸ mem_append_right _ firstNew)
          (attempts ▸ mem_append_right _ secondNew) (.inr ⟨same,
            leftRow.retryNo.trans (sameRetry.trans rightRow.retryNo.symm)⟩)
    running := fun row member => written.running_iff consistent safe member
    completionGraph := by
      rw [completions, forall_mem_append]
      refine ⟨consistent.completionGraph, fun row new => ?_⟩
      obtain ⟨subtask, -, offered⟩ := completes row new
      exact offered.graphId
    completionNode := by
      rw [completions, forall_mem_append]
      refine ⟨fun row old => written.hasNode (consistent.completionNode row old), fun row new => ?_⟩
      obtain ⟨subtask, subtaskMem, offered⟩ := completes row new
      rw [offered.nodeId]
      exact written.hasNode_of_subtask subtaskMem
    completed := fun row member => written.completed_iff consistent safe member
    winner := by
      rw [completions, forall_mem_append]
      refine ⟨fun completion old => ?_, fun completion new => ?_⟩
      · obtain ⟨winner, winnerMem, facts⟩ := consistent.winner completion old
        exact ⟨winner, attempts ▸ mem_append_left _ winnerMem, facts⟩
      · obtain ⟨subtask, subtaskMem, offered⟩ := completes completion new
        have absent := safe.fresh_of_completion consistent (completionOrigin completion new).1
          (completionOrigin completion new).2
        rw [offered.nodeId] at absent
        obtain ⟨winner, winnerMem, name, other, otherMem, sameId, offeredRow⟩ :=
          written.exists_attempt consistent subtaskMem (Task.tried_of_succeeded offered.succeeded)
            absent
        have succeeded := (safe.coherent subtask subtaskMem other otherMem sameId.symm).2
          offered.succeeded
        exact ⟨winner, winnerMem, name.trans offered.winningAttemptId.symm,
          offeredRow.nodeId.trans (sameId.trans offered.nodeId.symm),
          offeredRow.status.trans succeeded⟩
    epochs := by
      have unmarked (row : TaskAttempt) (new : row ∈ addedAttempts) : row.workerEpoch = none := by
        obtain ⟨subtask, -, offered⟩ := offered row new
        exact offered.workerEpoch
      rw [attempts]
      refine pairwise_append.mpr ⟨consistent.epochs, ?_, ?_⟩
      · refine pairwise_of_forall_mem_list fun earlier _ later new _ epoch found => ?_
        simp [unmarked later new] at found
      · intro earlier _ later new _ epoch found
        simp [unmarked later new] at found }

end

end Written

end UltimateCoders.Graph
