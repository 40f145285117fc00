import UltimateCoders.Graph.Statements
import UltimateCoders.Transition.Run

/-! # What a lifecycle transaction can change

Every lifecycle transaction is a sequence of the changes below. A change says
which node, attempt and completion rows it replaces and under which guard, so
that an invariant of the rows is checked once per change and then holds after
every verb.
-/

namespace UltimateCoders.Graph

open Relational Transition
open NodeStatus (cancelled scheduled)
open Tx List

/-- Two rows of the same attempt: everything but its progress agrees. -/
structure TaskAttempt.SameAttempt (first second : TaskAttempt) : Prop where
  attemptId : first.attemptId = second.attemptId
  graphId : first.graphId = second.graphId
  nodeId : first.nodeId = second.nodeId
  retryNo : first.retryNo = second.retryNo
  workerEpoch : first.workerEpoch = second.workerEpoch

/-- The attempts of `before` are still the attempts, with new statuses. -/
def Restated (before after : Tables) (status : TaskAttempt → String) : Prop :=
  ∃ restate : TaskAttempt → TaskAttempt,
    after.attempts.rows = before.attempts.rows.map restate ∧
      ∀ row ∈ before.attempts.rows, (restate row).SameAttempt row ∧ (restate row).status = status row

/-- The one node row moved to a state along a number of edges. -/
def Moved (before after : Tables) (node : GraphNode) (target : NodeStatus) (edges : Nat) : Prop :=
  after.nodes.rows = before.nodes.rows.map fun row =>
    if row = node then row.move target.asStr edges else row

/-- A move along a legal edge moves the node, along any other one nothing. -/
def MovedWhereLegal (before after : Tables) (node : GraphNode) (target : NodeStatus) : Prop :=
  if transitionOk node.state target.asStr = true then Moved before after node target 1
  else after.nodes = before.nodes

/-- The created nodes of a graph whose dependencies are done became ready. -/
def Recomputed (before after : Tables) (graphId : String) : Prop :=
  after.nodes.rows = before.nodes.rows.map fun row =>
    if row.graphId = graphId ∧ row.state = NodeStatus.created.asStr ∧
        dependenciesSatisfied (before.finishedNodes graphId) row = true then
      row.move NodeStatus.ready.asStr 1
    else row

/-- The changes lifecycle transactions are made of. -/
inductive Change where
  | idle
  | schedule (node : GraphNode) (attempt : TaskAttempt)
  | retry (node : GraphNode)
  | fail (node : GraphNode) (attempt : TaskAttempt) (target : NodeStatus)
  | commit (node : GraphNode) (attempt : TaskAttempt) (completion : NodeCompletion)
  | cancel (node : GraphNode) (attempt : Option TaskAttempt)
  | recompute (graphId : String)

/-- `change.Applies before after`: the guard of the change holds before and its
rows are replaced after. -/
inductive Change.Applies : Change → Tables → Tables → Prop where
  | idle {before after : Tables} (nodes : after.nodes = before.nodes)
      (attempts : Restated before after TaskAttempt.status)
      (completions : after.completions = before.completions) :
      Applies .idle before after
  | schedule {before after : Tables} {node : GraphNode} {attempt : TaskAttempt}
      (member : node ∈ before.nodes.rows) (ready : node.state = NodeStatus.ready.asStr)
      (graphId : attempt.graphId = node.graphId) (nodeId : attempt.nodeId = node.nodeId)
      (identity : attempt.attemptId = attemptId node.graphId node.nodeId attempt.retryNo)
      (running : attempt.status = "RUNNING")
      (retryNo : attempt.retryNo = nextRetryNo (before.attemptsOf node.graphId node.nodeId))
      (workerEpoch : attempt.workerEpoch =
        some (nextWorkerEpoch (before.attemptsOf node.graphId node.nodeId)))
      (free : before.attempts.Free attempt) (nodes : Moved before after node .running 2)
      (attempts : after.attempts.rows = before.attempts.rows ++ [attempt])
      (completions : after.completions = before.completions) :
      Applies (.schedule node attempt) before after
  | retry {before after : Tables} {node : GraphNode} (member : node ∈ before.nodes.rows)
      (failed : node.state = NodeStatus.failed.asStr) (nodes : Moved before after node .ready 1)
      (attempts : after.attempts = before.attempts)
      (completions : after.completions = before.completions) :
      Applies (.retry node) before after
  | fail {before after : Tables} {node : GraphNode} {attempt : TaskAttempt} {target : NodeStatus}
      (member : node ∈ before.nodes.rows) (attemptMem : attempt ∈ before.attempts.rows)
      (running : attempt.status = "RUNNING")
      (unfinished : node.state ≠ NodeStatus.succeeded.asStr)
      (targets : target = .ready ∨ target = .failed)
      (nodes : MovedWhereLegal before after node target)
      (attempts : Restated before after fun row => if row = attempt then "FAILED" else row.status)
      (completions : after.completions = before.completions) :
      Applies (.fail node attempt target) before after
  | commit {before after : Tables} {node : GraphNode} {attempt : TaskAttempt}
      {completion : NodeCompletion}
      (member : node ∈ before.nodes.rows) (attemptMem : attempt ∈ before.attempts.rows)
      (running : attempt.status = "RUNNING")
      (unfinished : node.state ≠ NodeStatus.succeeded.asStr)
      (nodeId : completion.nodeId = node.nodeId) (graphId : completion.graphId = node.graphId)
      (winner : completion.winningAttemptId = attempt.attemptId)
      (free : before.completions.Free completion)
      (nodes : MovedWhereLegal before after node .succeeded)
      (attempts : Restated before after
        fun row => if row = attempt then "SUCCEEDED" else row.status)
      (completions : after.completions.rows = before.completions.rows ++ [completion]) :
      Applies (.commit node attempt completion) before after
  | cancel {before after : Tables} {node : GraphNode} {attempt : Option TaskAttempt}
      (member : node ∈ before.nodes.rows)
      (live : transitionOk node.state cancelled.asStr = true)
      (chosen : ∀ row, attempt = some row →
        row ∈ before.attempts.rows ∧ row.graphId = node.graphId ∧ row.nodeId = node.nodeId ∧
          row.status = "RUNNING")
      (missing : attempt = none → ∀ row ∈ before.attempts.rows, row.graphId = node.graphId →
        row.nodeId = node.nodeId → row.status ≠ "RUNNING")
      (nodes : Moved before after node .cancelled 1)
      (attempts : Restated before after
        fun row => if some row = attempt then "FAILED" else row.status)
      (completions : after.completions = before.completions) :
      Applies (.cancel node attempt) before after
  | recompute {before after : Tables} {graphId : String}
      (nodes : Recomputed before after graphId) (attempts : after.attempts = before.attempts)
      (completions : after.completions = before.completions) :
      Applies (.recompute graphId) before after

variable {graphId nodeId : String} {node : GraphNode} {tables : Tables}

theorem MovedWhereLegal.of_legal {before after : Tables} {target : NodeStatus}
    (legal : transitionOk node.state target.asStr = true)
    (moved : Moved before after node target 1) : MovedWhereLegal before after node target := by
  rw [MovedWhereLegal, if_pos legal]
  exact moved

theorem MovedWhereLegal.of_illegal {before after : Tables} {target : NodeStatus}
    (illegal : ¬ transitionOk node.state target.asStr = true) (same : after.nodes = before.nodes) :
    MovedWhereLegal before after node target := by
  rw [MovedWhereLegal, if_neg illegal]
  exact same

theorem Restated.refl_of_eq {before after : Tables} (same : after.attempts = before.attempts) :
    Restated before after TaskAttempt.status :=
  ⟨id, by rw [same, map_id], fun row _ => ⟨⟨rfl, rfl, rfl, rfl, rfl⟩, rfl⟩⟩

theorem Change.Applies.idle_of_same {before after : Tables} (same : before.SameRows after) :
    Change.idle.Applies before after :=
  .idle same.nodes (.refl_of_eq same.attempts) same.completions

theorem map_key_eq_map_row (found : tables.node? graphId nodeId = some node)
    (change : GraphNode → GraphNode) :
    (tables.nodes.rows.map fun row =>
        if row.graphId = graphId ∧ row.nodeId = nodeId then change row else row) =
      tables.nodes.rows.map fun row => if row = node then change row else row := by
  obtain ⟨member, rfl, rfl⟩ := Tables.node?_eq_some.mp found
  apply map_congr_left
  intro row rowMem
  have same : (row.graphId = node.graphId ∧ row.nodeId = node.nodeId) ↔ row = node :=
    ⟨fun key => tables.nodes.eq_of_clash rowMem member ⟨key.2, key.1⟩,
      fun equal => by rw [equal]; exact ⟨rfl, rfl⟩⟩
  simp only [same]

theorem moved_moveNode {before tables after : Tables} {target : NodeStatus}
    (found : before.node? graphId nodeId = some node) (start : tables.nodes = before.nodes)
    (nodes : after.nodes = (tables.moveNode graphId nodeId target.asStr).nodes) :
    Moved before after node target 1 := by
  unfold Moved
  rw [nodes, Tables.moveNode_rows, start]
  exact map_key_eq_map_row found fun row => row.move target.asStr 1

theorem moved_moveNode_twice {before first second after : Tables} {middle target : NodeStatus}
    (found : before.node? graphId nodeId = some node) (start : first.nodes = before.nodes)
    (between : second.nodes = (first.moveNode graphId nodeId middle.asStr).nodes)
    (nodes : after.nodes = (second.moveNode graphId nodeId target.asStr).nodes) :
    Moved before after node target 2 := by
  unfold Moved
  rw [nodes, Tables.moveNode_rows, between, ← Tables.moveNode_rows, Tables.moveNode_moveNode_rows,
    start]
  exact map_key_eq_map_row found fun row => row.move target.asStr 2

theorem attemptId_eq_iff {id : String} {attempt : TaskAttempt}
    (found : tables.attempt? id = some attempt) {row : TaskAttempt}
    (rowMem : row ∈ tables.attempts.rows) : row.attemptId = id ↔ row = attempt := by
  obtain ⟨member, rfl⟩ := Tables.attempt?_eq_some.mp found
  constructor
  · intro same
    exact tables.attempts.eq_of_clash rowMem member (.inl same)
  · rintro rfl
    rfl

theorem restated_finishAttempts {attempt : TaskAttempt} {hit : TaskAttempt → Bool}
    (hits : ∀ row ∈ tables.attempts.rows, hit row = true ↔ row = attempt) (status : String)
    (now : Timestamp) (resultRef : Option String) :
    Restated tables (tables.finishAttempts hit status now resultRef)
      fun row => if row = attempt then status else row.status := by
  refine ⟨_, rfl, ?_⟩
  intro row rowMem
  by_cases same : row = attempt
  · subst same
    have isHit := (hits row rowMem).mpr rfl
    simp only [isHit, ↓reduceIte, and_true]
    exact ⟨rfl, rfl, rfl, rfl, rfl⟩
  · have noHit : ¬ hit row = true := fun isHit => same ((hits row rowMem).mp isHit)
    simp only [noHit, Bool.false_eq_true, ↓reduceIte, same, and_true]
    exact ⟨rfl, rfl, rfl, rfl, rfl⟩

/-- A dispatch of a ready node schedules it. -/
theorem scheduleAttemptTx_of_ready {workerId : Option String} {now : Timestamp}
    {before after : Tables} {result : Option String}
    (found : before.node? graphId nodeId = some node)
    (ready : node.state = NodeStatus.ready.asStr)
    (ran : (scheduleAttemptTx graphId nodeId workerId now).run before = .ok (result, after)) :
    ∃ attempt, result = some attempt.attemptId ∧
      (Change.schedule node attempt).Applies before after := by
  have first : transitionOk NodeStatus.ready.asStr scheduled.asStr = true := by decide
  have second : transitionOk scheduled.asStr NodeStatus.running.asStr = true := by
    decide
  unfold scheduleAttemptTx at ran
  rw [StateT.run_bind, StateT.run_get, pure_bind] at ran
  simp only [found] at ran
  rw [if_neg (by simp [ready, first, second])] at ran
  obtain ⟨probe, _, probed, ran⟩ := run_bind_ok ran
  obtain ⟨same, retryNo, workerEpoch⟩ := probeRetry_run probed
  rw [same] at ran
  obtain ⟨gv, bumped, bump, sameBumped⟩ := bumpGraphVersion_run before graphId now
  rw [run_bind_of bump] at ran
  have foundBumped := (sameBumped.node?_eq graphId nodeId).trans found
  rw [run_bind_of (casNodeState_run foundBumped ready rfl first)] at ran
  obtain ⟨noted, note, sameNoted⟩ := appendEvent_run
    (bumped.moveNode graphId nodeId scheduled.asStr) graphId (some nodeId) none
    (some gv) .nodeScheduled
  simp only [Bool.not_true, Bool.false_eq_true, ↓reduceIte] at ran
  have foundNoted := (sameNoted.node?_eq graphId nodeId).trans
    (Tables.node?_moveNode foundBumped scheduled.asStr)
  have run : (casNodeState graphId nodeId scheduled.asStr (node.version + 1)
      NodeStatus.running.asStr).run noted = _ := casNodeState_run foundNoted rfl rfl second
  rw [run_bind_of note, run_bind_of run] at ran
  simp only [Bool.not_true, Bool.false_eq_true, ↓reduceIte] at ran
  obtain ⟨moved, move, sameMoved⟩ := appendEvent_run
    (noted.moveNode graphId nodeId NodeStatus.running.asStr) graphId (some nodeId) none
    (some gv) .nodeRunning
  rw [run_bind_of move] at ran
  obtain ⟨_, inserted, insert, ran⟩ := run_bind_ok ran
  obtain ⟨free, insertedEq⟩ := insertAttempt_run insert
  obtain ⟨started, start, sameStarted⟩ := appendEvent_run inserted graphId (some nodeId)
    (some (attemptId graphId nodeId probe.1)) (some gv) .attemptStarted
  rw [run_bind_of start] at ran
  cases ran
  have attemptsEq : moved.attempts = before.attempts :=
    sameMoved.attempts.trans (sameNoted.attempts.trans sameBumped.attempts)
  obtain ⟨member, rfl, rfl⟩ := Tables.node?_eq_some.mp found
  refine ⟨_, rfl, .schedule member ready rfl rfl rfl rfl retryNo
    (congrArg some workerEpoch) (attemptsEq ▸ free) ?_ ?_ ?_⟩
  · refine moved_moveNode_twice found sameBumped.nodes sameNoted.nodes ?_
    rw [sameStarted.nodes, insertedEq]
    exact sameMoved.nodes
  · rw [sameStarted.attempts, insertedEq, ← attemptsEq]
    rfl
  · rw [sameStarted.completions, insertedEq]
    exact sameMoved.completions.trans (sameNoted.completions.trans sameBumped.completions)

theorem scheduleAttemptTx_changes {workerId : Option String} {now : Timestamp}
    {before after : Tables} {result : Option String}
    (ran : (scheduleAttemptTx graphId nodeId workerId now).run before = .ok (result, after)) :
    (result = none ∧ after = before) ∨
      ∃ node attempt, before.node? graphId nodeId = some node ∧
        result = some attempt.attemptId ∧ (Change.schedule node attempt).Applies before after := by
  cases found : before.node? graphId nodeId with
  | none =>
    unfold scheduleAttemptTx at ran
    rw [StateT.run_bind, StateT.run_get, pure_bind] at ran
    simp only [found] at ran
    cases ran
    exact .inl ⟨rfl, rfl⟩
  | some node =>
    by_cases ready : node.state = NodeStatus.ready.asStr
    · obtain ⟨attempt, started, applies⟩ := scheduleAttemptTx_of_ready found ready ran
      exact .inr ⟨node, attempt, rfl, started, applies⟩
    · unfold scheduleAttemptTx at ran
      rw [StateT.run_bind, StateT.run_get, pure_bind] at ran
      simp only [found] at ran
      rw [if_pos (.inl ready)] at ran
      cases ran
      exact .inl ⟨rfl, rfl⟩

theorem retryFailedNodeTx_changes (graphId nodeId : String) (now : Timestamp) (before : Tables) :
    ∃ result after, (retryFailedNodeTx graphId nodeId now).run before = .ok (result, after) ∧
      (after = before ∨ ∃ node, before.node? graphId nodeId = some node ∧
        (Change.retry node).Applies before after) := by
  unfold retryFailedNodeTx
  rw [StateT.run_bind, StateT.run_get, pure_bind]
  cases found : before.node? graphId nodeId with
  | none => exact ⟨_, _, rfl, .inl rfl⟩
  | some node =>
    by_cases failed : node.state = NodeStatus.failed.asStr
    · have legal : transitionOk node.state NodeStatus.ready.asStr = true := by
        rw [failed]
        decide
      obtain ⟨gv, bumped, bump, sameBumped⟩ := bumpGraphVersion_run before graphId now
      have foundBumped := (sameBumped.node?_eq graphId nodeId).trans found
      obtain ⟨noted, note, sameNoted⟩ := appendEvent_run
        (bumped.moveNode graphId nodeId NodeStatus.ready.asStr) graphId (some nodeId) none
        (some gv) .nodeRetried
      refine ⟨true, noted, ?_, .inr ⟨node, rfl, ?_⟩⟩
      · have guard : ¬ (node.state ≠ NodeStatus.failed.asStr ∨
            ¬ transitionOk node.state NodeStatus.ready.asStr = true) := by
          rintro (other | illegal)
          · exact other failed
          · exact illegal legal
        simp only [if_neg guard]
        rw [run_bind_of bump, run_bind_of (casNodeState_run foundBumped rfl rfl legal)]
        simp only [Bool.not_true, Bool.false_eq_true, ↓reduceIte]
        rw [run_bind_of note]
        rfl
      · exact .retry (Tables.node?_eq_some.mp found).1 failed
          (moved_moveNode found sameBumped.nodes sameNoted.nodes)
          (sameNoted.attempts.trans sameBumped.attempts)
          (sameNoted.completions.trans sameBumped.completions)
    · simp only [failed, ne_eq, not_false_eq_true, true_or, ↓reduceIte]
      exact ⟨_, _, rfl, .inl rfl⟩

theorem heartbeatAttemptTx_changes (attemptId : String) (now : Timestamp) (before : Tables) :
    ∃ result after, (heartbeatAttemptTx attemptId now).run before = .ok (result, after) ∧
      Change.idle.Applies before after := by
  unfold heartbeatAttemptTx
  rw [StateT.run_bind, StateT.run_get, pure_bind]
  cases found : before.attempt? attemptId with
  | none => exact ⟨_, _, rfl, .idle_of_same (.refl before)⟩
  | some attempt =>
    have beaten : ∀ hit, Restated before (before.beatAttempts hit now) TaskAttempt.status := by
      intro hit
      refine ⟨_, rfl, fun row _ => ?_⟩
      split
      · exact ⟨⟨rfl, rfl, rfl, rfl, rfl⟩, rfl⟩
      · exact ⟨⟨rfl, rfl, rfl, rfl, rfl⟩, rfl⟩
    simp only [StateT.run_bind, StateT.run_set, pure_bind]
    split
    · exact ⟨_, _, rfl, .idle rfl (beaten _) rfl⟩
    · exact ⟨_, _, rfl, .idle rfl (beaten _) rfl⟩

/-- The state a failed attempt leaves its node to: ready while retries are left. -/
def failTarget (attempt : TaskAttempt) (maxAttempts : Int) : NodeStatus :=
  if attempt.retryNo < lastRetryNo maxAttempts then .ready else .failed

/-- What the failure of an attempt is reported as. -/
def failReport (attempt : TaskAttempt) (maxAttempts : Int) : FailOutcome :=
  if failTarget attempt maxAttempts = .ready then .rearmedToReady else .nodeFailed

theorem failTarget_cases (attempt : TaskAttempt) (maxAttempts : Int) :
    failTarget attempt maxAttempts = .ready ∨ failTarget attempt maxAttempts = .failed := by
  unfold failTarget
  split
  · exact .inl rfl
  · exact .inr rfl

/-- Failing a live attempt restates it, and its node follows where the edge is
legal; the report is the same in both cases. -/
theorem failLiveAttempt_run {attempt : TaskAttempt} {before : Tables}
    (found : before.node? graphId nodeId = some node)
    (attemptMem : attempt ∈ before.attempts.rows) (running : attempt.status = "RUNNING")
    (unfinished : node.state ≠ NodeStatus.succeeded.asStr) (maxAttempts : Int) (now : Timestamp) :
    ∃ after, (failLiveAttempt graphId nodeId node attempt maxAttempts now).run before =
        .ok (failReport attempt maxAttempts, after) ∧
      (Change.fail node attempt (failTarget attempt maxAttempts)).Applies before after := by
  have hits : ∀ row ∈ before.attempts.rows,
      decide (row.attemptId = attempt.attemptId) = true ↔ row = attempt := by
    intro row rowMem
    rw [decide_eq_true_eq]
    exact attemptId_eq_iff (Tables.attempt?_eq_some.mpr ⟨attemptMem, rfl⟩) rowMem
  obtain ⟨gv, bumped, bump, sameBumped⟩ := bumpGraphVersion_run
    (before.finishAttempts (fun row => row.attemptId = attempt.attemptId) "FAILED" now none)
    graphId now
  obtain ⟨noted, note, sameNoted⟩ := appendEvent_run bumped graphId (some nodeId)
    (some attempt.attemptId) (some gv) .attemptFailed
  have same := sameBumped.trans sameNoted
  have restated : ∀ after : Tables, after.attempts = noted.attempts →
      Restated before after fun row => if row = attempt then "FAILED" else row.status := by
    intro after attempts
    unfold Restated
    rw [attempts, same.attempts]
    exact restated_finishAttempts hits "FAILED" now none
  have foundNoted := (same.node?_eq graphId nodeId).trans found
  have member := (Tables.node?_eq_some.mp found).1
  have targets := failTarget_cases attempt maxAttempts
  unfold failLiveAttempt
  rw [StateT.run_bind, StateT.run_modify, pure_bind, run_bind_of bump, run_bind_of note]
  unfold failReport
  unfold failTarget at targets ⊢
  generalize (if attempt.retryNo < lastRetryNo maxAttempts then NodeStatus.ready else .failed) =
    target at targets ⊢
  by_cases legal : transitionOk node.state target.asStr = true
  · simp only [legal, ↓reduceIte]
    rw [run_bind_of (casNodeState_run foundNoted rfl rfl legal)]
    obtain ⟨last, told, sameLast⟩ := appendEvent_run
      (noted.moveNode graphId nodeId target.asStr) graphId (some nodeId) (some attempt.attemptId)
      (some gv) (if (if target = .ready then FailOutcome.rearmedToReady else .nodeFailed) =
        .rearmedToReady then .nodeReady else .nodeFailed)
    rw [run_bind_of told]
    exact ⟨last, rfl, .fail member attemptMem running unfinished targets
      (.of_legal legal (moved_moveNode found same.nodes sameLast.nodes))
      (restated last sameLast.attempts) (sameLast.completions.trans same.completions)⟩
  · simp only [legal, Bool.false_eq_true, ↓reduceIte]
    exact ⟨noted, rfl, .fail member attemptMem running unfinished targets
      (.of_illegal legal same.nodes) (restated noted rfl) same.completions⟩

theorem failAttemptTx_run (graphId nodeId id : String) (maxAttempts : Int) (now : Timestamp)
    (before : Tables) :
    (∃ after, (failAttemptTx graphId nodeId id maxAttempts now).run before =
        .ok (.fenced, after) ∧ before.SameRows after ∧
      ∀ node attempt, before.node? graphId nodeId = some node →
        before.attempt? id = some attempt →
          ¬ (attempt.status = "RUNNING" ∧ node.state ≠ NodeStatus.succeeded.asStr)) ∨
      ∃ node attempt after, before.node? graphId nodeId = some node ∧
        before.attempt? id = some attempt ∧
        (attempt.status = "RUNNING" ∧ node.state ≠ NodeStatus.succeeded.asStr) ∧
        (failAttemptTx graphId nodeId id maxAttempts now).run before =
          .ok (failReport attempt maxAttempts, after) ∧
        (Change.fail node attempt (failTarget attempt maxAttempts)).Applies before after := by
  unfold failAttemptTx
  rw [StateT.run_bind, StateT.run_get, pure_bind]
  cases found : before.node? graphId nodeId with
  | none => exact .inl ⟨_, rfl, ⟨rfl, rfl, rfl⟩, by simp⟩
  | some node =>
    cases foundAttempt : before.attempt? id with
    | none => exact .inl ⟨_, rfl, ⟨rfl, rfl, rfl⟩, by simp⟩
    | some attempt =>
      obtain ⟨attemptMem, rfl⟩ := Tables.attempt?_eq_some.mp foundAttempt
      by_cases live : attempt.status = "RUNNING" ∧ node.state ≠ NodeStatus.succeeded.asStr
      · simp only [if_pos live]
        obtain ⟨after, ran, applies⟩ :=
          failLiveAttempt_run found attemptMem live.1 live.2 maxAttempts now
        exact .inr ⟨node, attempt, after, rfl, rfl, live, ran, applies⟩
      · simp only [if_neg live]
        refine .inl ⟨_, rfl, ⟨rfl, rfl, rfl⟩, ?_⟩
        rintro _ _ ⟨⟩ ⟨⟩
        exact live

theorem failAttemptTx_changes (graphId nodeId id : String) (maxAttempts : Int) (now : Timestamp)
    (before : Tables) :
    ∃ outcome after,
      (failAttemptTx graphId nodeId id maxAttempts now).run before = .ok (outcome, after) ∧
        (before.SameRows after ∨ ∃ node attempt target,
          before.node? graphId nodeId = some node ∧ before.attempt? id = some attempt ∧
            (Change.fail node attempt target).Applies before after) := by
  rcases failAttemptTx_run graphId nodeId id maxAttempts now before with
    ⟨after, ran, same, -⟩ | ⟨node, attempt, after, found, foundAttempt, -, ran, applies⟩
  · exact ⟨.fenced, after, ran, .inl same⟩
  · exact ⟨_, after, ran, .inr ⟨node, attempt, _, found, foundAttempt, applies⟩⟩

/-! ## Readiness -/

theorem ensureGraphVersion_run (tables : Tables) (graphId : String) (gv : Option Nat)
    (now : Timestamp) :
    ∃ version next, (ensureGraphVersion graphId gv now).run tables = .ok (version, next) ∧
      tables.SameRows next := by
  cases gv with
  | none => exact bumpGraphVersion_run tables graphId now
  | some version => exact ⟨version, tables, rfl, .refl tables⟩

/-- Flipping a list of stored created nodes moves exactly those of them whose
dependencies are done. -/
theorem flipReady_run (graphId : String) (finished : List GraphNode) (now : Timestamp)
    (candidates : List GraphNode) (gv : Option Nat) (before : Tables)
    (stored : ∀ node ∈ candidates, before.node? graphId node.nodeId = some node ∧
      node.state = NodeStatus.created.asStr)
    (distinct : candidates.Pairwise fun first second => first.nodeId ≠ second.nodeId) :
    ∃ flipped after,
      (flipReady graphId finished now candidates gv).run before = .ok (flipped, after) ∧
        after.nodes.rows = (before.nodes.rows.map fun row =>
          if row ∈ candidates ∧ dependenciesSatisfied finished row = true then
            row.move NodeStatus.ready.asStr 1
          else row) ∧
        after.attempts = before.attempts ∧ after.completions = before.completions := by
  induction candidates generalizing gv before with
  | nil => exact ⟨[], before, rfl, by simp, rfl, rfl⟩
  | cons node rest ih =>
    obtain ⟨apart, distinct⟩ := pairwise_cons.mp distinct
    obtain ⟨found, created⟩ := stored node mem_cons_self
    unfold flipReady
    by_cases satisfied : dependenciesSatisfied finished node = true
    · have legal : transitionOk NodeStatus.created.asStr NodeStatus.ready.asStr = true := by
        decide
      obtain ⟨version, bumped, bump, sameBumped⟩ := ensureGraphVersion_run
        (before.moveNode graphId node.nodeId NodeStatus.ready.asStr) graphId gv now
      obtain ⟨noted, note, sameNoted⟩ := appendEvent_run bumped graphId (some node.nodeId) none
        (some version) .nodeReady
      have same := sameBumped.trans sameNoted
      obtain ⟨flipped, after, ran, rows, attempts, completions⟩ := ih (some version) noted
        (fun other member => ⟨(same.node?_eq graphId other.nodeId).trans
          (Tables.node?_moveNode_of_ne (stored other (mem_cons_of_mem _ member)).1
            (apart other member).symm _), (stored other (mem_cons_of_mem _ member)).2⟩)
        distinct
      refine ⟨node.nodeId :: flipped, after, ?_, ?_, attempts.trans same.attempts,
        completions.trans same.completions⟩
      · simp only [satisfied, Bool.not_true, Bool.false_eq_true, ↓reduceIte]
        rw [run_bind_of (casNodeState_run found created rfl legal)]
        simp only [Bool.not_true, Bool.false_eq_true, ↓reduceIte]
        rw [run_bind_of bump, run_bind_of note, run_bind_of ran]
        rfl
      · rw [rows, same.nodes, Tables.moveNode_rows,
          map_key_eq_map_row found (fun row => row.move NodeStatus.ready.asStr 1), map_map]
        apply map_congr_left
        intro row _
        by_cases same : row = node
        · subst same
          have gone : row.move NodeStatus.ready.asStr 1 ∉ rest := by
            intro member
            have state : NodeStatus.ready.asStr = NodeStatus.created.asStr :=
              (stored _ (mem_cons_of_mem _ member)).2
            exact absurd state (by decide)
          simp only [Function.comp, ↓reduceIte, gone, false_and, mem_cons_self, satisfied, and_self]
        · simp only [Function.comp, same, ↓reduceIte, mem_cons, false_or]
    · obtain ⟨flipped, after, ran, rows, others⟩ := ih gv before
        (fun other member => stored other (mem_cons_of_mem _ member)) distinct
      refine ⟨flipped, after, ?_, ?_, others⟩
      · simp only [satisfied, Bool.not_false, ↓reduceIte]
        exact ran
      · rw [rows]
        apply map_congr_left
        intro row _
        by_cases same : row = node
        · subst same
          simp only [satisfied, Bool.false_eq_true, and_false, ↓reduceIte]
        · simp only [mem_cons, same, false_or]

theorem mem_createdNodes {graphId : String} {row : GraphNode} :
    row ∈ tables.createdNodes graphId ↔ row ∈ tables.nodes.rows ∧ row.graphId = graphId ∧
      row.state = NodeStatus.created.asStr := by
  rw [Tables.createdNodes, mem_insertionSort, mem_filter, decide_eq_true_eq]

theorem recomputeReadyTx_changes (graphId : String) (gv : Option Nat) (now : Timestamp)
    (before : Tables) :
    ∃ flipped after, (recomputeReadyTx graphId gv now).run before = .ok (flipped, after) ∧
      (Change.recompute graphId).Applies before after := by
  have stored : ∀ node ∈ before.createdNodes graphId,
      before.node? graphId node.nodeId = some node ∧ node.state = NodeStatus.created.asStr := by
    intro node member
    obtain ⟨rowMem, sameGraph, created⟩ := mem_createdNodes.mp member
    exact ⟨Tables.node?_eq_some.mpr ⟨rowMem, sameGraph, rfl⟩, created⟩
  have distinct : (before.createdNodes graphId).Pairwise
      fun first second => first.nodeId ≠ second.nodeId := by
    have nodup : (before.createdNodes graphId).Nodup :=
      (perm_insertionSort _ _).nodup_iff.mpr (before.nodes.nodup.filter _)
    refine nodup.imp_of_mem fun {first second} firstMem secondMem different same => different ?_
    have firstFound := (stored first firstMem).1
    rw [same, (stored second secondMem).1] at firstFound
    exact (Option.some.inj firstFound).symm
  obtain ⟨flipped, after, ran, rows, attempts, completions⟩ :=
    flipReady_run graphId (before.finishedNodes graphId) now (before.createdNodes graphId) gv
      before stored distinct
  refine ⟨flipped, after, ran, .recompute ?_ attempts completions⟩
  rw [Recomputed, rows]
  apply map_congr_left
  intro row rowMem
  simp only [mem_createdNodes, rowMem, true_and, and_assoc]

/-! ## Commit -/

theorem moveWhereLegal_run (found : tables.node? graphId nodeId = some node) (target : NodeStatus) :
    ∃ moved next, (moveWhereLegal graphId nodeId node target).run tables = .ok (moved, next) ∧
      MovedWhereLegal tables next node target ∧ next.attempts = tables.attempts ∧
        next.completions = tables.completions := by
  unfold moveWhereLegal
  by_cases legal : transitionOk node.state target.asStr = true
  · rw [if_pos legal]
    exact ⟨true, _, casNodeState_run found rfl rfl legal,
      .of_legal legal (moved_moveNode found rfl rfl), rfl, rfl⟩
  · rw [if_neg legal]
    exact ⟨false, tables, rfl, .of_illegal legal rfl, rfl, rfl⟩

/-- The winning half of a commit records the completion, finishes the attempt
and its node, and then recomputes readiness. -/
theorem commitWinner_changes {attempt : TaskAttempt} (completion : NodeCompletion)
    {before : Tables} (found : before.node? completion.graphId completion.nodeId = some node)
    (foundAttempt : before.attempt? completion.winningAttemptId = some attempt)
    (unfinished : node.state ≠ NodeStatus.succeeded.asStr) (running : attempt.status = "RUNNING")
    (free : before.completions.Free completion) (now : Timestamp) :
    ∃ middle after, (commitWinner node completion now).run before = .ok (true, after) ∧
      (Change.commit node attempt completion).Applies before middle ∧
      (Change.recompute completion.graphId).Applies middle after := by
  obtain ⟨member, graphEq, nodeEq⟩ := Tables.node?_eq_some.mp found
  obtain ⟨attemptMem, attemptEq⟩ := Tables.attempt?_eq_some.mp foundAttempt
  have hits : ∀ row ∈ before.attempts.rows,
      decide (row.attemptId = completion.winningAttemptId ∧ row.status = "RUNNING") = true ↔
        row = attempt := by
    intro row rowMem
    rw [decide_eq_true_eq]
    constructor
    · rintro ⟨same, -⟩
      exact (attemptId_eq_iff foundAttempt rowMem).mp same
    · rintro rfl
      exact ⟨attemptEq, running⟩
  obtain ⟨gv, bumped, bump, sameBumped⟩ := bumpGraphVersion_run
    { before with completions := before.completions.insertOrIgnore completion }
    completion.graphId now
  let finished := bumped.finishAttempts
    (fun row => row.attemptId = completion.winningAttemptId ∧ row.status = "RUNNING") "SUCCEEDED"
    now completion.resultRef
  have foundFinished : finished.node? completion.graphId completion.nodeId = some node :=
    (sameBumped.node?_eq _ _).trans found
  obtain ⟨moved, settled, move, nodes, attempts, completions⟩ :=
    moveWhereLegal_run foundFinished .succeeded
  obtain ⟨noted, note, sameNoted⟩ := appendEvent_run settled completion.graphId
    (some completion.nodeId) (some completion.winningAttemptId) (some gv) .nodeSucceeded
  obtain ⟨flipped, after, recompute, recomputed⟩ :=
    recomputeReadyTx_changes completion.graphId (some gv) now noted
  have nodesEq : finished.nodes = before.nodes := sameBumped.nodes
  refine ⟨noted, after, ?_, ?_, recomputed⟩
  · unfold commitWinner
    rw [StateT.run_bind, StateT.run_modify, pure_bind, run_bind_of bump, StateT.run_bind,
      StateT.run_modify, pure_bind, run_bind_of move, run_bind_of note,
      run_bind_of recompute]
    rfl
  · refine .commit member attemptMem running unfinished nodeEq.symm graphEq.symm attemptEq.symm
      free ?_ ?_ ?_
    · unfold MovedWhereLegal Moved at nodes ⊢
      rw [sameNoted.nodes, ← nodesEq]
      exact nodes
    · unfold Restated
      rw [sameNoted.attempts, attempts, ← sameBumped.attempts]
      rw [← sameBumped.attempts] at hits
      exact restated_finishAttempts hits "SUCCEEDED" now completion.resultRef
    · rw [sameNoted.completions, completions]
      exact (congrArg Table.rows sameBumped.completions).trans
        (Table.rows_insertOrIgnore_of_free free)

structure Tables.CommitWins (tables : Tables) (graphId nodeId id : String) (node : GraphNode)
    (attempt : TaskAttempt) : Prop where
  found : tables.node? graphId nodeId = some node
  foundAttempt : tables.attempt? id = some attempt
  unfinished : node.state ≠ NodeStatus.succeeded.asStr
  running : attempt.status = "RUNNING"
  uncommitted : ∀ row ∈ tables.completions.rows, row.nodeId ≠ nodeId

open Tables

theorem commitOnceTx_of_wins {graphId nodeId id : String} {attempt : TaskAttempt}
    {before : Tables} (wins : before.CommitWins graphId nodeId id node attempt)
    (resultRef : Option String) (now : Timestamp) :
    ∃ completion middle after,
      (commitOnceTx graphId nodeId id resultRef now).run before = .ok (true, after) ∧
        (Change.commit node attempt completion).Applies before middle ∧
        (Change.recompute graphId).Applies middle after := by
  let completion : NodeCompletion := {
    nodeId := nodeId
    graphId := graphId
    winningAttemptId := id
    resultRef := resultRef
    committedAt := now }
  have free : before.completions.Free completion := wins.uncommitted
  obtain ⟨middle, after, ran, committed, recomputed⟩ :=
    commitWinner_changes completion wins.found wins.foundAttempt wins.unfinished wins.running free
      now
  refine ⟨completion, middle, after, ?_, committed, recomputed⟩
  have guard : ¬ (node.state = NodeStatus.succeeded.asStr ∨ attempt.status ≠ "RUNNING") := by
    rintro (succeeded | other)
    · exact wins.unfinished succeeded
    · exact other wins.running
  unfold commitOnceTx
  rw [StateT.run_bind, StateT.run_get, pure_bind]
  simp only [wins.found, wins.foundAttempt, if_neg guard]
  rw [if_pos free]
  exact ran

theorem commitOnceTx_of_not_wins {graphId nodeId id : String} {before : Tables}
    (late : ¬ ∃ node attempt, before.CommitWins graphId nodeId id node attempt)
    (resultRef : Option String) (now : Timestamp) :
    ∃ after, (commitOnceTx graphId nodeId id resultRef now).run before = .ok (false, after) ∧
      before.SameRows after := by
  unfold commitOnceTx
  rw [StateT.run_bind, StateT.run_get, pure_bind]
  cases found : before.node? graphId nodeId with
  | none => exact ⟨_, rfl, rfl, rfl, rfl⟩
  | some node =>
    cases foundAttempt : before.attempt? id with
    | none => exact ⟨_, rfl, rfl, rfl, rfl⟩
    | some attempt =>
      by_cases guard : node.state = NodeStatus.succeeded.asStr ∨ attempt.status ≠ "RUNNING"
      · simp only [if_pos guard]
        exact ⟨_, rfl, rfl, rfl, rfl⟩
      · simp only [if_neg guard]
        rw [if_neg]
        · exact ⟨_, rfl, rfl, rfl, rfl⟩
        · intro free
          push Not at guard
          exact late ⟨node, attempt, found, foundAttempt, guard.1, guard.2, free⟩

/-! ## Cancellation -/

abbrev Changes : Tables → List Change → Tables → Prop :=
  Run fun before change after => change.Applies before after

theorem runningAttempt_spec (tables : Tables) (graphId nodeId : String) :
    (∃ attempt, tables.runningAttempt graphId nodeId = some attempt.attemptId ∧
      attempt ∈ tables.attempts.rows ∧ attempt.graphId = graphId ∧ attempt.nodeId = nodeId ∧
        attempt.status = "RUNNING") ∨
      (tables.runningAttempt graphId nodeId = none ∧ ∀ row ∈ tables.attempts.rows,
        row.graphId = graphId → row.nodeId = nodeId → row.status ≠ "RUNNING") := by
  have listed : ∀ id, id ∈ (((tables.attemptsOf graphId nodeId).filter fun row =>
      row.status = "RUNNING").map TaskAttempt.attemptId).insertionSort (· ≤ ·) ↔
        ∃ row ∈ tables.attempts.rows, (row.graphId = graphId ∧ row.nodeId = nodeId ∧
          row.status = "RUNNING") ∧ row.attemptId = id := by
    intro id
    simp only [mem_insertionSort, mem_map, mem_filter, attemptsOf, decide_eq_true_eq, and_assoc]
  cases found : tables.runningAttempt graphId nodeId with
  | none =>
    refine .inr ⟨rfl, fun row rowMem sameGraph sameNode running => ?_⟩
    have empty := head?_eq_none_iff.mp found
    have member := (listed row.attemptId).mpr ⟨row, rowMem, ⟨sameGraph, sameNode, running⟩, rfl⟩
    rw [empty] at member
    exact not_mem_nil member
  | some id =>
    obtain ⟨row, rowMem, ⟨sameGraph, sameNode, running⟩, rfl⟩ :=
      (listed id).mp (mem_of_head? found)
    exact .inl ⟨row, rfl, rowMem, sameGraph, sameNode, running⟩

theorem stopRunning_spec (before : Tables) (graphId nodeId : String) (now : Timestamp) :
    ∃ attempt : Option TaskAttempt,
      (∀ row, attempt = some row → row ∈ before.attempts.rows ∧ row.graphId = graphId ∧
        row.nodeId = nodeId ∧ row.status = "RUNNING") ∧
      (attempt = none → ∀ row ∈ before.attempts.rows, row.graphId = graphId →
        row.nodeId = nodeId → row.status ≠ "RUNNING") ∧
      (Restated before (before.stopRunning graphId nodeId now)
        fun row => if some row = attempt then "FAILED" else row.status) ∧
      (before.stopRunning graphId nodeId now).nodes = before.nodes ∧
      (before.stopRunning graphId nodeId now).completions = before.completions := by
  rcases runningAttempt_spec before graphId nodeId with
    ⟨attempt, running, attemptMem, ofNode⟩ | ⟨running, none⟩
  · have stopped : before.stopRunning graphId nodeId now = before.finishAttempts
        (fun row => row.attemptId = attempt.attemptId) "FAILED" now .none := by
      rw [stopRunning, running]
    rw [stopped]
    refine ⟨some attempt, ?_, nofun, ?_, rfl, rfl⟩
    · rintro row ⟨⟩
      exact ⟨attemptMem, ofNode⟩
    · simp only [Option.some.injEq]
      apply restated_finishAttempts
      intro row rowMem
      rw [decide_eq_true_eq]
      exact attemptId_eq_iff (attempt?_eq_some.mpr ⟨attemptMem, rfl⟩) rowMem
  · have stopped : before.stopRunning graphId nodeId now = before := by
      rw [stopRunning, running]
    rw [stopped]
    refine ⟨.none, fun row chosen => (Option.some_ne_none row chosen.symm).elim, fun _ => none, ?_,
      rfl, rfl⟩
    simp only [reduceCtorEq, ↓reduceIte]
    exact .refl_of_eq rfl

/-- The rows after one live node was cancelled. -/
def Tables.cancelNode (tables : Tables) (graphId nodeId : String) (now : Timestamp) : Tables :=
  (tables.stopRunning graphId nodeId now).moveNode graphId nodeId cancelled.asStr

theorem Tables.stopRunning_nodes (tables : Tables) (graphId nodeId : String) (now : Timestamp) :
    (tables.stopRunning graphId nodeId now).nodes = tables.nodes := by
  unfold stopRunning
  split <;> rfl

theorem cancelLiveNode_run {before : Tables} (found : before.node? graphId nodeId = some node)
    (live : transitionOk node.state cancelled.asStr = true) (now : Timestamp) :
    ∃ after, (cancelLiveNode graphId nodeId node now).run before = .ok ((), after) ∧
      (before.cancelNode graphId nodeId now).SameRows after := by
  obtain ⟨gv, bumped, bump, sameBumped⟩ :=
    bumpGraphVersion_run (before.stopRunning graphId nodeId now) graphId now
  have foundBumped : bumped.node? graphId nodeId = some node := by
    rw [node?, sameBumped.nodes, stopRunning_nodes]
    exact found
  obtain ⟨noted, note, sameNoted⟩ := appendEvent_run
    (bumped.moveNode graphId nodeId cancelled.asStr) graphId (some nodeId)
    (before.runningAttempt graphId nodeId) (some gv) .nodeCancelled
  refine ⟨noted, ?_, ?_, sameNoted.attempts.trans sameBumped.attempts,
    sameNoted.completions.trans sameBumped.completions⟩
  · unfold cancelLiveNode
    rw [StateT.run_bind, StateT.run_get, pure_bind, StateT.run_bind, StateT.run_set, pure_bind,
      run_bind_of bump, run_bind_of (casNodeState_run foundBumped rfl rfl live)]
    exact note
  · rw [sameNoted.nodes]
    apply Table.ext
    rw [cancelNode, moveNode_rows, moveNode_rows, sameBumped.nodes]

theorem cancelLiveNode_changes {before : Tables} (found : before.node? graphId nodeId = some node)
    (live : transitionOk node.state cancelled.asStr = true) (now : Timestamp) :
    ∃ attempt after, (cancelLiveNode graphId nodeId node now).run before = .ok ((), after) ∧
      (Change.cancel node attempt).Applies before after := by
  obtain ⟨attempt, chosen, missing, restated, nodes, completions⟩ :=
    stopRunning_spec before graphId nodeId now
  obtain ⟨after, ran, same⟩ := cancelLiveNode_run found live now
  refine ⟨attempt, after, ran, ?_⟩
  have moved : Moved before after node .cancelled 1 := moved_moveNode found nodes same.nodes
  obtain ⟨member, rfl, rfl⟩ := node?_eq_some.mp found
  refine .cancel member live chosen missing moved ?_ (same.completions.trans completions)
  unfold Restated at restated ⊢
  rw [same.attempts]
  exact restated

theorem cancelNodesTx_changes (graphId : String) (now : Timestamp) (nodeIds : List String)
    (before : Tables) :
    ∃ result after changes,
      (cancelNodesTx graphId now nodeIds).run before = .ok (result, after) ∧
        Changes before changes after ∧
        ∀ change ∈ changes, ∃ node attempt, change = .cancel node attempt := by
  induction nodeIds generalizing before with
  | nil => exact ⟨[], before, [], rfl, .nil before, by simp⟩
  | cons nodeId rest ih =>
    unfold cancelNodesTx
    rw [StateT.run_bind, StateT.run_get, pure_bind]
    cases found : before.node? graphId nodeId with
    | none => exact ih before
    | some node =>
      by_cases live : transitionOk node.state cancelled.asStr = true
      · obtain ⟨attempt, middle, cancel, applies⟩ := cancelLiveNode_changes found live now
        obtain ⟨result, after, changes, ran, run, all⟩ := ih middle
        refine ⟨nodeId :: result, after, .cancel node attempt :: changes, ?_, .cons applies run, ?_⟩
        · simp only [live, Bool.not_true, Bool.false_eq_true, ↓reduceIte]
          rw [run_bind_of cancel, run_bind_of ran]
          rfl
        · intro change member
          rcases mem_cons.mp member with rfl | later
          · exact ⟨node, attempt, rfl⟩
          · exact all change later
      · simp only [live, Bool.not_false, ↓reduceIte]
        exact ih before

end UltimateCoders.Graph
