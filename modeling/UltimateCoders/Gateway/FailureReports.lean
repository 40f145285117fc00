import UltimateCoders.Gateway.PublishFailure
import UltimateCoders.Graph.Transactions
import UltimateCoders.Graph.TsProjection

/-! # What is reported of a failed attempt

An attempt that is failed on the graph plane is reported by the state its node was to be moved to,
and the store of the gateway mirrors the report. The node itself stays where it is if the move is
not legal, so the report is compared with the node, and with what a later dispatch of it does.
-/

namespace UltimateCoders.Gateway

open Governance (Instant)
open UltimateCoders.Graph
open TaskStore
open Transition (atomically atomically_of_ok)

/-- A transaction that fails an attempt, with what it returns and the tables before and after. -/
structure FailReport where
  graphId : String
  nodeId : String
  attemptId : String
  maxAttempts : Int
  outcome : FailOutcome
  before : Tables
  after : Tables

open FailReport

/-- Attempts of a graph and a node failed one transaction after the other. -/
def failReports (maxAttempts : Int) (now : Timestamp) :
    List (String × String × String) → Tables → List FailReport
  | [], _ => []
  | (graphId, nodeId, id) :: rest, tables =>
    match atomically (failAttemptTx graphId nodeId id maxAttempts now) tables with
    | (.ok outcome, after) =>
      ⟨graphId, nodeId, id, maxAttempts, outcome, tables, after⟩ ::
        failReports maxAttempts now rest after
    | (.error _, _) => []

def scanKey (attempt : TaskAttempt) : String × String × String :=
  (attempt.graphId, attempt.nodeId, attempt.attemptId)

/-- The transactions of the verbs that fail attempts. -/
def verbReports (now : Timestamp) : Verb → Tables → List FailReport
  | .failAttempt graphId nodeId id maxAttempts, tables =>
    failReports maxAttempts now [(graphId, nodeId, id)] tables
  | .timeoutSweep heartbeatTimeout maxAttempts, tables =>
    failReports maxAttempts now ((tables.staleAttempts heartbeatTimeout now).map scanKey) tables
  | .failRunningAttempts graphId maxAttempts, tables =>
    failReports maxAttempts now ((tables.runningAttempts graphId).map scanKey) tables
  | .cancelRunningAttempt graphId nodeId maxAttempts, tables =>
    match tables.runningAttempt graphId nodeId with
    | none => []
    | some id => failReports maxAttempts now [(graphId, nodeId, id)] tables
  | _, _ => []

variable (report : FailReport)

/-- The entry of a sweep; fenced attempts have none. -/
def FailReport.swept? : Option SweptAttempt :=
  if report.outcome = .fenced then none
  else some {
    graphId := report.graphId
    nodeId := report.nodeId
    attemptId := report.attemptId
    rearmed := report.outcome = .rearmedToReady }

/-- What a verb returns after its transactions. -/
def replyOf : Verb → List FailReport → Option VerbResult
  | .failAttempt _ _ _ _, reports => reports.head?.map fun report => .outcome report.outcome
  | .timeoutSweep _ _, reports => some (.swept (reports.filterMap swept?))
  | .failRunningAttempts _ _, reports => some (.swept (reports.filterMap swept?))
  | .cancelRunningAttempt _ _ _, reports => some (.sweptOne (reports.head?.bind swept?))
  | _, _ => none

namespace FailReport

/-- The gateway's store mirrors the report. -/
def mirror (store : TaskStore) (now : Instant) : Bool × TaskStore :=
  store.revertSweptSubtask report.graphId report.nodeId (report.outcome = .rearmedToReady) now

/-- A dispatch of the node after the transaction is refused. -/
def Refused : Prop :=
  ∃ workerId now after,
    (scheduleAttemptTx report.graphId report.nodeId workerId now).run report.after =
      .ok (none, after)

/-- The report is what happened to the node, and the mirrored store does not dispatch a node that
the graph plane refuses to schedule. -/
structure Truthful (report : FailReport) : Prop where
  rearmed : report.outcome = .rearmedToReady → ∃ node,
    report.after.node? report.graphId report.nodeId = some node ∧
      node.state = NodeStatus.ready.asStr
  failed : report.outcome = .nodeFailed → ∃ node,
    report.after.node? report.graphId report.nodeId = some node ∧
      node.state = NodeStatus.failed.asStr
  fenced : report.outcome = .fenced →
    report.after.nodes = report.before.nodes ∧ report.after.attempts = report.before.attempts
  dispatched : report.outcome ≠ .fenced → ∀ (store : TaskStore) (now : Instant),
    (report.mirror store now).1 = true →
      ((report.mirror store now).2.subtask report.graphId report.nodeId).map Subtask.status =
        some .pending →
      ¬ report.Refused

/-- Where the attempt is live, its node is in the state that is reported, or may be moved there. -/
def Reportable : Prop :=
  ∀ node attempt, report.before.node? report.graphId report.nodeId = some node →
    report.before.attempt? report.attemptId = some attempt →
    attempt.status = "RUNNING" → node.state ≠ NodeStatus.succeeded.asStr →
      node.state = (failTarget attempt report.maxAttempts).asStr ∨
        transitionOk node.state (failTarget attempt report.maxAttempts).asStr = true

end FailReport

section Report

variable {report : FailReport} {now : Timestamp} {store : TaskStore} {time : Instant}

theorem node?_of_movedWhereLegal {before after : Tables} {graphId nodeId : String}
    {node : GraphNode} {target : NodeStatus} (found : before.node? graphId nodeId = some node)
    (moved : MovedWhereLegal before after node target) :
    after.node? graphId nodeId = some
      (if transitionOk node.state target.asStr = true then node.move target.asStr 1 else node) := by
  obtain ⟨member, rfl, rfl⟩ := Tables.node?_eq_some.mp found
  unfold MovedWhereLegal at moved
  split_ifs at moved ⊢
  · refine Tables.node?_eq_some.mpr ⟨?_, rfl, rfl⟩
    rw [moved]
    exact List.mem_map.mpr ⟨node, member, by simp⟩
  · rw [Tables.node?, moved]
    exact found

theorem rearmed_of_pending (moved : (report.mirror store time).1 = true)
    (pending : ((report.mirror store time).2.subtask report.graphId report.nodeId).map
      Subtask.status = some .pending) :
    report.outcome = .rearmedToReady := by
  unfold mirror revertSweptSubtask at moved pending
  cases lookedUp : store.tasks.lookup report.graphId with
  | none => simp [lookedUp] at moved
  | some task =>
    cases found : findSubtask task.subtasks report.nodeId with
    | none => simp [lookedUp, found] at moved
    | some subtask =>
      simp only [lookedUp, found] at moved pending
      split at moved
      · rename_i busy
        rw [if_pos busy] at pending
        dsimp only at pending
        rw [subtask_putTask_self] at pending
        dsimp only at pending
        rw [findSubtask_changeSubtask (fun subtask => by rfl) found] at pending
        by_contra other
        simp [other] at pending
      · cases moved

theorem FailReport.truthful_of_fenced (fenced : report.outcome = .fenced)
    (same : report.before.SameRows report.after) : report.Truthful :=
  ⟨by simp [fenced], by simp [fenced], fun _ => ⟨same.nodes, same.attempts⟩,
    fun other => absurd fenced other⟩

theorem FailReport.truthful_iff_of_live {node : GraphNode} {attempt : TaskAttempt}
    (found : report.before.node? report.graphId report.nodeId = some node)
    (outcome : report.outcome = failReport attempt report.maxAttempts)
    (moved : MovedWhereLegal report.before report.after node
      (failTarget attempt report.maxAttempts)) :
    report.Truthful ↔
      node.state = (failTarget attempt report.maxAttempts).asStr ∨
        transitionOk node.state (failTarget attempt report.maxAttempts).asStr = true := by
  have stored := node?_of_movedWhereLegal found moved
  have targets := failTarget_cases attempt report.maxAttempts
  unfold failReport at outcome
  generalize failTarget attempt report.maxAttempts = target at stored targets outcome ⊢
  constructor
  · intro truthful
    by_cases legal : transitionOk node.state target.asStr = true
    · exact .inr legal
    · rw [if_neg legal] at stored
      rcases targets with rfl | rfl
      · obtain ⟨after, found, state⟩ := truthful.rearmed (by rw [outcome]; rfl)
        rw [stored] at found
        cases found
        exact .inl state
      · obtain ⟨after, found, state⟩ := truthful.failed (by rw [outcome]; rfl)
        rw [stored] at found
        cases found
        exact .inl state
  · intro possible
    obtain ⟨after, found, state⟩ : ∃ after,
        report.after.node? report.graphId report.nodeId = some after ∧
          after.state = target.asStr := by
      refine ⟨_, stored, ?_⟩
      split_ifs with legal
      · rfl
      · exact possible.resolve_right legal
    rcases targets with rfl | rfl
    · refine ⟨fun _ => ⟨after, found, state⟩, by simp [outcome], by simp [outcome], ?_⟩
      rintro - store time - - ⟨workerId, now, last, ran⟩
      obtain ⟨started, impossible, -⟩ := scheduleAttemptTx_of_ready found state ran
      cases impossible
    · refine ⟨by simp [outcome], fun _ => ⟨after, found, state⟩, by simp [outcome], ?_⟩
      intro _ store time moved pending
      have rearmed := rearmed_of_pending moved pending
      simp [outcome] at rearmed

theorem FailReport.truthful_iff_of_run
    (ran : (failAttemptTx report.graphId report.nodeId report.attemptId report.maxAttempts now).run
      report.before = .ok (report.outcome, report.after)) :
    report.Truthful ↔ report.Reportable := by
  rcases failAttemptTx_run report.graphId report.nodeId report.attemptId report.maxAttempts now
    report.before with
    ⟨after, fenced, same, idle⟩ | ⟨node, attempt, after, found, foundAttempt, live, failed, applies⟩
  · rw [ran, Except.ok.injEq, Prod.mk.injEq] at fenced
    obtain ⟨outcome, rfl⟩ := fenced
    refine iff_of_true (truthful_of_fenced outcome same) ?_
    intro node attempt found foundAttempt running unfinished
    exact absurd ⟨running, unfinished⟩ (idle node attempt found foundAttempt)
  · rw [ran, Except.ok.injEq, Prod.mk.injEq] at failed
    obtain ⟨outcome, rfl⟩ := failed
    have moved : MovedWhereLegal report.before report.after node
        (failTarget attempt report.maxAttempts) := by
      generalize failTarget attempt report.maxAttempts = target at applies ⊢
      cases applies
      assumption
    rw [truthful_iff_of_live found outcome moved]
    constructor
    · intro possible other otherAttempt sameNode sameAttempt _ _
      rw [found] at sameNode
      rw [foundAttempt] at sameAttempt
      cases sameNode
      cases sameAttempt
      exact possible
    · intro reportable
      exact reportable node attempt found foundAttempt live.1 live.2

end Report

section Verbs

variable {now : Timestamp} {maxAttempts : Int} {report : FailReport}

variable {tables : Tables}

theorem run_of_mem_failReports {keys : List (String × String × String)}
    (member : report ∈ failReports maxAttempts now keys tables) :
    (failAttemptTx report.graphId report.nodeId report.attemptId report.maxAttempts now).run
      report.before = .ok (report.outcome, report.after) := by
  induction keys generalizing tables with
  | nil => cases member
  | cons key rest ih =>
    obtain ⟨graphId, nodeId, id⟩ := key
    obtain ⟨outcome, after, ran, -⟩ :=
      failAttemptTx_changes graphId nodeId id maxAttempts now tables
    simp only [failReports, atomically_of_ok ran, List.mem_cons] at member
    rcases member with rfl | later
    · exact ran
    · exact ih later

theorem run_of_mem_verbReports {verb : Verb} (member : report ∈ verbReports now verb tables) :
    (failAttemptTx report.graphId report.nodeId report.attemptId report.maxAttempts now).run
      report.before = .ok (report.outcome, report.after) := by
  cases verb with
  | failAttempt graphId nodeId id maxAttempts => exact run_of_mem_failReports member
  | timeoutSweep heartbeatTimeout maxAttempts | failRunningAttempts graphId maxAttempts =>
    exact run_of_mem_failReports member
  | cancelRunningAttempt graphId nodeId maxAttempts =>
    unfold verbReports at member
    cases running : tables.runningAttempt graphId nodeId with
    | none => simp [running] at member
    | some id =>
      simp only [running] at member
      exact run_of_mem_failReports member
  | _ => cases member

theorem failScanned_reports (scanned : List TaskAttempt) (tables : Tables) :
    (failScanned maxAttempts now scanned tables).1 =
      .ok ((failReports maxAttempts now (scanned.map scanKey) tables).filterMap
        swept?) := by
  induction scanned generalizing tables with
  | nil => rfl
  | cons attempt rest ih =>
    obtain ⟨outcome, after, ran, -⟩ := failAttemptTx_changes attempt.graphId attempt.nodeId
      attempt.attemptId maxAttempts now tables
    have later := ih after
    simp only [failScanned, List.map_cons, scanKey, failReports, atomically_of_ok ran,
      List.filterMap_cons, swept?]
    cases swept : failScanned maxAttempts now rest after with
    | mk result last =>
      rw [swept] at later
      dsimp only at later
      subst later
      by_cases fenced : outcome = .fenced
      · simp [fenced]
      · simp [fenced]

theorem exec_replyOf {verb : Verb} {reply : VerbResult}
    (replies : replyOf verb (verbReports now verb tables) = some reply) :
    (verb.exec now tables).1 = .ok reply := by
  cases verb with
  | failAttempt graphId nodeId id maxAttempts =>
    obtain ⟨outcome, after, ran, -⟩ :=
      failAttemptTx_changes graphId nodeId id maxAttempts now tables
    simp only [replyOf, verbReports, failReports, atomically_of_ok ran, List.head?_cons,
      Option.map_some, Option.some.injEq] at replies
    simp only [Verb.exec, wrap, atomically_of_ok ran, ← replies]
    rfl
  | timeoutSweep heartbeatTimeout maxAttempts | failRunningAttempts graphId maxAttempts =>
    simp only [replyOf, verbReports, Option.some.injEq] at replies
    simp only [Verb.exec, wrap, failScanned_reports, ← replies]
    rfl
  | cancelRunningAttempt graphId nodeId maxAttempts =>
    simp only [replyOf, Option.some.injEq] at replies
    subst replies
    simp only [Verb.exec, wrap, Graph.cancelRunningAttempt, verbReports]
    cases running : tables.runningAttempt graphId nodeId with
    | none => rfl
    | some id =>
      obtain ⟨outcome, after, ran, -⟩ :=
        failAttemptTx_changes graphId nodeId id maxAttempts now tables
      simp only [failReports, atomically_of_ok ran, List.head?_cons, Option.bind_some, swept?]
      rfl
  | _ => cases replies

/-- **Reports of failed attempts.** A verb that fails attempts returns what its transactions report,
and each of them reports what happened to the node if and only if the node of the live attempt was
in the state that is reported, or could be moved there. -/
theorem reports_truthful_iff (now : Timestamp) (verb : Verb) (tables : Tables) :
    (∀ reply, replyOf verb (verbReports now verb tables) = some reply →
      (verb.exec now tables).1 = .ok reply) ∧
      ∀ report ∈ verbReports now verb tables, report.Truthful ↔ report.Reportable :=
  ⟨fun _ replies => exec_replyOf replies, fun _ member =>
    truthful_iff_of_run (run_of_mem_verbReports member)⟩

end Verbs

/-- A graph whose open node was dispatched. -/
def sampleRunning : Tables :=
  ((Verb.scheduleAttempt "g-x" "n-open" (some "w1")).exec 1 (importTask plainGraph .empty)).2

/-- The node of a running attempt that fails is ready again, as is reported. -/
theorem reports_truthful_iff_running :
    ∀ report ∈ verbReports 2 (.failAttempt "g-x" "n-open" "g-x:n-open:0" 3) sampleRunning,
      report.Truthful := by
  intro report member
  refine ((reports_truthful_iff 2 (.failAttempt "g-x" "n-open" "g-x:n-open:0" 3)
    sampleRunning).2 report member).2 ?_
  intro node attempt found foundAttempt _ _
  have computed : ((verbReports 2 (.failAttempt "g-x" "n-open" "g-x:n-open:0" 3)
      sampleRunning).all fun report =>
        (report.before.node? report.graphId report.nodeId).all (fun node =>
          node.state = NodeStatus.running.asStr) &&
        (report.before.attempt? report.attemptId).all fun attempt =>
          failTarget attempt report.maxAttempts = .ready) = true := by
    decide +kernel
  have here := List.all_eq_true.1 computed report member
  simp only [found, foundAttempt, Option.all_some, Bool.and_eq_true, decide_eq_true_eq] at here
  rw [here.1, here.2]
  exact .inr (by decide)

def storedAlone (status : String) (retryCount : Option Nat) : TsPersistedTask where
  id := "g"
  status := "in_progress"
  projectId := some "p"
  savedAt := some 1
  createdAt := some 0
  subtasks := [⟨"a", status, [], some 1, none, retryCount, none, none⟩]

/-- A task that is imported once while its subtask is cancelled, and once more after a retry. -/
def sampleRetried : Tables :=
  (writeProjection (projectTsTask (storedAlone "running" (some 1))) false true
    (writeProjection (projectTsTask (storedAlone "cancelled" none)) false true .empty).2).2

/-- The attempt of a cancelled node is reported as re-armed, and the node stays cancelled. -/
theorem not_truthful_cancelled :
    ¬ ∀ now verb tables, ∀ report ∈ verbReports now verb tables, report.Truthful := by
  intro truthful
  have computed : ((verbReports 2 (.failAttempt "g" "a" "g:a:1" 3) sampleRetried).map
      fun report => (report.outcome, (report.after.node? report.graphId report.nodeId).map
        GraphNode.state)) = [(.rearmedToReady, some "CANCELLED")] := by
    decide +kernel
  cases reports : verbReports 2 (.failAttempt "g" "a" "g:a:1" 3) sampleRetried with
  | nil => simp [reports] at computed
  | cons report rest =>
    simp only [reports, List.map_cons, List.cons.injEq, Prod.mk.injEq] at computed
    obtain ⟨node, found, ready⟩ := (truthful 2 (.failAttempt "g" "a" "g:a:1" 3) sampleRetried
      report (by rw [reports]; exact List.mem_cons_self)).rearmed computed.1.1
    rw [found, Option.map_some, ready] at computed
    exact absurd computed.1.2 (by decide)

end UltimateCoders.Gateway
