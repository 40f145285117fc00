import UltimateCoders.Orchestrator.TaskReports

/-! # What a report does to the other subtasks

A report is meant for one subtask but brings the mirror of all. The gateway checks and applies it
subtask by subtask, so it leaves the others alone exactly if the mirror says of them what the
gateway holds.
-/

namespace UltimateCoders.Orchestrator

open Governance (Instant)
open UltimateCoders.Graph (SubtaskStatus)
open Gateway (Fits TaskStore protoStatusToTaskStatus protectedTask validateProjection_iff)
open Gateway.TaskStore (Projected findSubtask projectSubtask validateProjection)
open Transition (Run)

variable {task : TaskState} {store : TaskStore} {subtasks : List SubtaskResult}
  {st : SubtaskResult} {current : Gateway.Task} {id : String} {now : Instant}

/-- The status that the gateway reads. -/
def LocalStatus.wired : LocalStatus → SubtaskStatus
  | .pending => .pending
  | .running | .reviewing => .inProgress
  | .completed => .completed
  | .failed | .cancelled => .failed

@[simp] theorem incoming_id : (task.incoming st).id = st.id := rfl

@[simp] theorem incoming_status : (task.incoming st).status = st.status.wired := by
  unfold TaskState.incoming Gateway.SubtaskProto.toSubtask SubtaskResult.toProto
  cases st.status <;> rfl

/-- What a report is to do: its subtask is not refused for what it says of others, and the
others are left as they are. -/
structure TouchesOnly (task : TaskState) (store : TaskStore) (subtasks : List SubtaskResult)
    (id : String) (now : Instant) : Prop where
  accepts : task.accepted store (subtasks.filter (·.id = id)) now = true →
    task.accepted store subtasks now = true
  frames : ∀ other, other ≠ id → ∀ old, store.subtask task.id other = some old →
    ∃ new, ((task.upsertTask subtasks).apply store now).subtask task.id other = some new ∧
      new.status = old.status ∧ new.result = old.result ∧ new.assignedWorker = old.assignedWorker

/-- What the mirror says of a subtask is what the gateway holds, and no result is held. -/
def Echoes (task : TaskState) (current : Gateway.Task) (st : SubtaskResult) : Prop :=
  match findSubtask current.subtasks st.id with
  | some node => node.dispatchRetryCount = (task.details st.id).attempt ∧
      node.status = st.status.wired ∧ node.result = none
  | none => protectedTask current.status = false

/-- The report would be refused anyway, or says of the other subtasks what the gateway holds. -/
def EchoesOthers (task : TaskState) (store : TaskStore) (subtasks : List SubtaskResult)
    (id : String) (now : Instant) : Prop :=
  task.accepted store (subtasks.filter (·.id = id)) now = true →
    ∀ current, store.tasks.lookup task.id = some current →
      ∀ st ∈ subtasks, st.id ≠ id → Echoes task current st

theorem updateTask_isOk_iff {taskId status description projectId : String}
    {incomings : List Gateway.Subtask} (found : store.tasks.lookup taskId = some current) :
    (store.updateTask taskId status incomings description projectId now).1.isOk = true ↔
      ∃ parsed, protoStatusToTaskStatus status = .ok parsed ∧
        (protectedTask current.status = true → current.status = parsed) ∧
          ∀ incoming ∈ incomings, Fits current incoming := by
  simp only [← validateProjection_iff]
  unfold TaskStore.updateTask
  cases protoStatusToTaskStatus status with
  | error error => simp [Except.isOk, Except.toBool]
  | ok parsed =>
    simp only [found, Except.ok.injEq, exists_eq_left']
    cases validateProjection current parsed incomings with
    | error error => simp [Except.isOk, Except.toBool]
    | ok => simp [Gateway.createProjected_of_known found, found, Except.isOk, Except.toBool]

theorem accepted_iff (found : store.tasks.lookup task.id = some current) :
    task.accepted store subtasks now = true ↔
      ∃ parsed, protoStatusToTaskStatus (taskStatusToWire task.status) = .ok parsed ∧
        (protectedTask current.status = true → current.status = parsed) ∧
          ∀ st ∈ subtasks, Fits current (task.incoming st) := by
  rw [TaskState.accepted, updateTask_isOk_iff found]
  simp only [List.forall_mem_map]

theorem accepted_of_unknown {others : List SubtaskResult}
    (unknown : store.tasks.lookup task.id = none) :
    task.accepted store subtasks now = task.accepted store others now := by
  unfold TaskState.accepted TaskStore.updateTask
  cases protoStatusToTaskStatus (taskStatusToWire task.status) with
  | error error => rfl
  | ok parsed =>
    simp only [unknown, TaskStore.createProjected, Option.isNone_none, Bool.true_and]
    split_ifs <;> simp [TaskStore.putTask, unknown, Except.isOk, Except.toBool]

theorem upsertTask_eq : task.upsertTask subtasks =
    .updateTask task.id (taskStatusToWire task.status) (subtasks.map task.incoming)
      task.description (task.projectId.getD "") := by
  simp only [TaskState.upsertTask, Gateway.updateTaskRpc, List.map_map]
  rfl

theorem subtask_of_accepted (found : store.tasks.lookup task.id = some current)
    (ok : task.accepted store subtasks now = true) (other : String) :
    ((task.upsertTask subtasks).apply store now).subtask task.id other =
      findSubtask ((subtasks.map task.incoming).foldl Projected.upsert
        { subtasks := current.subtasks }).subtasks other := by
  obtain ⟨parsed, read, valid⟩ := (accepted_iff found).mp ok
  have fits : validateProjection current parsed (subtasks.map task.incoming) = .ok () := by
    rw [validateProjection_iff, List.forall_mem_map]
    exact valid
  rw [upsertTask_eq, Gateway.TaskOperation.apply, TaskStore.updateTask]
  simp only [read, found, fits, Gateway.createProjected_of_known found]
  rw [TaskStore.subtask, Gateway.tasks_recordEvents, TaskStore.putTask, AList.lookup_insert]

theorem store_of_refused (refused : task.accepted store subtasks now = false) :
    (task.upsertTask subtasks).apply store now = store := by
  rw [upsertTask_eq, Gateway.TaskOperation.apply]
  unfold TaskState.accepted TaskStore.updateTask at *
  cases read : protoStatusToTaskStatus (taskStatusToWire task.status) with
  | error error => rfl
  | ok parsed =>
    simp only [read] at refused ⊢
    cases found : store.tasks.lookup task.id with
    | none =>
      simp only [found, TaskStore.createProjected, Option.isNone_none, Bool.true_and] at refused ⊢
      split_ifs with described
      · simp [described, TaskStore.putTask, Except.isOk, Except.toBool] at refused
      · simp [found]
    | some current =>
      simp only [found] at refused ⊢
      cases valid : validateProjection current parsed (subtasks.map task.incoming) with
      | error error => rfl
      | ok =>
        simp [valid, Gateway.createProjected_of_known found, found, Except.isOk,
          Except.toBool] at refused

theorem accepted_alone (found : store.tasks.lookup task.id = some current)
    (ok : task.accepted store subtasks now = true) :
    task.accepted store (subtasks.filter (·.id = id)) now = true := by
  rw [accepted_iff found] at ok ⊢
  obtain ⟨parsed, read, controlled, fits⟩ := ok
  exact ⟨parsed, read, controlled, fun st member => fits st (List.mem_of_mem_filter member)⟩

theorem Echoes.fits (echoes : Echoes task current st) : Fits current (task.incoming st) := by
  unfold Echoes at echoes
  unfold Fits
  rw [incoming_id]
  cases known : findSubtask current.subtasks st.id with
  | some node =>
    simp only [known] at echoes
    exact ⟨echoes.1, fun _ => echoes.2.1.trans incoming_status.symm⟩
  | none => simpa only [known] using echoes

theorem subtask_of_report (distinct : (subtasks.map SubtaskResult.id).Nodup)
    (found : store.tasks.lookup task.id = some current)
    (ok : task.accepted store subtasks now = true) (member : st ∈ subtasks) {node : Gateway.Subtask}
    (known : findSubtask current.subtasks st.id = some node) :
    ((task.upsertTask subtasks).apply store now).subtask task.id st.id =
      some (projectSubtask (task.incoming st) node) := by
  rw [subtask_of_accepted found ok]
  have own : ((subtasks.map task.incoming).map Gateway.Subtask.id).Nodup := by
    rw [List.map_map]
    exact distinct
  exact Gateway.Projected.find_foldl own (List.mem_map_of_mem member) known

/-- A report touches only its subtask exactly if it says of the others what the gateway holds. -/
theorem touchesOnly_iff (distinct : (subtasks.map SubtaskResult.id).Nodup) :
    TouchesOnly task store subtasks id now ↔ EchoesOthers task store subtasks id now := by
  constructor
  · intro touches alone current found st member apart
    have ok := touches.accepts alone
    obtain ⟨_, _, _, fits⟩ := (accepted_iff found).mp ok
    have fit := fits st member
    unfold Fits at fit
    unfold Echoes
    rw [incoming_id] at fit
    cases known : findSubtask current.subtasks st.id with
    | some node =>
      simp only [known] at fit
      have before : store.subtask task.id st.id = some node := by
        rw [TaskStore.subtask, found]
        exact known
      obtain ⟨new, after, status, result, _⟩ := touches.frames st.id apart node before
      rw [subtask_of_report distinct found ok member known, Option.some.injEq] at after
      subst after
      exact ⟨fit.1, status.symm.trans incoming_status, result.symm⟩
    | none => simpa only [known] using fit
  · intro echoes
    cases found : store.tasks.lookup task.id with
    | none =>
      refine ⟨fun alone => (accepted_of_unknown found).trans alone, ?_⟩
      intro other _ old before
      simp [TaskStore.subtask, found] at before
    | some current =>
      have accepts (alone : task.accepted store (subtasks.filter (·.id = id)) now = true) :
          task.accepted store subtasks now = true := by
        obtain ⟨parsed, read, controlled, own⟩ := (accepted_iff found).mp alone
        refine (accepted_iff found).mpr ⟨parsed, read, controlled, fun st member => ?_⟩
        by_cases here : st.id = id
        · exact own st (List.mem_filter.mpr ⟨member, decide_eq_true here⟩)
        · exact (echoes alone current found st member here).fits
      refine ⟨accepts, fun other apart old before => ?_⟩
      cases ok : task.accepted store subtasks now with
      | false =>
        rw [store_of_refused ok]
        exact ⟨old, before, rfl, rfl, rfl⟩
      | true =>
        have known : findSubtask current.subtasks other = some old := by
          rw [TaskStore.subtask, found] at before
          exact before
        by_cases told : ∃ st ∈ subtasks, st.id = other
        · obtain ⟨st, member, rfl⟩ := told
          have echo := echoes (accepted_alone found ok) current found st member apart
          unfold Echoes at echo
          rw [known] at echo
          refine ⟨_, subtask_of_report distinct found ok member known, ?_, ?_, rfl⟩
          · exact incoming_status.trans echo.2.1.symm
          · exact echo.2.2.symm
        · refine ⟨old, ?_, rfl, rfl, rfl⟩
          rw [subtask_of_accepted found ok]
          refine Gateway.Projected.find_foldl_ne (fun incoming member same => ?_) known
          obtain ⟨st, listed, rfl⟩ := List.mem_map.mp member
          exact told ⟨st, listed, same⟩

/-- What the report brings while it is on its way. -/
def ReportStage.brings : ReportStage → List SubtaskResult
  | .unsent => []
  | .sent subtasks | .answered subtasks _ => subtasks

namespace Coordination

/-- The mirror tells of a subtask once, and so does every report on its way. -/
structure TellsOnce (state : Coordination) : Prop where
  mirror : (state.loop.subtasks.map SubtaskResult.id).Nodup
  brought : ∀ id, ((state.reports id).stage.brings.map SubtaskResult.id).Nodup

variable {sha256Hex : String → String} {before after start target : Coordination}
  {action : CoordinationAction} {actions : List CoordinationAction}

theorem TellsOnce.update (tells : TellsOnce before) {loop : ClaimLoop}
    (same : loop.subtasks.map SubtaskResult.id = before.loop.subtasks.map SubtaskResult.id)
    {subtaskId : String} {report : Report}
    (brought : (report.stage.brings.map SubtaskResult.id).Nodup) :
    TellsOnce { before with loop, reports := Function.update before.reports subtaskId report } where
  mirror := same ▸ tells.mirror
  brought id := by
    by_cases own : id = subtaskId
    · subst own
      simpa only [Function.update_self] using brought
    · simpa only [Function.update_of_ne own] using tells.brought id

theorem TellsOnce.setStage (tells : TellsOnce before) {subtaskId : String} {stage : ReportStage}
    (brought : (stage.brings.map SubtaskResult.id).Nodup) :
    TellsOnce (before.setStage subtaskId stage) :=
  tells.update rfl brought

theorem tellsOnce_step (step : before.Steps task sha256Hex action after) (tells : TellsOnce before) :
    TellsOnce after := by
  unfold Steps Coordination.step at step
  cases action with
  | gateway action =>
    obtain ⟨gateway, _, rfl⟩ := Option.map_eq_some_iff.mp step
    exact ⟨tells.mirror, tells.brought⟩
  | claimLoop move =>
    dsimp only at step
    split at step
    · cases step
    · obtain ⟨loop, moved, rfl⟩ := Option.map_eq_some_iff.mp step
      exact ⟨ids_of_step moved ▸ tells.mirror, tells.brought⟩
  | send subtaskId =>
    dsimp only at step
    split at step
    · split at step <;> cases step
      exact tells.update rfl tells.mirror
    · cases step
  | deliver subtaskId now =>
    dsimp only at step
    split at step <;> cases step
    rename_i subtasks sent
    have brought := tells.brought subtaskId
    rw [sent] at brought
    have applied : TellsOnce { before with gateway := { before.gateway with
        store := (task.upsertTask subtasks).apply before.gateway.store now } } :=
      ⟨tells.mirror, tells.brought⟩
    exact applied.setStage brought
  | lose subtaskId again =>
    dsimp only at step
    have brought := tells.brought subtaskId
    split at step
    · rename_i subtasks sent
      rw [sent] at brought
      cases step
      exact tells.setStage (by cases again <;> exact brought)
    · rename_i subtasks ok answered
      rw [answered] at brought
      cases step
      exact tells.setStage (by cases again <;> exact brought)
    · cases step
  | answer subtaskId =>
    dsimp only at step
    split at step
    · split at step
      · obtain ⟨loop, ended, rfl⟩ := Option.map_eq_some_iff.mp step
        have same : loop.subtasks.map SubtaskResult.id =
            before.loop.subtasks.map SubtaskResult.id := by
          unfold ClaimLoop.endReport at ended
          split at ended <;> exact ids_of_step ended
        exact tells.update same List.nodup_nil
      · cases step
        exact tells.setStage List.nodup_nil
    · cases step

/-- A report that arrives touches only its subtask. -/
def ReportTouchesOnly (task : TaskState) (before : Coordination) (action : CoordinationAction) :
    Prop :=
  ∀ subtaskId now subtasks, action = .deliver subtaskId now →
    (before.reports subtaskId).stage = .sent subtasks →
      TouchesOnly task before.gateway.store subtasks subtaskId now

/-- A report that arrives says of the other subtasks what the gateway holds. -/
def ReportEchoesOthers (task : TaskState) (before : Coordination) (action : CoordinationAction) :
    Prop :=
  ∀ subtaskId now subtasks, action = .deliver subtaskId now →
    (before.reports subtaskId).stage = .sent subtasks →
      EchoesOthers task before.gateway.store subtasks subtaskId now

theorem reportTouchesOnly_iff (tells : TellsOnce before) :
    ReportTouchesOnly task before action ↔ ReportEchoesOthers task before action := by
  unfold ReportTouchesOnly ReportEchoesOthers
  refine forall₃_congr fun subtaskId now subtasks => imp_congr_right fun _ =>
    imp_congr_right fun sent => ?_
  have brought := tells.brought subtaskId
  rw [sent] at brought
  exact touchesOnly_iff brought

/-- The runs in which every report touches only its subtask are those in which every report says
of the others what the gateway holds when it arrives. -/
theorem run_touchesOnly_iff (distinct : (start.loop.subtasks.map SubtaskResult.id).Nodup)
    (quiet : ∀ id, (start.reports id).stage = .unsent) :
    Run (fun before action after => before.Steps task sha256Hex action after ∧
        ReportTouchesOnly task before action) start actions target ↔
      Run (fun before action after => before.Steps task sha256Hex action after ∧
        ReportEchoesOthers task before action) start actions target := by
  have tells : TellsOnce start := ⟨distinct, fun id => by rw [quiet id]; exact List.nodup_nil⟩
  constructor
  · intro run
    have kept (before : Coordination) (action : CoordinationAction) (after : Coordination)
        (tells : TellsOnce before) (step : before.Steps task sha256Hex action after ∧
          ReportTouchesOnly task before action) : TellsOnce after := tellsOnce_step step.1 tells
    exact run.mono_of_invariant kept
      (fun _ _ _ tells step => ⟨step.1, (reportTouchesOnly_iff tells).mp step.2⟩) tells
  · intro run
    have kept (before : Coordination) (action : CoordinationAction) (after : Coordination)
        (tells : TellsOnce before) (step : before.Steps task sha256Hex action after ∧
          ReportEchoesOthers task before action) : TellsOnce after := tellsOnce_step step.1 tells
    exact run.mono_of_invariant kept
      (fun _ _ _ tells step => ⟨step.1, (reportTouchesOnly_iff tells).mpr step.2⟩) tells

/-- The claim loop of a task with two subtasks. -/
def sampleTask : TaskState where
  id := "task-1"
  description := "fix the build"
  projectId := some "proj"
  status := .inProgress
  details _ := { description := "fix it" }

/-- Two subtasks wait, and the mirror knows it. -/
def sampleStart : Coordination where
  gateway := ⟨Gateway.sampleStore [Gateway.sampleSubtask "node-1" .pending .preferRemote,
    Gateway.sampleSubtask "node-2" .pending .preferRemote], [], []⟩
  loop := {
    subtasks := [{ id := "node-1", dependsOn := [], files := ["a.rs"] },
      { id := "node-2", dependsOn := [], files := ["b.rs"] }]
    maxConcurrency := 3 }
  reports _ := {}
  events := []

/-- A tick begins with what the gateway then holds. -/
def sampleTick : List CoordinationAction :=
  [.claimLoop (.reconcile [⟨"node-1", .pending, ""⟩, ⟨"node-2", .pending, ""⟩]), .claimLoop .gate]

/-- The second subtask is dispatched to a worker. -/
def sampleDispatched : List CoordinationAction :=
  [.gateway (.select .dispatchReadySubtasks "task-1"
      (fun subtask => if subtask.id = "node-2" then some "uc.subtask.execute" else none) 1),
    .gateway (.publish 0)]

/-- The first subtask is claimed. -/
def sampleClaim : List CoordinationAction := [.claimLoop .scan, .send "node-1"]

/-- The worker has completed the second subtask. -/
def sampleCompleted : Gateway.NatsTaskUpdate where
  taskId := "task-1"
  status := "in_progress"
  isPartial := true
  subtasks := [{
    execution := ⟨none, none, none, none, none⟩
    subtaskId := "node-2"
    status := "completed"
    assignedWorker := some "worker-1"
    description := none
    dependsOn := none
    result := some "done"
    usage := none
    review := none
    attemptId := some 0 }]
  result := none
  messageId := none

theorem run_touchesOnly_iff_sample :
    ∃ target, Run (fun before action after => before.Steps sampleTask (fun _ => "") action after ∧
      ReportTouchesOnly sampleTask before action) sampleStart
        (sampleTick ++ sampleClaim ++ [.deliver "node-1" 2]) target := by
  have other {before : Coordination} {action : CoordinationAction}
      (apart : ∀ subtaskId now, action ≠ .deliver subtaskId now) :
      ReportEchoesOthers sampleTask before action :=
    fun subtaskId now _ same => absurd same (apart subtaskId now)
  refine ⟨_, (run_touchesOnly_iff (by decide) fun _ => rfl).mpr
    (.cons ⟨rfl, other (by simp)⟩ (.cons ⟨rfl, other (by simp)⟩ (.cons ⟨rfl, other (by simp)⟩
      (.cons ⟨rfl, other (by simp)⟩ (.cons ⟨rfl, ?_⟩ (.nil _))))))⟩
  intro subtaskId now subtasks same sent _ current found st member apart
  cases same
  cases sent
  cases found
  rcases List.mem_cons.mp member with rfl | member
  · exact absurd rfl apart
  · rw [List.mem_singleton.mp member]
    exact ⟨rfl, rfl, rfl⟩

/-- The report of the first claim takes the second subtask from its worker, and it is refused if
the worker has completed the second subtask in the meantime. -/
theorem run_touchesOnly_fails :
    (∃ before after : Coordination,
      Run (Steps sampleTask fun _ => "") sampleStart (sampleTick ++ sampleDispatched ++ sampleClaim)
        before ∧
      before.Steps sampleTask (fun _ => "") (.deliver "node-1" 2) after ∧
      (before.gateway.store.subtask "task-1" "node-2").map Gateway.Subtask.status = some .assigned ∧
      (after.gateway.store.subtask "task-1" "node-2").map Gateway.Subtask.status = some .pending ∧
      ¬ ReportTouchesOnly sampleTask before (.deliver "node-1" 2)) ∧
    ∃ (before : Coordination) (subtasks : List SubtaskResult),
      Run (Steps sampleTask fun _ => "") sampleStart (sampleTick ++ sampleDispatched ++
        .gateway (.operate (.applyUpdate sampleCompleted none none) 2) :: sampleClaim) before ∧
      (before.reports "node-1").stage = .sent subtasks ∧
      sampleTask.accepted before.gateway.store (subtasks.filter (·.id = "node-1")) 3 = true ∧
      sampleTask.accepted before.gateway.store subtasks 3 = false := by
  constructor
  · have run : Run (Steps sampleTask fun _ => "") sampleStart
        (sampleTick ++ sampleDispatched ++ sampleClaim) _ :=
      .cons rfl (.cons rfl (.cons rfl (.cons rfl (.cons rfl (.cons rfl (.nil _))))))
    refine ⟨_, _, run, rfl, rfl, rfl, fun touches => ?_⟩
    obtain ⟨new, after, status, _⟩ :=
      (touches "node-1" 2 _ rfl rfl).frames "node-2" (by decide) _ rfl
    cases after
    cases status
  · have run : Run (Steps sampleTask fun _ => "") sampleStart (sampleTick ++ sampleDispatched ++
        .gateway (.operate (.applyUpdate sampleCompleted none none) 2) :: sampleClaim) _ :=
      .cons rfl (.cons rfl (.cons rfl (.cons rfl (.cons rfl (.cons rfl (.cons rfl (.nil _)))))))
    exact ⟨_, _, run, rfl, by decide +kernel, by decide +kernel⟩

end Coordination

end UltimateCoders.Orchestrator
