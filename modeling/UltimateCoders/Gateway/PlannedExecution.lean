import UltimateCoders.Gateway.Configuration

/-! # What the worker is told

Between the plan and the worker nothing changes a configuration. It is lost at the ends: the update
call does not keep the agent's configuration, and one of the two functions that dispatch sends
neither the expected output nor the file constraints.
-/

namespace UltimateCoders.Gateway

open Governance (Instant)
open TaskStore
open Transition (Run)

variable {store stored : TaskStore} {taskId id subtaskId : String} {task : Task} {now : Instant}
  {configuration planned : Configuration}

/-- Neither an update call nor a complete snapshot of the task. -/
def GatewayAction.Later (taskId : String) : GatewayAction → Prop
  | .operate (.applyUpdate update _ _) _ => update.isPartial = true ∨ update.taskId ≠ taskId
  | .operate (.updateTask other _ _ _ _) _ => other ≠ taskId
  | _ => True

variable {update : NatsTaskUpdate}

theorem fullSnapshotIsStale_of_isPartial (isPartial : update.isPartial = true) :
    store.fullSnapshotIsStale update = false := by
  simp [fullSnapshotIsStale, isPartial]

theorem lookup_of_isPartial {description projectId : Option String}
    (isPartial : update.isPartial = true) {new : Task}
    (after : (store.applyUpdateWithMetadata update description projectId now).tasks.lookup
      update.taskId = some new) :
    ∃ old, store.tasks.lookup update.taskId = some old := by
  cases before : store.tasks.lookup update.taskId with
  | some old => exact ⟨old, rfl⟩
  | none =>
    have still : store.rehydrate update description projectId now = none := by
      simp [rehydrate, before, isPartial]
    simp [applyUpdateWithMetadata, fullSnapshotIsStale_of_isPartial isPartial, still, before] at after

theorem configuration_partial {description projectId : Option String}
    (isPartial : update.isPartial = true) {new : Subtask}
    (after :
        (store.applyUpdateWithMetadata update description projectId now).subtask taskId subtaskId =
          some new) :
    (∃ old, store.subtask taskId subtaskId = some old ∧ new.configuration = old.configuration) ∨
      (store.subtask taskId subtaskId = none ∧ new.configuration = .empty) := by
  obtain ⟨task, found, foundNew⟩ : ∃ task, (store.applyUpdateWithMetadata update description
      projectId now).tasks.lookup taskId = some task ∧
        findSubtask task.subtasks subtaskId = some new := by
    unfold TaskStore.subtask at after
    split at after
    · cases after
    · exact ⟨_, ‹_›, after⟩
  by_cases own : taskId = update.taskId
  · subst own
    obtain ⟨old, before⟩ := lookup_of_isPartial isPartial found
    obtain ⟨reported, same, rfl⟩ :=
      task_of_applyUpdate before (fullSnapshotIsStale_of_isPartial isPartial) found
    have configured : configurationOf subtaskId (update.subtasks.foldl
        (Reported.upsert old.id update.isPartial now) reported).subtasks =
          some new.configuration := by
      rw [configurationOf]
      exact congrArg (Option.map Subtask.configuration) foundNew
    rw [isPartial] at configured
    have known : store.subtask update.taskId subtaskId = findSubtask old.subtasks subtaskId := by
      rw [TaskStore.subtask, before]
    rw [known]
    rcases @Reported.configurationOf_foldl old.id subtaskId now update.subtasks reported with
      still | ⟨none, added⟩
    · rw [still, same, configurationOf] at configured
      obtain ⟨first, foundFirst, sameConfiguration⟩ := Option.map_eq_some_iff.mp configured
      exact .inl ⟨first, foundFirst, sameConfiguration.symm⟩
    · rw [added] at configured
      rw [same, configurationOf, Option.map_eq_none_iff] at none
      exact .inr ⟨none, (Option.some.inj configured).symm⟩
  · have before := lookup_of_applyUpdate_ne own found
    refine .inl ⟨new, ?_, rfl⟩
    rw [TaskStore.subtask, before]
    exact foundNew

theorem lookup_of_updateTask_ne {status description projectId : String} {subtasks : List Subtask}
    {new : Task} (apart : id ≠ taskId)
    (after : (store.updateTask taskId status subtasks description projectId now).2.tasks.lookup id =
      some new) : store.tasks.lookup id = some new := by
  rcases updateTask_tasks store taskId status subtasks description projectId now with
    same | ⟨-, _, _, -, written⟩
  · rwa [same] at after
  · rwa [written, AList.lookup_insert_ne apart] at after

/-- The task under the id has the subtask, with this configuration wherever it is held. -/
structure Carries (taskId subtaskId : String) (configuration : Configuration)
    (gateway : GatewayState) : Prop where
  stored : ∀ task, gateway.store.tasks.lookup taskId = some task →
    Configured subtaskId configuration task.subtasks
  queued : ∀ dispatch, gateway.Queued dispatch → dispatch.taskId = taskId →
    dispatch.subtask.id = subtaskId → dispatch.subtask.configuration = configuration

theorem Edits.configured (edits : Edits Reworked store stored)
    (configured : ∀ task, store.tasks.lookup taskId = some task →
      Configured subtaskId configuration task.subtasks) (new : Task)
    (found : stored.tasks.lookup taskId = some new) :
    Configured subtaskId configuration new.subtasks := by
  obtain ⟨old, foundOld, -, related⟩ := edits taskId new found
  refine (configured_iff_keys ?_).mpr (configured old foundOld)
  refine (Search.map_eq_of_forall₂ related ?_).symm
  rintro first second ⟨_, _, _, _, rfl⟩
  rfl

theorem configured_operation {operation : TaskOperation}
    (later : (GatewayAction.operate operation now).Later taskId)
    (configured : ∀ task, store.tasks.lookup taskId = some task →
      Configured subtaskId configuration task.subtasks) (new : Task)
    (found : (operation.apply store now).tasks.lookup taskId = some new) :
    Configured subtaskId configuration new.subtasks := by
  cases operation with
  | applyUpdate update description projectId =>
    by_cases own : taskId = update.taskId
    · subst own
      have isPartial := later.resolve_right fun apart => apart rfl
      obtain ⟨old, before⟩ := lookup_of_isPartial isPartial found
      obtain ⟨reported, same, rfl⟩ :=
        task_of_applyUpdate before (fullSnapshotIsStale_of_isPartial isPartial) found
      rw [isPartial]
      exact Reported.configured_foldl (same ▸ configured old before)
    · exact configured new (lookup_of_applyUpdate_ne own found)
  | updateTask other status subtasks description projectId =>
    exact configured new (lookup_of_updateTask_ne (Ne.symm later) found)
  | _ => exact (edits_apply rfl).configured configured new found

theorem mem_marked {mouth : Mouth} {projectId : String} {gate : Gate} {ready : List Subtask}
    {dispatch : Dispatch}
    (member : dispatch ∈ (markReady mouth taskId projectId gate now ready store).1) :
    dispatch.taskId = taskId ∧ dispatch.subtask ∈ ready := by
  induction ready generalizing store with
  | nil => cases member
  | cons first rest ih =>
    have later {store : TaskStore}
        (member : dispatch ∈ (markReady mouth taskId projectId gate now rest store).1) :
        dispatch.taskId = taskId ∧ dispatch.subtask ∈ first :: rest :=
      ⟨(ih member).1, List.mem_cons_of_mem _ (ih member).2⟩
    unfold markReady at member
    split at member
    · exact later member
    · split at member
      · exact later member
      · rcases List.mem_cons.mp member with rfl | member
        · exact ⟨rfl, List.mem_cons_self⟩
        · exact later member

theorem mem_selectReady {mouth : Mouth} {gate : Gate} {dispatch : Dispatch}
    (member : dispatch ∈ (selectReady store mouth taskId gate now).1) :
    dispatch.taskId = taskId ∧ ∃ task, store.tasks.lookup taskId = some task ∧
      dispatch.subtask ∈ task.subtasks := by
  obtain ⟨own, ready⟩ := mem_marked member
  refine ⟨own, ?_⟩
  unfold getReadySubtasks at ready
  split at ready
  · cases ready
  · rename_i task found
    refine ⟨task, found, ?_⟩
    split at ready
    · cases ready
    · exact (List.mem_filter.mp ready).1

namespace GatewayState

variable {sha256Hex : String → String} {before after source target : GatewayState}
  {action : GatewayAction} {actions : List GatewayAction} {dispatch : Dispatch}

theorem carries_step (step : before.Steps sha256Hex action after) (later : action.Later taskId)
    (carries : Carries taskId subtaskId configuration before) :
    Carries taskId subtaskId configuration after := by
  refine ⟨fun task found => ?_, fun dispatch queued own named => ?_⟩
  · cases action with
    | operate operation now =>
      rw [← Option.some.inj step] at found
      exact configured_operation later carries.stored task found
    | select mouth other gate now =>
      rw [← Option.some.inj step] at found
      exact edits_markReady.configured carries.stored task found
    | publish position =>
      obtain ⟨_, _, _, rfl⟩ := steps_publish step
      exact carries.stored task found
    | failPublish position =>
      obtain ⟨_, _, _, rfl⟩ := steps_failPublish step
      exact carries.stored task found
    | handleFailure position now =>
      obtain ⟨_, _, _, rfl⟩ := steps_handleFailure step
      exact edits_handlePublishFailure.configured carries.stored task found
  · rcases queued_of_step step queued with earlier | marked
    · exact carries.queued dispatch earlier own named
    · cases action with
      | select mouth other gate now =>
        obtain ⟨same, task, found, member⟩ := mem_selectReady marked
        rw [own] at same
        subst same
        exact (carries.stored task found).2 _ member named
      | _ => cases marked

theorem carries_run (run : Run (Steps sha256Hex) source actions target)
    (later : ∀ action ∈ actions, action.Later taskId)
    (carries : Carries taskId subtaskId configuration source) :
    Carries taskId subtaskId configuration target :=
  run.invariant (fun action => action.Later taskId)
    (fun _ _ _ carries later step => carries_step step later carries) later carries

theorem configuration_message (sha256Hex : String → String) (dispatch : Dispatch) :
    (dispatch.message sha256Hex).configuration =
      match dispatch.mouth with
      | .publishReadySubtasks =>
        { dispatch.subtask.configuration with expectedOutput := "", fileConstraints := [] }
      | .dispatchReadySubtasks => dispatch.subtask.configuration := by
  unfold Dispatch.message
  cases dispatch.mouth <;> rfl

theorem configuration_eq_iff {door : Door}
    (stored : dispatch.subtask.configuration = door.stored planned) :
    (dispatch.message sha256Hex).configuration = planned ↔
      door.Keeps planned ∧ dispatch.mouth.Keeps planned := by
  rw [configuration_message, stored]
  obtain ⟨config, capabilities, constraints, output, steps⟩ := planned
  cases door <;> cases dispatch.mouth <;>
    simp only [Door.stored, Door.Keeps, Mouth.Keeps, Configuration.mk.injEq, true_and, and_true,
      eq_comm, and_comm]

/-- A subtask that an update call or a complete snapshot has brought is sent to workers as planned,
exactly if the agent's configuration did not come through the update call, and the function that
dispatches it sends what was planned. Partial reports change nothing of it. -/
theorem plannedExecution_iff {door : Door} {current : GatewayState}
    (unknown : before.store.subtask taskId subtaskId = none)
    (unqueued : ∀ dispatch, before.Queued dispatch → dispatch.taskId = taskId →
      dispatch.subtask.id ≠ subtaskId)
    (plans : door.Plans taskId subtaskId planned)
    (introduced : (((door.operation taskId).apply before.store now).subtask taskId
      subtaskId).isSome = true)
    (run : Run (Steps sha256Hex)
      { before with store := (door.operation taskId).apply before.store now } actions current)
    (later : ∀ action ∈ actions, action.Later taskId) :
    (∀ dispatch, current.Queued dispatch → dispatch.taskId = taskId →
      dispatch.subtask.id = subtaskId →
        ((dispatch.message sha256Hex).configuration = planned ↔
          door.Keeps planned ∧ dispatch.mouth.Keeps planned)) ∧
    ∀ (update : NatsTaskUpdate) (description projectId : Option String) (now : Instant)
      (taskId subtaskId : String) (new : Subtask), update.isPartial = true →
      (current.store.applyUpdateWithMetadata update description projectId now).subtask taskId
        subtaskId = some new →
      (∃ old, current.store.subtask taskId subtaskId = some old ∧
        new.configuration = old.configuration) ∨
        (current.store.subtask taskId subtaskId = none ∧ new.configuration = .empty) := by
  refine ⟨fun dispatch queued own named => configuration_eq_iff ?_,
    fun _ _ _ _ _ _ _ isPartial after => configuration_partial isPartial after⟩
  have start : Carries taskId subtaskId (door.stored planned)
      { before with store := (door.operation taskId).apply before.store now } := by
    refine ⟨fun task found => ⟨?_, door.allHave plans unknown found⟩,
      fun dispatch queued own named => absurd named (unqueued dispatch queued own)⟩
    obtain ⟨subtask, first⟩ := Option.isSome_iff_exists.mp introduced
    rw [TaskStore.subtask, found] at first
    exact ⟨subtask, List.mem_of_find?_eq_some first, (mem_of_findSubtask first).2⟩
  exact (carries_run run later start).queued dispatch queued own named

/-- A new subtask, as an update call sends it. -/
def sampleProto (agentConfigJson : Option String) : SubtaskProto where
  id := "node-1"
  status := "Pending"
  fileConstraints := ["src/main.rs"]
  expectedOutput := "the tests pass"
  requiredCapabilities := ["rust"]
  agentConfigJson := agentConfigJson

/-- The call that brings it. -/
def sampleDoor (agentConfigJson : Option String) : Door :=
  .updateTask "InProgress" [sampleProto agentConfigJson] "" ""

def sampleUnderWay : GatewayState := ⟨sampleStore [], [], []⟩

def sampleIntroduced (agentConfigJson : Option String) : GatewayState :=
  { sampleUnderWay with
    store := ((sampleDoor agentConfigJson).operation "task-1").apply sampleUnderWay.store 1 }

def sampleMouth (mouth : Mouth) : GatewayAction :=
  .select mouth "task-1" (fun _ => some "uc.subtask.execute") 2

theorem sampleDoor_plans (agentConfigJson : Option String) :
    (sampleDoor agentConfigJson).Plans "task-1" "node-1" (sampleProto agentConfigJson).planned := by
  intro st sent _
  rw [List.mem_singleton.mp sent]

theorem plannedExecution_iff_sample :
    ∃ (current : GatewayState) (dispatch : Dispatch),
      Run (Steps fun _ => "") (sampleIntroduced none) [sampleMouth .dispatchReadySubtasks] current ∧
      current.Queued dispatch ∧
      (dispatch.message fun _ => "").configuration = (sampleProto none).planned := by
  have run : Run (Steps fun _ => "") (sampleIntroduced none)
      [sampleMouth .dispatchReadySubtasks] _ := .cons rfl (.nil _)
  have unknown : sampleUnderWay.store.subtask "task-1" "node-1" = none := rfl
  have unqueued : ∀ dispatch, sampleUnderWay.Queued dispatch → dispatch.taskId = "task-1" →
      dispatch.subtask.id ≠ "node-1" := by
    rintro dispatch ⟨dispatcher, member, _⟩
    cases member
  have later : ∀ action ∈ [sampleMouth .dispatchReadySubtasks], action.Later "task-1" := by
    intro action member
    rw [List.mem_singleton.mp member]
    trivial
  have outcome := plannedExecution_iff unknown unqueued (sampleDoor_plans none) rfl run later
  refine ⟨_, ⟨.dispatchReadySubtasks, "task-1", "proj", (sampleProto none).toSubtask "task-1",
    "uc.subtask.execute"⟩, run, ⟨_, List.mem_singleton.mpr rfl, List.mem_singleton.mpr rfl⟩, ?_⟩
  exact (outcome.1 _ ⟨_, List.mem_singleton.mpr rfl, List.mem_singleton.mpr rfl⟩ rfl rfl).mpr
    ⟨rfl, trivial⟩

/-- An agent with few tools is planned, and a worker is told of no agent, no files and no output. -/
theorem plannedExecution_fails :
    ∃ final : GatewayState,
      sampleUnderWay.store.subtask "task-1" "node-1" = none ∧
      Run (Steps fun _ => "") (sampleIntroduced (some "restricted"))
        [sampleMouth .publishReadySubtasks, .publish 0] final ∧
      ∃ message ∈ final.published, message.graphId = "task-1" ∧ message.nodeId = "node-1" ∧
        message.configuration =
          { agentConfigJson := none, requiredCapabilities := ["rust"], fileConstraints := [],
            expectedOutput := "", steps := [] } ∧
        (sampleProto (some "restricted")).planned =
          { agentConfigJson := some "restricted", requiredCapabilities := ["rust"],
            fileConstraints := ["src/main.rs"], expectedOutput := "the tests pass", steps := [] } ∧
        message.configuration ≠ (sampleProto (some "restricted")).planned := by
  have run : Run (Steps fun _ => "") (sampleIntroduced (some "restricted"))
      [sampleMouth .publishReadySubtasks, .publish 0] _ := .cons rfl (.cons rfl (.nil _))
  exact ⟨_, rfl, run, _, List.mem_singleton.mpr rfl, rfl, rfl, rfl, rfl, by decide⟩

end GatewayState

end UltimateCoders.Gateway
