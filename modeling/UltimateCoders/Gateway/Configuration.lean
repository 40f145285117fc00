import UltimateCoders.Gateway.Dispatch
import UltimateCoders.Gateway.Protection

/-! # How a subtask is to be executed

A plan says with which configuration a subtask is to be executed. It comes to the gateway through
an update call or a complete snapshot, stays with the subtask, and goes out with every dispatch.
-/

namespace UltimateCoders.Gateway

open Governance (Instant)
open UltimateCoders.Graph (TaskStatus SubtaskStatus)
open TaskStore Reported List Search

/-- What a plan says about the execution of a subtask. -/
structure Configuration where
  agentConfigJson : Option String := none
  requiredCapabilities : List String := []
  fileConstraints : List String := []
  expectedOutput : String := ""
  steps : List WorkflowStep := []
  deriving DecidableEq

def Configuration.empty : Configuration := {}

def Subtask.configuration (subtask : Subtask) : Configuration where
  agentConfigJson := subtask.agentConfigJson
  requiredCapabilities := subtask.requiredCapabilities
  fileConstraints := subtask.fileConstraints
  expectedOutput := subtask.expectedOutput
  steps := subtask.steps

def NatsSubtaskExecute.configuration (execute : NatsSubtaskExecute) : Configuration where
  agentConfigJson := execute.agentConfigJson
  requiredCapabilities := execute.requiredCapabilities
  fileConstraints := execute.fileConstraints
  expectedOutput := execute.expectedOutput
  steps := execute.steps

structure WorkflowStepProto where
  agent : String
  prompt : String
  agentConfigJson : Option String := none
  abortOnFailure : Option Bool := none
  retryCount : Option UInt32 := none
  retryDelayMs : Option UInt64 := none
  condition : Option String := none
  parallelGroup : Option String := none
  deriving DecidableEq

def WorkflowStepProto.toStep (s : WorkflowStepProto) : WorkflowStep where
  agent := s.agent
  prompt := s.prompt
  agentConfigJson := s.agentConfigJson
  abortOnFailure := s.abortOnFailure.getD true
  retryCount := s.retryCount.getD 0
  retryDelayMs := s.retryDelayMs.getD 0
  condition := s.condition
  parallelGroup := s.parallelGroup

/-- A subtask as the update call sends it; its result is not read. -/
structure SubtaskProto where
  id : String
  description : String := ""
  status : String
  dependsOn : List String := []
  assignedWorker : Option String := none
  fileConstraints : List String := []
  expectedOutput : String := ""
  dispatchMode : Option String := none
  dispatchRetryCount : Option UInt32 := none
  requiredCapabilities : List String := []
  agentConfigJson : Option String := none
  steps : List WorkflowStepProto := []
  retryCount : Option UInt32 := none
  deriving DecidableEq

/-- Parse the status of a subtask as the update call names it. -/
def protoSubtaskStatusFromStr (text : String) : Except String SubtaskStatus :=
  if text = "Pending" then .ok .pending
  else if text = "Assigned" then .ok .assigned
  else if text = "InProgress" then .ok .inProgress
  else if text = "Completed" then .ok .completed
  else if text = "Failed" then .ok .failed
  else if text = "Conflicted" then .ok .conflicted
  else .error ("Unknown SubtaskStatus: " ++ text)

/-- The subtask that the update call makes of what is sent. -/
def SubtaskProto.toSubtask (taskId : String) (st : SubtaskProto) : Subtask where
  id := st.id
  parentId := taskId
  description := st.description
  status := (protoSubtaskStatusFromStr st.status).toOption.getD .pending
  assignedWorker := st.assignedWorker
  dependsOn := st.dependsOn
  fileConstraints := st.fileConstraints
  expectedOutput := st.expectedOutput
  result := none
  dispatchMode := if st.dispatchMode = some "Remote" then .remote else .preferRemote
  effectClass := .requiresWorker
  dispatchRetryCount := st.dispatchRetryCount.getD 0
  requiredCapabilities := st.requiredCapabilities
  agentConfigJson := none
  steps := st.steps.map WorkflowStepProto.toStep
  retryCount := st.retryCount.getD 0

/-- The update call before it dispatches what is ready. -/
def updateTaskRpc (taskId status : String) (subtasks : List SubtaskProto)
    (description projectId : String) : TaskOperation :=
  .updateTask taskId status (subtasks.map fun st => st.toSubtask taskId) description projectId

/-- The configuration that the sender of an update call asks for. -/
def SubtaskProto.planned (st : SubtaskProto) : Configuration where
  agentConfigJson := st.agentConfigJson
  requiredCapabilities := st.requiredCapabilities
  fileConstraints := st.fileConstraints
  expectedOutput := st.expectedOutput
  steps := st.steps.map WorkflowStepProto.toStep

/-- The configuration that the sender of a complete snapshot asks for. -/
def NatsSubtaskExecution.planned (execution : NatsSubtaskExecution) : Configuration where
  agentConfigJson := execution.agentConfigJson
  requiredCapabilities := execution.requiredCapabilities.getD []
  fileConstraints := execution.fileConstraints.getD []
  expectedOutput := execution.expectedOutput.getD ""
  steps := execution.workflowSteps.getD []

open NatsSubtaskExecution

/-- How a plan comes to the gateway. -/
inductive Door where
  | updateTask (status : String) (subtasks : List SubtaskProto) (description projectId : String)
  | snapshot (update : NatsTaskUpdate) (description projectId : Option String)

namespace Door

def operation (taskId : String) : Door → TaskOperation
  | updateTask status subtasks description projectId =>
    updateTaskRpc taskId status subtasks description projectId
  | snapshot update description projectId => .applyUpdate update description projectId

/-- A complete message on the task, which asks for this configuration of the subtask. -/
def Plans (taskId subtaskId : String) (planned : Configuration) : Door → Prop
  | updateTask _ subtasks _ _ =>
    ∀ st ∈ subtasks, st.id = subtaskId → st.planned = planned
  | snapshot update _ _ => update.taskId = taskId ∧ update.isPartial = false ∧
      ∀ entry ∈ update.subtasks, entry.subtaskId = subtaskId → entry.execution.planned = planned

/-- What the gateway keeps of a plan. -/
def stored (planned : Configuration) : Door → Configuration
  | updateTask _ _ _ _ => { planned with agentConfigJson := none }
  | snapshot _ _ _ => planned

def Keeps (planned : Configuration) : Door → Prop
  | updateTask _ _ _ _ => planned.agentConfigJson = none
  | snapshot _ _ _ => True

end Door

/-- The function that dispatches sends all of the plan. -/
def Mouth.Keeps (planned : Configuration) : Mouth → Prop
  | .publishReadySubtasks => planned.expectedOutput = "" ∧ planned.fileConstraints = []
  | .dispatchReadySubtasks => True

variable {store stored : TaskStore} {taskId id subtaskId : String} {task : Task}
  {now : Instant} {configuration planned : Configuration} {subtasks : List Subtask}

def Subtask.key (subtask : Subtask) : String × Configuration := (subtask.id, subtask.configuration)

variable {change : Subtask → Subtask}

theorem keys_changeSubtask (same : ∀ subtask, (change subtask).key = subtask.key) :
    (changeSubtask subtasks subtaskId change).map Subtask.key = subtasks.map Subtask.key :=
  Search.map_modify_eq same

theorem edits_handlePublishFailure {dispatch : Dispatch} :
    Edits Reworked store (handlePublishFailure store dispatch now) := by
  unfold handlePublishFailure
  dsimp only
  split
  · split
    · exact edits_incrementDispatchRetry.then edits_updateSubtaskStatus
    · exact edits_incrementDispatchRetry.then edits_updateSubtaskStatus
  · exact edits_updateSubtaskStatus

theorem edits_markReady {mouth : Mouth} {projectId : String} {gate : Gate} {ready : List Subtask} :
    Edits Reworked store (markReady mouth taskId projectId gate now ready store).2 := by
  induction ready generalizing store with
  | nil => exact .refl store
  | cons first rest ih =>
    unfold markReady
    split
    · exact edits_updateSubtaskStatus.then ih
    · split
      · exact ih
      · exact edits_updateSubtaskStatus.then ih

def Configured (subtaskId : String) (configuration : Configuration) (subtasks : List Subtask) :
    Prop :=
  (∃ subtask ∈ subtasks, subtask.id = subtaskId) ∧
    ∀ subtask ∈ subtasks, subtask.id = subtaskId → subtask.configuration = configuration

theorem configured_iff_keys {others : List Subtask}
    (same : others.map Subtask.key = subtasks.map Subtask.key) :
    Configured subtaskId configuration others ↔ Configured subtaskId configuration subtasks := by
  have known (list : List Subtask) : Configured subtaskId configuration list ↔
      (∃ key ∈ list.map Subtask.key, key.1 = subtaskId) ∧
        ∀ key ∈ list.map Subtask.key, key.1 = subtaskId → key.2 = configuration := by
    simp [Configured, Subtask.key]
  rw [known, known, same]

theorem key_reportSubtask {update : NatsSubtaskUpdate} (subtask : Subtask) :
    (reportSubtask true update now subtask).key = subtask.key := by
  unfold reportSubtask
  dsimp only
  split <;> rfl

theorem Reported.keys_upsert {reported : Reported} {update : NatsSubtaskUpdate} :
    (reported.upsert taskId true now update).subtasks.map Subtask.key =
        reported.subtasks.map Subtask.key ∨
      (findSubtask reported.subtasks update.subtaskId = none ∧
        (reported.upsert taskId true now update).subtasks.map Subtask.key =
          reported.subtasks.map Subtask.key ++ [(update.subtaskId, Configuration.empty)]) := by
  unfold upsert
  split
  · left
    rw [if_pos rfl]
    split
    · rfl
    · rfl
    · exact keys_changeSubtask key_reportSubtask
  · rename_i absent
    refine .inr ⟨absent, ?_⟩
    rw [map_append]
    rfl

/-- The configuration of the first subtask under an id. -/
def configurationOf (subtaskId : String) (subtasks : List Subtask) : Option Configuration :=
  (findSubtask subtasks subtaskId).map Subtask.configuration

theorem configurationOf_eq_find_key : configurationOf subtaskId subtasks =
    ((subtasks.map Subtask.key).find? fun key => key.1 = subtaskId).map Prod.snd := by
  rw [configurationOf, findSubtask, find?_map, Option.map_map]
  rfl

variable {updates : List NatsSubtaskUpdate}

theorem Reported.configurationOf_foldl {reported : Reported} :
    configurationOf subtaskId
        (updates.foldl (upsert taskId true now) reported).subtasks =
      configurationOf subtaskId reported.subtasks ∨
    (configurationOf subtaskId reported.subtasks = none ∧ configurationOf subtaskId
      (updates.foldl (upsert taskId true now) reported).subtasks = some .empty) := by
  induction updates generalizing reported with
  | nil => exact .inl rfl
  | cons update updates ih =>
    rw [foldl_cons]
    have first : configurationOf subtaskId (reported.upsert taskId true now update).subtasks =
          configurationOf subtaskId reported.subtasks ∨
        (configurationOf subtaskId reported.subtasks = none ∧
          configurationOf subtaskId (reported.upsert taskId true now update).subtasks =
            some .empty) := by
      simp only [configurationOf_eq_find_key]
      rcases @keys_upsert taskId now reported update with same | ⟨absent, added⟩
      · exact .inl (by rw [same])
      · rw [added, find?_append]
        cases found : (reported.subtasks.map Subtask.key).find? fun key => key.1 = subtaskId with
        | some key => exact .inl rfl
        | none =>
          by_cases here : update.subtaskId = subtaskId
          · exact .inr ⟨rfl, by simp [here]⟩
          · exact .inl (by simp [here])
    rcases @ih (reported.upsert taskId true now update) with same | ⟨absent, added⟩
    · rw [same]
      exact first
    · rcases first with still | ⟨none, some⟩
      · rw [still] at absent
        exact .inr ⟨absent, added⟩
      · rw [some] at absent
        cases absent

theorem Reported.configured_foldl {reported : Reported}
    (configured : Configured subtaskId configuration reported.subtasks) :
    Configured subtaskId configuration
      (updates.foldl (upsert taskId true now) reported).subtasks := by
  induction updates generalizing reported with
  | nil => exact configured
  | cons update updates ih =>
    rw [foldl_cons]
    apply ih
    unfold upsert
    split
    · rw [if_pos rfl]
      split
      · exact configured
      · exact configured
      · exact (configured_iff_keys (keys_changeSubtask key_reportSubtask)).mpr configured
    · rename_i absent
      obtain ⟨⟨subtask, member, named⟩, all⟩ := configured
      refine ⟨⟨subtask, mem_append_left _ member, named⟩, fun other otherMem otherId => ?_⟩
      rcases mem_append.mp otherMem with before | added
      · exact all other before otherId
      · -- the id of what is added was not there before
        rw [mem_singleton.mp added] at otherId
        have missing := find?_eq_none.mp absent subtask member
        rw [named, ← otherId] at missing
        exact absurd (decide_eq_true rfl) missing

def AllHave (subtaskId : String) (configuration : Configuration) (subtasks : List Subtask) : Prop :=
  ∀ subtask ∈ subtasks, subtask.id = subtaskId → subtask.configuration = configuration

theorem allHave_of_absent (absent : findSubtask subtasks subtaskId = none) :
    AllHave subtaskId configuration subtasks := by
  intro subtask member named
  have missing := find?_eq_none.mp absent subtask member
  exact absurd (decide_eq_true named) missing

theorem AllHave.append {more : List Subtask} (all : AllHave subtaskId configuration subtasks)
    (others : AllHave subtaskId configuration more) :
    AllHave subtaskId configuration (subtasks ++ more) := by
  intro subtask member
  exact (mem_append.mp member).elim (all subtask) (others subtask)

theorem AllHave.changed {changedId : String} (all : AllHave subtaskId configuration subtasks)
    (same : ∀ old, (change old).id = old.id)
    (kept : changedId = subtaskId → ∀ old, old.configuration = configuration →
      (change old).configuration = configuration) :
    AllHave subtaskId configuration (changeSubtask subtasks changedId change) := by
  intro subtask member named
  rcases mem_changeSubtask member with before | ⟨old, found, rfl⟩
  · exact all subtask before named
  · rw [same] at named
    exact kept ((mem_of_findSubtask found).2.symm.trans named) old
      (all old (mem_of_findSubtask found).1 named)

theorem Projected.allHave_foldl {projected : Projected} {incomings : List Subtask}
    (all : AllHave subtaskId configuration projected.subtasks)
    (sent : AllHave subtaskId configuration incomings) :
    AllHave subtaskId configuration (incomings.foldl Projected.upsert projected).subtasks := by
  induction incomings generalizing projected with
  | nil => exact all
  | cons incoming incomings ih =>
    obtain ⟨own, others⟩ := forall_mem_cons.mp sent
    refine ih ?_ others
    unfold Projected.upsert
    split
    · exact all.changed (fun _ => rfl) fun _ _ kept => kept
    · refine all.append fun subtask member named => ?_
      rw [mem_singleton.mp member] at named ⊢
      exact own named

theorem configuration_applyTo {execution : NatsSubtaskExecution} {subtask : Subtask}
    (asked : execution.planned = planned)
    (kept : subtask.configuration = planned ∨ subtask.configuration = .empty) :
    (execution.applyTo subtask).configuration = planned := by
  subst asked
  obtain ⟨agentConfigJson, requiredCapabilities, fileConstraints, expectedOutput, workflowSteps⟩ :=
    execution
  rcases kept with kept | kept
  · simp only [Subtask.configuration, planned, Configuration.mk.injEq] at kept
    obtain ⟨config, capabilities, constraints, output, steps⟩ := kept
    simp only [Subtask.configuration, applyTo, planned,
      Configuration.mk.injEq, config, capabilities, constraints, output, steps, Option.or_self,
      true_and]
    refine ⟨?_, ?_, ?_, ?_⟩
    · cases requiredCapabilities <;> rfl
    · cases fileConstraints <;> rfl
    · cases expectedOutput <;> rfl
    · cases workflowSteps <;> rfl
  · simp only [Subtask.configuration, Configuration.empty, Configuration.mk.injEq] at kept
    simp [Subtask.configuration, applyTo, planned, kept]

theorem configuration_natsSubtaskToDomain {update : NatsSubtaskUpdate}
    (asked : update.execution.planned = planned) :
    (natsSubtaskToDomain taskId update now).configuration = planned :=
  configuration_applyTo asked (.inr rfl)

theorem Reported.allHave_foldl {reported : Reported}
    (all : AllHave subtaskId planned reported.subtasks)
    (asked : ∀ entry ∈ updates, entry.subtaskId = subtaskId → entry.execution.planned = planned) :
    AllHave subtaskId planned
      (updates.foldl (upsert taskId false now) reported).subtasks := by
  induction updates generalizing reported with
  | nil => exact all
  | cons update updates ih =>
    obtain ⟨own, others⟩ := forall_mem_cons.mp asked
    refine ih ?_ others
    unfold upsert
    split
    · refine all.changed (fun old => ?_) fun here old kept => ?_
      · unfold reportSubtask
        dsimp only
        split <;> rfl
      · have configured := configuration_applyTo (own here) (.inl kept)
        unfold reportSubtask
        dsimp only
        split <;> exact configured
    · refine all.append fun subtask member named => ?_
      rw [mem_singleton.mp member] at named ⊢
      exact configuration_natsSubtaskToDomain (own named)

theorem allHave_of_lookup (absent : store.subtask taskId subtaskId = none) {task : Task}
    (found : store.tasks.lookup taskId = some task) :
    AllHave subtaskId configuration task.subtasks := by
  rw [TaskStore.subtask, found] at absent
  exact allHave_of_absent absent

theorem allHave_updateTask {status description projectId : String} {incomings : List Subtask}
    (absent : store.subtask taskId subtaskId = none)
    (sent : AllHave subtaskId configuration incomings) {new : Task}
    (after : (store.updateTask taskId status incomings description projectId now).2.tasks.lookup
      taskId = some new) : AllHave subtaskId configuration new.subtasks := by
  rcases updateTask_tasks store taskId status incomings description projectId now with
    same | ⟨-, task, parsed, source, written⟩
  · exact allHave_of_lookup absent (same ▸ after)
  · rw [written, AList.lookup_insert, Option.some.injEq] at after
    rw [← after]
    refine Projected.allHave_foldl ?_ sent
    rcases source with found | ⟨-, -, brought⟩
    · exact allHave_of_lookup absent found
    · exact brought ▸ sent

theorem allHave_rehydrate {update : NatsTaskUpdate} {description projectId : Option String}
    (absent : store.subtask update.taskId subtaskId = none)
    (asked : ∀ entry ∈ update.subtasks, entry.subtaskId = subtaskId →
      entry.execution.planned = planned)
    (rehydrated : store.rehydrate update description projectId now = some stored) {task : Task}
    (found : stored.tasks.lookup update.taskId = some task) :
    AllHave subtaskId planned task.subtasks := by
  rcases rehydrate_cases rehydrated with ⟨rfl, -⟩ | ⟨-, fresh, -, sent, rfl⟩
  · exact allHave_of_lookup absent found
  · rw [putTask, AList.lookup_insert, Option.some.injEq] at found
    rw [← found, sent]
    intro subtask member named
    obtain ⟨entry, entryMem, rfl⟩ := mem_map.mp member
    exact configuration_natsSubtaskToDomain (asked entry entryMem named)

theorem allHave_applyUpdate {update : NatsTaskUpdate} {description projectId : Option String}
    (full : update.isPartial = false) (absent : store.subtask update.taskId subtaskId = none)
    (asked : ∀ entry ∈ update.subtasks, entry.subtaskId = subtaskId →
      entry.execution.planned = planned) {new : Task}
    (after : (store.applyUpdateWithMetadata update description projectId now).tasks.lookup
      update.taskId = some new) : AllHave subtaskId planned new.subtasks := by
  rcases applyUpdate_task after with before | ⟨-, ready, task, _, rehydrated, found, rfl, rfl⟩
  · exact allHave_of_lookup absent before
  · rw [full]
    exact allHave_foldl (allHave_rehydrate absent asked rehydrated found) asked

theorem Door.allHave {door : Door} (plans : door.Plans taskId subtaskId planned)
    (absent : store.subtask taskId subtaskId = none) {new : Task}
    (after : ((door.operation taskId).apply store now).tasks.lookup taskId = some new) :
    AllHave subtaskId (door.stored planned) new.subtasks := by
  cases door with
  | updateTask status protos description projectId =>
    refine allHave_updateTask absent ?_ after
    intro subtask member named
    obtain ⟨st, sent, rfl⟩ := mem_map.mp member
    rw [Door.stored, ← plans st sent named]
    rfl
  | snapshot update description projectId =>
    obtain ⟨rfl, full, asked⟩ := plans
    exact allHave_applyUpdate full absent asked after

end UltimateCoders.Gateway
