import UltimateCoders.Checkpoint.Recovery

/-! # Tasks that share a manager

Snapshots of all tasks are in one map and events of all streams are numbered together.
The recovery of a task is the same as if another one had not been there, exactly if
the id of the other one does not go on after that of the task with a colon.
-/

namespace UltimateCoders.Checkpoint

open Transition (Run)
open CheckpointManager (Action Steps findLatestSnapshot later)
open List

variable {config : CheckpointConfig} {manager before after : CheckpointManager}
  {taskId other : String}

/-- The action is on the task; a step of a call is on whatever the call is on. -/
def Action.IsOn (config : CheckpointConfig) (taskId : String) : Action → Prop
  | .append subject _ => subject = config.subjectFor taskId
  | .recordEvent subject event => subject = config.subjectFor taskId ∧
      ∀ extracted, extractTaskId event = some extracted → extracted = taskId
  | .createSnapshot created => created = taskId
  | .advance _ => True

def recorded (config : CheckpointConfig) (taskId : String) : List Action → List AgentEventType
  | [] => []
  | .append subject event :: rest =>
    if subject = config.subjectFor taskId then event :: recorded config taskId rest
    else recorded config taskId rest
  | .recordEvent subject event :: rest =>
    if subject = config.subjectFor taskId then event :: recorded config taskId rest
    else recorded config taskId rest
  | _ :: rest => recorded config taskId rest

def isCheckpoint : AgentEventType → Bool
  | .checkpointCreated _ _ _ => true
  | _ => false

def CheckpointManager.essential (config : CheckpointConfig) (manager : CheckpointManager)
    (taskId : String) : List AgentEventType :=
  ((manager.eventStore.stream (config.subjectFor taskId)).map RecordedEvent.event).filter
    fun event => !isCheckpoint event

open CheckpointManager

theorem foldl_filter_isCheckpoint (snapshot : TaskSnapshot) (events : List AgentEventType) :
    (events.filter fun event => !isCheckpoint event).foldl applyEventToSnapshot snapshot =
      events.foldl applyEventToSnapshot snapshot := by
  induction events generalizing snapshot with
  | nil => rfl
  | cons event rest ih =>
    cases event with
    | checkpointCreated taskId snapshotId offset => exact ih snapshot
    | _ => exact ih _

theorem replayed_at (manager : CheckpointManager) (taskId : String) :
    (manager.replayed config taskId).at 0 =
      ((manager.essential config taskId).foldl applyEventToSnapshot (.created taskId)).at 0 := by
  rw [essential, foldl_filter_isCheckpoint, foldl_map]
  rfl

theorem essential_append {subject : String} {event : AgentEventType}
    (appended : after.eventStore = before.eventStore.append subject event) :
    after.essential config taskId = before.essential config taskId ++
      if subject = config.subjectFor taskId then [event].filter fun event => !isCheckpoint event
      else [] := by
  unfold essential
  rw [appended]
  split
  · rename_i here
    subst here
    rw [InMemoryEventStore.stream_append_self, map_append, filter_append]
    rfl
  · rename_i elsewhere
    rw [InMemoryEventStore.stream_append_ne _ _ (Ne.symm elsewhere), append_nil]

/-- The events of a task after a run are those that were recorded. -/
theorem essential_of_run {actions : List Action} (run : Run (Steps config) before actions after) :
    after.essential config taskId = before.essential config taskId ++
      (recorded config taskId actions).filter fun event => !isCheckpoint event := by
  induction run with
  | nil manager => simp [recorded]
  | @cons source middle target action rest step _ ih =>
    rw [ih]
    cases action with
    | append subject event | recordEvent subject event =>
      have appended : middle.eventStore = source.eventStore.append subject event := by
        rw [← Option.some.inj step]
      rw [essential_append appended, recorded]
      split
      · rw [append_assoc, ← filter_append]
        rfl
      · rw [append_nil]
    | createSnapshot created =>
      have same : middle.eventStore = source.eventStore := by
        rw [← Option.some.inj step]
      rw [essential, same]
      rfl
    | advance index =>
      have same : middle.essential config taskId = source.essential config taskId := by
        rcases eventStore_of_step step with same | ⟨subject, event, appended, kind⟩
        · rw [essential, same]
          rfl
        · obtain impossible | impossible | ⟨_, announced, offset, _, rfl⟩ := kind
          · cases impossible
          · cases impossible
          · rw [essential_append appended]
            split <;> exact append_nil _
      rw [same]
      rfl

theorem Action.IsOn.concerns {action : Action} {allowed : String → Prop}
    (isOn : Action.IsOn config taskId action) (isAllowed : allowed taskId) :
    Action.Concerns allowed action := by
  cases action with
  | append subject event | advance index => trivial
  | recordEvent subject event =>
    intro extracted found
    rw [isOn.2 extracted found]
    exact isAllowed
  | createSnapshot created =>
    rw [show created = taskId from isOn]
    exact isAllowed

/-- What recovery of a task says apart from offsets, if nothing continues its id. -/
theorem recover_at_of_run {actions : List Action} {order : List ((_ : String) × TaskSnapshot)}
    {allowed : String → Prop} (run : Run (Steps config) .new actions after)
    (concerns : ∀ action ∈ actions, Action.Concerns allowed action)
    (separate : ∀ task, allowed task → ¬ Continues taskId task)
    (listed : order.Perm after.snapshotStore.entries) :
    (after.recover config order taskId).at 0 =
      (((recorded config taskId actions).filter fun event => !isCheckpoint event).foldl
        applyEventToSnapshot (.created taskId)).at 0 := by
  have replays := recoverFrom_of_run run (.nil after) (by simpa using concerns) separate listed
  rw [recover, replays, replayed_at, essential_of_run run]
  rfl

/-- Recovery of a task is the same, apart from offsets, as without any action on another one. -/
def Independent (config : CheckpointConfig) (taskId other : String) : Prop :=
  ∀ (actions alone : List Action) (shared single : CheckpointManager)
    (order orderAlone : List ((_ : String) × TaskSnapshot)),
    Run (Steps config) .new actions shared → Run (Steps config) .new alone single →
    (∀ action ∈ actions, Action.IsOn config taskId action ∨ Action.IsOn config other action) →
    (∀ action ∈ alone, Action.IsOn config taskId action) →
    recorded config taskId alone = recorded config taskId actions →
    order.Perm shared.snapshotStore.entries → orderAlone.Perm single.snapshotStore.entries →
    (shared.recover config order taskId).at 0 = (single.recover config orderAlone taskId).at 0

theorem findLatestSnapshot_of_continues (continues : Continues taskId other) :
    findLatestSnapshot config [⟨config.snapshotId other 0, .created other⟩] taskId =
      some (.created other) := by
  have starts : (config.scanPrefix taskId).toList.isPrefixOf
      (config.snapshotId other 0).toList = true := scanPrefix_isPrefixOf.mpr (.inr continues)
  simp [findLatestSnapshot, later, starts, TaskSnapshot.created]

/-- What is recovered of a task is independent of another task exactly if the id of that one does
not go on after its own with a colon. -/
theorem independent_iff (apart : taskId ≠ other) :
    Independent config taskId other ↔ ¬ Continues taskId other := by
  constructor
  · intro independent continues
    have run : Run (Steps config) .new
        [.createSnapshot other, .advance 0, .advance 0, .advance 0] _ :=
      .cons rfl (.cons rfl (.cons rfl (.cons rfl (.nil _))))
    have same := independent _ [] _ .new [⟨config.snapshotId other 0, .created other⟩] [] run (.nil _)
      (by simp [Action.IsOn]) (by simp) rfl (Perm.refl _) (Perm.refl _)
    have sameTask := congrArg TaskSnapshot.taskId same
    rw [recover, findLatestSnapshot_of_continues continues] at sameTask
    exact apart sameTask.symm
  · intro separate actions alone shared single order orderAlone run runAlone isOn isOnAlone same
      listed listedAlone
    have both : ∀ action ∈ actions,
        Action.Concerns (fun task => task = taskId ∨ task = other) action := by
      intro action member
      rcases isOn action member with here | there
      · exact here.concerns (.inl rfl)
      · exact there.concerns (.inr rfl)
    have single : ∀ action ∈ alone, Action.Concerns (· = taskId) action :=
      fun action member => (isOnAlone action member).concerns rfl
    rw [recover_at_of_run run both ?_ listed, recover_at_of_run runAlone single ?_ listedAlone, same]
    · rintro task rfl
      exact not_continues_self task
    · rintro task (rfl | rfl)
      · exact not_continues_self task
      · exact separate

theorem independent_iff_letters : Independent .default "a" "b" :=
  (independent_iff (by decide)).mpr (by unfold Continues; decide)

/-- A task is paused. A snapshot of another task, whose id goes on after the first one, is taken
for its own. -/
theorem independent_fails_colon :
    ∃ shared single : CheckpointManager,
      Run (Steps .default) .new
        [.recordEvent "agent.events.a" (.taskPaused "a"),
          .recordEvent "agent.events.a:b" (.taskCreated "a:b" "fix it"),
          .createSnapshot "a:b", .advance 2, .advance 2, .advance 2] shared ∧
      Run (Steps .default) .new [.recordEvent "agent.events.a" (.taskPaused "a")] single ∧
      shared.recover .default shared.snapshotStore.entries "a" = ⟨"a:b", "created", [], 2⟩ ∧
      single.recover .default single.snapshotStore.entries "a" = ⟨"a", "paused", [], 1⟩ ∧
      ¬ Independent .default "a" "a:b" := by
  have recovered : (new.actAll .default
      [.recordEvent "agent.events.a" (.taskPaused "a"),
        .recordEvent "agent.events.a:b" (.taskCreated "a:b" "fix it"),
        .createSnapshot "a:b", .advance 2, .advance 2, .advance 2]).map
      (fun shared => shared.recover .default shared.snapshotStore.entries "a") =
      some ⟨"a:b", "created", [], 2⟩ := by
    decide +kernel
  have recoveredAlone : (new.actAll .default
      [.recordEvent "agent.events.a" (.taskPaused "a")]).map
      (fun single => single.recover .default single.snapshotStore.entries "a") =
      some ⟨"a", "paused", [], 1⟩ := by
    decide +kernel
  obtain ⟨shared, reached, same⟩ := Option.map_eq_some_iff.mp recovered
  obtain ⟨single, reachedAlone, sameAlone⟩ := Option.map_eq_some_iff.mp recoveredAlone
  refine ⟨shared, single, run_of_actAll reached, run_of_actAll reachedAlone, same, sameAlone,
    fun independent => ?_⟩
  have equal := independent _ _ shared single _ _ (run_of_actAll reached)
    (run_of_actAll reachedAlone) (by simp [Action.IsOn, extractTaskId, CheckpointConfig.subjectFor,
      CheckpointConfig.default]) (by simp [Action.IsOn, extractTaskId, CheckpointConfig.subjectFor,
      CheckpointConfig.default]) (by decide +kernel) (Perm.refl _) (Perm.refl _)
  rw [same, sameAlone] at equal
  exact absurd equal (by decide)

end UltimateCoders.Checkpoint
