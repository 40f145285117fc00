import UltimateCoders.Checkpoint.Manager
import UltimateCoders.Transition.Run

/-! # Recovery is replay

Whenever a snapshot is stored it stands for the events up to the offset that was read
before it, whatever has been appended since. Recovery from any snapshot of a task is
therefore the replay of all its events. Snapshots are found by a textual prefix of
their ids, so this needs that no other task has an id that continues the one of the
task with a colon.
-/

namespace UltimateCoders.Checkpoint

open Replay (Rising IsCut lastOffset)
open Transition (Run)
open CheckpointManager (Action Steps findLatestSnapshot later)
open RecordedEvent InMemoryEventStore List

variable {config : CheckpointConfig} {manager before after : CheckpointManager}
  {store : InMemoryEventStore} {snapshot : TaskSnapshot} {taskId subject : String}
  {allowed : String → Prop}

def TaskSnapshot.at (snapshot : TaskSnapshot) (offset : Nat) : TaskSnapshot :=
  { snapshot with lastEventOffset := offset }

section

variable (snapshot : TaskSnapshot)

theorem refreshParentStatus_at (offset : Nat) :
    refreshParentStatus (snapshot.at offset) = (refreshParentStatus snapshot).at offset := by
  unfold refreshParentStatus
  rw [apply_ite (fun snapshot : TaskSnapshot => snapshot.at offset)]
  rfl

theorem assign_at (offset : Nat) (subtaskId workerId : String) :
    (snapshot.at offset).assign subtaskId workerId =
      (snapshot.assign subtaskId workerId).at offset := by
  unfold TaskSnapshot.assign
  rw [apply_ite (fun snapshot : TaskSnapshot => snapshot.at offset)]
  rfl

theorem applyRecorded_at (offset : Nat) (recorded : RecordedEvent) :
    applyRecorded (snapshot.at offset) recorded = (applyRecorded snapshot recorded).at offset := by
  unfold applyRecorded
  cases recorded.event with
  | subtaskAssigned task subtask worker =>
    simp only [applyEventToSnapshot, assign_at, refreshParentStatus_at]
  | subtaskCompleted task subtask summary success | subtaskFailed task subtask error recoverable =>
    exact refreshParentStatus_at (snapshot.changeSubtask subtask _) offset
  | _ => rfl

theorem foldl_applyRecorded_at (offset : Nat) (events : List RecordedEvent) :
    events.foldl applyRecorded (snapshot.at offset) =
      (events.foldl applyRecorded snapshot).at offset := by
  induction events generalizing snapshot with
  | nil => rfl
  | cons recorded rest ih => rw [foldl_cons, applyRecorded_at, ih, foldl_cons]

theorem refreshParentStatus_taskId : (refreshParentStatus snapshot).taskId = snapshot.taskId := by
  unfold refreshParentStatus
  split <;> rfl

theorem applyRecorded_taskId (recorded : RecordedEvent) :
    (applyRecorded snapshot recorded).taskId = snapshot.taskId := by
  unfold applyRecorded
  cases recorded.event with
  | subtaskAssigned task subtask worker =>
    simp only [applyEventToSnapshot, refreshParentStatus_taskId]
    unfold TaskSnapshot.assign
    split <;> rfl
  | subtaskCompleted task subtask summary success | subtaskFailed task subtask error recoverable =>
    exact refreshParentStatus_taskId _
  | _ => rfl

theorem foldl_applyRecorded_taskId (events : List RecordedEvent) :
    (events.foldl applyRecorded snapshot).taskId = snapshot.taskId := by
  induction events generalizing snapshot with
  | nil => rfl
  | cons recorded rest ih => rw [foldl_cons, ih, applyRecorded_taskId]

theorem TaskSnapshot.at_at (first second : Nat) :
    (snapshot.at first).at second = snapshot.at second := rfl

end

/-- Another task has an id that goes on after that of the task with a colon. -/
def Continues (taskId other : String) : Prop := taskId.toList ++ [':'] <+: other.toList

theorem colon_notMem_repr (count : Nat) : ':' ∉ count.repr.toList := by
  rw [Nat.toList_repr]
  intro member
  exact absurd (Nat.isDigit_of_mem_toDigits (by decide) (by decide) member) (by decide)

theorem eq_or_prefix_of_concat {first second digits : List Char} (none : ':' ∉ digits)
    (starts : first ++ [':'] <+: second ++ [':'] ++ digits) :
    first = second ∨ first ++ [':'] <+: second := by
  rcases prefix_or_prefix_of_prefix starts (prefix_append _ _) with short | long
  · rcases prefix_concat_iff.mp short with same | shorter
    · exact .inl (append_cancel_right same)
    · exact .inr shorter
  · obtain ⟨rest, same⟩ := long
    rw [← same, prefix_append_right_inj] at starts
    rcases eq_or_ne rest [] with rfl | nonempty
    · rw [append_nil] at same
      exact .inl (append_cancel_right same).symm
    · -- the last colon would be among the digits
      have last : rest.getLast nonempty = ':' := by
        have lasts := congrArg getLast? same
        rw [getLast?_append, getLast?_append, getLast?_eq_some_getLast nonempty] at lasts
        simpa using lasts
      exact absurd (starts.subset (last ▸ getLast_mem nonempty)) none

theorem scanPrefix_isPrefixOf {other : String} {offset : Nat} :
    (config.scanPrefix taskId).toList.isPrefixOf (config.snapshotId other offset).toList = true ↔
      taskId = other ∨ Continues taskId other := by
  rw [List.isPrefixOf_iff_prefix]
  have scan : (config.scanPrefix taskId).toList =
      (config.snapshotPrefix.toList ++ [':']) ++ (taskId.toList ++ [':']) := by
    simp [CheckpointConfig.scanPrefix, String.toList_append]
  have key : (config.snapshotId other offset).toList =
      (config.snapshotPrefix.toList ++ [':']) ++ (other.toList ++ [':'] ++ offset.repr.toList) := by
    simp [CheckpointConfig.snapshotId, String.toList_append]
  rw [scan, key, prefix_append_right_inj]
  constructor
  · intro starts
    rcases eq_or_prefix_of_concat (colon_notMem_repr offset) starts with same | continues
    · exact .inl (String.toList_injective same)
    · exact .inr continues
  · rintro (rfl | continues)
    · exact prefix_append _ _
    · exact continues.trans ((prefix_append _ _).trans (prefix_append _ _))

/-- The snapshot is a cut of the stream of its task, below the offset that comes next. -/
structure IsSnapshot (config : CheckpointConfig) (store : InMemoryEventStore)
    (snapshot : TaskSnapshot) : Prop where
  cut : IsCut offset applyRecorded (.created snapshot.taskId)
    (store.stream (config.subjectFor snapshot.taskId)) snapshot.lastEventOffset (snapshot.at 0)
  below : snapshot.lastEventOffset < store.globalOffset

def Call.Holds (config : CheckpointConfig) (store : InMemoryEventStore) (allowed : String → Prop) :
    Call → Prop
  | .counting event => ∀ taskId, extractTaskId event = some taskId → allowed taskId
  | .locating taskId => allowed taskId
  | .replaying taskId latestOffset => allowed taskId ∧ latestOffset < store.globalOffset ∧
      (latestOffset = 0 ∨
        ∃ recorded ∈ store.stream (config.subjectFor taskId), recorded.offset = latestOffset)
  | .storing snapshot => allowed snapshot.taskId ∧ IsSnapshot config store snapshot
  | .announcing _ _ => True

/-- Streams rise, and snapshots stand for the events up to their offsets. -/
structure WellFormed (config : CheckpointConfig) (allowed : String → Prop)
    (manager : CheckpointManager) : Prop where
  positive : 0 < manager.eventStore.globalOffset
  rising : ∀ subject, Rising offset (manager.eventStore.stream subject)
  bounded : ∀ subject, ∀ recorded ∈ manager.eventStore.stream subject,
    recorded.offset < manager.eventStore.globalOffset
  snapshots : ∀ key snapshot, manager.snapshotStore.lookup key = some snapshot →
    key = config.snapshotId snapshot.taskId snapshot.lastEventOffset ∧
      allowed snapshot.taskId ∧ IsSnapshot config manager.eventStore snapshot
  calls : ∀ call ∈ manager.calls, call.Holds config manager.eventStore allowed

def Action.Concerns (allowed : String → Prop) : Action → Prop
  | .append _ _ => True
  | .recordEvent _ event => ∀ taskId, extractTaskId event = some taskId → allowed taskId
  | .createSnapshot taskId => allowed taskId
  | .advance _ => True

theorem wellFormed_new : WellFormed config allowed .new where
  positive := by decide
  rising := fun _ => .nil
  bounded := fun _ _ member => by cases member
  snapshots := fun _ _ found => by cases found
  calls := fun _ member => by cases member

theorem exists_stream_append (store : InMemoryEventStore) (subject other : String)
    (event : AgentEventType) : ∃ added : List RecordedEvent,
      (store.append subject event).stream other = store.stream other ++ added ∧
      ∀ recorded ∈ added, recorded.offset = store.globalOffset := by
  by_cases here : other = subject
  · subst here
    exact ⟨_, store.stream_append_self _ _, fun recorded member => by
      rw [mem_singleton.mp member]⟩
  · exact ⟨[], by rw [store.stream_append_ne event here, append_nil],
      fun _ member => by cases member⟩

theorem IsSnapshot.append (holds : IsSnapshot config store snapshot) (subject : String)
    (event : AgentEventType) : IsSnapshot config (store.append subject event) snapshot := by
  obtain ⟨added, stream, offsets⟩ := exists_stream_append store subject
    (config.subjectFor snapshot.taskId) event
  refine ⟨?_, Nat.lt_succ_of_lt holds.below⟩
  rw [stream]
  apply holds.cut.append
  intro recorded member
  rw [offsets recorded member]
  exact holds.below

theorem Call.Holds.append {call : Call} (holds : call.Holds config store allowed) (subject : String)
    (event : AgentEventType) : call.Holds config (store.append subject event) allowed := by
  cases call with
  | replaying taskId latestOffset =>
    obtain ⟨isAllowed, below, reached⟩ := holds
    obtain ⟨added, stream, _⟩ := exists_stream_append store subject (config.subjectFor taskId) event
    refine ⟨isAllowed, Nat.lt_succ_of_lt below, reached.imp_right ?_⟩
    rintro ⟨recorded, member, here⟩
    exact ⟨recorded, stream ▸ mem_append_left _ member, here⟩
  | storing snapshot => exact ⟨holds.1, holds.2.append subject event⟩
  | _ => exact holds

theorem WellFormed.append (wellFormed : WellFormed config allowed manager) (subject : String)
    (event : AgentEventType) : WellFormed config allowed
      { manager with eventStore := manager.eventStore.append subject event } where
  positive := Nat.succ_pos _
  rising other := by
    by_cases here : other = subject
    · subst here
      rw [stream_append_self]
      exact (wellFormed.rising other).concat wellFormed.positive (wellFormed.bounded other)
    · rw [stream_append_ne _ event here]
      exact wellFormed.rising other
  bounded other recorded member := by
    obtain ⟨added, stream, offsets⟩ := exists_stream_append manager.eventStore subject other event
    rw [stream] at member
    rcases mem_append.mp member with earlier | last
    · exact Nat.lt_succ_of_lt (wellFormed.bounded other recorded earlier)
    · rw [offsets recorded last]
      exact Nat.lt_succ_self _
  snapshots key snapshot found := by
    obtain ⟨keyEq, isAllowed, holds⟩ := wellFormed.snapshots key snapshot found
    exact ⟨keyEq, isAllowed, holds.append subject event⟩
  calls call member := (wellFormed.calls call member).append subject event

theorem WellFormed.withCalls (wellFormed : WellFormed config allowed manager) {calls : List Call}
    (hold : ∀ call ∈ calls, call.Holds config manager.eventStore allowed) :
    WellFormed config allowed { manager with calls := calls } :=
  ⟨wellFormed.positive, wellFormed.rising, wellFormed.bounded, wellFormed.snapshots, hold⟩

theorem IsSnapshot.of_foldl {latestOffset : Nat} (sameTask : snapshot.taskId = taskId)
    (sameOffset : snapshot.lastEventOffset = latestOffset)
    (cut : IsCut offset applyRecorded (.created taskId)
      (store.stream (config.subjectFor taskId)) latestOffset (snapshot.at 0))
    (below : latestOffset < store.globalOffset) : IsSnapshot config store snapshot := by
  subst sameTask sameOffset
  exact ⟨cut, below⟩

theorem isSnapshot_of_replaying {latestOffset : Nat}
    (holds : (Call.replaying taskId latestOffset).Holds config store allowed) :
    IsSnapshot config store (((store.readFrom (config.subjectFor taskId) 0).filter fun recorded =>
      recorded.offset ≤ latestOffset).foldl applyRecorded ⟨taskId, "created", [], latestOffset⟩) := by
  obtain ⟨-, below, reached⟩ := holds
  have all : store.readFrom (config.subjectFor taskId) 0 = store.stream (config.subjectFor taskId) := by
    simp [readFrom, Replay.startingAt]
  have started : (⟨taskId, "created", [], latestOffset⟩ : TaskSnapshot) =
      (TaskSnapshot.created taskId).at latestOffset := rfl
  rw [all, started, foldl_applyRecorded_at]
  refine .of_foldl (foldl_applyRecorded_taskId _ _) rfl ⟨?_, reached⟩ below
  rw [TaskSnapshot.at_at, ← foldl_applyRecorded_at]
  rfl

theorem holds_of_advance (wellFormed : WellFormed config allowed manager) {call : Call}
    (holds : call.Holds config manager.eventStore allowed) :
    WellFormed config allowed (manager.advance config call).1 ∧
      (manager.advance config call).1.calls = manager.calls ∧
      ∀ rest, (manager.advance config call).2 = some rest →
        rest.Holds config (manager.advance config call).1.eventStore allowed := by
  cases call with
  | counting event =>
    refine ⟨⟨wellFormed.positive, wellFormed.rising, wellFormed.bounded, wellFormed.snapshots,
      wellFormed.calls⟩, rfl, fun rest due => ?_⟩
    simp only [CheckpointManager.advance] at due
    split at due
    · obtain ⟨taskId, extracted, rfl⟩ := Option.map_eq_some_iff.mp due
      exact holds taskId extracted
    · cases due
  | locating taskId =>
    refine ⟨wellFormed, rfl, fun rest due => ?_⟩
    cases due
    have reached := Replay.lastOffset_reached offset
      (manager.eventStore.stream (config.subjectFor taskId))
    refine ⟨holds, ?_, reached⟩
    rcases reached with zero | ⟨recorded, member, same⟩
    · exact (congrArg (· < _) zero).mpr wellFormed.positive
    · exact (congrArg (· < _) same).mp (wellFormed.bounded _ recorded member)
  | replaying taskId latestOffset =>
    refine ⟨wellFormed, rfl, fun rest due => ?_⟩
    cases due
    refine ⟨?_, isSnapshot_of_replaying holds⟩
    rw [foldl_applyRecorded_taskId]
    exact holds.1
  | storing snapshot =>
    refine ⟨⟨wellFormed.positive, wellFormed.rising, wellFormed.bounded,
      fun key other found => ?_, wellFormed.calls⟩, rfl, fun rest due => ?_⟩
    · simp only [CheckpointManager.advance] at found
      by_cases here : key = config.snapshotId snapshot.taskId snapshot.lastEventOffset
      · rw [here, AList.lookup_insert, Option.some.injEq] at found
        subst found
        exact ⟨here, holds⟩
      · rw [AList.lookup_insert_ne here] at found
        exact wellFormed.snapshots key other found
    · cases due
      trivial
  | announcing taskId latestOffset =>
    exact ⟨wellFormed.append _ _, rfl, fun rest due => by cases due⟩

theorem wellFormed_of_step {action : Action} (wellFormed : WellFormed config allowed before)
    (concerns : Action.Concerns allowed action) (step : Steps config before action after) :
    WellFormed config allowed after := by
  cases action with
  | append subject event =>
    rw [← Option.some.inj step]
    exact wellFormed.append subject event
  | recordEvent subject event =>
    rw [← Option.some.inj step]
    apply (wellFormed.append subject event).withCalls
    intro call member
    rcases mem_append.mp member with earlier | last
    · exact (wellFormed.append subject event).calls call earlier
    · rw [mem_singleton.mp last]
      exact concerns
  | createSnapshot taskId =>
    rw [← Option.some.inj step]
    apply wellFormed.withCalls
    intro call member
    rcases mem_append.mp member with earlier | last
    · exact wellFormed.calls call earlier
    · rw [mem_singleton.mp last]
      exact concerns
  | advance index =>
    obtain ⟨call, found, same⟩ := Option.map_eq_some_iff.mp step
    obtain ⟨still, sameCalls, restHolds⟩ :=
      holds_of_advance wellFormed (wellFormed.calls call (mem_of_getElem? found))
    rw [← same]
    split
    · rename_i advanced rest due
      rw [due] at still sameCalls restHolds
      apply still.withCalls
      intro other member
      rcases mem_or_eq_of_mem_set member with earlier | rfl
      · exact still.calls other (sameCalls.symm ▸ earlier)
      · exact restHolds _ rfl
    · rename_i advanced due
      rw [due] at still sameCalls
      apply still.withCalls
      intro other member
      exact still.calls other (sameCalls.symm ▸ mem_of_mem_eraseIdx member)

/-- What a step does to the event store. -/
theorem eventStore_of_step {action : Action} (step : Steps config before action after) :
    after.eventStore = before.eventStore ∨
      ∃ subject event, after.eventStore = before.eventStore.append subject event ∧
        (action = .append subject event ∨ action = .recordEvent subject event ∨
          (∃ index, action = .advance index) ∧
          ∃ taskId offset, subject = config.subjectFor taskId ∧
            event = .checkpointCreated taskId (config.snapshotId taskId offset) offset) := by
  cases action with
  | append subject event =>
    rw [← Option.some.inj step]
    exact .inr ⟨subject, event, rfl, .inl rfl⟩
  | recordEvent subject event =>
    rw [← Option.some.inj step]
    exact .inr ⟨subject, event, rfl, .inr (.inl rfl)⟩
  | createSnapshot taskId =>
    rw [← Option.some.inj step]
    exact .inl rfl
  | advance index =>
    obtain ⟨call, found, same⟩ := Option.map_eq_some_iff.mp step
    have store : after.eventStore = (before.advance config call).1.eventStore := by
      rw [← same]
      split <;> rename_i due <;> rw [due]
    rw [store]
    cases call with
    | announcing taskId offset =>
      exact .inr ⟨_, _, rfl, .inr (.inr ⟨⟨index, rfl⟩, taskId, offset, rfl, rfl⟩)⟩
    | _ => exact .inl rfl

variable {actions : List Action}

theorem isSnapshot_of_run (run : Run (Steps config) before actions after)
    (holds : IsSnapshot config before.eventStore snapshot) :
    IsSnapshot config after.eventStore snapshot := by
  induction run with
  | nil manager => exact holds
  | cons step _ ih =>
    apply ih
    rcases eventStore_of_step step with same | ⟨subject, event, same, _⟩
    · rw [same]
      exact holds
    · rw [same]
      exact holds.append subject event

theorem wellFormed_of_run (run : Run (Steps config) before actions after)
    (concerns : ∀ action ∈ actions, Action.Concerns allowed action)
    (wellFormed : WellFormed config allowed before) : WellFormed config allowed after :=
  run.invariant (Action.Concerns allowed)
    (fun _ _ _ wellFormed concerns step => wellFormed_of_step wellFormed concerns step)
    concerns wellFormed

def CheckpointManager.replayed (config : CheckpointConfig) (manager : CheckpointManager)
    (taskId : String) : TaskSnapshot :=
  let events := manager.eventStore.stream (config.subjectFor taskId)
  { events.foldl applyRecorded (.created taskId) with
    lastEventOffset := lastOffset offset events }

open CheckpointManager

theorem exists_of_findLatestSnapshot {order : List ((_ : String) × TaskSnapshot)}
    (found : findLatestSnapshot config order taskId = some snapshot) :
    ∃ key, ⟨key, snapshot⟩ ∈ order ∧
      (config.scanPrefix taskId).toList.isPrefixOf key.toList = true := by
  have scanned : ∀ (order : List ((_ : String) × TaskSnapshot)) (latest : Option TaskSnapshot × Nat),
      (order.foldl (later (config.scanPrefix taskId)) latest).1 = some snapshot →
      latest.1 = some snapshot ∨ ∃ key, ⟨key, snapshot⟩ ∈ order ∧
        (config.scanPrefix taskId).toList.isPrefixOf key.toList = true := by
    intro order
    induction order with
    | nil => exact fun _ found => .inl found
    | cons entry rest ih =>
      intro latest found
      rcases ih _ found with first | ⟨key, member, starts⟩
      · unfold later at first
        split at first
        · rename_i taken
          rw [Bool.and_eq_true] at taken
          cases first
          exact .inr ⟨entry.1, mem_cons_self, taken.1⟩
        · exact .inl first
      · exact .inr ⟨key, mem_cons_of_mem _ member, starts⟩
  rcases scanned order (none, 0) found with impossible | listed
  · cases impossible
  · exact listed

theorem recoverFrom_eq_replayed
    (rising : Rising offset (manager.eventStore.stream (config.subjectFor taskId)))
    {latest : Option TaskSnapshot} (fits : ∀ snapshot, latest = some snapshot →
      snapshot.taskId = taskId ∧ IsSnapshot config manager.eventStore snapshot) :
    manager.recoverFrom config taskId latest = manager.replayed config taskId := by
  cases latest with
  | none =>
    simp [recoverFrom, replayed, readFrom, Replay.startingAt, lastOffset]
  | some snapshot =>
    obtain ⟨rfl, holds⟩ := fits snapshot rfl
    have replays := holds.cut.foldl_startingAt rising
    have last := holds.cut.lastOffset_startingAt rising
    rw [foldl_applyRecorded_at] at replays
    simp only [recoverFrom, replayed, readFrom, last, ← replays]
    rfl

/-- Recovery is replay if no other task of which snapshots are taken has an id that goes on
after that of the task. Steps may come between the scan and the reading of events. -/
theorem recoverFrom_of_run {scanned : CheckpointManager} {actions more : List Action}
    {order : List ((_ : String) × TaskSnapshot)}
    (first : Run (Steps config) .new actions scanned) (second : Run (Steps config) scanned more after)
    (concerns : ∀ action ∈ actions ++ more, Action.Concerns allowed action)
    (separate : ∀ other, allowed other → ¬ Continues taskId other)
    (listed : order.Perm scanned.snapshotStore.entries) :
    after.recoverFrom config taskId (findLatestSnapshot config order taskId) =
      after.replayed config taskId := by
  have wellFormed := wellFormed_of_run first
    (fun action member => concerns action (mem_append_left _ member)) wellFormed_new
  have still := wellFormed_of_run second
    (fun action member => concerns action (mem_append_right _ member)) wellFormed
  refine recoverFrom_eq_replayed (still.rising _) fun snapshot found => ?_
  obtain ⟨key, member, starts⟩ := exists_of_findLatestSnapshot found
  obtain ⟨rfl, isAllowed, holds⟩ := wellFormed.snapshots key snapshot
    (AList.mem_lookup_iff.mpr (listed.mem_iff.mp member))
  rcases scanPrefix_isPrefixOf.mp starts with same | continues
  · exact ⟨same.symm, isSnapshot_of_run second holds⟩
  · exact absurd continues (separate _ isAllowed)

theorem not_continues_self (taskId : String) : ¬ Continues taskId taskId := by
  intro continues
  have longer := continues.length_le
  rw [length_append, length_singleton] at longer
  omega

/-- Whatever is appended while snapshots of a task are taken, recovery of the task is the replay
of all its events. -/
theorem recover_eq_replayed {scanned : CheckpointManager} {actions more : List Action}
    {order : List ((_ : String) × TaskSnapshot)}
    (first : Run (Steps config) .new actions scanned) (second : Run (Steps config) scanned more after)
    (concerns : ∀ action ∈ actions ++ more, Action.Concerns (· = taskId) action)
    (listed : order.Perm scanned.snapshotStore.entries) :
    after.recoverFrom config taskId (findLatestSnapshot config order taskId) =
      { (after.eventStore.stream (config.subjectFor taskId)).foldl applyRecorded
          (.created taskId) with
        lastEventOffset := lastOffset offset
          (after.eventStore.stream (config.subjectFor taskId)) } :=
  recoverFrom_of_run first second concerns (fun _ same => same ▸ not_continues_self taskId) listed

theorem run_of_actAll (reached : before.actAll config actions = some after) :
    Run (Steps config) before actions after := by
  induction actions generalizing before with
  | nil =>
    cases reached
    exact .nil _
  | cons action rest ih =>
    obtain ⟨middle, step, later⟩ := Option.bind_eq_some_iff.mp reached
    exact .cons step (ih later)

/-- A task is resumed while a snapshot of it is taken, and a subtask is assigned before the
checkpoint event is appended. -/
theorem recover_eq_replayed_interleaved :
    ∃ scanned after : CheckpointManager,
      Run (Steps .default) .new
        [.append "agent.events.t" (.taskPaused "t"), .createSnapshot "t", .advance 0,
          .append "agent.events.t" (.taskResumed "t"), .advance 0, .advance 0] scanned ∧
      Run (Steps .default) scanned
        [.append "agent.events.t" (.subtaskAssigned "t" "s" "w"), .advance 0] after ∧
      after.recoverFrom .default "t"
          (findLatestSnapshot .default scanned.snapshotStore.entries "t") =
        ⟨"t", "in_progress", [⟨"s", "assigned", some "w", none⟩], 4⟩ ∧
      after.recoverFrom .default "t"
          (findLatestSnapshot .default scanned.snapshotStore.entries "t") =
        { (after.eventStore.stream "agent.events.t").foldl applyRecorded (.created "t") with
          lastEventOffset := lastOffset offset
            (after.eventStore.stream "agent.events.t") } := by
  have recovered : (new.actAll .default
      [.append "agent.events.t" (.taskPaused "t"), .createSnapshot "t", .advance 0,
        .append "agent.events.t" (.taskResumed "t"), .advance 0, .advance 0]).bind
      (fun scanned => (scanned.actAll .default
        [.append "agent.events.t" (.subtaskAssigned "t" "s" "w"), .advance 0]).map fun after =>
          after.recoverFrom .default "t"
            (findLatestSnapshot .default scanned.snapshotStore.entries "t")) =
      some ⟨"t", "in_progress", [⟨"s", "assigned", some "w", none⟩], 4⟩ := by
    decide +kernel
  obtain ⟨scanned, reached, mapped⟩ := Option.bind_eq_some_iff.mp recovered
  obtain ⟨after, reachedAfter, same⟩ := Option.map_eq_some_iff.mp mapped
  exact ⟨scanned, after, run_of_actAll reached, run_of_actAll reachedAfter, same,
    recover_eq_replayed (run_of_actAll reached) (run_of_actAll reachedAfter)
      (by simp [Action.Concerns]) (Perm.refl _)⟩

end UltimateCoders.Checkpoint
