import Mathlib.Data.List.Infix
import UltimateCoders.Checkpoint.Events

/-! # Replayed and derived status

The status of a task is derived anew from its subtasks after each report on one of them, but once it
has become an outcome it stays. So what a replay ends with is the first outcome that a report led to
since the task was created, and this is the derived status only if later events lead to it as well.
-/

namespace UltimateCoders.Checkpoint

open List

namespace AgentEventType

/-- The status of the task is derived after the event. -/
def isReport : AgentEventType → Bool
  | subtaskAssigned _ _ _ | subtaskCompleted _ _ _ _ | subtaskFailed _ _ _ _ => true
  | _ => false

def isCreation : AgentEventType → Bool
  | taskCreated _ _ => true
  | _ => false

/-- The status of the task is set by the event. -/
def isLifecycle : AgentEventType → Bool
  | taskCompleted _ _ _ | taskFailed _ _ | taskCancelled _ | taskPaused _ | taskResumed _ |
    taskUpdated _ _ | subtaskRetried _ _ _ => true
  | _ => false

def assignedId : AgentEventType → Option String
  | subtaskAssigned _ subtaskId _ => some subtaskId
  | _ => none

/-- The status of a subtask after an event; it has none before it is assigned. -/
def restand (id : String) (standing : Option String) : AgentEventType → Option String
  | subtaskAssigned _ subtaskId _ => if subtaskId = id then some "assigned" else standing
  | subtaskStarted _ subtaskId _ =>
    if subtaskId = id then standing.map fun _ => "in_progress" else standing
  | subtaskCompleted _ subtaskId _ success =>
    if subtaskId = id then standing.map fun _ => if success then "completed" else "failed"
    else standing
  | subtaskFailed _ subtaskId _ recoverable =>
    if subtaskId = id then
      standing.map fun _ => if recoverable then "recoverable_failed" else "failed"
    else standing
  | _ => standing

end AgentEventType

open AgentEventType

section Verdicts

variable (events : List AgentEventType)

/-- The status of a subtask after events. -/
def standing (id : String) : Option String := events.foldl (restand id) none

def assignedIds : List String := events.filterMap assignedId

/-- The outcome of a task after events: all its subtasks are completed, or one has failed. -/
def verdict : Option String :=
  if assignedIds events ≠ [] ∧ ∀ id ∈ assignedIds events, standing events id = some "completed" then
    some "completed"
  else if ∃ id ∈ assignedIds events, standing events id = some "failed" then some "failed"
  else none

def EndsInReport : Prop := ∃ event ∈ events.getLast?, event.isReport = true

instance : Decidable (EndsInReport events) :=
  inferInstanceAs (Decidable (∃ event ∈ events.getLast?, event.isReport = true))

/-- The events up to each report since the task was created. -/
def reportedFronts : List (List AgentEventType) :=
  events.inits.filter fun front =>
    decide (EndsInReport front) && (events.drop front.length).all fun event => !event.isCreation

/-- The first outcome that a report led to since the task was created. -/
def firstVerdict : Option String := (reportedFronts events).findSome? verdict

end Verdicts

variable {events : List AgentEventType} {event : AgentEventType} {snapshot : TaskSnapshot}

theorem standing_snoc (id : String) :
    standing (events ++ [event]) id = restand id (standing events id) event := by
  simp [standing]

theorem mem_assignedIds_snoc {id : String} :
    id ∈ assignedIds (events ++ [event]) ↔ id ∈ assignedIds events ∨ id ∈ event.assignedId := by
  rw [assignedIds, assignedIds, filterMap_append, mem_append]
  simp

theorem endsInReport_snoc : EndsInReport (events ++ [event]) ↔ event.isReport = true := by
  simp [EndsInReport]

theorem reportedFronts_snoc :
    reportedFronts (events ++ [event]) =
      (if event.isCreation then [] else reportedFronts events) ++
        if event.isReport then [events ++ [event]] else [] := by
  have earlier : events.inits.filter (fun front => decide (EndsInReport front) &&
        ((events ++ [event]).drop front.length).all fun event => !event.isCreation) =
      if event.isCreation then [] else reportedFronts events := by
    have cut : ∀ front ∈ events.inits,
        (events ++ [event]).drop front.length = events.drop front.length ++ [event] :=
      fun front member =>
        drop_append_of_le_length ((mem_inits front events).mp member).length_le
    cases created : event.isCreation with
    | true =>
      refine filter_eq_nil_iff.mpr fun front member => ?_
      simp [cut front member, created]
    | false =>
      refine filter_congr fun front member => ?_
      simp [cut front member, created]
  rw [reportedFronts, inits_append, filter_append, earlier]
  congr 1
  by_cases reports : event.isReport = true
  · simp [endsInReport_snoc, reports]
  · simp [endsInReport_snoc, reports]

theorem firstVerdict_snoc :
    firstVerdict (events ++ [event]) =
      ((if event.isCreation then none else firstVerdict events).or
        (if event.isReport then verdict (events ++ [event]) else none)) := by
  rw [firstVerdict, reportedFronts_snoc, findSome?_append]
  congr 1
  · split <;> rfl
  · split <;> simp

theorem verdict_cases {outcome : String} (reached : verdict events = some outcome) :
    outcome = "completed" ∨ outcome = "failed" := by
  unfold verdict at reached
  split at reached
  · exact .inl (Option.some.inj reached).symm
  · split at reached
    · exact .inr (Option.some.inj reached).symm
    · cases reached

/-- The snapshot lists the assigned subtasks with their status, each one once. -/
structure Shows (snapshot : TaskSnapshot) (events : List AgentEventType) : Prop where
  nodup : (snapshot.subtasks.map SubtaskSnapshot.subtaskId).Nodup
  ids : ∀ id, id ∈ snapshot.subtasks.map SubtaskSnapshot.subtaskId ↔ id ∈ assignedIds events
  standing : ∀ subtask ∈ snapshot.subtasks, standing events subtask.subtaskId = some subtask.status

theorem agrees_nil (taskId : String) : Shows (.created taskId) [] :=
  ⟨nodup_nil, by simp [TaskSnapshot.created, assignedIds], by simp [TaskSnapshot.created]⟩

theorem Shows.forall_iff (agrees : Shows snapshot events) (status : String) :
    (∀ id ∈ assignedIds events, Checkpoint.standing events id = some status) ↔
      ∀ subtask ∈ snapshot.subtasks, subtask.status = status := by
  simp only [← agrees.ids, forall_mem_map]
  refine forall₂_congr fun subtask member => ?_
  rw [agrees.standing subtask member, Option.some.injEq]

theorem Shows.exists_iff (agrees : Shows snapshot events) (status : String) :
    (∃ id ∈ assignedIds events, Checkpoint.standing events id = some status) ↔
      ∃ subtask ∈ snapshot.subtasks, subtask.status = status := by
  constructor
  · intro ⟨id, listed, stands⟩
    rw [← agrees.ids] at listed
    obtain ⟨subtask, member, rfl⟩ := mem_map.mp listed
    exact ⟨subtask, member, Option.some.inj ((agrees.standing subtask member).symm.trans stands)⟩
  · intro ⟨subtask, member, same⟩
    refine ⟨subtask.subtaskId, (agrees.ids _).mp (mem_map_of_mem member), ?_⟩
    rw [agrees.standing subtask member, same]

theorem Shows.eq_nil_iff (agrees : Shows snapshot events) :
    assignedIds events = [] ↔ snapshot.subtasks = [] := by
  rw [← map_eq_nil_iff (f := SubtaskSnapshot.subtaskId), eq_nil_iff_forall_not_mem,
    eq_nil_iff_forall_not_mem]
  exact forall_congr' fun id => not_congr (agrees.ids id).symm

theorem some_outcome_iff {status outcome : String}
    (settled : status = "completed" ∨ status = "failed") :
    some status = some outcome ↔ status = outcome ∧ (outcome = "completed" ∨ outcome = "failed") := by
  rw [Option.some.injEq]
  exact ⟨fun same => ⟨same, same ▸ settled⟩, And.left⟩

theorem no_outcome_iff {status outcome : String}
    (unsettled : ¬ (status = "completed" ∨ status = "failed")) :
    none = some outcome ↔ status = outcome ∧ (outcome = "completed" ∨ outcome = "failed") := by
  refine iff_of_false (Option.some_ne_none _).symm fun both => unsettled ?_
  rw [both.1]
  exact both.2

theorem Shows.verdict_iff (agrees : Shows snapshot events) (outcome : String) :
    verdict events = some outcome ↔
      deriveTaskStatus snapshot.subtasks = outcome ∧
        (outcome = "completed" ∨ outcome = "failed") := by
  unfold verdict deriveTaskStatus
  simp only [ne_eq, agrees.eq_nil_iff, agrees.forall_iff, agrees.exists_iff, all_eq_true,
    any_eq_true, decide_eq_true_eq]
  by_cases empty : snapshot.subtasks = []
  · simp only [empty, not_true_eq_false, false_and, if_false, not_mem_nil, exists_false,
      if_true]
    exact no_outcome_iff (by decide)
  · by_cases completed : ∀ subtask ∈ snapshot.subtasks, subtask.status = "completed"
    · rw [if_pos ⟨empty, completed⟩, if_neg empty, if_pos completed]
      exact some_outcome_iff (by decide)
    · rw [if_neg fun both => completed both.2, if_neg empty, if_neg completed]
      split
      · exact some_outcome_iff (by decide)
      · split <;> exact no_outcome_iff (by decide)

theorem modify_findIdx_eq_map {id : String} {subtasks : List SubtaskSnapshot}
    (nodup : (subtasks.map SubtaskSnapshot.subtaskId).Nodup)
    (change : SubtaskSnapshot → SubtaskSnapshot) :
    subtasks.modify (subtasks.findIdx fun subtask => subtask.subtaskId = id) change =
      subtasks.map fun subtask => if subtask.subtaskId = id then change subtask else subtask := by
  induction subtasks with
  | nil => rfl
  | cons first rest ih =>
    obtain ⟨fresh, nodup⟩ := nodup_cons.mp nodup
    by_cases here : first.subtaskId = id
    · have others : rest.map (fun subtask =>
          if subtask.subtaskId = id then change subtask else subtask) = rest := by
        refine (map_congr_left fun subtask member => if_neg fun same => ?_).trans (map_id rest)
        rw [here, ← same] at fresh
        exact fresh (mem_map_of_mem member)
      simp [findIdx_cons, here, others]
    · simp [findIdx_cons, here, ih nodup]

section

variable (agrees : Shows snapshot events)

include agrees

theorem Shows.of_subtasks {other : TaskSnapshot} (same : other.subtasks = snapshot.subtasks) :
    Shows other events where
  nodup := same ▸ agrees.nodup
  ids := same ▸ agrees.ids
  standing := same ▸ agrees.standing

theorem Shows.keep (none : event.assignedId = none)
    (still : ∀ id standing, restand id standing event = standing) :
    Shows snapshot (events ++ [event]) where
  nodup := agrees.nodup
  ids id := by simp [mem_assignedIds_snoc, none, agrees.ids id]
  standing subtask member := by rw [standing_snoc, still, agrees.standing subtask member]

theorem Shows.changeSubtask {id : String} {change : SubtaskSnapshot → SubtaskSnapshot}
    (listed : ∀ other ∈ event.assignedId, other ∈ assignedIds events)
    (sameId : ∀ subtask, (change subtask).subtaskId = subtask.subtaskId)
    (moved : ∀ subtask, restand id (some subtask.status) event = some (change subtask).status)
    (others : ∀ other, other ≠ id → ∀ standing, restand other standing event = standing) :
    Shows (snapshot.changeSubtask id change) (events ++ [event]) := by
  have subtasks := @modify_findIdx_eq_map id _ agrees.nodup change
  have sameIds : (snapshot.changeSubtask id change).subtasks.map SubtaskSnapshot.subtaskId =
      snapshot.subtasks.map SubtaskSnapshot.subtaskId := by
    rw [TaskSnapshot.changeSubtask, subtasks, map_map]
    refine map_congr_left fun subtask _ => ?_
    rw [Function.comp_apply]
    split
    · exact sameId subtask
    · rfl
  refine ⟨sameIds ▸ agrees.nodup, fun other => ?_, fun subtask member => ?_⟩
  · rw [sameIds, agrees.ids, mem_assignedIds_snoc]
    exact ⟨.inl, fun found => found.elim (fun old => old) (listed other)⟩
  · rw [TaskSnapshot.changeSubtask, subtasks] at member
    obtain ⟨old, oldMem, rfl⟩ := mem_map.mp member
    have stood := agrees.standing old oldMem
    rw [standing_snoc]
    split
    · rename_i here
      rw [sameId, here, ← here, stood, here, moved]
    · rename_i apart
      rw [others _ apart, stood]

theorem Shows.assign (taskId subtaskId workerId : String) :
    Shows (snapshot.assign subtaskId workerId)
      (events ++ [.subtaskAssigned taskId subtaskId workerId]) := by
  unfold TaskSnapshot.assign
  split
  · rename_i known
    obtain ⟨subtask, member, same⟩ := any_eq_true.mp known
    have listed : subtaskId ∈ assignedIds events := by
      rw [← agrees.ids, ← of_decide_eq_true same]
      exact mem_map_of_mem member
    refine agrees.changeSubtask (fun other new => ?_) (fun _ => rfl) (fun _ => ?_)
      (fun other apart _ => ?_)
    · rwa [← Option.some.inj new]
    · simp [restand]
    · simp [restand, apart.symm]
  · rename_i unknown
    have fresh : subtaskId ∉ snapshot.subtasks.map SubtaskSnapshot.subtaskId := by
      simpa using unknown
    refine ⟨?_, fun id => ?_, fun subtask member => ?_⟩
    · simpa [nodup_append, agrees.nodup] using fresh
    · simp [mem_assignedIds_snoc, assignedId, ← agrees.ids id, eq_comm]
    · rw [standing_snoc]
      rcases mem_append.mp member with old | new
      · have apart : subtaskId ≠ subtask.subtaskId :=
          fun same => fresh (same ▸ mem_map_of_mem old)
        simp [restand, apart, agrees.standing subtask old]
      · rw [mem_singleton.mp new]
        simp [restand]

end

@[simp]
theorem refreshParentStatus_subtasks (snapshot : TaskSnapshot) :
    (refreshParentStatus snapshot).subtasks = snapshot.subtasks := by
  unfold refreshParentStatus
  split <;> rfl

/-- Every event changes the listed subtasks as it says. -/
theorem Shows.step (agrees : Shows snapshot events) (free : event.isLifecycle = false) :
    Shows (applyEventToSnapshot snapshot event) (events ++ [event]) := by
  cases event with
  | subtaskAssigned taskId subtaskId workerId =>
    exact (agrees.assign taskId subtaskId workerId).of_subtasks (refreshParentStatus_subtasks _)
  | subtaskStarted taskId subtaskId workerId =>
    exact agrees.changeSubtask (by simp [assignedId]) (fun _ => rfl) (fun _ => by simp [restand])
      (fun other apart _ => by simp [restand, apart.symm])
  | subtaskCompleted taskId subtaskId summary success =>
    refine Shows.of_subtasks ?_ (refreshParentStatus_subtasks _)
    exact agrees.changeSubtask (by simp [assignedId]) (fun _ => rfl) (fun _ => by simp [restand])
      (fun other apart _ => by simp [restand, apart.symm])
  | subtaskFailed taskId subtaskId error recoverable =>
    refine Shows.of_subtasks ?_ (refreshParentStatus_subtasks _)
    exact agrees.changeSubtask (by simp [assignedId]) (fun _ => rfl) (fun _ => by simp [restand])
      (fun other apart _ => by simp [restand, apart.symm])
  | taskCreated taskId description =>
    exact (agrees.keep rfl fun _ _ => rfl).of_subtasks rfl
  | toolInvoked | toolResult | fileModified | editIntent | checkpointCreated | subtaskProgress =>
    exact agrees.keep rfl fun _ _ => rfl
  | taskCompleted | taskFailed | taskCancelled | taskPaused | taskResumed | taskUpdated |
    subtaskRetried => cases free

theorem firstVerdict_cases {outcome : String} (reached : firstVerdict events = some outcome) :
    outcome = "completed" ∨ outcome = "failed" := by
  obtain ⟨front, -, found⟩ := exists_of_findSome?_eq_some reached
  exact verdict_cases found

theorem deriveTaskStatus_ne_paused (subtasks : List SubtaskSnapshot) :
    deriveTaskStatus subtasks ≠ "paused" := by
  unfold deriveTaskStatus
  split_ifs <;> decide

theorem apply_report (snapshot : TaskSnapshot) (report : event.isReport = true) :
    ∃ changed : TaskSnapshot, changed.status = snapshot.status ∧
      applyEventToSnapshot snapshot event = refreshParentStatus changed := by
  cases event with
  | subtaskAssigned taskId subtaskId workerId =>
    refine ⟨snapshot.assign subtaskId workerId, ?_, rfl⟩
    unfold TaskSnapshot.assign
    split <;> rfl
  | subtaskCompleted taskId subtaskId summary success =>
    exact ⟨snapshot.changeSubtask subtaskId _, rfl, rfl⟩
  | subtaskFailed taskId subtaskId error recoverable =>
    exact ⟨snapshot.changeSubtask subtaskId _, rfl, rfl⟩
  | _ => cases report

theorem apply_silent (snapshot : TaskSnapshot) (silent : event.isReport = false)
    (existing : event.isCreation = false) (free : event.isLifecycle = false) :
    (applyEventToSnapshot snapshot event).status = snapshot.status := by
  cases event with
  | subtaskStarted | toolInvoked | toolResult | fileModified | editIntent | checkpointCreated |
    subtaskProgress => rfl
  | subtaskAssigned | subtaskCompleted | subtaskFailed => cases silent
  | taskCreated => cases existing
  | _ => cases free

/-- The first outcome stays; without one the status is the derived one after each report. -/
structure Tracks (snapshot : TaskSnapshot) (events : List AgentEventType) : Prop where
  agrees : Shows snapshot events
  latched : ∀ outcome, firstVerdict events = some outcome → snapshot.status = outcome
  unlatched : firstVerdict events = none →
    snapshot.status ≠ "paused" ∧ snapshot.status ≠ "completed" ∧ snapshot.status ≠ "failed"
  derived : EndsInReport events → firstVerdict events = none →
    snapshot.status = deriveTaskStatus snapshot.subtasks

theorem Tracks.report (tracks : Tracks snapshot events) (free : event.isLifecycle = false)
    (report : event.isReport = true) :
    Tracks (applyEventToSnapshot snapshot event) (events ++ [event]) := by
  have existing : event.isCreation = false := by cases event <;> first | rfl | cases report
  have first : firstVerdict (events ++ [event]) =
      (firstVerdict events).or (verdict (events ++ [event])) := by
    simp [firstVerdict_snoc, existing, report]
  have agrees := tracks.agrees.step free
  obtain ⟨changed, sameStatus, applied⟩ := apply_report snapshot report
  rw [applied] at agrees ⊢
  cases before : firstVerdict events with
  | some outcome =>
    have stays : (refreshParentStatus changed).status = outcome := by
      have status := sameStatus.trans (tracks.latched outcome before)
      unfold refreshParentStatus
      rcases firstVerdict_cases before with rfl | rfl <;> simp [status]
    rw [before, Option.some_or] at first
    refine ⟨agrees, fun other reached => ?_, fun none => ?_, fun _ none => ?_⟩
    · rw [stays, ← Option.some.inj (first.symm.trans reached)]
    · cases first.symm.trans none
    · cases first.symm.trans none
  | none =>
    have fresh : (refreshParentStatus changed).status =
        deriveTaskStatus (refreshParentStatus changed).subtasks := by
      rw [refreshParentStatus_subtasks]
      unfold refreshParentStatus
      rw [sameStatus, if_neg (by simpa [and_assoc] using tracks.unlatched before)]
    rw [before, Option.none_or] at first
    refine ⟨agrees, fun other reached => ?_, fun none => ?_, fun _ _ => fresh⟩
    · rw [first, agrees.verdict_iff] at reached
      rw [fresh, reached.1]
    · rw [fresh]
      have unsettled (outcome : String) (settled : outcome = "completed" ∨ outcome = "failed") :
          deriveTaskStatus (refreshParentStatus changed).subtasks ≠ outcome := fun same => by
        rw [first, (agrees.verdict_iff outcome).mpr ⟨same, settled⟩] at none
        cases none
      exact ⟨deriveTaskStatus_ne_paused _, unsettled _ (.inl rfl), unsettled _ (.inr rfl)⟩

theorem Tracks.step (tracks : Tracks snapshot events) (free : event.isLifecycle = false) :
    Tracks (applyEventToSnapshot snapshot event) (events ++ [event]) := by
  have agrees := tracks.agrees.step free
  cases report : event.isReport with
  | true => exact tracks.report free report
  | false =>
    have unreported : ¬ EndsInReport (events ++ [event]) := by simp [endsInReport_snoc, report]
    cases created : event.isCreation with
    | true =>
      have first : firstVerdict (events ++ [event]) = none := by
        simp [firstVerdict_snoc, created, report]
      have status : (applyEventToSnapshot snapshot event).status = "created" := by
        cases event <;> first | rfl | cases created
      refine ⟨agrees, fun outcome reached => ?_, fun _ => ?_, fun ends => absurd ends unreported⟩
      · cases first.symm.trans reached
      · rw [status]
        decide
    | false =>
      have first : firstVerdict (events ++ [event]) = firstVerdict events := by
        simp [firstVerdict_snoc, created, report]
      have status := apply_silent snapshot report created free
      refine ⟨agrees, ?_, ?_, fun ends => absurd ends unreported⟩
      · rw [first, status]
        exact tracks.latched
      · rw [first, status]
        exact tracks.unlatched

theorem tracks_foldl (taskId : String) (free : ∀ event ∈ events, event.isLifecycle = false) :
    Tracks (events.foldl applyEventToSnapshot (.created taskId)) events := by
  induction events using reverseRecOn with
  | nil =>
    refine ⟨agrees_nil taskId, fun _ reached => ?_, fun _ => ?_, fun ends => ?_⟩
    · cases reached
    · simp [TaskSnapshot.created]
    · simp [EndsInReport] at ends
  | append_singleton events event ih =>
    rw [foldl_append, foldl_cons, foldl_nil]
    exact (ih fun other member => free other (mem_append_left _ member)).step (free event (by simp))

/-- The replayed status is the derived one, and an outcome only as the subtasks have it. -/
def StatusDerived (snapshot : TaskSnapshot) : Prop :=
  snapshot.status = deriveTaskStatus snapshot.subtasks ∧
    (snapshot.status = "completed" → ∀ subtask ∈ snapshot.subtasks, subtask.status = "completed")

theorem completed_of_derived {subtasks : List SubtaskSnapshot}
    (derived : deriveTaskStatus subtasks = "completed") :
    ∀ subtask ∈ subtasks, subtask.status = "completed" := by
  unfold deriveTaskStatus at derived
  by_cases empty : subtasks = []
  · simp [empty]
  · by_cases all : subtasks.all fun subtask => subtask.status = "completed"
    · simpa using all
    · rw [if_neg empty, if_neg all] at derived
      split_ifs at derived <;> exact absurd derived (by decide)

/-- After a report the replayed status is the derived one exactly if the first outcome since the
task was created, when there was one, is also the outcome of all the events. -/
theorem statusDerived_iff (taskId : String)
    (free : ∀ event ∈ events, event.isLifecycle = false) (ends : EndsInReport events) :
    StatusDerived (events.foldl applyEventToSnapshot (.created taskId)) ↔
      ∀ outcome ∈ firstVerdict events, verdict events = some outcome := by
  have tracks := tracks_foldl taskId free
  constructor
  · intro derived outcome reached
    rw [tracks.agrees.verdict_iff, ← derived.1]
    exact ⟨tracks.latched outcome reached, firstVerdict_cases reached⟩
  · intro kept
    have status : (events.foldl applyEventToSnapshot (.created taskId)).status =
        deriveTaskStatus (events.foldl applyEventToSnapshot (.created taskId)).subtasks := by
      cases first : firstVerdict events with
      | none => exact tracks.derived ends first
      | some outcome =>
        rw [tracks.latched outcome first]
        exact ((tracks.agrees.verdict_iff outcome).mp (kept outcome first)).1.symm
    exact ⟨status, fun completed => completed_of_derived (status ▸ completed)⟩

theorem statusDerived_iff_sample :
    StatusDerived ([.subtaskAssigned "task-1" "a" "worker-1", .subtaskAssigned "task-1" "b" "worker-2",
      .subtaskCompleted "task-1" "a" "done" true,
      .subtaskCompleted "task-1" "b" "done" true].foldl applyEventToSnapshot (.created "task-1")) :=
  (statusDerived_iff "task-1" (by decide) (by decide)).mpr (by decide +kernel)

/-- A second subtask is assigned after the first one was completed. -/
theorem statusDerived_fails :
    ¬ StatusDerived ([.subtaskAssigned "task-1" "a" "worker-1",
      .subtaskCompleted "task-1" "a" "done" true,
      .subtaskAssigned "task-1" "b" "worker-2"].foldl applyEventToSnapshot (.created "task-1")) :=
  fun derived => absurd derived.1 (by decide +kernel)

end UltimateCoders.Checkpoint
