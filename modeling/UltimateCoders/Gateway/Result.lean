import UltimateCoders.Gateway.Rehydration

/-! # Results of completed subtasks

A result is stored by reports, by projections and when a task is rebuilt. Reports on
known subtasks drop the review that came with a result, and whatever reaches a
completed subtask once more writes over its result.
-/

namespace UltimateCoders.Gateway

open Governance (Instant)
open UltimateCoders.Graph (TaskStatus SubtaskStatus)
open TaskStore
open Transition (Run)
open Projected (upsert)
open List

structure SubtaskResult.Agrees (first second : SubtaskResult) : Prop where
  summary : first.summary = second.summary
  usage : first.usage = second.usage
  review : first.review = second.review

def Subtask.committed (subtask : Subtask) : Option SubtaskResult :=
  if subtask.status = .completed then subtask.result else none

structure NatsSubtaskUpdate.Carries (entry : NatsSubtaskUpdate) (result : SubtaskResult) : Prop where
  summary : entry.result = some result.summary
  usage : entry.usage = result.usage
  review : entry.review = result.review

structure KeepsResult (old new : Subtask) : Prop extends KeepsOutcome old new where
  result : ∀ result, old.committed = some result →
    ∃ kept, new.committed = some kept ∧ kept.Agrees result

def AppliesTo (isPartial : Bool) (node : Subtask) (entry : NatsSubtaskUpdate) : Prop :=
  isPartial = true → fence node entry = .passes

/-- What the entry brings to the subtask is not lost, and loses nothing: it has no review,
and if there is a result already, it is the same one. -/
def NatsSubtaskUpdate.Suits (entry : NatsSubtaskUpdate) (node : Subtask) : Prop :=
  ∀ summary, entry.result = some summary →
    match node.committed with
    | none => entry.review = none
    | some result => result.summary = summary ∧ result.usage = entry.usage ∧ result.review = none

variable {store after middle : TaskStore} {update : NatsTaskUpdate} {taskId id : String}
  {now : Instant} {old new task : Task} {original : List Subtask}

theorem SubtaskResult.Agrees.refl (result : SubtaskResult) : result.Agrees result :=
  ⟨rfl, rfl, rfl⟩

theorem SubtaskResult.Agrees.trans {first second third : SubtaskResult}
    (left : first.Agrees second) (right : second.Agrees third) : first.Agrees third :=
  ⟨left.summary.trans right.summary, left.usage.trans right.usage, left.review.trans right.review⟩

variable {entry : NatsSubtaskUpdate} {result : SubtaskResult}

theorem Subtask.committed_eq_some {subtask : Subtask} : subtask.committed = some result ↔
      subtask.status = .completed ∧ subtask.result = some result := by
  simp [committed]

theorem KeepsResult.refl (subtask : Subtask) : KeepsResult subtask subtask :=
  ⟨.refl subtask, fun result found => ⟨result, found, .refl result⟩⟩

theorem KeepsResult.trans {first second third : Subtask} (left : KeepsResult first second)
    (right : KeepsResult second third) : KeepsResult first third := by
  refine ⟨⟨right.id_eq.trans left.id_eq, right.attempt_eq.trans left.attempt_eq,
    fun outcome => ?_⟩, fun result found => ?_⟩
  · have same := left.status_eq outcome
    rw [right.status_eq (same.symm ▸ outcome), same]
  · obtain ⟨kept, foundKept, agrees⟩ := left.result result found
    obtain ⟨last, foundLast, agreesLast⟩ := right.result kept foundKept
    exact ⟨last, foundLast, agreesLast.trans agrees⟩

theorem reportSubtask_result (isPartial : Bool) (entry : NatsSubtaskUpdate) (now : Instant)
    (subtask : Subtask) : (entry.result = none ∧
      (reportSubtask isPartial entry now subtask).result = subtask.result) ∨
    ∃ summary stored, entry.result = some summary ∧
      (reportSubtask isPartial entry now subtask).result = some stored ∧
      stored.summary = summary ∧ stored.usage = entry.usage ∧ stored.review = none := by
  unfold reportSubtask
  cases entry.result with
  | none => exact .inl ⟨rfl, by cases isPartial <;> rfl⟩
  | some summary => exact .inr ⟨summary, _, rfl, rfl, rfl, rfl, rfl⟩

variable {isPartial : Bool} {entries : List NatsSubtaskUpdate} {metadata projectId : Option String}
  {subtasks : List Subtask} {projected : Projected} {node : Subtask}

theorem keepsResult_reportSubtask
    (outcome : protectedNode node.status = true →
      subtaskStatusFromStr entry.status = some node.status)
    (suits : entry.Suits node) : KeepsResult node (reportSubtask isPartial entry now node) := by
  have same : protectedNode node.status = true →
      (reportSubtask isPartial entry now node).status = node.status := by
    intro ended
    rw [reportSubtask_status, outcome ended, Option.getD_some]
  refine ⟨⟨reportSubtask_id .., reportSubtask_attempt .., same⟩, fun result found => ?_⟩
  have completed := Subtask.committed_eq_some.mp found
  have still : (reportSubtask isPartial entry now node).status = .completed := by
    rw [same (by rw [completed.1]; rfl), completed.1]
  simp only [Subtask.committed_eq_some, still, true_and]
  rcases reportSubtask_result isPartial entry now node with
    ⟨_, kept⟩ | ⟨summary, stored, carried, kept, sameSummary, sameUsage, noReview⟩
  · exact ⟨result, kept.trans completed.2, .refl result⟩
  · have suited := suits summary carried
    rw [found] at suited
    exact ⟨stored, kept, by rw [sameSummary, suited.1], by rw [sameUsage, suited.2.1],
      by rw [noReview, suited.2.2]⟩

theorem protectedNode_of_committed {subtask : Subtask} (found : subtask.committed = some result) :
    protectedNode subtask.status = true := by
  rw [(Subtask.committed_eq_some.mp found).1]
  rfl

theorem KeepsResult.appliesTo {first second : Subtask} (kept : KeepsResult first second)
    (ended : protectedNode first.status = true) (applies : AppliesTo isPartial second entry) :
    AppliesTo isPartial first entry := by
  intro partial_
  have passes := applies partial_
  unfold fence at passes ⊢
  rw [kept.attempt_eq, kept.status_eq ended] at passes
  exact passes

theorem KeepsResult.suits {first second : Subtask} (kept : KeepsResult first second)
    (found : first.committed = some result) (suits : entry.Suits first) : entry.Suits second := by
  intro summary carried
  obtain ⟨last, foundLast, agrees⟩ := kept.result result found
  have suited := suits summary carried
  rw [found] at suited
  rw [foundLast]
  exact ⟨agrees.summary.trans suited.1, agrees.usage.trans suited.2.1,
    agrees.review.trans suited.2.2⟩

theorem keepsResult_upsert {reported : Reported}
    (fresh : isPartial = false → ∀ node, findSubtask original entry.subtaskId = some node →
      protectedNode node.status = true → subtaskStatusFromStr entry.status = some node.status)
    (suits : ∀ node, findSubtask original entry.subtaskId = some node →
      AppliesTo isPartial node entry → entry.Suits node)
    (extended : Extends KeepsResult original reported.subtasks) :
    Extends KeepsResult original (reported.upsert taskId isPartial now entry).subtasks := by
  unfold Reported.upsert
  split
  · rename_i subtask found
    split
    · exact extended
    · exact extended
    · rename_i passes
      apply extended.changeSubtask fun _ _ kept => kept.id_eq
      intro first second foundFirst foundSecond kept
      rw [found, Option.some.injEq] at foundSecond
      subst foundSecond
      have applies : AppliesTo isPartial subtask entry := by
        intro partial_
        rwa [if_pos partial_] at passes
      have outcome : protectedNode first.status = true →
          subtaskStatusFromStr entry.status = some subtask.status := by
        intro ended
        rw [kept.status_eq ended]
        cases isPartial with
        | false => exact fresh rfl first foundFirst ended
        | true =>
          have still := kept.status_eq ended
          rw [← still]
          exact status_of_fence_passes (applies rfl) (still ▸ ended)
      refine ⟨⟨by rw [reportSubtask_id, kept.id_eq], by rw [reportSubtask_attempt, kept.attempt_eq],
        fun ended => ?_⟩, fun result foundResult => ?_⟩
      · rw [reportSubtask_status, outcome ended, Option.getD_some, kept.status_eq ended]
      · have ended := protectedNode_of_committed foundResult
        have suited := suits first foundFirst (kept.appliesTo ended applies)
        exact (kept.trans (keepsResult_reportSubtask (fun _ => outcome ended)
          (kept.suits foundResult suited))).result result foundResult
  · exact extended.append _

theorem keepsResult_foldl {reported : Reported}
    (fresh : isPartial = false → ∀ entry ∈ entries, ∀ node,
      findSubtask original entry.subtaskId = some node → protectedNode node.status = true →
      subtaskStatusFromStr entry.status = some node.status)
    (suits : ∀ entry ∈ entries, ∀ node, findSubtask original entry.subtaskId = some node →
      AppliesTo isPartial node entry → entry.Suits node)
    (extended : Extends KeepsResult original reported.subtasks) :
    Extends KeepsResult original
      (entries.foldl (Reported.upsert taskId isPartial now) reported).subtasks := by
  induction entries generalizing reported with
  | nil => exact extended
  | cons entry rest ih =>
    apply ih
    · exact fun full other later => fresh full other (mem_cons_of_mem _ later)
    · exact fun other later => suits other (mem_cons_of_mem _ later)
    · exact keepsResult_upsert (fun full => fresh full entry mem_cons_self)
        (suits entry mem_cons_self) extended

theorem newSubtask_id (isPartial : Bool) (entry : NatsSubtaskUpdate) :
    (newSubtask taskId isPartial entry now).id = entry.subtaskId := by
  cases isPartial <;> rfl

theorem findSubtask_upsert_ne {reported : Reported} (apart : entry.subtaskId ≠ id) :
    findSubtask (reported.upsert taskId isPartial now entry).subtasks id =
      findSubtask reported.subtasks id := by
  unfold Reported.upsert
  split
  · split
    · rfl
    · rfl
    · exact findSubtask_changeSubtask_ne (fun _ => reportSubtask_id ..) apart _
  · dsimp only
    simp [findSubtask, newSubtask_id, apart]

theorem findSubtask_foldl_ne {reported : Reported}
    (apart : ∀ entry ∈ entries, entry.subtaskId ≠ id) :
    findSubtask (entries.foldl (Reported.upsert taskId isPartial now) reported).subtasks id =
      findSubtask reported.subtasks id := by
  induction entries generalizing reported with
  | nil => rfl
  | cons entry rest ih =>
    rw [foldl_cons, ih fun other later => apart other (mem_cons_of_mem _ later),
      findSubtask_upsert_ne (apart entry mem_cons_self)]

theorem findSubtask_upsert_self {reported : Reported}
    (applies : ∀ node, findSubtask reported.subtasks entry.subtaskId = some node →
      AppliesTo isPartial node entry) :
    findSubtask (reported.upsert taskId isPartial now entry).subtasks entry.subtaskId =
      some (match findSubtask reported.subtasks entry.subtaskId with
        | some node => reportSubtask isPartial entry now node
        | none => newSubtask taskId isPartial entry now) := by
  unfold Reported.upsert
  cases found : findSubtask reported.subtasks entry.subtaskId with
  | some node =>
    have passes : (if isPartial = true then fence node entry else Fence.passes) = .passes := by
      split
      · rename_i partial_
        exact applies node found partial_
      · rfl
    simp only [passes]
    exact findSubtask_changeSubtask (fun _ => reportSubtask_id ..) found
  | none =>
    rw [findSubtask] at found ⊢
    rw [find?_append, found]
    simp [newSubtask_id]

def Single {Entry : Type} (idOf : Entry → String) (entries : List Entry) (entry : Entry) : Prop :=
  ∃ earlier later, entries = earlier ++ entry :: later ∧
    ∀ other ∈ earlier ++ later, idOf other ≠ idOf entry

theorem findSubtask_foldl_single {reported : Reported}
    (single : Single NatsSubtaskUpdate.subtaskId entries entry)
    (applies : ∀ node, findSubtask reported.subtasks entry.subtaskId = some node →
      AppliesTo isPartial node entry) :
    findSubtask (entries.foldl (Reported.upsert taskId isPartial now) reported).subtasks
      entry.subtaskId = some (match findSubtask reported.subtasks entry.subtaskId with
        | some node => reportSubtask isPartial entry now node
        | none => newSubtask taskId isPartial entry now) := by
  obtain ⟨earlier, later, rfl, others⟩ := single
  have before : findSubtask (earlier.foldl (Reported.upsert taskId isPartial now)
      reported).subtasks entry.subtaskId = findSubtask reported.subtasks entry.subtaskId :=
    findSubtask_foldl_ne fun other member => others other (mem_append_left _ member)
  rw [foldl_append, foldl_cons,
    findSubtask_foldl_ne fun other member => others other (mem_append_right _ member),
    findSubtask_upsert_self, before]
  rw [before]
  exact applies

theorem subtasks_of_applyUpdate (fresh : store.fullSnapshotIsStale update = false)
    (held : (store.applyUpdateWithMetadata update metadata projectId now).tasks.lookup
      update.taskId = some new) :
    (∃ reported : Reported, new.subtasks =
        (update.subtasks.foldl (Reported.upsert new.id update.isPartial now) reported).subtasks ∧
      ((∃ task, store.tasks.lookup update.taskId = some task ∧ reported.subtasks = task.subtasks) ∨
        store.tasks.lookup update.taskId = none ∧ update.isPartial = false ∧
        (∃ text, metadata = some text ∧ text ≠ "") ∧ (∃ project, projectId = some project) ∧
        reported.subtasks = update.subtasks.map fun entry =>
          natsSubtaskToDomain update.taskId entry now)) := by
  cases known : store.tasks.lookup update.taskId with
  | some task =>
    obtain ⟨reported, same, rfl⟩ := task_of_applyUpdate known fresh held
    exact ⟨reported, rfl, .inl ⟨task, rfl, same⟩⟩
  | none =>
    obtain ⟨complete, text, project, metadataEq, described, projectEq, rfl⟩ :=
      rebuilt_of_unknown known held
    refine ⟨⟨update.subtasks.map fun entry => natsSubtaskToDomain _ entry now, ∅, []⟩, ?_,
      .inr ⟨rfl, complete, ⟨text, metadataEq, described⟩, ⟨project, projectEq⟩, rfl⟩⟩
    rw [complete]
    rfl

/-- Every entry of a report that is applied to known subtasks suits them, and those that
rebuild a task carry no review. -/
def UpdateSuits (store : TaskStore) (update : NatsTaskUpdate) (metadata projectId : Option String) :
    Prop :=
  store.fullSnapshotIsStale update = false →
    (∀ task, store.tasks.lookup update.taskId = some task → ∀ entry ∈ update.subtasks, ∀ node,
      findSubtask task.subtasks entry.subtaskId = some node →
      AppliesTo update.isPartial node entry → entry.Suits node) ∧
    (store.tasks.lookup update.taskId = none → update.isPartial = false →
      (∃ text, metadata = some text ∧ text ≠ "") → (∃ project, projectId = some project) →
      ∀ entry ∈ update.subtasks, entry.result.isSome = true → entry.review = none)

/-- An entry under an id of its own whose result reaches a subtask that had none committed is
stored as it is. -/
def UpdateStores (store : TaskStore) (update : NatsTaskUpdate) (after : TaskStore) : Prop :=
  store.fullSnapshotIsStale update = false →
    ∀ entry, Single NatsSubtaskUpdate.subtaskId update.subtasks entry →
    entry.result.isSome = true →
    (∀ task node, store.tasks.lookup update.taskId = some task →
      findSubtask task.subtasks entry.subtaskId = some node →
      node.committed = none ∧ AppliesTo update.isPartial node entry) →
    ∀ new, after.tasks.lookup update.taskId = some new →
      ∃ node result, findSubtask new.subtasks entry.subtaskId = some node ∧
        node.result = some result ∧ entry.Carries result

theorem carries_reportSubtask (brings : entry.result.isSome = true)
    (noReview : entry.review = none) :
    ∃ result, (reportSubtask isPartial entry now node).result = some result ∧
      entry.Carries result := by
  rcases reportSubtask_result isPartial entry now node with
    ⟨nothing, _⟩ | ⟨summary, stored, carried, kept, sameSummary, sameUsage, dropped⟩
  · rw [nothing] at brings
    cases brings
  · exact ⟨stored, kept, by rw [carried, sameSummary], sameUsage.symm, noReview.trans dropped.symm⟩

theorem carries_newSubtask (brings : entry.result.isSome = true) :
    ∃ result, (newSubtask taskId isPartial entry now).result = some result ∧
      entry.Carries result := by
  obtain ⟨summary, carried⟩ := Option.isSome_iff_exists.mp brings
  have same : (newSubtask taskId isPartial entry now).result =
      (natsSubtaskToDomain taskId entry now).result := by
    cases isPartial <;> rfl
  have stored : (natsSubtaskToDomain taskId entry now).result = entry.result.map _ := rfl
  rw [same, stored, carried, Option.map_some]
  exact ⟨_, rfl, carried, rfl, rfl⟩

theorem carries_foldl_single {reported : Reported} (brings : entry.result.isSome = true)
    (single : Single NatsSubtaskUpdate.subtaskId entries entry)
    (known : ∀ node, findSubtask reported.subtasks entry.subtaskId = some node →
      AppliesTo isPartial node entry ∧ entry.review = none) :
    ∃ node result, findSubtask (entries.foldl (Reported.upsert taskId isPartial now)
        reported).subtasks entry.subtaskId = some node ∧
      node.result = some result ∧ entry.Carries result := by
  rw [findSubtask_foldl_single single fun node found => (known node found).1]
  cases before : findSubtask reported.subtasks entry.subtaskId with
  | some node =>
    obtain ⟨result, stored, carries⟩ := carries_reportSubtask brings (known node before).2
    exact ⟨_, result, rfl, stored, carries⟩
  | none =>
    obtain ⟨result, stored, carries⟩ := carries_newSubtask brings
    exact ⟨_, result, rfl, stored, carries⟩

theorem updateStores_of_suits (suits : UpdateSuits store update metadata projectId) :
    UpdateStores store update
      (store.applyUpdateWithMetadata update metadata projectId now) := by
  intro fresh entry single brings applies new held
  obtain ⟨reported, subtasks, known⟩ := subtasks_of_applyUpdate fresh held
  have member : entry ∈ update.subtasks := by
    obtain ⟨earlier, later, same, _⟩ := single
    simp [same]
  rw [subtasks]
  apply carries_foldl_single brings single
  intro node found
  rcases known with ⟨task, known, same⟩ | ⟨unknown, complete, described, project, same⟩
  · rw [same] at found
    obtain ⟨uncommitted, applied⟩ := applies task node known found
    obtain ⟨summary, carried⟩ := Option.isSome_iff_exists.mp brings
    have suited := (suits fresh).1 task known entry member node found applied summary carried
    rw [uncommitted] at suited
    exact ⟨applied, suited⟩
  · refine ⟨fun partial_ => ?_, (suits fresh).2 unknown complete described project entry member brings⟩
    rw [complete] at partial_
    cases partial_

theorem keepsResults_applyUpdate (suits : UpdateSuits store update metadata projectId)
    (before : store.tasks.lookup id = some old)
    (after : (store.applyUpdateWithMetadata update metadata projectId now).tasks.lookup id =
      some new) : Extends KeepsResult old.subtasks new.subtasks := by
  by_cases here : id = update.taskId
  · subst here
    cases fresh : store.fullSnapshotIsStale update with
    | true =>
      rw [applyUpdateWithMetadata, if_pos fresh, before, Option.some.injEq] at after
      rw [after]
      exact .refl .refl _
    | false =>
      obtain ⟨reported, same, rfl⟩ := task_of_applyUpdate before fresh after
      apply keepsResult_foldl
      · exact fun full => (fresh_of_not_stale before fresh full).2
      · exact (suits fresh).1 old before
      · rw [same]
        exact .refl .refl _
  · have same := lookup_of_applyUpdate_ne here after
    rw [before, Option.some.injEq] at same
    rw [same]
    exact .refl .refl _

/-- A projection that is valid names the result of every subtask that has one committed. -/
def ProjectionSuits (store : TaskStore) (taskId status : String) (subtasks : List Subtask) : Prop :=
  ∀ task parsed, store.tasks.lookup taskId = some task →
    protoStatusToTaskStatus status = .ok parsed → validateProjection task parsed subtasks = .ok () →
    ∀ incoming ∈ subtasks, ∀ node, findSubtask task.subtasks incoming.id = some node →
    ∀ result, node.committed = some result →
    ∃ same, incoming.result = some same ∧ same.Agrees result

/-- A projection stores the result it brings under an id of its own. -/
def ProjectionStores (store : TaskStore) (taskId status : String) (subtasks : List Subtask)
    (description projectId : String) (now : Instant) : Prop :=
  ∀ updated events, (store.updateTask taskId status subtasks description projectId now).1 =
      .ok (updated, events) →
    ∀ incoming result, Single Subtask.id subtasks incoming → incoming.result = some result →
    ∃ node, findSubtask updated.subtasks incoming.id = some node ∧ node.result = some result

theorem projectSubtask_id (incoming existing : Subtask) :
    (projectSubtask incoming existing).id = existing.id := rfl

theorem Projected.findSubtask_upsert_ne {incoming : Subtask} (apart : incoming.id ≠ id) :
    findSubtask (projected.upsert incoming).subtasks id = findSubtask projected.subtasks id := by
  unfold upsert
  split
  · exact findSubtask_changeSubtask_ne (projectSubtask_id incoming) apart _
  · dsimp only
    simp [findSubtask, apart]

theorem Projected.findSubtask_foldl_ne (apart : ∀ incoming ∈ subtasks, incoming.id ≠ id) :
    findSubtask (subtasks.foldl upsert projected).subtasks id =
      findSubtask projected.subtasks id := by
  induction subtasks generalizing projected with
  | nil => rfl
  | cons incoming rest ih =>
    rw [foldl_cons, ih fun other later => apart other (mem_cons_of_mem _ later),
      Projected.findSubtask_upsert_ne (apart incoming mem_cons_self)]

theorem Projected.result_upsert (projected : Projected) (incoming : Subtask) :
    ∃ node, findSubtask (projected.upsert incoming).subtasks incoming.id = some node ∧
      node.result = incoming.result := by
  unfold upsert
  split
  · rename_i existing found
    exact ⟨_, findSubtask_changeSubtask (projectSubtask_id incoming) found, rfl⟩
  · rename_i unknown
    refine ⟨incoming, ?_, rfl⟩
    rw [findSubtask] at unknown ⊢
    rw [find?_append, unknown]
    simp

theorem projectionStores (store : TaskStore) (taskId status : String) (subtasks : List Subtask)
    (description projectId : String) (now : Instant) :
    ProjectionStores store taskId status subtasks description projectId now := by
  intro updated events ok incoming result single brings
  unfold updateTask at ok
  split at ok
  · cases ok
  · dsimp only at ok
    split at ok
    · cases ok
    · split at ok
      · cases ok
      · rename_i task _
        simp only [Except.ok.injEq, Prod.mk.injEq] at ok
        rw [← ok.1]
        obtain ⟨earlier, later, rfl, others⟩ := single
        rw [foldl_append, foldl_cons, Projected.findSubtask_foldl_ne
          fun other member => others other (mem_append_right _ member)]
        obtain ⟨node, found, same⟩ := Projected.result_upsert
          (earlier.foldl upsert { subtasks := task.subtasks }) incoming
        exact ⟨node, found, same.trans brings⟩

theorem Projected.keepsResult_foldl
    (valid : ∀ incoming ∈ subtasks, ∀ node, findSubtask original incoming.id = some node →
      protectedNode node.status = true → incoming.status = node.status)
    (suits : ∀ incoming ∈ subtasks, ∀ node, findSubtask original incoming.id = some node →
      ∀ result, node.committed = some result →
      ∃ same, incoming.result = some same ∧ same.Agrees result)
    (extended : Extends KeepsResult original projected.subtasks) :
    Extends KeepsResult original (subtasks.foldl upsert projected).subtasks := by
  induction subtasks generalizing projected with
  | nil => exact extended
  | cons incoming rest ih =>
    apply ih
    · exact fun other later => valid other (mem_cons_of_mem _ later)
    · exact fun other later => suits other (mem_cons_of_mem _ later)
    · unfold upsert
      split
      · apply extended.changeSubtask fun _ _ kept => kept.id_eq
        intro first second foundFirst _ kept
        have status := valid incoming mem_cons_self first foundFirst
        refine ⟨⟨kept.id_eq, kept.attempt_eq, status⟩, fun result found => ?_⟩
        obtain ⟨same, brings, agrees⟩ :=
          suits incoming mem_cons_self first foundFirst result found
        have completed := (Subtask.committed_eq_some.mp found).1
        refine ⟨same, Subtask.committed_eq_some.mpr ⟨?_, brings⟩, agrees⟩
        exact (status (protectedNode_of_committed found)).trans completed
      · exact extended.append _

theorem keepsResults_updateTask {status description projectId : String}
    (suits : ProjectionSuits store taskId status subtasks)
    (before : store.tasks.lookup id = some old)
    (after : (store.updateTask taskId status subtasks description projectId now).2.tasks.lookup id =
      some new) : Extends KeepsResult old.subtasks new.subtasks := by
  rcases updateTask_cases before after with rfl | ⟨parsed, rfl, ok, valid, rfl⟩
  · exact .refl .refl _
  · have nodes : validateNodes old subtasks = .ok () := by
      unfold validateProjection at valid
      split_ifs at valid
      exact valid
    apply Projected.keepsResult_foldl
    · exact fun incoming member node found ended => validateNodes_ok nodes member found ended
    · exact suits old parsed before ok valid
    · exact .refl .refl _

/-- The projection or report loses no result. -/
def TaskOperation.Suits (store : TaskStore) : TaskOperation → Prop
  | applyUpdate update description projectId => UpdateSuits store update description projectId
  | updateTask taskId status subtasks _ _ => ProjectionSuits store taskId status subtasks
  | _ => False

/-- The results that a projection or report brings are stored as they are. -/
def TaskOperation.Stores (store : TaskStore) (now : Instant) : TaskOperation → Prop
  | applyUpdate update description projectId => UpdateStores store update
      (store.applyUpdateWithMetadata update description projectId now)
  | updateTask taskId status subtasks description projectId =>
    ProjectionStores store taskId status subtasks description projectId now
  | _ => False

/-- A projection or report that loses no result. -/
def StepsSuited (before : TaskStore) (call : TaskOperation × Instant) (after : TaskStore) : Prop :=
  call.1.Suits before ∧ call.1.apply before call.2 = after

/-- The same, and the task is held afterwards. -/
def StepsSuitedHolding (taskId : String) (before : TaskStore) (call : TaskOperation × Instant)
    (after : TaskStore) : Prop :=
  StepsSuited before call after ∧ (after.tasks.lookup taskId).isSome = true

theorem keepsResults_of_step {call : TaskOperation × Instant} (step : StepsSuited store call after)
    (before : store.tasks.lookup id = some old) (held : after.tasks.lookup id = some new) :
    Extends KeepsResult old.subtasks new.subtasks := by
  obtain ⟨operation, now⟩ := call
  obtain ⟨suits, rfl⟩ := step
  cases operation with
  | applyUpdate update description projectId => exact keepsResults_applyUpdate suits before held
  | updateTask taskId status subtasks description projectId =>
    exact keepsResults_updateTask suits before held
  | _ => cases suits

theorem Extends.trans {first second third : List Subtask} (left : Extends KeepsResult first second)
    (right : Extends KeepsResult second third) : Extends KeepsResult first third := by
  intro position old found
  obtain ⟨middle, foundMiddle, kept⟩ := left position old found
  obtain ⟨last, foundLast, keptLast⟩ := right position middle foundMiddle
  exact ⟨last, foundLast, kept.trans keptLast⟩

theorem keepsResults_of_run {calls : List (TaskOperation × Instant)}
    (run : Run (StepsSuitedHolding id) store calls after) (before : store.tasks.lookup id = some old) :
    ∃ new, after.tasks.lookup id = some new ∧ Extends KeepsResult old.subtasks new.subtasks := by
  induction run generalizing old with
  | nil state => exact ⟨old, before, .refl .refl _⟩
  | cons first _ ih =>
    obtain ⟨middle, found⟩ := Option.isSome_iff_exists.mp first.2
    obtain ⟨new, held, kept⟩ := ih found
    exact ⟨new, held, (keepsResults_of_step first.1 before found).trans kept⟩

/-- If no call loses a result, then along every run that keeps a task in the store the results
of its completed subtasks are kept, and each call stores the results that it brings. -/
theorem results_of_run {calls : List (TaskOperation × Instant)} {call : TaskOperation × Instant}
    (run : Run (StepsSuitedHolding id) store calls middle) (step : StepsSuited middle call after) :
    (∀ old new, store.tasks.lookup id = some old → after.tasks.lookup id = some new →
      Extends KeepsResult old.subtasks new.subtasks) ∧ call.1.Stores middle call.2 := by
  constructor
  · intro old new before held
    obtain ⟨current, found, kept⟩ := keepsResults_of_run run before
    exact kept.trans (keepsResults_of_step step found held)
  · obtain ⟨operation, now⟩ := call
    obtain ⟨suits, rfl⟩ := step
    cases operation with
    | applyUpdate update description projectId => exact updateStores_of_suits suits
    | updateTask taskId status subtasks description projectId =>
      exact projectionStores middle taskId status subtasks description projectId now
    | _ => cases suits

def sampleResult (review : Option SubtaskReview) : NatsTaskUpdate where
  taskId := "task-1"
  status := "in_progress"
  isPartial := true
  subtasks := [{
    execution := ⟨none, none, none, none, none⟩
    subtaskId := "node-1"
    status := "completed"
    assignedWorker := none
    description := none
    dependsOn := none
    result := some "done"
    usage := none
    review := review
    attemptId := some 0 }]
  result := none
  messageId := none

theorem updateSuits_sampleResult (known : store.tasks.lookup "task-1" = some task)
    (found : findSubtask task.subtasks "node-1" = some node)
    (same : ∀ result, node.committed = some result →
      result.summary = "done" ∧ result.usage = none ∧ result.review = none) :
    UpdateSuits store (sampleResult none) none none := by
  refine fun _ => ⟨fun other otherKnown entry member otherNode otherFound _ summary carried => ?_,
    fun unknown => ?_⟩
  · rw [show (sampleResult none).taskId = "task-1" from rfl, known, Option.some.injEq] at otherKnown
    rw [mem_singleton.mp member] at otherFound carried ⊢
    rw [← otherKnown, found, Option.some.injEq] at otherFound
    rw [← otherFound]
    cases committed : node.committed with
    | none => rfl
    | some result =>
      cases carried
      exact same result committed
  · rw [show (sampleResult none).taskId = "task-1" from rfl, known] at unknown
    cases unknown

/-- A result without review is reported twice. -/
theorem results_of_run_redelivered :
    ∃ middle after : TaskStore,
      Run (StepsSuitedHolding "task-1") (sampleStore [sampleSubtask "node-1" .assigned .preferRemote])
        [(.applyUpdate (sampleResult none) none none, 1)] middle ∧
      StepsSuited middle (.applyUpdate (sampleResult none) none none, 2) after ∧
      (∀ old new, (sampleStore [sampleSubtask "node-1" .assigned .preferRemote]).tasks.lookup
          "task-1" = some old → after.tasks.lookup "task-1" = some new →
        Extends KeepsResult old.subtasks new.subtasks) ∧
      (TaskOperation.applyUpdate (sampleResult none) none none).Stores middle 2 := by
  have first : UpdateSuits (sampleStore [sampleSubtask "node-1" .assigned .preferRemote])
      (sampleResult none) none none :=
    updateSuits_sampleResult rfl rfl fun _ committed => by cases committed
  have stored : (((sampleStore [sampleSubtask "node-1" .assigned .preferRemote]
      ).applyUpdateWithMetadata (sampleResult none) none none 1).tasks.lookup "task-1").bind
        (fun task => (findSubtask task.subtasks "node-1").bind fun node => node.committed.map
          fun result => (result.summary, result.usage, result.review)) =
      some ("done", none, none) := by
    decide +kernel
  simp only [Option.bind_eq_some_iff, Option.map_eq_some_iff, Prod.mk.injEq] at stored
  obtain ⟨task, held, node, found, result, committed, triple⟩ := stored
  have second := updateSuits_sampleResult held found fun other otherCommitted => by
    rw [committed, Option.some.injEq] at otherCommitted
    exact otherCommitted ▸ triple
  have run : Run (StepsSuitedHolding "task-1")
      (sampleStore [sampleSubtask "node-1" .assigned .preferRemote])
      [(.applyUpdate (sampleResult none) none none, 1)] _ :=
    .cons ⟨⟨first, rfl⟩, Option.isSome_iff_exists.mpr ⟨task, held⟩⟩ (.nil _)
  have step : StepsSuited _ (.applyUpdate (sampleResult none) none none, 2) _ := ⟨second, rfl⟩
  exact ⟨_, _, run, step, results_of_run run step⟩

/-- A subtask whose result was reported, and the projection of a coordinator that does not
know it. -/
def sampleCommitted (result : Option SubtaskResult) : Subtask :=
  { sampleSubtask "node-1" .completed .preferRemote with result := result }

/-- The review of a result is dropped if the subtask is known, and a projection that carries no
result erases the one there is. -/
theorem results_fail_known :
    ¬ (TaskOperation.applyUpdate (sampleResult (some ⟨true, [], []⟩)) none none).Stores
      (sampleStore [sampleSubtask "node-1" .assigned .preferRemote]) 1 ∧
    ∃ old new,
      (sampleStore [sampleCommitted (some ⟨"node-1", none, "done", true, 0, some "done", none,
        none⟩)]).tasks.lookup "task-1" = some old ∧
      ((TaskOperation.updateTask "task-1" "InProgress" [sampleCommitted none] "" "").apply
        (sampleStore [sampleCommitted (some ⟨"node-1", none, "done", true, 0, some "done", none,
          none⟩)]) 1).tasks.lookup "task-1" = some new ∧
      ¬ Extends KeepsResult old.subtasks new.subtasks := by
  constructor
  · intro stores
    have dropped : (((sampleStore [sampleSubtask "node-1" .assigned .preferRemote]
        ).applyUpdateWithMetadata (sampleResult (some ⟨true, [], []⟩)) none none 1).tasks.lookup
          "task-1").bind (fun task => (findSubtask task.subtasks "node-1").bind fun node =>
            node.result.map SubtaskResult.review) = some none := by
      decide +kernel
    simp only [Option.bind_eq_some_iff, Option.map_eq_some_iff] at dropped
    obtain ⟨task, held, node, found, result, stored, noReview⟩ := dropped
    obtain ⟨other, otherResult, otherFound, otherStored, carries⟩ := stores rfl _
      ⟨[], [], rfl, fun _ => nofun⟩ rfl
      (fun other otherNode known otherFound => by
        cases known
        cases otherFound
        exact ⟨rfl, fun _ => by decide +kernel⟩) task held
    have sameNode : some node = some other := found.symm.trans otherFound
    rw [Option.some.injEq] at sameNode
    rw [← sameNode, stored, Option.some.injEq] at otherStored
    have review := carries.review
    rw [← otherStored, noReview] at review
    cases review
  · refine ⟨_, _, rfl, rfl, fun kept => ?_⟩
    obtain ⟨new, found, keeps⟩ := kept 0 _ rfl
    cases found
    obtain ⟨result, committed, -⟩ := keeps.result _ rfl
    cases committed

end UltimateCoders.Gateway
