import UltimateCoders.Replay.Overtaken
import UltimateCoders.Scheduler.Calls
import UltimateCoders.Transition.Protocol

/-! # Updates of the record of a job

Three functions change the record of a job: one accounts for an attempt, one re-arms the job,
and one pauses or resumes it. Each changes the registry first and writes what it has left there
to the store later, so a record may reach the store after a newer one; and a job is paused or
resumed by putting back a copy that was read earlier.
-/

namespace UltimateCoders.Scheduler

open Function
open Governance (Instant)
open Transition Replay
open SchedulerService (changeJob_of_changed new possible_execute register)

universe u

variable {Index : Type u}

inductive RecordUpdate where
  | markExecutionStarted (startedAt : Instant) (outcome : DispatchOutcome)
  | rearmOneShotAt (when_ : Instant)
  | setJobEnabled (enabled : Bool)

def RecordUpdate.program (calendar : Calendar) (id : Uuid) : RecordUpdate → Scheduling Unit
  | markExecutionStarted startedAt outcome => do
      let _ ← Scheduler.markExecutionStarted id startedAt outcome
      return ()
  | rearmOneShotAt when_ => Scheduler.rearmOneShotAt id when_
  | setJobEnabled enabled => do
      let _ ← Scheduler.setJobEnabled calendar id enabled
      return ()

abbrev SchedulerEvent (Index : Type u) := Occurrence Index SchedulerOperation SchedulerOperation.Answer

abbrev SchedulerSession (Index : Type u) :=
  Session Index SchedulerService SchedulerOperation SchedulerOperation.Answer Unit

def updating (calendar : Calendar) (id : Uuid) (updates : Index → RecordUpdate)
    (start : SchedulerService) : SchedulerSession Index :=
  ⟨start, fun index => (updates index).program calendar id, []⟩

/-! ## Where an update is -/

inductive UpdatePhase where
  | fresh (update : RecordUpdate)
  | toggling (current : ScheduledTask)
  | pending (record : ScheduledTask)
  | settled

/-- The operation touches neither the registry nor the store. -/
def SchedulerOperation.LeavesRecords : SchedulerOperation → Prop
  | clock => True
  | registerRuntimeJob _ => True
  | insertJobId _ _ => True
  | readRuntimeJobId _ => True
  | removeRuntimeJob _ => True
  | forgetJobId _ => True
  | spawnRegistration _ => True
  | _ => False

open SchedulerOperation

/-- A record with another state, which differs in nothing that an attempt has left. -/
structure ScheduledTask.Toggles (current candidate : ScheduledTask) : Prop where
  id : candidate.id = current.id
  createdAt : candidate.createdAt = current.createdAt
  lastExecution : candidate.lastExecution = current.lastExecution
  dispatchAttempts : candidate.dispatchAttempts = current.dispatchAttempts

namespace UpdatePhase

def permits (id : Uuid) : UpdatePhase → SchedulerOperation → Prop
  | fresh (.markExecutionStarted startedAt outcome), operation =>
    operation = .startExecution id startedAt outcome
  | fresh (.rearmOneShotAt when_), operation => operation = .rearmJob id when_
  | fresh (.setJobEnabled _), operation => operation = .readJob id
  | toggling current, .commitJob candidate => current.Toggles candidate
  | toggling _, operation => operation.LeavesRecords
  | pending record, operation => operation = .store (.updateTask record)
  | settled, operation => operation.LeavesRecords

/-- The record that was left in the registry is to be written. -/
def ofRecord : Option ScheduledTask → UpdatePhase
  | some record => pending record
  | none => settled

def next : UpdatePhase → (operation : SchedulerOperation) → operation.Answer → UpdatePhase
  | fresh (.setJobEnabled enabled), .readJob _, some current =>
    if current.enabled = enabled then settled else toggling current
  | fresh _, .readJob _, none => settled
  | fresh _, .startExecution _ _ _, answer => ofRecord answer
  | fresh _, .rearmJob _ _, answer => ofRecord answer
  | toggling _, .commitJob candidate, _ => pending candidate
  | toggling _, .registerRuntimeJob _, some (.error _) => settled
  | pending _, .store _, _ => settled
  | phase, _, _ => phase

end UpdatePhase

def recording (id : Uuid) : Protocol SchedulerOperation Answer UpdatePhase where
  permits := UpdatePhase.permits id
  next := UpdatePhase.next

variable {operation : SchedulerOperation} {current record : ScheduledTask}

section Follows

variable {id : Uuid} {calendar : Calendar}

/-- The program follows the protocol until its update is settled. -/
abbrev Settles {Result : Type} (id : Uuid) (program : Scheduling Result) (phase : UpdatePhase) :
    Prop :=
  program.Follows (recording id) possible (fun _ phase => phase = .settled) phase

theorem settles_updateTask (record : ScheduledTask) :
    Settles id (updateTask record) (.pending record) :=
  ⟨rfl, fun _ _ => rfl⟩

theorem settles_commitCandidate {candidate : ScheduledTask} (toggles : current.Toggles candidate) :
    Settles id (commitCandidate candidate) (.toggling current) := by
  refine ⟨toggles, fun _ _ => ?_⟩
  exact (settles_updateTask candidate).seq fun _ _ settled => settled

theorem settles_markExecutionStarted (startedAt : Instant) (outcome : DispatchOutcome) :
    Settles id (markExecutionStarted id startedAt outcome)
      (.fresh (.markExecutionStarted startedAt outcome)) := by
  refine ⟨rfl, fun answer _ => ?_⟩
  cases answer with
  | none => exact rfl
  | some updated => exact (settles_updateTask updated).seq fun _ _ settled => settled

theorem settles_rearmOneShotAt (when_ : Instant) :
    Settles id (rearmOneShotAt id when_) (.fresh (.rearmOneShotAt when_)) := by
  refine ⟨rfl, fun answer _ => ?_⟩
  cases answer with
  | none => exact rfl
  | some rearmed =>
    refine (settles_updateTask rearmed).seq fun _ phase settled => ?_
    rw [settled]
    exact ⟨trivial, fun _ _ => rfl⟩

theorem follows_unregisterRuntimeJob (current : ScheduledTask) :
    (unregisterRuntimeJob id).Follows (recording id) possible
      (fun _ phase => phase = .toggling current) (.toggling current) := by
  refine ⟨trivial, fun answer _ => ?_⟩
  cases answer with
  | none => exact ⟨trivial, fun _ _ => rfl⟩
  | some uuid => exact ⟨trivial, fun _ _ => ⟨trivial, fun _ _ => rfl⟩⟩

theorem follows_resumeRuntimeJob (current candidate : ScheduledTask) :
    (resumeRuntimeJob candidate).Follows (recording id) possible
      (fun result phase => phase = match result with
        | .ok () => .toggling current
        | .error _ => .settled) (.toggling current) := by
  refine ⟨trivial, fun answer _ => ?_⟩
  rcases answer with _ | (error | _ | uuid)
  · exact rfl
  · exact rfl
  · exact rfl
  · exact ⟨trivial, fun _ _ => rfl⟩

theorem settles_setJobEnabled (enabled : Bool) :
    Settles id (setJobEnabled calendar id enabled) (.fresh (.setJobEnabled enabled)) := by
  refine ⟨rfl, fun answer can => ?_⟩
  cases answer with
  | none => exact rfl
  | some current =>
    change Settles id (if current.enabled = enabled then _ else _)
      (if current.enabled = enabled then _ else _)
    split
    · exact rfl
    · split
      · refine ⟨trivial, fun now _ => ⟨trivial, fun updatedAt _ => ?_⟩⟩
        refine (follows_resumeRuntimeJob current _).seq fun result phase led => ?_
        rcases result with error | done
        · exact led
        · rw [led]
          exact settles_commitCandidate ⟨rfl, rfl, rfl, rfl⟩
      · refine ⟨trivial, fun updatedAt _ => ?_⟩
        refine (follows_unregisterRuntimeJob current).seq fun _ phase led => ?_
        rw [led]
        exact settles_commitCandidate ⟨rfl, rfl, rfl, rfl⟩

theorem settles_program (update : RecordUpdate) :
    Settles id (update.program calendar id) (.fresh update) := by
  cases update with
  | markExecutionStarted startedAt outcome =>
    exact (settles_markExecutionStarted startedAt outcome).seq fun _ _ settled => settled
  | rearmOneShotAt when_ => exact settles_rearmOneShotAt when_
  | setJobEnabled enabled => exact (settles_setJobEnabled enabled).seq fun _ _ settled => settled

end Follows

/-! ## What is to be kept -/

structure Attempt where
  startedAt : Instant
  outcome : DispatchOutcome
  deriving DecidableEq

open Attempt

/-- The number of failures since the last success, after one more attempt. -/
def Attempt.count (failures : Nat) (attempt : Attempt) : Nat :=
  match attempt.outcome with
  | .succeeded => 0
  | .failedRetryable => min (failures + 1) maxAttempts
  | .failedObserved => failures

def attemptOf (event : SchedulerEvent Index) : Option Attempt :=
  match event with
  | ⟨_, .startExecution _ startedAt outcome, some _⟩ => some ⟨startedAt, outcome⟩
  | _ => none

/-- The attempts, in the order in which they were accounted for. -/
def attempts (log : List (SchedulerEvent Index)) : List Attempt := log.filterMap attemptOf

theorem attempts_snoc (log : List (SchedulerEvent Index)) (event : SchedulerEvent Index) :
    attempts (log ++ [event]) = attempts log ++ (attemptOf event).toList := by
  rw [attempts, attempts, List.filterMap_append]
  cases found : attemptOf event <;> simp [found]

theorem attempts_snoc_of_none {log : List (SchedulerEvent Index)} {event : SchedulerEvent Index}
    (noAttempt : attemptOf event = none) : attempts (log ++ [event]) = attempts log := by
  rw [attempts_snoc, noAttempt]
  exact List.append_nil _

/-- An attempt that is overtaken makes no difference to the number of failures. -/
def OvertakenHarmless (first : ScheduledTask) (made : List Attempt) : Prop :=
  ∀ arrived attempt, arrived ++ [attempt] <+: made →
    ¬ IsCurrent startedAt first.lastExecution arrived attempt →
      Superseded startedAt count arrived attempt

/-- The record shows the latest attempt and counts the failures since the last success. -/
structure Accounts (first : ScheduledTask) (made : List Attempt) (task : ScheduledTask) : Prop where
  lastExecution : task.lastExecution = latest startedAt first.lastExecution made
  dispatchAttempts : task.dispatchAttempts =
    (notOvertaken startedAt first.lastExecution made).foldl count first.dispatchAttempts

/-- No update is lost: the record accounts for the attempts, in the order in which they were
started, and the store has it as the registry does. -/
def UpdatesKept (database : Database) (id : Uuid) (first : ScheduledTask)
    (session : SchedulerSession Index) : Prop :=
  ∃ task, session.store.jobMetadata id = some task ∧
    Accounts first (attempts session.log) task ∧
    (OvertakenHarmless first (attempts session.log) →
      task.dispatchAttempts = (inOrder startedAt (attempts session.log)).foldl count
        first.dispatchAttempts) ∧
    session.store.store.load id = some (session.store.store.row database task)

/-- A copy that is put back is the record that the registry has, and what is written to the store
is that record, unless that record is still to be written; and the store carries it out. -/
def UpToDate (id : Uuid) (session : SchedulerSession Index) (move : Index × Surroundings) : Prop :=
  (∀ candidate current, session.Asks move.1 (.commitJob candidate) →
    ⟨move.1, .readJob id, some current⟩ ∈ session.log →
      session.store.jobMetadata id = some current) ∧
  ∀ record, session.Asks move.1 (.store (.updateTask record)) →
    session.store.store.CarriesOut move.2.statement ∧
      ∀ task, session.store.jobMetadata id = some task →
        task = record ∨ ∃ other, session.Asks other (.store (.updateTask task))

namespace Accounts

variable {first task : ScheduledTask} {made : List Attempt}

theorem refl (first : ScheduledTask) : Accounts first [] first := by
  constructor
  · cases found : first.lastExecution <;> simp [latest]
  · rfl

section

variable (accounts : Accounts first made task)

include accounts

theorem of_eq {other : ScheduledTask} (lastExecution : other.lastExecution = task.lastExecution)
    (dispatchAttempts : other.dispatchAttempts = task.dispatchAttempts) :
    Accounts first made other :=
  ⟨lastExecution.trans accounts.lastExecution, dispatchAttempts.trans accounts.dispatchAttempts⟩

theorem isLatest_iff (attempt : Attempt) : task.isLatest attempt.startedAt ↔
      IsCurrent startedAt first.lastExecution made attempt := by
  unfold ScheduledTask.isLatest IsCurrent
  rw [← accounts.lastExecution]
  cases task.lastExecution <;> simp

theorem executionStarted (calendar : Calendar) (attempt : Attempt) (now : Instant) :
    Accounts first (made ++ [attempt])
      (task.executionStarted calendar attempt.startedAt attempt.outcome now) := by
  by_cases current : IsCurrent startedAt first.lastExecution made attempt
  · have isLatest := (accounts.isLatest_iff attempt).mpr current
    constructor
    · rw [latest_snoc_of_current current, ScheduledTask.executionStarted, if_pos isLatest]
    · rw [notOvertaken_snoc, if_pos current, List.foldl_append, ← accounts.dispatchAttempts,
        ScheduledTask.executionStarted, if_pos isLatest]
      obtain ⟨startedAt, outcome⟩ := attempt
      cases outcome <;> rfl
  · have notLatest := (accounts.isLatest_iff attempt).not.mpr current
    constructor
    · rw [latest_snoc_of_overtaken current, ScheduledTask.executionStarted, if_neg notLatest]
      exact accounts.lastExecution
    · rw [notOvertaken_snoc, if_neg current, List.append_nil, ScheduledTask.executionStarted,
        if_neg notLatest]
      exact accounts.dispatchAttempts

end

end Accounts

/-! ## The store -/

namespace ScheduleStore

variable {database : Database} {statement : Except String Unit} {store : ScheduleStore}

@[simp] theorem row_execute (call : ScheduleCall) (task : ScheduledTask) :
    (store.execute database statement call).2.row database task = store.row database task := by
  cases store with
  | inMemory memory => rfl
  | postgres table => cases statement <;> rfl

theorem load_updateTask (carried : store.CarriesOut statement) {before task : ScheduledTask}
    (found : store.load task.id = some (store.row database before))
    (created : before.createdAt = task.createdAt) (same : before.id = task.id) :
    (store.execute database statement (.updateTask task)).2.load task.id =
      some (store.row database task) := by
  cases store with
  | inMemory memory =>
    have present : memory.tasks.load task.id = some before := found
    have served : (memory.updateTask task).2.tasks.load task.id =
        some { task with id := before.id } := by
      simp only [InMemoryScheduleStore.updateTask, present]
      exact TaskTable.load_change_self present
    rw [same] at served
    exact served
  | postgres table =>
    cases carried
    have present : table.tasks.load task.id = some (database.columns.taskRow before) := found
    have served : (table.updateTask database.columns task).2.tasks.load task.id =
        some { database.columns.taskRow task with
          id := (database.columns.taskRow before).id
          createdAt := (database.columns.taskRow before).createdAt } := by
      simp only [PostgresScheduleStore.updateTask, present]
      exact TaskTable.load_change_self present
    have rowId : (database.columns.taskRow before).id = task.id := same
    have rowCreated : (database.columns.taskRow before).createdAt =
        (database.columns.taskRow task).createdAt := congrArg database.columns.timestamptz created
    rw [rowId, rowCreated] at served
    exact served

end ScheduleStore

/-! ## Steps -/

theorem SchedulerOperation.LeavesRecords.execute (leaves : operation.LeavesRecords)
    (calendar : Calendar) (database : Database) (input : Surroundings)
    (service : SchedulerService) :
    (service.execute calendar database input operation).2.jobMetadata = service.jobMetadata ∧
      (service.execute calendar database input operation).2.store = service.store := by
  cases operation with
  | registerRuntimeJob task =>
    cases running : service.jobScheduler <;>
      simp [SchedulerService.execute, register, running]
  | removeRuntimeJob uuid =>
    cases removed : input.removed <;>
      simp [SchedulerService.execute, SchedulerService.withoutRuntimeJob, removed]
  | clock | insertJobId _ _ | readRuntimeJobId _ | forgetJobId _ | spawnRegistration _ =>
    exact ⟨rfl, rfl⟩
  | _ => exact leaves.elim

theorem SchedulerOperation.LeavesRecords.attemptOf (leaves : operation.LeavesRecords)
    (index : Index) (answer : operation.Answer) :
    Scheduler.attemptOf ⟨index, operation, answer⟩ = none := by
  cases operation with
  | startExecution id startedAt outcome => exact leaves.elim
  | _ => rfl

namespace UpdatePhase

variable {id : Uuid} {phase : UpdatePhase} {operation : SchedulerOperation}

theorem next_of_leavesRecords (phase : UpdatePhase) (leaves : operation.LeavesRecords)
    (answer : operation.Answer) (begun : ∀ update, phase ≠ fresh update) :
    phase.next operation answer = phase ∨
      (phase.next operation answer = settled ∧ ∀ record, phase ≠ pending record) := by
  cases phase with
  | fresh update => exact absurd rfl (begun update)
  | toggling current =>
    cases operation with
    | registerRuntimeJob task =>
      rcases answer with _ | (error | _)
      · exact .inl rfl
      · exact .inr ⟨rfl, fun _ same => by cases same⟩
      · exact .inl rfl
    | commitJob task => exact leaves.elim
    | _ => exact .inl rfl
  | pending record =>
    cases operation with
    | store call => exact leaves.elim
    | _ => exact .inl rfl
  | settled => cases operation <;> exact .inl rfl

theorem eq_pending_of_permits (permitted : phase.permits id (.store (.updateTask record))) :
    phase = pending record := by
  cases phase with
  | fresh update => cases update <;> cases permitted
  | toggling current | settled => exact permitted.elim
  | pending other =>
    cases permitted
    rfl

theorem permits_toggling (permitted : (toggling current).permits id operation) :
    (∃ candidate, operation = .commitJob candidate ∧ current.Toggles candidate) ∨
      operation.LeavesRecords := by
  cases operation with
  | commitJob candidate => exact .inl ⟨candidate, rfl, permitted⟩
  | _ => exact .inr permitted

end UpdatePhase

/-- The registry accounts for the attempts; the store has the record of the registry, or a call
has still to write it. -/
structure Recorded (database : Database) (id : Uuid) (first : ScheduledTask)
    (service : SchedulerService) (phases : Index → UpdatePhase) (log : List (SchedulerEvent Index))
    (task : ScheduledTask) : Prop where
  registered : service.jobMetadata id = some task
  createdAt : task.createdAt = first.createdAt
  accounts : Accounts first (attempts log) task
  kept : ∃ before : ScheduledTask, service.store.load id = some (service.store.row database before) ∧
    before.id = id ∧ before.createdAt = first.createdAt
  written : service.store.load id = some (service.store.row database task) ∨
    ∃ index, phases index = .pending task
  pending : ∀ index record, phases index = .pending record →
    record.id = id ∧ record.createdAt = first.createdAt
  toggling : ∀ index current, phases index = .toggling current →
    ⟨index, .readJob id, some current⟩ ∈ log

namespace Recorded

variable [DecidableEq Index] {calendar : Calendar} {database : Database} {id : Uuid}
  {first task : ScheduledTask} {service next : SchedulerService} {phases : Index → UpdatePhase}
  {log : List (SchedulerEvent Index)} {index : Index} {event : SchedulerEvent Index}

omit [DecidableEq Index] in
theorem id_eq (recorded : Recorded database id first service phases log task) : task.id = id :=
  service.keyed id task recorded.registered

section

variable (recorded : Recorded database id first service phases log task)

include recorded

theorem rest (sameJobs : next.jobMetadata = service.jobMetadata)
    (sameStore : next.store = service.store) (noAttempt : attemptOf event = none)
    {phase : UpdatePhase}
    (led : phase = phases index ∨ phase = .settled ∧ ∀ record, phases index ≠ .pending record) :
    Recorded database id first next (update phases index phase) (log ++ [event]) task := by
  have stays {other : Index} {record : ScheduledTask}
      (waiting : phases other = .pending record) :
      update phases index phase other = .pending record := by
    by_cases same : other = index
    · subst same
      rw [update_self]
      rcases led with kept | ⟨-, notPending⟩
      · exact kept.trans waiting
      · exact absurd waiting (notPending record)
    · rwa [update_of_ne same]
  have earlier {other : Index} {begun : UpdatePhase} (unsettled : begun ≠ .settled)
      (here : update phases index phase other = begun) : phases other = begun := by
    by_cases same : other = index
    · subst same
      rw [update_self] at here
      rcases led with kept | ⟨settled, -⟩
      · exact kept.symm.trans here
      · exact absurd (here.symm.trans settled) unsettled
    · rwa [update_of_ne same] at here
  refine ⟨sameJobs ▸ recorded.registered, recorded.createdAt, ?_, sameStore ▸ recorded.kept, ?_, ?_,
    ?_⟩
  · rw [attempts_snoc_of_none noAttempt]
    exact recorded.accounts
  · rw [sameStore]
    exact recorded.written.imp_right fun ⟨other, waiting⟩ => ⟨other, stays waiting⟩
  · exact fun other record here => recorded.pending other record (earlier (by simp) here)
  · exact fun other current here =>
      List.mem_append_left _ (recorded.toggling other current (earlier (by simp) here))

theorem change (same : record.id = id) (createdAt : record.createdAt = first.createdAt)
    (accounts : Accounts first (attempts (log ++ [event])) record) :
    Recorded database id first (service.withJob record)
      (update phases index (.pending record)) (log ++ [event]) record := by
  refine ⟨?_, createdAt, accounts, recorded.kept, .inr ⟨index, update_self _ _ _⟩, ?_, ?_⟩
  · rw [SchedulerService.withJob_jobMetadata, same, update_self]
  · intro other waiting here
    by_cases own : other = index
    · subst own
      rw [update_self] at here
      cases here
      exact ⟨same, createdAt⟩
    · rw [update_of_ne own] at here
      exact recorded.pending other waiting here
  · intro other current here
    by_cases own : other = index
    · subst own
      rw [update_self] at here
      cases here
    · rw [update_of_ne own] at here
      exact List.mem_append_left _ (recorded.toggling other current here)

theorem read (fresh : ∀ record, phases index ≠ .pending record) :
    Recorded database id first service (update phases index (.toggling current))
      (log ++ [⟨index, .readJob id, some current⟩]) task := by
  refine ⟨recorded.registered, recorded.createdAt, ?_, recorded.kept, ?_, ?_, ?_⟩
  · rw [attempts_snoc_of_none rfl]
    exact recorded.accounts
  · refine recorded.written.imp_right fun ⟨other, waiting⟩ => ⟨other, ?_⟩
    rw [update_of_ne]
    · exact waiting
    · rintro rfl
      exact fresh task waiting
  · intro other record here
    by_cases own : other = index
    · subst own
      rw [update_self] at here
      cases here
    · rw [update_of_ne own] at here
      exact recorded.pending other record here
  · intro other copy here
    by_cases own : other = index
    · subst own
      rw [update_self] at here
      cases here
      exact List.mem_append_right _ List.mem_cons_self
    · rw [update_of_ne own] at here
      exact List.mem_append_left _ (recorded.toggling other copy here)

/-- A record is written that is the latest, or the latest is still to be written. -/
theorem write (here : phases index = .pending record)
    (current : task = record ∨ ∃ other, phases other = .pending task)
    {statement : Except String Unit} (carried : service.store.CarriesOut statement)
    (answer : ScheduleAnswer) : Recorded database id first
      { service with store := (service.store.execute database statement (.updateTask record)).2 }
      (update phases index .settled)
      (log ++ [⟨index, .store (.updateTask record), answer⟩]) task := by
  obtain ⟨sameId, sameCreated⟩ := recorded.pending index record here
  obtain ⟨before, found, beforeId, beforeCreated⟩ := recorded.kept
  have stored : (service.store.execute database statement (.updateTask record)).2.load id = some
      ((service.store.execute database statement (.updateTask record)).2.row database record) := by
    rw [ScheduleStore.row_execute]
    have loaded : (service.store.execute database statement (.updateTask record)).2.load record.id =
        some (service.store.row database record) :=
      ScheduleStore.load_updateTask carried (sameId.symm ▸ found)
        (beforeCreated.trans sameCreated.symm) (beforeId.trans sameId.symm)
    rwa [sameId] at loaded
  refine ⟨recorded.registered, recorded.createdAt, ?_, ⟨record, stored, sameId, sameCreated⟩, ?_, ?_,
    ?_⟩
  · rw [attempts_snoc_of_none rfl]
    exact recorded.accounts
  · by_cases latest : task = record
    · exact .inl (latest ▸ stored)
    · obtain ⟨other, waiting⟩ := current.resolve_left latest
      refine .inr ⟨other, ?_⟩
      rw [update_of_ne]
      · exact waiting
      · rintro rfl
        rw [here] at waiting
        cases waiting
        exact latest rfl
  · intro other waiting among
    by_cases own : other = index
    · subst own
      rw [update_self] at among
      cases among
    · rw [update_of_ne own] at among
      exact recorded.pending other waiting among
  · intro other copy among
    by_cases own : other = index
    · subst own
      rw [update_self] at among
      cases among
    · rw [update_of_ne own] at among
      exact List.mem_append_left _ (recorded.toggling other copy among)

/-- Every operation that the phase of a call permits keeps the account, if it is up to date. -/
theorem step (permitted : (phases index).permits id operation)
    (commits : ∀ candidate current, operation = .commitJob candidate →
      ⟨index, .readJob id, some current⟩ ∈ log → service.jobMetadata id = some current)
    (input : Surroundings)
    (writes : ∀ record, operation = .store (.updateTask record) →
      service.store.CarriesOut input.statement ∧
      (task = record ∨ ∃ other, phases other = .pending task)) :
    let next := service.execute calendar database input operation
    ∃ task, Recorded database id first next.2
      (update phases index ((phases index).next operation next.1))
      (log ++ [⟨index, operation, next.1⟩]) task := by
  intro next
  cases here : phases index with
  | fresh update =>
    rw [here] at permitted
    have unsettled : ∀ record, phases index ≠ .pending record := by simp [here]
    cases update with
    | markExecutionStarted startedAt outcome =>
      cases permitted
      have changed : (service.jobMetadata id).bind (fun stored =>
          some (stored.executionStarted calendar startedAt outcome input.now)) =
            some (task.executionStarted calendar startedAt outcome input.now) := by
        rw [recorded.registered]
        rfl
      have served : next = (some (task.executionStarted calendar startedAt outcome input.now),
          service.withJob (task.executionStarted calendar startedAt outcome input.now)) :=
        changeJob_of_changed changed
      rw [served]
      refine ⟨_, recorded.change ?_ ?_ ?_⟩
      · rw [ScheduledTask.executionStarted_id, recorded.id_eq]
      · rw [ScheduledTask.executionStarted_createdAt, recorded.createdAt]
      · rw [attempts_snoc]
        exact recorded.accounts.executionStarted calendar ⟨startedAt, outcome⟩ input.now
    | rearmOneShotAt when_ =>
      cases permitted
      by_cases oneShot : task.isOneShot
      · have changed : (service.jobMetadata id).bind (fun stored =>
            if stored.isOneShot then some (stored.rearmed when_ input.now) else none) =
              some (task.rearmed when_ input.now) := by
          rw [recorded.registered, Option.bind_some, if_pos oneShot]
        have served : next = (some (task.rearmed when_ input.now),
            service.withJob (task.rearmed when_ input.now)) :=
          changeJob_of_changed changed
        rw [served]
        refine ⟨_, recorded.change recorded.id_eq recorded.createdAt ?_⟩
        rw [attempts_snoc_of_none rfl]
        exact recorded.accounts.of_eq rfl rfl
      · have absent : (service.jobMetadata id).bind (fun stored =>
            if stored.isOneShot then some (stored.rearmed when_ input.now) else none) = none := by
          rw [recorded.registered, Option.bind_some, if_neg oneShot]
        have served : next = (none, service) := SchedulerService.changeJob_of_absent absent
        rw [served]
        exact ⟨task, recorded.rest rfl rfl rfl (.inr ⟨rfl, unsettled⟩)⟩
    | setJobEnabled enabled =>
      cases permitted
      have served : next = (some task, service) := by
        rw [← recorded.registered]
        rfl
      rw [served]
      refine ⟨task, ?_⟩
      simp only [UpdatePhase.next]
      split
      · exact recorded.rest rfl rfl rfl (.inr ⟨rfl, unsettled⟩)
      · exact recorded.read unsettled
  | toggling current =>
    rw [here] at permitted
    rcases UpdatePhase.permits_toggling permitted with ⟨candidate, rfl, toggles⟩ | leaves
    · -- the copy that is put back is the record of the registry
      have found := commits candidate current rfl (recorded.toggling index current here)
      rw [recorded.registered, Option.some.injEq] at found
      subst found
      have sameId : candidate.id = id := toggles.id.trans recorded.id_eq
      have changed : (service.jobMetadata candidate.id).bind (fun _ => some candidate) =
          some candidate := by
        rw [sameId, recorded.registered]
        rfl
      have served : next = ((), service.withJob candidate) := by
        have committed : (service.changeJob candidate.id fun _ => some candidate).2 =
            service.withJob candidate :=
          congrArg Prod.snd (changeJob_of_changed changed)
        exact Prod.ext rfl committed
      rw [served]
      refine ⟨candidate, recorded.change sameId (toggles.createdAt.trans recorded.createdAt) ?_⟩
      rw [attempts_snoc_of_none rfl]
      exact recorded.accounts.of_eq toggles.lastExecution toggles.dispatchAttempts
    · obtain ⟨sameJobs, sameStore⟩ := leaves.execute calendar database input service
      refine ⟨task, recorded.rest sameJobs sameStore (leaves.attemptOf index _) ?_⟩
      have led := UpdatePhase.next_of_leavesRecords (phases index) leaves next.1 (by simp [here])
      rwa [here] at led ⊢
  | pending record =>
    rw [here] at permitted
    cases permitted
    obtain ⟨carried, latest⟩ := writes record rfl
    exact ⟨task, recorded.write here latest carried _⟩
  | settled =>
    rw [here] at permitted
    obtain ⟨sameJobs, sameStore⟩ := permitted.execute calendar database input service
    refine ⟨task, recorded.rest sameJobs sameStore (permitted.attemptOf index _) ?_⟩
    have led := UpdatePhase.next_of_leavesRecords (phases index) permitted next.1 (by simp [here])
    rwa [here] at led ⊢

end

end Recorded

/-! ## Runs -/

section Runs

variable [DecidableEq Index] {calendar : Calendar} {database : Database} {id : Uuid}
  {updates : Index → RecordUpdate} {start : SchedulerService} {first : ScheduledTask}
  {session : SchedulerSession Index} {moves : List (Index × Surroundings)}

theorem underway_updating : (updating calendar id updates start).Underway (recording id)
    possible (fun _ phase => phase = .settled) fun index => .fresh (updates index) :=
  fun index => settles_program (updates index)

theorem recorded_of_run (registered : start.jobMetadata id = some first)
    (stored : start.store.load id = some (start.store.row database first))
    (run : Run (servesWhere (SchedulerService.execute calendar database) (UpToDate id))
      (updating calendar id updates start) moves session) :
    ∃ task, Recorded database id first session.store
      ((recording id).phase (fun index => .fresh (updates index)) session.log) session.log task := by
  have begin : Recorded database id first start
      (fun index => UpdatePhase.fresh (updates index)) ([] : List (SchedulerEvent Index)) first :=
    ⟨registered, rfl, .refl first, ⟨first, stored, start.keyed id first registered, rfl⟩,
      .inl stored, by simp, by simp⟩
  let holds (service : SchedulerService) (phases : Index → UpdatePhase)
      (log : List (SchedulerEvent Index)) : Prop :=
    ∃ task, Recorded database id first service phases log task
  have initially : holds start (fun index => .fresh (updates index)) [] := ⟨first, begin⟩
  refine Session.Underway.invariant (possible_execute calendar database) ?_ run
    underway_updating initially
  intro before index input operation resume underway call upToDate permitted ⟨task, recorded⟩ _ _
  apply recorded.step permitted
  · rintro candidate current rfl read
    exact upToDate.1 candidate current ⟨resume, call⟩ read
  · rintro record rfl
    obtain ⟨carried, latest⟩ := upToDate.2 record ⟨resume, call⟩
    refine ⟨carried, ?_⟩
    rcases latest task recorded.registered with same | ⟨other, onward, asks⟩
    · exact .inl same
    · exact .inr ⟨other, UpdatePhase.eq_pending_of_permits (underway.permits asks)⟩

/-- As long as copies that are put back and records that are written are up to date and the store
carries out what is written, no update is lost when all have finished. -/
theorem updatesKept_of_run (registered : start.jobMetadata id = some first)
    (stored : start.store.load id = some (start.store.row database first))
    (run : Run (servesWhere (SchedulerService.execute calendar database) (UpToDate id))
      (updating calendar id updates start) moves session)
    (finished : session.Finished) : UpdatesKept database id first session := by
  obtain ⟨task, recorded⟩ := recorded_of_run registered stored run
  have underway := underway_updating.run (possible_execute calendar database) run
  refine ⟨task, recorded.registered, recorded.accounts, fun harmless => ?_, ?_⟩
  · rw [recorded.accounts.dispatchAttempts, foldl_inOrder_eq harmless]
  · rcases recorded.written with done | ⟨index, waiting⟩
    · exact done
    · rcases finished index with unserved | ⟨result, returned⟩
      · rw [Protocol.phase_of_unserved _ unserved] at waiting
        cases waiting
      · rw [underway.final_of_done returned] at waiting
        cases waiting

end Runs

/-! ## An attempt and a pause -/

/-- A calendar whose days are those of the epoch, and which knows no cron expressions. -/
def plainCalendar : Calendar where
  displayInstant instant :=
    let clock := (instant / second).toNat
    let two (number : Nat) : String := if number < 10 then "0" ++ toString number else toString number
    "1970-01-01 " ++ two (clock / 3600) ++ ":" ++ two (clock / 60 % 60) ++ ":" ++ two (clock % 60) ++
      " UTC"
  fromStr pattern := .error ("InvalidPattern(" ++ pattern ++ ")")

def plainDatabase : Database := ⟨⟨id, id⟩, .inserted, .inserted⟩

/-- A service that has one job, and has registered it with the runtime scheduler. -/
def reviewService : SchedulerService :=
  { (new (.inMemory (InMemoryScheduleStore.empty.saveTask reviewTask).2)).withJob
      reviewTask with
    jobScheduler := some [⟨0, reviewTask.id, reviewTask.executeAfter⟩]
    schedulerJobIds := fun id => if id = reviewTask.id then some 0 else none
    freshUuid := 1 }

/-- Every operation succeeds at this moment. -/
def at_ (now : Instant) (uuid : Uuid) : Surroundings :=
  ⟨now, uuid, none, .ok (), true, .ok (), .ok (), .ok ()⟩

/-- An attempt that nobody took is accounted for, while the job is paused. -/
def attemptAndPause : Nat → RecordUpdate
  | 0 => .markExecutionStarted 60000000000 .failedRetryable
  | _ => .setJobEnabled false

def attemptAndPauseSession (indices : List Nat) : SchedulerSession Nat :=
  (indices.map fun index => (index, at_ 60000000000 "")).foldl
    (Session.serve (SchedulerService.execute plainCalendar plainDatabase))
    (updating plainCalendar reviewTask.id attemptAndPause reviewService)

/-- A test of whether a move is up to date. -/
def isUpToDate (id : Uuid) (session : SchedulerSession Nat) (move : Nat × Surroundings) : Bool :=
  match session.calls move.1 with
  | .ask (.commitJob _) _ => session.log.all fun event =>
    match event with
    | ⟨_, .readJob _, some current⟩ => session.store.jobMetadata id = some current
    | _ => true
  | .ask (.store (.updateTask record)) _ =>
    move.2.statement.isOk && session.store.jobMetadata id = some record
  | _ => true

theorem upToDate_of_isUpToDate (id : Uuid) (session : SchedulerSession Nat)
    (move : Nat × Surroundings) (passed : isUpToDate id session move) :
    UpToDate id session move := by
  constructor
  · rintro candidate current ⟨resume, call⟩ read
    rw [isUpToDate, call, List.all_eq_true] at passed
    simpa using passed _ read
  · rintro record ⟨resume, call⟩
    rw [isUpToDate, call, Bool.and_eq_true, decide_eq_true_eq] at passed
    obtain ⟨succeeded, same⟩ := passed
    refine ⟨?_, fun task registered => ?_⟩
    · cases result : move.2.statement with
      | error error =>
        rw [result] at succeeded
        cases succeeded
      | ok done => cases session.store.store <;> trivial
    · rw [registered, Option.some.injEq] at same
      exact .inl same

/-- The calls that were served have returned. -/
def isFinished (session : SchedulerSession Nat) : Bool :=
  session.log.all fun event =>
    match session.calls event.index with
    | .done _ => true
    | .ask _ _ => false

theorem finished_of_isFinished {session : SchedulerSession Nat} (passed : isFinished session) :
    session.Finished := by
  intro index
  by_cases served : ∃ event ∈ session.log, event.index = index
  · obtain ⟨event, member, rfl⟩ := served
    have returned := List.all_eq_true.mp passed event member
    refine .inr ?_
    split at returned
    · rename_i result call
      exact ⟨result, call⟩
    · cases returned
  · exact .inl fun event member same => served ⟨event, member, same⟩

/-- The job is paused after the attempt was accounted for. -/
theorem updatesKept_of_run_inTurn : UpdatesKept plainDatabase reviewTask.id reviewTask
    (attemptAndPauseSession [0, 0, 1, 1, 1, 1, 1, 1, 1]) := by
  have run : Run (servesWhere (SchedulerService.execute plainCalendar plainDatabase)
      (UpToDate reviewTask.id)) (updating plainCalendar reviewTask.id attemptAndPause reviewService)
      ([0, 0, 1, 1, 1, 1, 1, 1, 1].map fun index => (index, at_ 60000000000 ""))
      (attemptAndPauseSession [0, 0, 1, 1, 1, 1, 1, 1, 1]) :=
    run_servesWhere (upToDate_of_isUpToDate reviewTask.id) (by decide +kernel)
  exact updatesKept_of_run rfl rfl run (finished_of_isFinished (by decide +kernel))

/-- The job is read to be paused, and put back after the attempt was accounted for. -/
theorem updatesKept_fails_stale :
    Run (serves (SchedulerService.execute plainCalendar plainDatabase))
      (updating plainCalendar reviewTask.id attemptAndPause reviewService)
      ([1, 0, 0, 1, 1, 1, 1, 1, 1].map fun index => (index, at_ 60000000000 ""))
      (attemptAndPauseSession [1, 0, 0, 1, 1, 1, 1, 1, 1]) ∧
    (attemptAndPauseSession [1, 0, 0, 1, 1, 1, 1, 1, 1]).Finished ∧
    ¬ UpdatesKept plainDatabase reviewTask.id reviewTask
      (attemptAndPauseSession [1, 0, 0, 1, 1, 1, 1, 1, 1]) := by
  refine ⟨run_serves _ _, finished_of_isFinished (by decide +kernel), ?_⟩
  rintro ⟨task, registered, accounts, -⟩
  have lost : ((attemptAndPauseSession [1, 0, 0, 1, 1, 1, 1, 1, 1]).store.jobMetadata
      reviewTask.id).map (·.lastExecution) = some none := by decide +kernel
  rw [registered, Option.map_some, accounts.lastExecution] at lost
  revert lost
  decide +kernel

end UltimateCoders.Scheduler
