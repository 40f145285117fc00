import UltimateCoders.Scheduler.Arming
import UltimateCoders.Scheduler.KeptUpdates

/-! # Paused jobs

A job that is paused is to have no registration, no next execution and no scheduled attempt. The
calls of the service follow the roles that they have for the job, so what the roles keep holds in
every interleaving in which pausing and resuming keep apart from attempts.
-/

namespace UltimateCoders.Scheduler

open Transition ScheduledTask Governance List Function

universe u

variable {Index : Type u} {calendar : Calendar} {database : Database} {id other : Uuid}

def SchedulerCall.program (calendar : Calendar) : SchedulerCall → Scheduling Unit
  | setJobEnabled id enabled => do
      let _ ← Scheduler.setJobEnabled calendar id enabled
      return ()
  | dispatchWithGuardFrom id source => do
      let _ ← Scheduler.dispatchWithGuardFrom calendar id source
      return ()
  | firing uuid => Scheduler.firing calendar uuid
  | rearmRegistrationTask position => Scheduler.rearmRegistrationTask position

def attending (calendar : Calendar) (calls : Index → SchedulerCall) (start : SchedulerService) :
    Session Index SchedulerService SchedulerOperation SchedulerOperation.Answer Unit :=
  ⟨start, fun index => (calls index).program calendar, []⟩

/-! ## Roles -/

/-- The operation neither registers the job nor re-arms it, nor does it touch what is remembered
for the job. -/
def SchedulerOperation.Steady (id : Uuid) : SchedulerOperation → Prop
  | clock | newUuid | readJob _ | startExecution _ _ _ | store _ | pushHistory _ | nextWindowOpening
  | tryAcquire _ | dispatch _ _ | readRuntimeJobId _ | removeRuntimeJob _ => True
  | rearmJob other _ | insertJobId other _ | forgetJobId other => other ≠ id
  | commitJob task | registerRuntimeJob task | registerOneShot task | spawnRegistration task =>
    task.id ≠ id
  | _ => False

open SchedulerOperation

/-- The operation is a scheduled attempt of the job. -/
def SchedulerOperation.IsAttempt (id : Uuid) : SchedulerOperation → Prop
  | dispatch source task => source = .scheduled ∧ task.id = id
  | _ => False

namespace Role

def permits (id : Uuid) : Role → SchedulerOperation → Prop
  | fresh (.setJobEnabled other _), operation => operation = .readJob other
  | fresh (.dispatchWithGuardFrom other _), operation => operation = .readJob other
  | fresh (.firing uuid), operation => operation = .fire uuid
  | fresh (.rearmRegistrationTask position), operation => operation = .takeRegistration position
  | resuming current, .registerRuntimeJob candidate =>
    candidate.id = id ∧ candidate.cronExpression = current.cronExpression ∧ candidate.enabled
  | resuming _, operation => operation = .clock
  | inserting _ uuid, operation => operation = .insertJobId id uuid
  | resumed candidate, operation => operation = .commitJob candidate ∧ candidate.id = id
  | pausing _, operation => operation = .clock ∨ operation = .readRuntimeJobId id
  | unregistering _ uuid, operation => operation = .removeRuntimeJob uuid
  | forgetting _, operation => operation = .forgetJobId id
  | paused current, .commitJob candidate =>
    candidate.id = id ∧ candidate.cronExpression = current.cronExpression ∧
      candidate.enabled = false ∧ candidate.nextExecution = none
  | paused _, _ => False
  | consumed, operation => operation = .forgetJobId id
  | attempting, .rearmJob other _ => other = id
  | attempting, operation => operation.Steady id
  | rearmed, .store _ => True
  | rearmed, .spawnRegistration task => task.id = id
  | rearmed, _ => False
  | registering, .registerOneShot task => task.id = id
  | registering, _ => False
  | registered uuid, operation => operation = .insertJobId id uuid
  | replacing uuid, operation => operation = .removeRuntimeJob uuid
  | idle, operation => operation.Steady id ∧ ¬ operation.IsAttempt id

/-- Where reading the job leads a call that pauses or resumes. -/
def ofToggle (id other : Uuid) (enabled : Bool) : Option ScheduledTask → Role
  | none => idle
  | some current =>
    if other ≠ id ∨ current.enabled = enabled then idle
    else if enabled then resuming current else pausing current

/-- Where a job of the runtime scheduler leads its callback. -/
def ofFired (id : Uuid) : Option RuntimeJob → Role
  | none => idle
  | some job =>
    if job.taskId = id then if job.fireAt.isSome then consumed else attempting else idle

/-- An attempt that failed goes on, if it is owed a retry. -/
def ofFailure (outcome : DispatchOutcome) (answer : Option ScheduledTask) : Role :=
  if outcome = .failedRetryable ∧ (answer.map (·.dispatchAttempts)).getD 0 ≤ maxDispatchRetries
  then attempting else idle

def next (id : Uuid) : Role → (operation : SchedulerOperation) → operation.Answer → Role
  | fresh (.setJobEnabled other enabled), .readJob _, answer => ofToggle id other enabled answer
  | fresh (.dispatchWithGuardFrom other source), .readJob _, answer =>
    if other = id ∧ source = .scheduled ∧ answer.isSome then attempting else idle
  | fresh _, .fire _, answer => ofFired id answer
  | fresh _, .takeRegistration _, some task => if task.id = id then registering else idle
  | fresh _, .takeRegistration _, none => idle
  | resuming _, .registerRuntimeJob _, some (.error _) => idle
  | resuming _, .registerRuntimeJob candidate, some (.ok (some uuid)) => inserting candidate uuid
  | resuming _, .registerRuntimeJob candidate, _ => resumed candidate
  | inserting candidate _, .insertJobId _ _, _ => resumed candidate
  | resumed _, .commitJob _, _ => idle
  | pausing current, .readRuntimeJobId _, some uuid => unregistering current uuid
  | pausing current, .readRuntimeJobId _, none => forgetting current
  | unregistering current _, .removeRuntimeJob _, _ => forgetting current
  | forgetting current, .forgetJobId _, _ => paused current
  | paused _, .commitJob _, _ => idle
  | consumed, .forgetJobId _, _ => attempting
  | attempting, .tryAcquire _, false => idle
  | attempting, .readJob _, none => idle
  | attempting, .dispatch _ _, .ok () => idle
  | attempting, .startExecution _ _ outcome, answer => ofFailure outcome answer
  | attempting, .rearmJob _ _, some _ => rearmed
  | attempting, .rearmJob _ _, none => idle
  | rearmed, .spawnRegistration _, _ => idle
  | registering, .registerOneShot _, some (.ok (some uuid)) => registered uuid
  | registering, .registerOneShot _, _ => idle
  | registered _, .insertJobId _ _, some previous => replacing previous
  | registered _, .insertJobId _ _, none => idle
  | replacing _, .removeRuntimeJob _, _ => idle
  | role, _, _ => role

theorem ofFailure_cases (outcome : DispatchOutcome) (answer : Option ScheduledTask) :
    ofFailure outcome answer = attempting ∨ ofFailure outcome answer = idle := by
  unfold ofFailure
  split <;> simp

theorem next_attempting (id : Uuid) {operation : SchedulerOperation}
    (other : ∀ id when_, operation ≠ .rearmJob id when_) (answer : operation.Answer) :
    attempting.next id operation answer = attempting ∨
      attempting.next id operation answer = idle := by
  cases operation with
  | tryAcquire _ | readJob _ | dispatch _ _ => cases answer <;> simp [next]
  | startExecution _ _ outcome => exact ofFailure_cases outcome answer
  | rearmJob id when_ => exact absurd rfl (other id when_)
  | _ => exact .inl rfl

theorem inFlight_of_permits_dispatch {role : Role} {task : ScheduledTask} (own : task.id = id)
    (permitted : role.permits id (.dispatch .scheduled task)) : role.inFlight := by
  cases role with
  | attempting => rfl
  | idle => exact absurd ⟨rfl, own⟩ permitted.2
  | fresh call => cases call <;> cases permitted
  | resumed candidate => cases permitted.1
  | pausing current => rcases permitted with same | same <;> cases same
  | _ => cases permitted

theorem toggles_of_revives {role : Role} (revives : role.revives) : role.toggles := by
  cases role <;> simp_all [Role.revives, toggles, carries]

theorem ofToggle_cases (id other : Uuid) (enabled : Bool) (answer : Option ScheduledTask) :
    ofToggle id other enabled answer = idle ∨ other = id ∧ ∃ current,
      ofToggle id other enabled answer = resuming current ∨
        ofToggle id other enabled answer = pausing current := by
  unfold ofToggle
  split
  · exact .inl rfl
  · rename_i current
    split_ifs with changes resumed
    · exact .inl rfl
    · exact .inr ⟨of_not_not (not_or.mp changes).1, current, .inl rfl⟩
    · exact .inr ⟨of_not_not (not_or.mp changes).1, current, .inr rfl⟩

theorem ofFired_cases (id : Uuid) (answer : Option RuntimeJob) : ofFired id answer = idle ∨
    ofFired id answer = consumed ∨ ofFired id answer = attempting := by
  unfold ofFired
  split
  · exact .inl rfl
  · split_ifs <;> simp

theorem next_origin (id : Uuid) (role : Role) (operation : SchedulerOperation)
    (answer : operation.Answer) :
    (∀ call, role.next id operation answer = .fresh call → role = .fresh call) ∧
      ((role.next id operation answer).toggles → role.toggles ∨
        ∃ enabled, role = .fresh (.setJobEnabled id enabled)) := by
  unfold next
  split
  case h_1 other enabled _ found =>
    rcases ofToggle_cases id other enabled found with led | ⟨rfl, current, led | led⟩ <;>
      simp [led, toggles, carries]
  case h_2 | h_4 => split <;> simp [toggles, carries]
  case h_3 _ _ fired =>
    rcases ofFired_cases id fired with led | led | led <;> simp [led, toggles, carries]
  case h_20 _ _ outcome updated =>
    rcases ofFailure_cases outcome updated with led | led <;> simp [led, toggles, carries]
  case h_29 => exact ⟨fun _ same => same, .inl⟩
  all_goals simp [toggles, carries]

end Role

/-- The roles that calls have for a job. -/
def concerning (id : Uuid) : Protocol SchedulerOperation Answer Role where
  permits := Role.permits id
  next := Role.next id

/-! ## Calls follow their roles -/

variable {Result : Type} {candidate : ScheduledTask}

section Follows

/-- The program follows its role, and has nothing more to do with the job when it returns. -/
abbrev Ends (id : Uuid) (program : Scheduling Result) (role : Role) : Prop :=
  program.Follows (concerning id) possible (fun _ role => role = .idle) role

abbrev Keeps (id : Uuid) (program : Scheduling Result) (role : Role) : Prop :=
  program.Follows (concerning id) possible (fun _ after => after = role) role

theorem Ends.seq {Outcome : Type} {program : Scheduling Result}
    {next : Result → Scheduling Outcome} {role : Role} (ends : Ends id program role)
    (rest : ∀ result, Ends id (next result) .idle) : Ends id (program >>= next) role := by
  refine Program.Follows.seq ends fun result after ended => ?_
  rw [ended]
  exact rest result

/-- The role of a call while it attempts a job, which may be the one that is watched. -/
abbrev Role.attemptingIf (own : Prop) [Decidable own] : Role := if own then attempting else idle

section Attempts

variable {own : Prop} [Decidable own] {source : DispatchSource}

theorem follows_ask {final : Result → Role → Prop} {operation : SchedulerOperation}
    {resume : operation.Answer → Scheduling Result} (role : Role)
    (permits : if own then role.permits id operation else operation.Steady id ∧
      ¬operation.IsAttempt id)
    (rest : ∀ answer, operation.possible answer →
      (resume answer).Follows (concerning id) possible final
        (if own then role.next id operation answer else .idle)) :
    Program.Follows (concerning id) possible final (.ask operation resume)
      (if own then role else .idle) := by
  by_cases about : own
  · simp only [if_pos about] at permits rest ⊢
    exact ⟨permits, rest⟩
  · simp only [if_neg about] at permits rest ⊢
    exact ⟨permits, rest⟩

theorem aimed {permitted steady : Prop} (about : own → permitted) (foreign : ¬own → steady) :
    if own then permitted else steady ∧ ¬False := by
  split_ifs with here
  · exact about here
  · exact ⟨foreign here, id⟩

theorem unconcerned : True ∧ ¬False := ⟨trivial, fun attempt => attempt⟩

theorem calm : if own then True else True ∧ ¬False := by simp

theorem keeps_updateTask (task : ScheduledTask) : Keeps id (updateTask task) (.attemptingIf own) :=
  follows_ask _ calm fun _ _ => rfl

theorem keeps_recordExecution (history : ExecutionHistory) :
    Keeps id (recordExecution history) (.attemptingIf own) :=
  follows_ask _ calm fun _ _ => follows_ask _ calm fun _ _ => rfl

theorem follows_markExecutionStarted (startedAt : Instant) (outcome : DispatchOutcome) :
    (markExecutionStarted other startedAt outcome).Follows (concerning id)
      possible (fun attempts role => role = .attemptingIf
        (own ∧ outcome = .failedRetryable ∧ attempts ≤ maxDispatchRetries))
      (.attemptingIf own) := by
  refine follows_ask _ calm fun answer _ => ?_
  change Program.Follows _ _ _ _ (if own then Role.ofFailure outcome answer else .idle)
  rw [Role.ofFailure, ← ite_and]
  cases answer with
  | none => exact rfl
  | some updated => exact (keeps_updateTask updated).seq fun _ _ kept => kept

theorem ends_rearmOneShotAt (when_ : Instant) :
    Ends id (rearmOneShotAt other when_) (.attemptingIf (other = id)) := by
  refine follows_ask _ (aimed (fun own => own) fun foreign => foreign) fun answer can => ?_
  cases answer with
  | none => exact ite_self _
  | some rearmed =>
    have same : rearmed.id = other := (can rearmed rfl).1
    refine follows_ask .rearmed calm fun _ _ => ?_
    exact follows_ask .rearmed (aimed same.trans fun foreign clash =>
      foreign (same.symm.trans clash)) fun _ _ => ite_self _

theorem ends_recordDispatched (startedAt : Instant) :
    Ends id (recordDispatched other startedAt) .idle := by
  refine (@follows_markExecutionStarted _ _ False _ startedAt .succeeded).seq fun _ _ kept => ?_
  rw [kept]
  refine follows_ask _ calm fun uuid _ => follows_ask _ calm fun completedAt _ => ?_
  exact (keeps_recordExecution _).seq fun _ _ kept => kept.trans (if_neg fun passed => passed.1)

theorem ends_recordRefused (task : ScheduledTask) (startedAt : Instant)
    (error : EngineError) :
    Ends id (recordRefused calendar other source task startedAt error)
      (.attemptingIf (other = id ∧ source = .scheduled)) := by
  refine (follows_markExecutionStarted startedAt _).seq fun attempts role led => ?_
  rw [led]
  refine follows_ask _ calm fun uuid _ => follows_ask _ calm fun completedAt _ => ?_
  refine (keeps_recordExecution _).seq fun _ _ kept => ?_
  rw [kept]
  by_cases owed : source = .scheduled ∧ task.isOneShot ∧ attempts ≤ maxDispatchRetries
  · have retry : retryAt (source = .scheduled && task.isOneShot) attempts startedAt =
        some (startedAt + retryDelayFor attempts) := by
      simp [retryAt, owed]
    rw [retry]
    simp only [owed, and_true, decide_true, Bool.and_true, if_true]
    exact (ends_rearmOneShotAt _).seq fun _ => rfl
  · have retry : retryAt (source = .scheduled && task.isOneShot) attempts startedAt = none := by
      simpa [retryAt] using owed
    rw [retry, Role.attemptingIf, if_neg]
    · exact rfl
    · rintro ⟨⟨-, scheduled⟩, retryable, few⟩
      cases oneShot : task.isOneShot with
      | true => exact owed ⟨scheduled, oneShot, few⟩
      | false => simp [oneShot] at retryable

theorem ends_recordDeferred (nextStart : Instant) :
    Ends id (recordDeferred calendar other source nextStart)
      (.attemptingIf (other = id ∧ source = .scheduled)) := by
  refine follows_ask _ calm fun now _ => follows_ask _ calm fun uuid _ => ?_
  refine (keeps_recordExecution _).seq fun _ _ kept => ?_
  rw [kept]
  by_cases scheduled : source = .scheduled
  · simp only [scheduled, and_true, if_true]
    exact (ends_rearmOneShotAt nextStart).seq fun _ => rfl
  · simp only [scheduled, and_false, if_false]
    exact rfl

theorem ends_attemptTask {task : ScheduledTask} (same : task.id = other) :
    Ends id (attemptTask calendar other source task)
      (.attemptingIf (other = id ∧ source = .scheduled)) := by
  refine follows_ask _ calm fun opening _ => ?_
  cases opening with
  | some nextStart => exact ends_recordDeferred nextStart
  | none =>
    refine follows_ask _ calm fun startedAt _ => follows_ask _ ?_ fun result _ => ?_
    · split
      · exact trivial
      · rename_i spared
        exact ⟨trivial, fun attempt => spared ⟨same.symm.trans attempt.2, attempt.1⟩⟩
    · cases result with
      | ok done => exact (ite_self Role.idle).symm ▸ ends_recordDispatched startedAt
      | error error => exact ends_recordRefused task startedAt error

theorem ends_dispatchWithGuardFrom :
    Ends id (dispatchWithGuardFrom calendar other source)
      (.attemptingIf (other = id ∧ source = .scheduled)) := by
  refine follows_ask _ calm fun answer can => ?_
  cases answer with
  | none => exact ite_self _
  | some task => exact ends_attemptTask (can task rfl)

theorem ends_dispatchLocked :
    Ends id (dispatchLocked calendar other) (.attemptingIf (other = id)) := by
  refine follows_ask _ calm fun now _ => follows_ask _ calm fun acquired _ => ?_
  cases acquired with
  | false => exact ite_self _
  | true =>
    have attempted : Ends id (dispatchWithGuardFrom calendar other .scheduled)
      (.attemptingIf (other = id ∧ _)) := ends_dispatchWithGuardFrom
    simp only [and_true] at attempted
    exact attempted.seq fun _ => rfl

end Attempts

theorem ends_firing (uuid : JobUuid) : Ends id (firing calendar uuid) (.fresh (.firing uuid)) := by
  refine ⟨rfl, fun answer _ => ?_⟩
  cases answer with
  | none => exact rfl
  | some job =>
    change Ends id (if job.fireAt.isSome then _ else _) (if job.taskId = id then _ else _)
    have locked : Ends id (dispatchLocked calendar job.taskId) _ := ends_dispatchLocked
    by_cases own : job.taskId = id
    · rw [Role.attemptingIf, if_pos own] at locked
      rw [if_pos own]
      split
      · exact ⟨congrArg _ own, fun _ _ => locked⟩
      · exact locked
    · rw [Role.attemptingIf, if_neg own] at locked
      rw [if_neg own]
      split
      · exact ⟨⟨own, fun attempt => attempt⟩, fun _ _ => locked⟩
      · exact locked

theorem ends_rearmRegistrationTask (position : Nat) :
    Ends id (rearmRegistrationTask position) (.fresh (.rearmRegistrationTask position)) := by
  refine ⟨rfl, fun answer _ => ?_⟩
  cases answer with
  | none => exact rfl
  | some task =>
    change Ends id _ (if task.id = id then .registering else .idle)
    refine follows_ask _ (aimed (fun own => own) fun foreign => foreign) fun placed _ => ?_
    rcases placed with _ | (error | _ | uuid)
    · exact ite_self _
    · exact ite_self _
    · exact ite_self _
    · refine follows_ask (.registered uuid)
        (aimed (congrArg (insertJobId · uuid)) fun foreign => foreign) fun previous _ => ?_
      cases previous with
      | none => exact ite_self _
      | some previous =>
        exact follows_ask (.replacing previous) (aimed (fun _ => rfl) fun _ => trivial)
          fun _ _ => ite_self _

/-! ### Pausing and resuming -/

theorem ends_commitCandidate {own : Prop} [Decidable own] (role : Role)
    (about : own → role.permits id (.commitJob candidate)) (foreign : ¬own → candidate.id ≠ id)
    (led : role.next id (.commitJob candidate) () = .idle) :
    Ends id (commitCandidate candidate) (if own then role else .idle) := by
  refine follows_ask _ (aimed about foreign) fun _ _ => ?_
  rw [led, ite_self]
  exact ⟨unconcerned, fun _ _ => rfl⟩

theorem ends_setJobEnabled (enabled : Bool) :
    Ends id (setJobEnabled calendar other enabled) (.fresh (.setJobEnabled other enabled)) := by
  refine ⟨rfl, fun answer can => ?_⟩
  cases answer with
  | none => exact rfl
  | some current =>
    have same : current.id = other := can current rfl
    have foreign (different : ¬other = id) : current.id ≠ id := fun clash =>
      different (same.symm.trans clash)
    change Ends id (if current.enabled = enabled then _ else _)
      (if other ≠ id ∨ current.enabled = enabled then .idle else _)
    by_cases unchanged : current.enabled = enabled
    · rw [if_pos unchanged, if_pos (.inr unchanged)]
      exact rfl
    · simp only [unchanged, or_false, ite_not, if_false]
      cases enabled with
      | true =>
        change Ends id _ (if other = id then .resuming current else .idle)
        refine follows_ask _ (aimed (fun _ => rfl) fun _ => trivial) fun now _ => ?_
        refine follows_ask (.resuming current) (aimed (fun _ => rfl) fun _ => trivial)
          fun updatedAt _ => ?_
        refine follows_ask (.resuming current)
          (aimed (fun own => ⟨same.trans own, rfl, rfl⟩) foreign) fun placed _ => ?_
        rcases placed with _ | (error | _ | uuid)
        · exact ends_commitCandidate _ (fun own => ⟨rfl, same.trans own⟩) foreign rfl
        · exact ite_self _
        · exact ends_commitCandidate _ (fun own => ⟨rfl, same.trans own⟩) foreign rfl
        · exact follows_ask (.inserting _ uuid)
            (aimed (fun own => congrArg (insertJobId · uuid) (same.trans own)) foreign)
            fun _ _ => ends_commitCandidate _ (fun own => ⟨rfl, same.trans own⟩) foreign rfl
      | false =>
        change Ends id _ (if other = id then .pausing current else .idle)
        refine follows_ask _ (aimed (fun _ => .inl rfl) fun _ => trivial) fun updatedAt _ => ?_
        refine follows_ask (.pausing current)
          (aimed (fun own => .inr (congrArg readRuntimeJobId own)) fun _ => trivial)
          fun found _ => ?_
        cases found with
        | none =>
          refine follows_ask (.forgetting current) (aimed (congrArg forgetJobId) fun foreign => foreign)
            fun _ _ => ?_
          exact ends_commitCandidate (.paused current)
            (fun own => ⟨same.trans own, rfl, rfl, rfl⟩) foreign rfl
        | some uuid =>
          refine follows_ask (.unregistering current uuid) (aimed (fun _ => rfl) fun _ => trivial)
            fun _ _ => ?_
          refine follows_ask (.forgetting current) (aimed (congrArg forgetJobId) fun foreign => foreign)
            fun _ _ => ?_
          exact ends_commitCandidate (.paused current)
            (fun own => ⟨same.trans own, rfl, rfl, rfl⟩) foreign rfl

theorem ends_program (call : SchedulerCall) : Ends id (call.program calendar) (.fresh call) := by
  cases call with
  | firing uuid => exact ends_firing uuid
  | rearmRegistrationTask position => exact ends_rearmRegistrationTask position
  | setJobEnabled other enabled =>
    exact (ends_setJobEnabled enabled).seq fun _ => rfl
  | dispatchWithGuardFrom other source =>
    refine ⟨rfl, fun answer can => ?_⟩
    have led : (concerning id).next (.fresh (.dispatchWithGuardFrom other source)) (.readJob other)
        answer = if other = id ∧ source = .scheduled ∧ answer.isSome then .attempting else .idle :=
      rfl
    rw [led]
    cases answer with
    | none =>
      rw [if_neg (by simp)]
      exact rfl
    | some task =>
      simp only [Option.isSome_some, and_true]
      exact (ends_attemptTask (can task rfl)).seq fun _ => rfl

end Follows

/-! ## Steps -/

def armedFor (id : Uuid) (service : SchedulerService) : List RuntimeJob :=
  (service.jobScheduler.getD []).filter fun entry => entry.taskId = id

/-- The registration tasks that were spawned for a task and have not begun. -/
def waitingFor (id : Uuid) (service : SchedulerService) : List ScheduledTask :=
  service.detached.filter fun task => task.id = id

/-- The job is registered with the service, and watched. -/
def Watches (id : Uuid) (service : SchedulerService) (roles : Index → Role) : Prop :=
  ∃ job, service.jobMetadata id = some job ∧
    Watched job (armedFor id service) (service.schedulerJobIds id) (waitingFor id service) roles

theorem ScheduledTask.executionStarted_unplanned {task : ScheduledTask}
    {startedAt now : Instant} {outcome : DispatchOutcome} (paused : task.enabled = false)
    (unplanned : task.nextExecution = none) :
    (task.executionStarted calendar startedAt outcome now).nextExecution = none := by
  unfold executionStarted
  split
  · simp [paused]
  · exact unplanned

namespace SchedulerService

variable {service : SchedulerService}

theorem changeJob_of_ne {change : ScheduledTask → Option ScheduledTask}
    (keeps : ∀ task changed, change task = some changed → changed.id = task.id)
    (different : other ≠ id) :
    (service.changeJob other change).2.jobMetadata id = service.jobMetadata id := by
  cases changed : (service.jobMetadata other).bind change with
  | none => rw [changeJob_of_absent changed]
  | some task =>
    obtain ⟨stored, found, became⟩ := Option.bind_eq_some_iff.mp changed
    have same : task.id = other := (keeps stored task became).trans (service.keyed other stored found)
    rw [changeJob_of_changed changed, withJob_jobMetadata, same,
      update_of_ne different.symm]

theorem changeJob_rest (service : SchedulerService) (id other : Uuid)
    (change : ScheduledTask → Option ScheduledTask) :
    armedFor id (service.changeJob other change).2 = armedFor id service ∧
      (service.changeJob other change).2.schedulerJobIds = service.schedulerJobIds ∧
      waitingFor id (service.changeJob other change).2 = waitingFor id service := by
  cases changed : (service.jobMetadata other).bind change with
  | none =>
    rw [changeJob_of_absent changed]
    exact ⟨rfl, rfl, rfl⟩
  | some task =>
    rw [changeJob_of_changed changed]
    exact ⟨rfl, rfl, rfl⟩

variable {shape : Except EngineError (Option (Option Instant))} {added : Except EngineError Unit}

theorem register_rest (service : SchedulerService) (id taskId : Uuid)
    (shape : Except EngineError (Option (Option Instant)))
    (added : Except EngineError Unit) :
    (service.register taskId shape added).2.jobMetadata = service.jobMetadata ∧
      (service.register taskId shape added).2.schedulerJobIds = service.schedulerJobIds ∧
      waitingFor id (service.register taskId shape added).2 = waitingFor id service := by
  unfold register
  split <;> exact ⟨rfl, rfl, rfl⟩

/-- A registration adds a job of its task, or none. -/
theorem register_cases (service : SchedulerService) (taskId : Uuid)
    (shape : Except EngineError (Option (Option Instant))) (added : Except EngineError Unit) :
    (∃ uuid fireAt, shape = .ok (some fireAt) ∧
      (service.register taskId shape added).1 = some (.ok (some uuid)) ∧
      ∀ id, armedFor id (service.register taskId shape added).2 =
        armedFor id service ++ if taskId = id then [⟨uuid, taskId, fireAt⟩] else []) ∨
    (∀ uuid, (service.register taskId shape added).1 ≠ some (.ok (some uuid))) ∧
      ∀ id, armedFor id (service.register taskId shape added).2 = armedFor id service := by
  unfold register
  split
  · exact .inr ⟨fun _ => nofun, fun _ => rfl⟩
  · rename_i jobs running
    have none (placed : placedJobs (placeJob service.freshUuid taskId added shape) = [])
        (id : Uuid) : armedFor id { service with
          jobScheduler :=
            some (jobs ++ placedJobs (placeJob service.freshUuid taskId added shape))
          freshUuid := service.freshUuid + 1 } = armedFor id service := by
      simp [armedFor, running, placed]
    rcases shape with error | _ | fireAt
    · exact .inr ⟨fun _ => nofun, none rfl⟩
    · exact .inr ⟨fun _ => nofun, none rfl⟩
    · cases added with
      | error error => exact .inr ⟨fun _ => nofun, none rfl⟩
      | ok done =>
        refine .inl ⟨service.freshUuid, fireAt, rfl, rfl, fun id => ?_⟩
        by_cases own : taskId = id <;>
          simp [armedFor, running, placeJob, placedJobs, Except.map, own]

theorem armedFor_register {taskId : Uuid} (different : taskId ≠ id) :
    armedFor id (service.register taskId shape added).2 = armedFor id service := by
  rcases service.register_cases taskId shape added with ⟨_, _, -, -, armed⟩ | ⟨-, armed⟩
  · rw [armed, if_neg different, append_nil]
  · exact armed id

theorem armedFor_remove (service : SchedulerService) (id : Uuid) (uuid : JobUuid) :
    (armedFor id (service.withoutRuntimeJob uuid)).Sublist (armedFor id service) ∧
      ∀ entry ∈ armedFor id (service.withoutRuntimeJob uuid), entry.uuid ≠ uuid := by
  unfold armedFor withoutRuntimeJob
  cases service.jobScheduler with
  | none => exact ⟨Sublist.refl _, fun _ member => by simp at member⟩
  | some jobs =>
    refine ⟨Sublist.filter _ filter_sublist, fun entry member => ?_⟩
    simp only [Option.map_some, Option.getD_some, mem_filter] at member
    simpa using member.1.2

end SchedulerService

/-- The job is as it was where pausing matters, but a registration may be gone. -/
def Undisturbed (id : Uuid) (job : ScheduledTask) (service next : SchedulerService) : Prop :=
  ∃ after, next.jobMetadata id = some after ∧ after.cronExpression = job.cronExpression ∧
    after.enabled = job.enabled ∧
    (job.enabled = false → job.nextExecution = none → after.nextExecution = none) ∧
    (armedFor id next).Sublist (armedFor id service) ∧
    next.schedulerJobIds id = service.schedulerJobIds id ∧
    waitingFor id next = waitingFor id service

theorem SchedulerOperation.Steady.execute {operation : SchedulerOperation}
    (steady : operation.Steady id) (calendar : Calendar) (database : Database) (input : Surroundings)
    {service : SchedulerService} {job : ScheduledTask} (found : service.jobMetadata id = some job) :
    Undisturbed id job service (service.execute calendar database input operation).2 := by
  have unchanged : ∀ next : SchedulerService, next.jobMetadata id = service.jobMetadata id →
      armedFor id next = armedFor id service →
      next.schedulerJobIds id = service.schedulerJobIds id →
      waitingFor id next = waitingFor id service →
      Undisturbed id job service next :=
    fun next jobs armed ids waiting => ⟨job, jobs.trans found, rfl, rfl, fun _ unplanned => unplanned,
      armed ▸ Sublist.refl _, ids, waiting⟩
  cases operation with
  | clock | newUuid | readJob _ | store _ | pushHistory _ | nextWindowOpening | tryAcquire _
  | dispatch _ _ | readRuntimeJobId _ => exact unchanged _ rfl rfl rfl rfl
  | startExecution other startedAt outcome =>
    obtain ⟨armed, ids, waiting⟩ := service.changeJob_rest id other fun task =>
      some (task.executionStarted calendar startedAt outcome input.now)
    by_cases own : other = id
    · subst own
      have changed : (service.jobMetadata other).bind (fun task =>
          some (task.executionStarted calendar startedAt outcome input.now)) =
            some (job.executionStarted calendar startedAt outcome input.now) := by
        rw [found]
        rfl
      refine ⟨job.executionStarted calendar startedAt outcome input.now, ?_, by simp, by simp,
        executionStarted_unplanned, armed ▸ Sublist.refl _, congrFun ids other,
        waiting⟩
      change (service.changeJob other _).2.jobMetadata other = _
      rw [SchedulerService.changeJob_of_changed changed, SchedulerService.withJob_jobMetadata,
        executionStarted_id, service.keyed other job found, update_self]
    · refine unchanged _ ?_ armed (congrFun ids id) waiting
      refine SchedulerService.changeJob_of_ne (fun task changed became => ?_) own
      cases became
      exact executionStarted_id
  | rearmJob other when_ =>
    obtain ⟨armed, ids, waiting⟩ := service.changeJob_rest id other fun task =>
        if task.isOneShot then some (task.rearmed when_ input.now) else none
    refine unchanged _ ?_ armed (congrFun ids id) waiting
    refine SchedulerService.changeJob_of_ne (fun task changed became => ?_) steady
    split at became
    · cases became
      rfl
    · cases became
  | commitJob task =>
    obtain ⟨armed, ids, waiting⟩ := service.changeJob_rest id task.id fun _ => some task
    refine unchanged _ ?_ armed (congrFun ids id) waiting
    cases present : service.jobMetadata task.id with
    | none =>
      have absent : (service.jobMetadata task.id).bind (fun _ => some task) = none := by
        rw [present]
        rfl
      change (service.changeJob task.id _).2.jobMetadata id = _
      rw [SchedulerService.changeJob_of_absent absent]
    | some stored =>
      have changed : (service.jobMetadata task.id).bind (fun _ => some task) = some task := by
        rw [present]
        rfl
      change (service.changeJob task.id _).2.jobMetadata id = _
      rw [SchedulerService.changeJob_of_changed changed, SchedulerService.withJob_jobMetadata,
        update_of_ne fun clash => steady clash.symm]
  | registerRuntimeJob task | registerOneShot task =>
    obtain ⟨jobs, ids, waiting⟩ := service.register_rest id task.id _ input.added
    exact unchanged _ (congrFun jobs id) (SchedulerService.armedFor_register steady) (congrFun ids id)
      waiting
  | insertJobId other uuid | forgetJobId other =>
    exact unchanged _ rfl rfl (update_of_ne (Ne.symm steady) _ _) rfl
  | spawnRegistration task =>
    refine unchanged _ rfl rfl rfl ?_
    have foreign : decide (task.id = id) = false := decide_eq_false steady
    simp [waitingFor, SchedulerService.execute, foreign]
  | removeRuntimeJob uuid =>
    cases removed : input.removed with
    | error error =>
      have served : (service.execute calendar database input (.removeRuntimeJob uuid)).2 =
          service := by
        simp only [SchedulerService.execute, removed]
      rw [served]
      exact unchanged service rfl rfl rfl rfl
    | ok done =>
      have served : (service.execute calendar database input (.removeRuntimeJob uuid)).2 =
          service.withoutRuntimeJob uuid := by
        simp only [SchedulerService.execute, removed]
      rw [served]
      exact ⟨job, found, rfl, rfl, fun _ unplanned => unplanned,
        (service.armedFor_remove id uuid).1, rfl, rfl⟩
  | _ => exact steady.elim

section Waiting

variable {service : SchedulerService} {position : Nat} {task : ScheduledTask}

section

variable (taken : service.detached[position]? = some task)

include taken

theorem detached_split : ∃ before after, service.detached = before ++ task :: after ∧
      service.detached.eraseIdx position = before ++ after := by
  obtain ⟨within, rfl⟩ := List.getElem?_eq_some_iff.mp taken
  refine ⟨service.detached.take position, service.detached.drop (position + 1), ?_,
    eraseIdx_eq_take_drop_succ _ _⟩
  rw [← drop_eq_getElem_cons within, take_append_drop]

theorem waitingFor_eraseIdx_of_ne (foreign : task.id ≠ id) :
    waitingFor id { service with detached := service.detached.eraseIdx position } =
      waitingFor id service := by
  obtain ⟨before, after, split, left⟩ := detached_split taken
  simp only [waitingFor, left]
  simp [split, foreign]

theorem waitingFor_eraseIdx_of_eq (own : task.id = id) :
    (waitingFor id { service with detached := service.detached.eraseIdx position }).length <
      (waitingFor id service).length := by
  obtain ⟨before, after, split, left⟩ := detached_split taken
  simp only [waitingFor, left]
  simp [split, own]

end

end Waiting

theorem ScheduledTask.runtimeShape_recurs {task : ScheduledTask} {now : Instant}
    {fireAt : Option Instant} (shape : task.runtimeShape now = .ok (some fireAt)) :
    fireAt = none ↔ task.cronExpression ≠ none := by
  unfold runtimeShape at shape
  cases cron : task.cronExpression with
  | some expression =>
    rw [cron] at shape
    cases shape
    simp
  | none =>
    rw [cron, if_neg (by simp)] at shape
    split at shape
    · simp only [ne_eq, not_true, iff_false]
      rintro rfl
      unfold oneShotShape at shape
      split at shape <;> simp at shape
    · cases shape

/-- The call drops a registration. -/
def Role.drops : Role → Bool
  | unregistering _ _ | replacing _ => true
  | _ => false

namespace Watches

variable [DecidableEq Index] {service : SchedulerService} {roles : Index → Role} {index : Index}
  {operation : SchedulerOperation} {input : Surroundings}

theorem commit (watches : Watches id service roles) (own : candidate.id = id) {role : Role}
    (watched : ∀ job, service.jobMetadata id = some job →
      Watched job (armedFor id service) (service.schedulerJobIds id)
        (waitingFor id service) roles →
        Watched candidate (armedFor id service) (service.schedulerJobIds id)
          (waitingFor id service) (update roles index role)) :
    Watches id (service.execute calendar database input (.commitJob candidate)).2
      (update roles index role) := by
  obtain ⟨job, found, before⟩ := watches
  have changed : (service.jobMetadata candidate.id).bind (fun _ => some candidate) =
      some candidate := by
    rw [own, found]
    rfl
  have served : (service.execute calendar database input (.commitJob candidate)).2 =
      service.withJob candidate :=
    congrArg Prod.snd (SchedulerService.changeJob_of_changed changed)
  rw [served]
  refine ⟨candidate, ?_, watched job found before⟩
  rw [SchedulerService.withJob_jobMetadata, own, update_self]

theorem served_remove {uuid : JobUuid} (removed : input.removed = .ok ()) :
    service.execute calendar database input (.removeRuntimeJob uuid) =
      (.ok (), service.withoutRuntimeJob uuid) := by
  simp only [SchedulerService.execute, removed]

variable (watches : Watches id service roles) (apart : Apart (waitingFor id service) roles)

include watches apart

theorem rest (steady : operation.Steady id) {role : Role}
    (led : role = roles index ∨ role = .idle ∧ (roles index).settles = none ∧
      (roles index).revives = false) :
    Watches id (service.execute calendar database input operation).2
      (update roles index role) := by
  obtain ⟨job, found, watched⟩ := watches
  obtain ⟨after, registered, cron, enabled, stays, fewer, ids, waiting⟩ :=
    steady.execute calendar database input found
  have calm := watched.calm cron enabled stays fewer
  refine ⟨after, registered, ?_⟩
  rw [ids, waiting]
  rcases led with rfl | ⟨rfl, settles, revives⟩
  · rwa [update_eq_self]
  · exact calm.leave apart settles revives

variable (id calendar database input service roles index operation) in
/-- The job is watched after the operation as well, with the role that the call then has. -/
abbrev Serves (role : Role) : Prop :=
  let next := service.execute calendar database input operation
  Watches id next.2 (update roles index (role.next id operation next.1))

/-- The first operation of a call. -/
theorem begin {call : SchedulerCall} (here : roles index = .fresh call)
    (permitted : (Role.fresh call).permits id operation)
    (unscheduled : call ≠ .dispatchWithGuardFrom id .scheduled) :
    Serves calendar database id service roles index operation input (.fresh call) := by
  have settles : (roles index).settles = none := by rw [here]; rfl
  have revives : (roles index).revives = false := by rw [here]; rfl
  cases call with
  | setJobEnabled other enabled =>
    cases permitted
    obtain ⟨job, found, watched⟩ := watches
    refine ⟨job, found, ?_⟩
    change Watched job _ _ _ (update roles index
      (Role.ofToggle id other enabled (service.jobMetadata other)))
    cases present : service.jobMetadata other with
    | none => exact watched.leave apart settles revives
    | some current =>
      unfold Role.ofToggle
      dsimp only
      split
      · exact watched.leave apart settles revives
      · rename_i changes
        push Not at changes
        obtain ⟨own, different⟩ := changes
        rw [own, found, Option.some.injEq] at present
        subst present
        cases enabled with
        | true => exact watched.resume apart here (by simpa using different)
        | false => exact watched.pause apart here
  | dispatchWithGuardFrom other source =>
    cases permitted
    have spared : ¬ (other = id ∧ source = .scheduled ∧ (service.jobMetadata other).isSome) := by
      rintro ⟨rfl, rfl, -⟩
      exact unscheduled rfl
    obtain ⟨job, found, watched⟩ := watches
    refine ⟨job, found, ?_⟩
    change Watched job _ _ _ (update roles index
      (if other = id ∧ source = .scheduled ∧ (service.jobMetadata other).isSome then _ else _))
    rw [if_neg spared]
    exact watched.leave apart settles revives
  | firing uuid =>
    cases permitted
    obtain ⟨job, found, watched⟩ := watches
    have nothing := watched.leave apart settles revives
    change Watches id (service.fire uuid input.now).2
      (update roles index (Role.ofFired id (service.fire uuid input.now).1))
    unfold SchedulerService.fire
    split
    · exact ⟨job, found, nothing⟩
    · rename_i entry due
      obtain ⟨member, isDue⟩ := mem_of_find?_eq_some due, find?_some due
      have sameUuid : entry.uuid = uuid := by
        have both := find?_some due
        rw [Bool.and_eq_true, beq_iff_eq] at both
        exact both.1
      have removed := service.armedFor_remove id uuid
      unfold Role.ofFired
      dsimp only
      by_cases own : entry.taskId = id
      · have armed : entry ∈ armedFor id service := mem_filter.mpr ⟨member, by simpa using own⟩
        rw [if_pos own]
        split
        · rename_i once
          refine ⟨job, found, watched.fireOnce apart here armed ?_ removed.1 ?_⟩
          · exact Option.isSome_iff_ne_none.mp once
          · exact fun still => removed.2 entry still sameUuid
        · rename_i cron
          exact ⟨job, found, watched.fireCron apart here armed (by simpa using cron)⟩
      · rw [if_neg own]
        split
        · exact ⟨job, found, (watched.calm rfl rfl (fun _ unplanned => unplanned) removed.1).leave
            apart settles revives⟩
        · exact ⟨job, found, nothing⟩
  | rearmRegistrationTask position =>
    cases permitted
    obtain ⟨job, found, watched⟩ := watches
    cases taken : service.detached[position]? with
    | none =>
      have served : service.execute calendar database input (.takeRegistration position) =
          (none, service) := by
        simp only [SchedulerService.execute, taken]
        rw [eraseIdx_of_length_le (getElem?_eq_none_iff.mp taken)]
      rw [Serves, served]
      exact ⟨job, found, watched.leave apart settles revives⟩
    | some task =>
      have served : service.execute calendar database input (.takeRegistration position) =
          (some task, { service with detached := service.detached.eraseIdx position }) := by
        simp only [SchedulerService.execute, taken]
      rw [Serves, served]
      change Watches id _ (update roles index (if task.id = id then _ else _))
      split
      · rename_i own
        exact ⟨job, found, watched.take apart here (waitingFor_eraseIdx_of_eq taken own)⟩
      · rename_i foreign
        refine ⟨job, found, ?_⟩
        change Watched job _ _ (waitingFor id
          { service with detached := service.detached.eraseIdx position }) _
        rw [waitingFor_eraseIdx_of_ne taken foreign]
        exact watched.leave apart settles revives

theorem rearm (here : roles index = .attempting) (when_ : Instant) :
    Serves calendar database id service roles index (.rearmJob id when_) input .attempting := by
  obtain ⟨job, found, watched⟩ := watches
  by_cases oneShot : job.isOneShot
  · have changed : (service.jobMetadata id).bind (fun task =>
        if task.isOneShot then some (task.rearmed when_ input.now) else none) =
          some (job.rearmed when_ input.now) := by
      rw [found, Option.bind_some, if_pos oneShot]
    have served : service.execute calendar database input (.rearmJob id when_) =
        (some (job.rearmed when_ input.now), service.withJob (job.rearmed when_ input.now)) :=
      SchedulerService.changeJob_of_changed changed
    rw [Serves, served]
    refine ⟨job.rearmed when_ input.now, ?_, ?_⟩
    · rw [SchedulerService.withJob_jobMetadata, rearmed_id, service.keyed id job found,
        update_self]
    · refine watched.rearm apart here ?_ rfl rfl
      exact Option.isNone_iff_eq_none.mp (Bool.and_eq_true _ _ ▸ oneShot).2
  · have absent : (service.jobMetadata id).bind (fun task =>
        if task.isOneShot then some (task.rearmed when_ input.now) else none) = none := by
      rw [found, Option.bind_some, if_neg oneShot]
    have served : service.execute calendar database input (.rearmJob id when_) = (none, service) :=
      SchedulerService.changeJob_of_absent absent
    rw [Serves, served]
    exact ⟨job, found, watched.leave apart (by rw [here]; rfl) (by rw [here]; rfl)⟩

omit watches apart in
theorem register {job : ScheduledTask} (found : service.jobMetadata id = some job)
    {shape : Except EngineError (Option (Option Instant))} {added : Except EngineError Unit}
    (role : Option (Except EngineError (Option JobUuid)) → Role)
    (placed : ∀ uuid fireAt, shape = .ok (some fireAt) →
      Watched job (armedFor id service ++ [⟨uuid, id, fireAt⟩]) (service.schedulerJobIds id)
        (waitingFor id service) (update roles index (role (some (.ok (some uuid))))))
    (nothing : ∀ answer, (∀ uuid, answer ≠ some (.ok (some uuid))) →
      Watched job (armedFor id service) (service.schedulerJobIds id) (waitingFor id service)
        (update roles index (role answer))) :
    Watches id (service.register id shape added).2
      (update roles index (role (service.register id shape added).1)) := by
  obtain ⟨jobs, ids, waiting⟩ := service.register_rest id id shape added
  refine ⟨job, (congrFun jobs id).trans found, ?_⟩
  rw [congrFun ids, waiting]
  rcases service.register_cases id shape added with
    ⟨uuid, fireAt, shaped, registered, armed⟩ | ⟨none, armed⟩
  · rw [registered, armed, if_pos rfl]
    exact placed uuid fireAt shaped
  · rw [armed]
    exact nothing _ none

theorem registerOneShot (here : roles index = .registering) {task : ScheduledTask}
    (own : task.id = id) :
    Serves calendar database id service roles index (.registerOneShot task) input .registering := by
  obtain ⟨job, found, watched⟩ := watches
  subst own
  refine register found (Role.registering.next task.id (.registerOneShot task))
    (fun uuid fireAt shape => ?_) fun answer nothing => ?_
  · refine watched.arm apart here ⟨uuid, task.id, fireAt⟩ ?_
    unfold oneShotShape at shape
    split at shape
    · cases shape
    · rintro rfl
      simp at shape
  · have led : Role.registering.next task.id (.registerOneShot task) answer = .idle := by
      rcases answer with _ | (error | _ | uuid)
      · rfl
      · rfl
      · rfl
      · exact absurd rfl (nothing uuid)
    rw [led]
    exact watched.leave apart (by rw [here]; rfl) (by rw [here]; rfl)

/-- An operation of an attempt, or of the registration that follows it. -/
theorem attempt (permitted : (roles index).permits id operation) (inFlight : (roles index).inFlight)
    (removes : (roles index).drops → input.removed = .ok ()) :
    Serves calendar database id service roles index operation input (roles index) := by
  cases here : roles index with
  | consumed =>
    rw [here] at permitted
    cases permitted
    obtain ⟨job, found, watched⟩ := watches
    refine ⟨job, found, ?_⟩
    change Watched job _ (update service.schedulerJobIds id none id) _ _
    rw [update_self]
    exact watched.forgetConsumed here
  | attempting =>
    rw [here] at permitted
    by_cases rearming : ∃ other when_, operation = .rearmJob other when_
    · obtain ⟨other, when_, rfl⟩ := rearming
      cases permitted
      exact watches.rearm apart here when_
    · have others : ∀ other when_, operation ≠ .rearmJob other when_ :=
        fun other when_ same => rearming ⟨other, when_, same⟩
      have steady : operation.Steady id := by
        cases operation with
        | rearmJob other when_ => exact absurd rfl (others other when_)
        | _ => exact permitted
      refine watches.rest apart steady ?_
      rw [here]
      rcases Role.next_attempting id others
        (service.execute calendar database input operation).1 with led | led
      · exact .inl led
      · exact .inr ⟨led, rfl, rfl⟩
  | rearmed =>
    rw [here] at permitted
    cases operation with
    | store call =>
      have steady : (store call).Steady id := trivial
      exact watches.rest apart steady (.inl here.symm)
    | spawnRegistration task =>
      obtain ⟨job, found, watched⟩ := watches
      refine ⟨job, found, ?_⟩
      have waiting : waitingFor id (service.execute calendar database input
          (.spawnRegistration task)).2 = waitingFor id service ++ [task] := by
        have own : task.id = id := permitted
        simp [waitingFor, SchedulerService.execute, own]
      rw [waiting]
      exact watched.spawn apart here task
    | _ => exact permitted.elim
  | registering =>
    rw [here] at permitted
    cases operation with
    | registerOneShot task => exact watches.registerOneShot apart here permitted
    | _ => exact permitted.elim
  | registered uuid =>
    rw [here] at permitted
    cases permitted
    obtain ⟨job, found, watched⟩ := watches
    refine ⟨job, found, ?_⟩
    change Watched job _ (update service.schedulerJobIds id (some uuid) id) _
      (update roles index
        ((Role.registered uuid).next id (.insertJobId id uuid) (service.schedulerJobIds id)))
    rw [update_self]
    have inserted := watched.insert apart here
    cases known : service.schedulerJobIds id <;> rwa [known] at inserted
  | replacing uuid =>
    rw [here] at permitted
    cases permitted
    obtain ⟨job, found, watched⟩ := watches
    rw [Serves, served_remove (removes (by rw [here]; rfl))]
    obtain ⟨fewer, gone⟩ := service.armedFor_remove id uuid
    exact ⟨job, found, watched.replace apart here fewer gone⟩
  | _ =>
    rw [here] at inFlight
    cases inFlight

theorem registerRevived {current : ScheduledTask} (here : roles index = .resuming current)
    (own : candidate.id = id) (cron : candidate.cronExpression = current.cronExpression)
    (enabled : candidate.enabled) :
    Serves calendar database id service roles index (.registerRuntimeJob candidate) input
      (.resuming current) := by
  obtain ⟨job, found, watched⟩ := watches
  subst own
  refine register found ((Role.resuming current).next candidate.id
    (.registerRuntimeJob candidate)) (fun uuid fireAt shape => ?_)
    fun answer nothing => ?_
  · exact watched.revive apart here ⟨uuid, candidate.id, fireAt⟩ cron enabled
      (runtimeShape_recurs shape)
  · rcases answer with _ | (error | _ | uuid)
    · exact watched.reviveIdle apart here cron enabled
    · exact watched.leave apart (by rw [here]; rfl) (by rw [here]; rfl)
    · exact watched.reviveIdle apart here cron enabled
    · exact absurd rfl (nothing uuid)

/-- An operation of a call that pauses or resumes the job. -/
theorem toggle (permitted : (roles index).permits id operation) (toggles : (roles index).toggles)
    (removes : (roles index).drops → input.removed = .ok ()) :
    Serves calendar database id service roles index operation input (roles index) := by
  cases here : roles index with
  | resuming current =>
    rw [here] at permitted
    cases operation with
    | registerRuntimeJob candidate =>
      exact watches.registerRevived apart here permitted.1 permitted.2.1 permitted.2.2
    | clock =>
      have steady : clock.Steady id := trivial
      exact watches.rest apart steady (.inl here.symm)
    | _ => cases permitted
  | inserting candidate uuid =>
    rw [here] at permitted
    cases permitted
    obtain ⟨job, found, watched⟩ := watches
    refine ⟨job, found, ?_⟩
    change Watched job _ (update service.schedulerJobIds id (some uuid) id) _ _
    rw [update_self]
    exact watched.insertRevived apart here
  | resumed candidate =>
    rw [here] at permitted
    obtain ⟨rfl, own⟩ := permitted
    exact watches.commit own fun _ _ watched => watched.commitRevived apart here
  | pausing current =>
    rw [here] at permitted
    rcases permitted with rfl | rfl
    · have steady : clock.Steady id := trivial
      exact watches.rest apart steady (.inl here.symm)
    · obtain ⟨job, found, watched⟩ := watches
      refine ⟨job, found, ?_⟩
      have looked := watched.lookUp apart here
        (service.jobScheduler.bind fun _ => service.schedulerJobIds id) ?_
      · change Watched job _ _ _ (update roles index
          ((Role.pausing current).next id (.readRuntimeJobId id)
            (service.jobScheduler.bind fun _ => service.schedulerJobIds id)))
        cases known : service.jobScheduler.bind fun _ => service.schedulerJobIds id <;>
          rwa [known] at looked
      · cases running : service.jobScheduler with
        | none =>
          right
          simp [armedFor, running]
        | some jobs => exact .inl rfl
  | unregistering current uuid =>
    rw [here] at permitted
    cases permitted
    obtain ⟨job, found, watched⟩ := watches
    rw [Serves, served_remove (removes (by rw [here]; rfl))]
    obtain ⟨fewer, gone⟩ := service.armedFor_remove id uuid
    exact ⟨job, found, watched.unregister apart here fewer gone⟩
  | forgetting current =>
    rw [here] at permitted
    cases permitted
    obtain ⟨job, found, watched⟩ := watches
    refine ⟨job, found, ?_⟩
    change Watched job _ (update service.schedulerJobIds id none id) _ _
    rw [update_self]
    exact watched.forgetPaused apart here
  | paused current =>
    rw [here] at permitted
    cases operation with
    | commitJob candidate =>
      obtain ⟨own, cron, disabled, unplanned⟩ := permitted
      exact watches.commit own fun _ _ watched =>
        watched.commitPaused apart here cron disabled unplanned
    | _ => exact permitted.elim
  | _ =>
    rw [here] at toggles
    cases toggles

/-- What any operation that a role permits preserves. -/
theorem step (permitted : (roles index).permits id operation)
    (unscheduled : ∀ call, roles index = .fresh call → call ≠ .dispatchWithGuardFrom id .scheduled)
    (removes : (roles index).drops → input.removed = .ok ()) :
    Serves calendar database id service roles index operation input (roles index) := by
  cases here : roles index with
  | fresh call => exact watches.begin apart here (here ▸ permitted) (unscheduled call here)
  | idle =>
    rw [here] at permitted
    exact watches.rest apart permitted.1 (.inl here.symm)
  | consumed | attempting | rearmed | registering | registered _ | replacing _ =>
    exact here ▸ watches.attempt apart permitted (by rw [here]; rfl) removes
  | _ => exact here ▸ watches.toggle apart permitted (by rw [here]; rfl) removes

end Watches

/-! ## Runs -/

/-- The service as calls leave it: a registration of the job is remembered and of its kind, and a
job that is paused has none. -/
structure Settled (id : Uuid) (service : SchedulerService) (job : ScheduledTask) : Prop where
  registered : service.jobMetadata id = some job
  remembered : ∀ entry ∈ armedFor id service, service.schedulerJobIds id = some entry.uuid
  recurring : ∀ entry ∈ armedFor id service, entry.fireAt = none ↔ job.cronExpression ≠ none
  once : job.cronExpression = none → (armedFor id service).length ≤ 1
  waiting : waitingFor id service = []
  paused : job.enabled = false → armedFor id service = [] ∧ job.nextExecution = none

/-- The role of each call for the job, from what was served for it. -/
def rolesIn [DecidableEq Index] (id : Uuid) (calls : Index → SchedulerCall)
    (session : SchedulerSession Index) : Index → Role :=
  (concerning id).phase (fun index => .fresh (calls index)) session.log

/-- A move that keeps pausing and resuming apart from attempts: an attempt is a scheduled one
because the runtime scheduler has fired, and a registration that is to be dropped is dropped. -/
structure KeepsApart [DecidableEq Index] (id : Uuid) (calls : Index → SchedulerCall)
    (session : SchedulerSession Index) (move : Index × Surroundings) : Prop where
  apart : Apart (waitingFor id session.store) (rolesIn id calls session)
  fired : ∀ call, rolesIn id calls session move.1 = .fresh call →
    call ≠ .dispatchWithGuardFrom id .scheduled
  drops : (rolesIn id calls session move.1).drops → move.2.removed = .ok ()

/-- No call that pauses or resumes the job is in progress. -/
def Undecided (id : Uuid) (calls : Index → SchedulerCall) (session : SchedulerSession Index) : Prop :=
  ∀ index enabled, calls index = .setJobEnabled id enabled →
    (∀ event ∈ session.log, event.index ≠ index) ∨ ∃ result, session.calls index = .done result

/-- While no call pauses or resumes it, a job that is paused has no next execution and no
registration, and no scheduled attempt of it starts. -/
def StaysPaused (id : Uuid) (calls : Index → SchedulerCall) (session : SchedulerSession Index) :
    Prop :=
  Undecided id calls session → ∀ job, session.store.jobMetadata id = some job →
    job.enabled = false → job.nextExecution = none ∧ armedFor id session.store = [] ∧
      ∀ index task, task.id = id → ¬ session.Asks index (.dispatch .scheduled task)

section Runs

variable [DecidableEq Index] {calls : Index → SchedulerCall} {start : SchedulerService}
  {first : ScheduledTask} {session : SchedulerSession Index} {moves : List (Index × Surroundings)}

theorem underway_attending : (attending calendar calls start).Underway (concerning id)
    possible (fun _ role => role = .idle) fun index => .fresh (calls index) :=
  fun index => ends_program (calls index)

theorem toggles_of_phase {log : List (SchedulerEvent Index)} {index : Index}
    (toggles : ((concerning id).phase (fun index => .fresh (calls index)) log index).toggles) :
    ∃ enabled, calls index = .setJobEnabled id enabled := by
  let origin (role : Role) : Prop := (∀ call, role = .fresh call → call = calls index) ∧
    (role.toggles → ∃ enabled, calls index = .setJobEnabled id enabled)
  suffices known : origin ((concerning id).phase (fun index => .fresh (calls index)) log index) from
    known.2 toggles
  clear toggles
  induction log using reverseRecOn with
  | nil => exact ⟨fun call same => (Role.fresh.inj same).symm, fun toggles => by cases toggles⟩
  | append_singleton log event ih =>
    rw [Protocol.phase_snoc]
    by_cases same : index = event.index
    · subst same
      rw [update_self]
      obtain ⟨fresh, toggling⟩ := Role.next_origin id
        ((concerning id).phase (fun index => .fresh (calls index)) log event.index)
        event.operation event.answer
      refine ⟨fun call here => ih.1 call (fresh call here), fun toggles => ?_⟩
      rcases toggling toggles with before | ⟨enabled, before⟩
      · exact ih.2 before
      · exact ⟨enabled, (ih.1 _ before).symm⟩
    · rwa [update_of_ne same]

omit [DecidableEq Index] in
theorem Settled.watches (settled : Settled id start first) :
    Watches id start fun index => Role.fresh (calls index) := by
  refine ⟨first, settled.registered, ?_⟩
  rw [settled.waiting]
  constructor
  case mapped => exact fun entry member => .inl (settled.remembered entry member)
  case recurring =>
    exact fun cron => ⟨rfl, fun entry member => (settled.recurring entry member).mpr cron,
      fun _ => rfl⟩
  case once =>
    refine fun oneShot => ⟨fun entry member recurs => ?_, settled.once oneShot, by simp [Role.holds],
      by simp [Role.holds]⟩
    exact (settled.recurring entry member).mp recurs oneShot
  case quiet =>
    exact fun paused => .inl ⟨(settled.paused paused).1, rfl, (settled.paused paused).2, fun _ => rfl⟩
  case cleared => exact fun _ _ _ _ _ => trivial
  all_goals simp [Role.carries, Role.revives]

theorem watches_of_run (settled : Settled id start first)
    (run : Run (servesWhere (SchedulerService.execute calendar database) (KeepsApart id calls))
      (attending calendar calls start) moves session) :
    Watches id session.store (rolesIn id calls session) := by
  let holds (service : SchedulerService) (roles : Index → Role) (_ : List (SchedulerEvent Index)) :
      Prop := Watches id service roles
  have initially : holds start (fun index => .fresh (calls index)) [] := settled.watches
  refine Session.Underway.invariant (SchedulerService.possible_execute calendar database) ?_ run
    underway_attending initially
  intro before index input operation resume _ _ keeps permitted watches _ _
  exact Watches.step watches keeps.apart permitted keeps.fired keeps.drops

/-- As long as pausing and resuming keep apart from attempts, a job that is paused stays paused. -/
theorem staysPaused_of_run (settled : Settled id start first)
    (run : Run (servesWhere (SchedulerService.execute calendar database) (KeepsApart id calls))
      (attending calendar calls start) moves session) : StaysPaused id calls session := by
  intro undecided job registered disabled
  have started : (attending calendar calls start).Underway (concerning id)
      possible (fun _ role => role = .idle) fun index => .fresh (calls index) :=
    underway_attending
  have underway := started.run (SchedulerService.possible_execute calendar database) run
  obtain ⟨found, stored, watched⟩ := watches_of_run settled run
  rw [registered, Option.some.injEq] at stored
  subst stored
  rcases watched.quiet disabled with ⟨disarmed, -, unplanned, idle⟩ | ⟨index, revives⟩
  · refine ⟨unplanned, disarmed, ?_⟩
    rintro index task own ⟨resume, asks⟩
    have inFlight : (rolesIn id calls session index).inFlight :=
      Role.inFlight_of_permits_dispatch own (underway.permits asks)
    rw [idle index] at inFlight
    cases inFlight
  · obtain ⟨enabled, same⟩ := toggles_of_phase (Role.toggles_of_revives revives)
    rcases undecided index enabled same with unserved | ⟨result, returned⟩
    · rw [rolesIn, Protocol.phase_of_unserved _ unserved] at revives
      cases revives
    · rw [rolesIn, underway.final_of_done returned] at revives
      cases revives

end Runs

/-! ## A pause and a firing -/

/-- One call pauses the job, and the runtime scheduler fires it. -/
def pauseAndFire : Bool → SchedulerCall
  | true => .setJobEnabled reviewTask.id false
  | false => .firing 0

def pauseAndFireSession (indices : List Bool) : SchedulerSession Bool :=
  (indices.map fun index => (index, at_ 60000000000 "")).foldl
    (Session.serve (SchedulerService.execute plainCalendar plainDatabase))
    (attending plainCalendar pauseAndFire reviewService)

theorem settled_reviewService : Settled reviewTask.id reviewService reviewTask where
  registered := rfl
  remembered := by decide
  recurring := by decide
  once := by decide
  waiting := rfl
  paused := by decide

instance {waiting : List ScheduledTask} {roles : Bool → Role} : Decidable (Apart waiting roles) :=
  decidable_of_iff ((∀ first second, (roles first).resumes → (roles second).toggles →
      first = second) ∧ ∀ index, (roles index).critical →
      waiting = [] ∧ ∀ other, (roles other).inFlight = false)
    ⟨fun ⟨toggles, critical⟩ => ⟨toggles, critical⟩, fun apart => ⟨apart.toggles, apart.critical⟩⟩

/-- A test of whether a move keeps pausing apart from attempts. -/
def isKeptApart (id : Uuid) (calls : Bool → SchedulerCall) (session : SchedulerSession Bool)
    (move : Bool × Surroundings) : Bool :=
  decide (Apart (waitingFor id session.store) (rolesIn id calls session)) &&
    (match rolesIn id calls session move.1 with
      | .fresh (.dispatchWithGuardFrom _ .scheduled) => false
      | _ => true) &&
    move.2.removed.isOk

theorem keepsApart_of_isKeptApart (id : Uuid) (calls : Bool → SchedulerCall)
    (session : SchedulerSession Bool) (move : Bool × Surroundings)
    (passed : isKeptApart id calls session move) : KeepsApart id calls session move := by
  simp only [isKeptApart, Bool.and_eq_true, decide_eq_true_eq] at passed
  obtain ⟨⟨apart, fired⟩, removed⟩ := passed
  refine ⟨apart, ?_, fun _ => ?_⟩
  · rintro call here rfl
    rw [here] at fired
    cases fired
  · cases result : move.2.removed with
    | error error =>
      rw [result] at removed
      cases removed
    | ok done => rfl

/-- A test of whether a call is about to attempt the job. -/
def isAttempting (id : Uuid) (session : SchedulerSession Bool) (index : Bool) : Bool :=
  match session.calls index with
  | .ask (.dispatch .scheduled task) _ => task.id = id
  | _ => false

theorem asks_of_isAttempting {id : Uuid} {session : SchedulerSession Bool} {index : Bool}
    (passed : isAttempting id session index) :
    ∃ task, task.id = id ∧ session.Asks index (.dispatch .scheduled task) := by
  unfold isAttempting at passed
  split at passed
  · rename_i task resume call
    exact ⟨task, by simpa using passed, resume, call⟩
  · cases passed

/-- The job is paused before it fires. -/
theorem staysPaused_of_run_inTurn : StaysPaused reviewTask.id pauseAndFire
    (pauseAndFireSession [true, true, true, true, true, true, true, false]) := by
  have run : Run (servesWhere (SchedulerService.execute plainCalendar plainDatabase)
      (KeepsApart reviewTask.id pauseAndFire)) (attending plainCalendar pauseAndFire reviewService)
      ([true, true, true, true, true, true, true, false].map fun index =>
        (index, at_ 60000000000 ""))
      (pauseAndFireSession [true, true, true, true, true, true, true, false]) :=
    run_servesWhere (keepsApart_of_isKeptApart reviewTask.id pauseAndFire) (by decide +kernel)
  exact staysPaused_of_run settled_reviewService run

/-- The job has fired before it is paused, and is attempted after that. -/
theorem staysPaused_fails_fired :
    Run (serves (SchedulerService.execute plainCalendar plainDatabase))
      (attending plainCalendar pauseAndFire reviewService)
      ([false, false, true, true, true, true, true, true, false, false, false, false, false].map
        fun index => (index, at_ 60000000000 ""))
      (pauseAndFireSession
        [false, false, true, true, true, true, true, true, false, false, false, false, false]) ∧
    ¬ StaysPaused reviewTask.id pauseAndFire (pauseAndFireSession
      [false, false, true, true, true, true, true, true, false, false, false, false, false]) := by
  refine ⟨run_serves _ _, fun stays => ?_⟩
  have attempted : isAttempting reviewTask.id (pauseAndFireSession
      [false, false, true, true, true, true, true, true, false, false, false, false, false]) false := by
    decide +kernel
  have paused : ((pauseAndFireSession [false, false, true, true, true, true, true, true, false,
      false, false, false, false]).store.jobMetadata reviewTask.id).map (·.enabled) = some false := by
    decide +kernel
  obtain ⟨job, registered, disabled⟩ := Option.map_eq_some_iff.mp paused
  obtain ⟨task, own, asks⟩ := asks_of_isAttempting attempted
  refine (stays ?_ job registered disabled).2.2 false task own asks
  rintro (_ | _) enabled same
  · cases same
  · exact .inr ⟨(), rfl⟩

end UltimateCoders.Scheduler
