import UltimateCoders.Scheduler.Service

/-! # The registrations of one job

Calls that pause, resume, fire and re-arm one job touch its record, its registrations with the
runtime scheduler, the id that is remembered for them, and the registration tasks that were
spawned for it. Each call has a role, which says what it may still do to the job. As long as
pausing and resuming keep apart from attempts, every registration is one that is remembered or
that some call is about to deal with, and a job that is paused has none.
-/

namespace UltimateCoders.Scheduler

universe u

variable {Index : Type u}

/-- A call on the scheduler service, of which some fire and register on their own. -/
inductive SchedulerCall where
  | setJobEnabled (id : Uuid) (enabled : Bool)
  | dispatchWithGuardFrom (id : Uuid) (source : DispatchSource)
  | firing (uuid : JobUuid)
  | rearmRegistrationTask (position : Nat)

/-- What a call may still do to the job: resume it (`resuming` to `resumed`), pause it (`pausing`
to `paused`), attempt and re-arm it (`consumed` to `rearmed`), register it again (`registering` to
`replacing`), or nothing. -/
inductive Role where
  | fresh (call : SchedulerCall)
  | resuming (current : ScheduledTask)
  | inserting (candidate : ScheduledTask) (uuid : JobUuid)
  | resumed (candidate : ScheduledTask)
  | pausing (current : ScheduledTask)
  | unregistering (current : ScheduledTask) (uuid : JobUuid)
  | forgetting (current : ScheduledTask)
  | paused (current : ScheduledTask)
  | consumed
  | attempting
  | rearmed
  | registering
  | registered (uuid : JobUuid)
  | replacing (uuid : JobUuid)
  | idle

open Role Function

namespace Role

/-- The record that a call carries to the registry. -/
@[grind] def carries : Role → Option ScheduledTask
  | resuming current | inserting current _ | resumed current | pausing current
  | unregistering current _ | forgetting current | paused current => some current
  | _ => none

/-- The registration that a call is about to remember, or to drop. -/
@[grind] def settles : Role → Option JobUuid
  | inserting _ uuid | registered uuid | replacing uuid => some uuid
  | _ => none

/-- Roles that only a job without a cron expression gives rise to. -/
@[grind] def rearms : Role → Bool
  | consumed | rearmed | registering | registered _ | replacing _ => true
  | _ => false

/-- The call has what a one-shot has only one of: its next registration. -/
@[grind] def holds : Role → Bool
  | consumed | attempting | rearmed | registering => true
  | _ => false

/-- A scheduled attempt, from the moment it fires to the end of its registration task. -/
@[grind] def inFlight : Role → Bool
  | consumed | attempting | rearmed | registering | registered _ | replacing _ => true
  | _ => false

/-- The job is registered again, and its record is about to say so. -/
@[grind] def revives : Role → Bool
  | inserting _ _ | resumed _ => true
  | _ => false

@[grind] def resumes : Role → Bool
  | resuming _ | inserting _ _ | resumed _ => true
  | _ => false

/-- Pausing or resuming, up to the change of the registry. -/
@[grind] def toggles (role : Role) : Bool := role.carries.isSome

/-- The call has looked at the registration of the job, and has not acted on it yet. -/
@[grind] def critical : Role → Bool
  | inserting _ _ | unregistering _ _ | forgetting _ | paused _ => true
  | _ => false

/-- The registration is one that the call expects. -/
@[grind] def tolerates : Role → RuntimeJob → Prop
  | inserting _ uuid, job | unregistering _ uuid, job => job.uuid = uuid
  | forgetting _, _ | paused _, _ => False
  | _, _ => True

end Role

/-- Resuming does not overlap with pausing or resuming, and no attempt is in flight while a call
acts on the registration that it has looked at. -/
structure Apart (waiting : List ScheduledTask) (roles : Index → Role) : Prop where
  toggles : ∀ first second, (roles first).resumes → (roles second).toggles → first = second
  critical : ∀ index, (roles index).critical →
    waiting = [] ∧ ∀ other, (roles other).inFlight = false

/-- What holds of the record of the job, of the jobs that are armed for it, of the id that is
remembered, of the registration tasks that wait, and of the roles of calls. -/
@[grind cases]
structure Watched (job : ScheduledTask) (armed : List RuntimeJob) (mapping : Option JobUuid)
    (waiting : List ScheduledTask) (roles : Index → Role) : Prop where
  kind : ∀ index current, (roles index).carries = some current →
    current.cronExpression = job.cronExpression
  mapped : ∀ entry ∈ armed, mapping = some entry.uuid ∨
    ∃ index, (roles index).settles = some entry.uuid
  recurring : job.cronExpression ≠ none → waiting = [] ∧ (∀ entry ∈ armed, entry.fireAt = none) ∧
    ∀ index, (roles index).rearms = false
  once : job.cronExpression = none → (∀ entry ∈ armed, entry.fireAt ≠ none) ∧
    armed.length + waiting.length ≤ 1 ∧
    (∀ index, (roles index).holds → armed = [] ∧ waiting = []) ∧
    ∀ first second, (roles first).holds → (roles second).holds → first = second
  quiet : job.enabled = false →
    (armed = [] ∧ waiting = [] ∧ job.nextExecution = none ∧
      ∀ index, (roles index).inFlight = false) ∨ ∃ index, (roles index).revives
  cleared : waiting = [] → (∀ index, (roles index).inFlight = false) →
    ∀ index, ∀ entry ∈ armed, (roles index).tolerates entry
  asleep : ∀ index current, roles index = .resuming current → job.enabled = false
  awake : ∀ index current, (roles index).revives → (roles index).carries = some current →
    current.enabled

namespace Watched

variable [DecidableEq Index] {job next : ScheduledTask} {armed rest : List RuntimeJob}
  {mapping remembered : Option JobUuid} {waiting left : List ScheduledTask} {roles : Index → Role}
  {index : Index} {role : Role}

omit [DecidableEq Index] in
theorem tolerant (watched : Watched job armed mapping waiting roles) (apart : Apart waiting roles)
    (other : Index) : ∀ entry ∈ armed, (roles other).tolerates entry := by
  by_cases critical : (roles other).critical
  · obtain ⟨none, idle⟩ := apart.critical other critical
    exact watched.cleared none idle other
  · intro entry _
    revert critical
    cases roles other <;> simp [critical, tolerates]

/-- What is to be shown of the one role that changes, and of the others. -/
theorem of_update (watched : Watched job armed mapping waiting roles)
    (cron : next.cronExpression = job.cronExpression)
    (kind : ∀ current, role.carries = some current → current.cronExpression = job.cronExpression)
    (mapped : ∀ entry ∈ rest, remembered = some entry.uuid ∨ role.settles = some entry.uuid ∨
      ∃ other, other ≠ index ∧ (roles other).settles = some entry.uuid)
    (recurring : job.cronExpression ≠ none → left = [] ∧ (∀ entry ∈ rest, entry.fireAt = none) ∧
      role.rearms = false)
    (once : job.cronExpression = none → (∀ entry ∈ rest, entry.fireAt ≠ none) ∧
      rest.length + left.length ≤ 1)
    (holds : job.cronExpression = none → role.holds → rest = [] ∧ left = [] ∧
      ∀ other, other ≠ index → (roles other).holds = false)
    (held : job.cronExpression = none → ∀ other, other ≠ index → (roles other).holds →
      rest = [] ∧ left = [])
    (quiet : next.enabled = false →
      (rest = [] ∧ left = [] ∧ next.nextExecution = none ∧ role.inFlight = false ∧
        ∀ other, other ≠ index → (roles other).inFlight = false) ∨
      role.revives ∨ ∃ other, other ≠ index ∧ (roles other).revives)
    (cleared : left = [] → role.inFlight = false →
      (∀ other, other ≠ index → (roles other).inFlight = false) → ∀ entry ∈ rest,
        role.tolerates entry ∧ ∀ other, other ≠ index → (roles other).tolerates entry)
    (asleep : ∀ current, role = .resuming current → next.enabled = false)
    (asleeps : ∀ other, other ≠ index → ∀ current, roles other = .resuming current →
      next.enabled = false)
    (awake : ∀ current, role.revives → role.carries = some current → current.enabled) :
    Watched next rest remembered left (update roles index role) := by
  constructor
  · intro other current
    rw [cron]
    by_cases same : other = index
    · simpa [same] using kind current
    · simpa [same] using watched.kind other current
  · intro entry member
    rcases mapped entry member with known | settled | ⟨other, different, settled⟩
    · exact .inl known
    · exact .inr ⟨index, by simpa using settled⟩
    · exact .inr ⟨other, by simpa [different] using settled⟩
  · intro isCron
    rw [cron] at isCron
    obtain ⟨none, kinds, own⟩ := recurring isCron
    refine ⟨none, kinds, fun other => ?_⟩
    by_cases same : other = index
    · simpa [same] using own
    · simpa [same] using (watched.recurring isCron).2.2 other
  · intro oneShot
    rw [cron] at oneShot
    refine ⟨(once oneShot).1, (once oneShot).2, fun other => ?_, fun first second => ?_⟩
    · by_cases same : other = index
      · subst same
        rw [update_self]
        exact fun here => ⟨(holds oneShot here).1, (holds oneShot here).2.1⟩
      · rw [update_of_ne same]
        exact held oneShot other same
    · have others := (watched.once oneShot).2.2.2 first second
      have own := holds oneShot
      by_cases one : first = index <;> by_cases two : second = index <;>
        grind -ring -linarith [update_apply]
  · intro paused
    rcases quiet paused with ⟨disarmed, none, unplanned, own, others⟩ | revives |
      ⟨other, different, revives⟩
    · refine .inl ⟨disarmed, none, unplanned, fun other => ?_⟩
      by_cases same : other = index
      · simpa [same] using own
      · simpa [same] using others other same
    · exact .inr ⟨index, by simpa using revives⟩
    · exact .inr ⟨other, by simpa [different] using revives⟩
  · intro none idle other entry member
    have all := cleared none (by simpa using idle index)
      (fun other different => by simpa [different] using idle other) entry member
    by_cases same : other = index
    · subst same
      simpa using all.1
    · simpa [same] using all.2 other same
  · intro other current
    by_cases same : other = index
    · simpa [same] using asleep current
    · simpa [same] using asleeps other same current
  · intro other current
    by_cases same : other = index
    · simpa [same] using awake current
    · simpa [same] using watched.awake other current

variable {current : ScheduledTask} {call : SchedulerCall} {candidate : ScheduledTask}

omit [DecidableEq Index] in
theorem rests (watched : Watched job armed mapping waiting roles) (apart : Apart waiting roles)
    (here : roles index = .resuming current) :
    armed = [] ∧ waiting = [] ∧ ∀ other, (roles other).inFlight = false := by
  rcases watched.quiet (watched.asleep index current here) with
    ⟨disarmed, none, -, idle⟩ | ⟨other, revives⟩
  · exact ⟨disarmed, none, idle⟩
  · have resumes : (roles index).resumes := by rw [here]; rfl
    have toggles : (roles other).toggles := by
      revert revives
      cases roles other <;> simp [revives, toggles, carries]
    have same := apart.toggles index other resumes toggles
    rw [← same, here] at revives
    cases revives

omit [DecidableEq Index] in
theorem disarmed_of_consumed (watched : Watched job armed mapping waiting roles)
    (here : roles index = .consumed) : armed = [] := by
  by_cases oneShot : job.cronExpression = none
  · exact ((watched.once oneShot).2.2.1 index (by rw [here]; rfl)).1
  · have rearms := (watched.recurring oneShot).2.2 index
    rw [here] at rearms
    cases rearms

section Attempts

variable (watched : Watched job armed mapping waiting roles) (apart : Apart waiting roles)

include watched

omit [DecidableEq Index] in
theorem calm (cron : next.cronExpression = job.cronExpression) (enabled : next.enabled = job.enabled)
    (stays : job.enabled = false → job.nextExecution = none → next.nextExecution = none)
    (fewer : rest.Sublist armed) : Watched next rest mapping waiting roles := by
  obtain ⟨kind, mapped, recurring, once, quiet, cleared, asleep, awake⟩ := watched
  have within := fewer.subset
  have shorter := fewer.length_le
  constructor <;> grind -ring -linarith

include apart

theorem leave (settles : (roles index).settles = none) (revives : (roles index).revives = false) :
    Watched job armed mapping waiting (update roles index .idle) := by
  have tolerant := watched.tolerant apart
  apply of_update watched <;> grind -ring -linarith

theorem fireOnce (here : roles index = .fresh call) {entry : RuntimeJob} (fired : entry ∈ armed)
    (oneShot : entry.fireAt ≠ none) (fewer : rest.Sublist armed) (consumed : entry ∉ rest) :
    Watched job rest mapping waiting (update roles index .consumed) := by
  have tolerant := watched.tolerant apart
  have ⟨kind, mapped, recurring, once, quiet, cleared, asleep, awake⟩ := watched
  have plain : job.cronExpression = none := by grind -ring -linarith
  obtain ⟨-, few, held, sole⟩ := once plain
  have none : rest = [] ∧ waiting = [] := by
    have := fewer.length_le
    have := List.length_pos_of_mem fired
    refine ⟨List.eq_nil_of_length_eq_zero ?_, List.eq_nil_of_length_eq_zero (by omega)⟩
    by_contra some
    have whole := fewer.eq_of_length_le (by omega)
    exact consumed (whole ▸ fired)
  obtain ⟨rfl, rfl⟩ := none
  apply of_update watched <;> grind -ring -linarith

theorem fireCron (here : roles index = .fresh call) {entry : RuntimeJob} (fired : entry ∈ armed)
    (cron : entry.fireAt = none) :
    Watched job armed mapping waiting (update roles index .attempting) := by
  have tolerant := watched.tolerant apart
  apply of_update watched <;> grind -ring -linarith

omit apart in
theorem forgetConsumed (here : roles index = .consumed) :
    Watched job armed none waiting (update roles index .attempting) := by
  have disarmed := watched.disarmed_of_consumed here
  subst disarmed
  apply of_update watched <;> grind -ring -linarith

theorem rearm (here : roles index = .attempting) (oneShot : job.cronExpression = none)
    (cron : next.cronExpression = job.cronExpression) (enabled : next.enabled = job.enabled) :
    Watched next armed mapping waiting (update roles index .rearmed) := by
  have tolerant := watched.tolerant apart
  apply of_update watched <;> grind -ring -linarith

theorem spawn (here : roles index = .rearmed) (task : ScheduledTask) :
    Watched job armed mapping (waiting ++ [task]) (update roles index .idle) := by
  have tolerant := watched.tolerant apart
  apply of_update watched <;> grind -ring -linarith

theorem take (here : roles index = .fresh call) (fewer : left.length < waiting.length) :
    Watched job armed mapping left (update roles index .registering) := by
  have tolerant := watched.tolerant apart
  have ⟨kind, mapped, recurring, once, quiet, cleared, asleep, awake⟩ := watched
  have some : waiting ≠ [] := by
    rintro rfl
    cases fewer
  have plain : job.cronExpression = none := by grind -ring -linarith
  obtain ⟨-, few, held, sole⟩ := once plain
  have none : armed = [] ∧ left = [] :=
    ⟨List.eq_nil_of_length_eq_zero (by omega), List.eq_nil_of_length_eq_zero (by omega)⟩
  obtain ⟨rfl, rfl⟩ := none
  apply of_update watched <;> grind -ring -linarith

theorem arm (here : roles index = .registering) (entry : RuntimeJob) (oneShot : entry.fireAt ≠ none) :
    Watched job (armed ++ [entry]) mapping waiting
      (update roles index (.registered entry.uuid)) := by
  have tolerant := watched.tolerant apart
  apply of_update watched <;> grind -ring -linarith

variable {current : ScheduledTask} {uuid : JobUuid}

theorem insert (here : roles index = .registered uuid) :
    Watched job armed (some uuid) waiting
      (update roles index (mapping.elim .idle .replacing)) := by
  have tolerant := watched.tolerant apart
  have ⟨kind, mapped, recurring, once, quiet, cleared, asleep, awake⟩ := watched
  cases mapping <;> apply of_update watched <;> grind -ring -linarith

theorem replace (here : roles index = .replacing uuid) (fewer : rest.Sublist armed)
    (gone : ∀ entry ∈ rest, entry.uuid ≠ uuid) :
    Watched job rest mapping waiting (update roles index .idle) := by
  have tolerant := watched.tolerant apart
  have ⟨kind, mapped, recurring, once, quiet, cleared, asleep, awake⟩ := watched
  have within := fewer.subset
  have shorter := fewer.length_le
  apply of_update watched <;> grind -ring -linarith

theorem resume (here : roles index = .fresh call) (paused : job.enabled = false) :
    Watched job armed mapping waiting (update roles index (.resuming job)) := by
  have tolerant := watched.tolerant apart
  apply of_update watched <;> grind -ring -linarith

theorem revive (here : roles index = .resuming current) (entry : RuntimeJob)
    (cron : candidate.cronExpression = current.cronExpression) (enabled : candidate.enabled)
    (shape : entry.fireAt = none ↔ candidate.cronExpression ≠ none) :
    Watched job (armed ++ [entry]) mapping waiting
      (update roles index (.inserting candidate entry.uuid)) := by
  obtain ⟨rfl, rfl, idle⟩ := watched.rests apart here
  have others := apart.toggles index
  have ⟨kind, mapped, recurring, once, quiet, cleared, asleep, awake⟩ := watched
  have free : ∀ other, other ≠ index → (roles other).toggles = false := by grind -ring -linarith
  have held : ∀ other, (roles other).holds = false := by
    intro other
    have notInFlight := idle other
    revert notInFlight
    cases roles other <;> simp [inFlight, holds]
  have accepted : ∀ other, other ≠ index → (roles other).tolerates entry := by
    intro other different
    have plain := free other different
    revert plain
    cases roles other <;> simp [toggles, carries, tolerates]
  apply of_update watched <;> grind -ring -linarith

theorem reviveIdle (here : roles index = .resuming current)
    (cron : candidate.cronExpression = current.cronExpression) (enabled : candidate.enabled) :
    Watched job armed mapping waiting (update roles index (.resumed candidate)) := by
  have tolerant := watched.tolerant apart
  apply of_update watched <;> grind -ring -linarith

theorem insertRevived (here : roles index = .inserting candidate uuid) :
    Watched job armed (some uuid) waiting (update roles index (.resumed candidate)) := by
  have tolerant := watched.tolerant apart
  have own := tolerant index
  apply of_update watched <;> grind -ring -linarith

theorem commitRevived (here : roles index = .resumed candidate) :
    Watched candidate armed mapping waiting (update roles index .idle) := by
  have tolerant := watched.tolerant apart
  have others := apart.toggles index
  apply of_update watched <;> grind -ring -linarith

theorem pause (here : roles index = .fresh call) :
    Watched job armed mapping waiting (update roles index (.pausing job)) := by
  have tolerant := watched.tolerant apart
  apply of_update watched <;> grind -ring -linarith

omit [DecidableEq Index] in
theorem remembered_of_pausing (here : roles index = .pausing current)
    (idle : ∀ other, other ≠ index → (roles other).inFlight = false) :
    ∀ entry ∈ armed, mapping = some entry.uuid := by
  intro entry member
  rcases watched.mapped entry member with known | ⟨other, settled⟩
  · exact known
  · have different : other ≠ index := by
      rintro rfl
      rw [here] at settled
      cases settled
    have notInFlight := idle other different
    have resumes : (roles other).resumes := by
      revert settled notInFlight
      cases roles other <;> simp [settles, inFlight, resumes]
    exact absurd (apart.toggles other index resumes (by rw [here]; rfl)) different

theorem lookUp (here : roles index = .pausing current) (found : Option JobUuid)
    (looked : found = mapping ∨ armed = []) :
    Watched job armed mapping waiting
      (update roles index (found.elim (.forgetting current) (.unregistering current))) := by
  have tolerant := watched.tolerant apart
  have known := watched.remembered_of_pausing apart here
  have ⟨kind, mapped, recurring, once, quiet, cleared, asleep, awake⟩ := watched
  cases found <;> apply of_update watched <;> grind -ring -linarith

theorem unregister (here : roles index = .unregistering current uuid) (fewer : rest.Sublist armed)
    (gone : ∀ entry ∈ rest, entry.uuid ≠ uuid) :
    Watched job rest mapping waiting (update roles index (.forgetting current)) := by
  have own := watched.tolerant apart index
  rw [here] at own
  have none : rest = [] := List.eq_nil_iff_forall_not_mem.mpr fun entry member =>
    gone entry member (own entry (fewer.subset member))
  subst none
  apply of_update watched <;> grind -ring -linarith

theorem forgetPaused (here : roles index = .forgetting current) :
    Watched job armed none waiting (update roles index (.paused current)) := by
  have own := watched.tolerant apart index
  rw [here] at own
  have none : armed = [] := List.eq_nil_iff_forall_not_mem.mpr own
  subst none
  apply of_update watched <;> grind -ring -linarith

theorem commitPaused (here : roles index = .paused current)
    (cron : next.cronExpression = current.cronExpression) (disabled : next.enabled = false)
    (unplanned : next.nextExecution = none) :
    Watched next armed mapping waiting (update roles index .idle) := by
  have own := watched.tolerant apart index
  have calm := apart.critical index (by rw [here]; rfl)
  rw [here] at own
  have none : armed = [] := List.eq_nil_iff_forall_not_mem.mpr own
  subst none
  have ⟨kind, mapped, recurring, once, quiet, cleared, asleep, awake⟩ := watched
  have same : next.cronExpression = job.cronExpression :=
    cron.trans (kind index current (by rw [here]; rfl))
  apply of_update watched same <;> grind -ring -linarith

end Attempts

end Watched

end UltimateCoders.Scheduler
