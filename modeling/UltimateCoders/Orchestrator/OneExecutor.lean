import UltimateCoders.Gateway.PlannedExecution
import UltimateCoders.Orchestrator.OwnNodeOnly
import UltimateCoders.Transition.History

/-! # One executor at a time

A subtask may be handed out to the workers or claimed by the loop, not both. The gateway does not
ask whom a claim takes a subtask from; as long as claims find their subtask with nobody, and nothing
lets a claimed subtask wait, no subtask is dispatched and executed by the loop in one go.
-/

namespace UltimateCoders.Orchestrator

open Function
open Governance (Instant)
open Transition (Run)
open List

variable {risk : String → ConflictRisk} {ids : List String} {loop next : ClaimLoop}
  {move : ClaimLoop.Move} {id other : String}

/-! ## What the moves of the loop do to claims -/

/-- A claim that is being reported shows in the mirror. -/
def ClaimShows (loop : ClaimLoop) : Prop :=
  ∀ batch, loop.tick = .reporting batch → ∀ subtask, loop.subtasks[batch.position]? = some subtask →
    subtask.status = .running

theorem reporting_eq_some : loop.reporting = some id ↔ ∃ batch subtask,
    loop.tick = .reporting batch ∧ loop.subtasks[batch.position]? = some subtask ∧
      subtask.id = id := by
  unfold ClaimLoop.reporting
  cases loop.tick <;> simp

theorem beingStarted_eq_some : loop.beingStarted = some id ↔ ∃ batch subtask,
    loop.tick = .starting batch ∧ loop.subtasks[batch.position]? = some subtask ∧
      subtask.id = id := by
  unfold ClaimLoop.beingStarted
  cases loop.tick <;> simp

theorem id_at_of_step (moved : loop.step move = some next) (position : Nat) :
    (next.subtasks[position]?).map SubtaskResult.id =
      (loop.subtasks[position]?).map SubtaskResult.id := by
  have same := congrArg (·[position]?) (ids_of_step moved)
  simpa only [getElem?_map] using same

/-- What a move that reports nothing does to the report of a claim and to the start of one. -/
structure KeepsClaims (loop next : ClaimLoop) : Prop where
  reporting : ∀ id, loop.reporting = some id → next.reporting = some id
  claims : ∀ id, next.reporting = some id → loop.reporting = some id ∨ id ∉ loop.claimed
  started : ∀ id, next.beingStarted = some id → loop.beingStarted = some id
  finishing : ∀ id ∈ loop.finishing, id ∈ next.finishing

/-- The tick has not come to a claim. -/
def Tick.isQuiet : Tick → Bool
  | .reporting _ | .starting _ => false
  | _ => true

theorem keepsClaims_of_quiet (before : loop.tick.isQuiet = true) (after : next.tick.isQuiet = true)
    (finishing : next.finishing = loop.finishing) : KeepsClaims loop next where
  reporting id here := by
    obtain ⟨batch, _, tick, _⟩ := reporting_eq_some.mp here
    rw [tick] at before
    cases before
  claims id here := by
    obtain ⟨batch, _, tick, _⟩ := reporting_eq_some.mp here
    rw [tick] at after
    cases after
  started id here := by
    obtain ⟨batch, _, tick, _⟩ := beingStarted_eq_some.mp here
    rw [tick] at after
    cases after
  finishing id member := finishing ▸ member

theorem keepsClaims_scan {batch : Batch} (here : loop.tick = .claiming batch) :
    KeepsClaims loop (loop.scan batch) := by
  have quiet : loop.tick.isQuiet = true := by rw [here]; rfl
  unfold ClaimLoop.scan
  split
  · exact keepsClaims_of_quiet quiet rfl rfl
  · rename_i subtask found
    split
    · exact keepsClaims_of_quiet quiet rfl rfl
    · split
      · rename_i claims
        refine ⟨fun id reported => ?_, fun id reported => .inr ?_, fun id started => ?_,
          fun _ member => member⟩
        · obtain ⟨_, _, tick, _⟩ := reporting_eq_some.mp reported
          rw [here] at tick
          cases tick
        · obtain ⟨_, claimed, tick, at_, rfl⟩ := reporting_eq_some.mp reported
          cases tick
          rw [ClaimLoop.setStatus] at at_
          dsimp only at at_
          rw [getElem?_modify_eq, found] at at_
          cases at_
          rw [Bool.and_eq_true] at claims
          have free := not_mem_of_claimable claims.1
          exact free
        · obtain ⟨_, _, tick, _⟩ := beingStarted_eq_some.mp started
          cases tick
      · exact keepsClaims_of_quiet quiet rfl rfl

theorem keepsClaims_step (moved : loop.step move = some next) (quiet : move.isReport = false) :
    KeepsClaims loop next := by
  have at_ := id_at_of_step moved
  cases move with
  | reported accepted | unclaim finished => cases quiet
  | reconcile server =>
    simp only [ClaimLoop.step] at moved
    split at moved <;> cases moved
    rename_i here
    exact keepsClaims_of_quiet (by rw [here]; rfl) rfl rfl
  | gate =>
    simp only [ClaimLoop.step] at moved
    split at moved
    · rename_i server here
      split at moved <;> cases moved
      · exact keepsClaims_of_quiet (by rw [here]; rfl) rfl rfl
      · exact keepsClaims_of_quiet (by rw [here]; rfl) rfl rfl
    · cases moved
  | scan =>
    simp only [ClaimLoop.step] at moved
    split at moved <;> cases moved
    rename_i batch here
    exact keepsClaims_scan here
  | start =>
    simp only [ClaimLoop.step] at moved
    split at moved
    · rename_i batch here
      obtain ⟨subtask, found, rfl⟩ := Option.map_eq_some_iff.mp moved
      refine ⟨fun id reported => ?_, fun id reported => ?_, fun id started => ?_,
        fun _ member => member⟩
      · obtain ⟨_, _, tick, _⟩ := reporting_eq_some.mp reported
        rw [here] at tick
        cases tick
      · obtain ⟨_, _, tick, _⟩ := reporting_eq_some.mp reported
        dsimp only at tick
        split at tick <;> cases tick
      · obtain ⟨_, _, tick, _⟩ := beingStarted_eq_some.mp started
        dsimp only at tick
        split at tick <;> cases tick
    · cases moved
  | outcome finished status result error =>
    simp only [ClaimLoop.step] at moved
    split at moved <;> cases moved
    have sameReport : ({ loop with
        executing := loop.executing.filter (· ≠ finished)
        finishing := loop.finishing ++ [finished]
        subtasks := loop.subtasks.modify (loop.subtasks.findIdx fun subtask =>
          subtask.id = finished) ({ · with status, result, error }) } : ClaimLoop).reporting =
            loop.reporting := by
      unfold ClaimLoop.reporting
      dsimp only
      cases loop.tick with
      | reporting batch => exact at_ batch.position
      | _ => rfl
    have sameStart : ({ loop with
        executing := loop.executing.filter (· ≠ finished)
        finishing := loop.finishing ++ [finished]
        subtasks := loop.subtasks.modify (loop.subtasks.findIdx fun subtask =>
          subtask.id = finished) ({ · with status, result, error }) } : ClaimLoop).beingStarted =
            loop.beingStarted := by
      unfold ClaimLoop.beingStarted
      dsimp only
      cases loop.tick with
      | starting batch => exact at_ batch.position
      | _ => rfl
    exact ⟨fun id reported => sameReport.trans reported,
      fun id reported => .inl (sameReport.symm.trans reported),
      fun id started => sameStart.symm.trans started,
      fun id member => mem_append_left _ member⟩

/-- What the end of a report does to claims: it is reported no longer, and a claim that was accepted is
started. -/
structure EndsClaim (loop next : ClaimLoop) (id : String) (ok : Bool) : Prop where
  reporting : ∀ other, next.reporting = some other ↔ loop.reporting = some other ∧ other ≠ id
  started : ∀ other, next.beingStarted = some other →
    loop.beingStarted = some other ∨ (ok = true ∧ loop.reporting = some other ∧ other = id)
  finishing : ∀ other ∈ loop.finishing, other ≠ id → other ∈ next.finishing

theorem endsClaim {ok : Bool} (ended : loop.endReport id ok = some next) :
    EndsClaim loop next id ok := by
  unfold ClaimLoop.endReport at ended
  split at ended
  · rename_i claim
    obtain ⟨batch, subtask, tick, found, named⟩ := reporting_eq_some.mp claim
    have only (other : String) (here : loop.reporting = some other) : other = id :=
      Option.some.inj (here.symm.trans claim)
    simp only [ClaimLoop.step, tick, found, Option.map_some, Option.some.injEq] at ended
    subst ended
    refine ⟨fun other => ⟨fun here => ?_, fun here => absurd (only other here.1) here.2⟩,
      fun other here => ?_, fun other member _ => ?_⟩
    · obtain ⟨_, _, ticked, _⟩ := reporting_eq_some.mp here
      split at ticked <;> cases ticked
    · obtain ⟨_, started, ticked, at_, rfl⟩ := beingStarted_eq_some.mp here
      cases ok with
      | false => cases ticked
      | true =>
        cases ticked
        rw [if_pos rfl] at at_
        have same : subtask = started := Option.some.inj (found.symm.trans at_)
        rw [← same, named]
        exact .inr ⟨rfl, claim, rfl⟩
    · split <;> exact member
  · rename_i other
    simp only [ClaimLoop.step] at ended
    split at ended <;> cases ended
    refine ⟨fun name => ⟨fun here => ⟨here, fun same => other (same ▸ here)⟩, fun here => here.1⟩,
      fun name here => .inl here, fun name member apart => ?_⟩
    exact mem_filter.mpr ⟨member, decide_eq_true apart⟩

theorem claimShows_of_quiet (quiet : next.tick.isQuiet = true) : ClaimShows next := by
  intro batch tick
  rw [tick] at quiet
  cases quiet

/-- The mirror shows the claim as long as it is reported. -/
theorem claimShows_step (gated : Gated risk ids loop) (shows : ClaimShows loop)
    (moved : loop.step move = some next) : ClaimShows next := by
  cases move with
  | reconcile server =>
    simp only [ClaimLoop.step] at moved
    split at moved <;> cases moved
    exact claimShows_of_quiet rfl
  | gate =>
    simp only [ClaimLoop.step] at moved
    split at moved
    · split at moved <;> cases moved <;> exact claimShows_of_quiet rfl
    · cases moved
  | scan =>
    simp only [ClaimLoop.step] at moved
    split at moved <;> cases moved
    rename_i batch here
    unfold ClaimLoop.scan
    split
    · exact claimShows_of_quiet rfl
    · split
      · exact claimShows_of_quiet rfl
      · split
        · intro reported tick subtask found
          cases tick
          rw [ClaimLoop.setStatus] at found
          dsimp only at found
          rw [getElem?_modify_eq] at found
          obtain ⟨_, _, rfl⟩ := Option.map_eq_some_iff.mp found
          rfl
        · exact claimShows_of_quiet rfl
  | reported accepted =>
    simp only [ClaimLoop.step] at moved
    split at moved
    · obtain ⟨subtask, _, rfl⟩ := Option.map_eq_some_iff.mp moved
      split
      · intro batch tick
        cases tick
      · exact claimShows_of_quiet rfl
    · cases moved
  | start =>
    simp only [ClaimLoop.step] at moved
    split at moved
    · obtain ⟨subtask, _, rfl⟩ := Option.map_eq_some_iff.mp moved
      apply claimShows_of_quiet
      dsimp only
      split <;> rfl
    · cases moved
  | outcome finished status result error =>
    simp only [ClaimLoop.step] at moved
    split at moved <;> cases moved
    rename_i executing
    intro batch tick subtask found
    -- what is executed is claimed, so it is not the subtask whose claim is being reported
    have tickHolds := gated.tick
    have reported : loop.tick = .reporting batch := tick
    rw [TickHolds, reported] at tickHolds
    have apart : loop.subtasks.findIdx (fun subtask => subtask.id = finished) ≠
        batch.position := by
      intro same
      rw [← same] at found
      dsimp only at found
      rw [getElem?_modify_eq] at found
      obtain ⟨first, at_, _⟩ := Option.map_eq_some_iff.mp found
      have named : first.id = finished := by
        have inside := (List.getElem?_eq_some_iff.mp at_).1
        have holds := findIdx_getElem (w := inside)
        rw [(List.getElem?_eq_some_iff.mp at_).2] at holds
        exact of_decide_eq_true holds
      have free := (tickHolds first.id (gated.at_position (same ▸ at_))).1
      exact free (named ▸ gated.executing finished executing)
    dsimp only at found
    rw [getElem?_modify_ne _ _ apart] at found
    exact shows batch reported subtask found
  | unclaim finished =>
    simp only [ClaimLoop.step] at moved
    split at moved <;> cases moved
    exact shows

/-! ## Reports on their way -/

namespace Coordination

variable {task : TaskState} {sha256Hex : String → String} {before after : Coordination}
  {action : CoordinationAction}

/-- Only the claim being reported and what is finishing have reports, and a report on a claim
brings the claim. -/
structure Following (risk : String → ConflictRisk) (ids : List String) (state : Coordination) :
    Prop where
  gated : Gated risk ids state.loop
  shows : ClaimShows state.loop
  tells : TellsOnce state
  busy : ∀ id, (state.reports id).stage ≠ .unsent →
    state.loop.reporting = some id ∨ id ∈ state.loop.finishing
  brought : ∀ id, state.loop.reporting = some id → (state.reports id).stage ≠ .unsent →
    ∃ st ∈ (state.reports id).stage.brings, st.id = id ∧ st.status = .running

theorem Following.reporting_of_step (following : Following risk ids before)
    (keeps : KeepsClaims before.loop next) (here : next.reporting = some id)
    (sent : (before.reports id).stage ≠ .unsent) : before.loop.reporting = some id := by
  rcases keeps.claims id here with still | free
  · exact still
  · rcases following.busy id sent with still | finishing
    · exact still
    · exact absurd (following.gated.finishing id finishing).1 free

theorem Following.setStage (following : Following risk ids before) {stage : ReportStage}
    (sent : (before.reports id).stage ≠ .unsent)
    (same : stage = .unsent ∨ stage.brings = (before.reports id).stage.brings)
    (tells : TellsOnce (before.setStage id stage)) :
    Following risk ids (before.setStage id stage) where
  gated := following.gated
  shows := following.shows
  tells := tells
  busy name staged := by
    by_cases own : name = id
    · subst own
      exact following.busy name sent
    · simp only [Coordination.setStage, update_of_ne own] at staged
      exact following.busy name staged
  brought name here staged := by
    by_cases own : name = id
    · subst own
      simp only [Coordination.setStage, update_self] at staged ⊢
      rcases same with rfl | same
      · exact absurd rfl staged
      · rw [same]
        exact following.brought name here sent
    · simp only [Coordination.setStage, update_of_ne own] at staged ⊢
      exact following.brought name here staged

theorem following_step (step : before.Steps task sha256Hex action after)
    (following : Following risk ids before) : Following risk ids after := by
  have tells := tellsOnce_step step following.tells
  unfold Steps Coordination.step at step
  cases action with
  | gateway action =>
    obtain ⟨gateway, _, rfl⟩ := Option.map_eq_some_iff.mp step
    exact ⟨following.gated, following.shows, tells, following.busy, following.brought⟩
  | claimLoop move =>
    dsimp only at step
    split at step
    · cases step
    · rename_i quiet
      obtain ⟨loop, moved, rfl⟩ := Option.map_eq_some_iff.mp step
      have keeps := keepsClaims_step moved (Bool.eq_false_iff.mpr quiet)
      refine ⟨following.gated.step moved, claimShows_step following.gated following.shows moved,
        tells, fun name sent => ?_, fun name here sent => ?_⟩
      · exact (following.busy name sent).imp (keeps.reporting name) (keeps.finishing name)
      · exact following.brought name (following.reporting_of_step keeps here sent) sent
  | send name =>
    dsimp only at step
    split at step
    · rename_i asked
      split at step <;> cases step
      refine ⟨following.gated, following.shows, tells, fun other sent => ?_,
        fun other here sent => ?_⟩
      · by_cases own : other = name
        · exact own ▸ asked
        · simp only [update_of_ne own] at sent
          exact following.busy other sent
      · by_cases own : other = name
        · subst own
          simp only [update_self]
          obtain ⟨batch, subtask, tick, found, named⟩ := reporting_eq_some.mp here
          exact ⟨subtask, mem_of_getElem? found, named, following.shows batch tick subtask found⟩
        · simp only [update_of_ne own] at sent ⊢
          exact following.brought other here sent
    · cases step
  | deliver name now =>
    dsimp only at step
    split at step <;> cases step
    rename_i subtasks sent
    have served : Following risk ids { before with gateway := { before.gateway with
        store := (task.upsertTask subtasks).apply before.gateway.store now } } :=
      ⟨following.gated, following.shows, ⟨following.tells.mirror, following.tells.brought⟩,
        following.busy, following.brought⟩
    exact served.setStage (by simp [sent]) (.inr (by simp [sent, ReportStage.brings])) tells
  | lose name again =>
    dsimp only at step
    split at step
    · rename_i subtasks sent
      cases step
      exact following.setStage (by simp [sent])
        (.inr (by cases again <;> simp [sent, ReportStage.brings])) tells
    · rename_i subtasks ok answered
      cases step
      exact following.setStage (by simp [answered])
        (.inr (by cases again <;> simp [answered, ReportStage.brings])) tells
    · cases step
  | answer name =>
    dsimp only at step
    split at step
    · rename_i attempts subtasks ok answered
      split at step
      · obtain ⟨loop, ended, rfl⟩ := Option.map_eq_some_iff.mp step
        have ends := endsClaim ended
        have kept : Gated risk ids loop ∧ ClaimShows loop := by
          unfold ClaimLoop.endReport at ended
          split at ended
          · exact ⟨following.gated.step ended,
              claimShows_step following.gated following.shows ended⟩
          · exact ⟨following.gated.step ended,
              claimShows_step following.gated following.shows ended⟩
        refine ⟨kept.1, kept.2, tells, fun other sent => ?_, fun other here sent => ?_⟩
        · by_cases own : other = name
          · subst own
            simp at sent
          · simp only [update_of_ne own] at sent
            rcases following.busy other sent with reporting | finishing
            · exact .inl ((ends.reporting other).mpr ⟨reporting, own⟩)
            · exact .inr (ends.finishing other finishing own)
        · obtain ⟨reporting, own⟩ := (ends.reporting other).mp here
          simp only [update_of_ne own] at sent ⊢
          exact following.brought other reporting sent
      · cases step
        exact following.setStage (by simp [answered]) (.inl rfl) tells
    · cases step

end Coordination

/-! ## Who has a subtask -/

/-- The events since the subtask was last let wait, the latest first. -/
def sinceWaiting (id : String) (events : List ExecutorEvent) : List ExecutorEvent :=
  events.reverse.takeWhile (· ≠ .waiting id)

/-- A subtask that is dispatched and executed by the loop under one attempt has waited in
between. -/
def OneExecutor (events : List ExecutorEvent) : Prop :=
  ∀ id attempt first second earlier between later,
    events = earlier ++ first :: (between ++ second :: later) →
      (first = .dispatched id attempt ∧ second = .executed id attempt ∨
        first = .executed id attempt ∧ second = .dispatched id attempt) →
      .waiting id ∈ between

theorem sinceWaiting_snoc (id : String) (events : List ExecutorEvent) (event : ExecutorEvent) :
    sinceWaiting id (events ++ [event]) =
      if event = .waiting id then [] else event :: sinceWaiting id events := by
  unfold sinceWaiting
  rw [reverse_append, reverse_singleton, singleton_append, takeWhile_cons]
  by_cases waits : event = .waiting id <;> simp [waits]

theorem mem_sinceWaiting {earlier between : List ExecutorEvent} {event : ExecutorEvent}
    (other : event ≠ .waiting id) (none : .waiting id ∉ between) :
    event ∈ sinceWaiting id (earlier ++ event :: between) := by
  unfold sinceWaiting
  rw [reverse_append, reverse_cons, append_assoc, singleton_append, takeWhile_append_of_pos]
  · refine mem_append_right _ ?_
    rw [takeWhile_cons, if_pos (by simpa using other)]
    exact mem_cons_self
  · intro later member
    exact decide_eq_true fun same => none (same ▸ mem_reverse.mp member)

theorem OneExecutor.snoc {events : List ExecutorEvent} (one : OneExecutor events)
    {event : ExecutorEvent}
    (executed : ∀ id attempt, event = .executed id attempt →
      .dispatched id attempt ∉ sinceWaiting id events)
    (dispatched : ∀ id attempt, event = .dispatched id attempt →
      .executed id attempt ∉ sinceWaiting id events) : OneExecutor (events ++ [event]) := by
  intro id attempt first second earlier between later split both
  rw [← cons_append, ← append_assoc] at split
  rcases Transition.append_singleton_eq split with ⟨rfl, rfl, -⟩ | ⟨front, -, within⟩
  · by_contra none
    rcases both with ⟨rfl, rfl⟩ | ⟨rfl, rfl⟩
    · exact executed id attempt rfl (mem_sinceWaiting (by simp) none)
    · exact dispatched id attempt rfl (mem_sinceWaiting (by simp) none)
  · exact one id attempt first second earlier between front (by simp [within]) both

namespace Coordination

/-- A dispatcher is about to publish the subtask, or it was published and has not waited since. -/
def HandedOut (task : TaskState) (state : Coordination) (id : String) : Prop :=
  (∃ dispatch, state.gateway.Queued dispatch ∧ dispatch.taskId = task.id ∧
    dispatch.subtask.id = id) ∨
  ∃ attempt, .dispatched id attempt ∈ sinceWaiting id state.events

/-- The gateway has accepted the claim, and the loop has not started to execute the subtask. -/
def Claiming (state : Coordination) (id : String) : Prop :=
  (state.loop.reporting = some id ∧
    ∃ subtasks, (state.reports id).stage = .answered subtasks true) ∨
  state.loop.beingStarted = some id

/-- The claim was accepted, or the loop has started the subtask and it has not waited since. -/
def ClaimedOut (state : Coordination) (id : String) : Prop :=
  state.Claiming id ∨ ∃ attempt, .executed id attempt ∈ sinceWaiting id state.events

/-- A step that takes a subtask from nobody: claims are accepted for what is not handed out, and
what is claimed is not let wait, by a projection, a report, or before it has been started. -/
def Careful (task : TaskState) (before : Coordination) : CoordinationAction → Prop
  | .gateway (.operate operation _) =>
    (∀ id, operation.SaysPending before.gateway.store task.id id → ¬ before.ClaimedOut id) ∧
      ∀ id, operation.rearms task.id = some id → ¬ before.Claiming id
  | .gateway (.select _ owner _ _) => owner = task.id → ∀ held,
      before.gateway.store.tasks.lookup task.id = some held →
        (held.subtasks.map Gateway.Subtask.id).Nodup
  | .deliver id now => ∀ subtasks, (before.reports id).stage = .sent subtasks →
      task.accepted before.gateway.store subtasks now = true →
        (before.loop.reporting = some id → ¬ before.HandedOut task id) ∧
          ∀ st ∈ subtasks, st.status = .pending → ¬ before.ClaimedOut st.id
  | _ => True

/-- Nobody has a subtask that the other side has, and what is claimed does not wait. -/
structure Exclusive (task : TaskState) (state : Coordination) : Prop where
  apart : ∀ id, state.HandedOut task id → ¬ state.ClaimedOut id
  held : ∀ id, state.ClaimedOut id → state.gateway.store.waits task.id id = false
  one : OneExecutor state.events

variable {task : TaskState} {sha256Hex : String → String} {before after : Coordination}
  {action : CoordinationAction}

theorem Exclusive.fewer (exclusive : Exclusive task before)
    (handed : ∀ id, after.HandedOut task id → before.HandedOut task id)
    (claimed : ∀ id, after.ClaimedOut id → before.ClaimedOut id)
    (waits : ∀ id, after.ClaimedOut id → after.gateway.store.waits task.id id = true →
      before.gateway.store.waits task.id id = true)
    (one : OneExecutor after.events) : Exclusive task after where
  apart id out claim := exclusive.apart id (handed id out) (claimed id claim)
  held id claim := by
    by_contra waiting
    have before := waits id claim (by simpa using waiting)
    rw [exclusive.held id (claimed id claim)] at before
    cases before
  one := one

theorem step_gateway {action : Gateway.GatewayAction}
    (step : before.Steps task sha256Hex (.gateway action) after) :
    before.gateway.Steps sha256Hex action after.gateway ∧ after.loop = before.loop ∧
      after.reports = before.reports ∧
      after.events = before.events ++ gatewayEvents task before.gateway action := by
  obtain ⟨gateway, moved, rfl⟩ := Option.map_eq_some_iff.mp step
  exact ⟨moved, rfl, rfl, rfl⟩

theorem claiming_congr (loop : after.loop = before.loop) (reports : after.reports = before.reports) :
    after.Claiming id ↔ before.Claiming id := by
  unfold Claiming
  rw [loop, reports]

/-- Operations of the gateway leave subtasks where they are. -/
theorem Exclusive.operate (exclusive : Exclusive task before) {operation : Gateway.TaskOperation}
    {now : Instant} (careful : Careful task before (.gateway (.operate operation now)))
    (step : before.Steps task sha256Hex (.gateway (.operate operation now)) after) :
    Exclusive task after := by
  obtain ⟨moved, loop, reports, events⟩ := step_gateway step
  have store : after.gateway = { before.gateway with
      store := operation.apply before.gateway.store now } := (Option.some.inj moved).symm
  have shape : after.events = before.events ∨ ∃ name, operation.rearms task.id = some name ∧
      after.events = before.events ++ [.waiting name] := by
    rw [events]
    unfold gatewayEvents
    dsimp only
    split
    · rename_i name rearmed
      split
      · exact .inr ⟨name, rearmed, rfl⟩
      · exact .inl (append_nil _)
    · exact .inl (append_nil _)
  have kept {event : ExecutorEvent} {id : String} (other : ∀ name, event ≠ .waiting name)
      (member : event ∈ sinceWaiting id after.events) : event ∈ sinceWaiting id before.events := by
    rcases shape with same | ⟨name, _, more⟩
    · rwa [same] at member
    · rw [more, sinceWaiting_snoc] at member
      split at member
      · cases member
      · exact (mem_cons.mp member).resolve_left (other name)
  refine exclusive.fewer (fun id out => ?_) (fun id claim => ?_) (fun id claim waits => ?_) ?_
  · refine out.imp (fun queued => ?_) fun sent => ?_
    · rw [store] at queued
      exact queued
    · exact sent.imp fun attempt member => kept (by simp) member
  · exact claim.imp (claiming_congr loop reports).mp fun started =>
      started.imp fun attempt member => kept (by simp) member
  · rw [store] at waits
    rcases Gateway.waits_apply waits with waited | rearmed | told
    · exact waited
    · -- the subtask is let wait, so only a claim on its way could still hold it
      by_contra idle
      rcases claim with claiming | ⟨attempt, member⟩
      · exact careful.2 id rearmed ((claiming_congr loop reports).mp claiming)
      · have logged : after.events = before.events ++ [.waiting id] := by
          rw [events]
          unfold gatewayEvents
          simp [rearmed, waits, Bool.eq_false_iff.mpr idle]
        rw [logged, sinceWaiting_snoc, if_pos rfl] at member
        cases member
    · have claimed : before.ClaimedOut id :=
        claim.imp (claiming_congr loop reports).mp fun started =>
          started.imp fun attempt member => kept (by simp) member
      exact absurd claimed (careful.1 id told)
  · rcases shape with same | ⟨name, _, more⟩
    · rw [same]
      exact exclusive.one
    · rw [more]
      exact exclusive.one.snoc (by simp) (by simp)

theorem waits_of_selected {store : Gateway.TaskStore} {mouth : Gateway.Mouth} {taskId : String}
    {gate : Gateway.Gate} {now : Instant} {dispatch : Gateway.Dispatch}
    (distinct : ∀ held, store.tasks.lookup taskId = some held →
      (held.subtasks.map Gateway.Subtask.id).Nodup)
    (member : dispatch ∈ (Gateway.selectReady store mouth taskId gate now).1) :
    dispatch.taskId = taskId ∧ store.waits taskId dispatch.subtask.id = true := by
  obtain ⟨own, ready⟩ := Gateway.mem_marked member
  refine ⟨own, ?_⟩
  unfold Gateway.TaskStore.getReadySubtasks at ready
  split at ready
  · cases ready
  · rename_i held found
    split at ready
    · cases ready
    · obtain ⟨listed, pending⟩ := mem_filter.mp ready
      rw [Bool.and_eq_true, decide_eq_true_eq] at pending
      refine Gateway.waits_iff.mpr ⟨held, found, ?_⟩
      have first : Gateway.TaskStore.findSubtask held.subtasks dispatch.subtask.id =
          some dispatch.subtask := Gateway.findSubtask_of_mem (distinct held found) listed
      rw [Gateway.waiting, first]
      simpa using pending.1

section GatewaySteps

variable {position : Nat} {now : Instant}

theorem ClaimedOut.of_gateway {action : Gateway.GatewayAction}
    (step : before.Steps task sha256Hex (.gateway action) after)
    (same : after.events = before.events) (claim : after.ClaimedOut id) : before.ClaimedOut id := by
  obtain ⟨-, loop, reports, -⟩ := step_gateway step
  rw [ClaimedOut, same] at claim
  exact claim.imp_left (claiming_congr loop reports).mp

/-- Only marking queues a dispatch. -/
theorem queued_of_steps {action : Gateway.GatewayAction} {dispatch : Gateway.Dispatch}
    (moved : before.gateway.Steps sha256Hex action after.gateway)
    (nothing : before.gateway.selected action = []) (queued : after.gateway.Queued dispatch) :
    before.gateway.Queued dispatch := by
  rcases Gateway.GatewayState.queued_of_step moved queued with earlier | marked
  · exact earlier
  · rw [nothing] at marked
    cases marked

section

variable (exclusive : Exclusive task before)

include exclusive

theorem Exclusive.select {mouth : Gateway.Mouth} {owner : String} {gate : Gateway.Gate}
    (careful : Careful task before (.gateway (.select mouth owner gate now)))
    (step : before.Steps task sha256Hex (.gateway (.select mouth owner gate now)) after) :
    Exclusive task after := by
  obtain ⟨moved, -, -, events⟩ := step_gateway step
  have same : after.events = before.events := events.trans (append_nil _)
  have store : after.gateway.store =
      (Gateway.selectReady before.gateway.store mouth owner gate now).2 := by
    rw [← Option.some.inj moved]
  refine ⟨fun id out claim => ?_, fun id claim => ?_, same ▸ exclusive.one⟩
  · have claimed := claim.of_gateway step same
    rcases out with ⟨dispatch, queued, own, named⟩ | sent
    · rcases Gateway.GatewayState.queued_of_step moved queued with earlier | marked
      · exact exclusive.apart id (.inl ⟨dispatch, earlier, own, named⟩) claimed
      · obtain ⟨owned, _⟩ := Gateway.mem_selectReady marked
        have ours : owner = task.id := owned.symm.trans own
        subst ours
        have waits := (waits_of_selected (careful rfl) marked).2
        rw [named, exclusive.held id claimed] at waits
        cases waits
    · exact exclusive.apart id (.inr (same ▸ sent)) claimed
  · have idle := exclusive.held id (claim.of_gateway step same)
    by_contra waiting
    have waits : after.gateway.store.waits task.id id = true := by simpa using waiting
    rw [store] at waits
    rw [Gateway.stillWaits_markReady waits] at idle
    cases idle

/-- What is published was queued, and nobody has claimed it. -/
theorem Exclusive.publish
    (step : before.Steps task sha256Hex (.gateway (.publish position)) after) :
    Exclusive task after := by
  obtain ⟨moved, loop, reports, events⟩ := step_gateway step
  obtain ⟨dispatch, rest, found, shape⟩ := Gateway.GatewayState.steps_publish moved
  have queued : before.gateway.Queued dispatch := ⟨_, mem_of_getElem? found, mem_cons_self⟩
  have store : after.gateway.store = before.gateway.store := by rw [shape]
  have logged : after.events = before.events ++ if dispatch.taskId = task.id then
      [.dispatched dispatch.subtask.id dispatch.subtask.dispatchRetryCount] else [] := by
    rw [events]
    simp only [gatewayEvents, found]
  refine exclusive.fewer (fun id out => ?_) (fun id claim => ?_) (fun id _ waits => ?_) ?_
  · rcases out with ⟨other, still, own, named⟩ | ⟨attempt, member⟩
    · exact .inl ⟨other, queued_of_steps moved rfl still, own, named⟩
    · rw [logged] at member
      split at member
      · rename_i own
        rw [sinceWaiting_snoc, if_neg (by simp)] at member
        rcases mem_cons.mp member with same | earlier
        · cases same
          exact .inl ⟨dispatch, queued, own, rfl⟩
        · exact .inr ⟨attempt, earlier⟩
      · rw [append_nil] at member
        exact .inr ⟨attempt, member⟩
  · refine claim.imp (claiming_congr loop reports).mp fun started => started.imp ?_
    intro attempt member
    rw [logged] at member
    split at member
    · rw [sinceWaiting_snoc, if_neg (by simp)] at member
      exact (mem_cons.mp member).resolve_left (by simp)
    · rwa [append_nil] at member
  · rwa [store] at waits
  · rw [logged]
    split
    · rename_i own
      refine exclusive.one.snoc (by simp) fun id attempt same executed => ?_
      cases same
      exact exclusive.apart _ (.inl ⟨dispatch, queued, own, rfl⟩) (.inr ⟨_, executed⟩)
    · rw [append_nil]
      exact exclusive.one

theorem Exclusive.failPublish
    (step : before.Steps task sha256Hex (.gateway (.failPublish position)) after) :
    Exclusive task after := by
  obtain ⟨moved, -, -, events⟩ := step_gateway step
  obtain ⟨dispatch, rest, found, shape⟩ := Gateway.GatewayState.steps_failPublish moved
  have same : after.events = before.events := events.trans (append_nil _)
  have store : after.gateway.store = before.gateway.store := by rw [shape]
  refine exclusive.fewer (fun id out => ?_) (fun id => ClaimedOut.of_gateway step same)
    (fun id _ waits => ?_) (same ▸ exclusive.one)
  · exact out.imp (fun queued => queued.imp fun other still =>
      ⟨queued_of_steps moved rfl still.1, still.2⟩) fun sent => same ▸ sent
  · rwa [store] at waits

/-- A failed dispatch waits again, and nobody has claimed it. -/
theorem Exclusive.handleFailure
    (step : before.Steps task sha256Hex (.gateway (.handleFailure position now)) after) :
    Exclusive task after := by
  obtain ⟨moved, -, -, events⟩ := step_gateway step
  obtain ⟨dispatch, rest, found, shape⟩ := Gateway.GatewayState.steps_handleFailure moved
  have same : after.events = before.events := events.trans (append_nil _)
  have queued : before.gateway.Queued dispatch := ⟨_, mem_of_getElem? found, mem_cons_self⟩
  refine exclusive.fewer (fun id out => ?_) (fun id => ClaimedOut.of_gateway step same)
    (fun id claim waits => ?_) (same ▸ exclusive.one)
  · exact out.imp (fun queued => queued.imp fun other still =>
      ⟨queued_of_steps moved rfl still.1, still.2⟩) fun sent => same ▸ sent
  · rw [shape] at waits
    rcases Gateway.waits_handlePublishFailure waits with waited | ⟨own, named⟩
    · exact waited
    · exact absurd (claim.of_gateway step same)
        (exclusive.apart id (.inl ⟨dispatch, queued, own, named⟩))

theorem Exclusive.gateway {action : Gateway.GatewayAction}
    (careful : Careful task before (.gateway action))
    (step : before.Steps task sha256Hex (.gateway action) after) : Exclusive task after := by
  cases action with
  | operate operation now => exact exclusive.operate careful step
  | select mouth owner gate now => exact exclusive.select careful step
  | publish position => exact exclusive.publish step
  | failPublish position => exact exclusive.failPublish step
  | handleFailure position now => exact exclusive.handleFailure step

end

end GatewaySteps

theorem Exclusive.claimLoop (exclusive : Exclusive task before)
    (following : Following risk ids before)
    (step : before.Steps task sha256Hex (.claimLoop move) after) : Exclusive task after := by
  unfold Steps Coordination.step at step
  dsimp only at step
  split at step
  · cases step
  · rename_i quiet
    obtain ⟨loop, moved, rfl⟩ := Option.map_eq_some_iff.mp step
    have keeps := keepsClaims_step moved (Bool.eq_false_iff.mpr quiet)
    have shape : loopEvents task before.loop move = [] ∨ ∃ name,
        before.loop.beingStarted = some name ∧
          loopEvents task before.loop move = [.executed name (task.details name).attempt] := by
      cases move with
      | start =>
        unfold loopEvents
        cases started : before.loop.beingStarted with
        | none => exact .inl rfl
        | some name => exact .inr ⟨name, rfl, rfl⟩
      | _ => exact .inl rfl
    have claiming {id : String} {events : List ExecutorEvent}
        (claim : Claiming ⟨before.gateway, loop, before.reports, events⟩ id) :
        before.Claiming id := by
      rcases claim with ⟨reporting, subtasks, accepted⟩ | started
      · have still := following.reporting_of_step keeps reporting (by
          rw [accepted]
          simp)
        exact .inl ⟨still, subtasks, accepted⟩
      · exact .inr (keeps.started id started)
    refine exclusive.fewer (fun id out => ?_) (fun id claim => ?_) (fun _ _ waits => waits) ?_
    · refine out.imp_right fun sent => sent.imp fun attempt member => ?_
      dsimp only at member
      rcases shape with none | ⟨name, _, more⟩
      · rwa [none, append_nil] at member
      · rw [more, sinceWaiting_snoc, if_neg (by simp)] at member
        exact (mem_cons.mp member).resolve_left (by simp)
    · rcases claim with claim | ⟨attempt, member⟩
      · exact .inl (claiming claim)
      · dsimp only at member
        rcases shape with none | ⟨name, started, more⟩
        · rw [none, append_nil] at member
          exact .inr ⟨attempt, member⟩
        · rw [more, sinceWaiting_snoc, if_neg (by simp)] at member
          rcases mem_cons.mp member with same | earlier
          · cases same
            exact .inl (.inr started)
          · exact .inr ⟨attempt, earlier⟩
    · dsimp only
      rcases shape with none | ⟨name, started, more⟩
      · rw [none, append_nil]
        exact exclusive.one
      · rw [more]
        refine exclusive.one.snoc (fun id attempt same dispatched => ?_) (by simp)
        cases same
        exact exclusive.apart _ (.inr ⟨_, dispatched⟩) (.inl (.inr started))

theorem Exclusive.setStage (exclusive : Exclusive task before) {stage : ReportStage}
    (unanswered : ∀ subtasks, stage ≠ .answered subtasks true) :
    Exclusive task (before.setStage id stage) := by
  refine exclusive.fewer (fun _ out => out) (fun name claim => ?_) (fun _ _ waits => waits)
    exclusive.one
  refine claim.imp_left fun claiming => claiming.imp_left fun accepted => ?_
  refine ⟨accepted.1, accepted.2.imp fun subtasks here => ?_⟩
  by_cases own : name = id
  · subst own
    simp only [Coordination.setStage, update_self] at here
    exact absurd here (unanswered subtasks)
  · simpa only [Coordination.setStage, update_of_ne own] using here

theorem wired_pending {status : LocalStatus} (pending : status.wired = .pending) :
    status = .pending := by
  cases status <;> first | rfl | cases pending

theorem waits_of_claim {store : Gateway.TaskStore} {subtasks : List SubtaskResult} {now : Instant}
    {st : SubtaskResult} (distinct : (subtasks.map SubtaskResult.id).Nodup)
    (ok : task.accepted store subtasks now = true) (member : st ∈ subtasks)
    (running : st.status = .running) :
    ((task.upsertTask subtasks).apply store now).waits task.id st.id = false := by
  by_contra waiting
  have waits : ((task.upsertTask subtasks).apply store now).waits task.id st.id = true := by
    simpa using waiting
  rcases Gateway.waits_apply waits with waited | rearmed | told
  · obtain ⟨current, found, first⟩ := Gateway.waits_iff.mp waited
    unfold Gateway.waiting at first
    cases known : Gateway.TaskStore.findSubtask current.subtasks st.id with
    | none => simp [known] at first
    | some node =>
      rw [Gateway.waits_eq_any, subtask_of_report distinct found ok member known] at waits
      simp [Gateway.TaskStore.projectSubtask, running, LocalStatus.wired] at waits
  · cases rearmed
  · rw [upsertTask_eq] at told
    obtain ⟨_, incoming, listed, named, pending⟩ := told
    obtain ⟨other, otherMember, rfl⟩ := mem_map.mp listed
    have same : other = st := inj_on_of_nodup_map distinct otherMember member named
    rw [incoming_status, same, running] at pending
    cases pending

/-- An accepted claim takes a subtask that nobody has. -/
theorem Exclusive.deliver (exclusive : Exclusive task before) (following : Following risk ids before)
    {now : Instant} (careful : Careful task before (.deliver id now))
    (step : before.Steps task sha256Hex (.deliver id now) after) : Exclusive task after := by
  unfold Steps Coordination.step at step
  dsimp only at step
  split at step <;> cases step
  rename_i subtasks sent
  cases ok : task.accepted before.gateway.store subtasks now with
  | false =>
    rw [store_of_refused ok]
    exact exclusive.setStage (by simp)
  | true =>
    obtain ⟨free, spared⟩ := careful subtasks sent ok
    have distinct := following.tells.brought id
    rw [sent] at distinct
    have claimed {name : String} (claim : (Coordination.setStage { before with
        gateway := { before.gateway with
          store := (task.upsertTask subtasks).apply before.gateway.store now } }
        id (.answered subtasks true)).ClaimedOut name) :
        before.ClaimedOut name ∨ (name = id ∧ before.loop.reporting = some id) := by
      rcases claim with (⟨reporting, told, answered⟩ | started) | executed
      · by_cases own : name = id
        · exact .inr ⟨own, own ▸ reporting⟩
        · simp only [Coordination.setStage, update_of_ne own] at answered
          exact .inl (.inl (.inl ⟨reporting, told, answered⟩))
      · exact .inl (.inl (.inr started))
      · exact .inl (.inr executed)
    refine ⟨fun name out claim => ?_, fun name claim => ?_, exclusive.one⟩
    · rcases claimed claim with earlier | ⟨rfl, reporting⟩
      · exact exclusive.apart name out earlier
      · exact free reporting out
    · rcases claimed claim with earlier | ⟨rfl, reporting⟩
      · have idle := exclusive.held name earlier
        by_contra waiting
        have waits : ((task.upsertTask subtasks).apply before.gateway.store now).waits task.id
            name = true := Bool.not_eq_false _ ▸ waiting
        rcases Gateway.waits_apply waits with waited | rearmed | told
        · rw [waited] at idle
          cases idle
        · cases rearmed
        · rw [upsertTask_eq] at told
          obtain ⟨_, incoming, listed, rfl, pending⟩ := told
          obtain ⟨st, member, rfl⟩ := mem_map.mp listed
          exact spared st member (wired_pending (incoming_status.symm.trans pending)) earlier
      · obtain ⟨st, member, rfl, running⟩ := following.brought name reporting (by simp [sent])
        rw [sent] at member
        exact waits_of_claim distinct ok member running

theorem exclusive_step (step : before.Steps task sha256Hex action after)
    (careful : Careful task before action) (following : Following risk ids before)
    (exclusive : Exclusive task before) : Exclusive task after := by
  cases action with
  | gateway action => exact exclusive.gateway careful step
  | claimLoop move => exact exclusive.claimLoop following step
  | send name =>
    unfold Steps Coordination.step at step
    dsimp only at step
    split at step
    · split at step <;> cases step
      refine exclusive.fewer (fun _ out => out) (fun other claim => ?_) (fun _ _ waits => waits)
        exclusive.one
      refine claim.imp_left fun claiming => claiming.imp_left fun accepted => ?_
      refine ⟨accepted.1, accepted.2.imp fun subtasks here => ?_⟩
      by_cases own : other = name
      · subst own
        simp at here
      · simpa only [update_of_ne own] using here
    · cases step
  | deliver name now => exact exclusive.deliver following careful step
  | lose name again =>
    unfold Steps Coordination.step at step
    dsimp only at step
    split at step
    · cases step
      exact exclusive.setStage (by cases again <;> simp)
    · cases step
      exact exclusive.setStage (by cases again <;> simp)
    · cases step
  | answer name =>
    unfold Steps Coordination.step at step
    dsimp only at step
    split at step
    · rename_i attempts subtasks ok answered
      split at step
      · obtain ⟨loop, ended, rfl⟩ := Option.map_eq_some_iff.mp step
        have ends := endsClaim ended
        refine exclusive.fewer (fun _ out => out) (fun other claim => ?_)
          (fun _ _ waits => waits) exclusive.one
        refine claim.imp_left fun claiming => ?_
        rcases claiming with ⟨reporting, told, here⟩ | started
        · obtain ⟨still, own⟩ := (ends.reporting other).mp reporting
          simp only [update_of_ne own] at here
          exact .inl ⟨still, told, here⟩
        · rcases ends.started other started with already | ⟨rfl, reporting, rfl⟩
          · exact .inr already
          · exact .inl ⟨reporting, subtasks, by rw [answered]⟩
      · cases step
        exact exclusive.setStage (by simp)
    · cases step

variable {start target : Coordination} {actions : List CoordinationAction} {platform : Platform}
  {defs : List SubtaskDef} {maxConcurrency : Nat}

/-- In every run whose steps take a subtask from nobody, what is dispatched is not executed by the
loop under the same attempt, unless it has waited in between. -/
theorem oneExecutor_of_run (distinct : (defs.map SubtaskDef.id).Nodup)
    (starts : start.loop = .start platform defs maxConcurrency)
    (unsent : ∀ id, (start.reports id).stage = .unsent) (new : start.events = [])
    (run : Run (fun before action after => before.Steps task sha256Hex action after ∧
      Careful task before action) start actions target) : OneExecutor target.events := by
  have following : Following (gradeIn platform defs) (defs.map SubtaskDef.id) start := by
    refine ⟨starts ▸ gated_start, ?_, ⟨?_, fun id => ?_⟩, fun id sent => ?_, fun id _ sent => ?_⟩
    · rw [starts]
      exact claimShows_of_quiet rfl
    · rw [starts, ClaimLoop.start, map_map]
      exact distinct
    · rw [unsent id]
      exact nodup_nil
    · exact absurd (unsent id) sent
    · exact absurd (unsent id) sent
  have nobody (id : String) : ¬start.ClaimedOut id := by
    rintro ((⟨reporting, _⟩ | started) | ⟨attempt, member⟩)
    · rw [starts] at reporting
      cases reporting
    · rw [starts] at started
      cases started
    · rw [new] at member
      cases member
  have exclusive : Exclusive task start := by
    refine ⟨fun id _ => nobody id, fun id claim => absurd claim (nobody id), ?_⟩
    intro id attempt first second earlier between later split
    rw [new] at split
    simp at split
  have kept (before : Coordination) (action : CoordinationAction) (after : Coordination)
      (holds : Following (gradeIn platform defs) (defs.map SubtaskDef.id) before ∧
        Exclusive task before) (_ : True)
      (step : before.Steps task sha256Hex action after ∧ Careful task before action) :
      Following (gradeIn platform defs) (defs.map SubtaskDef.id) after ∧ Exclusive task after :=
    ⟨following_step step.1 holds.1, exclusive_step step.1 step.2 holds.1 holds.2⟩
  exact (run.invariant (fun _ => True) kept (fun _ _ => trivial) ⟨following, exclusive⟩).2.one

/-- One subtask waits, and the loop has just begun. -/
def loneStart : Coordination where
  gateway := ⟨Gateway.sampleStore [Gateway.sampleSubtask "node-1" .pending .preferRemote], [], []⟩
  loop := {
    subtasks := [{
      id := "node-1"
      dependsOn := []
      files := ["a.rs"]
      conflictRisk := some .low }]
    maxConcurrency := 3 }
  reports _ := {}
  events := []

/-- A tick begins with what the gateway then holds. -/
def loneTick : List CoordinationAction :=
  [.claimLoop (.reconcile [⟨"node-1", .pending, ""⟩]), .claimLoop .gate]

/-- The subtask is claimed, and the loop starts to execute it. -/
def loneClaim : List CoordinationAction :=
  [.claimLoop .scan, .send "node-1", .deliver "node-1" 2, .answer "node-1", .claimLoop .start]

/-- Two subtasks wait, and the loop has just begun. -/
def pairStart : Coordination where
  gateway := ⟨Gateway.sampleStore [Gateway.sampleSubtask "node-1" .pending .preferRemote,
    Gateway.sampleSubtask "node-2" .pending .preferRemote], [], []⟩
  loop := {
    subtasks := [
      { id := "node-1", dependsOn := [], files := ["a.rs"], conflictRisk := some .low },
      { id := "node-2", dependsOn := [], files := ["b.rs"], conflictRisk := some .low }]
    maxConcurrency := 3 }
  reports _ := {}
  events := []

def pairDefs : List SubtaskDef := [⟨"node-1", [], ["a.rs"], none⟩, ⟨"node-2", [], ["b.rs"], none⟩]

theorem pairStart_loop : pairStart.loop = .start plainPaths pairDefs 3 := by
  have graded : ∀ id ∈ ["node-1", "node-2"], riskOf (classifyConflicts plainPaths
      [⟨"node-1", [], ["a.rs"], none⟩, ⟨"node-2", [], ["b.rs"], none⟩]) id = some .low := by
    decide +kernel
  simp only [pairStart, pairDefs, ClaimLoop.start, map_cons, map_nil, graded "node-1" (by decide),
    graded "node-2" (by decide)]

/-- The loop claims one subtask and the gateway dispatches the other one, sweeps it and dispatches it
again. -/
def pairActions : List CoordinationAction :=
  let select (now : Instant) : CoordinationAction :=
    .gateway (.select .dispatchReadySubtasks "task-1" (fun _ => some "uc.subtask.execute") now)
  [.claimLoop (.reconcile [⟨"node-1", .pending, ""⟩, ⟨"node-2", .pending, ""⟩]), .claimLoop .gate,
    .claimLoop .scan, .send "node-1", .deliver "node-1" 2, select 3, .gateway (.publish 0),
    .answer "node-1", .claimLoop .start,
    .gateway (.operate (.revertSweptSubtask "task-1" "node-2" true) 4), select 5,
    .gateway (.publish 1)]

theorem oneExecutor_of_run_sample :
    ∃ target, Run (fun before action after => before.Steps sampleTask (fun _ => "") action after ∧
        Careful sampleTask before action) pairStart pairActions target ∧
      target.events = [.dispatched "node-2" 0, .executed "node-1" 0, .waiting "node-2",
        .dispatched "node-2" 0] ∧ OneExecutor target.events := by
  have empty : ∀ dispatch, ¬ pairStart.gateway.Queued dispatch := by
    rintro dispatch ⟨dispatcher, listed, _⟩
    cases listed
  obtain ⟨target, run, events⟩ : ∃ target, Run (fun before action after =>
      before.Steps sampleTask (fun _ => "") action after ∧ Careful sampleTask before action)
        pairStart pairActions target ∧ target.events = [.dispatched "node-2" 0,
          .executed "node-1" 0, .waiting "node-2", .dispatched "node-2" 0] := by
    refine ⟨_, .cons ⟨rfl, trivial⟩ (.cons ⟨rfl, trivial⟩ (.cons ⟨rfl, trivial⟩
      (.cons ⟨rfl, trivial⟩ (.cons ⟨rfl, ?_⟩ (.cons ⟨rfl, ?_⟩ (.cons ⟨rfl, trivial⟩
        (.cons ⟨rfl, trivial⟩ (.cons ⟨rfl, trivial⟩ (.cons ⟨rfl, ?_⟩ (.cons ⟨rfl, ?_⟩
          (.cons ⟨rfl, trivial⟩ (.nil _)))))))))))), rfl⟩
    · intro subtasks sent _
      cases sent
      refine ⟨fun _ out => ?_, fun st listed pending claim => ?_⟩
      · rcases out with ⟨dispatch, queued, _⟩ | ⟨attempt, member⟩
        · exact empty dispatch queued
        · cases member
      · -- only the other subtask is still pending, and nobody has claimed it
        rcases mem_pair.mp listed with rfl | rfl
        · cases pending
        · rcases claim with (⟨reporting, _⟩ | started) | ⟨attempt, member⟩
          · exact absurd reporting (by decide +kernel)
          · cases started
          · cases member
    · intro _ held found
      cases found
      decide +kernel
    · refine ⟨fun _ impossible => impossible.elim, fun id rearmed claim => ?_⟩
      rcases claim with ⟨reporting, _⟩ | started
      · cases reporting
      · cases started
    · intro _ held found
      cases found
      decide +kernel
  exact ⟨target, run, events, oneExecutor_of_run (by decide) pairStart_loop (fun _ => rfl) rfl run⟩

/-- A dispatcher marks the subtask between the snapshot and the claim, and publishes it; the gateway
accepts the claim all the same. -/
theorem oneExecutor_fails :
    ∃ target, Run (Steps sampleTask fun _ => "") loneStart
        (loneTick ++ [.gateway (.select .dispatchReadySubtasks "task-1"
          (fun _ => some "uc.subtask.execute") 1), .gateway (.publish 0)] ++ loneClaim) target ∧
      target.events = [.dispatched "node-1" 0, .executed "node-1" 0] ∧
      ¬OneExecutor target.events := by
  refine ⟨_, .cons rfl (.cons rfl (.cons rfl (.cons rfl (.cons rfl (.cons rfl (.cons rfl (.cons rfl
    (.cons rfl (.nil _))))))))), rfl, fun one => ?_⟩
  have waited := one "node-1" 0 _ _ [] [] [] rfl (.inl ⟨rfl, rfl⟩)
  cases waited

end Coordination

end UltimateCoders.Orchestrator
