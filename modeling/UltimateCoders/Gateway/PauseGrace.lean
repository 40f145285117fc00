import UltimateCoders.Gateway.Attempt
import UltimateCoders.Gateway.Mutation
import UltimateCoders.Graph.CommitOnce

/-! # Pause grace

A paused task has a timer that stops what still runs once the grace window is over. The
timer looks at the task, fails the running attempts of its graph and moves their subtasks
back, each under a lock of its own. A resume cancels the timer after it has released the
store, at whatever point the timer has come to.
-/

namespace UltimateCoders.Gateway

open Governance (Instant)
open UltimateCoders.Graph (SubtaskStatus Tables SweptAttempt TaskAttempt Timestamp defaultMaxAttempts)
open TaskStore
open Transition (Run runAll)
open List

/-! ## Timers -/

inductive GracePhase where
  | sleeping
  /-- The task was paused when the timer looked. -/
  | checked
  /-- The store is locked, and these attempts are still to be failed. -/
  | sweeping (scanned : List TaskAttempt)
  | swept
  /-- The timer has returned or was aborted. -/
  | ended
  deriving DecidableEq

def GracePhase.scanned : GracePhase → List TaskAttempt
  | sweeping scanned => scanned
  | _ => []

/-- The pause-grace timer of a task, with the attempts it has failed and those whose
subtask it has moved back. -/
structure GraceTimer where
  taskId : String
  phase : GracePhase
  /-- How often the task had been resumed when the timer was armed. -/
  armedAfter : Nat
  failed : List SweptAttempt
  bridged : List SweptAttempt
  deriving DecidableEq

namespace GraceTimer

def abort (timer : GraceTimer) : GraceTimer :=
  { timer with phase := .ended }

/-- The timer holds the lock of the store. -/
def locks (timer : GraceTimer) : Bool :=
  match timer.phase with
  | .sweeping _ => true
  | _ => false

/-- The timer has failed attempts and has not moved their subtasks back yet. -/
def HalfApplied (timer : GraceTimer) : Prop :=
  timer.phase ≠ .ended ∧ timer.failed ≠ []

instance (timer : GraceTimer) : Decidable timer.HalfApplied :=
  inferInstanceAs (Decidable (_ ∧ _))

end GraceTimer

/-- An attempt, and how often its task had been resumed when it was scheduled. -/
structure AttemptBirth where
  graphId : String
  attemptId : String
  resumed : Nat
  deriving DecidableEq

def AttemptBirth.Names (birth : AttemptBirth) (graphId attemptId : String) : Prop :=
  birth.graphId = graphId ∧ birth.attemptId = attemptId

instance (birth : AttemptBirth) (graphId attemptId : String) :
    Decidable (birth.Names graphId attemptId) :=
  inferInstanceAs (Decidable (_ ∧ _))

/-- What a timer hears of a transaction. -/
inductive Answer where
  | committed
  /-- The transaction did not take place. -/
  | refused
  /-- The transaction was committed and the answer was lost. -/
  | lost
  deriving DecidableEq

/-! ## The two stores and the timers -/

structure GraceState where
  store : TaskStore
  /-- A graph sink is attached. -/
  wired : Bool
  tables : Tables
  /-- All timers that were ever spawned. -/
  timers : List GraceTimer
  /-- `pause_grace_timers`: the place of a task's timer in `timers`. -/
  handles : AList fun _ : String => Nat
  /-- Paused tasks whose old timer is to be replaced. -/
  armsDue : List String
  /-- Paused tasks whose timer is to be spawned. -/
  spawnsDue : List String
  /-- Timers whose handle is to be stored. -/
  handlesDue : List Nat
  /-- Resumed tasks whose timer is to be cancelled. -/
  cancelsDue : List String
  /-- Resumed tasks whose timer is not cancelled because the resume was not written. -/
  cancelsLost : List String
  /-- The task of every resume so far. -/
  resumes : List String
  births : List AttemptBirth

inductive GraceAction where
  | mutate (mutation : Mutation) (now : Instant)
  | transact (transaction : Graph.Transaction) (now : Timestamp)
  | mirror (task : Graph.Task)
  | pauseTask (taskId : String) (now : Instant) (flushed : Bool)
  | disarm (taskId : String)
  | spawn (taskId : String)
  | register (position : Nat)
  | resumeTask (taskId : String) (now : Instant) (flushed : Bool)
  | cancelTimer (taskId : String)
  | check (position : Nat)
  | scan (position : Nat) (answered : Bool)
  | failNext (position : Nat) (now : Timestamp) (answer : Answer)
  | endSweep (position : Nat)
  | bridge (position : Nat) (now : Instant)

/-- Pause and resume have commands of their own. -/
def Mutation.steers : Mutation → Bool
  | operate (.pauseTask _) => true
  | operate (.resumeTask _) => true
  | _ => false

/-- Move the subtasks of swept attempts back. -/
def TaskStore.bridgeSwept (store : TaskStore) (taskId : String) (swept : List SweptAttempt)
    (now : Instant) : TaskStore :=
  swept.foldl (fun store attempt =>
    (store.revertSweptSubtask taskId attempt.nodeId attempt.rearmed now).2) store

def TaskStore.stopped (store : TaskStore) (taskId subtaskId : String) : Bool :=
  (store.subtask taskId subtaskId).all fun subtask =>
    subtask.status ≠ .assigned && subtask.status ≠ .inProgress

namespace GraceState

/-- A sweep is under way and holds the lock of the store. -/
def locked (state : GraceState) : Bool :=
  state.timers.any GraceTimer.locks

/-- The tables after a transaction; attempts that are new are scheduled now. -/
def note (state : GraceState) (tables : Tables) : GraceState :=
  { state with
    tables := tables
    births := state.births ++ (tables.attempts.rows.filter fun row =>
      ¬ ∃ birth ∈ state.births, birth.Names row.graphId row.attemptId).map fun row =>
        ⟨row.graphId, row.attemptId, state.resumes.count row.graphId⟩ }

def setTimer (state : GraceState) (position : Nat) (timer : GraceTimer) : GraceState :=
  { state with timers := state.timers.set position timer }

/-- `cancel_pause_grace_timer` -/
def cancelPauseGraceTimer (state : GraceState) (taskId : String) : GraceState :=
  match state.handles.lookup taskId with
  | none => state
  | some position =>
    { state with
      handles := state.handles.erase taskId
      timers := state.timers.modify position GraceTimer.abort }

/-- The timer after one transaction of its sweep. An error drops what was swept so far. -/
def failNext (state : GraceState) (position : Nat) (timer : GraceTimer) (attempt : TaskAttempt)
    (rest : List TaskAttempt) (now : Timestamp) (answer : Answer) : GraceState :=
  let ran := Transition.atomically
    (Graph.failAttemptTx timer.taskId attempt.nodeId attempt.attemptId defaultMaxAttempts now)
    state.tables
  let failed :=
    match ran.1 with
    | .ok .fenced => timer.failed
    | .ok outcome => timer.failed ++ [{
        graphId := timer.taskId
        nodeId := attempt.nodeId
        attemptId := attempt.attemptId
        rearmed := outcome = .rearmedToReady }]
    | .error _ => timer.failed
  match answer, ran.1 with
  | .committed, .ok _ =>
    (state.note ran.2).setTimer position { timer with phase := .sweeping rest, failed := failed }
  | .refused, _ => state.setTimer position timer.abort
  | _, _ => (state.note ran.2).setTimer position { timer with phase := .ended, failed := failed }

/-- One step of the gateway, if it can be taken. -/
def act (state : GraceState) : GraceAction → Option GraceState
  | .mutate mutation now =>
    if state.locked || mutation.steers then none
    else some { state with store := mutation.apply state.store now }
  | .transact transaction now => some (state.note (transaction.exec now state.tables))
  | .mirror task => some (state.note (Graph.upsertTaskShadow task state.tables).2)
  | .pauseTask taskId now flushed =>
    if state.locked then none
    else
      match state.store.pauseTask taskId now with
      | (.error _, _) => some state
      | (.ok task, store) => some { state with
          store := store.recordEvent (.taskPaused task.id)
          armsDue := if flushed then state.armsDue ++ [taskId] else state.armsDue }
  | .disarm taskId =>
    if taskId ∈ state.armsDue then
      some { state.cancelPauseGraceTimer taskId with
        armsDue := state.armsDue.erase taskId
        spawnsDue := state.spawnsDue ++ [taskId] }
    else none
  | .spawn taskId =>
    if taskId ∈ state.spawnsDue then
      some { state with
        spawnsDue := state.spawnsDue.erase taskId
        handlesDue := state.handlesDue ++ [state.timers.length]
        timers := state.timers ++ [{
          taskId := taskId
          phase := .sleeping
          armedAfter := state.resumes.count taskId
          failed := []
          bridged := [] }] }
    else none
  | .register position =>
    if position ∈ state.handlesDue then
      state.timers[position]?.map fun timer => { state with
        handlesDue := state.handlesDue.erase position
        handles := state.handles.insert timer.taskId position }
    else none
  | .resumeTask taskId now flushed =>
    if state.locked then none
    else
      match state.store.resumeTask taskId now with
      | (.error _, _) => some state
      | (.ok task, store) => some { state with
          store := store.recordEvent (.taskResumed task.id)
          resumes := state.resumes ++ [taskId]
          cancelsDue := if flushed then state.cancelsDue ++ [taskId] else state.cancelsDue
          cancelsLost := if flushed then state.cancelsLost else state.cancelsLost ++ [taskId] }
  | .cancelTimer taskId =>
    if taskId ∈ state.cancelsDue then
      some { state.cancelPauseGraceTimer taskId with
        cancelsDue := state.cancelsDue.erase taskId }
    else none
  | .check position =>
    match state.timers[position]? with
    | some timer =>
      if timer.phase ≠ .sleeping || state.locked then none
      else
        let paused := (state.store.tasks.lookup timer.taskId).any fun task =>
          task.status = .paused
        some (state.setTimer position { timer with phase := if paused then .checked else .ended })
    | none => none
  | .scan position answered =>
    match state.timers[position]? with
    | some timer =>
      if timer.phase ≠ .checked || state.locked then none
      else
        some (state.setTimer position { timer with
          phase :=
            if state.wired && answered then
              .sweeping (state.tables.runningAttempts timer.taskId)
            else .ended })
    | none => none
  | .failNext position now answer =>
    match state.timers[position]? with
    | some timer =>
      match timer.phase with
      | .sweeping (attempt :: rest) =>
        some (state.failNext position timer attempt rest now answer)
      | _ => none
    | none => none
  | .endSweep position =>
    match state.timers[position]? with
    | some timer =>
      if timer.phase = .sweeping [] then
        some (state.setTimer position
          { timer with phase := if timer.failed = [] then .ended else .swept })
      else none
    | none => none
  | .bridge position now =>
    match state.timers[position]? with
    | some timer =>
      if timer.phase ≠ .swept || state.locked then none
      else
        let store := state.store.bridgeSwept timer.taskId timer.failed now
        some { state.setTimer position { timer with
            phase := .ended
            bridged := timer.failed.filter fun attempt =>
              store.stopped timer.taskId attempt.nodeId } with
          store := store }
    | none => none

/-! ## A stop that is applied as a whole -/

/-- A timer that has ended has moved back the subtask of every attempt it failed, and no
timer failed an attempt that was scheduled after a resume the timer did not know of. -/
structure Whole (state : GraceState) : Prop where
  bridged : ∀ timer ∈ state.timers, timer.phase = .ended →
    ∀ attempt ∈ timer.failed, attempt ∈ timer.bridged
  older : ∀ timer ∈ state.timers, ∀ attempt ∈ timer.failed, ∀ birth ∈ state.births,
    birth.Names attempt.graphId attempt.attemptId → birth.resumed ≤ timer.armedAfter

/-- A resume of the task has not cancelled its timer yet, or never will. -/
def Awaits (state : GraceState) (taskId : String) : Prop :=
  taskId ∈ state.cancelsDue ∨ taskId ∈ state.cancelsLost

instance (state : GraceState) (taskId : String) : Decidable (state.Awaits taskId) :=
  inferInstanceAs (Decidable (_ ∨ _))

/-- Cancelling the task's timer does not interrupt it between its sweep and its bridge. -/
def Interruptible (state : GraceState) (taskId : String) : Prop :=
  ∀ position ∈ state.handles.lookup taskId, ∀ timer ∈ state.timers[position]?, ¬ timer.HalfApplied

instance (state : GraceState) (taskId : String) : Decidable (state.Interruptible taskId) :=
  inferInstanceAs (Decidable (∀ _ ∈ _, _))

/-- No timer is interrupted between its sweep and its bridge, by a cancellation or by an
error. A resume reaches every timer of its task that still runs, and does so before the
timer sweeps, unless nothing was scheduled since. -/
def Calm (state : GraceState) : GraceAction → Prop
  | .disarm taskId => state.Interruptible taskId
  | .cancelTimer taskId => state.Interruptible taskId ∧
      ∀ position < state.timers.length, ∀ timer ∈ state.timers[position]?,
        timer.taskId = taskId → timer.phase = .ended ∨ position ∈ state.handles.lookup taskId
  | .scan position _ => ∀ timer ∈ state.timers[position]?, ¬ state.Awaits timer.taskId ∨
      ∀ birth ∈ state.births, birth.graphId = timer.taskId → birth.resumed ≤ timer.armedAfter
  | .failNext position _ answer => ∀ timer ∈ state.timers[position]?,
      answer = .committed ∨ answer = .refused ∧ timer.failed = []
  | _ => True

instance (state : GraceState) : (action : GraceAction) → Decidable (state.Calm action)
  | .disarm _ => inferInstanceAs (Decidable (Interruptible _ _))
  | .cancelTimer _ => inferInstanceAs (Decidable (_ ∧ ∀ _ < _, ∀ _ ∈ _, _))
  | .scan _ _ => inferInstanceAs (Decidable (∀ _ ∈ _, _))
  | .failNext _ _ _ => inferInstanceAs (Decidable (∀ _ ∈ _, _))
  | .mutate _ _ | .transact _ _ | .mirror _ | .pauseTask _ _ _ | .spawn _ | .register _
  | .resumeTask _ _ _ | .check _ | .endSweep _ | .bridge _ _ => isTrue trivial

/-- Timers are armed from here on, and every attempt is one from before. -/
structure Started (state : GraceState) : Prop where
  timers : state.timers = []
  cancelsDue : state.cancelsDue = []
  cancelsLost : state.cancelsLost = []
  resumes : state.resumes = []
  births : state.births = state.tables.attempts.rows.map fun row =>
    ⟨row.graphId, row.attemptId, 0⟩

def step (before : GraceState) (action : GraceAction) (after : GraceState) : Prop :=
  before.act action = some after

def calmStep (before : GraceState) (action : GraceAction) (after : GraceState) : Prop :=
  before.Calm action ∧ before.act action = some after

end GraceState

/-! ## What a bridge leaves -/

section Bridge

variable {store : TaskStore} {taskId subtaskId other : String} {rearmed : Bool} {now : Instant}

theorem stopped_revertSweptSubtask :
    (store.revertSweptSubtask taskId subtaskId rearmed now).2.stopped taskId subtaskId := by
  unfold revertSweptSubtask stopped
  split
  · rename_i missing
    simp [TaskStore.subtask, missing]
  · rename_i task lookedUp
    split
    · rename_i missing
      simp [TaskStore.subtask, lookedUp, missing]
    · rename_i subtask found
      split
      · rw [subtask_putTask_self]
        rw [findSubtask_changeSubtask (fun subtask => by rfl) found]
        cases rearmed <;> simp
      · rename_i idle
        simp only [Bool.or_eq_true, decide_eq_true_eq, not_or] at idle
        simp [TaskStore.subtask, lookedUp, found, idle]

theorem stopped_revertSweptSubtask_of_stopped (stopped : store.stopped taskId other) :
    (store.revertSweptSubtask taskId subtaskId rearmed now).2.stopped taskId other := by
  by_cases same : subtaskId = other
  · subst same
    exact stopped_revertSweptSubtask
  · unfold revertSweptSubtask
    split
    · exact stopped
    · rename_i task lookedUp
      split
      · exact stopped
      · split
        · unfold TaskStore.stopped at stopped ⊢
          rwa [subtask_putTask_ne (show (store.untrackAssigned subtaskId).tasks = _ from rfl)
            lookedUp (by rfl) (fun subtask => by rfl) fun both => same both.2]
        · exact stopped

theorem stopped_bridgeSwept {swept : List SweptAttempt} {attempt : SweptAttempt}
    (member : attempt ∈ swept) :
    (store.bridgeSwept taskId swept now).stopped taskId attempt.nodeId := by
  have kept : ∀ (swept : List SweptAttempt) (store : TaskStore),
      store.stopped taskId attempt.nodeId →
      (store.bridgeSwept taskId swept now).stopped taskId attempt.nodeId := by
    intro swept
    induction swept with
    | nil => exact fun _ stopped => stopped
    | cons first rest ih =>
      exact fun _ stopped => ih _ (stopped_revertSweptSubtask_of_stopped stopped)
  induction swept generalizing store with
  | nil => cases member
  | cons first rest ih =>
    rcases mem_cons.mp member with rfl | later
    · exact kept rest _ stopped_revertSweptSubtask
    · exact ih later

end Bridge

namespace GraceState

/-! ## What every step keeps -/

/-- The attempt is known, and was scheduled after at most so many resumes. -/
def Noted (state : GraceState) (limit : Nat) (graphId attemptId : String) : Prop :=
  (∃ birth ∈ state.births, birth.Names graphId attemptId) ∧
    ∀ birth ∈ state.births, birth.Names graphId attemptId → birth.resumed ≤ limit

/-- The timer was armed after every resume that it need not be cancelled for, and what it
fails is older. -/
structure Fits (state : GraceState) (timer : GraceTimer) : Prop where
  fresh : timer.phase = .sleeping ∨ timer.phase = .checked → timer.failed = []
  whole : timer.phase = .ended → ∀ attempt ∈ timer.failed, attempt ∈ timer.bridged
  current : timer.phase ≠ .ended →
    state.resumes.count timer.taskId ≤ timer.armedAfter ∨ state.Awaits timer.taskId
  scanned : ∀ row ∈ timer.phase.scanned, state.Noted timer.armedAfter timer.taskId row.attemptId
  failed : ∀ attempt ∈ timer.failed, state.Noted timer.armedAfter attempt.graphId attempt.attemptId

structure Sound (state : GraceState) : Prop where
  known : ∀ row ∈ state.tables.attempts.rows,
    ∃ birth ∈ state.births, birth.Names row.graphId row.attemptId
  counted : ∀ birth ∈ state.births, birth.resumed ≤ state.resumes.count birth.graphId
  timers : ∀ timer ∈ state.timers, state.Fits timer

variable {state next : GraceState} {timer : GraceTimer} {tables : Tables}

theorem Started.sound (started : state.Started) : state.Sound where
  known := by
    intro row member
    rw [started.births]
    exact ⟨_, mem_map_of_mem member, rfl, rfl⟩
  counted := by
    intro birth member
    rw [started.births, mem_map] at member
    obtain ⟨row, -, rfl⟩ := member
    exact Nat.zero_le _
  timers := by simp [started.timers]

theorem Sound.whole (sound : state.Sound) : state.Whole where
  bridged timer member := (sound.timers timer member).whole
  older timer member attempt failed := ((sound.timers timer member).failed attempt failed).2

theorem Fits.mono (fits : state.Fits timer)
    (noted : ∀ limit graphId attemptId, state.Noted limit graphId attemptId →
      next.Noted limit graphId attemptId)
    (current : timer.phase ≠ .ended →
      state.resumes.count timer.taskId ≤ timer.armedAfter ∨ state.Awaits timer.taskId →
      next.resumes.count timer.taskId ≤ timer.armedAfter ∨ next.Awaits timer.taskId) :
    next.Fits timer where
  fresh := fits.fresh
  whole := fits.whole
  current := fun live => current live (fits.current live)
  scanned row member := noted _ _ _ (fits.scanned row member)
  failed attempt member := noted _ _ _ (fits.failed attempt member)

theorem noted_note {limit : Nat} {graphId attemptId : String}
    (noted : state.Noted limit graphId attemptId) :
    (state.note tables).Noted limit graphId attemptId := by
  obtain ⟨⟨birth, member, names⟩, older⟩ := noted
  refine ⟨⟨birth, mem_append_left _ member, names⟩, fun other otherMem otherNames => ?_⟩
  rcases mem_append.mp otherMem with old | new
  · exact older other old otherNames
  · simp only [mem_map, mem_filter, decide_eq_true_eq] at new
    obtain ⟨row, ⟨-, unknown⟩, rfl⟩ := new
    obtain ⟨rfl, rfl⟩ := otherNames
    exact absurd ⟨birth, member, names⟩ unknown

theorem Sound.note (sound : state.Sound) (tables : Tables) : (state.note tables).Sound where
  known := by
    intro row member
    by_cases old : ∃ birth ∈ state.births, birth.Names row.graphId row.attemptId
    · obtain ⟨birth, birthMem, names⟩ := old
      exact ⟨birth, mem_append_left _ birthMem, names⟩
    · refine ⟨_, mem_append_right _ (mem_map_of_mem (mem_filter.mpr
        ⟨member, decide_eq_true old⟩)), rfl, rfl⟩
  counted := by
    intro birth member
    rcases mem_append.mp member with old | new
    · exact sound.counted birth old
    · obtain ⟨row, -, rfl⟩ := mem_map.mp new
      exact Nat.le_refl _
  timers timer member :=
    (sound.timers timer member).mono (fun _ _ _ => noted_note) fun _ current => current

theorem Sound.of_timers (sound : state.Sound) (tables : next.tables = state.tables)
    (births : next.births = state.births) (resumes : next.resumes = state.resumes)
    (cancels : next.Awaits = state.Awaits) (timers : ∀ timer ∈ next.timers, state.Fits timer) :
    next.Sound where
  known := by
    rw [tables, births]
    exact sound.known
  counted := by
    rw [births, resumes]
    exact sound.counted
  timers timer member := by
    apply (timers timer member).mono
    · unfold Noted
      rw [births]
      exact fun _ _ _ noted => noted
    · rw [resumes, cancels]
      exact fun _ current => current

theorem Sound.setTimer (sound : state.Sound) {position : Nat} (fits : state.Fits timer) :
    (state.setTimer position timer).Sound := by
  refine sound.of_timers rfl rfl rfl rfl fun other member => ?_
  rcases mem_or_eq_of_mem_set member with old | rfl
  · exact sound.timers other old
  · exact fits

theorem Fits.abort (fits : state.Fits timer) (whole : ¬ timer.HalfApplied) :
    state.Fits timer.abort where
  fresh := by simp [GraceTimer.abort]
  whole := by
    intro _ attempt member
    by_cases ended : timer.phase = .ended
    · exact fits.whole ended attempt member
    · have none : timer.failed = [] := by
        by_contra some
        exact whole ⟨ended, some⟩
      simp [GraceTimer.abort, none] at member
  current live := absurd rfl live
  scanned row member := by simp [GraceTimer.abort, GracePhase.scanned] at member
  failed := fits.failed

theorem mem_cancelPauseGraceTimer {taskId : String}
    (member : timer ∈ (state.cancelPauseGraceTimer taskId).timers) :
    (∃ position, state.timers[position]? = some timer ∧
        position ∉ state.handles.lookup taskId) ∨
      ∃ position ∈ state.handles.lookup taskId, ∃ old, state.timers[position]? = some old ∧
        timer = old.abort := by
  unfold cancelPauseGraceTimer at member
  cases lookedUp : state.handles.lookup taskId with
  | none =>
    simp only [lookedUp] at member
    obtain ⟨position, found⟩ := mem_iff_getElem?.mp member
    exact .inl ⟨position, found, by simp⟩
  | some handle =>
    simp only [lookedUp] at member
    obtain ⟨position, found⟩ := mem_iff_getElem?.mp member
    rw [getElem?_modify] at found
    by_cases same : handle = position
    · subst same
      simp only [↓reduceIte, Option.map_eq_map, Option.map_eq_some_iff] at found
      obtain ⟨old, stored, rfl⟩ := found
      exact .inr ⟨handle, rfl, old, stored, rfl⟩
    · simp only [same, ↓reduceIte, Option.map_eq_map, Option.map_id'] at found
      exact .inl ⟨position, found, by simpa using same⟩

theorem cancelPauseGraceTimer_frame (state : GraceState) (taskId : String) :
    (state.cancelPauseGraceTimer taskId).tables = state.tables ∧
      (state.cancelPauseGraceTimer taskId).births = state.births ∧
      (state.cancelPauseGraceTimer taskId).resumes = state.resumes ∧
      (state.cancelPauseGraceTimer taskId).cancelsDue = state.cancelsDue ∧
      (state.cancelPauseGraceTimer taskId).cancelsLost = state.cancelsLost := by
  unfold cancelPauseGraceTimer
  split <;> exact ⟨rfl, rfl, rfl, rfl, rfl⟩

section

variable (sound : state.Sound)

include sound

theorem fits_cancelPauseGraceTimer {taskId : String} (interruptible : state.Interruptible taskId)
    (member : timer ∈ (state.cancelPauseGraceTimer taskId).timers) : state.Fits timer := by
  rcases mem_cancelPauseGraceTimer member with
    ⟨position, found, -⟩ | ⟨position, handle, old, found, rfl⟩
  · exact sound.timers timer (mem_of_getElem? found)
  · exact (sound.timers old (mem_of_getElem? found)).abort (interruptible position handle old found)

theorem Sound.resume {store : TaskStore} {taskId : String} {flushed : Bool} : Sound { state with
      store := store
      resumes := state.resumes ++ [taskId]
      cancelsDue := if flushed then state.cancelsDue ++ [taskId] else state.cancelsDue
      cancelsLost := if flushed then state.cancelsLost else state.cancelsLost ++ [taskId] } where
  known := sound.known
  counted birth member := by
    rw [count_append]
    exact Nat.le_add_right_of_le (sound.counted birth member)
  timers timer member := by
    refine (sound.timers timer member).mono (fun _ _ _ noted => noted) fun _ current => ?_
    by_cases same : timer.taskId = taskId
    · right
      unfold Awaits
      cases flushed <;> simp [same]
    · rcases current with counted | due | lost
      · left
        simpa [count_singleton, Ne.symm same] using counted
      · right
        left
        cases flushed <;> simp [due]
      · right
        right
        cases flushed <;> simp [lost]

theorem Sound.cancelTimer {taskId : String} (interruptible : state.Interruptible taskId)
    (reached : ∀ position < state.timers.length, ∀ timer ∈ state.timers[position]?, timer.taskId =
        taskId → timer.phase = .ended ∨ position ∈ state.handles.lookup taskId) :
    Sound { state.cancelPauseGraceTimer taskId with
      cancelsDue := state.cancelsDue.erase taskId } := by
  obtain ⟨tables, births, resumes, due, lost⟩ := cancelPauseGraceTimer_frame state taskId
  refine ⟨?_, ?_, fun timer member => ?_⟩
  · simpa only [tables, births] using sound.known
  · simpa only [births, resumes] using sound.counted
  · apply (fits_cancelPauseGraceTimer sound interruptible member).mono
    · simp only [Noted, births]
      exact fun _ _ _ noted => noted
    · simp only [Awaits, resumes, lost]
      intro live current
      have other : timer.taskId ≠ taskId := by
        intro same
        rcases mem_cancelPauseGraceTimer member with ⟨position, found, outside⟩ | ⟨_, _, _, _, rfl⟩
        · have bound := (List.getElem?_eq_some_iff.mp found).1
          rcases reached position bound timer found same with ended | handle
          · exact live ended
          · exact outside handle
        · exact live rfl
      rwa [mem_erase_of_ne other]

theorem noted_of_scanned {limit : Nat} {taskId : String}
    (older : ∀ birth ∈ state.births, birth.graphId = taskId → birth.resumed ≤ limit)
    {row : TaskAttempt} (scanned : row ∈ state.tables.runningAttempts taskId) :
    state.Noted limit taskId row.attemptId := by
  simp only [Tables.runningAttempts, mem_insertionSort, mem_filter, decide_eq_true_eq] at scanned
  obtain ⟨member, rfl, -⟩ := scanned
  exact ⟨sound.known row member, fun birth birthMem names => older birth birthMem names.1⟩

theorem Sound.failNext {position : Nat} {attempt : TaskAttempt} {rest : List TaskAttempt}
    {now : Timestamp} {answer : Answer} (fits : state.Fits timer)
    (sweeping : timer.phase = .sweeping (attempt :: rest))
    (heard : answer = .committed ∨ answer = .refused ∧ timer.failed = []) :
    (state.failNext position timer attempt rest now answer).Sound := by
  rcases heard with rfl | ⟨rfl, none⟩
  · obtain ⟨outcome, after, ran, -⟩ := Graph.failAttemptTx_changes timer.taskId attempt.nodeId
      attempt.attemptId defaultMaxAttempts now state.tables
    have scanned := fits.scanned
    rw [sweeping] at scanned
    have live : timer.phase ≠ .ended := by simp [sweeping]
    unfold GraceState.failNext
    simp only [Transition.atomically_of_ok ran]
    refine (sound.note after).setTimer ⟨by simp, (nomatch ·), fun _ => fits.current live,
      fun row member => noted_note (scanned row (mem_cons_of_mem _ member)), ?_⟩
    intro swept member
    apply noted_note
    cases outcome with
    | fenced => exact fits.failed swept member
    | rearmedToReady | nodeFailed =>
      rcases mem_append.mp member with old | new
      · exact fits.failed swept old
      · rw [mem_singleton.mp new]
        exact scanned attempt mem_cons_self
  · exact sound.setTimer (fits.abort fun half => half.2 none)

end

theorem Fits.bridge {store : TaskStore} {now : Instant} (fits : state.Fits timer) :
    state.Fits { timer with
      phase := .ended
      bridged := timer.failed.filter fun attempt =>
        (store.bridgeSwept timer.taskId timer.failed now).stopped timer.taskId attempt.nodeId } where
  fresh := by simp
  whole _ attempt member := mem_filter.mpr ⟨member, stopped_bridgeSwept member⟩
  current live := absurd rfl live
  scanned row member := by simp [GracePhase.scanned] at member
  failed := fits.failed

variable {position : Nat}

section

variable (sound : state.Sound)

include sound

theorem Sound.check (step : state.act (.check position) = some next) : next.Sound := by
  simp only [act] at step
  split at step
  · rename_i timer found
    have fits := sound.timers timer (mem_of_getElem? found)
    split at step
    · cases step
    · rename_i awake
      simp only [ne_eq, decide_not, Bool.or_eq_true, Bool.not_eq_eq_eq_not, Bool.not_true,
        decide_eq_false_iff_not, not_or, not_not] at awake
      have none := fits.fresh (.inl awake.1)
      rw [← Option.some.inj step]
      apply sound.setTimer
      split
      · exact ⟨fun _ => none, (nomatch ·), fun _ => fits.current (by simp [awake.1]),
          by simp [GracePhase.scanned], fits.failed⟩
      · exact fits.abort fun half => half.2 none
  · cases step

theorem Sound.scan {answered : Bool} (calm : state.Calm (.scan position answered))
    (step : state.act (.scan position answered) = some next) : next.Sound := by
  simp only [act] at step
  split at step
  · rename_i timer found
    have fits := sound.timers timer (mem_of_getElem? found)
    split at step
    · cases step
    · rename_i ready
      simp only [ne_eq, decide_not, Bool.or_eq_true, Bool.not_eq_eq_eq_not, Bool.not_true,
        decide_eq_false_iff_not, not_or, not_not] at ready
      have none := fits.fresh (.inr ready.1)
      have current := fits.current (by simp [ready.1])
      rw [← Option.some.inj step]
      apply sound.setTimer
      split
      · refine ⟨by simp, (nomatch ·), fun _ => current, ?_, fits.failed⟩
        intro row member
        apply noted_of_scanned sound _ member
        rcases calm timer found with cancelled | older
        · intro birth birthMem same
          have counted := sound.counted birth birthMem
          rw [same] at counted
          exact counted.trans (current.resolve_right cancelled)
        · exact older
      · exact fits.abort fun half => half.2 none
  · cases step

theorem Sound.endSweep (step : state.act (.endSweep position) = some next) : next.Sound := by
  simp only [act] at step
  split at step
  · rename_i timer found
    have fits := sound.timers timer (mem_of_getElem? found)
    split at step
    · rename_i sweeping
      rw [← Option.some.inj step]
      apply sound.setTimer
      split
      · rename_i none
        exact fits.abort fun half => half.2 none
      · exact ⟨by simp, (nomatch ·), fun _ => fits.current (by simp [sweeping]),
          by simp [GracePhase.scanned], fits.failed⟩
    · cases step
  · cases step

theorem Sound.bridge {now : Instant} (step : state.act (.bridge position now) = some next) :
    next.Sound := by
  simp only [act] at step
  split at step
  · rename_i timer found
    split at step
    · cases step
    · rw [← Option.some.inj step]
      refine sound.of_timers rfl rfl rfl rfl fun other member => ?_
      rcases mem_or_eq_of_mem_set member with old | rfl
      · exact sound.timers other old
      · exact (sound.timers timer (mem_of_getElem? found)).bridge
  · cases step

/-- A calm step keeps the timers sound. -/
theorem Sound.step {action : GraceAction} (calm : state.Calm action)
    (step : state.act action = some next) : next.Sound := by
  cases action with
  | mutate mutation now =>
    simp only [act] at step
    split at step
    · cases step
    · rw [← Option.some.inj step]
      exact sound.of_timers rfl rfl rfl rfl sound.timers
  | transact transaction now | mirror task =>
    rw [← Option.some.inj step]
    exact sound.note _
  | pauseTask taskId now flushed =>
    simp only [act] at step
    split at step
    · cases step
    · split at step
      · rw [← Option.some.inj step]
        exact sound
      · rw [← Option.some.inj step]
        exact sound.of_timers rfl rfl rfl rfl sound.timers
  | disarm taskId =>
    simp only [act] at step
    split at step
    · rw [← Option.some.inj step]
      obtain ⟨tables, births, resumes, due, lost⟩ := cancelPauseGraceTimer_frame state taskId
      refine sound.of_timers ?_ ?_ ?_ ?_
        fun timer member => fits_cancelPauseGraceTimer sound calm member
      · exact tables
      · exact births
      · exact resumes
      · funext other
        simp only [Awaits, due, lost]
    · cases step
  | spawn taskId =>
    simp only [act] at step
    split at step
    · rw [← Option.some.inj step]
      refine sound.of_timers rfl rfl rfl rfl fun timer member => ?_
      rcases mem_append.mp member with old | new
      · exact sound.timers timer old
      · rw [mem_singleton.mp new]
        exact ⟨fun _ => rfl, (nomatch ·), fun _ => .inl (Nat.le_refl _),
          by simp [GracePhase.scanned], by simp⟩
    · cases step
  | register position =>
    simp only [act] at step
    split at step
    · obtain ⟨timer, -, rfl⟩ := Option.map_eq_some_iff.mp step
      exact sound.of_timers rfl rfl rfl rfl sound.timers
    · cases step
  | resumeTask taskId now flushed =>
    simp only [act] at step
    split at step
    · cases step
    · split at step
      · rw [← Option.some.inj step]
        exact sound
      · rw [← Option.some.inj step]
        exact sound.resume
  | cancelTimer taskId =>
    simp only [act] at step
    split at step
    · rw [← Option.some.inj step]
      exact sound.cancelTimer calm.1 calm.2
    · cases step
  | check position => exact sound.check step
  | scan position answered => exact sound.scan calm step
  | failNext position now answer =>
    simp only [act] at step
    split at step
    · rename_i timer found
      split at step
      · rename_i attempt rest sweeping
        rw [← Option.some.inj step]
        exact sound.failNext (sound.timers timer (mem_of_getElem? found)) sweeping
          (calm timer found)
      · cases step
    · cases step
  | endSweep position => exact sound.endSweep step
  | bridge position now => exact sound.bridge step

end

/-- In every run of calm steps, every pause-grace stop is applied as a whole. -/
theorem whole_of_run {start reached : GraceState} {actions : List GraceAction}
    (started : start.Started) (run : Run calmStep start actions reached) : reached.Whole := by
  have sound : reached.Sound :=
    run.invariant (fun _ => True) (fun _ _ _ sound _ moved => sound.step moved.1 moved.2)
      (fun _ _ => trivial) started.sound
  exact sound.whole

/-- A task whose only subtask runs. -/
def sample : GraceState where
  store := sampleStore [sampleSubtask "node-1" .inProgress .preferRemote]
  wired := true
  tables := Graph.importTask { Graph.chainTask with
    id := "task-1"
    subtasks := [Graph.pendingSubtask "node-1" []] } .empty
  timers := []
  handles := ∅
  armsDue := []
  spawnsDue := []
  handlesDue := []
  cancelsDue := []
  cancelsLost := []
  resumes := []
  births := []

/-- The task is paused and its timer finds it so. -/
def sampleCheck : List GraceAction :=
  [.pauseTask "task-1" 2 true, .disarm "task-1", .spawn "task-1", .register 0, .check 0]

/-- The subtask is dispatched, the task is paused, and the timer fails the attempt. -/
def sampleSweep : List GraceAction :=
  .transact (.scheduleAttempt "task-1" "node-1" none) 1 ::
    (sampleCheck ++ [.scan 0 true, .failNext 0 3 .committed, .endSweep 0])

def sampleFailed : SweptAttempt := ⟨"task-1", "node-1", "task-1:node-1:0", true⟩

theorem started_sample : sample.Started :=
  ⟨rfl, rfl, rfl, rfl, by decide +kernel⟩

/-- What a run of the sample leaves. -/
def outcome (state : GraceState) : List GraceTimer × List AttemptBirth × List String ×
    Option SubtaskStatus :=
  (state.timers, state.births, state.tables.attempts.rows.map TaskAttempt.status,
    (state.store.subtask "task-1" "node-1").map Subtask.status)

theorem whole_of_run_bridged :
    ∃ reached, Run calmStep sample
        (sampleSweep ++ [.bridge 0 4, .resumeTask "task-1" 5 true, .cancelTimer "task-1"]) reached ∧
      reached.Whole ∧ reached.outcome =
        ([⟨"task-1", .ended, 0, [sampleFailed], [sampleFailed]⟩],
          [⟨"task-1", "task-1:node-1:0", 0⟩], ["FAILED"], some .pending) := by
  have ran : (runAll (fun state action => if state.Calm action then state.act action else none)
      sample (sampleSweep ++ [.bridge 0 4, .resumeTask "task-1" 5 true,
        .cancelTimer "task-1"])).map outcome =
      some ([⟨"task-1", .ended, 0, [sampleFailed], [sampleFailed]⟩],
        [⟨"task-1", "task-1:node-1:0", 0⟩], ["FAILED"], some .pending) := by
    decide +kernel
  obtain ⟨reached, run, left⟩ := Option.map_eq_some_iff.mp ran
  have calm : Run calmStep sample _ reached :=
    (Transition.run_iff_runAll.mpr run).mono fun before action after moved => by
      simpa [calmStep] using moved
  exact ⟨reached, calm, whole_of_run started_sample calm, left⟩

/-- A resume cancels the timer before it has moved the subtask back; another one leaves
time to dispatch before the timer sweeps. -/
theorem whole_fails_resumed :
    sample.Started ∧
      (∃ reached, Run step sample
          (sampleSweep ++ [.resumeTask "task-1" 4 true, .cancelTimer "task-1"]) reached ∧
        reached.outcome = ([⟨"task-1", .ended, 0, [sampleFailed], []⟩],
          [⟨"task-1", "task-1:node-1:0", 0⟩], ["FAILED"], some .inProgress) ∧
        ¬ reached.Whole) ∧
      ∃ reached, Run step sample
          (sampleCheck ++ [.resumeTask "task-1" 4 true,
            .transact (.scheduleAttempt "task-1" "node-1" none) 5, .scan 0 true,
            .failNext 0 6 .committed]) reached ∧
        reached.outcome = ([⟨"task-1", .sweeping [], 0, [sampleFailed], []⟩],
          [⟨"task-1", "task-1:node-1:0", 1⟩], ["FAILED"], some .inProgress) ∧
        ¬ reached.Whole := by
  refine ⟨started_sample, ?_, ?_⟩
  · have ran : (runAll act sample
        (sampleSweep ++ [.resumeTask "task-1" 4 true, .cancelTimer "task-1"])).map outcome =
        some ([⟨"task-1", .ended, 0, [sampleFailed], []⟩],
          [⟨"task-1", "task-1:node-1:0", 0⟩], ["FAILED"], some .inProgress) := by
      decide +kernel
    obtain ⟨reached, run, left⟩ := Option.map_eq_some_iff.mp ran
    refine ⟨reached, Transition.run_iff_runAll.mpr run, left, fun whole => ?_⟩
    have timers : reached.timers = _ := congrArg Prod.fst left
    have bridged := whole.bridged
    simp [timers] at bridged
  · have ran : (runAll act sample
        (sampleCheck ++ [.resumeTask "task-1" 4 true,
          .transact (.scheduleAttempt "task-1" "node-1" none) 5, .scan 0 true,
          .failNext 0 6 .committed])).map outcome =
        some ([⟨"task-1", .sweeping [], 0, [sampleFailed], []⟩],
          [⟨"task-1", "task-1:node-1:0", 1⟩], ["FAILED"], some .inProgress) := by
      decide +kernel
    obtain ⟨reached, run, left⟩ := Option.map_eq_some_iff.mp ran
    refine ⟨reached, Transition.run_iff_runAll.mpr run, left, fun whole => ?_⟩
    have timers : reached.timers = _ := congrArg Prod.fst left
    have births : reached.births = _ := congrArg (fun left => left.2.1) left
    have older := whole.older
    simp [timers, births, AttemptBirth.Names, sampleFailed] at older

end GraceState

end UltimateCoders.Gateway
