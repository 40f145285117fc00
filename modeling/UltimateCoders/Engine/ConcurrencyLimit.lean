import Mathlib.Algebra.BigOperators.Ring.Finset
import UltimateCoders.Engine.RateLimiter
import UltimateCoders.Transition.Protocol
import UltimateCoders.Transition.Weights

/-! # The limit on concurrent calls

The limiter looks at the number of active calls in one step and raises it in another, so calls
that look together may all pass. The limit holds as long as a call passes only while the active
ones and those that have passed before it leave room. What is taken from the buckets is exact
in any case: a call that is rejected gives back what it took.
-/

namespace UltimateCoders.Engine

open Transition LimiterOperation TokenBucket Function

inductive LimiterStage where
  | asking
  /-- The number of active calls was below the limit. -/
  | passed
  /-- There is no request left in its bucket. -/
  | short
  /-- It has taken a request. -/
  | charged
  /-- It has taken a request, and there are too few tokens. -/
  | shortOfTokens
  | refunding
  /-- It has taken a request and its tokens. -/
  | paid
  | counted
  | recorded
  | admitted
  | released
  | rejected
  /-- It stopped, with or without a request that it had taken. -/
  | panicked (charged : Bool)
  deriving DecidableEq

open LimiterStage

structure LimiterPhase where
  call : LlmCall
  stage : LimiterStage

namespace LimiterStage

def next (maxConcurrent : Nat) : LimiterStage → (operation : LimiterOperation) →
    operation.Answer → LimiterStage
  | asking, .loadActive, active => if maxConcurrent ≤ active then rejected else passed
  | passed, .consumeRpm _, enough => if enough then charged else short
  | short, .waitRpm _, wait => if wait.isSome then rejected else panicked false
  | charged, .consumeTpm _, enough => if enough then paid else shortOfTokens
  | shortOfTokens, .waitTpm _, wait => if wait.isSome then refunding else panicked true
  | refunding, .refundRpm _, _ => rejected
  | paid, .addActive, _ => counted
  | counted, .addRequests, _ => recorded
  | recorded, .addTokens _, _ => admitted
  | admitted, .subActive, _ => released
  | stage, _, _ => stage

end LimiterStage

namespace LimiterPhase

variable (phase : LimiterPhase)

/-- The next step of a call. -/
def Asks (operation : LimiterOperation) : Prop :=
  match phase.stage with
  | .asking => operation = .loadActive
  | .passed => operation = .consumeRpm 1
  | .short => operation = .waitRpm 1
  | .charged => operation = .consumeTpm phase.call.estimatedTokens
  | .shortOfTokens => operation = .waitTpm phase.call.estimatedTokens
  | .refunding => operation = .refundRpm 1
  | .paid => operation = .addActive
  | .counted => operation = .addRequests
  | .recorded => operation = .addTokens (asU64 phase.call.estimatedTokens)
  | .admitted => operation = .subActive
  | .released | .rejected | .panicked _ => False

/-- A call that counts as active. -/
def slot : Nat :=
  match phase.stage with
  | .counted | .recorded | .admitted => 1
  | _ => 0

/-- A call that has passed the limit, and may still become active. -/
def candidate : Nat :=
  match phase.stage with
  | .passed | .charged | .paid => 1
  | _ => 0

/-- The requests that a call has taken from their bucket. -/
def requests : Nat :=
  match phase.stage with
  | .asking | .passed | .short | .rejected | .panicked false => 0
  | _ => 1

/-- The tokens that a call has taken from their bucket. -/
def tokens : ℚ :=
  match phase.stage with
  | .paid | .counted | .recorded | .admitted | .released => phase.call.estimatedTokens
  | _ => 0

theorem slot_add_candidate_le : phase.slot + phase.candidate ≤ 1 := by
  unfold slot candidate
  cases phase.stage <;> simp

/-- The phase in which a call returns. -/
def Ends (result : Except AcquireError Unit) (phase : LimiterPhase) : Prop :=
  match result with
  | .ok () => phase.stage = .admitted ∨ phase.stage = .released
  | .error (.rateLimited _) => phase.stage = .rejected
  | .error .panicked => ∃ charged, phase.stage = .panicked charged

end LimiterPhase

/-- The phase in which `try_acquire` returns. -/
def LlmCall.EndsAcquire (call : LlmCall) (result : Except AcquireError Unit)
    (phase : LimiterPhase) : Prop :=
  match result with
  | .ok () => phase = ⟨call, .admitted⟩
  | .error error => phase.Ends (.error error)

def limiting (maxConcurrent : Nat) :
    Protocol LimiterOperation Answer LimiterPhase where
  permits := LimiterPhase.Asks
  next phase operation answer :=
    { phase with stage := phase.stage.next maxConcurrent operation answer }

theorem follows_tryAcquire (maxConcurrent : Nat) (call : LlmCall) :
    (LlmRateLimiter.tryAcquire maxConcurrent call.estimatedTokens).Follows
      (limiting maxConcurrent) (fun _ _ => True) call.EndsAcquire ⟨call, .asking⟩ := by
  refine ⟨rfl, fun active _ => ?_⟩
  change Program.Follows _ _ _ (if maxConcurrent ≤ active then _ else _)
    (LimiterPhase.mk call (if maxConcurrent ≤ active then .rejected else .passed))
  by_cases full : maxConcurrent ≤ active
  · rw [if_pos full, if_pos full]
    exact rfl
  · rw [if_neg full, if_neg full]
    refine ⟨rfl, fun enough _ => ?_⟩
    cases enough with
    | false =>
      refine ⟨rfl, fun wait _ => ?_⟩
      cases wait with
      | none => exact ⟨false, rfl⟩
      | some seconds => exact rfl
    | true =>
      refine ⟨rfl, fun enough _ => ?_⟩
      cases enough with
      | false =>
        refine ⟨rfl, fun wait _ => ?_⟩
        cases wait with
        | none => exact ⟨true, rfl⟩
        | some seconds => exact ⟨rfl, fun _ _ => rfl⟩
      | true =>
        exact ⟨rfl, fun _ _ => ⟨rfl, fun _ _ => ⟨rfl, fun _ _ => rfl⟩⟩⟩

theorem follows_llmCall (maxConcurrent : Nat) (call : LlmCall) :
    (call.program maxConcurrent).Follows (limiting maxConcurrent) (fun _ _ => True)
      LimiterPhase.Ends ⟨call, .asking⟩ := by
  refine (follows_tryAcquire maxConcurrent call).seq fun result phase ended => ?_
  cases result with
  | error error => exact ended
  | ok =>
    obtain rfl : phase = ⟨call, .admitted⟩ := ended
    cases releases : call.releases with
    | false =>
      exact .inl rfl
    | true =>
      exact ⟨rfl, fun _ _ => .inr rfl⟩

section Holds

variable {Index : Type} [Fintype Index] [DecidableEq Index] {config : LlmRateLimiterConfig}
  {limiter later : LlmRateLimiter} {phases : Index → LimiterPhase} {index : Index}
  {stage old : LimiterStage} {call : LlmCall}

/-- The next step keeps the limit: a call passes it only if the active calls and those that have
passed it leave room, and no negative estimate fills the bucket of tokens beyond its capacity. -/
structure StepsWithin (limiter : LlmRateLimiter) (phases : Index → LimiterPhase)
    (index : Index) : Prop where
  passes : (phases index).stage = .asking → limiter.activeCount < limiter.maxConcurrent →
    limiter.activeCount + weigh LimiterPhase.candidate phases < limiter.maxConcurrent
  charges : (phases index).stage = .charged →
    (phases index).call.estimatedTokens ≤ limiter.tpmBucket.tokens →
      limiter.tpmBucket.tokens - (phases index).call.estimatedTokens ≤ limiter.tpmBucket.capacity

/-- No negative estimate fills the bucket of tokens beyond its capacity. -/
def RoomToCharge (limiter : LlmRateLimiter) (phase : LimiterPhase) : Prop :=
  phase.stage = .charged → phase.call.estimatedTokens ≤ limiter.tpmBucket.tokens →
    limiter.tpmBucket.tokens - phase.call.estimatedTokens ≤ limiter.tpmBucket.capacity

/-- The counts and buckets are as the calls have left them, and what has passed the limit is within
it, if this is `bounded`. -/
structure LimiterHolds (bounded : Prop) (config : LlmRateLimiterConfig) (limiter : LlmRateLimiter)
    (phases : Index → LimiterPhase) : Prop where
  limit : limiter.maxConcurrent = config.maxConcurrent
  rpm : limiter.rpmBucket.capacity = config.rpm
  tpm : limiter.tpmBucket.capacity = config.tpm
  active : limiter.activeCount = weigh LimiterPhase.slot phases
  within : bounded → weigh LimiterPhase.slot phases + weigh LimiterPhase.candidate phases ≤
    config.maxConcurrent
  requests : limiter.rpmBucket.tokens + (weigh LimiterPhase.requests phases : Nat) = config.rpm
  tokens : limiter.tpmBucket.tokens + weigh LimiterPhase.tokens phases = config.tpm
  room : limiter.tpmBucket.tokens ≤ config.tpm

namespace LimiterHolds

variable {bounded : Prop}

omit [DecidableEq Index] in
theorem initially (calls : Index → LlmCall) :
    LimiterHolds bounded config (.new config) fun index => ⟨calls index, .asking⟩ := by
  have nothing : weigh LimiterPhase.requests (fun index => ⟨calls index, .asking⟩) = 0 :=
    weigh_eq_zero fun _ => rfl
  have free : weigh LimiterPhase.tokens (fun index => ⟨calls index, .asking⟩) = 0 :=
    weigh_eq_zero fun _ => rfl
  refine ⟨rfl, rfl, rfl, (weigh_eq_zero fun _ => rfl).symm, ?_, ?_, ?_, le_rfl⟩
  · have slots : weigh LimiterPhase.slot (fun index => ⟨calls index, .asking⟩) = 0 :=
      weigh_eq_zero fun _ => rfl
    have candidates : weigh LimiterPhase.candidate (fun index => ⟨calls index, .asking⟩) = 0 :=
      weigh_eq_zero fun _ => rfl
    rw [slots, candidates]
    exact fun _ => Nat.zero_le _
  · rw [nothing, Nat.cast_zero, add_zero]
    rfl
  · rw [free, add_zero]
    rfl

theorem requests_room (holds : LimiterHolds bounded config limiter phases) (index : Index) :
    limiter.rpmBucket.tokens + ((phases index).requests : Nat) ≤ limiter.rpmBucket.capacity := by
  have one : ((phases index).requests : ℚ) ≤ (weigh LimiterPhase.requests phases : Nat) :=
    Nat.cast_le.mpr (le_weigh _ _ index)
  rw [holds.rpm, ← holds.requests]
  linarith

theorem rpm_room (holds : LimiterHolds bounded config limiter phases) (index : Index) :
    limiter.rpmBucket.tokens ≤ limiter.rpmBucket.capacity := by
  have given := holds.requests_room index
  have positive : (0 : ℚ) ≤ ((phases index).requests : Nat) := Nat.cast_nonneg _
  linarith

omit [DecidableEq Index] in
theorem tpm_room (holds : LimiterHolds bounded config limiter phases) :
    limiter.tpmBucket.tokens ≤ limiter.tpmBucket.capacity := by
  rw [holds.tpm]
  exact holds.room

section

variable (holds : LimiterHolds bounded config limiter phases)

include holds

theorem move (here : phases index = ⟨call, old⟩)
    (constants : later.maxConcurrent = limiter.maxConcurrent ∧
      later.rpmBucket.capacity = limiter.rpmBucket.capacity ∧
      later.tpmBucket.capacity = limiter.tpmBucket.capacity)
    (active : later.activeCount + LimiterPhase.slot ⟨call, old⟩ =
        limiter.activeCount + LimiterPhase.slot ⟨call, stage⟩)
    (within : LimiterPhase.slot ⟨call, stage⟩ + LimiterPhase.candidate ⟨call, stage⟩ ≤
        LimiterPhase.slot ⟨call, old⟩ + LimiterPhase.candidate ⟨call, old⟩ ∨
      (bounded →
        limiter.activeCount + weigh LimiterPhase.candidate phases < limiter.maxConcurrent))
    (requests : later.rpmBucket.tokens + (LimiterPhase.requests ⟨call, stage⟩ : Nat) =
        limiter.rpmBucket.tokens + (LimiterPhase.requests ⟨call, old⟩ : Nat))
    (tokens : later.tpmBucket.tokens + LimiterPhase.tokens ⟨call, stage⟩ =
        limiter.tpmBucket.tokens + LimiterPhase.tokens ⟨call, old⟩)
    (room : later.tpmBucket.tokens ≤ limiter.tpmBucket.capacity) :
    LimiterHolds bounded config later (update phases index ⟨call, stage⟩) := by
  have slots := weigh_update LimiterPhase.slot phases index ⟨call, stage⟩
  have candidates := weigh_update LimiterPhase.candidate phases index ⟨call, stage⟩
  have taken := weigh_update LimiterPhase.requests phases index ⟨call, stage⟩
  have spent := weigh_update LimiterPhase.tokens phases index ⟨call, stage⟩
  rw [here] at slots candidates taken spent
  have begun := holds.active
  have most := LimiterPhase.slot_add_candidate_le ⟨call, stage⟩
  refine ⟨constants.1.trans holds.limit, constants.2.1.trans holds.rpm,
    constants.2.2.trans holds.tpm, by omega, ?_, ?_, ?_, by rwa [← holds.tpm]⟩
  · intro kept
    have limit := holds.limit
    have bound := holds.within kept
    rcases within with fewer | vacant
    · omega
    · have vacant := vacant kept
      omega
  · have balance := holds.requests
    have takenCast := congrArg (Nat.cast (R := ℚ)) taken
    push_cast at takenCast
    linarith
  · have balance := holds.tokens
    linarith

theorem still (here : phases index = ⟨call, old⟩)
    (active : LimiterPhase.slot ⟨call, stage⟩ = LimiterPhase.slot ⟨call, old⟩)
    (requests : LimiterPhase.requests ⟨call, stage⟩ = LimiterPhase.requests ⟨call, old⟩)
    (tokens : LimiterPhase.tokens ⟨call, stage⟩ = LimiterPhase.tokens ⟨call, old⟩)
    (within :
        LimiterPhase.candidate ⟨call, stage⟩ ≤ LimiterPhase.candidate ⟨call, old⟩ ∨ (bounded →
        limiter.activeCount + weigh LimiterPhase.candidate phases < limiter.maxConcurrent)) :
    LimiterHolds bounded config limiter (update phases index ⟨call, stage⟩) :=
  holds.move here ⟨rfl, rfl, rfl⟩ (by rw [active]) (within.imp_left fun fewer => by omega)
    (by rw [requests]) (by rw [tokens]) holds.tpm_room

/-- A step that the condition allows. -/
theorem step
    (passes : bounded → (phases index).stage = .asking →
      limiter.activeCount < limiter.maxConcurrent →
      limiter.activeCount + weigh LimiterPhase.candidate phases < limiter.maxConcurrent)
    (charges : RoomToCharge limiter (phases index)) {operation : LimiterOperation}
    (asks : (phases index).Asks operation) :
    LimiterHolds bounded config (operation.execute () limiter).2
      (update phases index ((limiting config.maxConcurrent).next (phases index) operation
        (operation.execute () limiter).1)) := by
  obtain ⟨call, stage, here⟩ : ∃ call stage, phases index = ⟨call, stage⟩ := ⟨_, _, rfl⟩
  have stays := holds.requests_room index
  have full := refill_zero (holds.rpm_room index)
  have fullTokens := refill_zero holds.tpm_room
  unfold RoomToCharge at charges
  rw [here] at asks stays passes charges ⊢
  change LimiterHolds bounded config _ (update phases index
    ⟨call, stage.next config.maxConcurrent operation (operation.execute () limiter).1⟩)
  cases stage with
  | asking =>
    obtain rfl : operation = .loadActive := asks
    change LimiterHolds bounded config limiter (update phases index
      ⟨call, if config.maxConcurrent ≤ limiter.activeCount then .rejected else .passed⟩)
    split_ifs with limited
    · exact holds.still here rfl rfl rfl (.inl le_rfl)
    · have vacant : limiter.activeCount < limiter.maxConcurrent := by
        rw [holds.limit]
        exact lt_of_not_ge limited
      exact holds.still here rfl rfl rfl (.inr fun kept => passes kept rfl vacant)
  | passed =>
    obtain rfl : operation = .consumeRpm 1 := asks
    by_cases enough : 1 ≤ limiter.rpmBucket.tokens
    · have taken : limiter.rpmBucket.tryConsume 1 =
          (true, { limiter.rpmBucket with tokens := limiter.rpmBucket.tokens - 1 }) := by
        simp only [tryConsume, full, if_pos enough]
      simp only [execute, next, taken, if_true]
      refine holds.move here ⟨rfl, rfl, rfl⟩ rfl (.inl le_rfl) ?_ rfl holds.tpm_room
      simp [LimiterPhase.requests]
    · have left : limiter.rpmBucket.tryConsume 1 = (false, limiter.rpmBucket) := by
        simp only [tryConsume, full, if_neg enough]
      simp only [execute, next, left, Bool.false_eq_true, if_false]
      exact holds.still here rfl rfl rfl (.inl (Nat.zero_le _))
  | short =>
    obtain rfl : operation = .waitRpm 1 := asks
    have kept : (limiter.rpmBucket.waitTime 1).2 = limiter.rpmBucket := full
    simp only [execute, next, kept]
    cases (limiter.rpmBucket.waitTime 1).1 <;> exact holds.still here rfl rfl rfl (.inl le_rfl)
  | charged =>
    obtain rfl : operation = .consumeTpm call.estimatedTokens := asks
    by_cases enough : call.estimatedTokens ≤ limiter.tpmBucket.tokens
    · have taken : limiter.tpmBucket.tryConsume call.estimatedTokens =
          (true, { limiter.tpmBucket with
            tokens := limiter.tpmBucket.tokens - call.estimatedTokens }) := by
        simp only [tryConsume, fullTokens, if_pos enough]
      simp only [execute, next, taken, if_true]
      refine holds.move here ⟨rfl, rfl, rfl⟩ rfl (.inl le_rfl) rfl ?_ (charges rfl enough)
      simp [LimiterPhase.tokens]
    · have left : limiter.tpmBucket.tryConsume call.estimatedTokens =
          (false, limiter.tpmBucket) := by
        simp only [tryConsume, fullTokens, if_neg enough]
      simp only [execute, next, left, Bool.false_eq_true, if_false]
      exact holds.still here rfl rfl rfl (.inl (Nat.zero_le _))
  | shortOfTokens =>
    obtain rfl : operation = .waitTpm call.estimatedTokens := asks
    have kept : (limiter.tpmBucket.waitTime call.estimatedTokens).2 = limiter.tpmBucket :=
      fullTokens
    simp only [execute, next, kept]
    cases (limiter.tpmBucket.waitTime call.estimatedTokens).1 <;>
      exact holds.still here rfl rfl rfl (.inl le_rfl)
  | refunding =>
    obtain rfl : operation = .refundRpm 1 := asks
    have given : limiter.rpmBucket.refund 1 =
        { limiter.rpmBucket with tokens := limiter.rpmBucket.tokens + 1 } := by
      simp only [LimiterPhase.requests, Nat.cast_one] at stays
      simp only [refund, min_eq_left stays]
    simp only [execute, next, given]
    refine holds.move here ⟨rfl, rfl, rfl⟩ rfl (.inl le_rfl) ?_ rfl holds.tpm_room
    simp [LimiterPhase.requests]
  | admitted =>
    obtain rfl : operation = .subActive := asks
    have held : (phases index).slot ≤ weigh LimiterPhase.slot phases := le_weigh _ _ index
    rw [here, ← holds.active] at held
    exact holds.move here ⟨rfl, rfl, rfl⟩ (Nat.sub_add_cancel held) (.inl (Nat.zero_le _)) rfl rfl
      holds.tpm_room
  | paid =>
    obtain rfl : operation = .addActive := asks
    exact holds.move here ⟨rfl, rfl, rfl⟩ rfl (.inl le_rfl) rfl rfl holds.tpm_room
  | counted =>
    obtain rfl : operation = .addRequests := asks
    exact holds.move here ⟨rfl, rfl, rfl⟩ rfl (.inl le_rfl) rfl rfl holds.tpm_room
  | recorded =>
    obtain rfl : operation = .addTokens (asU64 call.estimatedTokens) := asks
    exact holds.move here ⟨rfl, rfl, rfl⟩ rfl (.inl le_rfl) rfl rfl holds.tpm_room
  | released | rejected | panicked charged => exact absurd asks id

end

end LimiterHolds

end Holds

section Run

/-- Calls that share a limiter. -/
abbrev LimiterSession (Index : Type) :=
  Session Index LlmRateLimiter LimiterOperation Answer (Except AcquireError Unit)

/-- A call that has returned and was admitted. -/
def admitted : LimiterProgram (Except AcquireError Unit) → Bool
  | .done (.ok ()) => true
  | _ => false

/-- A call that has returned without a panic. -/
def returned : LimiterProgram (Except AcquireError Unit) → Bool
  | .done (.ok ()) | .done (.error (.rateLimited _)) => true
  | _ => false

variable {Index : Type} [Fintype Index] (config : LlmRateLimiterConfig) (calls : Index → LlmCall)

def limiterSession : LimiterSession Index where
  store := .new config
  calls index := (calls index).program config.maxConcurrent
  log := []

/-- Every call that has begun has returned, and none has panicked. -/
def AllReturned (session : LimiterSession Index) : Prop :=
  ∀ index, (∀ event ∈ session.log, event.index ≠ index) ∨ returned (session.calls index)

/-- No more calls are active than may be, and once all calls have returned the buckets have lost
what the admitted ones have taken. -/
structure LimitKept (session : LimiterSession Index) : Prop where
  within : session.store.activeCount ≤ config.maxConcurrent
  charged : AllReturned session →
    session.store.rpmBucket.tokens =
        config.rpm - ∑ index, (if admitted (session.calls index) then 1 else 0) ∧
      session.store.tpmBucket.tokens = config.tpm -
        ∑ index, (if admitted (session.calls index) then (calls index).estimatedTokens else 0)

variable [DecidableEq Index]

def KeepsWithin (before : LimiterSession Index) (move : Index × Unit) : Prop :=
  StepsWithin before.store
    ((limiting config.maxConcurrent).phase (fun index => ⟨calls index, .asking⟩) before.log) move.1

variable {config calls} {session : LimiterSession Index}

omit [Fintype Index] in
theorem call_phase (log : List (Occurrence Index LimiterOperation Answer))
    (index : Index) : ((limiting config.maxConcurrent).phase
      (fun index => ⟨calls index, .asking⟩) log index).call = calls index := by
  induction log using List.reverseRecOn with
  | nil => rfl
  | append_singleton log event ih =>
    rw [Protocol.phase_snoc]
    by_cases same : index = event.index
    · subst same
      rw [update_self]
      exact ih
    · rw [update_of_ne same, ih]

omit [Fintype Index] in
theorem taken_of_returned
    (underway : session.Underway (limiting config.maxConcurrent) (fun _ _ => True)
      LimiterPhase.Ends fun index => ⟨calls index, .asking⟩)
    (all : AllReturned session) (index : Index) :
    let phase := (limiting config.maxConcurrent).phase (fun index => ⟨calls index, .asking⟩)
      session.log index
    phase.requests = (if admitted (session.calls index) then 1 else 0) ∧
      phase.tokens =
        (if admitted (session.calls index) then (calls index).estimatedTokens else 0) := by
  intro phase
  have call : phase.call = calls index := call_phase session.log index
  rcases all index with unserved | here
  · have waits : phase = ⟨calls index, .asking⟩ := Protocol.phase_of_unserved _ unserved
    have idle : admitted (session.calls index) = false := by
      cases left : session.calls index with
      | ask operation resume => rfl
      | done result =>
        have ends : LimiterPhase.Ends result phase := underway.final_of_done left
        rw [waits] at ends
        cases result with
        | error error =>
          cases error with
          | rateLimited seconds => cases ends
          | panicked =>
            obtain ⟨_, stage⟩ := ends
            cases stage
        | ok => rcases ends with stage | stage <;> cases stage
    rw [waits, idle]
    exact ⟨rfl, rfl⟩
  · cases left : session.calls index with
    | ask operation resume => simp [returned, left] at here
    | done result =>
      have ends : LimiterPhase.Ends result phase := underway.final_of_done left
      cases result with
      | error error =>
        cases error with
        | panicked => simp [returned, left] at here
        | rateLimited seconds =>
          have stage : phase.stage = .rejected := ends
          simp [LimiterPhase.requests, LimiterPhase.tokens, stage, admitted]
      | ok =>
        rcases ends with stage | stage <;>
          simp [LimiterPhase.requests, LimiterPhase.tokens, stage, admitted, call]

section Holding

variable {bounded : Prop} {moves : List (Index × Unit)}

theorem limiterHolds_of_run {condition : LimiterSession Index → Index × Unit → Prop}
    (careful : ∀ before move, condition before move →
      let phases := (limiting config.maxConcurrent).phase (fun index => ⟨calls index, .asking⟩)
        before.log
      (bounded → StepsWithin before.store phases move.1) ∧
        RoomToCharge before.store (phases move.1))
    (run : Run (servesWhere execute condition) (limiterSession config calls) moves session) :
    LimiterHolds bounded config session.store ((limiting config.maxConcurrent).phase
      (fun index => ⟨calls index, .asking⟩) session.log) := by
  let initial : Index → LimiterPhase := fun index => ⟨calls index, .asking⟩
  have underway : (limiterSession config calls).Underway (limiting config.maxConcurrent)
      (fun _ _ => True) LimiterPhase.Ends initial := fun index => follows_llmCall _ (calls index)
  let holding (limiter : LlmRateLimiter) (phases : Index → LimiterPhase)
      (_ : List (Occurrence Index LimiterOperation Answer)) : Prop :=
    LimiterHolds bounded config limiter phases
  have initially : holding (.new config) initial [] := .initially calls
  refine Session.Underway.invariant (fun _ _ _ => trivial) ?_ run underway initially
  intro before index _ operation resume _ _ taken permitted holds _ _
  obtain ⟨passes, charges⟩ := careful before (index, ()) taken
  exact LimiterHolds.step holds (fun kept => (passes kept).passes) charges permitted

/-- Calls that have returned have taken exactly what they were admitted for. -/
theorem LimiterHolds.charged {condition : LimiterSession Index → Index × Unit → Prop}
    (holds : LimiterHolds bounded config session.store ((limiting config.maxConcurrent).phase
      (fun index => ⟨calls index, .asking⟩) session.log))
    (run : Run (servesWhere execute condition) (limiterSession config calls) moves session)
    (all : AllReturned session) :
    session.store.rpmBucket.tokens =
        config.rpm - ∑ index, (if admitted (session.calls index) then 1 else 0) ∧
      session.store.tpmBucket.tokens = config.tpm -
        ∑ index, (if admitted (session.calls index) then (calls index).estimatedTokens else 0) := by
  let initial : Index → LimiterPhase := fun index => ⟨calls index, .asking⟩
  have underway : (limiterSession config calls).Underway (limiting config.maxConcurrent)
      (fun _ _ => True) LimiterPhase.Ends initial := fun index => follows_llmCall _ (calls index)
  have taken := taken_of_returned (underway.run (fun _ _ _ => trivial) run) all
  have requests : weigh LimiterPhase.requests
      ((limiting config.maxConcurrent).phase initial session.log) =
      ∑ index, (if admitted (session.calls index) then 1 else 0) :=
    Finset.sum_congr rfl fun index _ => (taken index).1
  have tokens : weigh LimiterPhase.tokens
      ((limiting config.maxConcurrent).phase initial session.log) =
      ∑ index, (if admitted (session.calls index) then (calls index).estimatedTokens else 0) :=
    Finset.sum_congr rfl fun index _ => (taken index).2
  have requestsLeft := holds.requests
  have tokensLeft := holds.tokens
  rw [requests] at requestsLeft
  simp only [Nat.cast_sum, Nat.cast_ite, Nat.cast_one, Nat.cast_zero] at requestsLeft
  exact ⟨by linarith, by linarith⟩

/-- What is taken from the buckets is exact in every run in which no negative estimate fills the
bucket of tokens beyond its capacity, whatever the limit. -/
theorem charged_of_run (run : Run (servesWhere execute fun before move => RoomToCharge before.store
      ((limiting config.maxConcurrent).phase (fun index => ⟨calls index, .asking⟩) before.log move.1))
      (limiterSession config calls) moves session) (all : AllReturned session) :
    session.store.rpmBucket.tokens =
        config.rpm - ∑ index, (if admitted (session.calls index) then 1 else 0) ∧
      session.store.tpmBucket.tokens = config.tpm -
        ∑ index, (if admitted (session.calls index) then (calls index).estimatedTokens else 0) := by
  have holds : LimiterHolds False config session.store _ :=
    limiterHolds_of_run (fun _ _ charges => ⟨False.elim, charges⟩) run
  exact holds.charged run all

/-- In every run whose steps keep the limit, no more calls are active than may be, and calls that
have returned have taken exactly what they were admitted for. -/
theorem limitKept_of_run (run : Run (servesWhere execute (KeepsWithin config calls))
      (limiterSession config calls) moves session) : LimitKept config calls session := by
  have holds : LimiterHolds True config session.store _ :=
    limiterHolds_of_run (fun _ _ careful => ⟨fun _ => careful, careful.charges⟩) run
  refine ⟨?_, holds.charged run⟩
  have active := holds.active
  have within := holds.within trivial
  omega

end Holding

end Run

section Check

variable {count : Nat} {limiter : LlmRateLimiter} {phases : Fin count → LimiterPhase}
  {index : Fin count}

theorem stepsWithin_iff : StepsWithin limiter phases index ↔
    ((phases index).stage = .asking → limiter.activeCount < limiter.maxConcurrent →
      limiter.activeCount + weigh LimiterPhase.candidate phases < limiter.maxConcurrent) ∧
    ((phases index).stage = .charged →
      (phases index).call.estimatedTokens ≤ limiter.tpmBucket.tokens →
        limiter.tpmBucket.tokens - (phases index).call.estimatedTokens ≤
          limiter.tpmBucket.capacity) :=
  ⟨fun ⟨passes, charges⟩ => ⟨passes, charges⟩, fun ⟨passes, charges⟩ => ⟨passes, charges⟩⟩

instance : Decidable (StepsWithin limiter phases index) :=
  decidable_of_iff _ stepsWithin_iff.symm

instance (config : LlmRateLimiterConfig) (calls : Fin count → LlmCall)
    (before : LimiterSession (Fin count)) (move : Fin count × Unit) :
    Decidable (KeepsWithin config calls before move) :=
  inferInstanceAs (Decidable (StepsWithin _ _ _))

/-- The next step is seen to keep the limit. -/
def staysWithin (config : LlmRateLimiterConfig) (calls : Fin count → LlmCall)
    (before : LimiterSession (Fin count)) (move : Fin count × Unit) : Bool :=
  decide (KeepsWithin config calls before move)

theorem keepsWithin_of_staysWithin {config : LlmRateLimiterConfig} {calls : Fin count → LlmCall}
    (before : LimiterSession (Fin count)) (move : Fin count × Unit)
    (within : staysWithin config calls before move = true) : KeepsWithin config calls before move :=
  of_decide_eq_true within

end Check

def limiterMoves {count : Nat} (indices : List (Fin count)) : List (Fin count × Unit) :=
  indices.map fun index => (index, ())

def limiterRun {count : Nat} (config : LlmRateLimiterConfig) (calls : Fin count → LlmCall)
    (indices : List (Fin count)) : LimiterSession (Fin count) :=
  (limiterMoves indices).foldl (Session.serve execute) (limiterSession config calls)

/-- One place, sixty requests and a hundred tokens a minute. -/
def onePlace : LlmRateLimiterConfig := ⟨60, 100, 1⟩

/-- A call that is released, one that finds no place, and one that needs too many tokens. -/
def callsInTurn : Fin 3 → LlmCall
  | 0 => ⟨40, true⟩
  | 1 => ⟨10, true⟩
  | 2 => ⟨70, true⟩

theorem limitKept_callsInTurn :
    AllReturned (limiterRun onePlace callsInTurn [0, 0, 0, 0, 1, 0, 0, 0, 2, 2, 2, 2, 2]) ∧
      LimitKept onePlace callsInTurn
        (limiterRun onePlace callsInTurn [0, 0, 0, 0, 1, 0, 0, 0, 2, 2, 2, 2, 2]) := by
  refine ⟨fun index => .inr ?_, limitKept_of_run
    (run_servesWhere keepsWithin_of_staysWithin (by decide +kernel))⟩
  match index with
  | 0 | 1 | 2 => decide +kernel

/-- Two calls that both look before either counts are both active. -/
theorem limitKept_fails_together :
    Run (serves execute)
        (limiterSession onePlace fun _ : Fin 2 => ⟨10, true⟩)
        (limiterMoves [0, 1, 0, 0, 0, 1, 1, 1])
        (limiterRun onePlace (fun _ : Fin 2 => ⟨10, true⟩) [0, 1, 0, 0, 0, 1, 1, 1]) ∧
      ¬ LimitKept onePlace (fun _ : Fin 2 => ⟨10, true⟩)
        (limiterRun onePlace (fun _ : Fin 2 => ⟨10, true⟩) [0, 1, 0, 0, 0, 1, 1, 1]) := by
  refine ⟨run_serves _ _, fun kept => ?_⟩
  exact absurd kept.within (by decide +kernel)

end UltimateCoders.Engine
