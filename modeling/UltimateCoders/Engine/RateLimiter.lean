import Mathlib.Data.Rat.Floor
import UltimateCoders.Transition.Program

/-! # The rate limiter of LLM calls

A call is admitted if few enough are active and two token buckets, of requests and of tokens,
have something left. Amounts are exact rationals, and no time passes: a refill adds nothing.
-/

namespace UltimateCoders.Engine

open Transition

structure TokenBucket where
  capacity : ℚ
  tokens : ℚ
  refillRate : ℚ

namespace TokenBucket

def new (capacity refillRate : ℚ) : TokenBucket := ⟨capacity, capacity, refillRate⟩

def perMinute (perMinute : ℚ) : TokenBucket := new perMinute (perMinute / 60)

/-- Add what the elapsed seconds bring, up to the capacity. -/
def refill (elapsed : ℚ) (bucket : TokenBucket) : TokenBucket :=
  { bucket with tokens := min (bucket.tokens + elapsed * bucket.refillRate) bucket.capacity }

def tryConsume (amount : ℚ) (bucket : TokenBucket) : Bool × TokenBucket :=
  let bucket := bucket.refill 0
  if amount ≤ bucket.tokens then (true, { bucket with tokens := bucket.tokens - amount })
  else (false, bucket)

def refund (amount : ℚ) (bucket : TokenBucket) : TokenBucket :=
  { bucket with tokens := min (bucket.tokens + amount) bucket.capacity }

/-- The whole seconds until the amount is there; a wait that no `Duration` can hold panics. -/
def waitTime (amount : ℚ) (bucket : TokenBucket) : Option Nat × TokenBucket :=
  let bucket := bucket.refill 0
  let wait :=
    if amount ≤ bucket.tokens then some 0
    else if 0 < bucket.refillRate then
      let seconds := (amount - bucket.tokens) / bucket.refillRate
      if seconds < 2 ^ 64 then some ⌊seconds⌋₊ else none
    else some 3600
  (wait, bucket)

theorem refill_zero {bucket : TokenBucket} (room : bucket.tokens ≤ bucket.capacity) :
    bucket.refill 0 = bucket := by
  simp [refill, room]

end TokenBucket

structure LlmRateLimiterConfig where
  rpm : ℚ
  tpm : ℚ
  maxConcurrent : Nat

structure LlmRateLimiter where
  rpmBucket : TokenBucket
  tpmBucket : TokenBucket
  maxConcurrent : Nat
  activeCount : Nat
  totalRequests : Nat
  totalTokens : Nat

def LlmRateLimiter.new (config : LlmRateLimiterConfig) : LlmRateLimiter where
  rpmBucket := .perMinute config.rpm
  tpmBucket := .perMinute config.tpm
  maxConcurrent := config.maxConcurrent
  activeCount := 0
  totalRequests := 0
  totalTokens := 0

/-- What a call does in one step. -/
inductive LimiterOperation where
  | loadActive
  | consumeRpm (amount : ℚ)
  | waitRpm (amount : ℚ)
  | consumeTpm (amount : ℚ)
  | waitTpm (amount : ℚ)
  | refundRpm (amount : ℚ)
  | addActive
  | addRequests
  | addTokens (tokens : Nat)
  | subActive

namespace LimiterOperation

abbrev Answer : LimiterOperation → Type
  | loadActive => Nat
  | consumeRpm _ | consumeTpm _ => Bool
  | waitRpm _ | waitTpm _ => Option Nat
  | refundRpm _ | addActive | addRequests | addTokens _ | subActive => Unit

/-- What a step answers, and the limiter it leaves. -/
def execute (_ : Unit) : (operation : LimiterOperation) → LlmRateLimiter →
    operation.Answer × LlmRateLimiter
  | loadActive, limiter => (limiter.activeCount, limiter)
  | consumeRpm amount, limiter =>
    let (enough, bucket) := limiter.rpmBucket.tryConsume amount
    (enough, { limiter with rpmBucket := bucket })
  | waitRpm amount, limiter =>
    let (wait, bucket) := limiter.rpmBucket.waitTime amount
    (wait, { limiter with rpmBucket := bucket })
  | consumeTpm amount, limiter =>
    let (enough, bucket) := limiter.tpmBucket.tryConsume amount
    (enough, { limiter with tpmBucket := bucket })
  | waitTpm amount, limiter =>
    let (wait, bucket) := limiter.tpmBucket.waitTime amount
    (wait, { limiter with tpmBucket := bucket })
  | refundRpm amount, limiter =>
    ((), { limiter with rpmBucket := limiter.rpmBucket.refund amount })
  | addActive, limiter => ((), { limiter with activeCount := limiter.activeCount + 1 })
  | addRequests, limiter =>
    ((), { limiter with totalRequests := (limiter.totalRequests + 1) % 2 ^ 64 })
  | addTokens tokens, limiter =>
    ((), { limiter with totalTokens := (limiter.totalTokens + tokens) % 2 ^ 64 })
  | subActive, limiter => ((), { limiter with activeCount := limiter.activeCount - 1 })

end LimiterOperation

/-- Steps on the limiter, and what they lead to. -/
abbrev LimiterProgram := Program LimiterOperation LimiterOperation.Answer

def LimiterOperation.perform (operation : LimiterOperation) : LimiterProgram operation.Answer :=
  Program.perform operation

/-- Why no capacity is acquired. -/
inductive AcquireError where
  | rateLimited (seconds : Nat)
  /-- The wait that was to be reported is too long for a `Duration`. -/
  | panicked
  deriving DecidableEq

/-- `estimated_tokens as u64`. -/
def asU64 (tokens : ℚ) : Nat := min ⌊tokens⌋₊ (2 ^ 64 - 1)

/-- How long a rejected call is told to wait. -/
def rateLimitedFor : Option Nat → AcquireError
  | some seconds => .rateLimited (seconds + 1)
  | none => .panicked

namespace LlmRateLimiter

open LimiterOperation in
def tryAcquire (maxConcurrent : Nat) (estimatedTokens : ℚ) :
    LimiterProgram (Except AcquireError Unit) := do
  let active ← loadActive.perform
  if maxConcurrent ≤ active then return .error (.rateLimited 1)
  else
    match ← (consumeRpm 1).perform with
    | false =>
      let wait ← (waitRpm 1).perform
      return .error (rateLimitedFor wait)
    | true =>
      match ← (consumeTpm estimatedTokens).perform with
      | false =>
        match ← (waitTpm estimatedTokens).perform with
        | none => return .error .panicked
        | some seconds =>
          (refundRpm 1).perform
          return .error (rateLimitedFor (some seconds))
      | true =>
        addActive.perform
        addRequests.perform
        (addTokens (asU64 estimatedTokens)).perform
        return .ok ()

def release : LimiterProgram Unit := LimiterOperation.subActive.perform

end LlmRateLimiter

/-- A call of an LLM: it acquires, and releases what it has acquired if it comes so far. -/
structure LlmCall where
  estimatedTokens : ℚ
  releases : Bool

/-- The result is that of `try_acquire`. -/
def LlmCall.program (maxConcurrent : Nat) (call : LlmCall) :
    LimiterProgram (Except AcquireError Unit) := do
  match ← LlmRateLimiter.tryAcquire maxConcurrent call.estimatedTokens with
  | .error error => return .error error
  | .ok () =>
    if call.releases then
      LlmRateLimiter.release
      return .ok ()
    else return .ok ()

end UltimateCoders.Engine
