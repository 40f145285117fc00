import Mathlib.Algebra.Group.Int.Defs
import UltimateCoders.Governance.RecordStore

/-! # Outbox

Publications are queued as documents before the transport is touched. The key of
an entry is stable, and queueing it again leaves the entry that is there.
Dispatchers claim due entries, publish them, and report what came of it.
-/

namespace UltimateCoders.Governance

open Transition

variable {Value : Type}

def outboxNamespace : String := "outbox"

/-- Publication state of an outbox entry. -/
inductive OutboxState where
  | pending
  | inFlight
  | delivered
  | dead
  deriving DecidableEq

/-- One pending publication. -/
structure OutboxEntry where
  key : String
  subject : String
  payload : String
  state : OutboxState
  attempts : Nat
  nextAttemptAtMs : Int
  createdAt : Instant
  updatedAt : Instant
  deliveredAt : Option Instant
  lastError : Option String
  deriving DecidableEq

def Instant.timestampMillis (now : Instant) : Int := now / 1000000

def OutboxEntry.new (key subject payload : String) (now : Instant) : OutboxEntry where
  key := key
  subject := subject
  payload := payload
  state := .pending
  attempts := 0
  nextAttemptAtMs := Instant.timestampMillis now
  createdAt := now
  updatedAt := now
  deliveredAt := none
  lastError := none

variable (entry : OutboxEntry)

def OutboxEntry.isDue (nowMs : Int) : Bool :=
  entry.state = .pending && entry.nextAttemptAtMs ≤ nowMs

/-- What a claim makes of an entry. -/
def OutboxEntry.held (now : Instant) : OutboxEntry :=
  { entry with state := .inFlight, updatedAt := now }

/-- Publish attempts before an entry is parked. -/
def outboxMaxAttempts : Nat := 12

/-- Saturating addition of 32-bit counters. -/
def saturatingAdd32 (first second : Nat) : Nat := min (first + second) (2 ^ 32 - 1)

/-- Back off after a failed publish, or park the entry after the last attempt. -/
def OutboxEntry.scheduleRetry (error : String) (now : Instant) : OutboxEntry :=
  let attempts := saturatingAdd32 entry.attempts 1
  let failed := { entry with attempts, lastError := some error, updatedAt := now }
  if attempts ≥ outboxMaxAttempts then { failed with state := .dead }
  else
    let backoffMs := min (250 * 2 ^ min attempts 7) 30000
    { failed with
      state := .pending
      nextAttemptAtMs := min (Instant.timestampMillis now + backoffMs) (2 ^ 63 - 1) }

def OutboxEntry.markDelivered (now : Instant) : OutboxEntry :=
  { entry with state := .delivered, deliveredAt := some now, updatedAt := now, lastError := none }

/-- Queue an entry that a dispatcher has left in flight. -/
def OutboxEntry.recoverInFlight (now : Instant) : Option OutboxEntry :=
  if entry.state ≠ .inFlight then none
  else some { entry with
    state := .pending
    updatedAt := now
    nextAttemptAtMs := Instant.timestampMillis now }

/-- Failure modes of the outbox. -/
inductive OutboxError where
  | store (error : RecordError)
  deriving DecidableEq

def OutboxError.display : OutboxError → String
  | store error => "outbox: " ++ error.display

namespace OutboxQueue

def view : NamespacedStore := ⟨outboxNamespace⟩

def get (codec : Codec Value OutboxEntry) (key : String) :
    StoreProgram Value (Except OutboxError (Option OutboxEntry)) := do
  match ← view.get codec key with
  | .error error => return .error (.store error)
  | .ok found => return .ok (found.map Prod.fst)

/-- Add an entry; one that is there already is returned unchanged. -/
def enqueue (codec : Codec Value OutboxEntry) (entry : OutboxEntry) :
    StoreProgram Value (Except OutboxError OutboxEntry) := do
  match ← view.put codec entry.key entry (some 0) with
  | .ok _ => return .ok entry
  | .error (.conflict _ _) =>
    match ← get codec entry.key with
    | .error error => return .error error
    | .ok (some existing) => return .ok existing
    | .ok none => return .error (.store (.conflict 0 none))
  | .error other => return .error (.store other)

/-- Saturating multiplication of machine words. -/
def saturatingMul64 (first second : Nat) : Nat := min (first * second) (2 ^ 64 - 1)

/-- Take the due ones of the listed entries, as long as the limit allows. -/
def claimEach (codec : Codec Value OutboxEntry) (now : Instant) (limit : Nat) :
    List (OutboxEntry × Nat) → List OutboxEntry →
      StoreProgram Value (Except OutboxError (List OutboxEntry))
  | [], claimed => return .ok claimed
  | (entry, version) :: rest, claimed => do
      if claimed.length ≥ limit then return .ok claimed
      if !entry.isDue (Instant.timestampMillis now) || entry.state ≠ .pending then
        claimEach codec now limit rest claimed
      else
        let held := entry.held now
        match ← view.put codec held.key held (some version) with
        | .ok _ => claimEach codec now limit rest (claimed ++ [held])
        | .error (.conflict _ _) => claimEach codec now limit rest claimed
        | .error other => return .error (.store other)

/-- Claim up to `limit` due entries, the oldest first. -/
def claimDue (codec : Codec Value OutboxEntry) (now : Instant) (limit : Nat) :
    StoreProgram Value (Except OutboxError (List OutboxEntry)) := do
  match ← view.list codec (max (saturatingMul64 limit 4) limit) with
  | .error error => return .error (.store error)
  | .ok candidates =>
    match ← claimEach codec now limit candidates [] with
    | .error error => return .error error
    | .ok claimed =>
      return .ok (claimed.insertionSort fun first second => first.createdAt ≤ second.createdAt)

/-- Change an entry under compare-and-swap, in at most eight tries. -/
def mutate (codec : Codec Value OutboxEntry) (key : String) (change : OutboxEntry → OutboxEntry) :
    StoreProgram Value (Except OutboxError (Option OutboxEntry)) := do
  match ← view.modify codec key (fun entry _ => .ok (change entry, ())) 8 with
  | .absent => return .ok none
  | .refused refusal => nomatch (refusal : Empty)
  | .written entry _ => return .ok (some entry)
  | .contended => return .error (.store (.conflict 0 none))
  | .failed error => return .error (.store error)

def markDelivered (codec : Codec Value OutboxEntry) (key : String) (now : Instant) :
    StoreProgram Value (Except OutboxError (Option OutboxEntry)) :=
  mutate codec key fun entry => entry.markDelivered now

def scheduleRetry (codec : Codec Value OutboxEntry) (key error : String) (now : Instant) :
    StoreProgram Value (Except OutboxError (Option OutboxEntry)) :=
  mutate codec key fun entry => entry.scheduleRetry error now

/-- Queue again every listed entry that is in flight, counting them. -/
def recoverEach (codec : Codec Value OutboxEntry) (now : Instant) :
    List (OutboxEntry × Nat) → Nat → StoreProgram Value (Except OutboxError Nat)
  | [], recovered => return .ok recovered
  | (entry, version) :: rest, recovered => do
      if entry.state ≠ .inFlight then recoverEach codec now rest recovered else
      match entry.recoverInFlight now with
      | none => recoverEach codec now rest recovered
      | some queued =>
        match ← view.put codec queued.key queued (some version) with
        | .ok _ => recoverEach codec now rest (recovered + 1)
        | .error (.conflict _ _) => recoverEach codec now rest recovered
        | .error other => return .error (.store other)

/-- Recovery at boot. -/
def recover (codec : Codec Value OutboxEntry) (now : Instant) :
    StoreProgram Value (Except OutboxError Nat) := do
  match ← view.list codec 1000 with
  | .error error => return .error (.store error)
  | .ok entries => recoverEach codec now entries 0

end OutboxQueue

end UltimateCoders.Governance
