import Mathlib.Algebra.Order.Ring.Rat
import Mathlib.Data.List.Infix

/-! # The outbox of outcomes

A worker records the outcome of a subtask under one key, and whoever delivers it takes a claim on
the record that expires. A later attempt supersedes an earlier one. Delivered records are compacted
to tombstones. Every operation reads and rewrites the whole record in one transaction.
-/

namespace UltimateCoders.Runtime

/-- Time in seconds. -/
abbrev Seconds := ℚ

structure DeliveryClaim where
  token : String
  expiresAt : Seconds
  deriving DecidableEq

/-- A record of the outbox; what its object lacks is `none`, `false` or zero, as it is read. -/
structure OutcomeRecord (Event Update : Type) where
  event : Option Event := none
  update : Option Update := none
  delivered : Bool := false
  attempt : Option Nat := none
  fingerprint : Option String := none
  supersededAttempt : Option Int := none
  deliveryClaim : Option DeliveryClaim := none
  deliveryAttempts : Nat := 0
  nextRetryAt : Seconds := 0
  deliveredAt : Seconds := 0
  tombstone : Bool := false
  deriving DecidableEq

variable {Event Update : Type}

namespace OutcomeRecord

variable (old : OutcomeRecord Event Update)

/-- `int(old.get("attempt", -1))`. -/
def storedAttempt : Int :=
  match old.attempt with
  | some attempt => attempt
  | none => -1

/-- `old.get("delivery_claim", {}).get("token")`. -/
def token : Option String :=
  old.deliveryClaim.map DeliveryClaim.token

/-- `old.get("delivery_claim", {}).get("expires_at", 0)`. -/
def claimExpiresAt : Seconds :=
  match old.deliveryClaim with
  | some claim => claim.expiresAt
  | none => 0

end OutcomeRecord

/-- The record under a key; there is none where its object is empty. -/
abbrev Stored (Event Update : Type) := Option (OutcomeRecord Event Update)

structure OutcomeClaim (Event Update : Type) where
  token : String
  record : OutcomeRecord Event Update

namespace OutcomeOutbox

/-- Record the outcome of an attempt; the record that is then stored is returned. -/
def store (attempt : Nat) (fingerprint : String) (event : Event) (update : Update) :
    Stored Event Update → OutcomeRecord Event Update
  | none =>
    { event := some event
      update := some update
      delivered := false
      attempt := some attempt
      fingerprint := some fingerprint }
  | some old =>
    if attempt < old.storedAttempt then old
    else if attempt = old.storedAttempt then old
    else
      { event := some event
        update := some update
        delivered := false
        attempt := some attempt
        fingerprint := some fingerprint
        supersededAttempt := some old.storedAttempt }

/-- The record after a claim was asked for. -/
def claimed (token : String) (now ttl : Seconds) : Stored Event Update → Stored Event Update
  | none => none
  | some old =>
    if old.delivered ∨ now < old.nextRetryAt ∨ now < old.claimExpiresAt then some old
    else some { old with
      deliveryClaim := some ⟨token, now + ttl⟩
      nextRetryAt := now + ttl }

def claim (token : String) (now ttl : Seconds) (old : Stored Event Update) :
    Option (OutcomeClaim Event Update) :=
  match claimed token now ttl old with
  | some record => if record.token = some token then some ⟨token, record⟩ else none
  | none => none

/-- Prolong a claim; the clock is read twice. Without the claim an exception leaves the record
alone. -/
def renew (token : String) (now later ttl : Seconds) :
    Stored Event Update → Except String (OutcomeRecord Event Update)
  | some old =>
    if old.token = some token then
      .ok { old with
        deliveryClaim := some ⟨token, now + ttl⟩
        nextRetryAt := later + ttl }
    else .error "Outcome delivery ownership changed"
  | none => .error "Outcome delivery ownership changed"

/-- Give a claim back with the result of the delivery. -/
def finish (token : String) (delivered : Bool) (now later : Seconds) :
    Stored Event Update → Stored Event Update
  | none => none
  | some old =>
    if old.token = some token then
      let attempts := old.deliveryAttempts + 1
      let result := { old with
        deliveryClaim := none
        deliveryAttempts := attempts
        nextRetryAt := if delivered then 0 else now + min 300 (2 ^ min attempts 8) }
      if delivered then some { result with delivered := true, deliveredAt := later }
      else some result
    else some old

end OutcomeOutbox

/-- Compact a delivered record to its tombstone. -/
def RuntimeState.compact (olderThan : Seconds) : Stored Event Update → Stored Event Update
  | none => none
  | some old =>
    if old.delivered ∧ old.deliveredAt ≤ olderThan then
      some { delivered := true, tombstone := true, deliveredAt := old.deliveredAt }
    else some old

/-- A transaction on the record; `archive_delivered` compacts what it has found. -/
inductive OutboxCall (Event Update : Type) where
  | store (attempt : Nat) (fingerprint : String) (event : Event) (update : Update)
  | claim (token : String) (now ttl : Seconds)
  | renew (token : String) (now later ttl : Seconds)
  | finish (token : String) (delivered : Bool) (now later : Seconds)
  | compact (olderThan : Seconds)

def OutboxCall.perform (record : Stored Event Update) :
    OutboxCall Event Update → Stored Event Update
  | store attempt fingerprint event update =>
    some (OutcomeOutbox.store attempt fingerprint event update record)
  | claim token now ttl => OutcomeOutbox.claimed token now ttl record
  | renew token now later ttl =>
    match OutcomeOutbox.renew token now later ttl record with
    | .ok renewed => some renewed
    | .error _ => record
  | finish token delivered now later => OutcomeOutbox.finish token delivered now later record
  | compact olderThan => RuntimeState.compact olderThan record

/-- The record after transactions in order, from none. -/
def recordAfter (calls : List (OutboxCall Event Update)) : Stored Event Update :=
  calls.foldl OutboxCall.perform none

@[simp]
theorem recordAfter_snoc (calls : List (OutboxCall Event Update))
    (call : OutboxCall Event Update) :
    recordAfter (calls ++ [call]) = call.perform (recordAfter calls) := by
  rw [recordAfter, List.foldl_append]
  rfl

end UltimateCoders.Runtime
