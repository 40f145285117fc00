import UltimateCoders.Scheduler.FiringLock

/-! # The lock over the NATS key-value store

A lock is a key that can be created once in a bucket. The client of the store, which is a
parameter here, refuses keys with characters outside its alphabet, and every key that a lock is
asked for has such a character.
-/

namespace UltimateCoders.Scheduler

open Governance (Instant)

universe u

/-- Why a key was not created. -/
inductive CreateErrorKind where
  | alreadyExists
  | invalidKey
  | publish
  | ack
  | other
  deriving DecidableEq

structure KvConfig where
  bucket : String
  maxAge : Int
  deriving DecidableEq

def schedulerLocksBucket : String := "scheduler-locks"

def lockConfig : KvConfig := ⟨schedulerLocksBucket, 300 * second⟩

/-- The client of the store: it finds or makes a bucket, creates a key that must not be there, and
`createdAt` is when a key was last created that was not removed. -/
structure KvClient (Server : Type u) where
  createKeyValue : KvConfig → Server → Option Server
  create : KvConfig → String → String → Instant → Server → Except CreateErrorKind Unit × Server
  createdAt : KvConfig → String → Server → Option Instant

/-- The alphabet of keys. -/
def isValidKey (key : String) : Bool :=
  key.toList.all fun char => char.isAlphanum || ['-', '/', '_', '=', '.'].contains char

namespace KvClient

variable {Server : Type u} (client : KvClient Server)

/-- Keys outside the alphabet are refused, and others exactly while they are there. -/
structure Documented : Prop where
  invalidKey : ∀ config key value now server, ¬isValidKey key →
    client.create config key value now server = (.error .invalidKey, server)
  alreadyExists : ∀ config key value now server, isValidKey key →
    ((client.create config key value now server).1 = .error .alreadyExists ↔
      ∃ madeAt, client.createdAt config key server = some madeAt ∧ now < madeAt + config.maxAge)
  created : ∀ config key value now server later,
    client.create config key value now server = (.ok (), later) →
      client.createdAt config key later = some now

/-- Only a key that exists is a lock that is held; after any other error the lock counts as
acquired. The lease that is asked for is not passed on to the store. -/
def tryAcquire (instanceId key : String) (_ttl : Int) (now : Instant) (server : Server) :
    Bool × Server :=
  match client.createKeyValue lockConfig server with
  | none => (true, server)
  | some server =>
    match client.create lockConfig key instanceId now server with
    | (.ok _, server) => (true, server)
    | (.error .alreadyExists, server) => (false, server)
    | (.error _, server) => (true, server)

end KvClient

/-- A gateway asks for a lock. -/
structure LockCall where
  instanceId : String
  now : Instant
  deriving DecidableEq

section Calls

variable {Server : Type u} (client : KvClient Server)

/-- Calls for one lock, with their answers. -/
def KvClient.tryAcquireAll (key : String) (ttl : Int) :
    List LockCall → Server → List (LockCall × Bool)
  | [], _ => []
  | call :: calls, server =>
    let answer := client.tryAcquire call.instanceId key ttl call.now server
    (call, answer.1) :: KvClient.tryAcquireAll key ttl calls answer.2

/-- While a lease lasts nobody else gets the lock, and where none lasts the next one does. -/
def Excludes (ttl : Int) (answers : List (LockCall × Bool)) : Prop :=
  (answers.Pairwise fun holder other =>
    holder.2 → other.1.now < holder.1.now + ttl → ¬other.2) ∧
  ∀ earlier answer later, answers = earlier ++ answer :: later →
    (∀ holder ∈ earlier, holder.2 → holder.1.now + ttl ≤ answer.1.now) → answer.2

/-- No two calls are within a lease of one another. -/
def FarApart (ttl : Int) (calls : List LockCall) : Prop :=
  calls.Pairwise fun call other => call.now + ttl ≤ other.now

variable {client}

theorem not_isValidKey_lockKey (request : LockRequest) : ¬isValidKey request.lockKey := by
  have colon : ':' ∈ request.lockKey.toList := by
    rw [LockRequest.lockKey]
    cases request.purpose <;> simp
  intro valid
  exact absurd (List.all_eq_true.mp valid ':' colon) (by decide)

theorem acquired_of_invalid {key : String} (documented : client.Documented)
    (invalid : ¬isValidKey key) (instanceId : String) (ttl : Int) (now : Instant)
    (server : Server) : (client.tryAcquire instanceId key ttl now server).1 = true := by
  unfold KvClient.tryAcquire
  cases client.createKeyValue lockConfig server with
  | none => rfl
  | some server => simp only [documented.invalidKey _ _ _ _ server invalid]

theorem tryAcquireAll_of_invalid {key : String} (documented : client.Documented)
    (invalid : ¬isValidKey key) (ttl : Int) (calls : List LockCall) (server : Server) :
    client.tryAcquireAll key ttl calls server = calls.map fun call => (call, true) := by
  induction calls generalizing server with
  | nil => rfl
  | cons call calls ih =>
    simp only [KvClient.tryAcquireAll, acquired_of_invalid documented invalid, ih, List.map_cons]

/-- The lock of a callback or of a watcher excludes exactly where nothing had to be excluded. -/
theorem excludes_iff_farApart (documented : client.Documented) (request : LockRequest)
    (calls : List LockCall) (server : Server) :
    Excludes request.ttl (client.tryAcquireAll request.lockKey request.ttl calls server) ↔
      FarApart request.ttl calls := by
  rw [tryAcquireAll_of_invalid documented (not_isValidKey_lockKey request), Excludes, FarApart,
    List.pairwise_map]
  have everyone : ∀ earlier answer later,
      (calls.map fun call => (call, true)) = earlier ++ answer :: later →
        (∀ holder ∈ earlier, holder.2 → holder.1.now + request.ttl ≤ answer.1.now) →
          answer.2 := by
    intro earlier answer later split _
    have member : answer ∈ calls.map fun call => (call, true) := by simp [split]
    obtain ⟨call, -, rfl⟩ := List.mem_map.mp member
    rfl
  simp only [not_true_eq_false, imp_false, forall_const, not_lt]
  exact and_iff_left everyone

end Calls

/-- A store with one bucket, which has its keys with when they were created. -/
def sampleClient : KvClient (List (String × Instant)) where
  createKeyValue _ server := some server
  create config key _ now server :=
    if !isValidKey key then (.error .invalidKey, server)
    else
      match server.lookup key with
      | some madeAt =>
        if now < madeAt + config.maxAge then (.error .alreadyExists, server)
        else (.ok (), (key, now) :: server)
      | none => (.ok (), (key, now) :: server)
  createdAt _ key server := server.lookup key

theorem sampleClient_documented : sampleClient.Documented where
  invalidKey config key value now server invalid := by simp [sampleClient, invalid]
  alreadyExists config key value now server valid := by
    simp only [sampleClient, valid]
    cases server.lookup key with
    | none => simp
    | some madeAt => by_cases held : now < madeAt + config.maxAge <;> simp [held]
  created config key value now server later done := by
    simp only [sampleClient] at done ⊢
    split at done
    · cases done
    · split at done
      · split at done <;> cases done
        simp
      · cases done
        simp

/-- Two gateways fire at one instant. -/
def sampleCalls : List LockCall := [⟨"gateway-1", 0⟩, ⟨"gateway-2", 0⟩]

theorem excludes_iff_farApart_sample :
    Excludes (30 * second)
        (sampleClient.tryAcquireAll "scheduler:task-1:0" (30 * second) sampleCalls []) ↔
      FarApart (30 * second) sampleCalls :=
  excludes_iff_farApart sampleClient_documented ⟨0, .firing "task-1" 0, 0⟩ sampleCalls []

/-- Both get the lock. -/
theorem natsLock_not_excludes : ¬ ∀ (client : KvClient (List (String × Instant)))
    (request : LockRequest) (calls : List LockCall) (server : List (String × Instant)),
    client.Documented → (client.createKeyValue lockConfig server).isSome →
      Excludes request.ttl
        (client.tryAcquireAll request.lockKey request.ttl calls server) := by
  intro excludes
  have answers := (excludes sampleClient ⟨0, .firing "task-1" 0, 0⟩ sampleCalls []
    sampleClient_documented rfl).1
  rw [show sampleClient.tryAcquireAll _ _ sampleCalls [] =
    sampleCalls.map fun call => (call, true) by decide +kernel] at answers
  exact absurd answers (by decide)

end UltimateCoders.Scheduler
