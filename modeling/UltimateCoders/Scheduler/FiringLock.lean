import UltimateCoders.Scheduler.Service

/-! # One firing among many gateways

Every gateway has its own scheduler and its own watcher of the night window. What fires on all of
them is to be done by one, which a lock decides that they share.
-/

namespace UltimateCoders.Scheduler

open Governance (Instant)

/-- The keys that are held, with the end of each lease. -/
structure LockProvider where
  held : List (String × Instant) := []
  deriving DecidableEq

def LockProvider.tryAcquire (provider : LockProvider) (key : String) (ttl now : Int) :
    Bool × LockProvider :=
  if ∃ lock ∈ provider.held, lock.1 = key ∧ now < lock.2 then (false, provider)
  else (true, { provider with held := (key, now + ttl) :: provider.held })

/-- The whole seconds of an instant. -/
def timestamp (now : Instant) : Int := now / second

inductive WindowEventType where
  | opened
  | closed
  deriving DecidableEq

def WindowEventType.eventName : WindowEventType → String
  | opened => "opened"
  | closed => "closed"

/-- What a lock is asked for: a job that is due at an instant, or a turn of the window. -/
inductive Purpose where
  | firing (taskId : Uuid) (due : Instant)
  | transition (eventType : WindowEventType)
  deriving DecidableEq

def schedulerLockTtl : Int := 30 * second

def windowLockTtl : Int := 60 * second

structure LockRequest where
  gateway : Nat
  purpose : Purpose
  now : Instant
  deriving DecidableEq

def LockRequest.ttl (request : LockRequest) : Int :=
  match request.purpose with
  | .firing _ _ => schedulerLockTtl
  | .transition _ => windowLockTtl

/-- The key has the second at which the gateway happens to ask. -/
def LockRequest.lockKey (request : LockRequest) : String :=
  match request.purpose with
  | .firing taskId _ => "scheduler:" ++ taskId ++ ":" ++ toString (timestamp request.now)
  | .transition eventType =>
    "window:" ++ eventType.eventName ++ ":" ++ toString (timestamp request.now)

/-- What came of it: the job is dispatched or the event published, unless the lock is held. -/
structure LockOutcome where
  request : LockRequest
  acquired : Bool
  deriving DecidableEq

/-- The lock, the state of the window that each watcher has last seen, and what has been done. -/
structure Gateways where
  lockProvider : LockProvider
  lastInside : Nat → Bool
  outcomes : List LockOutcome

namespace Gateways

def guarded (request : LockRequest) (gateways : Gateways) : Gateways :=
  let (acquired, lockProvider) :=
    gateways.lockProvider.tryAcquire request.lockKey request.ttl request.now
  { gateways with lockProvider, outcomes := gateways.outcomes ++ [⟨request, acquired⟩] }

/-- The callback of a cron job; the instant it is due at is not told to it. -/
def cronCallback (gateway : Nat) (taskId : Uuid) (due now : Instant) (gateways : Gateways) :
    Gateways :=
  gateways.guarded ⟨gateway, .firing taskId due, now⟩

/-- The callback of an attempt of a one-shot job. -/
def oneShotCallback (gateway : Nat) (taskId : Uuid) (due now : Instant) (gateways : Gateways) :
    Gateways :=
  gateways.guarded ⟨gateway, .firing taskId due, now⟩

variable (isWithinWindow : Instant → Bool)

/-- The event of a window that was found turned. -/
def turnOf (nowInside : Bool) : WindowEventType := if nowInside then .opened else .closed

def poll (gateway : Nat) (now : Instant) (gateways : Gateways) : Gateways :=
  let nowInside := isWithinWindow now
  if nowInside = gateways.lastInside gateway then gateways
  else
    { gateways.guarded ⟨gateway, .transition (turnOf nowInside), now⟩ with
      lastInside := Function.update gateways.lastInside gateway nowInside }

end Gateways

inductive Callback where
  | cron (taskId : Uuid) (due : Instant)
  | oneShot (taskId : Uuid) (due : Instant)
  | poll
  deriving DecidableEq

/-- A callback or poll runs at a gateway at a moment. -/
structure Moment where
  gateway : Nat
  callback : Callback
  now : Instant
  deriving DecidableEq

variable (isWithinWindow : Instant → Bool)

def Gateways.step (gateways : Gateways) (moment : Moment) : Gateways :=
  match moment.callback with
  | .cron taskId due => gateways.cronCallback moment.gateway taskId due moment.now
  | .oneShot taskId due => gateways.oneShotCallback moment.gateway taskId due moment.now
  | .poll => gateways.poll isWithinWindow moment.gateway moment.now

/-- Every watcher starts with the state of the window at that moment. -/
def Gateways.start (startedAt : Nat → Instant) : Gateways where
  lockProvider := {}
  lastInside gateway := isWithinWindow (startedAt gateway)
  outcomes := []

def Gateways.run (startedAt : Nat → Instant) (moments : List Moment) : Gateways :=
  moments.foldl (step isWithinWindow) (start isWithinWindow startedAt)

/-- The window stays as it is from one moment to the other. -/
def SameStretch (one other : Instant) : Prop :=
  ∀ now, min one other ≤ now → now ≤ max one other → isWithinWindow now = isWithinWindow one

/-- Two requests are about the same job, or about turns the same way. -/
def LockRequest.SameSubject (one other : LockRequest) : Prop :=
  match one.purpose, other.purpose with
  | .firing taskId _, .firing otherId _ => taskId = otherId
  | .transition eventType, .transition otherType => eventType = otherType
  | _, _ => False

/-- Two requests are for the same instant of a job, or for the same turn of the window. -/
def LockRequest.SameInstant (one other : LockRequest) : Prop :=
  one.SameSubject other ∧
    match one.purpose, other.purpose with
    | .firing _ due, .firing _ otherDue => due = otherDue
    | _, _ => SameStretch isWithinWindow one.now other.now

/-- Nothing is done by two gateways. -/
def OneGatewayEach (outcomes : List LockOutcome) : Prop :=
  ∀ one ∈ outcomes, ∀ other ∈ outcomes, one.acquired → other.acquired →
    one.request.SameInstant isWithinWindow other.request →
      one.request.gateway = other.request.gateway

/-- A lease only ever suppresses what it was taken for. -/
def OwnLeasesOnly (outcomes : List LockOutcome) : Prop :=
  outcomes.Pairwise fun holder skipped =>
    holder.acquired → ¬skipped.acquired → holder.request.lockKey = skipped.request.lockKey →
      skipped.request.now < holder.request.now + holder.request.ttl →
        holder.request.SameInstant isWithinWindow skipped.request

/-- The locks that are asked for, where each watcher has last looked at the given moment. -/
def lockRequests : (Nat → Instant) → List Moment → List LockRequest
  | _, [] => []
  | lastLook, moment :: moments =>
    match moment.callback with
    | .cron taskId due | .oneShot taskId due =>
      ⟨moment.gateway, .firing taskId due, moment.now⟩ :: lockRequests lastLook moments
    | .poll =>
      let later := lockRequests (Function.update lastLook moment.gateway moment.now) moments
      if isWithinWindow moment.now = isWithinWindow (lastLook moment.gateway) then later
      else ⟨moment.gateway, .transition (Gateways.turnOf (isWithinWindow moment.now)),
        moment.now⟩ :: later

/-- Moments follow one another, no watcher looks before it has started, and a runtime scheduler
runs what is due once. -/
structure Scheduled (startedAt : Nat → Instant) (moments : List Moment) : Prop where
  inOrder : moments.Pairwise fun one other => one.now ≤ other.now
  started : ∀ moment ∈ moments, startedAt moment.gateway ≤ moment.now
  once : moments.Pairwise fun one other =>
    ∀ taskId due, one.callback = .cron taskId due ∨ one.callback = .oneShot taskId due →
      other.callback = .cron taskId due ∨ other.callback = .oneShot taskId due →
        one.gateway ≠ other.gateway

/-- Every callback and every poll that finds the window turned is late by less than its lease. -/
def Prompt (request : LockRequest) : Prop :=
  match request.purpose with
  | .firing _ due => due ≤ request.now ∧ request.now < due + request.ttl
  | .transition _ => ∃ turned, isWithinWindow (turned - 1) ≠ isWithinWindow turned ∧
      turned ≤ request.now ∧ request.now < turned + request.ttl ∧
        SameStretch isWithinWindow turned request.now

/-- Requests about one subject are for the same instant exactly if they read the same second. -/
def ClocksAgree (requests : List LockRequest) : Prop :=
  ∀ one ∈ requests, ∀ other ∈ requests, one.SameSubject other →
    (one.SameInstant isWithinWindow other ↔ timestamp one.now = timestamp other.now)

end UltimateCoders.Scheduler
