import UltimateCoders.Search.Entries
import UltimateCoders.Transition.Program

/-! # The pool of sandboxes

Idle sandboxes wait behind one lock, active ones are kept behind another. A section under one
of the locks is one step where nothing is awaited in it; where a sandbox is created under a
lock, the lock is taken, the sandbox is created, and the lock is given back in steps of their own.
-/

namespace UltimateCoders.Engine

open Transition

inductive SandboxStatus where
  | starting
  | ready
  | busy
  | stopped
  | failed
  deriving DecidableEq

structure SandboxHandle where
  id : String
  status : SandboxStatus
  createdAt : Int
  deriving DecidableEq

/-- A failed creation, or a pool that is full. -/
inductive EngineError where
  | sandboxError (message : String)
  deriving DecidableEq

/-- The sandboxes of a pool; of the idle ones the last comes first. -/
structure SandboxPool where
  idle : List SandboxHandle
  idleLocked : Bool
  active : List (String × SandboxHandle)
  activeLocked : Bool

def SandboxPool.new : SandboxPool := ⟨[], false, [], false⟩

structure PoolSizes where
  maxPoolSize : Nat
  warmPoolSize : Nat

/-- What a call does in one step. -/
inductive PoolOperation where
  | popIdle
  | insertActive (handle : SandboxHandle)
  /-- Take the lock of the active ones, and count them. -/
  | lockActive
  | countIdle
  /-- Create a sandbox under the lock of the active ones, and give the lock back. -/
  | createActive
  | unlockActive
  | removeActive (id : String)
  /-- Keep a released sandbox if there are fewer idle ones than so many. -/
  | keepIdle (handle : SandboxHandle) (warmPoolSize : Nat)
  /-- Take the lock of the idle ones, and count them. -/
  | lockIdle
  /-- Create an idle sandbox under their lock, which is given back if that fails. -/
  | createIdle
  | unlockIdle
  | clearIdle

namespace PoolOperation

abbrev Answer : PoolOperation → Type
  | popIdle => Option SandboxHandle
  | lockActive | countIdle | lockIdle => Nat
  | createActive | createIdle => Except EngineError SandboxHandle
  | insertActive _ | unlockActive | removeActive _ | keepIdle _ _ | unlockIdle | clearIdle => Unit

/-- What a step answers, and the pool it leaves; what the factory returns is an input. -/
def execute (created : Except EngineError SandboxHandle) :
    (operation : PoolOperation) → SandboxPool → operation.Answer × SandboxPool
  | popIdle, pool =>
    match pool.idle with
    | [] => (none, pool)
    | handle :: rest => (some handle, { pool with idle := rest })
  | insertActive handle, pool =>
    ((), { pool with active := Search.overwrite handle.id handle pool.active })
  | lockActive, pool => (pool.active.length, { pool with activeLocked := true })
  | countIdle, pool => (pool.idle.length, pool)
  | createActive, pool =>
    match created with
    | .error error => (.error error, { pool with activeLocked := false })
    | .ok handle =>
      let acquired := { handle with status := .busy }
      (.ok acquired, { pool with
        active := Search.overwrite acquired.id acquired pool.active
        activeLocked := false })
  | unlockActive, pool => ((), { pool with activeLocked := false })
  | removeActive id, pool => ((), { pool with active := Search.without id pool.active })
  | keepIdle handle warmPoolSize, pool =>
    if pool.idle.length < warmPoolSize then
      ((), { pool with idle := { handle with status := .ready } :: pool.idle })
    else ((), pool)
  | lockIdle, pool => (pool.idle.length, { pool with idleLocked := true })
  | createIdle, pool =>
    match created with
    | .error error => (.error error, { pool with idleLocked := false })
    | .ok handle => (.ok handle, { pool with idle := handle :: pool.idle })
  | unlockIdle, pool => ((), { pool with idleLocked := false })
  | clearIdle, pool => ((), { pool with idle := [] })

/-- The step can be made: the lock that it takes is free. -/
def Free (pool : SandboxPool) : PoolOperation → Prop
  | popIdle | countIdle | keepIdle _ _ | lockIdle | clearIdle => pool.idleLocked = false
  | insertActive _ | lockActive | removeActive _ => pool.activeLocked = false
  | createActive | unlockActive | createIdle | unlockIdle => True

instance (pool : SandboxPool) (operation : PoolOperation) : Decidable (operation.Free pool) := by
  cases operation <;> unfold Free <;> infer_instance

/-- The step calls the factory. -/
def creates : PoolOperation → Bool
  | createActive | createIdle => true
  | _ => false

end PoolOperation

/-- Steps on the pool, and what they lead to. -/
abbrev PoolProgram := Program PoolOperation PoolOperation.Answer

def PoolOperation.perform (operation : PoolOperation) : PoolProgram operation.Answer :=
  Program.perform operation

namespace SandboxPool

def atCapacity (used maxPoolSize : Nat) : EngineError :=
  .sandboxError ("Sandbox pool at capacity (" ++ toString used ++ "/" ++ toString maxPoolSize ++
    "). Wait for a sandbox to be released.")

open PoolOperation

variable (sizes : PoolSizes)

def acquire : PoolProgram (Except EngineError SandboxHandle) := do
  match ← popIdle.perform with
  | some handle =>
    let acquired := { handle with status := .busy }
    (insertActive acquired).perform
    return .ok acquired
  | none =>
    let active ← lockActive.perform
    let idleCount ← countIdle.perform
    if active + idleCount < sizes.maxPoolSize then createActive.perform
    else
      unlockActive.perform
      return .error (atCapacity (active + idleCount) sizes.maxPoolSize)

def release (handle : SandboxHandle) : PoolProgram (Except EngineError Unit) := do
  (removeActive handle.id).perform
  (keepIdle handle sizes.warmPoolSize).perform
  return .ok ()

/-- Create so many idle sandboxes, and give the lock back. -/
def createMissing : Nat → PoolProgram (Except EngineError Unit)
  | 0 => do
      unlockIdle.perform
      return .ok ()
  | missing + 1 => do
      match ← createIdle.perform with
      | .error error => return .error error
      | .ok _ => createMissing missing

def warmUp : PoolProgram (Except EngineError Unit) := do
  let currentCount ← lockIdle.perform
  createMissing (sizes.warmPoolSize - currentCount)

def drain : PoolProgram (Except EngineError Unit) := do
  clearIdle.perform
  return .ok ()

end SandboxPool

/-- What is asked of a pool: a sandbox, which its holder may release, or upkeep. -/
inductive PoolCall where
  | lease (releases : Bool)
  | warmUp
  | drain
  deriving DecidableEq

/-- What is returned; for a lease, what was acquired. -/
inductive PoolAnswer where
  | leased (acquired : Except EngineError SandboxHandle)
  | kept (result : Except EngineError Unit)

def PoolCall.program (sizes : PoolSizes) : PoolCall → PoolProgram PoolAnswer
  | lease releases => do
      match ← SandboxPool.acquire sizes with
      | .error error => return .leased (.error error)
      | .ok handle =>
        if releases then
          let _ ← SandboxPool.release sizes handle
          return .leased (.ok handle)
        else return .leased (.ok handle)
  | warmUp => do return .kept (← SandboxPool.warmUp sizes)
  | drain => do return .kept (← SandboxPool.drain)

end UltimateCoders.Engine
