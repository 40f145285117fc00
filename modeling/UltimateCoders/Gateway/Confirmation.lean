import Mathlib.Data.List.Infix
import UltimateCoders.Gateway.Persistence
import UltimateCoders.Transition.Run

/-! # Confirmed outcomes

A coordinator asks the gateway to confirm that the outcome of a task will survive.
The gateway writes the task once more, waits for that write and then for all events
recorded so far, and replies only if nothing is wrong with either.
-/

namespace UltimateCoders.Gateway

open Governance (Instant)
open Durable (Chain Outcome swallow latch)
open Transition (Run)
open Transition List

/-- A message that wants a reply, as far as its confirmation reads it. -/
structure Message where
  recipient : Option String
  reply : Option String
  taskId : String
  messageId : Option String
  deriving DecidableEq

/-- How far a confirmation has come. -/
inductive ConfirmationPhase where
  | awaitsTask (barrier : Option Nat)
  | awaitsEvents (barrier : Option Nat)
  | replied
  | withheld
  deriving DecidableEq

structure Confirmation where
  message : Message
  phase : ConfirmationPhase
  deriving DecidableEq

/-- The store, its writes, and the confirmations under way. -/
structure ConfirmingStore extends PersistedStore where
  confirmations : List Confirmation
  /-- The replies sent: where to, and the message they are about. -/
  replies : List (String × Option String)

/-- What may happen next. -/
inductive ConfirmingAction where
  | mutate (mutation : Mutation) (now : Instant)
  | endTaskWrite (number : Nat) (outcome : Outcome)
  | endEventWrite (number : Nat) (outcome : Outcome)
  | confirmTerminalUpdate (message : Message)
  | taskAwaited (position : Nat)
  | eventsAwaited (position : Nat)

namespace ConfirmingStore

/-- Start to confirm a message, under the lock of the store. -/
def confirmTerminalUpdate (state : ConfirmingStore) (message : Message) : ConfirmingStore :=
  let withheld := { state with
    confirmations := state.confirmations ++ [⟨message, .withheld⟩] }
  if message.recipient ≠ some "gateway" then withheld
  else if state.backend.getD false = false then withheld
  else
    match state.store.tasks.lookup message.taskId with
    | none => withheld
    | some task =>
      let persisted := state.toPersistedStore.persistTasks [task]
      { state with
        toPersistedStore := persisted
        confirmations := state.confirmations ++ [⟨message, .awaitsTask persisted.taskWrites.tail⟩] }

/-- Let a confirmation go on. -/
def proceed (state : ConfirmingStore) (position : Nat) (message : Message)
    (phase : ConfirmationPhase) : ConfirmingStore :=
  { state with confirmations := state.confirmations.set position ⟨message, phase⟩ }

def step (state : ConfirmingStore) : ConfirmingAction → Option ConfirmingStore
  | .mutate mutation now =>
    some { state with toPersistedStore := state.toPersistedStore.mutate now mutation }
  | .endTaskWrite number outcome =>
    (state.taskWrites.perform swallow number outcome).map fun writes =>
      { state with taskWrites := writes }
  | .endEventWrite number outcome =>
    (state.eventWrites.perform latch number outcome).map fun writes =>
      { state with eventWrites := writes }
  | .confirmTerminalUpdate message => some (state.confirmTerminalUpdate message)
  | .taskAwaited position =>
    match state.confirmations[position]? with
    | some ⟨message, .awaitsTask barrier⟩ =>
      match state.taskWrites.awaited barrier with
      | none => none
      | some (some _) => some (state.proceed position message .withheld)
      -- the events recorded by now are flushed next
      | some none =>
        some (state.proceed position message (.awaitsEvents state.eventWrites.tail))
    | _ => none
  | .eventsAwaited position =>
    match state.confirmations[position]? with
    | some ⟨message, .awaitsEvents barrier⟩ =>
      match state.eventWrites.awaited barrier with
      | none => none
      | some (some _) => some (state.proceed position message .withheld)
      | some none =>
        match message.reply with
        | none => some (state.proceed position message .withheld)
        | some reply =>
          some { state.proceed position message .replied with
            replies := state.replies ++ [(reply, message.messageId)] }
    | _ => none

def Steps (before : ConfirmingStore) (action : ConfirmingAction) (after : ConfirmingStore) : Prop :=
  before.step action = some after

open PersistedStore (Ordered Moves)

variable {before after state start : ConfirmingStore} {action : ConfirmingAction}
  {actions : List ConfirmingAction} {message : Message} {number position : Nat}

section

variable (run : Run Steps before actions after)

include run

end

/-- What a confirmation knows in a phase: it waits for the write it has enqueued, and then
for at least as many events as there were. -/
def Knows (state : ConfirmingStore) (number count : Nat) : ConfirmationPhase → Prop
  | .awaitsTask barrier => barrier = some number
  | .awaitsEvents barrier => state.taskWrites.awaited (some number) = some none ∧
      ∃ recorded, count ≤ recorded ∧ barrier = recorded.ppred
  | .replied => state.taskWrites.awaited (some number) = some none ∧
      ∃ recorded, count ≤ recorded ∧ state.eventWrites.awaited recorded.ppred = some none
  | .withheld => True

/-- A gateway with a backend that outlives it and knows one task. -/
def sample (tasks : AList fun _ : String => Task) : ConfirmingStore where
  store := { sampleStore [] with tasks := tasks }
  backend := some true
  taskWrites := {}
  eventWrites := {}
  loadedRows := AList.singleton "task-1" (sampleTask [] 0)
  versions := tasks
  confirmations := []
  replies := []

theorem started_sample {tasks : AList fun _ : String => Task}
    (keyed : TaskStore.Keyed { sampleStore [] with tasks := tasks }) :
    (sample tasks).toPersistedStore.Started :=
  ⟨keyed, rfl, rfl, rfl⟩

end ConfirmingStore

end UltimateCoders.Gateway
