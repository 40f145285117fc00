import Mathlib.Data.List.Induction
import UltimateCoders.Durable.Chain
import UltimateCoders.Gateway.Mutation

/-! # What the gateway writes behind the task store

Every change of a task is written to the task backend and every event to the event
store, each through a chain of its own: a task write waits for earlier task writes
and swallows their errors, an event write keeps the first error of the chain. The
writes end at any time, without the lock of the task store.
-/

namespace UltimateCoders.Gateway

open Governance (Instant)
open Durable (Chain Outcome swallow latch)
open List

structure PersistedStore where
  store : TaskStore
  /-- Whether the task backend, if there is one, outlives the process. -/
  backend : Option Bool
  taskWrites : Chain Task
  eventWrites : Chain AgentEvent
  /-- The rows of the task backend when the process started. -/
  loadedRows : AList fun _ : String => Task
  /-- The last version of every task that the store held, also of those it has evicted. -/
  versions : AList fun _ : String => Task

namespace PersistedStore

/-- Write a task over its row; a row keeps the time at which it was created. -/
def upsertRow (rows : AList fun _ : String => Task) (task : Task) : AList fun _ : String => Task :=
  rows.insert task.id { task with
    createdAt := ((rows.lookup task.id).map Task.createdAt).getD task.createdAt }

def rows (persisted : PersistedStore) : AList fun _ : String => Task :=
  persisted.taskWrites.applied.foldl upsertRow persisted.loadedRows

def persistTasks (persisted : PersistedStore) (tasks : List Task) : PersistedStore :=
  match persisted.backend with
  | none => persisted
  | some _ => { persisted with taskWrites := tasks.foldl Chain.enqueue persisted.taskWrites }

/-- Change the store, and hand on what the change writes. -/
def mutate (persisted : PersistedStore) (now : Instant) (mutation : Mutation) : PersistedStore :=
  { persisted with
    store := mutation.apply persisted.store now
    eventWrites := (mutation.recorded persisted.store now).foldl Chain.enqueue persisted.eventWrites
    versions := (mutation.stage persisted.store now).tasks ∪ persisted.versions }.persistTasks
      (mutation.persisted persisted.store now)

/-- The state of a process that has just started. -/
structure Started (persisted : PersistedStore) : Prop where
  keyed : persisted.store.Keyed
  taskWrites : persisted.taskWrites = {}
  eventWrites : persisted.eventWrites = {}
  versions : persisted.versions = persisted.store.tasks

/-- What holds of the store and its writes at any time. -/
structure Ordered (persisted : PersistedStore) : Prop where
  keyed : persisted.store.Keyed
  taskWrites : persisted.taskWrites.Serial swallow
  eventWrites : persisted.eventWrites.Serial latch
  versions : ∀ id task, persisted.store.tasks.lookup id = some task →
    persisted.versions.lookup id = some task
  /-- Without a backend no task is written. -/
  unwired : persisted.backend = none → persisted.taskWrites = {}

variable {persisted : PersistedStore} {mutation : Mutation} {now : Instant} {id : String}
  {task : Task}

theorem Started.ordered (started : persisted.Started) : persisted.Ordered where
  keyed := started.keyed
  taskWrites := by
    rw [started.taskWrites]
    exact Chain.serial_empty
  eventWrites := by
    rw [started.eventWrites]
    exact Chain.serial_empty
  versions := by
    rw [started.versions]
    exact fun _ _ held => held
  unwired := fun _ => started.taskWrites

theorem versions_mutate (held : (mutation.stage persisted.store now).tasks.lookup id = some task) :
    (persisted.mutate now mutation).versions.lookup id = some task := by
  have same : (persisted.mutate now mutation).versions =
      (mutation.stage persisted.store now).tasks ∪ persisted.versions := by
    unfold mutate persistTasks
    split <;> rfl
  rw [same]
  exact AList.mem_lookup_union.mpr (.inl held)

theorem Ordered.mutate (ordered : persisted.Ordered) (now : Instant) (mutation : Mutation) :
    (persisted.mutate now mutation).Ordered := by
  have store : (persisted.mutate now mutation).store = mutation.apply persisted.store now := by
    unfold PersistedStore.mutate persistTasks
    split <;> rfl
  refine ⟨?_, ?_, ?_, fun id task held => ?_, ?_⟩
  · rw [store]
    exact mutation.keyed_apply ordered.keyed
  · unfold PersistedStore.mutate persistTasks
    split
    · exact ordered.taskWrites
    · exact ordered.taskWrites.foldl_enqueue _
  · unfold PersistedStore.mutate persistTasks
    split <;> exact ordered.eventWrites.foldl_enqueue _
  · rw [store] at held
    exact versions_mutate (mutation.stage_of_apply held)
  · unfold PersistedStore.mutate persistTasks
    split
    · exact ordered.unwired
    · rename_i wired
      exact fun unwired => absurd (wired.symm.trans unwired) (by simp)

/-- How the store and its writes go on: under the lock of the store it is changed, or a
task is handed to the backend once more; at any time a write ends. -/
inductive Moves (before : PersistedStore) : PersistedStore → Prop where
  | unchanged : Moves before before
  | mutate (now : Instant) (mutation : Mutation) : Moves before (before.mutate now mutation)
  | persist {id : String} {task : Task} (held : before.store.tasks.lookup id = some task) :
      Moves before (before.persistTasks [task])
  | endTaskWrite {number : Nat} {outcome : Outcome} {writes : Chain Task}
      (ends : before.taskWrites.perform swallow number outcome = some writes) :
      Moves before { before with taskWrites := writes }
  | endEventWrite {number : Nat} {outcome : Outcome} {writes : Chain AgentEvent}
      (ends : before.eventWrites.perform latch number outcome = some writes) :
      Moves before { before with eventWrites := writes }

variable {before after : PersistedStore}

theorem persistTasks_cases (persisted : PersistedStore) (tasks : List Task) :
    persisted.persistTasks tasks = persisted ∨ persisted.persistTasks tasks =
      { persisted with taskWrites := tasks.foldl Chain.enqueue persisted.taskWrites } := by
  unfold persistTasks
  split
  · exact .inl rfl
  · exact .inr rfl

theorem Ordered.persistTasks (ordered : persisted.Ordered) (tasks : List Task) :
    (persisted.persistTasks tasks).Ordered := by
  unfold PersistedStore.persistTasks
  split
  · exact ordered
  · rename_i wired
    exact ⟨ordered.keyed, ordered.taskWrites.foldl_enqueue tasks, ordered.eventWrites,
      ordered.versions, fun unwired => absurd (wired.symm.trans unwired) (by simp)⟩

theorem Moves.ordered (moves : Moves before after) (ordered : before.Ordered) : after.Ordered := by
  cases moves with
  | unchanged => exact ordered
  | mutate now mutation => exact ordered.mutate now mutation
  | persist => exact ordered.persistTasks _
  | endTaskWrite ends =>
    refine ⟨ordered.keyed, ordered.taskWrites.perform ends, ordered.eventWrites, ordered.versions,
      fun unwired => ?_⟩
    rw [ordered.unwired unwired] at ends
    cases ends
  | endEventWrite ends =>
    exact ⟨ordered.keyed, ordered.taskWrites, ordered.eventWrites.perform ends, ordered.versions,
      ordered.unwired⟩

section

variable (moves : Moves before after)

include moves

theorem Moves.taskAwaited (ordered : before.Ordered) {barrier : Option Nat} {told : Option String}
    (known : before.taskWrites.awaited barrier = some told) :
    after.taskWrites.awaited barrier = some told := by
  have persists : ∀ (persisted : PersistedStore) (tasks : List Task),
      persisted.taskWrites.awaited barrier = some told →
      (persisted.persistTasks tasks).taskWrites.awaited barrier = some told := by
    intro persisted tasks known
    rcases persistTasks_cases persisted tasks with same | added
    · rw [same]
      exact known
    · rw [added]
      exact Chain.awaited_foldl_enqueue known tasks
  cases moves with
  | unchanged | endEventWrite ends => exact known
  | mutate now mutation | persist held => exact persists _ _ known
  | endTaskWrite ends => exact ordered.taskWrites.awaited_perform known ends

end

end PersistedStore

end UltimateCoders.Gateway
