import Mathlib.Data.List.Basic

/-! # Transactions

A transaction body reads and writes a store and may fail. Run atomically, a
body that fails leaves the store as it was. Two kinds of facts about bodies
compose along sequencing: a body `Keeps` a property of the store, and a body
`Simulates` another when related stores make them return the same value and
leave related stores, or fail alike.
-/

namespace Transition

universe u

variable {Store Other Err α β : Type}

/-- A transaction body. -/
abbrev Tx (Store Err : Type) (α : Type) : Type := StateT Store (Except Err) α

/-- Run a body as one transaction. A failure rolls the store back. -/
def atomically (body : Tx Store Err α) (store : Store) : Except Err α × Store :=
  match body.run store with
  | .ok (value, next) => (.ok value, next)
  | .error failure => (.error failure, store)

variable {body : Tx Store Err α} {store : Store}

theorem atomically_of_ok {next : Store} {value : α} (ran : body.run store = .ok (value, next)) :
    atomically body store = (.ok value, next) := by
  simp only [atomically, ran]

theorem atomically_of_error {failure : Err} (failed : body.run store = .error failure) :
    atomically body store = (.error failure, store) := by
  simp only [atomically, failed]

namespace Tx

variable {rel : Store → Other → Prop} {first : Tx Store Err α}

/-- Sequencing continues from where a successful first body left the store. -/
theorem run_bind_of {second : α → Tx Store Err β} {middle : Store} {value : α}
    (ran : first.run store = .ok (value, middle)) :
    (first >>= second).run store = (second value).run middle := by
  rw [StateT.run_bind, ran]
  rfl

/-- Peel the first of two sequenced bodies off a successful run. -/
theorem run_bind_ok {second : α → Tx Store Err β} {next : Store} {result : β}
    (ran : (first >>= second).run store = .ok (result, next)) :
    ∃ value middle, first.run store = .ok (value, middle) ∧
      (second value).run middle = .ok (result, next) := by
  rw [StateT.run_bind] at ran
  cases head : first.run store with
  | error failure =>
    rw [head] at ran
    cases ran
  | ok pair =>
    rw [head] at ran
    exact ⟨pair.1, pair.2, rfl, ran⟩

/-- Every successful run of the body from a store with the property ends in one
with the property. -/
def Keeps (holds : Store → Prop) (body : Tx Store Err α) : Prop :=
  ∀ store value next, holds store → body.run store = .ok (value, next) → holds next

theorem Keeps.pure (holds : Store → Prop) (value : α) :
    Keeps holds (Pure.pure value : Tx Store Err α) := by
  intro store result next start ran
  cases ran
  exact start

theorem Keeps.throw (holds : Store → Prop) (failure : Err) :
    Keeps holds (throw failure : Tx Store Err α) := by
  intro store result next _ ran
  cases ran

theorem Keeps.bind {holds : Store → Prop} {second : α → Tx Store Err β}
    (keepsFirst : Keeps holds first) (keepsSecond : ∀ value, Keeps holds (second value)) :
    Keeps holds (first >>= second) := by
  intro store result next start ran
  obtain ⟨value, middle, ranFirst, ranSecond⟩ := run_bind_ok ran
  exact keepsSecond value middle result next (keepsFirst store value middle start ranFirst) ranSecond

/-- A body that continues from what it read keeps the property when the
continuation does, for every store with the property that may have been read. -/
theorem Keeps.get_bind {holds : Store → Prop} {body : Store → Tx Store Err β}
    (continues : ∀ store, holds store → Keeps holds (body store)) :
    Keeps holds (get >>= body) := by
  intro store result next start ran
  exact continues store start store result next start ran

theorem Keeps.set {holds : Store → Prop} (there : holds store) :
    Keeps holds (MonadState.set store : Tx Store Err PUnit) := by
  intro _ _ _ _ ran
  cases ran
  exact there

theorem Keeps.modify {holds : Store → Prop} {change : Store → Store}
    (respects : ∀ store, holds store → holds (change store)) :
    Keeps holds (modify change : Tx Store Err PUnit) := by
  intro store _ _ start ran
  cases ran
  exact respects store start

/-- A body that keeps a property keeps it as one transaction, whether it commits
or rolls back. -/
theorem Keeps.atomically {holds : Store → Prop} (keeps : Keeps holds body) (start : holds store) :
    holds (atomically body store).2 := by
  cases ran : body.run store with
  | error failure =>
    rw [atomically_of_error ran]
    exact start
  | ok pair =>
    rw [atomically_of_ok ran]
    exact keeps store pair.1 pair.2 start ran

/-- Related stores make the two bodies agree: they return the same value and
leave related stores, or fail with the same error. -/
def Simulates (rel : Store → Other → Prop) (left : Tx Store Err α) (right : Tx Other Err α) :
    Prop :=
  ∀ store other, rel store other →
    (∃ value next otherNext, left.run store = .ok (value, next) ∧
      right.run other = .ok (value, otherNext) ∧ rel next otherNext) ∨
    ∃ failure, left.run store = .error failure ∧ right.run other = .error failure

theorem Simulates.pure (rel : Store → Other → Prop) (value : α) :
    Simulates rel (Pure.pure value : Tx Store Err α) (Pure.pure value) := by
  intro store other related
  exact .inl ⟨value, store, other, rfl, rfl, related⟩

theorem Simulates.throw (rel : Store → Other → Prop) (failure : Err) :
    Simulates rel (throw failure : Tx Store Err α) (MonadExcept.throw failure) := by
  intro store other _
  exact .inr ⟨failure, rfl, rfl⟩

theorem Simulates.bind {left : Tx Store Err α} {right : Tx Other Err α}
    {leftNext : α → Tx Store Err β} {rightNext : α → Tx Other Err β}
    (first : Simulates rel left right)
    (second : ∀ value, Simulates rel (leftNext value) (rightNext value)) :
    Simulates rel (left >>= leftNext) (right >>= rightNext) := by
  intro store other related
  rcases first store other related with ⟨value, next, otherNext, ran, otherRan, after⟩ |
    ⟨failure, failed, otherFailed⟩
  · rw [run_bind_of ran, run_bind_of otherRan]
    exact second value next otherNext after
  · refine .inr ⟨failure, ?_, ?_⟩
    · rw [StateT.run_bind, failed]
      rfl
    · rw [StateT.run_bind, otherFailed]
      rfl

/-- Bodies that continue from what they read simulate when the continuations
do, for every pair of related stores that may have been read. -/
theorem Simulates.get_bind {left : Store → Tx Store Err β} {right : Other → Tx Other Err β}
    (continues : ∀ store other, rel store other → Simulates rel (left store) (right other)) :
    Simulates rel (get >>= left) (get >>= right) := by
  intro store other related
  exact continues store other related store other related

theorem Simulates.set {other : Other} (related : rel store other) :
    Simulates rel (MonadState.set store : Tx Store Err PUnit) (MonadState.set other) :=
  fun _ _ _ => .inl ⟨⟨⟩, store, other, rfl, rfl, related⟩

theorem Simulates.modify {change : Store → Store} {changeOther : Other → Other}
    (respects : ∀ store other, rel store other → rel (change store) (changeOther other)) :
    Simulates rel (modify change : Tx Store Err PUnit) (modifyThe Other changeOther) :=
  fun store other related => .inl ⟨⟨⟩, change store, changeOther other, rfl, rfl,
    respects store other related⟩

/-- Simulating bodies agree as transactions: same result, related stores. -/
theorem Simulates.atomically {left : Tx Store Err α} {right : Tx Other Err α}
    (simulates : Simulates rel left right) {other : Other} (related : rel store other) :
    (atomically left store).1 = (atomically right other).1 ∧
      rel (atomically left store).2 (atomically right other).2 := by
  rcases simulates store other related with ⟨value, next, otherNext, ran, otherRan, after⟩ |
    ⟨failure, failed, otherFailed⟩
  · rw [atomically_of_ok ran, atomically_of_ok otherRan]
    exact ⟨rfl, after⟩
  · rw [atomically_of_error failed, atomically_of_error otherFailed]
    exact ⟨rfl, related⟩

end Tx

end Transition
