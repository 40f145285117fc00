import UltimateCoders.Transition.Run

/-! # Interleaved calls on a shared store

Calls run as programs of single statements against one store, interleaved in
any order with each other and with acts of an environment. Each statement moves
its own call on, may write the store and may log events. An invariant of such a
world has a shared part, about the store and the log, and a part that each call
asserts at the statement it is about to run.
-/

namespace Transition

universe u

variable {Index : Type u} {Store Call Input Act Event : Type}

/-- The store, where every call stands, and what happened so far. -/
structure World (Index : Type u) (Store Call Event : Type) where
  store : Store
  calls : Index → Call
  log : List Event

/-- What may happen next: a call runs its next statement, or the environment
acts. -/
inductive Move (Index : Type u) (Input Act : Type) where
  | call (index : Index) (input : Input)
  | act (act : Act)

/-- What the next statement of a call leaves. -/
structure Statement (Store Call Event : Type) where
  call : Call
  store : Store
  events : List Event

variable [DecidableEq Index] (advance : Input → Call → Store → Statement Store Call Event)
  (perform : Act → Store → Store)

def World.after (world : World Index Store Call Event) :
    Move Index Input Act → World Index Store Call Event
  | .call index input =>
    let next := advance input (world.calls index) world.store
    { store := next.store
      calls := Function.update world.calls index next.call
      log := world.log ++ next.events }
  | .act act => { world with store := perform act world.store }

def allowedMove (allowed : World Index Store Call Event → Move Index Input Act → Prop)
    (before : World Index Store Call Event) (move : Move Index Input Act)
    (after : World Index Store Call Event) : Prop :=
  allowed before move ∧ before.after advance perform move = after

/-- What holds of a world: a shared part, and an assertion of every call. -/
structure World.Holds (shared : Store → List Event → Prop)
    (asserts : Call → Store → List Event → Prop) (world : World Index Store Call Event) :
    Prop where
  shared : shared world.store world.log
  asserts : ∀ index, asserts (world.calls index) world.store world.log

/-- Every statement establishes the assertion of its call and keeps the shared
part and the assertions of the other calls; so does every act. -/
structure InterferenceFree (shared : Store → List Event → Prop)
    (asserts : Call → Store → List Event → Prop)
    (allowed : World Index Store Call Event → Move Index Input Act → Prop) : Prop where
  own : ∀ (world : World Index Store Call Event) index input,
    world.Holds shared asserts → allowed world (.call index input) →
      let next := advance input (world.calls index) world.store
      shared next.store (world.log ++ next.events) ∧
        asserts next.call next.store (world.log ++ next.events)
  others : ∀ (world : World Index Store Call Event) index input other,
    world.Holds shared asserts → allowed world (.call index input) → other ≠ index →
      let next := advance input (world.calls index) world.store
      asserts (world.calls other) next.store (world.log ++ next.events)
  acts : ∀ (world : World Index Store Call Event) act,
    world.Holds shared asserts → allowed world (.act act) →
      shared (perform act world.store) world.log ∧
        ∀ index, asserts (world.calls index) (perform act world.store) world.log

variable {advance perform} {shared : Store → List Event → Prop}
  {asserts : Call → Store → List Event → Prop}
  {allowed : World Index Store Call Event → Move Index Input Act → Prop}

/-- One allowed move keeps what holds of the world. -/
theorem InterferenceFree.after (free : InterferenceFree advance perform shared asserts allowed)
    {world : World Index Store Call Event} (holds : world.Holds shared asserts)
    {move : Move Index Input Act} (allows : allowed world move) :
    (world.after advance perform move).Holds shared asserts := by
  cases move with
  | act act =>
    obtain ⟨kept, asserted⟩ := free.acts world act holds allows
    exact ⟨kept, asserted⟩
  | call index input =>
    obtain ⟨kept, asserted⟩ := free.own world index input holds allows
    refine ⟨kept, fun other => ?_⟩
    by_cases same : other = index
    · subst same
      simpa only [World.after, Function.update_self] using asserted
    · simpa only [World.after, Function.update_of_ne same] using
        free.others world index input other holds allows same

/-- What holds of a world holds after every interleaving of allowed moves. -/
theorem InterferenceFree.run (free : InterferenceFree advance perform shared asserts allowed)
    {source target : World Index Store Call Event} {moves : List (Move Index Input Act)}
    (run : Run (allowedMove advance perform allowed) source moves target)
    (start : source.Holds shared asserts) : target.Holds shared asserts := by
  refine run.invariant (fun _ => True) ?_ (fun _ _ => trivial) start
  rintro before move after holds - ⟨allows, rfl⟩
  exact free.after holds allows

end Transition
