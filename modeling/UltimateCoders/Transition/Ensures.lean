import UltimateCoders.Transition.Program

/-! # What a program ensures

A program that runs alone ensures a postcondition if it holds however its operations are answered.
-/

namespace Transition

variable {Store Input Operation Result Outcome : Type} {Answer : Operation → Type}
  {execute : Input → (operation : Operation) → Store → Answer operation × Store}

variable (execute) in
/-- Whatever the inputs are, the result and the store meet the postcondition. -/
def Program.Ensures (post : Result → Store → Prop) :
    Program Operation Answer Result → Store → Prop
  | .done result, store => post result store
  | .ask operation resume, store => ∀ input,
      (resume (execute input operation store).1).Ensures post (execute input operation store).2

namespace Program.Ensures

variable {program : Program Operation Answer Result} {post other : Result → Store → Prop}
  {store : Store}

section

variable (ensures : program.Ensures execute post store)

include ensures

/-- One program after the other, through what holds in between. -/
theorem seq {next : Result → Program Operation Answer Outcome} {final : Outcome → Store → Prop}
    (rest : ∀ result store, post result store → (next result).Ensures execute final store) :
    (program >>= next).Ensures execute final store := by
  induction program generalizing store with
  | done result => exact rest result store ensures
  | ask operation resume ih => exact fun input => ih _ (ensures input)

theorem weaken (implied : ∀ result store, post result store → other result store) :
    program.Ensures execute other store := by
  induction program generalizing store with
  | done result => exact implied result store ensures
  | ask operation resume ih => exact fun input => ih _ (ensures input)

/-- What is ensured holds when the program has run alone. -/
theorem alone (inputs : Nat → Input) :
    post (program.alone execute inputs store).1 (program.alone execute inputs store).2.2 := by
  induction program generalizing store inputs with
  | done result => exact ensures
  | ask operation resume ih => exact ih _ (ensures (inputs 0)) _

end

end Program.Ensures

end Transition
