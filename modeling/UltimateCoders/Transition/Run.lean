import Mathlib.Data.List.Basic

/-! # Runs of a labelled transition relation -/

namespace Transition

universe u v

variable {State : Type u} {Label : Type v} {step : State → Label → State → Prop}

/-- `Run step source labels target`: from `source` the labelled steps in
order lead to `target`. -/
inductive Run (step : State → Label → State → Prop) : State → List Label → State → Prop where
  | nil (state : State) : Run step state [] state
  | cons {source middle target : State} {label : Label} {labels : List Label} :
      step source label middle → Run step middle labels target →
        Run step source (label :: labels) target

namespace Run

/-- What holds at the source and is preserved by every allowed step holds at
the target of every run of allowed steps. -/
theorem invariant {holds : State → Prop} (allowed : Label → Prop)
    (preserved : ∀ before label after, holds before → allowed label → step before label after →
      holds after)
    {source target : State} {labels : List Label} (run : Run step source labels target)
    (all : ∀ label ∈ labels, allowed label) (start : holds source) : holds target := by
  induction run with
  | nil state => exact start
  | cons first _ ih =>
    exact ih (fun label member => all label (List.mem_cons_of_mem _ member))
      (preserved _ _ _ start (all _ List.mem_cons_self) first)

theorem append {source middle target : State} {first second : List Label}
    (left : Run step source first middle) (right : Run step middle second target) :
    Run step source (first ++ second) target := by
  induction left with
  | nil state => exact right
  | cons move _ ih => exact .cons move (ih right)

/-- Steps may be replaced by others that they imply wherever an invariant holds. -/
theorem mono_of_invariant {other : State → Label → State → Prop} {holds : State → Prop}
    (preserved : ∀ before label after, holds before → step before label after → holds after)
    (implied : ∀ before label after, holds before → step before label after →
      other before label after)
    {source target : State} {labels : List Label} (run : Run step source labels target)
    (start : holds source) : Run other source labels target := by
  induction run with
  | nil state => exact .nil state
  | cons first _ ih => exact .cons (implied _ _ _ start first) (ih (preserved _ _ _ start first))

theorem mono {other : State → Label → State → Prop}
    (implied : ∀ before label after, step before label after → other before label after)
    {source target : State} {labels : List Label} (run : Run step source labels target) :
    Run other source labels target := by
  induction run with
  | nil state => exact .nil state
  | cons first _ ih => exact .cons (implied _ _ _ first) ih

end Run

/-- Take the labelled steps in order, if each of them can be taken. -/
def runAll (act : State → Label → Option State) : State → List Label → Option State
  | state, [] => some state
  | state, label :: labels => (act state label).bind fun next => runAll act next labels

/-- Runs of steps that are given by a function. -/
theorem run_iff_runAll {act : State → Label → Option State} {source target : State}
    {labels : List Label} :
    Run (fun before label after => act before label = some after) source labels target ↔
      runAll act source labels = some target := by
  induction labels generalizing source with
  | nil =>
    refine ⟨fun run => ?_, fun same => ?_⟩
    · cases run
      rfl
    · cases same
      exact .nil _
  | cons label labels ih =>
    rw [runAll, Option.bind_eq_some_iff]
    refine ⟨fun run => ?_, fun ⟨next, first, rest⟩ => .cons first (ih.mpr rest)⟩
    cases run with
    | cons first rest => exact ⟨_, first, ih.mp rest⟩

end Transition
