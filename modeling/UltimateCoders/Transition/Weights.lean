import Mathlib.Algebra.BigOperators.Group.Finset.Piecewise
import Mathlib.Algebra.Order.BigOperators.Group.Finset

/-! # What calls weigh together

Finitely many calls are in phases, and every phase has a weight: one for the calls that hold
a slot, an amount that was taken, the keys that are in hand. A step moves one call on, so the
total changes by what that call weighs.
-/

namespace Transition

universe u v w

variable {Index : Type u} {Phase : Type v} {Weight : Type w} [Fintype Index]

section Sum

variable [AddCommMonoid Weight] {weight : Phase → Weight} {phases : Index → Phase}
  {index : Index} {phase : Phase}

/-- The weights of all calls by the phases they are in. -/
def weigh (weight : Phase → Weight) (phases : Index → Phase) : Weight :=
  ∑ index, weight (phases index)

/-- What no call weighs, all together do not. -/
theorem weigh_eq_zero (nothing : ∀ index, weight (phases index) = 0) :
    weigh weight phases = 0 :=
  Finset.sum_eq_zero fun index _ => nothing index

theorem weigh_add (weight other : Phase → Weight) (phases : Index → Phase) :
    weigh (fun phase => weight phase + other phase) phases =
      weigh weight phases + weigh other phases :=
  Finset.sum_add_distrib

variable [DecidableEq Index]

section

variable (weight : Phase → Weight) (phases : Index → Phase) (index : Index)

theorem weigh_eq_add_erase : weigh weight phases =
      weight (phases index) + ∑ other ∈ Finset.univ.erase index, weight (phases other) :=
  (Finset.add_sum_erase _ _ (Finset.mem_univ index)).symm

theorem weigh_update_eq_add_erase (phase : Phase) :
    weigh weight (Function.update phases index phase) =
      weight phase + ∑ other ∈ Finset.univ.erase index, weight (phases other) := by
  rw [weigh_eq_add_erase weight _ index, Function.update_self]
  congr 1
  refine Finset.sum_congr rfl fun other member => ?_
  rw [Function.update_of_ne (Finset.ne_of_mem_erase member)]

/-- A step adds the weight of the new phase and takes that of the old one away. -/
theorem weigh_update (phase : Phase) :
    weigh weight (Function.update phases index phase) + weight (phases index) =
      weigh weight phases + weight phase := by
  rw [weigh_update_eq_add_erase, weigh_eq_add_erase weight phases index]
  rw [add_right_comm, add_comm (weight phase), add_right_comm]

end

end Sum

section Order

variable [DecidableEq Index] [AddCommMonoid Weight] [PartialOrder Weight]
  [CanonicallyOrderedAdd Weight] (weight : Phase → Weight) (phases : Index → Phase)

/-- A call does not weigh more than all together. -/
theorem le_weigh (index : Index) : weight (phases index) ≤ weigh weight phases := by
  rw [weigh_eq_add_erase weight phases index]
  exact le_self_add

/-- Nor do two calls. -/
theorem add_le_weigh [IsOrderedAddMonoid Weight] {first second : Index} (apart : first ≠ second) :
    weight (phases first) + weight (phases second) ≤ weigh weight phases := by
  rw [weigh_eq_add_erase weight phases first,
    ← Finset.add_sum_erase _ _ (Finset.mem_erase.mpr ⟨apart.symm, Finset.mem_univ second⟩)]
  exact add_le_add le_rfl le_self_add

end Order

end Transition
