import Mathlib.Data.List.Sort

/-! # Queries with an order

A statement meets the rows of a table in an order that it does not promise. `ORDER BY` sorts
them, and rows that tie stay as they were met. So what a query may return are the sorted
arrangements of its rows.
-/

namespace Relational

universe u

variable {Row : Type u}

/-- The order in which the rows that match are met. -/
structure Scan (Row : Type u) where
  order : List Row → List Row
  perm : ∀ rows, (order rows).Perm rows

def Scan.inserted : Scan Row := ⟨id, fun _ => .refl _⟩

/-- `ORDER BY`. -/
def orderBy (scan : Scan Row) (before : Row → Row → Prop) [DecidableRel before]
    (rows : List Row) : List Row :=
  (scan.order rows).insertionSort before

section OrderBy

variable {before : Row → Row → Prop} [DecidableRel before] {rows result : List Row}

theorem orderBy_perm (scan : Scan Row) (rows : List Row) :
    (orderBy scan before rows).Perm rows :=
  (List.perm_insertionSort before _).trans (scan.perm rows)

theorem pairwise_orderBy [Std.Total before] [IsTrans Row before] (scan : Scan Row)
    (rows : List Row) : (orderBy scan before rows).Pairwise before :=
  List.pairwise_insertionSort before _

/-- What a query may return are the sorted arrangements of its rows. -/
theorem exists_orderBy_iff [Std.Total before] [IsTrans Row before] :
    (∃ scan, result = orderBy scan before rows) ↔ result.Perm rows ∧ result.Pairwise before := by
  constructor
  · rintro ⟨scan, rfl⟩
    exact ⟨orderBy_perm scan rows, pairwise_orderBy scan rows⟩
  · rintro ⟨perm, sorted⟩
    classical
    let scan : Scan Row :=
      { order := fun met => if met = rows then result else met
        perm := fun met => by
          split
          · rename_i same
            rw [same]
            exact perm
          · exact .refl _ }
    refine ⟨scan, ?_⟩
    have met : scan.order rows = result := if_pos rfl
    rw [orderBy, met, sorted.insertionSort_eq]

end OrderBy

end Relational
