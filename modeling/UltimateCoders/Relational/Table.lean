import Mathlib.Data.List.Pairwise
import Mathlib.Data.List.Sort

/-! # Tables under uniqueness constraints

A table stores its rows in insertion order. Its uniqueness constraints are one
relation `clash` between rows: two stored rows never clash. A primary key is
the relation "the keys are equal", and several constraints on one table are the
disjunction of their relations.
-/

namespace Relational

open List

universe u

variable {Row : Type u} {clash : Row → Row → Prop}

/-- Rows in insertion order, no earlier one clashing with a later one. -/
structure Table (Row : Type u) (clash : Row → Row → Prop) where
  rows : List Row
  distinct : rows.Pairwise fun earlier later => ¬ clash earlier later

namespace Table

def empty : Table Row clash := ⟨[], .nil⟩

@[simp] theorem rows_empty : (empty : Table Row clash).rows = [] := rfl

@[ext] theorem ext {first second : Table Row clash} (same : first.rows = second.rows) :
    first = second := by
  cases first
  cases second
  cases same
  rfl

/-- No stored row clashes with `row`. -/
def Free (table : Table Row clash) (row : Row) : Prop :=
  ∀ stored ∈ table.rows, ¬ clash stored row

instance [DecidableRel clash] (table : Table Row clash) (row : Row) : Decidable (table.Free row) :=
  inferInstanceAs (Decidable (∀ stored ∈ table.rows, ¬ clash stored row))

def append (table : Table Row clash) (row : Row) (free : table.Free row) : Table Row clash where
  rows := table.rows ++ [row]
  distinct := pairwise_append.mpr ⟨table.distinct, pairwise_singleton _ _, by
    intro stored member added addedMem
    rw [mem_singleton.mp addedMem]
    exact free stored member⟩

@[simp] theorem rows_append (table : Table Row clash) (row : Row) (free : table.Free row) :
    (table.append row free).rows = table.rows ++ [row] := rfl

/-- `INSERT … ON CONFLICT DO NOTHING`. -/
def insertOrIgnore [DecidableRel clash] (table : Table Row clash) (row : Row) : Table Row clash :=
  if free : table.Free row then table.append row free else table

variable {table : Table Row clash}

theorem rows_insertOrIgnore_of_free [DecidableRel clash] {row : Row} (free : table.Free row) :
    (table.insertOrIgnore row).rows = table.rows ++ [row] := by
  simp only [insertOrIgnore, free, ↓reduceDIte, rows_append]

theorem insertOrIgnore_of_not_free [DecidableRel clash] {row : Row} (taken : ¬ table.Free row) :
    table.insertOrIgnore row = table := by
  simp only [insertOrIgnore, taken, ↓reduceDIte]

theorem mem_of_mem_insertOrIgnore [DecidableRel clash] {row stored : Row}
    (member : stored ∈ (table.insertOrIgnore row).rows) : stored ∈ table.rows ∨ stored = row := by
  by_cases free : table.Free row
  · rw [rows_insertOrIgnore_of_free free, mem_append, mem_singleton] at member
    exact member
  · rw [insertOrIgnore_of_not_free free] at member
    exact .inl member

/-- `UPDATE` of every row by an update that introduces no clash. -/
def update (table : Table Row clash) (change : Row → Row)
    (faithful : ∀ first second, clash (change first) (change second) → clash first second) :
    Table Row clash where
  rows := table.rows.map change
  distinct := pairwise_map.mpr
    (table.distinct.imp fun apart clashes => apart (faithful _ _ clashes))

@[simp] theorem rows_update (table : Table Row clash) (change : Row → Row)
    (faithful : ∀ first second, clash (change first) (change second) → clash first second) :
    (table.update change faithful).rows = table.rows.map change := rfl

/-- The stored rows that satisfy a condition, as a table of their own. -/
def filter (table : Table Row clash) (keep : Row → Bool) : Table Row clash where
  rows := table.rows.filter keep
  distinct := table.distinct.sublist filter_sublist

/-- Under a symmetric constraint, clashing stored rows are one row. -/
theorem eq_of_clash [Std.Symm clash] (table : Table Row clash) {first second : Row}
    (firstMem : first ∈ table.rows) (secondMem : second ∈ table.rows)
    (clashes : clash first second) : first = second := by
  by_contra different
  have symmetric : Std.Symm fun earlier later => ¬ clash earlier later :=
    ⟨fun _ _ apart clashes => apart (symm clashes)⟩
  exact table.distinct.forall firstMem secondMem different clashes

/-- A row that clashes with itself is stored at most once. -/
theorem nodup [Std.Refl clash] (table : Table Row clash) : table.rows.Nodup := by
  apply table.distinct.imp
  rintro row _ apart rfl
  exact apart (refl row)

/-- An `UPDATE … WHERE` hits exactly one row when its condition singles out a
stored row. -/
theorem countP_eq_one [DecidableEq Row] [Std.Refl clash] (table : Table Row clash) {row : Row}
    {hit : Row → Bool} (member : row ∈ table.rows)
    (only : ∀ stored ∈ table.rows, hit stored = true ↔ stored = row) :
    table.rows.countP hit = 1 := by
  have counted : table.rows.countP hit = table.rows.count row := by
    rw [count]
    apply countP_congr
    intro stored storedMem
    rw [only stored storedMem, beq_iff_eq]
  rw [counted]
  exact count_eq_one_of_mem table.nodup member

/-- Insert rows one after the other, skipping those that clash. -/
def insertAllOrIgnore [DecidableRel clash] (table : Table Row clash) (added : List Row) :
    Table Row clash :=
  added.foldl insertOrIgnore table

section

variable (table : Table Row clash)

@[simp] theorem insertAllOrIgnore_nil [DecidableRel clash] :
    table.insertAllOrIgnore [] = table := rfl

@[simp] theorem insertAllOrIgnore_cons [DecidableRel clash] (row : Row) (added : List Row) :
    table.insertAllOrIgnore (row :: added) = (table.insertOrIgnore row).insertAllOrIgnore added :=
  rfl

/-- Skipping insertion only appends, and appends only offered rows that were
free in the table it started from. -/
theorem rows_insertAllOrIgnore [DecidableRel clash] (added : List Row) :
    ∃ appended : List Row, (table.insertAllOrIgnore added).rows = table.rows ++ appended ∧
      ∀ row ∈ appended, row ∈ added ∧ table.Free row := by
  induction added generalizing table with
  | nil => exact ⟨[], by simp, by simp⟩
  | cons row rest ih =>
    obtain ⟨appended, rowsEq, origin⟩ := ih (table.insertOrIgnore row)
    by_cases free : table.Free row
    · refine ⟨row :: appended, ?_, ?_⟩
      · rw [insertAllOrIgnore_cons, rowsEq, rows_insertOrIgnore_of_free free,
          append_assoc, singleton_append]
      · intro other member
        rcases mem_cons.mp member with rfl | later
        · exact ⟨mem_cons_self, free⟩
        · obtain ⟨offered, apart⟩ := origin other later
          refine ⟨mem_cons_of_mem _ offered, fun stored storedMem => apart stored ?_⟩
          rw [rows_insertOrIgnore_of_free free]
          exact mem_append_left _ storedMem
    · rw [insertOrIgnore_of_not_free free] at rowsEq origin
      refine ⟨appended, ?_, ?_⟩
      · rw [insertAllOrIgnore_cons, insertOrIgnore_of_not_free free, rowsEq]
      · intro other member
        exact ⟨mem_cons_of_mem _ (origin other member).1, (origin other member).2⟩

/-- After skipping insertion every offered row is stored or clashes with a
stored one. -/
theorem exists_clash_insertAllOrIgnore [DecidableRel clash] [Std.Refl clash] (added : List Row)
    {row : Row} (offered : row ∈ added) :
    ∃ stored ∈ (table.insertAllOrIgnore added).rows, clash stored row := by
  induction added generalizing table with
  | nil => exact (not_mem_nil offered).elim
  | cons first rest ih =>
    rcases mem_cons.mp offered with rfl | later
    · obtain ⟨appended, rowsEq, -⟩ := rows_insertAllOrIgnore (table.insertOrIgnore row) rest
      rw [insertAllOrIgnore_cons, rowsEq]
      by_cases free : table.Free row
      · refine ⟨row, mem_append_left _ ?_, refl row⟩
        rw [rows_insertOrIgnore_of_free free]
        exact mem_append_right _ mem_cons_self
      · unfold Free at free
        push Not at free
        obtain ⟨stored, storedMem, clashes⟩ := free
        refine ⟨stored, mem_append_left _ ?_, clashes⟩
        by_cases absent : table.Free row
        · exact (absent stored storedMem clashes).elim
        · rw [insertOrIgnore_of_not_free absent]
          exact storedMem
    · exact ih (table.insertOrIgnore first) later

end

end Table

/-- Keeping some rows of an ordered scan is scanning the kept rows in order,
where the order tells the rows apart. -/
theorem filter_insertionSort {order : Row → Row → Prop} [DecidableRel order]
    [Std.Total order] [IsTrans Row order] {rows : List Row}
    (faithful : ∀ first ∈ rows, ∀ second ∈ rows, order first second → order second first →
      first = second) (keep : Row → Bool) :
    (rows.insertionSort order).filter keep = (rows.filter keep).insertionSort order := by
  refine Perm.eq_of_pairwise ?_ ((pairwise_insertionSort order rows).filter _)
    (pairwise_insertionSort order _) ?_
  · intro first second firstMem secondMem
    rw [mem_filter, mem_insertionSort] at firstMem
    rw [mem_insertionSort, mem_filter] at secondMem
    exact faithful first firstMem.1 second secondMem.1
  · exact ((perm_insertionSort order rows).filter keep).trans (perm_insertionSort order _).symm

end Relational
