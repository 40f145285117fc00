import Mathlib.Data.List.Induction
import Mathlib.Data.List.Sort

/-! # Latest items and first items

A scan keeps the last of the items with the greatest key. The first items of a sorted list
are those that few others come before.
-/

namespace Search

open List

universe u v

variable {Item : Type u} {Key : Type v} [LinearOrder Key] {key : Item → Key} {items : List Item}
  {item best : Item}

/-- The last of the items with the greatest key. -/
def latest (key : Item → Key) (items : List Item) : Option Item :=
  items.foldl (fun latest item =>
    match latest with
    | none => some item
    | some best => if key best ≤ key item then some item else some best) none

@[simp]
theorem latest_nil : latest key [] = none := rfl

theorem latest_snoc (key : Item → Key) (items : List Item) (item : Item) :
    latest key (items ++ [item]) =
      match latest key items with
      | none => some item
      | some best => if key best ≤ key item then some item else some best := by
  simp only [latest, foldl_append, foldl_cons, foldl_nil]

theorem latest_eq_none_iff : latest key items = none ↔ items = [] := by
  induction items using reverseRecOn with
  | nil => simp
  | append_singleton items item _ =>
    rw [latest_snoc]
    cases latest key items with
    | none => simp
    | some best => by_cases newer : key best ≤ key item <;> simp [newer]

theorem mem_of_latest (found : latest key items = some best) : best ∈ items := by
  induction items using reverseRecOn with
  | nil => cases found
  | append_singleton items item ih =>
    rw [latest_snoc] at found
    cases before : latest key items with
    | none => simp_all
    | some other =>
      rw [before] at found
      by_cases newer : key other ≤ key item <;> simp_all

theorem le_of_latest (found : latest key items = some best) :
    ∀ item ∈ items, key item ≤ key best := by
  induction items using reverseRecOn generalizing best with
  | nil => cases found
  | append_singleton items last ih =>
    intro item member
    rw [latest_snoc] at found
    rw [mem_append, mem_singleton] at member
    cases before : latest key items with
    | none =>
      rw [latest_eq_none_iff] at before
      simp_all
    | some other =>
      have below := ih before
      rw [before] at found
      by_cases newer : key other ≤ key last
      · simp only [newer, if_true, Option.some.injEq] at found
        subst found
        rcases member with earlier | rfl
        · exact (below item earlier).trans newer
        · exact le_rfl
      · simp only [newer, if_false, Option.some.injEq] at found
        subst found
        rcases member with earlier | rfl
        · exact below item earlier
        · exact le_of_not_ge newer

/-- In a list that is strictly sorted, the first items are those with few smaller ones. -/
theorem mem_take_iff (sorted : items.Pairwise fun first second => key first < key second)
    (limit : Nat) :
    item ∈ items.take limit ↔
      item ∈ items ∧ items.countP (fun other => key other < key item) < limit := by
  induction items generalizing limit with
  | nil => simp
  | cons head tail ih =>
    obtain ⟨below, sorted⟩ := pairwise_cons.mp sorted
    cases limit with
    | zero => simp
    | succ limit =>
      rw [take_succ_cons, mem_cons, mem_cons, ih sorted limit, countP_cons]
      by_cases same : item = head
      · subst same
        have nothing : tail.countP (fun other => key other < key item) = 0 := by
          simpa [countP_eq_zero] using fun other member => (below other member).le
        simp [nothing]
      · by_cases member : item ∈ tail
        · simp [same, member, below item member]
        · simp [same, member]

/-- Of items with keys of their own, the first ones in key order have few smaller ones. -/
theorem mem_take_insertionSort_iff
    (distinct : items.Pairwise fun first second => key first ≠ key second) (limit : Nat) :
    item ∈ (items.insertionSort fun first second => key first ≤ key second).take limit ↔
      item ∈ items ∧ items.countP (fun other => key other < key item) < limit := by
  have perm := perm_insertionSort (fun first second => key first ≤ key second) items
  have total : Std.Total fun first second : Item => key first ≤ key second :=
    ⟨fun first second => le_total _ _⟩
  have transitive : IsTrans Item fun first second => key first ≤ key second :=
    ⟨fun _ _ _ => le_trans⟩
  have sorted := pairwise_insertionSort (fun first second => key first ≤ key second) items
  have apart : (items.insertionSort fun first second => key first ≤ key second).Pairwise
      fun first second => key first ≠ key second :=
    (perm.pairwise_iff fun different => different.symm).mpr distinct
  have strict : (items.insertionSort fun first second => key first ≤ key second).Pairwise
      fun first second => key first < key second :=
    (sorted.and apart).imp fun both => lt_of_le_of_ne both.1 both.2
  rw [mem_take_iff strict, perm.countP_eq, perm.mem_iff]

end Search
