import Mathlib.Data.List.Basic
import Mathlib.Order.Lattice

/-! # Pages

A list that is sorted by keys is read page by page: each page begins after the last key of the one
before. A page that is not full is the last one. Together the pages are the list.
-/

namespace Search

open List

universe u v

variable {Item : Type u} {Key : Type v} [LinearOrder Key] (key : Item → Key) (size : Nat)

/-- Read pages after a key, at most so many. -/
def pages (page : Key → List Item) : Nat → Key → List Item
  | 0, _ => []
  | count + 1, after =>
    if (page after).length < size then page after
    else
      match (page after).getLast? with
      | some last => page after ++ pages page count (key last)
      | none => page after

def itemsAfter (items : List Item) (after : Key) : List Item :=
  items.filter fun item => after < key item

variable {key size} {items : List Item} {page : Key → List Item}

/-- What follows the last item of a page is the rest. -/
theorem itemsAfter_getLast (sorted : items.Pairwise fun first second => key first < key second)
    {after : Key} {last : Item}
    (ends : ((itemsAfter key items after).take size).getLast? = some last) :
    itemsAfter key items (key last) = (itemsAfter key items after).drop size := by
  have reached : (itemsAfter key items after).Pairwise fun first second => key first < key second :=
    sorted.filter _
  have lastAfter : after < key last := by
    have member := mem_of_mem_take (mem_of_getLast? ends)
    exact of_decide_eq_true (mem_filter.mp member).2
  have narrowed : itemsAfter key items (key last) =
      (itemsAfter key items after).filter fun item => key last < key item := by
    rw [itemsAfter, itemsAfter, filter_filter]
    refine filter_congr fun item _ => ?_
    rw [Bool.eq_iff_iff]
    simp only [decide_eq_true_eq, Bool.and_eq_true]
    exact ⟨fun above => ⟨above, lastAfter.trans above⟩, And.left⟩
  rw [narrowed]
  generalize itemsAfter key items after = found at ends reached
  have split := found.take_append_drop size
  rw [← split, pairwise_append] at reached
  obtain ⟨taken, -, below⟩ := reached
  obtain ⟨front, whole⟩ := getLast?_eq_some_iff.mp ends
  have none : (found.take size).filter (fun item => key last < key item) = [] := by
    rw [filter_eq_nil_iff]
    intro item member above
    rw [whole] at member taken
    rcases mem_append.mp member with earlier | same
    · have under := (pairwise_append.mp taken).2.2 item earlier last mem_cons_self
      exact (of_decide_eq_true above).not_gt under
    · rw [mem_singleton.mp same] at above
      exact lt_irrefl _ (of_decide_eq_true above)
  have all : (found.drop size).filter (fun item => key last < key item) = found.drop size := by
    rw [filter_eq_self]
    intro item member
    exact decide_eq_true (below last (mem_of_getLast? ends) item member)
  conv_lhs => rw [← split]
  rw [filter_append, none, all, nil_append]

/-- The pages together are the items after the key. -/
theorem pages_eq (sorted : items.Pairwise fun first second => key first < key second)
    (positive : 0 < size) (paged : ∀ after, page after = (itemsAfter key items after).take size)
    {count : Nat} {after : Key} (enough : (itemsAfter key items after).length < count) :
    pages key size page count after = itemsAfter key items after := by
  induction count generalizing after with
  | zero => omega
  | succ count ih =>
    rw [pages, paged]
    split
    · rename_i short
      rw [length_take] at short
      exact take_of_length_le (by omega)
    · rename_i full
      rw [length_take] at full
      cases ends : ((itemsAfter key items after).take size).getLast? with
      | none =>
        rw [getLast?_eq_none_iff] at ends
        have empty := congrArg length ends
        rw [length_take, length_nil] at empty
        omega
      | some last =>
        have rest := itemsAfter_getLast sorted ends
        have fewer : (itemsAfter key items (key last)).length < count := by
          rw [rest, length_drop]
          omega
        simp only [ih fewer, rest, take_append_drop]

end Search
