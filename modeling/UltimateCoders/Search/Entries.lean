import Mathlib.Data.List.Nodup
import Mathlib.Data.List.Pairwise
import Mathlib.Order.Lattice

/-! # Lists of entries under keys

Two ways to keep one entry under each key in a list: new keys go to the end, or every
key stands at its place in the order of the keys. Both answer lookups alike.
-/

namespace Search

open List

universe u v

variable {Key : Type u} {Item : Type v} [DecidableEq Key]

def stored (key : Key) (entries : List (Key × Item)) : Option Item :=
  (entries.find? (·.1 = key)).map Prod.snd

/-- Replace the first item under a key, or add it at the end. -/
def overwrite (key : Key) (item : Item) : List (Key × Item) → List (Key × Item)
  | [] => [(key, item)]
  | (other, old) :: rest =>
    if other = key then (key, item) :: rest else (other, old) :: overwrite key item rest

/-- Replace the item under a key, or put it before the first greater key. -/
def place [LT Key] [DecidableLT Key] (key : Key) (item : Item) :
    List (Key × Item) → List (Key × Item)
  | [] => [(key, item)]
  | (other, old) :: rest =>
    if other = key then (key, item) :: rest
    else if other < key then (other, old) :: place key item rest
    else (key, item) :: (other, old) :: rest

def without (key : Key) (entries : List (Key × Item)) : List (Key × Item) :=
  entries.filter (·.1 ≠ key)

variable {key other : Key} {item : Item} {entries : List (Key × Item)}

@[simp]
theorem stored_nil : stored key ([] : List (Key × Item)) = none := rfl

theorem stored_cons (entry : Key × Item) :
    stored key (entry :: entries) = if entry.1 = key then some entry.2 else stored key entries := by
  unfold stored
  by_cases here : entry.1 = key <;> simp [here]

theorem stored_overwrite (key other : Key) (item : Item) (entries : List (Key × Item)) :
    stored other (overwrite key item entries) =
      if key = other then some item else stored other entries := by
  induction entries with
  | nil => simp [overwrite, stored_cons]
  | cons entry rest ih =>
    by_cases here : entry.1 = key
    · subst here
      by_cases same : entry.1 = other <;> simp [overwrite, stored_cons, same]
    · rw [overwrite, if_neg here, stored_cons, stored_cons, ih]
      by_cases same : key = other
      · simp [same, show entry.1 ≠ other from same ▸ here]
      · simp [same]

theorem stored_place [LT Key] [DecidableLT Key] (key other : Key) (item : Item)
    (entries : List (Key × Item)) :
    stored other (place key item entries) =
      if key = other then some item else stored other entries := by
  induction entries with
  | nil => simp [place, stored_cons]
  | cons entry rest ih =>
    by_cases here : entry.1 = key
    · subst here
      by_cases same : entry.1 = other <;> simp [place, stored_cons, same]
    · by_cases below : entry.1 < key
      · rw [place, if_neg here, if_pos below, stored_cons, stored_cons, ih]
        by_cases same : key = other
        · simp [same, show entry.1 ≠ other from same ▸ here]
        · simp [same]
      · rw [place, if_neg here, if_neg below, stored_cons]

theorem stored_without (key other : Key) (entries : List (Key × Item)) :
    stored other (without key entries) =
      if key = other then none else stored other entries := by
  induction entries with
  | nil => simp [without]
  | cons entry rest ih =>
    have ih' : stored other (rest.filter (·.1 ≠ key)) = _ := ih
    by_cases here : entry.1 = key
    · subst here
      by_cases same : entry.1 = other <;> simp_all [without, stored_cons]
    · rw [without, filter_cons_of_pos (by simpa using here), stored_cons, stored_cons, ih']
      by_cases same : key = other
      · simp [same, show entry.1 ≠ other from same ▸ here]
      · simp [same]

theorem isSome_stored_iff : (stored key entries).isSome ↔ key ∈ entries.map Prod.fst := by
  simp [stored, find?_isSome]

/-- An item under a new key goes to the end. -/
theorem overwrite_of_notMem (absent : key ∉ entries.map Prod.fst) (item : Item) :
    overwrite key item entries = entries ++ [(key, item)] := by
  induction entries with
  | nil => rfl
  | cons entry rest ih =>
    rw [map_cons, mem_cons, not_or] at absent
    rw [overwrite, if_neg (Ne.symm absent.1), ih absent.2, cons_append]

theorem nodup_overwrite (once : (entries.map Prod.fst).Nodup) (key : Key) (item : Item) :
    ((overwrite key item entries).map Prod.fst).Nodup := by
  induction entries with
  | nil => simp [overwrite]
  | cons entry rest ih =>
    rw [map_cons, nodup_cons] at once
    by_cases here : entry.1 = key
    · subst here
      simpa [overwrite] using once
    · rw [overwrite, if_neg here, map_cons, nodup_cons]
      refine ⟨fun member => once.1 ?_, ih once.2⟩
      rw [← isSome_stored_iff, stored_overwrite, if_neg (Ne.symm here)] at member
      exact isSome_stored_iff.mp member

/-- Placing an entry keeps the keys in order. -/
theorem pairwise_place {Key : Type u} [LinearOrder Key] {entries : List (Key × Item)}
    (ordered : (entries.map Prod.fst).Pairwise (· < ·)) (key : Key) (item : Item) :
    ((place key item entries).map Prod.fst).Pairwise (· < ·) := by
  induction entries with
  | nil => simp [place]
  | cons entry rest ih =>
    rw [map_cons, pairwise_cons] at ordered
    by_cases here : entry.1 = key
    · subst here
      simpa [place] using ordered
    · by_cases below : entry.1 < key
      · rw [place, if_neg here, if_pos below, map_cons, pairwise_cons]
        refine ⟨fun other member => ?_, ih ordered.2⟩
        rw [← isSome_stored_iff, stored_place] at member
        by_cases same : key = other
        · exact same ▸ below
        · exact ordered.1 other (isSome_stored_iff.mp (by simpa [same] using member))
      · have above : key < entry.1 := lt_of_le_of_ne (not_lt.mp below) (Ne.symm here)
        rw [place, if_neg here, if_neg below, map_cons, map_cons, pairwise_cons, pairwise_cons]
        refine ⟨fun other member => ?_, ordered⟩
        rcases mem_cons.mp member with rfl | later
        · exact above
        · exact above.trans (ordered.1 other later)

theorem map_without (key : Key) (entries : List (Key × Item)) :
    (without key entries).map Prod.fst = (entries.map Prod.fst).filter (· ≠ key) := by
  simp [without, filter_map, Function.comp_def]

/-- Changing one item leaves a part of the items that the change leaves. -/
theorem map_modify_eq {Part : Type*} {items : List Item} {position : Nat} {change : Item → Item}
    {part : Item → Part} (same : ∀ item, part (change item) = part item) :
    (items.modify position change).map part = items.map part := by
  refine ext_getElem? fun other => ?_
  rw [getElem?_map, getElem?_map, getElem?_modify]
  cases items[other]? with
  | none => rfl
  | some item =>
    by_cases here : position = other
    · simp [here, same]
    · simp [here]

/-! ## Lists related item by item -/

section Related

variable {α β γ : Type*} {related : α → β → Prop} {first : List α} {second : List β}

theorem map_eq_of_forall₂ {left : α → γ} {right : β → γ} (all : Forall₂ related first second)
    (same : ∀ a b, related a b → left a = right b) : first.map left = second.map right := by
  induction all with
  | nil => rfl
  | cons head tail ih => rw [map_cons, map_cons, same _ _ head, ih]

theorem filterMap_eq_of_forall₂ {left : α → Option γ} {right : β → Option γ}
    (all : Forall₂ related first second) (same : ∀ a b, related a b → left a = right b) :
    first.filterMap left = second.filterMap right := by
  induction all with
  | nil => rfl
  | cons head tail ih => rw [filterMap_cons, filterMap_cons, same _ _ head, ih]

theorem find?_rel_of_forall₂ {left : α → Bool} {right : β → Bool}
    (all : Forall₂ related first second) (same : ∀ a b, related a b → left a = right b) :
    Option.Rel related (first.find? left) (second.find? right) := by
  induction all with
  | nil => exact .none
  | cons head tail ih =>
    rw [find?_cons, find?_cons, same _ _ head]
    split
    · exact .some head
    · exact ih

/-- Two chains of changes, item by item, are one. -/
theorem forall₂_trans {related weaker other : α → α → Prop} {first second third : List α}
    (transitive : ∀ old middle new, related old middle → weaker middle new → other old new)
    (one : Forall₂ related first second) (two : Forall₂ weaker second third) :
    Forall₂ other first third := by
  induction one generalizing third with
  | nil =>
    cases two
    exact .nil
  | cons step _ ih =>
    cases two with
    | cons stepNext rest => exact .cons (transitive _ _ _ step stepNext) (ih rest)

end Related

end Search
