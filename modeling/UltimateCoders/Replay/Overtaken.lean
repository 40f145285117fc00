import Mathlib.Data.List.Infix
import Mathlib.Data.List.Sort
import Mathlib.Order.MinMax

/-! # Events that arrive late

Events carry the times at which they happened and may arrive in another order. An account that
passes over those that were overtaken is the account of all events in the order of their times,
as long as every event that was overtaken makes no difference there.
-/

namespace Replay

open List

universe u v w

variable {Event : Type u} {Time : Type v} {Account : Type w} [LinearOrder Time] (time : Event → Time)

/-- The events by their times; of those at one time the first that arrived comes first. -/
def inOrder (events : List Event) : List Event :=
  events.insertionSort fun first second => time first ≤ time second

/-- What arrives last comes after all events that are not later. -/
theorem exists_inOrder_snoc (events : List Event) (last : Event) :
    ∃ before after, inOrder time events = before ++ after ∧
      inOrder time (events ++ [last]) = before ++ last :: after ∧
      (∀ event ∈ before, time event ≤ time last) ∧ ∀ event ∈ after, time last < time event := by
  induction events with
  | nil => exact ⟨[], [], rfl, rfl, fun _ member => (not_mem_nil member).elim,
      fun _ member => (not_mem_nil member).elim⟩
  | cons first events ih =>
    obtain ⟨before, after, sorted, withLast, early, late⟩ := ih
    have split (rest : List Event) : (before ++ rest).orderedInsert
        (fun first second => time first ≤ time second) first =
        if ∃ event ∈ before, time first ≤ time event then
          before.orderedInsert (fun first second => time first ≤ time second) first ++ rest
        else before ++ rest.orderedInsert (fun first second => time first ≤ time second) first := by
      clear sorted withLast early
      induction before with
      | nil => simp
      | cons event before ih =>
        by_cases here : time first ≤ time event
        · simp [here]
        · simp only [cons_append, orderedInsert_cons, here, ↓reduceIte, ih,
            mem_cons, exists_eq_or_imp, false_or]
          split <;> simp
    simp only [inOrder, cons_append, insertionSort_cons] at sorted withLast ⊢
    rw [sorted, withLast, split, split]
    by_cases within : ∃ event ∈ before, time first ≤ time event
    · obtain ⟨event, member, le⟩ := within
      refine ⟨_, after, if_pos ⟨event, member, le⟩, if_pos ⟨event, member, le⟩, ?_, late⟩
      intro other among
      rcases (mem_orderedInsert _).mp among with rfl | old
      · exact le.trans (early event member)
      · exact early other old
    · rw [if_neg within, if_neg within]
      by_cases lastLater : time first ≤ time last
      · refine ⟨before ++ [first], after, ?_, by simp [lastLater], ?_, late⟩
        · cases after with
          | nil => simp
          | cons next after =>
            have le := lastLater.trans (late next mem_cons_self).le
            simp [le]
        · intro event member
          rcases mem_append.mp member with old | new
          · exact early event old
          · rw [mem_singleton.mp new]
            exact lastLater
      · refine ⟨before, after.orderedInsert (fun first second => time first ≤ time second) first,
          rfl, by simp [lastLater], early, ?_⟩
        intro event member
        rcases (mem_orderedInsert _).mp member with rfl | old
        · exact not_le.mp lastLater
        · exact late event old

variable {events : List Event}

theorem mem_inOrder {event : Event} : event ∈ inOrder time events ↔ event ∈ events := by
  simp [inOrder, mem_insertionSort]

variable {time} {account : Account → Event → Account}

/-- An event after which the account does not depend on what came before. -/
def Resets (account : Account → Event → Account) (event : Event) : Prop :=
  ∀ first second, account first event = account second event

/-- An event makes no difference where it is overtaken. -/
def Superseded (time : Event → Time) (account : Account → Event → Account)
    (arrived : List Event) (event : Event) : Prop :=
  (∀ balance, account balance event = balance) ∨
    ∃ later ∈ arrived, time event < time later ∧ Resets account later

theorem foldl_eq_of_resets {event : Event} (resets : Resets account event)
    (member : event ∈ events) (first second : Account) :
    events.foldl account first = events.foldl account second := by
  obtain ⟨before, after, rfl⟩ := append_of_mem member
  simp only [foldl_append, foldl_cons]
  rw [resets]

/-- The latest event is accounted for last. -/
theorem foldl_inOrder_snoc_of_latest {last : Event}
    (latest : ∀ event ∈ events, time event ≤ time last) (start : Account) :
    (inOrder time (events ++ [last])).foldl account start =
      account ((inOrder time events).foldl account start) last := by
  obtain ⟨before, after, sorted, withLast, -, late⟩ := exists_inOrder_snoc time events last
  have none : after = [] := by
    refine eq_nil_iff_forall_not_mem.mpr fun event member => ?_
    have among : event ∈ events :=
      (mem_inOrder time).mp (sorted ▸ mem_append_right before member)
    exact absurd (late event member) (not_lt.mpr (latest event among))
  rw [withLast, sorted, none]
  simp

/-- An event that is superseded makes no difference. -/
theorem foldl_inOrder_snoc_of_superseded {last : Event}
    (superseded : Superseded time account events last) (start : Account) :
    (inOrder time (events ++ [last])).foldl account start =
      (inOrder time events).foldl account start := by
  obtain ⟨before, after, sorted, withLast, early, -⟩ := exists_inOrder_snoc time events last
  rw [withLast, sorted]
  simp only [foldl_append, foldl_cons]
  rcases superseded with neutral | ⟨later, member, isLater, resets⟩
  · rw [neutral]
  · apply foldl_eq_of_resets resets
    rcases mem_append.mp (sorted ▸ (mem_inOrder time).mpr member) with among | found
    · exact absurd isLater (not_lt.mpr (early later among))
    · exact found

def latest (time : Event → Time) (start : Option Time) (events : List Event) : Option Time :=
  (start.toList ++ events.map time).max?

/-- The event is not older than those that have arrived. -/
def IsCurrent (time : Event → Time) (start : Option Time) (arrived : List Event) (event : Event) :
    Prop :=
  ∀ instant ∈ latest time start arrived, instant ≤ time event

instance (start : Option Time) (arrived : List Event) (event : Event) :
    Decidable (IsCurrent time start arrived event) :=
  inferInstanceAs (Decidable (∀ instant ∈ latest time start arrived, instant ≤ time event))

/-- The events that were not overtaken when they arrived. -/
def notOvertaken (time : Event → Time) : Option Time → List Event → List Event
  | _, [] => []
  | last, event :: rest =>
    if ∀ instant ∈ last, instant ≤ time event then
      event :: notOvertaken time (some (time event)) rest
    else notOvertaken time last rest

variable {start : Option Time} {events : List Event} {event : Event}

theorem latest_snoc : latest time start (events ++ [event]) =
    some (((latest time start events).map (max · (time event))).getD (time event)) := by
  rw [latest, latest, map_append, ← append_assoc]
  cases start.toList ++ events.map time with
  | nil => rfl
  | cons first rest =>
    rw [cons_append, max?_cons', max?_cons', foldl_append]
    rfl

theorem latest_cons : latest time start (event :: events) =
    latest time (some ((start.map (max · (time event))).getD (time event))) events := by
  cases start with
  | none | some instant => rfl

theorem latest_snoc_of_current (current : IsCurrent time start events event) :
    latest time start (events ++ [event]) = some (time event) := by
  rw [latest_snoc]
  cases found : latest time start events with
  | none => rfl
  | some instant => simpa using current instant found

theorem latest_snoc_of_overtaken (overtaken : ¬ IsCurrent time start events event) :
    latest time start (events ++ [event]) = latest time start events := by
  rw [latest_snoc]
  simp only [IsCurrent, not_forall, not_le] at overtaken
  obtain ⟨instant, found, earlier⟩ := overtaken
  rw [Option.mem_def] at found
  rw [found]
  simpa using earlier.le

theorem IsCurrent.le {other : Event} (current : IsCurrent time start events event)
    (arrived : other ∈ events) : time other ≤ time event := by
  have member : time other ∈ start.toList ++ events.map time :=
    mem_append_right _ (mem_map_of_mem arrived)
  cases found : latest time start events with
  | none =>
    rw [max?_eq_none_iff.mp found] at member
    exact absurd member not_mem_nil
  | some instant =>
    exact ((max?_eq_some_iff.mp found).2 _ member).trans (current instant found)

theorem notOvertaken_snoc : notOvertaken time start (events ++ [event]) =
    notOvertaken time start events ++ if IsCurrent time start events event then [event] else [] := by
  induction events generalizing start with
  | nil =>
    have same : IsCurrent time start [] event ↔ ∀ instant ∈ start, instant ≤ time event := by
      cases start <;> simp [IsCurrent, latest]
    simp [notOvertaken, same]
  | cons first events ih =>
    rcases em (∀ instant ∈ start, instant ≤ time first) with current | overtaken
    · have same : latest time start (first :: events) = latest time (some (time first)) events := by
        rw [latest_cons]
        cases start with
        | none => rfl
        | some instant => simp [current instant rfl]
      have onward : IsCurrent time start (first :: events) event ↔
          IsCurrent time (some (time first)) events event := by
        rw [IsCurrent, same, IsCurrent]
      simp only [cons_append, notOvertaken, if_pos current, ih, onward]
    · have same : latest time start (first :: events) = latest time start events := by
        rw [latest_cons]
        simp only [not_forall, not_le] at overtaken
        obtain ⟨instant, found, earlier⟩ := overtaken
        rw [Option.mem_def] at found
        simp [found, max_eq_left earlier.le]
      have onward : IsCurrent time start (first :: events) event ↔
          IsCurrent time start events event := by
        rw [IsCurrent, same, IsCurrent]
      simp only [cons_append, notOvertaken, if_neg overtaken, ih, onward]

/-- Passing over what was overtaken makes no difference to the account in the order of the times,
if what is passed over was superseded. -/
theorem foldl_inOrder_eq {balance : Account}
    (harmless : ∀ arrived event, arrived ++ [event] <+: events →
      ¬ IsCurrent time start arrived event → Superseded time account arrived event) :
    (inOrder time events).foldl account balance =
      (notOvertaken time start events).foldl account balance := by
  induction events using reverseRecOn with
  | nil => rfl
  | append_singleton events event ih =>
    have earlier := ih fun arrived other within =>
      harmless arrived other (within.trans (prefix_append _ _))
    rw [notOvertaken_snoc, foldl_append, ← earlier]
    by_cases current : IsCurrent time start events event
    · have last : ∀ other ∈ events, time other ≤ time event := fun other => current.le
      rw [if_pos current, foldl_inOrder_snoc_of_latest last]
      rfl
    · rw [if_neg current,
        foldl_inOrder_snoc_of_superseded (harmless events event prefix_rfl current)]
      rfl

end Replay
