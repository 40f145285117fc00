import Mathlib.Data.List.Nodup
import Mathlib.Data.List.Perm.Subperm

/-! # Replaying and then listening

A listener is given the events of a log and then the events it hears on a channel.
To have none of them twice it leaves out as many as it was given. The result is
each event once and in order exactly if the channel is in step with the log.
-/

namespace Replay

open List

universe u

variable {Event : Type u} [DecidableEq Event] {past later heard : List Event}

/-- The past, and then what is heard after as many events. -/
def splice (past heard : List Event) : List Event := past ++ heard.drop past.length

omit [DecidableEq Event] in
/-- Hearing one more event. -/
theorem splice_concat (past heard : List Event) (event : Event) :
    splice past (heard ++ [event]) =
      if heard.length < past.length then splice past heard else splice past heard ++ [event] := by
  unfold splice
  split
  · rename_i short
    rw [drop_eq_nil_of_le (Nat.le_of_lt short), drop_eq_nil_of_le]
    rw [length_append, length_singleton]
    exact short
  · rename_i full
    rw [drop_append_of_le_length (Nat.le_of_not_lt full), append_assoc]

def seamless (past later heard : List Event) : List Event :=
  past ++ later.filter fun event => event ∈ heard

/-- Nothing later is heard, or all of the past is heard before it, and the later
events in order. -/
def InStep (past later heard : List Event) : Prop :=
  (∀ event ∈ heard, event ∈ past) ∨
    ((∀ event ∈ past, event ∈ heard) ∧
      heard = (heard.filter fun event => event ∈ past) ++ later.filter fun event => event ∈ heard)

/-- Every event happens once and is heard at most once, after it has happened. -/
structure Channel (past later heard : List Event) : Prop where
  events : (past ++ later).Nodup
  once : heard.Nodup
  known : ∀ event ∈ heard, event ∈ past ∨ event ∈ later

namespace Channel

variable (channel : Channel past later heard)
include channel

omit [DecidableEq Event] in
theorem not_past {event : Event} (member : event ∈ later) : event ∉ past :=
  fun before => disjoint_of_nodup_append channel.events before member

theorem length_heard_past_le : (heard.filter fun event => event ∈ past).length ≤ past.length := by
  apply Nodup.length_le_of_subset (channel.once.filter _)
  intro event member
  exact of_decide_eq_true (mem_filter.mp member).2

/-- What is heard is heard of the past or of later events. -/
theorem length_heard : heard.length = (heard.filter fun event => event ∈ past).length +
    (later.filter fun event => event ∈ heard).length := by
  rw [length_eq_length_filter_add fun event => decide (event ∈ past)]
  congr 1
  apply Perm.length_eq
  rw [perm_ext_iff_of_nodup (channel.once.filter _) (channel.events.of_append_right.filter _)]
  intro event
  simp only [mem_filter, Bool.not_eq_true', decide_eq_false_iff_not, decide_eq_true_eq]
  constructor
  · rintro ⟨member, outside⟩
    exact ⟨(channel.known event member).resolve_left outside, member⟩
  · rintro ⟨member, known⟩
    exact ⟨known, channel.not_past member⟩

/-- No later event is among those heard of the past. -/
theorem filter_later :
    ((later.filter fun event => event ∈ heard).filter fun event => event ∈ past) = [] := by
  rw [filter_eq_nil_iff]
  intro event member
  simpa using channel.not_past (mem_filter.mp member).1

theorem inStep_of_drop
    (same : heard.drop past.length = later.filter fun event => event ∈ heard) :
    InStep past later heard := by
  have count := channel.length_heard
  have bound := channel.length_heard_past_le
  have dropped := congrArg length same
  rw [length_drop] at dropped
  by_cases none : (later.filter fun event => event ∈ heard) = []
  · refine .inl fun event member => ?_
    refine (channel.known event member).resolve_right fun new => ?_
    exact absurd (mem_filter.mpr ⟨new, decide_eq_true member⟩) (by rw [none]; simp)
  · -- as many were heard of the past as were replayed, so they are the first ones heard
    have some := length_pos_iff.mpr none
    have full : (heard.filter fun event => event ∈ past).length = past.length := by omega
    refine .inr ⟨fun event member => ?_, ?_⟩
    · have all := (subperm_of_subset (channel.once.filter _) fun event member =>
        of_decide_eq_true (mem_filter.mp member).2).perm_of_length_le (Nat.le_of_eq full.symm)
      exact (mem_filter.mp (all.mem_iff.mpr member)).1
    · have parts := take_append_drop past.length heard
      rw [same] at parts
      have old : (heard.take past.length).filter (fun event => event ∈ past) =
          heard.filter fun event => event ∈ past := by
        conv_rhs => rw [← parts, filter_append, channel.filter_later, append_nil]
      have whole : (heard.take past.length).filter (fun event => event ∈ past) =
          heard.take past.length := by
        rw [filter_eq_self, ← length_filter_eq_length_iff, old, full, length_take]
        omega
      rw [← old, whole]
      exact parts.symm

theorem drop_of_inStep (inStep : InStep past later heard) :
    heard.drop past.length = later.filter fun event => event ∈ heard := by
  rcases inStep with nothing | ⟨all, parts⟩
  · have short : heard.length ≤ past.length := channel.once.length_le_of_subset nothing
    rw [drop_eq_nil_of_le short, eq_comm, filter_eq_nil_iff]
    intro event member
    simpa using fun known => channel.not_past member (nothing event known)
  · have full : past.length = (heard.filter fun event => event ∈ past).length := by
      apply Nat.le_antisymm _ channel.length_heard_past_le
      apply channel.events.of_append_left.length_le_of_subset
      intro event member
      exact mem_filter.mpr ⟨all event member, decide_eq_true member⟩
    conv_lhs => rw [parts, full]
    exact drop_left

/-- Leaving out as many as were replayed is right exactly if the channel is in step. -/
theorem splice_eq_seamless_iff : splice past heard = seamless past later heard ↔
    InStep past later heard := by
  unfold splice seamless
  rw [append_right_inj]
  exact ⟨channel.inStep_of_drop, channel.drop_of_inStep⟩

end Channel

end Replay
