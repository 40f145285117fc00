import Mathlib.Data.List.Basic

/-! # Replaying a log from a cut

Entries of a log are numbered in rising order. A state that was reduced from the
entries up to a cut stands for them for good: reducing the later entries from it is
the same as reducing all of them.
-/

namespace Replay

open List

universe u v

variable {Entry : Type u} {State : Type v} (offset : Entry → Nat) (reduce : State → Entry → State)

def upTo (cut : Nat) (log : List Entry) : List Entry := log.filter fun entry => offset entry ≤ cut

def startingAt (start : Nat) (log : List Entry) : List Entry :=
  log.filter fun entry => start ≤ offset entry

/-- The offset of the last entry, zero if there is none. -/
def lastOffset (log : List Entry) : Nat := (log.getLast?.map offset).getD 0

/-- Entries are numbered from one on, in rising order. -/
structure Rising (log : List Entry) : Prop where
  positive : ∀ entry ∈ log, 0 < offset entry
  sorted : log.Pairwise fun first second => offset first < offset second

/-- The state is reduced from the entries up to the cut, which is the offset of one of
them unless there was none. -/
structure IsCut (initial : State) (log : List Entry) (cut : Nat) (state : State) : Prop where
  reduced : state = (upTo offset cut log).foldl reduce initial
  reached : cut = 0 ∨ ∃ entry ∈ log, offset entry = cut

variable {offset reduce} {log later : List Entry} {cut : Nat} {initial state : State}

theorem Rising.nil : Rising offset [] := ⟨by simp, Pairwise.nil⟩

/-- A log that goes on with a higher offset. -/
theorem Rising.concat (rising : Rising offset log) {entry : Entry} (positive : 0 < offset entry)
    (above : ∀ earlier ∈ log, offset earlier < offset entry) : Rising offset (log ++ [entry]) := by
  refine ⟨fun other member => ?_, pairwise_append.mpr
    ⟨rising.sorted, pairwise_singleton _ _, fun earlier member last isLast => ?_⟩⟩
  · rcases mem_append.mp member with earlier | last
    · exact rising.positive other earlier
    · rw [mem_singleton.mp last]
      exact positive
  · rw [mem_singleton.mp isLast]
    exact above earlier member

/-- A log falls into the entries up to a cut and those after it. -/
theorem Rising.upTo_append_startingAt (rising : Rising offset log) (cut : Nat) :
    upTo offset cut log ++ startingAt offset (cut + 1) log = log := by
  have sorted := rising.sorted
  clear rising
  induction log with
  | nil => rfl
  | cons entry rest ih =>
    obtain ⟨above, sortedRest⟩ := pairwise_cons.mp sorted
    unfold upTo startingAt at ih ⊢
    by_cases low : offset entry ≤ cut
    · rw [filter_cons_of_pos (by simpa using low), filter_cons_of_neg (by simp; omega),
        cons_append, ih sortedRest]
    · have none : rest.filter (fun entry => offset entry ≤ cut) = [] := by
        rw [filter_eq_nil_iff]
        intro other member
        have := above other member
        simp
        omega
      have all : rest.filter (fun entry => cut + 1 ≤ offset entry) = rest := by
        rw [filter_eq_self]
        intro other member
        have := above other member
        simp
        omega
      rw [filter_cons_of_neg (by simpa using low), none,
        filter_cons_of_pos (by simp; omega), all, nil_append]

theorem upTo_append (high : ∀ entry ∈ later, cut < offset entry) :
    upTo offset cut (log ++ later) = upTo offset cut log := by
  have none : later.filter (fun entry => offset entry ≤ cut) = [] := by
    rw [filter_eq_nil_iff]
    intro entry member
    have := high entry member
    simp
    omega
  unfold upTo
  rw [filter_append, none, append_nil]

/-- The last offset is that of an entry. -/
theorem lastOffset_reached (offset : Entry → Nat) (log : List Entry) :
    lastOffset offset log = 0 ∨ ∃ entry ∈ log, offset entry = lastOffset offset log := by
  unfold lastOffset
  cases last : log.getLast? with
  | none => exact .inl rfl
  | some entry => exact .inr ⟨entry, mem_of_getLast? last, rfl⟩

/-- No entry has a higher offset than the last one. -/
theorem Rising.le_lastOffset (rising : Rising offset log) {entry : Entry} (member : entry ∈ log) :
    offset entry ≤ lastOffset offset log := by
  unfold lastOffset
  cases last : log.getLast? with
  | none =>
    rw [getLast?_eq_none_iff.mp last] at member
    cases member
  | some final =>
    obtain ⟨earlier, rfl⟩ := getLast?_eq_some_iff.mp last
    rcases mem_append.mp member with before | isLast
    · have below := (pairwise_append.mp rising.sorted).2.2 entry before final
        (mem_singleton.mpr rfl)
      exact Nat.le_of_lt below
    · rw [mem_singleton.mp isLast]
      exact Nat.le_refl _

namespace IsCut

section

variable (cuts : IsCut offset reduce initial log cut state)

include cuts

/-- A cut stays one when the log goes on. -/
theorem append (high : ∀ entry ∈ later, cut < offset entry) :
    IsCut offset reduce initial (log ++ later) cut state := by
  refine ⟨by rw [upTo_append high, cuts.reduced], cuts.reached.imp_right ?_⟩
  exact fun ⟨entry, member, here⟩ => ⟨entry, mem_append_left _ member, here⟩

/-- Replaying from a cut is replaying all of the log. -/
theorem foldl_startingAt (rising : Rising offset log) :
    (startingAt offset (cut + 1) log).foldl reduce state = log.foldl reduce initial := by
  rw [cuts.reduced, ← foldl_append, rising.upTo_append_startingAt]

/-- The last entry after a cut, or the one at the cut, is the last one of the log. -/
theorem lastOffset_startingAt (rising : Rising offset log) :
    ((startingAt offset (cut + 1) log).getLast?.map offset).getD cut = lastOffset offset log := by
  have split := rising.upTo_append_startingAt cut
  cases last : (startingAt offset (cut + 1) log).getLast? with
  | some entry =>
    have whole : log.getLast? = some entry := by
      rw [← split, getLast?_append, last]
      rfl
    rw [lastOffset, whole]
    rfl
  | none =>
    -- all entries are at the cut or before it
    rw [getLast?_eq_none_iff.mp last, append_nil] at split
    have low : ∀ entry ∈ log, offset entry ≤ cut := by
      intro entry member
      rw [← split, upTo, mem_filter] at member
      simpa using member.2
    have atMost : lastOffset offset log ≤ cut := by
      rcases lastOffset_reached offset log with zero | ⟨entry, member, same⟩
      · omega
      · rw [← same]
        exact low entry member
    rcases cuts.reached with rfl | ⟨entry, member, rfl⟩
    · exact (Nat.le_zero.mp atMost).symm
    · exact Nat.le_antisymm (rising.le_lastOffset member) atMost

end

end IsCut

end Replay
