import Mathlib.Data.List.Infix
import Mathlib.Order.Lattice

/-! # Comparing two sequences

A matcher finds the longest block that two sequences have in common, and goes on to the left and
to the right of it. What is left between the blocks has changed. In a long second sequence the
items that occur too often do not begin a block.
-/

namespace Text

open List

universe u

variable {Item : Type u}

def slice (items : List Item) (start stop : Nat) : List Item :=
  (items.take stop).drop start

/-- A block of the first sequence that is also one of the second. -/
structure Match where
  a : Nat
  b : Nat
  size : Nat
  deriving DecidableEq

/-- What is replaced in the first sequence, and by what of the second. -/
structure Opcode where
  i1 : Nat
  i2 : Nat
  j1 : Nat
  j2 : Nat
  deriving DecidableEq

section Blocks

variable {items a b : List Item} {item : Item}

theorem slice_eq (items : List Item) (start stop : Nat) :
    slice items start stop = (items.drop start).take (stop - start) :=
  drop_take

theorem slice_self (items : List Item) {start stop : Nat} (ends : stop ≤ start) :
    slice items start stop = [] := by
  rw [slice_eq, Nat.sub_eq_zero_of_le ends, take_zero]

theorem slice_append (items : List Item) {start mid stop : Nat} (first : start ≤ mid)
    (second : mid ≤ stop) :
    slice items start mid ++ slice items mid stop = slice items start stop := by
  have rest : items.drop mid = (items.drop start).drop (mid - start) := by
    rw [drop_drop, Nat.add_sub_cancel' first]
  have long : stop - start = mid - start + (stop - mid) := by omega
  rw [slice_eq, slice_eq, slice_eq, rest, long, take_add]

theorem mem_of_mem_slice {start stop : Nat} (member : item ∈ slice items start stop) :
    item ∈ items :=
  mem_of_mem_take (mem_of_mem_drop member)

/-- The block lies within the bounds, and its items are the same in both sequences. -/
structure Common (a b : List Item) (alo ahi blo bhi : Nat) (found : Match) : Prop where
  aFrom : alo ≤ found.a
  bFrom : blo ≤ found.b
  aBelow : found.a + found.size ≤ ahi
  bBelow : found.b + found.size ≤ bhi
  same : ∀ step < found.size, a[found.a + step]? = b[found.b + step]?

variable {alo ahi blo bhi : Nat}

theorem Common.slice_eq {found : Match} (common : Common a b alo ahi blo bhi found) :
    slice a found.a (found.a + found.size) = slice b found.b (found.b + found.size) := by
  rw [Text.slice_eq, Text.slice_eq, Nat.add_sub_cancel_left, Nat.add_sub_cancel_left]
  refine ext_getElem? fun step => ?_
  rw [getElem?_take, getElem?_take]
  split
  · rename_i inside
    rw [getElem?_drop, getElem?_drop, common.same step inside]
  · rfl

/-- Blocks one after another between two bounds. -/
def Aligned (a b : List Item) (ahi bhi : Nat) : Nat → Nat → List Match → Prop
  | alo, blo, [] => alo ≤ ahi ∧ blo ≤ bhi
  | alo, blo, found :: rest =>
    Common a b alo ahi blo bhi found ∧
      Aligned a b ahi bhi (found.a + found.size) (found.b + found.size) rest

variable {blocks : List Match}

theorem Aligned.ordered (aligned : Aligned a b ahi bhi alo blo blocks) :
    alo ≤ ahi ∧ blo ≤ bhi := by
  cases blocks with
  | nil => exact aligned
  | cons found rest =>
    have common := aligned.1
    exact ⟨by have := common.aFrom; have := common.aBelow; omega,
      by have := common.bFrom; have := common.bBelow; omega⟩

theorem Aligned.earlier {aEarlier bEarlier : Nat} (aligned : Aligned a b ahi bhi alo blo blocks)
    (aBefore : aEarlier ≤ alo) (bBefore : bEarlier ≤ blo) :
    Aligned a b ahi bhi aEarlier bEarlier blocks := by
  cases blocks with
  | nil => exact ⟨aBefore.trans aligned.1, bBefore.trans aligned.2⟩
  | cons found rest =>
    obtain ⟨common, aligned⟩ := aligned
    exact ⟨{ common with
      aFrom := aBefore.trans common.aFrom
      bFrom := bBefore.trans common.bFrom }, aligned⟩

theorem Aligned.append {first second : List Match} {amid bmid : Nat}
    (before : Aligned a b amid bmid alo blo first) (after : Aligned a b ahi bhi amid bmid second) :
    Aligned a b ahi bhi alo blo (first ++ second) := by
  induction first generalizing alo blo with
  | nil => exact after.earlier before.1 before.2
  | cons found rest ih =>
    obtain ⟨common, before⟩ := before
    obtain ⟨aOrdered, bOrdered⟩ := after.ordered
    exact ⟨{ common with
      aBelow := common.aBelow.trans aOrdered
      bBelow := common.bBelow.trans bOrdered }, ih before⟩

/-- What is left out between blocks, from two positions on. -/
def gaps : Nat → Nat → List Match → List Opcode
  | _, _, [] => []
  | i, j, found :: rest =>
    if i < found.a ∨ j < found.b then
      ⟨i, found.a, j, found.b⟩ :: gaps (found.a + found.size) (found.b + found.size) rest
    else gaps (found.a + found.size) (found.b + found.size) rest

theorem gaps_le (aligned : Aligned a b ahi bhi alo blo blocks) :
    ∀ opcode ∈ gaps alo blo blocks, opcode.i2 ≤ ahi := by
  induction blocks generalizing alo blo with
  | nil => simp [gaps]
  | cons found rest ih =>
    obtain ⟨common, aligned⟩ := aligned
    have below := common.aBelow
    intro opcode member
    rw [gaps] at member
    split at member
    · rcases mem_cons.mp member with rfl | later
      · simp only
        omega
      · exact ih aligned opcode later
    · exact ih aligned opcode member

theorem not_mem_gap {i j : Nat} {found : Match} {rest : List Match}
    (unchanged : ∀ opcode ∈ gaps i j (found :: rest), item ∉ slice b opcode.j1 opcode.j2) :
    item ∉ slice b j found.b ∧
      ∀ opcode ∈ gaps (found.a + found.size) (found.b + found.size) rest,
        item ∉ slice b opcode.j1 opcode.j2 := by
  rw [gaps] at unchanged
  split at unchanged
  · exact forall_mem_cons.mp unchanged
  · rename_i none
    rw [slice_self b (by omega)]
    exact ⟨not_mem_nil, unchanged⟩

/-- What is in no change does not occur more often in the second sequence. -/
theorem count_slice_le [BEq Item] [LawfulBEq Item] (aligned : Aligned a b ahi bhi alo blo blocks)
    (unchanged : ∀ opcode ∈ gaps alo blo (blocks ++ [⟨ahi, bhi, 0⟩]),
      item ∉ slice b opcode.j1 opcode.j2) :
    (slice b blo bhi).count item ≤ (slice a alo ahi).count item := by
  induction blocks generalizing alo blo with
  | nil =>
    rw [count_eq_zero_of_not_mem (not_mem_gap unchanged).1]
    exact Nat.zero_le _
  | cons found rest ih =>
    obtain ⟨common, aligned⟩ := aligned
    obtain ⟨absent, later⟩ := not_mem_gap unchanged
    obtain ⟨aOrdered, bOrdered⟩ := aligned.ordered
    have fewer := ih aligned later
    rw [← slice_append b common.bFrom (Nat.le_add_right _ found.size |>.trans bOrdered),
      ← slice_append b (Nat.le_add_right _ found.size) bOrdered,
      ← slice_append a common.aFrom (Nat.le_add_right _ found.size |>.trans aOrdered),
      ← slice_append a (Nat.le_add_right _ found.size) aOrdered, common.slice_eq]
    simp only [count_append, count_eq_zero_of_not_mem absent]
    omega

end Blocks

/-- The length of the run of equal items that ends right before two positions. -/
def runBefore (same : Nat → Nat → Bool) (alo blo : Nat) : Nat → Nat → Nat
  | i + 1, j + 1 =>
    if alo ≤ i ∧ blo ≤ j ∧ same i j then runBefore same alo blo i j + 1 else 0
  | _, _ => 0

/-- The length of the run of equal items from two positions on, up to a bound. -/
def runAfter (same : Nat → Nat → Bool) : Nat → Nat → Nat → Nat
  | 0, _, _ => 0
  | bound + 1, i, j => if same i j then runAfter same bound (i + 1) (j + 1) + 1 else 0

section Runs

variable (same : Nat → Nat → Bool) (alo blo : Nat)

theorem runBefore_fits (i j : Nat) : runBefore same alo blo i j = 0 ∨
    alo + runBefore same alo blo i j ≤ i ∧ blo + runBefore same alo blo i j ≤ j := by
  induction i generalizing j with
  | zero => exact .inl (by simp [runBefore])
  | succ i ih =>
    cases j with
    | zero => exact .inl (by simp [runBefore])
    | succ j =>
      rw [runBefore]
      split
      · rcases ih j with none | fits <;> omega
      · exact .inl rfl

theorem runBefore_same (i j : Nat) : ∀ step < runBefore same alo blo i j,
    same (i - runBefore same alo blo i j + step) (j - runBefore same alo blo i j + step) =
      true := by
  induction i generalizing j with
  | zero => simp [runBefore]
  | succ i ih =>
    cases j with
    | zero => simp [runBefore]
    | succ j =>
      intro step inside
      have fits := runBefore_fits same alo blo i j
      rw [runBefore] at inside ⊢
      by_cases longer : alo ≤ i ∧ blo ≤ j ∧ same i j
      · rw [if_pos longer] at inside ⊢
        rw [Nat.add_sub_add_right, Nat.add_sub_add_right]
        rcases Nat.lt_succ_iff_lt_or_eq.mp inside with earlier | last
        · exact ih j step earlier
        · have atI : i - runBefore same alo blo i j + step = i := by omega
          have atJ : j - runBefore same alo blo i j + step = j := by omega
          rw [atI, atJ]
          exact longer.2.2
      · rw [if_neg longer] at inside
        exact absurd inside (Nat.not_lt_zero step)

theorem runAfter_le (bound i j : Nat) : runAfter same bound i j ≤ bound := by
  induction bound generalizing i j with
  | zero => exact Nat.le_refl 0
  | succ bound ih =>
    have rest := ih (i + 1) (j + 1)
    rw [runAfter]
    split <;> omega

theorem runAfter_same (bound i j : Nat) :
    ∀ step < runAfter same bound i j, same (i + step) (j + step) = true := by
  induction bound generalizing i j with
  | zero => simp [runAfter]
  | succ bound ih =>
    intro step inside
    rw [runAfter] at inside
    split at inside
    · rename_i first
      cases step with
      | zero => exact first
      | succ step =>
        have rest := ih (i + 1) (j + 1) step (by omega)
        rwa [Nat.add_right_comm i 1 step, Nat.add_right_comm j 1 step] at rest
    · omega

end Runs

namespace SequenceMatcher

variable [DecidableEq Item] (a b : List Item)

/-- The item occurs too often in a long sequence. -/
def popular (item : Item) : Bool :=
  decide (200 ≤ b.length ∧ b.length / 100 + 1 < b.count item)

def same (i j : Nat) : Bool := decide (a[i]? = b[j]?)

/-- The items at two positions are the same, and not a popular one. -/
def matching (i j : Nat) : Bool :=
  same a b i j && a[i]?.all fun item => !popular b item

/-- The longest block without popular items, of these the first. -/
def longestBlock (alo ahi blo bhi : Nat) : Match :=
  ((range' alo (ahi - alo)).flatMap fun i =>
    (range' blo (bhi - blo)).map fun j => (i, j)).foldl
      (fun best (i, j) =>
        let size := runBefore (matching a b) alo blo (i + 1) (j + 1)
        if best.size < size then ⟨i + 1 - size, j + 1 - size, size⟩ else best)
      ⟨alo, blo, 0⟩

/-- Put what is the same before it and after it to a block. -/
def extended (alo ahi blo bhi : Nat) (found : Match) : Match :=
  let before := runBefore (same a b) alo blo found.a found.b
  let after := runAfter (same a b)
    (min (ahi - (found.a + found.size)) (bhi - (found.b + found.size)))
    (found.a + found.size) (found.b + found.size)
  ⟨found.a - before, found.b - before, before + found.size + after⟩

def findLongestMatch (alo ahi blo bhi : Nat) : Match :=
  extended a b alo ahi blo bhi (longestBlock a b alo ahi blo bhi)

variable {a b} {alo ahi blo bhi : Nat}

theorem same_of_matching {i j : Nat} (holds : matching a b i j = true) : a[i]? = b[j]? := by
  simp only [matching, same, Bool.and_eq_true, decide_eq_true_eq] at holds
  exact holds.1

theorem common_longestBlock (aOrdered : alo ≤ ahi) (bOrdered : blo ≤ bhi) :
    Common a b alo ahi blo bhi (longestBlock a b alo ahi blo bhi) := by
  unfold longestBlock
  refine foldlRecOn _ _ ⟨le_rfl, le_rfl, aOrdered, bOrdered, by simp⟩ ?_
  intro best held position member
  obtain ⟨i, iMember, pairs⟩ := mem_flatMap.mp member
  obtain ⟨j, jMember, rfl⟩ := mem_map.mp pairs
  rw [mem_range'_1] at iMember jMember
  simp only
  split
  · rename_i longer
    have fits := runBefore_fits (matching a b) alo blo (i + 1) (j + 1)
    have equal := runBefore_same (matching a b) alo blo (i + 1) (j + 1)
    generalize runBefore (matching a b) alo blo (i + 1) (j + 1) = size at fits equal longer
    exact
      { aFrom := by simp only; omega
        bFrom := by simp only; omega
        aBelow := by simp only; omega
        bBelow := by simp only; omega
        same := fun step inside => same_of_matching (equal step inside) }
  · exact held

theorem common_extended {found : Match} (common : Common a b alo ahi blo bhi found) :
    Common a b alo ahi blo bhi (extended a b alo ahi blo bhi found) := by
  obtain ⟨aFrom, bFrom, aBelow, bBelow, equal⟩ := common
  have fits := runBefore_fits (SequenceMatcher.same a b) alo blo found.a found.b
  have earlier := runBefore_same (SequenceMatcher.same a b) alo blo found.a found.b
  have bounded := runAfter_le (SequenceMatcher.same a b)
    (min (ahi - (found.a + found.size)) (bhi - (found.b + found.size)))
    (found.a + found.size) (found.b + found.size)
  have later := runAfter_same (SequenceMatcher.same a b)
    (min (ahi - (found.a + found.size)) (bhi - (found.b + found.size)))
    (found.a + found.size) (found.b + found.size)
  unfold SequenceMatcher.extended
  generalize runBefore (SequenceMatcher.same a b) alo blo found.a found.b = before at *
  generalize runAfter (SequenceMatcher.same a b) _ _ _ = after at *
  simp only [SequenceMatcher.same, decide_eq_true_eq] at earlier later
  constructor
  case aFrom => simp only; omega
  case bFrom => simp only; omega
  case aBelow => simp only; omega
  case bBelow => simp only; omega
  case same =>
    simp only
    intro step inside
    rcases Nat.lt_or_ge step before with inBefore | fromFound
    · exact earlier step inBefore
    · have aShift : found.a - before + step = found.a + (step - before) := by omega
      have bShift : found.b - before + step = found.b + (step - before) := by omega
      rw [aShift, bShift]
      rcases Nat.lt_or_ge (step - before) found.size with inFound | fromAfter
      · exact equal _ inFound
      · have rest := later (step - before - found.size) (by omega)
        rwa [Nat.add_assoc, Nat.add_assoc, Nat.add_sub_cancel' fromAfter] at rest

/-- The longest match is a common block. -/
theorem common_findLongestMatch (a b : List Item) (aOrdered : alo ≤ ahi) (bOrdered : blo ≤ bhi) :
    Common a b alo ahi blo bhi (findLongestMatch a b alo ahi blo bhi) :=
  common_extended (common_longestBlock aOrdered bOrdered)

/-- The longest match and what is found on both sides of it; none if they share nothing. -/
def matchingBlocks (a b : List Item) (alo ahi blo bhi : Nat) : List Match :=
  if alo ≤ ahi ∧ blo ≤ bhi then
    let found := findLongestMatch a b alo ahi blo bhi
    if found.size = 0 then []
    else
      matchingBlocks a b alo found.a blo found.b ++ found ::
        matchingBlocks a b (found.a + found.size) ahi (found.b + found.size) bhi
  else []
termination_by ahi - alo
decreasing_by
  all_goals
    have ordered : alo ≤ ahi ∧ blo ≤ bhi := by assumption
    have nonempty : (findLongestMatch a b alo ahi blo bhi).size ≠ 0 := by assumption
    have common := common_findLongestMatch a b ordered.1 ordered.2
    have aFrom := common.aFrom
    have aBelow := common.aBelow
    omega

/-- The blocks lie one after another. -/
theorem aligned_matchingBlocks (aOrdered : alo ≤ ahi) (bOrdered : blo ≤ bhi) :
    Aligned a b ahi bhi alo blo (matchingBlocks a b alo ahi blo bhi) := by
  fun_induction matchingBlocks a b alo ahi blo bhi with
  | case1 alo ahi blo bhi ordered found empty => exact ordered
  | case2 alo ahi blo bhi ordered found nonempty left right =>
    have common := common_findLongestMatch a b ordered.1 ordered.2
    refine (left common.aFrom common.bFrom).append ⟨?_, right common.aBelow common.bBelow⟩
    exact { common with aFrom := le_rfl, bFrom := le_rfl }
  | case3 alo ahi blo bhi unordered => exact absurd ⟨aOrdered, bOrdered⟩ unordered

def changes (a b : List Item) : List Opcode :=
  gaps 0 0 (matchingBlocks a b 0 a.length 0 b.length ++ [⟨a.length, b.length, 0⟩])

theorem aligned_all (a b : List Item) : Aligned a b a.length b.length 0 0
    (matchingBlocks a b 0 a.length 0 b.length ++ [⟨a.length, b.length, 0⟩]) := by
  refine (aligned_matchingBlocks (Nat.zero_le _) (Nat.zero_le _)).append ⟨?_, le_rfl, le_rfl⟩
  exact ⟨le_rfl, le_rfl, le_rfl, le_rfl, by simp⟩

/-- Opcodes lie within the first sequence. -/
theorem changes_le {opcode : Opcode} (member : opcode ∈ changes a b) : opcode.i2 ≤ a.length :=
  gaps_le (aligned_all a b) opcode member

/-- Nothing is the same as in an empty sequence. -/
theorem changes_nil (nonempty : a ≠ []) : changes a ([] : List Item) = [⟨0, a.length, 0, 0⟩] := by
  have long : 0 < a.length := length_pos_iff.mpr nonempty
  have none : matchingBlocks a ([] : List Item) 0 a.length 0 0 = [] := by
    have common := common_findLongestMatch a ([] : List Item) (Nat.zero_le a.length) (Nat.zero_le 0)
    have below := common.bBelow
    rw [matchingBlocks]
    simp only [Nat.zero_le, and_self, if_true]
    exact if_pos (by omega)
  simp [changes, none, gaps, long]

/-- An item that occurs more often in the second sequence is in a change. -/
theorem exists_change_of_count_lt [BEq Item] [LawfulBEq Item] {item : Item}
    (more : a.count item < b.count item) :
    ∃ opcode ∈ changes a b, item ∈ slice b opcode.j1 opcode.j2 := by
  by_contra none
  push Not at none
  have fewer := count_slice_le (aligned_matchingBlocks (Nat.zero_le _) (Nat.zero_le _)) none
  simp only [slice, take_length, drop_zero] at fewer
  omega

end SequenceMatcher

end Text
