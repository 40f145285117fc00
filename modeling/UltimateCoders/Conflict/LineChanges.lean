import UltimateCoders.Conflict.Merger

/-! # Changes between lines

Both ways to find a common subsequence return positions of equal lines in increasing order. So the
changes between two texts lead from the lines of one to those of the other; they are in order and
do not touch one another.
-/

namespace UltimateCoders.Conflict

open Text List

section Subsequences

variable {base modified : List Line}

/-- The pairs as blocks of one line. -/
def singles (pairs : List (Nat × Nat)) : List Match :=
  pairs.map fun pair => ⟨pair.1, pair.2, 1⟩

theorem common_single {i j alo ahi blo bhi : Nat} (aFrom : alo ≤ i) (bFrom : blo ≤ j)
    (aBelow : i < ahi) (bBelow : j < bhi) (same : base[i]? = modified[j]?) :
    Common base modified alo ahi blo bhi ⟨i, j, 1⟩ where
  aFrom := aFrom
  bFrom := bFrom
  aBelow := aBelow
  bBelow := bBelow
  same step inside := by
    obtain rfl : step = 0 := Nat.lt_one_iff.mp inside
    exact same

theorem aligned_backtrack (i j : Nat) :
    Aligned base modified i j 0 0 (singles (backtrack base modified i j)) := by
  have widened {i j ahi bhi : Nat} {blocks : List Match}
      (aligned : Aligned base modified i j 0 0 blocks) (aBelow : i ≤ ahi) (bBelow : j ≤ bhi) :
      Aligned base modified ahi bhi 0 0 blocks := by
    have stretched := aligned.append (show Aligned base modified ahi bhi i j [] from ⟨aBelow, bBelow⟩)
    rwa [append_nil] at stretched
  induction i generalizing j with
  | zero => exact ⟨Nat.zero_le _, Nat.zero_le _⟩
  | succ i rowIh =>
    induction j with
    | zero => exact ⟨Nat.zero_le _, Nat.zero_le _⟩
    | succ j ih =>
      rw [backtrack, backtrackRow]
      split
      · rename_i same
        have found := common_single le_rfl le_rfl (Nat.lt_succ_self i) (Nat.lt_succ_self j)
          (of_decide_eq_true same)
        rw [singles, map_append]
        exact (rowIh j).append ⟨found, le_rfl, le_rfl⟩
      · split
        · exact widened (rowIh (j + 1)) (Nat.le_succ i) le_rfl
        · exact widened ih le_rfl (Nat.le_succ j)

theorem aligned_simpleLcs {modIdx baseIdx : Nat} {rest : List Line}
    (here : base.drop baseIdx = rest) (inBase : baseIdx ≤ base.length)
    (inModified : modIdx ≤ modified.length) :
    Aligned base modified base.length modified.length baseIdx modIdx
      (singles (simpleLcs modified modIdx rest baseIdx)) := by
  induction rest generalizing baseIdx modIdx with
  | nil => exact ⟨inBase, inModified⟩
  | cons line rest ih =>
    have inside : baseIdx < base.length := by
      have long := congrArg length here
      simp only [length_drop, length_cons] at long
      omega
    have found : base[baseIdx]? = some line := by
      rw [← head?_drop, here, head?_cons]
    have later : base.drop (baseIdx + 1) = rest := by
      rw [← tail_drop, here, tail_cons]
    rw [simpleLcs]
    split
    · rename_i skipped search
      obtain ⟨within, same, -⟩ := findIdx?_eq_some_iff_getElem.mp search
      simp only [length_drop, getElem_drop, decide_eq_true_eq] at within same
      have reached : modIdx + skipped < modified.length := by omega
      have equal : base[baseIdx]? = modified[modIdx + skipped]? := by
        rw [found, getElem?_eq_getElem reached, same]
      exact ⟨common_single le_rfl (Nat.le_add_right _ _) inside reached equal,
        ih later inside reached⟩
    · exact (ih later inside inModified).earlier (Nat.le_succ _) le_rfl

theorem aligned_longestCommonSubsequence :
    Aligned base modified base.length modified.length 0 0
      (singles (longestCommonSubsequence base modified)) := by
  unfold longestCommonSubsequence
  split
  · exact ⟨Nat.zero_le _, Nat.zero_le _⟩
  · split
    · exact aligned_simpleLcs rfl (Nat.zero_le _) (Nat.zero_le _)
    · exact aligned_backtrack base.length modified.length

end Subsequences

section Changes

variable {base modified : List Line}

theorem mem_of_mem_changesAfter {change : LineChange} {line : Line} {pairs : List (Nat × Nat)}
    {i j : Nat} (member : change ∈ changesAfter base modified i j pairs)
    (brought : line ∈ change.newItems) : line ∈ modified := by
  induction pairs generalizing i j with
  | nil =>
    rw [changesAfter] at member
    split at member
    · obtain rfl := mem_singleton.mp member
      exact mem_of_mem_drop brought
    · cases member
  | cons pair pairs ih =>
    rw [changesAfter] at member
    split at member
    · cases mem_cons.mp member with
      | inl here =>
        subst here
        exact mem_of_mem_slice brought
      | inr later => exact ih later
    · exact ih member

theorem mem_of_mem_newItems {change : LineChange} {line : Line}
    (member : change ∈ computeLineChanges base modified) (brought : line ∈ change.newItems) :
    line ∈ modified :=
  mem_of_mem_changesAfter member brought

theorem aligned_whole :
    Aligned base modified base.length modified.length 0 0
      (singles (longestCommonSubsequence base modified) ++ [⟨base.length, modified.length, 0⟩]) :=
  aligned_longestCommonSubsequence.append
    ⟨⟨le_rfl, le_rfl, le_rfl, le_rfl, by simp⟩, le_rfl, le_rfl⟩

theorem lineNumber_of_le {position : Nat} (small : base.length < 2 ^ 32)
    (inside : position ≤ base.length) : lineNumber position = position :=
  Nat.mod_eq_of_lt (inside.trans_lt small)

theorem changesAfter_eq_gaps (small : base.length < 2 ^ 32) {pairs : List (Nat × Nat)} {i j : Nat}
    (aligned : Aligned base modified base.length modified.length i j (singles pairs)) :
    changesAfter base modified i j pairs =
      (gaps i j (singles pairs ++ [⟨base.length, modified.length, 0⟩])).map
        (Opcode.toChange modified) := by
  induction pairs generalizing i j with
  | nil =>
    have inside := aligned.1
    simp only [changesAfter, singles, map_nil, nil_append, gaps]
    split
    · simp [Opcode.toChange, lineNumber_of_le small inside, lineNumber_of_le small le_rfl,
        slice_length]
    · rfl
  | cons pair pairs ih =>
    obtain ⟨common, aligned⟩ := aligned
    have inside := aligned.ordered.1
    have starts := common.aFrom
    simp only at starts inside
    simp only [changesAfter, singles, map_cons, cons_append, gaps]
    split
    · have here : i ≤ base.length := by omega
      have found : pair.1 ≤ base.length := by omega
      simp [Opcode.toChange, lineNumber_of_le small here, lineNumber_of_le small found,
        ih aligned, singles]
    · exact ih aligned

variable (small : base.length < 2 ^ 32)

include small

theorem computeLineChanges_eq_gaps :
    computeLineChanges base modified =
      (gaps 0 0 (singles (longestCommonSubsequence base modified) ++
        [⟨base.length, modified.length, 0⟩])).map (Opcode.toChange modified) :=
  changesAfter_eq_gaps small aligned_longestCommonSubsequence

theorem patched_computeLineChanges :
    patched base 0 (computeLineChanges base modified) = modified := by
  rw [computeLineChanges_eq_gaps small]
  exact patched_gaps aligned_longestCommonSubsequence le_rfl le_rfl (by simp [slice])

theorem computeLineChanges_apart :
    (computeLineChanges base modified).Pairwise fun first second => first.stop < second.start := by
  rw [computeLineChanges_eq_gaps small, pairwise_map]
  refine gaps_apart aligned_longestCommonSubsequence _
    ⟨le_rfl, le_rfl, le_rfl, le_rfl, by simp⟩ fun found member => ?_
  obtain ⟨pair, -, rfl⟩ := mem_map.mp member
  exact Nat.one_pos

/-- A change takes away or brings something, within the base. -/
structure Proper (base : List Line) (change : LineChange) : Prop where
  forward : change.start ≤ change.stop
  inside : change.stop ≤ base.length
  changed : change.start < change.stop ∨ change.newItems ≠ []

theorem computeLineChanges_proper :
    ∀ change ∈ computeLineChanges base modified, Proper base change := by
  intro change member
  rw [computeLineChanges_eq_gaps small] at member
  obtain ⟨opcode, found, rfl⟩ := mem_map.mp member
  obtain ⟨changed, within⟩ := gaps_changed aligned_whole opcode found
  refine ⟨(gaps_from aligned_whole opcode found).2, gaps_le aligned_whole opcode found, ?_⟩
  refine changed.imp id fun brought none => ?_
  have long := congrArg length none
  rw [Opcode.toChange, slice_eq, length_take, length_drop, length_nil] at long
  omega

theorem computeLineChanges_ordered :
    (computeLineChanges base modified).Pairwise fun first second => first.start ≤ second.start := by
  refine (computeLineChanges_apart small).imp_of_mem fun {first second} member _ apart => ?_
  have := (computeLineChanges_proper small first member).forward
  omega

end Changes

section Insertions

variable {base modified : List Line}

theorem lcsTable_le (i j : Nat) : lcsTable base modified i j ≤ i := by
  induction i generalizing j with
  | zero => rfl
  | succ i rowIh =>
    induction j with
    | zero => exact Nat.zero_le _
    | succ j ih =>
      rw [lcsTable, lcsRow]
      split
      · exact Nat.succ_le_succ (rowIh j)
      · exact max_le ((rowIh (j + 1)).trans (Nat.le_succ i)) ih

variable {count : Nat} (same : ∀ position < count, base[position]? = modified[position]?)

include same

theorem lcsTable_diagonal : lcsTable base modified count count = count := by
  induction count with
  | zero => rfl
  | succ count ih =>
    have here : sameLine base modified count count = true :=
      decide_eq_true (same count (Nat.lt_succ_self count))
    rw [lcsTable, lcsRow, if_pos here, ih fun position below => same position (by omega)]

theorem length_backtrack_diagonal : (backtrack base modified count count).length = count := by
  induction count with
  | zero => rfl
  | succ count ih =>
    have here : sameLine base modified count count = true :=
      decide_eq_true (same count (Nat.lt_succ_self count))
    rw [backtrack, backtrackRow, if_pos here, length_append,
      ih fun position below => same position (by omega), length_singleton]

omit same in
theorem length_backtrack_shifted {last : Line} {count : Nat} (below : count ≤ base.length)
    (here : (base ++ [last])[count]? = some last) :
    (backtrack base (base ++ [last]) count (count + 1)).length = count := by
  induction count with
  | zero => rfl
  | succ count ih =>
    have kept : ∀ position < count + 1, base[position]? = (base ++ [last])[position]? :=
      fun position inside => (getElem?_append_left (by omega)).symm
    rw [backtrack, backtrackRow]
    split
    · rename_i found
      have found : base[count]? = (base ++ [last])[count + 1]? := of_decide_eq_true found
      rw [length_append, ih (by omega) (by
        rw [← kept count (Nat.lt_succ_self count), found, here]), length_singleton]
    · have table := lcsTable_diagonal kept
      have bound := @lcsTable_le base (base ++ [last]) count (count + 1 + 1)
      rw [if_neg (by omega)]
      exact length_backtrack_diagonal kept

omit same in
theorem found_of_prefix {line : Line} {rest : List Line} {position : Nat}
    (found : line :: rest <+: modified.drop position) :
    (modified.drop position).findIdx? (· = line) = some 0 ∧
      rest <+: modified.drop (position + 1) := by
  obtain ⟨later, cut⟩ := found
  refine ⟨by simp [← cut, findIdx?_cons], later, ?_⟩
  rw [← tail_drop, ← cut]
  rfl

omit same in
theorem length_simpleLcs {rest : List Line} {position : Nat}
    (found : rest <+: modified.drop position) :
    (simpleLcs modified position rest position).length = rest.length := by
  induction rest generalizing position with
  | nil => rfl
  | cons line rest ih =>
    obtain ⟨first, onward⟩ := found_of_prefix found
    rw [simpleLcs, first]
    simp only [Nat.add_zero, length_cons, ih onward]

omit same in
theorem length_longestCommonSubsequence {added : List Line} (few : added.length ≤ 1) :
    (longestCommonSubsequence base (base ++ added)).length = base.length := by
  unfold longestCommonSubsequence
  split
  · rename_i empty
    rcases empty with empty | empty
    · exact empty.symm
    · rw [length_append] at empty
      simp only [length_nil]
      omega
  · split
    · refine length_simpleLcs ?_
      rw [drop_zero]
      exact prefix_append base added
    · cases added with
      | nil =>
        rw [append_nil]
        exact length_backtrack_diagonal fun _ _ => rfl
      | cons last more =>
        obtain rfl : more = [] := length_eq_zero_iff.mp (by simpa using few)
        rw [length_append, length_singleton]
        exact length_backtrack_shifted le_rfl (by simp)

omit same in
theorem computeLineChanges_insertions (small : base.length < 2 ^ 32)
    (full : (longestCommonSubsequence base modified).length = base.length) :
    ∀ change ∈ computeLineChanges base modified, change.start = change.stop := by
  intro change member
  rw [computeLineChanges_eq_gaps small] at member
  obtain ⟨opcode, found, rfl⟩ := mem_map.mp member
  refine gaps_of_full aligned_whole ?_ opcode found
  simp [singles, Function.comp_def, full]

omit same in
theorem length_of_insertions (small : base.length < 2 ^ 32)
    (insertions : ∀ change ∈ computeLineChanges base modified, change.start = change.stop) :
    modified.length = base.length +
      ((computeLineChanges base modified).map fun change => change.newItems.length).sum := by
  have long := @length_patched_insertions _ _ base 0 (computeLineChanges_ordered small)
    insertions (fun change member => ⟨Nat.zero_le _, insertions change member ▸
      (computeLineChanges_proper small change member).inside⟩) (Nat.zero_le _)
  rwa [patched_computeLineChanges small] at long

omit same in
theorem computeLineChanges_eq_nil (small : base.length < 2 ^ 32)
    (insertions : ∀ change ∈ computeLineChanges base modified, change.start = change.stop)
    (long : modified.length = base.length) : computeLineChanges base modified = [] := by
  have grows := length_of_insertions small insertions
  refine eq_nil_iff_forall_not_mem.mpr fun change member => ?_
  have nothing :
      ((computeLineChanges base modified).map fun change => change.newItems.length).sum = 0 := by
    omega
  have brought : change.newItems.length = 0 :=
    List.sum_eq_zero_iff_forall_eq_nat.mp nothing _ (List.mem_map_of_mem member)
  have here := insertions change member
  exact ((computeLineChanges_proper small change member).changed.resolve_left (by omega))
    (length_eq_zero_iff.mp brought)

omit same in
theorem computeLineChanges_self (small : base.length < 2 ^ 32) :
    computeLineChanges base base = [] := by
  have kept : (longestCommonSubsequence base base).length = base.length := by
    have none : ([] : List Line).length ≤ 1 := Nat.zero_le _
    have kept : (longestCommonSubsequence base (base ++ [])).length = base.length :=
      length_longestCommonSubsequence none
    rwa [append_nil] at kept
  exact computeLineChanges_eq_nil small (computeLineChanges_insertions small kept) rfl

omit same in
theorem changesAfter_simpleLcs {rest : List Line} {position : Nat}
    (found : rest <+: modified.drop position) :
    changesAfter base modified position position (simpleLcs modified position rest position) =
      changesAfter base modified (position + rest.length) (position + rest.length) [] := by
  induction rest generalizing position with
  | nil => rfl
  | cons line rest ih =>
    obtain ⟨first, onward⟩ := found_of_prefix found
    rw [simpleLcs, first]
    simp only [Nat.add_zero, changesAfter, lt_irrefl, or_self, if_false]
    rw [ih onward, changesAfter, length_cons, Nat.add_right_comm, Nat.add_assoc]

omit same in
/-- Line numbers are cut to 32 bits: what is added behind 2^32 lines is inserted at the front. -/
theorem computeLineChanges_long {added : List Line} (long : base.length = 2 ^ 32) :
    computeLineChanges base (base ++ added) = if added = [] then [] else [⟨0, 0, added⟩] := by
  have simple : longestCommonSubsequence base (base ++ added) =
      simpleLcs (base ++ added) 0 base 0 := by
    unfold longestCommonSubsequence
    rw [if_neg (by simp [long]), if_pos (.inl (by simp [long]))]
  rw [computeLineChanges, simple, changesAfter_simpleLcs (by simp)]
  cases added <;> simp [changesAfter, long, lineNumber]

end Insertions

end UltimateCoders.Conflict
