import UltimateCoders.Conflict.MergeLaws

/-! # Edits that agree

Both sides make the same changes. What replaces lines conflicts with itself, and what is inserted is
inserted twice. So the text comes out of the merge in two cases only: nothing was changed, or the
second of two empty lines at the end is lost again.
-/

namespace UltimateCoders.Conflict

open Text List

section Agreeing

variable {base text : String} (small : (linesOf base).length < 2 ^ 32)

theorem eq_nil_of_shifted {line : Line} {rest front : List Line}
    (ends : line :: rest = front ++ [[]]) (shifted : front.map stripReturn = rest)
    (plain : stripReturn line = line) : line = [] ∧ ∀ other ∈ rest, other = [] := by
  induction rest generalizing line front with
  | nil =>
    obtain rfl := map_eq_nil_iff.mp shifted
    exact ⟨(cons.inj ends).1, by simp⟩
  | cons next rest ih =>
    cases front with
    | nil => cases shifted
    | cons first front =>
      obtain ⟨rfl, remaining⟩ := cons.inj ends
      obtain ⟨same, moved⟩ := cons.inj shifted
      obtain rfl : line = next := plain.symm.trans same
      obtain ⟨empty, others⟩ := ih remaining moved plain
      exact ⟨empty, forall_mem_cons.mpr ⟨empty, others⟩⟩

include small

theorem keepApart_self_iff :
    KeepApart base text text ↔ ∀ change ∈ computeLineChanges (linesOf base) (linesOf text),
      change.start = change.stop := by
  constructor
  · intro apart change member
    have forward := (computeLineChanges_proper small change member).forward
    have alone := apart change member change member
    simp only [overlaps] at alone
    omega
  · intro insertions our ourMem their theirMem overlap
    have ours := insertions our ourMem
    have theirs := insertions their theirMem
    simp only [overlaps] at overlap
    omega

theorem length_mergedLines_self
    (insertions : ∀ change ∈ computeLineChanges (linesOf base) (linesOf text),
      change.start = change.stop) :
    (mergedLines base text text).length + (linesOf base).length = 2 * (linesOf text).length := by
  have single := length_of_insertions small insertions
  have proper := @computeLineChanges_proper _ (linesOf text) small
  rw [mergedLines]
  generalize computeLineChanges (linesOf base) (linesOf text) = changes at *
  have perm := inStartOrder_perm (changes ++ changes)
  have twice : ∀ change ∈ inStartOrder (changes ++ changes), change ∈ changes := by
    intro change member
    rwa [perm.mem_iff, mem_append, or_self] at member
  have long := @length_patched_insertions _ _ (linesOf base) 0
    (inStartOrder_ordered (changes ++ changes))
    (fun change member => insertions change (twice change member))
    (fun change member => ⟨Nat.zero_le _, insertions change (twice change member) ▸
      (proper change (twice change member)).inside⟩) (Nat.zero_le _)
  have sums : ((inStartOrder (changes ++ changes)).map fun change => change.newItems.length).sum =
      ((changes ++ changes).map fun change => change.newItems.length).sum :=
    (perm.map _).sum_nat
  rw [sums, map_append, sum_append] at long
  omega

theorem single_insertion
    (insertions : ∀ change ∈ computeLineChanges (linesOf base) (linesOf text),
      change.start = change.stop)
    (longer : (linesOf text).length = (linesOf base).length + 1) :
    ∃ front line rest, linesOf base = front ++ rest ∧ linesOf text = front ++ line :: rest ∧
      mergedLines base text text = front ++ line :: line :: rest := by
  have single := length_of_insertions small insertions
  have rebuilt := @patched_computeLineChanges _ (linesOf text) small
  have proper := @computeLineChanges_proper _ (linesOf text) small
  rw [mergedLines]
  generalize computeLineChanges (linesOf base) (linesOf text) = changes at *
  have brings : ∀ change ∈ changes, 0 < change.newItems.length := fun change member => by
    have := insertions change member
    exact length_pos_iff.mpr ((proper change member).changed.resolve_left (by omega))
  rcases changes with _ | ⟨change, _ | ⟨other, more⟩⟩
  · simp at single
    omega
  · have one : change.newItems.length = 1 := by
      simp only [map_cons, map_nil, sum_cons, sum_nil] at single
      omega
    obtain ⟨line, only⟩ := length_eq_one_iff.mp one
    have here := insertions change mem_cons_self
    have inside := (proper change mem_cons_self).inside
    refine ⟨(linesOf base).take change.start, line, (linesOf base).drop change.start,
      (take_append_drop _ _).symm, ?_, ?_⟩
    · rw [← rebuilt]
      simp [patched, slice, only, ← here, min_eq_left (here ▸ inside)]
    · have twice : inStartOrder ([change] ++ [change]) = [change, change] :=
        inStartOrder_of_ordered (by simp)
      rw [twice]
      simp [patched, slice, only, ← here, min_eq_left (here ▸ inside)]
  · have first := brings change mem_cons_self
    have second := brings other (by simp)
    simp only [map_cons, sum_cons] at single
    omega

omit small in
theorem text_eq_of_merged {front rest : List Line} {line : Line}
    (merged : lines (unlines (front ++ line :: line :: rest)) = front ++ line :: rest)
    (free : ∀ other ∈ front ++ line :: line :: rest, '\n' ∉ other) :
    front ++ line :: rest = (front ++ rest) ++ [[]] ∧
      ∀ other ∈ front ++ rest, other.getLast? ≠ some '\r' := by
  obtain ⟨init, last, ends⟩ : ∃ init last, line :: rest = init ++ [last] :=
    (eq_nil_or_concat' _).resolve_left (cons_ne_nil _ _)
  have long := congrArg length ends
  have whole : front ++ line :: line :: rest = (front ++ line :: init) ++ [last] := by
    rw [ends, append_assoc, cons_append]
  rw [whole] at merged free
  rw [lines_unlines free] at merged
  have found := congrArg length merged
  by_cases empty : last = []
  · subst empty
    rw [if_pos rfl, append_nil, map_append, map_cons] at merged
    obtain ⟨kept, later⟩ := append_inj merged (length_map _)
    obtain ⟨plain, shifted⟩ := cons.inj later
    obtain ⟨rfl, others⟩ := eq_nil_of_shifted ends shifted plain
    have blank : rest = replicate rest.length [] := eq_replicate_iff.mpr ⟨rfl, others⟩
    constructor
    · rw [blank, append_assoc, ← replicate_succ, replicate_succ']
    · intro other member
      rcases mem_append.mp member with inFront | inRest
      · exact map_stripReturn_eq_self_iff.mp kept other inFront
      · rw [others other inRest]
        simp
  · simp [empty] at found long
    omega

/-- The lines of a text that both sides made of the base come out of the merge exactly if nothing
was changed or one empty line was added at the end. -/
theorem agreeing_iff :
    MergesTo (threeWayMerge base text text) text ↔
      (linesOf text = linesOf base ∧ EndsCleanly (linesOf text)) ∨
        (linesOf text = linesOf base ++ [[]] ∧
          ∀ line ∈ linesOf base, line.getLast? ≠ some '\r') := by
  have free : ∀ line ∈ linesOf text, '\n' ∉ line := fun _ => newline_notMem_of_mem_lines
  rw [mergesTo_iff, keepApart_self_iff small]
  constructor
  · intro ⟨insertions, merged⟩
    have twice := length_mergedLines_self small insertions
    have grows := length_of_insertions small insertions
    have found := length_le_lines_unlines (@newline_notMem_of_mem_mergedLines base text text)
    rw [merged] at found
    rcases Nat.lt_or_ge (linesOf base).length (linesOf text).length with longer | same
    · obtain ⟨front, line, rest, baseEq, textEq, mergedEq⟩ :=
        single_insertion small insertions (by omega)
      have lineFree := @newline_notMem_of_mem_mergedLines base text text
      rw [mergedEq] at merged lineFree
      rw [textEq] at merged
      rw [baseEq, textEq]
      exact .inr (text_eq_of_merged merged lineFree)
    · have none := computeLineChanges_eq_nil small insertions (by omega)
      have rebuilt := @patched_computeLineChanges _ (linesOf text) small
      rw [none] at rebuilt
      rw [mergedLines, none] at merged
      have unchanged : linesOf text = linesOf base := rebuilt.symm
      refine .inl ⟨unchanged, (lines_unlines_iff free).mp ?_⟩
      rw [unchanged] at merged ⊢
      exact merged
  · intro both
    rcases both with ⟨same, clean⟩ | ⟨longer, plain⟩
    · have none : computeLineChanges (linesOf base) (linesOf text) = [] := by
        rw [same]
        exact computeLineChanges_self small
      rw [mergedLines, none, same]
      refine ⟨by simp, ?_⟩
      rw [same] at clean free
      exact (lines_unlines_iff free).mpr clean
    · have insertions : ∀ change ∈ computeLineChanges (linesOf base) (linesOf text),
          change.start = change.stop := by
        refine computeLineChanges_insertions small ?_
        rw [longer]
        exact length_longestCommonSubsequence (by simp)
      refine ⟨insertions, ?_⟩
      obtain ⟨front, line, rest, baseEq, textEq, mergedEq⟩ :=
        single_insertion small insertions (by simp [longer])
      have shifted : line :: rest = rest ++ [[]] := by
        rw [textEq, baseEq, append_assoc] at longer
        exact append_cancel_left longer
      have twice : mergedLines base text text = linesOf text ++ [[]] := by
        rw [mergedEq, textEq, append_assoc, cons_append, ← shifted]
      have stripped : (linesOf text).map stripReturn = linesOf text := by
        refine map_stripReturn_eq_self_iff.mpr fun other member => ?_
        rw [longer, mem_append] at member
        rcases member with kept | added
        · exact plain other kept
        · rw [mem_singleton.mp added]
          simp
      have twiceFree : ∀ other ∈ linesOf text ++ [[]], '\n' ∉ other := by
        rw [← twice]
        exact newline_notMem_of_mem_mergedLines
      rw [twice, lines_unlines twiceFree, stripped]
      simp

omit small in
theorem agreeing_iff_sample :
    MergesTo (threeWayMerge "line1\n" "line1\n\n" "line1\n\n") "line1\n\n" :=
  (agreeing_iff (by decide +kernel)).mpr (.inr ⟨by decide +kernel, by decide +kernel⟩)

omit small in
/-- A line that both sides insert is there twice, and one that both replace is a conflict. -/
theorem agreeing_fails :
    ¬ MergesTo (threeWayMerge "line1" "line1\nline2" "line1\nline2") "line1\nline2" ∧
      ¬ MergesTo (threeWayMerge "line1" "other" "other") "other" :=
  ⟨fun merges => absurd merges.lines (by decide +kernel),
    fun merges => absurd merges.success (by decide +kernel)⟩

end Agreeing

end UltimateCoders.Conflict
