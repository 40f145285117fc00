import UltimateCoders.Conflict.LineChanges

/-! # Laws of merging

With one side unchanged, a merge brings the lines of the other side, unless these are not found
again in the text they are joined to. The sides of a clean merge can be exchanged exactly if what
they bring at one place commutes.
-/

namespace UltimateCoders.Conflict

open Text

section Merges

variable {base ours theirs : String}

theorem findConflicts_eq_nil_iff {ourChanges theirChanges : List LineChange} {lines : List Line} :
    findConflicts ourChanges theirChanges lines = [] ↔
      ∀ our ∈ ourChanges, ∀ their ∈ theirChanges, ¬ overlaps our their := by
  simp [findConflicts, List.flatMap_eq_nil_iff, List.filterMap_eq_nil_iff]

/-- The changes of the sides have no lines in common. -/
def KeepApart (base ours theirs : String) : Prop :=
  ∀ our ∈ computeLineChanges (linesOf base) (linesOf ours),
    ∀ their ∈ computeLineChanges (linesOf base) (linesOf theirs), ¬ overlaps our their

theorem KeepApart.symm (apart : KeepApart base ours theirs) : KeepApart base theirs ours :=
  fun their theirMem our ourMem both => apart our ourMem their theirMem ⟨both.2, both.1⟩

/-- What a merge writes where the sides keep apart. -/
def mergedLines (base ours theirs : String) : List Line :=
  patched (linesOf base) 0
    (inStartOrder (computeLineChanges (linesOf base) (linesOf ours) ++
      computeLineChanges (linesOf base) (linesOf theirs)))

theorem threeWayMerge_of_apart (apart : KeepApart base ours theirs) :
    threeWayMerge base ours theirs =
      { merged := some (joined (mergedLines base ours theirs))
        conflicts := []
        success := true
        tier := .autoMerge } := by
  simp only [threeWayMerge]
  rw [if_pos (findConflicts_eq_nil_iff.mpr apart)]
  rfl

theorem success_iff : (threeWayMerge base ours theirs).success = true ↔
    KeepApart base ours theirs := by
  refine ⟨fun success => ?_, fun apart => by rw [threeWayMerge_of_apart apart]⟩
  by_contra conflicting
  simp only [threeWayMerge] at success
  rw [if_neg fun none => conflicting (findConflicts_eq_nil_iff.mp none)] at success
  cases success

theorem newline_notMem_of_mem_mergedLines :
    ∀ line ∈ mergedLines base ours theirs, '\n' ∉ line := by
  intro line member
  rcases mem_of_mem_patched member with kept | ⟨change, changeMem, brought⟩
  · exact newline_notMem_of_mem_lines kept
  · rw [(inStartOrder_perm _).mem_iff, List.mem_append] at changeMem
    rcases changeMem with our | their
    · exact newline_notMem_of_mem_lines (mem_of_mem_newItems our brought)
    · exact newline_notMem_of_mem_lines (mem_of_mem_newItems their brought)

theorem linesOf_joined (parts : List Line) : linesOf (joined parts) = lines (unlines parts) := by
  rw [linesOf, joined, String.toList_ofList]

end Merges

section Unit

variable {base text : String}

/-- The merge succeeds without conflicts and has the lines of a text. -/
structure MergesTo (result : MergeResult) (text : String) : Prop where
  success : result.success = true
  conflicts : result.conflicts = []
  lines : result.merged.map linesOf = some (linesOf text)

theorem mergesTo_iff {ours theirs : String} :
    MergesTo (threeWayMerge base ours theirs) text ↔
      KeepApart base ours theirs ∧ lines (unlines (mergedLines base ours theirs)) = linesOf text := by
  constructor
  · intro merges
    have apart := success_iff.mp merges.success
    have same := merges.lines
    rw [threeWayMerge_of_apart apart, Option.map_some, linesOf_joined] at same
    exact ⟨apart, Option.some.inj same⟩
  · intro ⟨apart, same⟩
    rw [threeWayMerge_of_apart apart]
    exact ⟨rfl, rfl, by rw [Option.map_some, linesOf_joined, same]⟩

variable (small : (linesOf base).length < 2 ^ 32)

include small

theorem mergedLines_unchanged :
    mergedLines base text base = linesOf text ∧ mergedLines base base text = linesOf text := by
  rw [mergedLines, mergedLines, computeLineChanges_self small, List.append_nil, List.nil_append,
    inStartOrder_of_ordered (computeLineChanges_ordered small), patched_computeLineChanges small]
  exact ⟨rfl, rfl⟩

/-- Exactly the texts whose lines end cleanly are what a merge with the unchanged base makes of
them; their changes always rebuild the lines. -/
theorem unitLaws_iff :
    (patched (linesOf base) 0 (computeLineChanges (linesOf base) (linesOf text)) = linesOf text ∧
      (computeLineChanges (linesOf base) (linesOf text)).Pairwise
        fun first second => first.stop < second.start) ∧
    ((MergesTo (threeWayMerge base text base) text ∧
        MergesTo (threeWayMerge base base text) text) ↔ EndsCleanly (linesOf text)) := by
  refine ⟨⟨patched_computeLineChanges small, computeLineChanges_apart small⟩, ?_⟩
  have free : ∀ line ∈ linesOf text, '\n' ∉ line := fun _ => newline_notMem_of_mem_lines
  have apart : KeepApart base text base := by
    intro our _ their theirMem
    rw [computeLineChanges_self small] at theirMem
    cases theirMem
  obtain ⟨ours, theirs⟩ := @mergedLines_unchanged base text small
  rw [mergesTo_iff, mergesTo_iff, ours, theirs, lines_unlines_iff free]
  exact ⟨fun both => both.1.2, fun clean => ⟨⟨apart, clean⟩, apart.symm, clean⟩⟩

omit small in
theorem unitLaws_iff_sample :
    MergesTo (threeWayMerge "line1\n" "line1\nline2\n" "line1\n") "line1\nline2\n" ∧
      MergesTo (threeWayMerge "line1\n" "line1\n" "line1\nline2\n") "line1\nline2\n" :=
  (unitLaws_iff (by decide +kernel)).2.mpr ⟨by decide +kernel, by decide +kernel⟩

omit small in
/-- An empty line at the end is lost. -/
theorem unitLaws_fails_blank :
    ¬ MergesTo (threeWayMerge "line1\n" "line1\n\n" "line1\n") "line1\n\n" :=
  fun merges => absurd merges.lines (by decide +kernel)

omit small in
/-- The bound is needed: a line that is added behind 2^32 others comes out at the front. -/
theorem unitLaws_beyond {last : Line} (long : (linesOf base).length = 2 ^ 32)
    (added : linesOf text = linesOf base ++ [last]) (clean : EndsCleanly (last :: linesOf base))
    (apart : (linesOf base).head? ≠ some last) : ¬ MergesTo (threeWayMerge base text base) text := by
  intro merges
  have same := (mergesTo_iff.mp merges).2
  have unchanged := @computeLineChanges_long (linesOf base) [] long
  rw [List.append_nil] at unchanged
  have front : patched (linesOf base) 0 (inStartOrder ([⟨0, 0, [last]⟩] ++ [])) =
      last :: linesOf base := by
    simp [inStartOrder, patched, slice]
  have free : ∀ line ∈ last :: linesOf base, '\n' ∉ line := fun line member =>
    @newline_notMem_of_mem_lines text.toList line (by
      rw [show lines text.toList = _ from added]
      simpa [or_comm] using member)
  rw [mergedLines, added, computeLineChanges_long long, unchanged, if_neg (List.cons_ne_nil _ _),
    if_pos rfl, front, (lines_unlines_iff free).mpr clean] at same
  cases first : linesOf base with
  | nil => simp [first] at long
  | cons line rest =>
    rw [first] at same apart
    exact apart (congrArg some (List.cons.inj same).1.symm)

end Unit

/-- The sides of a merge can be exchanged exactly if it conflicts or what they bring at one place
is the same in either order. -/
theorem cleanMerge_symm_iff {base ours theirs : String} :
    ((threeWayMerge base ours theirs).success = true →
        (threeWayMerge base theirs ours).success = true ∧
          (threeWayMerge base theirs ours).merged = (threeWayMerge base ours theirs).merged) ↔
      ¬ KeepApart base ours theirs ∨
        ∀ start, broughtAt start (computeLineChanges (linesOf base) (linesOf ours)) ++
            broughtAt start (computeLineChanges (linesOf base) (linesOf theirs)) =
          broughtAt start (computeLineChanges (linesOf base) (linesOf theirs)) ++
            broughtAt start (computeLineChanges (linesOf base) (linesOf ours)) := by
  by_cases apart : KeepApart base ours theirs
  · obtain ⟨long, same⟩ := patched_inStartOrder_append (linesOf base)
      (computeLineChanges (linesOf base) (linesOf ours))
      (computeLineChanges (linesOf base) (linesOf theirs))
    have merged : joined (mergedLines base theirs ours) = joined (mergedLines base ours theirs) ↔
        mergedLines base ours theirs = mergedLines base theirs ours := by
      rw [joined, joined, String.ofList_inj, unlines_inj newline_notMem_of_mem_mergedLines
        newline_notMem_of_mem_mergedLines long.symm, eq_comm]
    rw [threeWayMerge_of_apart apart, threeWayMerge_of_apart apart.symm]
    simp only [true_imp_iff, true_and, Option.some.injEq, apart, not_true_eq_false, false_or, merged]
    exact same
  · have fails : (threeWayMerge base ours theirs).success ≠ true :=
      fun success => apart (success_iff.mp success)
    simp [fails, apart]

/-- Two insertions at one place are joined in the order of the sides. -/
theorem cleanMerge_symm_fails :
    (threeWayMerge "line1\nline3" "line1\nline2\nline3" "line1\nline2b\nline3").success = true ∧
      (threeWayMerge "line1\nline3" "line1\nline2b\nline3" "line1\nline2\nline3").merged ≠
        (threeWayMerge "line1\nline3" "line1\nline2\nline3" "line1\nline2b\nline3").merged := by
  decide +kernel

end UltimateCoders.Conflict
