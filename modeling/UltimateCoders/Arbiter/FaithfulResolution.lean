import UltimateCoders.Arbiter.ConflictResolver

/-! # What a resolved file keeps

A file that is resolved without the language model should have both sides, and keep what they add.
Lines that a side adds are kept always, though a last line that nothing ends may be written together
with the one after it. A missing version is taken for an empty text, though, so
two files that were added apart are put one after the other, and a file that one side deleted comes
back with what the other one put at its ends.
-/

namespace UltimateCoders.Arbiter

open Text ConflictResolver SequenceMatcher OpcodeMerge List

/-- A side has the line more often than the ancestor. -/
def Adds (base side : String) (line : Line) : Prop :=
  (linesOf base).count line < (linesOf side).count line

/-- The line can be read in the text. -/
def PartOf (line : Line) (text : String) : Prop := line <:+: text.toList

/-- The line is one of those of the text. -/
def LineOf (line : Line) (text : String) : Prop := line ∈ linesOf text

/-- The text is one that both sides of the conflict agree to, in which lines occur as said. -/
structure Faithful (occurs : Line → String → Prop) (stages : ConflictStages) (text : String) :
    Prop where
  sides : stages.ours.isSome ∧ stages.theirs.isSome
  addedBoth : stages.base = none → stages.ours = stages.theirs
  kept : ∀ base ∈ stages.base, ∀ side ∈ [stages.ours, stages.theirs], ∀ version ∈ side, ∀ line,
    Adds base version line → occurs line text

/-- Whatever is resolved without the language model is faithful. -/
def ResolvesFaithfully (occurs : Line → String → Prop) (llmClient : Option LlmClient)
    (stages : ConflictStages) : Prop :=
  ∀ result, resolveOneFile llmClient stages = some result → result.tier = .autoMerge →
    ∃ text, result.merged = some text ∧ Faithful occurs stages text

/-- Every line of every version has its end. -/
def AllEnded (stages : ConflictStages) : Prop :=
  ∀ side ∈ [stages.base, stages.ours, stages.theirs], ∀ version ∈ side, ∀ line ∈ linesOf version,
    Ended line

/-- The side is not empty, and changes the ancestor elsewhere than at its ends. -/
structure EditsInside (base side : String) : Prop where
  apart : side ≠ base
  baseText : base ≠ ""
  sideText : side ≠ ""
  notAppended : ¬ linesOf base <+: linesOf side
  inside : ∃ opcode ∈ changes (linesOf base) (linesOf side),
    0 < opcode.i2 ∧ opcode.i1 < (linesOf base).length

/-- Both sides have the file, and the same one where there is no ancestor; or one side has it and
edits it elsewhere than at its ends. -/
def BothOrEdited (stages : ConflictStages) : Prop :=
  match stages.base, stages.ours, stages.theirs with
  | some _, some _, some _ => True
  | none, some ours, some theirs => ours = theirs
  | some base, some side, none | some base, none, some side => EditsInside base side
  | _, _, _ => False

namespace ConflictResolver

variable {rest : List SideOpcode} {line : Line}

section Positions

variable {base changed : List Line}

theorem changesFrom_bounds {remaining position : Nat} {start : Option Nat}
    (begun : ∀ first ∈ start, first < position ∧ differs base changed first = true) :
    ∀ range ∈ changesFrom base changed remaining position start,
      start.getD position ≤ range.1 ∧ range.1 < range.2 ∧ range.2 ≤ position + remaining ∧
        differs base changed range.1 = true := by
  fun_induction changesFrom base changed remaining position start with
  | case1 position => simp
  | case2 position first =>
    obtain ⟨earlier, differ⟩ := begun first rfl
    simpa [differ] using earlier
  | case3 remaining position differ ih =>
    intro range member
    obtain ⟨later, held⟩ := ih (by simpa using differ) range member
    exact ⟨later, held.1, by omega, held.2.2⟩
  | case4 remaining position agree ih =>
    intro range member
    obtain ⟨later, held⟩ := ih (by simp) range member
    exact ⟨(Nat.le_succ _).trans later, held.1, by omega, held.2.2⟩
  | case5 remaining position first differ ih =>
    intro range member
    obtain ⟨later, held⟩ := ih (fun other same =>
      ⟨Nat.lt_succ_of_lt (begun other same).1, (begun other same).2⟩) range member
    exact ⟨later, held.1, by omega, held.2.2⟩
  | case6 remaining position first agree ih =>
    obtain ⟨earlier, differ⟩ := begun first rfl
    refine forall_mem_cons.mpr ⟨⟨le_rfl, earlier, by simp only; omega, differ⟩, ?_⟩
    intro range member
    obtain ⟨later, held⟩ := ih (by simp) range member
    exact ⟨earlier.le.trans ((Nat.le_succ _).trans later), held.1, by omega, held.2.2⟩

theorem changesFrom_covers_begun {remaining position first index : Nat} (starts : first ≤ index)
    (before : index < position) :
    ∃ range ∈ changesFrom base changed remaining position (some first),
      range.1 ≤ index ∧ index < range.2 := by
  induction remaining generalizing position with
  | zero => exact ⟨(first, position), mem_singleton_self _, starts, before⟩
  | succ remaining ih =>
    rw [changesFrom]
    split
    · exact ih (by omega)
    · exact ⟨(first, position), mem_cons_self, starts, before⟩

theorem changesFrom_covers {remaining position index : Nat} {start : Option Nat}
    (begun : ∀ first ∈ start, first ≤ position) (starts : position ≤ index)
    (before : index < position + remaining) (differ : differs base changed index = true) :
    ∃ range ∈ changesFrom base changed remaining position start,
      range.1 ≤ index ∧ index < range.2 := by
  induction remaining generalizing position start with
  | zero => omega
  | succ remaining ih =>
    rcases Nat.eq_or_lt_of_le starts with rfl | later
    · cases start with
      | none =>
        rw [changesFrom, if_pos differ]
        exact changesFrom_covers_begun le_rfl (Nat.lt_succ_self _)
      | some first =>
        rw [changesFrom, if_pos differ]
        exact changesFrom_covers_begun (begun first rfl) (Nat.lt_succ_self _)
    · have rest (start : Option Nat) (begun : ∀ first ∈ start, first ≤ position + 1) :=
        ih begun later (by omega)
      cases start with
      | none =>
        rw [changesFrom]
        split
        · exact rest _ (by simp)
        · exact rest _ (by simp)
      | some first =>
        have opened := begun first rfl
        rw [changesFrom]
        split
        · exact rest _ (by simpa using Nat.le_succ_of_le opened)
        · obtain ⟨range, member, covers⟩ := rest none (by simp)
          exact ⟨range, mem_cons_of_mem _ member, covers⟩

theorem differs_lt {index : Nat} (differ : differs base changed index = true) :
    index < max base.length changed.length := by
  by_contra outside
  rw [differs, getElem?_eq_none (by omega), getElem?_eq_none (by omega)] at differ
  simp at differ

theorem computeChanges_covers {index : Nat} (differ : differs base changed index = true) :
    ∃ range ∈ computeChanges base changed, range.1 ≤ index ∧ index < range.2 :=
  changesFrom_covers (by simp) (Nat.zero_le _) (by simpa using differs_lt differ) differ

theorem computeChanges_bounds : ∀ range ∈ computeChanges base changed,
    range.1 < range.2 ∧ range.2 ≤ max base.length changed.length ∧
      differs base changed range.1 = true := by
  intro range member
  have held := (changesFrom_bounds (by simp) range member).2
  rwa [Nat.zero_add] at held

theorem count_le_of_getElem? {first second : List Line}
    (same : ∀ index : Nat, first[index]? = some line → second[index]? = some line) :
    first.count line ≤ second.count line := by
  induction first generalizing second with
  | nil => simp
  | cons head rest ih =>
    cases second with
    | nil =>
      have absent : line ∉ head :: rest := by
        intro member
        obtain ⟨index, found⟩ := mem_iff_getElem?.mp member
        exact absurd (same index found) (by simp)
      rw [count_eq_zero_of_not_mem absent]
      exact Nat.zero_le _
    | cons other second =>
      have fewer := ih fun index found => by simpa using same (index + 1) (by simpa using found)
      have heads := same 0
      rw [count_cons, count_cons]
      simp only [getElem?_cons_zero, Option.some.injEq] at heads
      by_cases first : head = line
      · simp [first, heads first, fewer]
      · simp only [beq_iff_eq, first, if_false]
        omega

theorem exists_range_of_count_lt (more : base.count line < changed.count line) :
    ∃ range ∈ computeChanges base changed, line ∈ slice changed range.1 range.2 := by
  by_contra none
  push Not at none
  refine absurd (count_le_of_getElem? fun index found => ?_) (Nat.not_le_of_lt more)
  by_contra apart
  have differ : differs base changed index = true := by simpa [differs, found] using apart
  obtain ⟨range, member, start, stop⟩ := computeChanges_covers differ
  refine none range member ?_
  rw [slice_eq, mem_iff_getElem?]
  refine ⟨index - range.1, ?_⟩
  rw [getElem?_take_of_lt (by omega), getElem?_drop, Nat.add_sub_cancel' start]
  exact found

theorem apart_of_empty : (∀ range ∈ computeChanges base changed,
    ∀ removed ∈ computeChanges base ([] : List Line),
      ¬ (range.1 < removed.2 ∧ removed.1 < range.2)) ↔ base <+: changed := by
  rw [prefix_iff_getElem?]
  constructor
  · intro apart index inside
    by_contra different
    have differ : differs base changed index = true := by
      rw [differs, decide_eq_true_iff, getElem?_eq_getElem inside]
      exact fun same => different same.symm
    have gone : differs base ([] : List Line) index = true := by simpa [differs] using inside
    obtain ⟨range, member, start, stop⟩ := computeChanges_covers differ
    obtain ⟨removed, removedMember, removedStart, removedStop⟩ := computeChanges_covers gone
    exact apart range member removed removedMember ⟨by omega, by omega⟩
  · intro same range member removed removedMember meet
    obtain ⟨-, -, differ⟩ := computeChanges_bounds range member
    have below := (computeChanges_bounds removed removedMember).2.1
    simp only [length_nil, Nat.max_zero] at below
    have inside : range.1 < base.length := by omega
    rw [differs, decide_eq_true_iff, same range.1 inside, getElem?_eq_getElem inside] at differ
    exact differ rfl

theorem mem_replaced {changes : List (Nat × Nat × List Line)} {progress : Progress}
    (kept : line ∈ progress.result ∨ ∃ change ∈ changes, line ∈ change.2.2) :
    line ∈ (changes.foldl (Progress.replace base) progress).finish base := by
  induction changes generalizing progress with
  | nil =>
    rcases kept with written | ⟨change, member, -⟩
    · exact mem_append_left _ written
    · cases member
  | cons change rest ih =>
    refine ih ?_
    rcases kept with written | ⟨other, member, brought⟩
    · exact .inl (mem_append_left _ (mem_append_left _ written))
    · rcases mem_cons.mp member with rfl | later
      · exact .inl (mem_append_right _ brought)
      · exact .inr ⟨other, later, brought⟩

theorem mem_of_mem_replaced {changes : List (Nat × Nat × List Line)} {progress : Progress}
    (written : line ∈ (changes.foldl (Progress.replace base) progress).finish base) :
    line ∈ progress.result ∨ line ∈ base ∨ ∃ change ∈ changes, line ∈ change.2.2 := by
  induction changes generalizing progress with
  | nil => exact (mem_append.mp written).imp_right fun left => .inl (mem_of_mem_drop left)
  | cons change rest ih =>
    rcases ih written with before | own | ⟨other, member, brought⟩
    · rcases mem_append.mp before with advanced | brought
      · exact (mem_append.mp advanced).imp_right fun copied => .inl (mem_of_mem_slice copied)
      · exact .inr (.inr ⟨change, mem_cons_self, brought⟩)
    · exact .inr (.inl own)
    · exact .inr (.inr ⟨other, mem_cons_of_mem _ member, brought⟩)

end Positions

section Opcodes

variable {base ours theirs : List Line} {ops : List SideOpcode} {merge : OpcodeMerge}

theorem mem_allOps {opcode : SideOpcode} : opcode ∈ allOps base ours theirs ↔
    (opcode.side = .ours ∧ opcode.toOpcode ∈ changes base ours) ∨
      opcode.side = .theirs ∧ opcode.toOpcode ∈ changes base theirs := by
  obtain ⟨opcode, side⟩ := opcode
  simp only [allOps, mem_mergeSort, mem_append, mem_map, SideOpcode.mk.injEq]
  constructor
  · rintro (⟨found, member, rfl, rfl⟩ | ⟨found, member, rfl, rfl⟩)
    · exact .inl ⟨rfl, member⟩
    · exact .inr ⟨rfl, member⟩
  · rintro (⟨rfl, member⟩ | ⟨rfl, member⟩)
    · exact .inl ⟨opcode, member, rfl, rfl⟩
    · exact .inr ⟨opcode, member, rfl, rfl⟩

@[simp]
theorem hasConflict_conflict (opcode : SideOpcode) (others : List SideOpcode) :
    (merge.conflict base ours theirs opcode others).hasConflict = true := by
  simp only [conflict]
  split <;> rfl

@[simp]
theorem result_conflict (opcode : SideOpcode) (others : List SideOpcode) :
    (merge.conflict base ours theirs opcode others).result = merge.result := by
  simp only [conflict]
  split <;> rfl

theorem hasConflict_apply (opcode : SideOpcode) :
    (merge.apply base ours theirs ops opcode).hasConflict =
      (merge.hasConflict || decide (otherInRange ops opcode ≠ [])) := by
  unfold apply
  by_cases met : otherInRange ops opcode ≠ []
  · simp [met]
  · simp [not_not.mp met]

theorem result_apply (base ours theirs : List Line) (ops : List SideOpcode) (merge : OpcodeMerge)
    (opcode : SideOpcode) (line : Line) :
    (line ∈ merge.result → line ∈ (merge.apply base ours theirs ops opcode).result) ∧
      (otherInRange ops opcode = [] → line ∈ opcode.lines ours theirs →
        line ∈ (merge.apply base ours theirs ops opcode).result) := by
  unfold apply
  by_cases met : otherInRange ops opcode ≠ []
  · rw [if_pos met, result_conflict]
    exact ⟨mem_append_left _, fun none => absurd none met⟩
  · rw [if_neg met]
    exact ⟨fun written => mem_append_left _ (mem_append_left _ written),
      fun _ brought => mem_append_right _ brought⟩

theorem hasConflict_foldl : (rest.foldl (apply base ours theirs ops) merge).hasConflict =
      (merge.hasConflict || rest.any fun opcode => decide (otherInRange ops opcode ≠ [])) := by
  induction rest generalizing merge with
  | nil => simp
  | cons opcode rest ih => rw [foldl_cons, ih, hasConflict_apply, any_cons, Bool.or_assoc]

theorem mem_merged (apart : ∀ opcode ∈ rest, otherInRange ops opcode = [])
    (kept : line ∈ merge.result ∨ ∃ opcode ∈ rest, line ∈ opcode.lines ours theirs) :
    line ∈ (rest.foldl (apply base ours theirs ops) merge).mergedLines base := by
  induction rest generalizing merge with
  | nil =>
    rcases kept with written | ⟨opcode, member, -⟩
    · exact mem_append_left _ written
    · cases member
  | cons opcode rest ih =>
    obtain ⟨keeps, brings⟩ := result_apply base ours theirs ops merge opcode line
    refine ih (fun other member => apart other (mem_cons_of_mem _ member)) ?_
    rcases kept with written | ⟨other, member, brought⟩
    · exact .inl (keeps written)
    · rcases mem_cons.mp member with rfl | later
      · exact .inl (brings (apart _ mem_cons_self) brought)
      · exact .inr ⟨other, later, brought⟩

theorem mem_of_mem_apply {opcode : SideOpcode}
    (written : line ∈ (merge.apply base ours theirs ops opcode).result) :
    line ∈ merge.result ∨ line ∈ base ∨ line ∈ opcode.lines ours theirs := by
  have advanced (copied : line ∈ merge.result ++ slice base merge.baseIndex opcode.i1) :
      line ∈ merge.result ∨ line ∈ base ∨ line ∈ opcode.lines ours theirs :=
    (mem_append.mp copied).imp_right fun own => .inl (mem_of_mem_slice own)
  unfold apply at written
  by_cases met : otherInRange ops opcode ≠ []
  · rw [if_pos met, result_conflict] at written
    exact advanced written
  · rw [if_neg met] at written
    exact (mem_append.mp written).elim advanced fun brought => .inr (.inr brought)

theorem SideOpcode.mem_of_mem_lines {opcode : SideOpcode}
    (brought : line ∈ opcode.lines ours theirs) : line ∈ ours ∨ line ∈ theirs := by
  rw [SideOpcode.lines] at brought
  split at brought
  · exact .inl (mem_of_mem_slice brought)
  · exact .inr (mem_of_mem_slice brought)

theorem mem_of_mem_merged
    (written : line ∈ (rest.foldl (apply base ours theirs ops) merge).mergedLines base) :
    line ∈ merge.result ∨ line ∈ base ∨ line ∈ ours ∨ line ∈ theirs := by
  induction rest generalizing merge with
  | nil => exact (mem_append.mp written).imp_right fun left => .inl (mem_of_mem_drop left)
  | cons opcode rest ih =>
    rcases ih written with before | among
    · exact (mem_of_mem_apply before).imp_right (Or.imp_right SideOpcode.mem_of_mem_lines)
    · exact .inr among

/-- No opcode of ours changes a region in common with one of theirs. -/
def OpsApart (base ours theirs : List Line) : Prop :=
  ∀ first ∈ changes base ours, ∀ second ∈ changes base theirs,
    ¬ (second.i1 < first.i2 ∧ first.i1 < second.i2)

theorem otherInRange_eq_nil_iff : (∀ opcode ∈ allOps base ours theirs,
    otherInRange (allOps base ours theirs) opcode = []) ↔ OpsApart base ours theirs := by
  constructor
  · intro apart first firstMember second secondMember both
    have none := apart ⟨first, .ours⟩ (mem_allOps.mpr (.inl ⟨rfl, firstMember⟩))
    rw [otherInRange, filter_eq_nil_iff] at none
    refine none ⟨second, .theirs⟩ (mem_allOps.mpr (.inr ⟨rfl, secondMember⟩)) ?_
    simpa [meet] using both
  · intro apart opcode member
    rw [otherInRange, filter_eq_nil_iff]
    intro other otherMember both
    simp only [meet, Bool.and_eq_true, decide_eq_true_eq] at both
    obtain ⟨different, starts, stops⟩ := both
    rcases mem_allOps.mp member with ⟨own, changed⟩ | ⟨own, changed⟩ <;>
      rcases mem_allOps.mp otherMember with ⟨otherSide, otherChanged⟩ | ⟨otherSide, otherChanged⟩
    · exact different (otherSide.trans own.symm)
    · exact apart _ changed _ otherChanged ⟨starts, stops⟩
    · exact apart _ otherChanged _ changed ⟨stops, starts⟩
    · exact different (otherSide.trans own.symm)

theorem hasConflict_mergeOps : (mergeOps base ours theirs).hasConflict = false ↔
    OpsApart base ours theirs := by
  rw [mergeOps, hasConflict_foldl, ← otherInRange_eq_nil_iff]
  simp

end Opcodes

section Texts

variable {base ours theirs : String}

/-- No range of lines that ours changes overlaps one of theirs. -/
def RangesApart (base ours theirs : List Line) : Prop :=
  ∀ range ∈ computeChanges base ours, ∀ other ∈ computeChanges base theirs,
    ¬ (range.1 < other.2 ∧ other.1 < range.2)

theorem overlaps_eq_nil_iff : overlaps base ours theirs
    (computeChanges (linesOf base) (linesOf ours))
      (computeChanges (linesOf base) (linesOf theirs)) = [] ↔
        RangesApart (linesOf base) (linesOf ours) (linesOf theirs) := by
  simp [overlaps, RangesApart, flatMap_eq_nil_iff, filterMap_eq_nil_iff]

theorem OpsApart.symm {base ours theirs : List Line} (apart : OpsApart base ours theirs) :
    OpsApart base theirs ours :=
  fun first firstMember second secondMember both =>
    apart second secondMember first firstMember both.symm

theorem RangesApart.symm {base ours theirs : List Line} (apart : RangesApart base ours theirs) :
    RangesApart base theirs ours :=
  fun range member other otherMember both =>
    apart other otherMember range member both.symm

theorem autoMerge_success_iff : (autoMerge base ours theirs).success = true ↔
    ours = base ∨ theirs = base ∨ ours = theirs ∨
      RangesApart (linesOf base) (linesOf ours) (linesOf theirs) ∨
        OpsApart (linesOf base) (linesOf ours) (linesOf theirs) := by
  unfold autoMerge
  by_cases oursSame : ours = base
  · simp [oursSame]
  · by_cases theirsSame : theirs = base
    · simp [oursSame, theirsSame]
    · by_cases same : ours = theirs
      · simp [same]
      · simp only [oursSame, theirsSame, same, if_false, false_or]
        by_cases apart : RangesApart (linesOf base) (linesOf ours) (linesOf theirs)
        · rw [if_pos (overlaps_eq_nil_iff.mpr apart)]
          simp [apart]
        · rw [if_neg (mt overlaps_eq_nil_iff.mp apart), ← hasConflict_mergeOps]
          simp only [apart, false_or]
          cases (mergeOps (linesOf base) (linesOf ours) (linesOf theirs)).hasConflict <;> simp

theorem autoMerge_success_comm : (autoMerge base ours theirs).success = true ↔
    (autoMerge base theirs ours).success = true := by
  have one {first second : String} (merged : (autoMerge base first second).success = true) :
      (autoMerge base second first).success = true := by
    rw [autoMerge_success_iff] at merged ⊢
    rcases merged with same | same | same | apart | apart
    · exact .inr (.inl same)
    · exact .inl same
    · exact .inr (.inr (.inl same.symm))
    · exact .inr (.inr (.inr (.inl apart.symm)))
    · exact .inr (.inr (.inr (.inr apart.symm)))
  exact ⟨one, one⟩

theorem autoMerge_tier : (autoMerge base ours theirs).tier = .autoMerge := by
  simp only [autoMerge]
  split_ifs <;> rfl

theorem infix_joined {lines : List Line} (member : line ∈ lines) :
    line <:+: (joined lines).toList := by
  rw [joined, String.toList_ofList]
  exact infix_of_mem_flatten member

@[simp]
theorem joined_linesOf (text : String) : joined (linesOf text) = text := by
  rw [joined, linesOf, flatten_splitLines, String.ofList_toList]

theorem Adds.mem {side : String} (adds : Adds base side line) : line ∈ linesOf side :=
  count_pos_iff.mp (Nat.zero_lt_of_lt adds)

theorem not_adds_self : ¬ Adds base base line := Nat.lt_irrefl _

/-- The lines come from the three versions, and those that a side adds are among them. -/
def Merges (base ours theirs : String) (lines : List Line) : Prop :=
  (∀ line ∈ lines, line ∈ linesOf base ∨ line ∈ linesOf ours ∨ line ∈ linesOf theirs) ∧
    ∀ line, Adds base ours line ∨ Adds base theirs line → line ∈ lines

theorem merges_replaced : Merges base ours theirs
    (((allChanges (linesOf ours) (linesOf theirs) (computeChanges (linesOf base) (linesOf ours))
      (computeChanges (linesOf base) (linesOf theirs))).foldl
        (Progress.replace (linesOf base)) {}).finish (linesOf base)) := by
  constructor
  · intro line written
    rcases mem_of_mem_replaced written with none | own | ⟨change, member, brought⟩
    · cases none
    · exact .inl own
    · simp only [allChanges, mem_mergeSort, mem_append, mem_map] at member
      rcases member with ⟨range, -, rfl⟩ | ⟨range, -, rfl⟩
      · exact .inr (.inl (mem_of_mem_slice brought))
      · exact .inr (.inr (mem_of_mem_slice brought))
  · intro line adds
    refine mem_replaced (.inr ?_)
    simp only [allChanges, mem_mergeSort, mem_append, mem_map]
    rcases adds with added | added
    · obtain ⟨range, member, brought⟩ := exists_range_of_count_lt added
      exact ⟨_, .inl ⟨range, member, rfl⟩, brought⟩
    · obtain ⟨range, member, brought⟩ := exists_range_of_count_lt added
      exact ⟨_, .inr ⟨range, member, rfl⟩, brought⟩

theorem merges_mergeOps (apart : OpsApart (linesOf base) (linesOf ours) (linesOf theirs)) :
    Merges base ours theirs ((mergeOps (linesOf base) (linesOf ours) (linesOf theirs)).mergedLines
      (linesOf base)) := by
  constructor
  · intro line written
    exact (mem_of_mem_merged written).resolve_left not_mem_nil
  · intro line adds
    refine mem_merged (otherInRange_eq_nil_iff.mpr apart) (.inr ?_)
    rcases adds with added | added
    · obtain ⟨opcode, member, brought⟩ := exists_change_of_count_lt added
      exact ⟨⟨opcode, .ours⟩, mem_allOps.mpr (.inl ⟨rfl, member⟩), brought⟩
    · obtain ⟨opcode, member, brought⟩ := exists_change_of_count_lt added
      exact ⟨⟨opcode, .theirs⟩, mem_allOps.mpr (.inr ⟨rfl, member⟩), brought⟩

theorem exists_merged (merged : (autoMerge base ours theirs).success = true) :
    ∃ lines, (autoMerge base ours theirs).merged = some (joined lines) ∧
      Merges base ours theirs lines := by
  unfold autoMerge at merged ⊢
  by_cases oursSame : ours = base
  · subst oursSame
    exact ⟨linesOf theirs, by simp, fun line member => .inr (.inr member),
      fun line adds => Adds.mem (adds.resolve_left not_adds_self)⟩
  · by_cases theirsSame : theirs = base
    · subst theirsSame
      exact ⟨linesOf ours, by simp [oursSame], fun line member => .inr (.inl member),
        fun line adds => Adds.mem (adds.resolve_right not_adds_self)⟩
    · by_cases same : ours = theirs
      · subst same
        exact ⟨linesOf ours, by simp [oursSame], fun line member => .inr (.inl member),
          fun line adds => Adds.mem (or_self_iff.mp adds)⟩
      · simp only [oursSame, theirsSame, same, if_false] at merged ⊢
        by_cases apart : RangesApart (linesOf base) (linesOf ours) (linesOf theirs)
        · rw [if_pos (overlaps_eq_nil_iff.mpr apart)]
          exact ⟨_, rfl, merges_replaced⟩
        · rw [if_neg (mt overlaps_eq_nil_iff.mp apart)] at merged ⊢
          cases conflict :
            (mergeOps (linesOf base) (linesOf ours) (linesOf theirs)).hasConflict with
          | true => simp [conflict] at merged
          | false => exact ⟨_, rfl, merges_mergeOps (hasConflict_mergeOps.mp conflict)⟩

theorem Merges.linesOf_joined {lines : List Line} (merges : Merges base ours theirs lines)
    (ended : ∀ version ∈ [base, ours, theirs], ∀ line ∈ linesOf version, Ended line) :
    linesOf (joined lines) = lines := by
  rw [linesOf, joined, String.toList_ofList]
  refine splitLines_flatten (fun line member => ?_) fun line member => ?_
  · rcases merges.1 line member with own | own | own
    · exact ⟨_, own⟩
    · exact ⟨_, own⟩
    · exact ⟨_, own⟩
  · rcases merges.1 line member with own | own | own
    · exact ended base (by simp) line own
    · exact ended ours (by simp) line own
    · exact ended theirs (by simp) line own

theorem linesOf_empty : linesOf "" = [] := splitLines_eq_nil.mpr String.toList_empty

theorem linesOf_eq_nil {text : String} : linesOf text = [] ↔ text = "" := by
  rw [linesOf, splitLines_eq_nil, String.toList_eq_nil_iff]

theorem success_of_empty : (autoMerge "" ours theirs).success = true := by
  rw [autoMerge_success_iff, linesOf_empty]
  refine .inr (.inr (.inr (.inr fun first firstMember second _ both => ?_)))
  have none := changes_le firstMember
  rw [length_nil] at none
  omega

theorem success_deleted_iff {side : String} :
    (autoMerge base side "").success = true ↔ ¬ EditsInside base side := by
  rw [autoMerge_success_iff, linesOf_empty]
  have ranges : RangesApart (linesOf base) (linesOf side) [] ↔ linesOf base <+: linesOf side :=
    apart_of_empty
  rw [ranges]
  constructor
  · rintro merged ⟨apart, baseText, sideText, notAppended, opcode, member, starts, stops⟩
    rcases merged with same | same | same | appended | opsApart
    · exact apart same
    · exact baseText same.symm
    · exact sideText same
    · exact notAppended appended
    · have lines : linesOf base ≠ [] := fun none => baseText (linesOf_eq_nil.mp none)
      refine opsApart opcode member ⟨0, (linesOf base).length, 0, 0⟩ ?_ ⟨starts, stops⟩
      rw [changes_nil lines]
      exact mem_singleton_self _
  · intro notInside
    by_contra escalated
    simp only [not_or] at escalated
    obtain ⟨apart, baseText, sideText, notAppended, opsMeet⟩ := escalated
    have lines : linesOf base ≠ [] := fun none => baseText (linesOf_eq_nil.mp none).symm
    rw [OpsApart, changes_nil lines] at opsMeet
    push Not at opsMeet
    obtain ⟨opcode, member, removed, removedMember, starts, stops⟩ := opsMeet
    obtain rfl := mem_singleton.mp removedMember
    exact notInside ⟨apart, fun none => baseText none.symm, sideText, notAppended, opcode, member,
      starts, stops⟩

end Texts

end ConflictResolver

section Paths

variable {llmClient : Option LlmClient} {stages : ConflictStages}

/-- The tier that merges without the language model, on what git shows of the path. -/
def ConflictStages.autoMerged (stages : ConflictStages) : MergeResult :=
  autoMerge (stageText stages.base) (stageText stages.ours) (stageText stages.theirs)

theorem llmAssistedMerge_tier (base ours theirs : String) :
    (llmAssistedMerge llmClient base ours theirs).tier ≠ .autoMerge := by
  unfold llmAssistedMerge
  split
  · simp
  · split
    · split <;> simp
    · simp

theorem resolveOneFile_of_success (merged : stages.autoMerged.success = true) :
    resolveOneFile llmClient stages = some stages.autoMerged := by
  obtain ⟨lines, found, -⟩ := exists_merged merged
  have shown : (resolve llmClient (stageText stages.base)
      (stageText stages.ours) (stageText stages.theirs) .autoMerge) = stages.autoMerged := rfl
  change stages.autoMerged.merged = some (joined lines) at found
  simp only [resolveOneFile, shown, merged, if_true, found, Option.isSome_some, Bool.and_self]

theorem eq_autoMerged_of_resolved {result : MergeResult}
    (resolved : resolveOneFile llmClient stages = some result) (tier : result.tier = .autoMerge) :
    result = stages.autoMerged ∧ stages.autoMerged.success = true := by
  by_cases merged : stages.autoMerged.success = true
  · rw [resolveOneFile_of_success merged, Option.some.injEq] at resolved
    exact ⟨resolved.symm, merged⟩
  · have shown : (resolve llmClient (stageText stages.base)
        (stageText stages.ours) (stageText stages.theirs) .autoMerge) = stages.autoMerged := rfl
    simp only [resolveOneFile, shown, Bool.eq_false_iff.mpr merged, Bool.false_eq_true, if_false]
      at resolved
    split at resolved
    · obtain rfl := Option.some.inj resolved
      exact absurd tier (llmAssistedMerge_tier _ _ _)
    · cases resolved

/-- The lines occur in what they are put together to. -/
def Occur (occurs : Line → String → Prop) (stages : ConflictStages) : Prop :=
  ∀ lines, Merges (stageText stages.base) (stageText stages.ours) (stageText stages.theirs) lines →
    ∀ line ∈ lines, occurs line (joined lines)

theorem resolvesFaithfully_iff_of_success {occurs : Line → String → Prop}
    (occur : Occur occurs stages) : ResolvesFaithfully occurs llmClient stages ↔
    (stages.autoMerged.success = true →
      (stages.ours.isSome ∧ stages.theirs.isSome) ∧
        (stages.base = none → stages.ours = stages.theirs)) := by
  constructor
  · intro faithful merged
    obtain ⟨text, -, held⟩ := faithful stages.autoMerged (resolveOneFile_of_success merged)
      autoMerge_tier
    exact ⟨held.sides, held.addedBoth⟩
  · intro alone result resolved tier
    obtain ⟨rfl, merged⟩ := eq_autoMerged_of_resolved resolved tier
    obtain ⟨lines, found, merges⟩ := exists_merged merged
    refine ⟨joined lines, found, (alone merged).1, (alone merged).2, ?_⟩
    intro base hasBase side member version hasVersion line adds
    rw [mem_cons, mem_singleton] at member
    refine occur lines merges line (merges.2 line ?_)
    rw [hasBase]
    rcases member with rfl | rfl
    · rw [hasVersion]
      exact .inl adds
    · rw [hasVersion]
      exact .inr adds

theorem resolvesFaithfully_iff_of_occur {occurs : Line → String → Prop}
    (occur : Occur occurs stages) :
    ResolvesFaithfully occurs llmClient stages ↔ BothOrEdited stages := by
  rw [resolvesFaithfully_iff_of_success occur]
  obtain ⟨base, ours, theirs, present⟩ := stages
  cases base with
  | none =>
    have merged : (autoMerge "" (stageText ours) (stageText theirs)).success =
      true := success_of_empty
    cases ours <;> cases theirs <;>
      simp_all [ConflictStages.autoMerged, BothOrEdited, stageText]
  | some base =>
    cases ours with
    | none =>
      cases theirs with
      | none => simp at present
      | some side =>
        have deleted := @success_deleted_iff base side
        rw [autoMerge_success_comm] at deleted
        simp [ConflictStages.autoMerged, BothOrEdited, stageText, deleted]
    | some side =>
      cases theirs with
      | none =>
        have deleted := @success_deleted_iff base side
        simp [ConflictStages.autoMerged, BothOrEdited, stageText, deleted]
      | some other => simp [BothOrEdited]

theorem occur_part : Occur PartOf stages := fun _ _ _ member => infix_joined member

theorem occur_line (ended : AllEnded stages) : Occur LineOf stages := by
  intro lines merges line member
  have shownEnded {stage : Option String}
      (versionEnded : ∀ version ∈ stage, ∀ line ∈ linesOf version, Ended line) :
      ∀ line ∈ linesOf (stageText stage), Ended line := by
    cases stage with
    | none => simp [stageText, linesOf_empty]
    | some version => exact versionEnded version rfl
  rw [LineOf, merges.linesOf_joined]
  · exact member
  · simp only [mem_cons, not_mem_nil, or_false, forall_eq_or_imp, forall_eq]
    exact ⟨shownEnded (ended _ (by simp)), shownEnded (ended _ (by simp)),
      shownEnded (ended _ (by simp))⟩

/-- What is resolved without the language model is faithful exactly where both sides have the file,
and the same one where there is no ancestor, or where the only side that has it edits it elsewhere
than at its ends. Where all lines have their ends, the added lines are lines of the text. -/
theorem resolvesFaithfully_iff (llmClient : Option LlmClient) (stages : ConflictStages) :
    (ResolvesFaithfully PartOf llmClient stages ↔ BothOrEdited stages) ∧
      (AllEnded stages → (ResolvesFaithfully LineOf llmClient stages ↔ BothOrEdited stages)) :=
  ⟨resolvesFaithfully_iff_of_occur occur_part,
    fun ended => resolvesFaithfully_iff_of_occur (occur_line ended)⟩

/-- The sides change different lines of a file. -/
def editedApart : ConflictStages where
  base := some "a\nb\n"
  ours := some "c\nb\n"
  theirs := some "a\nd\n"
  present := .inl rfl

/-- The changed lines of both sides are lines of what they are merged to. -/
theorem resolvesFaithfully_iff_editedApart : editedApart.autoMerged.success = true ∧
    ResolvesFaithfully LineOf none editedApart := by
  refine ⟨?_, ((resolvesFaithfully_iff none editedApart).2 ?_).mpr trivial⟩
  · rw [ConflictStages.autoMerged, autoMerge_success_iff]
    exact .inr (.inr (.inr (.inl (by unfold RangesApart; decide))))
  · have ends : ∀ side ∈ [editedApart.base, editedApart.ours, editedApart.theirs],
        ∀ version ∈ side, ∀ line ∈ linesOf version, line.getLast? = some '\n' := by decide
    exact fun side among version held line member =>
      ⟨'\n', ends side among version held line member, by decide⟩

/-- Two files that were added apart. -/
def addAdd : ConflictStages where
  base := none
  ours := some "a\n"
  theirs := some "b\n"
  present := .inl rfl

/-- Two files that were added apart are put one after the other. -/
theorem resolvesFaithfully_fails_addAdd : ¬ ResolvesFaithfully PartOf none addAdd := by
  rw [resolvesFaithfully_iff_of_success occur_part]
  intro alone
  have same := (alone success_of_empty).2 rfl
  exact absurd same (by decide)

/-- Ours changes the only line, without a line feed at its end, and theirs puts one after it. -/
def lastLine : ConflictStages where
  base := some "a\n"
  ours := some "b"
  theirs := some "a\nc\n"
  present := .inl rfl

/-- A last line that nothing ends is written together with the line after it. -/
theorem resolvesFaithfully_fails_lastLine : ¬ ResolvesFaithfully LineOf none lastLine := by
  intro faithful
  have merged : lastLine.autoMerged = { merged := some "bc\n", success := true } := by
    change autoMerge "a\n" "b" "a\nc\n" = _
    rw [autoMerge, if_neg (by decide), if_neg (by decide), if_neg (by decide)]
    rw [if_pos (by decide), applyNonConflicting, allChanges, mergeSort_of_pairwise (by decide)]
    rfl
  obtain ⟨text, found, held⟩ := faithful lastLine.autoMerged
    (resolveOneFile_of_success (by rw [merged])) autoMerge_tier
  rw [merged] at found
  obtain rfl := Option.some.inj found
  have kept := held.kept "a\n" rfl (some "b") (by simp [lastLine]) "b" rfl ['b']
    (by unfold Adds; decide)
  exact absurd kept (by unfold LineOf; decide)

end Paths

end UltimateCoders.Arbiter
