import UltimateCoders.Governance.Pattern

/-! # Delegated patterns

A child scope is accepted when its parent pattern subsumes the child pattern.
The check looks at the text of the two patterns; what it accepts is compared
here with inclusion of the values they match.
-/

namespace UltimateCoders.Governance

open Text List

/-- The pairs of patterns the check accepts, one case per shortcut. -/
inductive Subsumes : List Char → List Char → Prop where
  | same (pattern : List Char) : Subsumes pattern pattern
  | any (child : List Char) : Subsumes ['*', '*'] child
  | segment {child : List Char} (within : '/' ∉ child) : Subsumes ['*'] child
  | stem (stem : List Char) : Subsumes (stem ++ ['/', '*', '*']) stem
  | below (stem rest : List Char) : Subsumes (stem ++ ['/', '*', '*']) (stem ++ '/' :: rest)
  | glued (stem : List Char) {tail : List Char} (filled : tail ≠ []) (within : '/' ∉ tail) :
      Subsumes (stem ++ ['/', '*']) (stem ++ tail)
  | step (stem : List Char) {rest : List Char} (filled : rest ≠ []) (within : '/' ∉ rest) :
      Subsumes (stem ++ ['/', '*']) (stem ++ '/' :: rest)

variable {parent stem child : List Char}

/-- The part of the check for a parent that ends in `/**`. -/
theorem subsumes_of_globstar_stem
    (accepted : (child == stem || ((stem.isPrefixOf? child).map fun rest =>
      rest.head? == some '/').getD false) = true) :
    Subsumes (stem ++ ['/', '*', '*']) child := by
  rcases Bool.or_eq_true_iff.mp accepted with same | below
  · rw [beq_iff_eq.mp same]
    exact .stem stem
  · cases cut : stem.isPrefixOf? child with
    | none => simp [cut] at below
    | some tail =>
      have starts : tail.head? = some '/' := by simpa [cut] using below
      obtain ⟨rest, rfl⟩ := head?_eq_some_iff.mp starts
      rw [← append_eq_of_isPrefixOf?_eq_some cut]
      exact .below stem rest

theorem subsumes_of_star_stem {tail : List Char}
    (accepted : (!((['/'].isPrefixOf? tail).getD tail).isEmpty &&
      !((['/'].isPrefixOf? tail).getD tail).contains '/') = true) :
    Subsumes (stem ++ ['/', '*']) (stem ++ tail) := by
  rw [Bool.and_eq_true, Bool.not_eq_true', Bool.not_eq_true'] at accepted
  obtain ⟨filled, within⟩ := accepted
  rw [isEmpty_eq_false_iff] at filled
  have free : '/' ∉ (['/'].isPrefixOf? tail).getD tail := by
    intro member
    rw [contains_iff_mem.mpr member] at within
    cases within
  cases cut : ['/'].isPrefixOf? tail with
  | none =>
    rw [cut, Option.getD_none] at filled free
    exact .glued stem filled free
  | some rest =>
    rw [cut, Option.getD_some] at filled free
    rw [← append_eq_of_isPrefixOf?_eq_some cut]
    exact .step stem filled free

theorem subsumes_of_patternSubsumes {parent child : String}
    (accepted : patternSubsumes parent child = true) : Subsumes parent.toList child.toList := by
  unfold patternSubsumes at accepted
  split at accepted
  · rename_i same
    rw [same]
    exact .same _
  split at accepted
  · rename_i any
    rw [any]
    exact .any _
  split at accepted
  · rename_i star
    rw [star]
    exact .segment fun member => by
      rw [contains_iff_mem.mpr member] at accepted
      cases accepted
  split at accepted
  · rename_i stem cut
    rw [← append_eq_of_isSuffixOf?_eq_some cut]
    exact subsumes_of_globstar_stem accepted
  · split at accepted
    · rename_i stem cut
      rw [← append_eq_of_isSuffixOf?_eq_some cut]
      split at accepted
      · rename_i tail childCut
        rw [← append_eq_of_isPrefixOf?_eq_some childCut]
        exact subsumes_of_star_stem accepted
      · cases accepted
    · cases accepted

/-- The accepted pairs whose child matches a value its parent does not. -/
inductive Widens : List Char → List Char → Prop where
  | segment {child : List Char} (spans : .globstar ∈ tokens child) (within : '/' ∉ child) :
      Widens ['*'] child
  | stem (stem : List Char) : Widens (stem ++ ['/', '*', '*']) stem
  | glued (stem : List Char) {tail : List Char} (filled : tail ≠ []) (within : '/' ∉ tail) :
      Widens (stem ++ ['/', '*']) (stem ++ tail)
  | step {stem rest : List Char} (spans : .globstar ∈ tokens rest) (within : '/' ∉ rest)
      (closed : ¬ Absorbing (tokens stem)) : Widens (stem ++ ['/', '*']) (stem ++ '/' :: rest)

/-- Every value the child matches, the parent matches. -/
def Includes (parent child : List Char) : Prop :=
  ∀ text, Matches (tokens child) text → Matches (tokens parent) text

theorem tokens_below (stem rest : List Char) :
    tokens (stem ++ '/' :: rest) = tokens stem ++ .literal '/' :: tokens rest :=
  tokens_append_literal stem (by decide) rest

theorem separator_not_mem_of_within {pattern text : List Char}
    (single : .globstar ∉ tokens pattern) (within : '/' ∉ pattern)
    (matched : Matches (tokens pattern) text) : '/' ∉ text :=
  separator_not_mem_of_matches single
    (fun member => within (mem_of_literal_mem_tokens member)) matched

theorem matches_step_of_absorbing {rest text : List Char} (absorbing : Absorbing (tokens stem))
    (matched : Matches (tokens (stem ++ '/' :: rest)) text) :
    Matches (tokens (stem ++ ['/', '*'])) text := by
  rw [tokens_below] at matched ⊢
  obtain ⟨taken, left, rfl, matchedStem, -⟩ := matches_segment.mp matched
  by_cases deeper : '/' ∈ left
  · obtain ⟨first, last, rfl, free⟩ := exists_last_cut deeper
    refine matches_segment.mpr ⟨taken ++ '/' :: first, last, ?_,
      absorbing.matches_append matchedStem _, matches_singleton.mpr free⟩
    rw [append_assoc, cons_append]
  · exact matches_segment.mpr ⟨taken, left, rfl, matchedStem, matches_singleton.mpr deeper⟩

theorem includes_of_subsumes (accepted : Subsumes parent child) (narrow : ¬ Widens parent child) :
    Includes parent child := by
  intro text matched
  cases accepted with
  | same => exact matched
  | any => exact matches_singleton.mpr trivial
  | segment within =>
    by_cases spans : .globstar ∈ tokens child
    · exact (narrow (.segment spans within)).elim
    · exact matches_singleton.mpr (separator_not_mem_of_within spans within matched)
  | stem => exact (narrow (.stem _)).elim
  | below stem rest =>
    rw [tokens_below] at matched ⊢
    obtain ⟨taken, left, rfl, matchedStem, -⟩ := matches_segment.mp matched
    exact matches_segment.mpr ⟨taken, left, rfl, matchedStem, matches_singleton.mpr trivial⟩
  | glued stem filled within => exact (narrow (.glued stem filled within)).elim
  | @step stem rest filled within =>
    by_cases absorbing : Absorbing (tokens stem)
    · exact matches_step_of_absorbing absorbing matched
    · by_cases spans : .globstar ∈ tokens rest
      · exact (narrow (.step spans within absorbing)).elim
      · rw [tokens_below] at matched ⊢
        obtain ⟨taken, left, rfl, matchedStem, matchedRest⟩ := matches_segment.mp matched
        exact matches_segment.mpr ⟨taken, left, rfl, matchedStem, matches_singleton.mpr
          (separator_not_mem_of_within spans within matchedRest)⟩

/-- A `**` in a glob, with the literals around it. -/
theorem matches_around_globstar {pattern : List Char} (spans : .globstar ∈ tokens pattern) :
    ∃ before after, skeleton (tokens pattern) = before ++ after ∧
      ∀ text, Matches (tokens pattern) (before ++ (text ++ after)) := by
  obtain ⟨first, second, cut⟩ := append_of_mem spans
  refine ⟨skeleton first, skeleton second, ?_, fun text => ?_⟩
  · rw [cut, skeleton_append]
    rfl
  · rw [cut]
    exact matches_fill first second text

theorem Includes.skeleton_sublist (included : Includes parent child) :
    (parent.filter (· ≠ '*')).Sublist (child.filter (· ≠ '*')) := by
  rw [← skeleton_tokens, ← skeleton_tokens]
  exact Text.skeleton_sublist (included _ (matches_skeleton _))

theorem Includes.count_le (included : Includes parent child) :
    parent.count '/' ≤ child.count '/' := by
  have counted := included.skeleton_sublist.count_le '/'
  rwa [count_filter (by decide), count_filter (by decide)] at counted

theorem absorbing_of_includes {rest : List Char} (spans : .globstar ∈ tokens rest)
    (within : '/' ∉ rest) (included : Includes (stem ++ ['/', '*']) (stem ++ '/' :: rest)) :
    Absorbing (tokens stem) := by
  obtain ⟨before, after, literals, fill⟩ := matches_around_globstar spans
  have free : '/' ∉ after := by
    intro member
    have inLiterals : '/' ∈ skeleton (tokens rest) := by
      rw [literals]
      exact mem_append_right _ member
    rw [skeleton_tokens] at inLiterals
    exact within (mem_of_mem_filter inLiterals)
  -- filling `**` with segments and a last separator forces the stem to take the segments
  have matched : ∀ char, char = 'a' ∨ char = 'b' → ∀ count,
      Matches (tokens stem) (skeleton (tokens stem) ++ '/' :: before ++ segments char count) := by
    intro char _ count
    have child : Matches (tokens (stem ++ '/' :: rest))
        (skeleton (tokens stem) ++ '/' :: (before ++ ((segments char count ++ ['/']) ++ after))) := by
      rw [tokens_below]
      exact matches_segment.mpr ⟨_, _, rfl, matches_skeleton _, fill _⟩
    have parent := included _ child
    rw [tokens_below] at parent
    obtain ⟨taken, left, cut, matchedStem, matchedLast⟩ := matches_segment.mp parent
    have shape : (skeleton (tokens stem) ++ '/' :: before ++ segments char count) ++ '/' :: after =
        taken ++ '/' :: left := by
      rw [← cut]
      simp
    rw [eq_of_append_cons_eq shape free (matches_singleton.mp matchedLast)]
    exact matchedStem
  have plain : ∀ char, char = 'a' ∨ char = 'b' → char ≠ '/' := by
    rintro char (rfl | rfl) <;> decide
  exact absorbing_of_segments (by decide) plain matched

theorem not_includes_of_widens (widens : Widens parent child) : ¬ Includes parent child := by
  intro included
  cases widens with
  | segment spans within =>
    obtain ⟨before, after, -, fill⟩ := matches_around_globstar spans
    have single : '/' ∉ before ++ (['/'] ++ after) :=
      matches_singleton.mp (included _ (fill ['/']))
    exact single (by simp)
  | stem =>
    have counted := included.count_le
    rw [count_append] at counted
    have one : ['/', '*', '*'].count '/' = 1 := rfl
    omega
  | glued stem filled within =>
    have counted := included.count_le
    rw [count_append, count_append, count_eq_zero_of_not_mem within] at counted
    have one : ['/', '*'].count '/' = 1 := rfl
    omega
  | step spans within closed => exact closed (absorbing_of_includes spans within included)

variable {parent child : String} {stem : List Char}

/-- The check on a parent that ends in `/**`. -/
theorem patternSubsumes_globstar_stem (shape : parent.toList = stem ++ ['/', '*', '*'])
    (different : parent ≠ child) :
    patternSubsumes parent child = (child.toList == stem ||
      ((stem.isPrefixOf? child.toList).map fun rest => rest.head? == some '/').getD false) := by
  have cut : ['/', '*', '*'].isSuffixOf? parent.toList = some stem :=
    isSuffixOf?_eq_some_iff_append_eq.mpr shape.symm
  have notAny : parent ≠ "**" := by
    rintro rfl
    have lengths := congrArg length shape
    simp at lengths
  have notStar : parent ≠ "*" := by
    rintro rfl
    have lengths := congrArg length shape
    simp at lengths
  rw [patternSubsumes, if_neg different, if_neg notAny, if_neg notStar, cut]

theorem patternSubsumes_star_stem {tail : List Char} (shape : parent.toList = stem ++ ['/', '*'])
    (childShape : child.toList = stem ++ tail) (different : parent ≠ child) :
    patternSubsumes parent child = (!((['/'].isPrefixOf? tail).getD tail).isEmpty &&
      !((['/'].isPrefixOf? tail).getD tail).contains '/') := by
  have cut : ['/', '*'].isSuffixOf? parent.toList = some stem :=
    isSuffixOf?_eq_some_iff_append_eq.mpr shape.symm
  have childCut : stem.isPrefixOf? child.toList = some tail :=
    isPrefixOf?_eq_some_iff_append_eq.mpr childShape.symm
  have noGlobstar : ['/', '*', '*'].isSuffixOf? parent.toList = none := by
    refine Option.eq_none_iff_forall_ne_some.mpr fun other found => ?_
    have ends := (append_eq_of_isSuffixOf?_eq_some found).trans shape
    have last : (other ++ ['/']) ++ ['*', '*'] = stem ++ ['/', '*'] := by simpa using ends
    exact absurd (append_inj' last rfl).2 (by decide)
  have notAny : parent ≠ "**" := by
    rintro rfl
    have last : [] ++ ['*', '*'] = stem ++ ['/', '*'] := shape
    exact absurd (append_inj' last rfl).2 (by decide)
  have notStar : parent ≠ "*" := by
    rintro rfl
    have lengths := congrArg length shape
    simp at lengths
  rw [patternSubsumes, if_neg different, if_neg notAny, if_neg notStar, noGlobstar, cut]
  dsimp only
  rw [childCut]

theorem patternSubsumes_of_widens (widens : Widens parent.toList child.toList) :
    patternSubsumes parent child = true := by
  have different : parent ≠ child := by
    rintro rfl
    exact not_includes_of_widens widens fun _ => id
  generalize parentShape : parent.toList = parentText at widens
  generalize childShape : child.toList = childText at widens
  cases widens with
  | segment spans within =>
    have isStar : parent = "*" := String.toList_inj.mp parentShape
    have notAny : parent ≠ "**" := by
      rw [isStar]
      decide
    rw [patternSubsumes, if_neg different, if_neg notAny, if_pos isStar, childShape]
    simpa using within
  | stem =>
    rw [patternSubsumes_globstar_stem parentShape different, childShape, beq_self_eq_true,
      Bool.true_or]
  | glued stem filled within =>
    rw [patternSubsumes_star_stem parentShape childShape different]
    have noStep : ∀ tail : List Char, '/' ∉ tail → ['/'].isPrefixOf? tail = none := by
      intro tail free
      refine Option.eq_none_iff_forall_ne_some.mpr fun rest found => free ?_
      rw [← append_eq_of_isPrefixOf?_eq_some found]
      exact mem_cons_self
    rw [noStep _ within]
    simp [filled, within]
  | @step stem rest spans within closed =>
    rw [patternSubsumes_star_stem parentShape childShape different]
    have filled : rest ≠ [] := by
      rintro rfl
      cases spans
    have cut : ['/'].isPrefixOf? ('/' :: rest) = some rest :=
      isPrefixOf?_eq_some_iff_append_eq.mpr rfl
    rw [cut]
    simp [filled, within]

/-- An accepted child pattern matches only what its parent matches, exactly
when the pair is none of the four that widen. -/
theorem subsumption_includes_iff (parent child : String) :
    (patternSubsumes parent child = true → ∀ value, patternCovers child value = true →
      patternCovers parent value = true) ↔ ¬ Widens parent.toList child.toList := by
  constructor
  · intro sound widens
    refine not_includes_of_widens widens fun text matched => ?_
    have covered := sound (patternSubsumes_of_widens widens) (String.ofList text)
    rw [patternCovers_iff, patternCovers_iff, String.toList_ofList] at covered
    exact covered matched
  · intro narrow accepted value covered
    rw [patternCovers_iff] at covered ⊢
    exact includes_of_subsumes (subsumes_of_patternSubsumes accepted) narrow _ covered

/-- A child that spans segments is accepted under a one-segment parent. -/
theorem subsumption_widens_sourceTree :
    ¬ ∀ parent child : String, patternSubsumes parent child = true →
      ∀ value, patternCovers child value = true → patternCovers parent value = true := by
  intro sound
  have covered := sound "src/*" "src/**" (by decide) "src/a/b"
  exact absurd covered (by decide)

end UltimateCoders.Governance
