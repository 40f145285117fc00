import Mathlib.Data.Finset.Prod
import UltimateCoders.Search.Worklist
import UltimateCoders.Text.Glob

/-! # Scope patterns

The glob matcher of mandate scopes and the delegation check on patterns. The
matcher walks positions of pattern and value with a stack and marks what it has
seen; it decides whether the value matches the pattern read as a glob.
-/

namespace UltimateCoders.Governance

open Search Text List

/-- The positions pushed from one position, the top of the stack first. -/
def patternNext (pattern value : List Char) (position : Nat × Nat) : List (Nat × Nat) :=
  let (pi, vi) := position
  match pattern[pi]? with
  | none => []
  | some '*' =>
    if pattern[pi + 1]? = some '*' then
      (if vi < value.length then [(pi, vi + 1)] else []) ++ [(pi + 2, vi)]
    else
      (if vi < value.length ∧ value[vi]? ≠ some '/' then [(pi, vi + 1)] else []) ++ [(pi + 1, vi)]
  | some literal => if value[vi]? = some literal then [(pi + 1, vi + 1)] else []

def patternDone (pattern value : List Char) (position : Nat × Nat) : Bool :=
  position.1 == pattern.length && position.2 == value.length

/-- Glob matcher: `*` matches any run of characters except `/`, `**` any run. -/
def patternCovers (pattern value : String) : Bool :=
  let pattern := pattern.toList
  let value := value.toList
  worklist (patternDone pattern value) (patternNext pattern value)
    (1 + 2 * ((pattern.length + 1) * (value.length + 1))) [] [(0, 0)] == some true

/-- Parent pattern covers child pattern, as checked when delegating. -/
def patternSubsumes (parent child : String) : Bool :=
  if parent = child then true
  else if parent = "**" then true
  else if parent = "*" then !child.toList.contains '/'
  else
    match ['/', '*', '*'].isSuffixOf? parent.toList with
    | some stem =>
      child.toList == stem ||
        ((stem.isPrefixOf? child.toList).map fun rest => rest.head? == some '/').getD false
    | none =>
      match ['/', '*'].isSuffixOf? parent.toList with
      | some stem =>
        match stem.isPrefixOf? child.toList with
        | some tail =>
          let rest := (['/'].isPrefixOf? tail).getD tail
          !rest.isEmpty && !rest.contains '/'
        | none => false
      | none => false

variable {pattern value : List Char}

/-- The rest of the value matches the rest of the pattern. -/
def MatchesAt (pattern value : List Char) (position : Nat × Nat) : Prop :=
  Matches (tokens (pattern.drop position.1)) (value.drop position.2)

theorem getElem?_of_drop_eq_cons {text : List Char} {index : Nat} {char : Char} {rest : List Char}
    (shape : text.drop index = char :: rest) :
    text[index]? = some char ∧ text.drop (index + 1) = rest ∧ index < text.length := by
  refine ⟨?_, ?_, ?_⟩
  · rw [← head?_drop, shape]
    rfl
  · rw [← tail_drop, shape]
    rfl
  · by_contra beyond
    rw [drop_eq_nil_of_le (Nat.le_of_not_lt beyond)] at shape
    cases shape

theorem getElem?_of_drop_eq_nil {text : List Char} {index : Nat} (shape : text.drop index = []) :
    text[index]? = none ∧ text.length ≤ index := by
  have beyond := drop_eq_nil_iff.mp shape
  exact ⟨getElem?_eq_none beyond, beyond⟩

/-- One step of the walk follows one step of the match. -/
theorem matchesAt_iff {pi vi : Nat} (inPattern : pi ≤ pattern.length) (inValue : vi ≤ value.length) :
    MatchesAt pattern value (pi, vi) ↔ patternDone pattern value (pi, vi) = true ∨
      ∃ next ∈ patternNext pattern value (pi, vi), MatchesAt pattern value next := by
  unfold MatchesAt patternNext patternDone
  dsimp only
  cases shape : pattern.drop pi with
  | nil =>
    obtain ⟨absent, beyond⟩ := getElem?_of_drop_eq_nil shape
    have last : pi = pattern.length := Nat.le_antisymm inPattern beyond
    have ends : value.drop vi = [] ↔ vi = value.length := by
      rw [drop_eq_nil_iff]
      omega
    simp [last, tokens, ends]
  | cons char rest =>
    obtain ⟨here, next, inside⟩ := getElem?_of_drop_eq_cons shape
    have notLast : (pi == pattern.length) = false := beq_eq_false_iff_ne.mpr (Nat.ne_of_lt inside)
    rw [notLast, Bool.false_and]
    simp only [here, Bool.false_eq_true, false_or]
    by_cases isStar : char = '*'
    · subst isStar
      by_cases double : pattern[pi + 1]? = some '*'
      · obtain ⟨after, rfl⟩ : ∃ after, rest = '*' :: after := by
          rw [← head?_drop, next] at double
          exact head?_eq_some_iff.mp double
        have afterDrop := (getElem?_of_drop_eq_cons next).2.1
        rw [tokens, matches_globstar_cons]
        cases left : value.drop vi with
        | nil =>
          have last := (getElem?_of_drop_eq_nil left).2
          simp [double, last.not_gt, afterDrop, left]
        | cons first others =>
          obtain ⟨-, rest, inText⟩ := getElem?_of_drop_eq_cons left
          simp [double, inText, shape, tokens, afterDrop, left, rest, or_comm]
      · have single : rest.head? ≠ some '*' := by
          rw [← next, head?_drop]
          exact double
        rw [tokens_star single, matches_star_cons]
        cases left : value.drop vi with
        | nil =>
          have last := (getElem?_of_drop_eq_nil left).2
          simp [double, last.not_gt, next, left]
        | cons first others =>
          obtain ⟨head, rest, inText⟩ := getElem?_of_drop_eq_cons left
          by_cases separator : first = '/'
          · simp [double, head, next, left, separator]
          · obtain ⟨_, char⟩ := List.getElem?_eq_some_iff.mp head
            simp [double, inText, char, shape, tokens_star single, next, left, rest, separator,
              or_comm]
    · rw [tokens_literal isStar, matches_literal_cons]
      cases left : value.drop vi with
      | nil =>
        have absent := (getElem?_of_drop_eq_nil left).1
        simp [absent]
      | cons first others =>
        obtain ⟨head, rest, -⟩ := getElem?_of_drop_eq_cons left
        by_cases same : first = char
        · simp [head, same, next, rest]
        · simp [head, same]

def positions (pattern value : List Char) : Finset (Nat × Nat) :=
  Finset.range (pattern.length + 1) ×ˢ Finset.range (value.length + 1)

theorem mem_positions {position : Nat × Nat} :
    position ∈ positions pattern value ↔
      position.1 ≤ pattern.length ∧ position.2 ≤ value.length := by
  simp only [positions, Finset.mem_product, Finset.mem_range, Nat.lt_succ_iff]

/-- A step moves on by at most the two stars of a `**`, and at most one value
character, within the positions. -/
theorem patternNext_spec {position next : Nat × Nat}
    (inside : position ∈ positions pattern value)
    (isNext : next ∈ patternNext pattern value position) :
    next ∈ positions pattern value ∧ position.1 + position.2 < next.1 + next.2 := by
  obtain ⟨pi, vi⟩ := position
  rw [mem_positions] at inside ⊢
  obtain ⟨inPattern, inValue⟩ := inside
  dsimp only at inPattern inValue
  unfold patternNext at isNext
  dsimp only at isNext
  split at isNext
  · exact (not_mem_nil isNext).elim
  · rename_i here
    have inText := (List.getElem?_eq_some_iff.mp here).choose
    split at isNext
    · rename_i double
      have inTextNext := (List.getElem?_eq_some_iff.mp double).choose
      rcases mem_append.mp isNext with one | two
      · split at one
        · rw [mem_singleton.mp one]
          dsimp only
          omega
        · exact (not_mem_nil one).elim
      · rw [mem_singleton.mp two]
        dsimp only
        omega
    · rcases mem_append.mp isNext with one | two
      · split at one
        · rename_i within
          rw [mem_singleton.mp one]
          dsimp only
          omega
        · exact (not_mem_nil one).elim
      · rw [mem_singleton.mp two]
        dsimp only
        omega
  · rename_i here
    have inText := (List.getElem?_eq_some_iff.mp here).choose
    split at isNext
    · rename_i matched
      have inRest := (List.getElem?_eq_some_iff.mp matched).choose
      rw [mem_singleton.mp isNext]
      dsimp only
      omega
    · exact (not_mem_nil isNext).elim

theorem length_patternNext_le (position : Nat × Nat) :
    (patternNext pattern value position).length ≤ 2 := by
  unfold patternNext
  grind

theorem reaches_of_matchesAt {position : Nat × Nat} (inside : position ∈ positions pattern value)
    (matched : MatchesAt pattern value position) :
    ∃ last, Reaches (patternNext pattern value) position last ∧
      patternDone pattern value last = true := by
  -- a step moves on, and there are only so many positions left
  induction remaining : pattern.length + value.length - (position.1 + position.2)
    using Nat.strongRecOn generalizing position with
  | ind bound ih =>
    obtain ⟨inPattern, inValue⟩ := mem_positions.mp inside
    rcases (matchesAt_iff inPattern inValue).mp matched with isDone | ⟨next, isNext, matchedNext⟩
    · exact ⟨position, .refl, isDone⟩
    · obtain ⟨nextInside, moves⟩ := patternNext_spec inside isNext
      obtain ⟨nextPattern, nextValue⟩ := mem_positions.mp nextInside
      obtain ⟨last, reached, isDone⟩ := ih _ (by omega) nextInside matchedNext rfl
      exact ⟨last, .head isNext reached, isDone⟩

theorem matchesAt_of_reaches {position last : Nat × Nat} (inside : position ∈ positions pattern value)
    (reached : Reaches (patternNext pattern value) position last)
    (isDone : patternDone pattern value last = true) : MatchesAt pattern value position := by
  have along : ∀ {first : Nat × Nat}, Reaches (patternNext pattern value) first last →
      first ∈ positions pattern value → MatchesAt pattern value first := by
    intro first walk
    induction walk using Relation.ReflTransGen.head_induction_on with
    | refl =>
      intro here
      obtain ⟨inPattern, inValue⟩ := mem_positions.mp here
      exact (matchesAt_iff inPattern inValue).mpr (.inl isDone)
    | head isNext _ ih =>
      intro here
      obtain ⟨inPattern, inValue⟩ := mem_positions.mp here
      exact (matchesAt_iff inPattern inValue).mpr
        (.inr ⟨_, isNext, ih (patternNext_spec here isNext).1⟩)
  exact along reached inside

theorem patternCovers_iff (pattern value : String) :
    patternCovers pattern value = true ↔ Matches (tokens pattern.toList) value.toList := by
  have begun : (0, 0) ∈ positions pattern.toList value.toList :=
    mem_positions.mpr ⟨Nat.zero_le _, Nat.zero_le _⟩
  have enough : 1 + 2 * (positions pattern.toList value.toList).card ≤
      1 + 2 * ((pattern.toList.length + 1) * (value.toList.length + 1)) := by
    rw [positions, Finset.card_product, Finset.card_range, Finset.card_range]
  rw [patternCovers, beq_iff_eq, worklist_eq_some_true_iff begun
    (fun position inside next isNext => (patternNext_spec inside isNext).1)
    length_patternNext_le enough]
  constructor
  · rintro ⟨last, reached, isDone⟩
    exact matchesAt_of_reaches begun reached isDone
  · intro matched
    exact reaches_of_matchesAt begun matched

end UltimateCoders.Governance
