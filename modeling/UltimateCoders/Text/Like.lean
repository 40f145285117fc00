import Mathlib.Data.List.Infix

/-! # Patterns of LIKE

In a pattern `%` stands for any text and `_` for any character, and `!` takes the next character
literally. Engines differ in which characters they take for the same: they compare them after
folding them in their way.
-/

namespace Text

/-- A text meets a pattern, by characters that are folded. -/
def like (fold : Char → Char) : List Char → List Char → Bool
  | [], text => text.isEmpty
  | '%' :: rest, text => text.tails.any (like fold rest)
  | '_' :: rest, text =>
    match text with
    | [] => false
    | _ :: tail => like fold rest tail
  | ['!'], _ => false
  | '!' :: literal :: rest, text =>
    match text with
    | [] => false
    | head :: tail => fold literal == fold head && like fold rest tail
  | literal :: rest, text =>
    match text with
    | [] => false
    | head :: tail => fold literal == fold head && like fold rest tail

/-- Put one text for each occurrence of a character. -/
def replaceChar (old : Char) (new : List Char) (text : List Char) : List Char :=
  text.flatMap fun char => if char = old then new else [char]

/-- The pattern for texts that begin with a front, whatever characters are in it. -/
def prefixPattern (front : List Char) : List Char :=
  replaceChar '_' ['!', '_'] (replaceChar '%' ['!', '%'] (replaceChar '!' ['!', '!'] front)) ++
    ['%']

variable {fold : Char → Char} {front text : List Char}

theorem like_any : like fold ['%'] text = true := by
  simp only [like, List.any_eq_true]
  exact ⟨[], by simp, rfl⟩

theorem replaceChar_cons (old char : Char) (new text : List Char) :
    replaceChar old new (char :: text) =
      (if char = old then new else [char]) ++ replaceChar old new text := rfl

theorem replaceChar_append (old : Char) (new first second : List Char) :
    replaceChar old new (first ++ second) =
      replaceChar old new first ++ replaceChar old new second :=
  List.flatMap_append

/-- Every character is escaped on its own. -/
theorem prefixPattern_cons (char : Char) (front : List Char) : prefixPattern (char :: front) =
    (if char = '!' ∨ char = '%' ∨ char = '_' then ['!', char] else [char]) ++
      prefixPattern front := by
  unfold prefixPattern
  rw [replaceChar_cons, replaceChar_append, replaceChar_append, List.append_assoc]
  congr 1
  by_cases mark : char = '!'
  · subst mark
    rfl
  · by_cases percent : char = '%'
    · subst percent
      rfl
    · by_cases underscore : char = '_'
      · subst underscore
        rfl
      · simp [mark, percent, underscore, replaceChar]

/-- A character of the front takes one of the text. -/
theorem like_prefixPattern_cons (char : Char) (front text : List Char) :
    like fold (prefixPattern (char :: front)) text =
      match text with
      | [] => false
      | head :: tail => fold char == fold head && like fold (prefixPattern front) tail := by
  rw [prefixPattern_cons]
  by_cases special : char = '!' ∨ char = '%' ∨ char = '_'
  · rw [if_pos special]
    rcases special with rfl | rfl | rfl <;> cases text <;> rfl
  · rw [if_neg special]
    obtain ⟨mark, percent, underscore⟩ : char ≠ '!' ∧ char ≠ '%' ∧ char ≠ '_' := by
      simpa only [not_or] using special
    rw [List.singleton_append]
    cases text with
    | nil | cons head tail => simp [like, *]

/-- The pattern is met by the texts that begin with the front, up to folding. -/
theorem like_prefixPattern :
    like fold (prefixPattern front) text = true ↔ front.map fold <+: text.map fold := by
  induction front generalizing text with
  | nil => simp [prefixPattern, replaceChar, like_any]
  | cons char front ih =>
    rw [like_prefixPattern_cons]
    cases text with
    | nil => simp
    | cons head tail => simp [ih, List.cons_prefix_cons]

end Text
