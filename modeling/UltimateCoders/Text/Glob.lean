import Mathlib.Data.List.Count
import Mathlib.Data.List.Induction
import UltimateCoders.Text.Split

/-! # Globs

A glob is a sequence of tokens: a literal matches itself, `*` matches any text
within one segment, `**` any text. A text matches a glob when it can be cut into
pieces that the tokens accept in order.
-/

namespace Text

open List

inductive Token where
  | literal (char : Char)
  | star
  | globstar
  deriving DecidableEq

/-- Read a pattern from the left; two stars in a row are one token. -/
def tokens : List Char → List Token
  | '*' :: '*' :: rest => .globstar :: tokens rest
  | '*' :: rest => .star :: tokens rest
  | char :: rest => .literal char :: tokens rest
  | [] => []

def Token.Accepts : Token → List Char → Prop
  | literal char, text => text = [char]
  | star, text => '/' ∉ text
  | globstar, _ => True

/-- The text is made of pieces that the tokens accept in order. -/
def Matches : List Token → List Char → Prop
  | [], text => text = []
  | token :: rest, text => ∃ taken left, text = taken ++ left ∧ token.Accepts taken ∧ Matches rest left

theorem tokens_star {rest : List Char} (single : rest.head? ≠ some '*') :
    tokens ('*' :: rest) = .star :: tokens rest := by
  rw [tokens.eq_def]
  split
  · rename_i same
    cases same
    exact absurd rfl single
  · rename_i same
    cases same
    rfl
  · rename_i notStar same
    cases same
    exact (notStar rfl).elim
  · rename_i same
    cases same

variable {char : Char}

theorem tokens_literal (plain : char ≠ '*') (rest : List Char) :
    tokens (char :: rest) = .literal char :: tokens rest := by
  rw [tokens.eq_def]
  split
  · rename_i same
    cases same
    exact absurd rfl plain
  · rename_i same
    cases same
    exact absurd rfl plain
  · rename_i same
    cases same
    rfl
  · rename_i same
    cases same

/-- A pattern can be read apart before a literal. -/
theorem tokens_append_literal (first : List Char) (plain : char ≠ '*') (rest : List Char) :
    tokens (first ++ char :: rest) = tokens first ++ .literal char :: tokens rest := by
  fun_induction tokens first with
  | case1 left ih =>
    rw [cons_append, cons_append, tokens, ih]
    rfl
  | case2 left single ih =>
    have head : (left ++ char :: rest).head? ≠ some '*' := by
      cases left with
      | nil => simpa using plain
      | cons next left =>
        rw [cons_append, head?_cons, ne_eq, Option.some.injEq]
        rintro rfl
        exact single left rfl
    rw [cons_append, tokens_star head, ih]
    rfl
  | case3 next left _ notStar ih =>
    rw [cons_append, tokens_literal notStar, ih]
    rfl
  | case4 => exact tokens_literal plain rest

/-- A literal token is a character of the pattern. -/
theorem mem_of_literal_mem_tokens {pattern : List Char} (member : .literal char ∈ tokens pattern) :
    char ∈ pattern := by
  fun_induction tokens pattern with
  | case1 rest ih =>
    rcases mem_cons.mp member with impossible | later
    · cases impossible
    · exact mem_cons_of_mem _ (mem_cons_of_mem _ (ih later))
  | case2 rest _ ih =>
    rcases mem_cons.mp member with impossible | later
    · cases impossible
    · exact mem_cons_of_mem _ (ih later)
  | case3 next rest _ _ ih =>
    rcases mem_cons.mp member with same | later
    · cases same
      exact mem_cons_self
    · exact mem_cons_of_mem _ (ih later)
  | case4 => exact (not_mem_nil member).elim

variable {text : List Char}

@[simp] theorem matches_nil : Matches [] text ↔ text = [] := Iff.rfl

theorem matches_singleton {token : Token} : Matches [token] text ↔ token.Accepts text := by
  constructor
  · rintro ⟨taken, left, rfl, accepts, rfl⟩
    rw [append_nil]
    exact accepts
  · intro accepts
    exact ⟨text, [], (append_nil text).symm, accepts, rfl⟩

/-- A text matches two globs in a row when it can be cut between them. -/
theorem matches_append {first second : List Token} : Matches (first ++ second) text ↔
      ∃ taken left, text = taken ++ left ∧ Matches first taken ∧ Matches second left := by
  induction first generalizing text with
  | nil =>
    constructor
    · intro matched
      exact ⟨[], text, rfl, rfl, matched⟩
    · rintro ⟨taken, left, rfl, rfl, matched⟩
      exact matched
  | cons token rest ih =>
    constructor
    · rintro ⟨piece, others, rfl, accepts, matched⟩
      obtain ⟨taken, left, rfl, matchedRest, matchedSecond⟩ := ih.mp matched
      exact ⟨piece ++ taken, left, (append_assoc _ _ _).symm,
        ⟨piece, taken, rfl, accepts, matchedRest⟩, matchedSecond⟩
    · rintro ⟨_, left, rfl, ⟨piece, taken, rfl, accepts, matchedRest⟩, matchedSecond⟩
      exact ⟨piece, taken ++ left, append_assoc _ _ _, accepts,
        ih.mpr ⟨taken, left, rfl, matchedRest, matchedSecond⟩⟩

theorem matches_concat {tokens : List Token} {token : Token} : Matches (tokens ++ [token]) text ↔
      ∃ taken last, text = taken ++ last ∧ Matches tokens taken ∧ token.Accepts last := by
  simp only [matches_append, matches_singleton]

theorem matches_literal_cons {rest : List Token} :
    Matches (.literal char :: rest) text ↔ ∃ left, text = char :: left ∧ Matches rest left := by
  constructor
  · rintro ⟨_, left, rfl, rfl, matched⟩
    exact ⟨left, rfl, matched⟩
  · rintro ⟨left, rfl, matched⟩
    exact ⟨[char], left, rfl, rfl, matched⟩

/-- `*` takes nothing, or one more character of the segment. -/
theorem matches_star_cons {rest : List Token} : Matches (.star :: rest) text ↔ Matches rest text ∨
      ∃ char left, text = char :: left ∧ char ≠ '/' ∧ Matches (.star :: rest) left := by
  constructor
  · rintro ⟨taken, left, rfl, within, matched⟩
    cases taken with
    | nil => exact .inl matched
    | cons char taken =>
      have outside : ¬ ('/' = char ∨ '/' ∈ taken) := fun member => within (mem_cons.mpr member)
      obtain ⟨plain, withinRest⟩ := not_or.mp outside
      exact .inr ⟨char, taken ++ left, rfl, Ne.symm plain, taken, left, rfl, withinRest, matched⟩
  · rintro (matched | ⟨char, _, rfl, plain, taken, left, rfl, within, matched⟩)
    · exact ⟨[], text, rfl, not_mem_nil, matched⟩
    · refine ⟨char :: taken, left, rfl, fun member => ?_, matched⟩
      rcases mem_cons.mp member with rfl | later
      · exact plain rfl
      · exact within later

/-- `**` takes nothing, or one more character. -/
theorem matches_globstar_cons {rest : List Token} :
    Matches (.globstar :: rest) text ↔ Matches rest text ∨
      ∃ char left, text = char :: left ∧ Matches (.globstar :: rest) left := by
  constructor
  · rintro ⟨taken, left, rfl, -, matched⟩
    cases taken with
    | nil => exact .inl matched
    | cons char taken => exact .inr ⟨char, taken ++ left, rfl, taken, left, rfl, trivial, matched⟩
  · rintro (matched | ⟨char, _, rfl, taken, left, rfl, -, matched⟩)
    · exact ⟨[], text, rfl, trivial, matched⟩
    · exact ⟨char :: taken, left, rfl, trivial, matched⟩

/-- A glob and one more segment. -/
theorem matches_segment {tokens rest : List Token} : Matches (tokens ++ .literal '/' :: rest) text ↔
      ∃ taken left, text = taken ++ '/' :: left ∧ Matches tokens taken ∧ Matches rest left := by
  rw [matches_append]
  constructor
  · rintro ⟨taken, _, rfl, matched, others⟩
    obtain ⟨left, rfl, matchedRest⟩ := matches_literal_cons.mp others
    exact ⟨taken, left, rfl, matched, matchedRest⟩
  · rintro ⟨taken, left, rfl, matched, matchedRest⟩
    exact ⟨taken, _, rfl, matched, matches_literal_cons.mpr ⟨left, rfl, matchedRest⟩⟩

/-- Without `**` and without a literal separator a glob stays in one segment. -/
theorem separator_not_mem_of_matches {tokens : List Token} (noGlobstar : .globstar ∉ tokens)
    (noSeparator : .literal '/' ∉ tokens) (matched : Matches tokens text) : '/' ∉ text := by
  induction tokens generalizing text with
  | nil =>
    rw [matches_nil.mp matched]
    exact not_mem_nil
  | cons token rest ih =>
    obtain ⟨taken, left, rfl, accepts, matchedRest⟩ := matched
    refine not_mem_append ?_ (ih (fun later => noGlobstar (mem_cons_of_mem _ later))
      (fun later => noSeparator (mem_cons_of_mem _ later)) matchedRest)
    cases token with
    | literal char =>
      rw [show taken = [char] from accepts, mem_singleton]
      rintro rfl
      exact noSeparator mem_cons_self
    | star => exact accepts
    | globstar => exact (noGlobstar mem_cons_self).elim

/-- The literals of a glob: what it matches with empty wildcards. -/
def skeleton : List Token → List Char
  | [] => []
  | .literal char :: rest => char :: skeleton rest
  | _ :: rest => skeleton rest

theorem skeleton_append (first second : List Token) :
    skeleton (first ++ second) = skeleton first ++ skeleton second := by
  induction first with
  | nil => rfl
  | cons token rest ih => cases token <;> simp [skeleton, ih]

theorem matches_skeleton (tokens : List Token) : Matches tokens (skeleton tokens) := by
  induction tokens with
  | nil => rfl
  | cons token rest ih =>
    cases token with
    | literal char => exact matches_literal_cons.mpr ⟨_, rfl, ih⟩
    | star => exact matches_star_cons.mpr (.inl ih)
    | globstar => exact matches_globstar_cons.mpr (.inl ih)

/-- A `**` can be filled with any text. -/
theorem matches_fill (first second : List Token) (text : List Char) :
    Matches (first ++ .globstar :: second) (skeleton first ++ (text ++ skeleton second)) :=
  matches_append.mpr ⟨_, _, rfl, matches_skeleton first, text, _, rfl, trivial,
    matches_skeleton second⟩

/-- Every match contains the literals in order. -/
theorem skeleton_sublist {tokens : List Token} (matched : Matches tokens text) :
    (skeleton tokens).Sublist text := by
  induction tokens generalizing text with
  | nil => exact nil_sublist text
  | cons token rest ih =>
    obtain ⟨taken, left, rfl, accepts, matchedRest⟩ := matched
    cases token with
    | literal char =>
      rw [show taken = [char] from accepts]
      exact (ih matchedRest).cons_cons char
    | star | globstar => exact (ih matchedRest).trans (sublist_append_right _ _)

/-- The literals of a pattern are its characters other than stars. -/
theorem skeleton_tokens (pattern : List Char) :
    skeleton (tokens pattern) = pattern.filter (· ≠ '*') := by
  fun_induction tokens pattern with
  | case1 rest ih => simpa [skeleton] using ih
  | case2 rest _ ih => simpa [skeleton] using ih
  | case3 char rest _ plain ih =>
    have kept : decide (char ≠ '*') = true := decide_eq_true plain
    rw [skeleton, filter_cons, if_pos kept, ih]
  | case4 => rfl

/-- A `**` followed by nothing but `*` and `/*`. -/
inductive Absorbing : List Token → Prop where
  | globstar (before : List Token) : Absorbing (before ++ [.globstar])
  | star {tokens : List Token} : Absorbing tokens → Absorbing (tokens ++ [.star])
  | segment {tokens : List Token} : Absorbing tokens → Absorbing (tokens ++ .literal '/' :: [.star])

/-- An absorbing glob matches every continuation of what it matches. -/
theorem Absorbing.matches_append {tokens : List Token} (absorbing : Absorbing tokens)
    (matched : Matches tokens text) (more : List Char) : Matches tokens (text ++ more) := by
  induction absorbing generalizing text more with
  | globstar before =>
    obtain ⟨taken, last, rfl, matchedBefore, -⟩ := matches_concat.mp matched
    exact matches_concat.mpr ⟨taken, last ++ more, append_assoc _ _ _, matchedBefore, trivial⟩
  | star _ ih =>
    obtain ⟨taken, last, rfl, matchedBefore, -⟩ := matches_concat.mp matched
    refine matches_concat.mpr ⟨taken ++ (last ++ more), [], ?_, ih matchedBefore _, not_mem_nil⟩
    rw [append_nil, append_assoc]
  | segment _ ih =>
    obtain ⟨taken, left, rfl, matchedBefore, -⟩ := matches_segment.mp matched
    by_cases within : '/' ∈ left ++ more
    · obtain ⟨first, last, cut, free⟩ := exists_last_cut within
      refine matches_segment.mpr ⟨taken ++ '/' :: first, last, ?_, ih matchedBefore _,
        matches_singleton.mpr free⟩
      rw [append_assoc, append_assoc, cons_append, cons_append, cut]
    · exact matches_segment.mpr ⟨taken, left ++ more, by rw [append_assoc, cons_append],
        matchedBefore, matches_singleton.mpr within⟩

def segments (char : Char) (count : Nat) : List Char :=
  (replicate count ['/', char]).flatten

theorem segments_succ (char : Char) (count : Nat) :
    segments char (count + 1) = segments char count ++ ['/', char] := by
  rw [segments, replicate_succ', flatten_append, flatten_singleton, segments]

/-- A last piece within one segment of a text that ends in `/x` is empty or `x`. -/
theorem last_piece_cases {front taken last : List Char}
    (cut : front ++ ['/', char] = taken ++ last) (within : '/' ∉ last) :
    (taken = front ++ ['/', char]) ∨ taken = front ++ ['/'] := by
  rcases eq_nil_or_concat last with rfl | ⟨piece, final, rfl⟩
  · rw [append_nil] at cut
    exact .inl cut.symm
  · rcases eq_nil_or_concat piece with rfl | ⟨rest, before, rfl⟩
    · have shape : (front ++ ['/']) ++ [char] = taken ++ [final] := by simpa using cut
      exact .inr (append_inj' shape rfl).1.symm
    · have shape : front ++ ['/', char] = (taken ++ rest) ++ [before, final] := by simpa using cut
      have ends := (append_inj' shape rfl).2
      rw [cons.injEq] at ends
      exact (within (by rw [← ends.1]; simp)).elim

/-- A glob that ends in a literal matches texts that end in it. -/
theorem matches_concat_literal {tokens : List Token} {front : List Char} {char last : Char} :
    Matches (tokens ++ [.literal char]) (front ++ [last]) ↔ last = char ∧ Matches tokens front := by
  rw [matches_concat]
  constructor
  · rintro ⟨taken, piece, cut, matched, rfl⟩
    obtain ⟨rfl, ends⟩ := append_inj' cut rfl
    exact ⟨singleton_inj.mp ends, matched⟩
  · rintro ⟨rfl, matched⟩
    exact ⟨front, [last], rfl, matched, rfl⟩

/-- A glob that matches arbitrarily many further segments of either of two
characters is absorbing. -/
theorem absorbing_of_segments {tokens : List Token} {front : List Char} {first second : Char}
    (different : first ≠ second) (plain : ∀ char, char = first ∨ char = second → char ≠ '/')
    (matched : ∀ char, char = first ∨ char = second → ∀ count,
      Matches tokens (front ++ segments char count)) : Absorbing tokens := by
  -- induction on the number of tokens, which are peeled off at the end
  induction length : tokens.length using Nat.strongRecOn generalizing tokens with
  | ind size ih =>
    have extended : ∀ char, char = first ∨ char = second → ∀ count,
        Matches tokens (front ++ segments char count ++ ['/', char]) := by
      intro char listed count
      rw [append_assoc, ← segments_succ]
      exact matched char listed (count + 1)
    have ends : ∀ char (text : List Char), text ++ ['/', char] = (text ++ ['/']) ++ [char] := by
      intro char text
      rw [append_assoc]
      rfl
    have noLiteral : ∀ literal, (∀ char, char = first ∨ char = second → char = literal) → False :=
      fun literal same => different ((same first (.inl rfl)).trans (same second (.inr rfl)).symm)
    rcases eq_nil_or_concat tokens with rfl | ⟨before, token, rfl⟩
    · exact absurd (extended first (.inl rfl) 0) (by simp)
    · rw [concat_eq_append] at *
      cases token with
      | globstar => exact .globstar before
      | literal literal =>
        refine (noLiteral literal fun char listed => ?_).elim
        have here := extended char listed 0
        rw [ends] at here
        exact (matches_concat_literal.mp here).1
      | star =>
        have pieces : ∀ char, char = first ∨ char = second → ∀ count,
            Matches before (front ++ segments char count ++ ['/', char]) ∨
              Matches before (front ++ segments char count ++ ['/']) := by
          intro char listed count
          obtain ⟨taken, last, cut, matchedBefore, within⟩ :=
            matches_concat.mp (extended char listed count)
          rcases last_piece_cases cut within with rfl | rfl
          · exact .inl matchedBefore
          · exact .inr matchedBefore
        rcases eq_nil_or_concat before with rfl | ⟨earlier, previous, rfl⟩
        · exact absurd (pieces first (.inl rfl) 0) (by simp)
        · rw [concat_eq_append] at *
          cases previous with
          | globstar => exact .star (.globstar earlier)
          | star =>
            refine .star (ih _ ?_ (fun char listed count => ?_) rfl)
            · rw [← length]
              simp
            · obtain ⟨_, last, cut, both, within⟩ := matches_concat.mp (matched char listed count)
              obtain ⟨taken, piece, rfl, matchedEarlier, pieceWithin⟩ := matches_concat.mp both
              rw [cut]
              exact matches_concat.mpr ⟨taken, piece ++ last, append_assoc _ _ _,
                matchedEarlier, not_mem_append pieceWithin within⟩
          | literal literal =>
            by_cases separator : literal = '/'
            · subst separator
              have shorter : ∀ char, char = first ∨ char = second → ∀ count,
                  Matches earlier (front ++ segments char count) := by
                intro char listed count
                rcases pieces char listed count with whole | cut
                · rw [ends] at whole
                  exact (plain char listed (matches_concat_literal.mp whole).1).elim
                · exact (matches_concat_literal.mp cut).2
              have smaller : earlier.length < size := by
                rw [← length]
                simp
              have absorbing := ih _ smaller shorter rfl
              rw [append_assoc]
              exact .segment absorbing
            · refine (noLiteral literal fun char listed => ?_).elim
              rcases pieces char listed 0 with whole | cut
              · rw [ends] at whole
                exact (matches_concat_literal.mp whole).1
              · exact (separator (matches_concat_literal.mp cut).1.symm).elim

end Text
