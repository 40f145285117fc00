import Mathlib.Data.List.Lex
import Mathlib.Data.List.TakeWhile
import Mathlib.Order.Lattice

/-! # White space, cutting a text at its separators, and joining texts -/

namespace Text

open List

/-- The characters that Unicode counts as white space. -/
def isWhitespace (c : Char) : Bool :=
  [0x20, 0x85, 0xA0, 0x1680, 0x2028, 0x2029, 0x202F, 0x205F, 0x3000].contains c.toNat ||
    (0x9 ≤ c.toNat && c.toNat ≤ 0xD) || (0x2000 ≤ c.toNat && c.toNat ≤ 0x200A)

universe u

variable {Letter : Type u}

/-- A text is cut in one way at its last separator. -/
theorem eq_of_append_cons_eq {first second firstTail secondTail : List Letter} {separator : Letter}
    (same : first ++ separator :: firstTail = second ++ separator :: secondTail)
    (firstFree : separator ∉ firstTail) (secondFree : separator ∉ secondTail) :
    first = second := by
  rcases append_eq_append_iff.mp same with ⟨between, rfl, rest⟩ | ⟨between, rfl, rest⟩
  · cases between with
    | nil => rw [append_nil]
    | cons char between =>
      rw [cons_append, cons.injEq] at rest
      rw [rest.2] at firstFree
      exact (firstFree (mem_append_right _ mem_cons_self)).elim
  · cases between with
    | nil => rw [append_nil]
    | cons char between =>
      rw [cons_append, cons.injEq] at rest
      rw [rest.2] at secondFree
      exact (secondFree (mem_append_right _ mem_cons_self)).elim

/-- A text is cut in one way at its first separator. -/
theorem eq_of_cut_eq {first second firstTail secondTail : List Letter} {separator : Letter}
    (same : first ++ separator :: firstTail = second ++ separator :: secondTail)
    (firstFree : separator ∉ first) (secondFree : separator ∉ second) :
    first = second ∧ firstTail = secondTail := by
  have reversed : firstTail.reverse ++ separator :: first.reverse =
      secondTail.reverse ++ separator :: second.reverse := by
    simpa using congrArg reverse same
  have tails := reverse_injective
    (eq_of_append_cons_eq reversed (by simpa using firstFree) (by simpa using secondFree))
  rw [tails] at same
  exact ⟨append_cancel_right same, tails⟩

/-- A text with a separator can be cut at the last one. -/
theorem exists_last_cut [DecidableEq Letter] {text : List Letter} {separator : Letter}
    (present : separator ∈ text) :
    ∃ first rest, text = first ++ separator :: rest ∧ separator ∉ rest := by
  obtain ⟨rest, first, reversed, free⟩ :=
    eq_append_cons_of_mem (mem_reverse.mpr present)
  refine ⟨first.reverse, rest.reverse, ?_, fun member => free (mem_reverse.mp member)⟩
  have cut := congrArg reverse reversed
  rw [reverse_reverse, reverse_append, reverse_cons, append_assoc] at cut
  exact cut

/-- Each of the joined texts can be found in the whole. -/
theorem infix_intercalate {separator part : List Letter} {parts : List (List Letter)}
    (member : part ∈ parts) : part <:+: separator.intercalate parts := by
  induction parts with
  | nil => cases member
  | cons first rest ih =>
    rcases mem_cons.mp member with rfl | later
    · cases rest with
      | nil => exact ⟨[], [], by simp⟩
      | cons second others =>
        rw [intercalate_cons_cons]
        exact ((prefix_append part separator).trans (prefix_append _ _)).isInfix
    · obtain ⟨second, others, rfl⟩ := exists_cons_of_ne_nil (ne_nil_of_mem later)
      rw [intercalate_cons_cons]
      exact (ih later).trans (suffix_append _ _).isInfix

/-- The parts of a text between its separators; the last of at most `count` parts
holds the rest. -/
def splitn [DecidableEq Letter] (separator : Letter) : Nat → List Letter → List (List Letter)
  | 0, _ => []
  | 1, text => [text]
  | count + 2, text =>
    match text.dropWhile (· ≠ separator) with
    | [] => [text]
    | _ :: rest => text.takeWhile (· ≠ separator) :: splitn separator (count + 1) rest

variable [DecidableEq Letter] {separator : Letter}

@[simp]
theorem splitn_one (text : List Letter) : splitn separator 1 text = [text] := rfl

/-- A part without a separator is split off at the separator behind it. -/
theorem splitn_append_cons {first : List Letter} (free : separator ∉ first)
    (count : Nat) (rest : List Letter) :
    splitn separator (count + 2) (first ++ separator :: rest) =
      first :: splitn separator (count + 1) rest := by
  have plain : ∀ letter ∈ first, decide (letter ≠ separator) = true := by
    intro letter member
    simpa using ne_of_mem_of_not_mem member free
  rw [splitn, dropWhile_append_of_pos plain, takeWhile_append_of_pos plain]
  simp

theorem splitn_of_free {text : List Letter} (free : separator ∉ text) (count : Nat) :
    splitn separator (count + 1) text = [text] := by
  cases count with
  | zero => rfl
  | succ count =>
    have nothing : text.dropWhile (· ≠ separator) = [] := by
      simpa [dropWhile_eq_nil_iff] using fun letter member => ne_of_mem_of_not_mem member free
    simp only [splitn, nothing]

variable (separator) in
/-- A text of several allowed parts has no separator, or is cut at its first one. -/
theorem splitn_cases (count : Nat) (text : List Letter) :
    (separator ∉ text ∧ splitn separator (count + 2) text = [text]) ∨
      ∃ first rest, text = first ++ separator :: rest ∧ separator ∉ first ∧
        splitn separator (count + 2) text = first :: splitn separator (count + 1) rest := by
  by_cases present : separator ∈ text
  · obtain ⟨first, rest, rfl, free⟩ := eq_append_cons_of_mem present
    exact .inr ⟨first, rest, rfl, free, splitn_append_cons free count rest⟩
  · exact .inl ⟨present, splitn_of_free present (count + 1)⟩

/-- The texts from `front` up to `front ++ stop` are those that continue `front` by
a text below `stop`. -/
theorem mem_range_iff {Letter : Type u} [LinearOrder Letter] {front stop text : List Letter} :
    front ≤ text ∧ text < front ++ stop ↔ ∃ rest, text = front ++ rest ∧ rest < stop := by
  rw [← not_lt]
  induction front generalizing text with
  | nil => simp
  | cons letter front ih =>
    cases text with
    | nil => simp
    | cons other text =>
      rw [cons_append, cons_lt_cons_iff, cons_lt_cons_iff]
      constructor
      · rintro ⟨above, below | ⟨rfl, below⟩⟩
        · exact (above (.inl below)).elim
        · obtain ⟨rest, rfl, short⟩ := ih.mp ⟨fun less => above (.inr ⟨rfl, less⟩), below⟩
          exact ⟨rest, rfl, short⟩
      · rintro ⟨rest, same, short⟩
        obtain ⟨rfl, rfl⟩ := cons.inj same
        have within := ih.mpr ⟨rest, rfl, short⟩
        refine ⟨?_, .inr ⟨rfl, within.2⟩⟩
        rintro (less | ⟨-, less⟩)
        · exact lt_irrefl _ less
        · exact within.1 less

end Text
