import UltimateCoders.Text.Lines
import UltimateCoders.Text.Split

/-! # Lines without their ends

A text is cut into lines at its line feeds, and at carriage returns before them. Lines that are
joined by line feeds are found again, except for an empty line at the end and for carriage returns
at the ends of lines.
-/

namespace Text

open List

/-- `str::lines`: a line ends with a line feed, and with a carriage return before it. -/
def lines : List Char → List (List Char)
  | [] => []
  | '\n' :: rest => [] :: lines rest
  | '\r' :: '\n' :: rest => [] :: lines rest
  | char :: rest => ontoFirst char (lines rest)

/-- Join lines by line feeds. -/
def unlines (parts : List (List Char)) : List Char := ['\n'].intercalate parts

/-- Lines that are found again once they are joined: the last one is not empty, and no other one
ends with a carriage return. -/
structure EndsCleanly (parts : List (List Char)) : Prop where
  last : parts.getLast? ≠ some []
  returns : ∀ part ∈ parts.dropLast, part.getLast? ≠ some '\r'

/-- Leave out a carriage return at the end. -/
def stripReturn (line : List Char) : List Char :=
  if line.getLast? = some '\r' then line.dropLast else line

variable {line : List Char} {char : Char}

/-- No line has a line feed in it. -/
theorem newline_notMem_of_mem_lines {text line : List Char} (member : line ∈ lines text) :
    '\n' ∉ line := by
  fun_induction lines text generalizing line with
  | case1 => cases member
  | case2 rest ih =>
    rcases mem_cons.mp member with rfl | later
    · exact not_mem_nil
    · exact ih later
  | case3 rest ih =>
    rcases mem_cons.mp member with rfl | later
    · exact not_mem_nil
    · exact ih later
  | case4 char rest noNewline _ ih =>
    have plain : char ≠ '\n' := fun same => noNewline (by rw [same])
    rcases mem_ontoFirst member with ⟨tail, rfl, empty | inner⟩ | later
    · simp [empty, plain.symm]
    · simp [plain.symm, ih inner]
    · exact ih later

theorem lines_cons {rest : List Char} (plain : char ≠ '\n')
    (apart : char = '\r' → ∀ tail, rest ≠ '\n' :: tail) :
    lines (char :: rest) = ontoFirst char (lines rest) := by
  rw [lines]
  · exact plain
  · exact fun tail same next => apart same tail next

theorem stripReturn_cons {rest : List Char} (apart : char = '\r' → rest ≠ []) :
    stripReturn (char :: rest) = char :: stripReturn rest := by
  cases rest with
  | nil =>
    have plain : char ≠ '\r' := fun same => apart same rfl
    simp [stripReturn, plain]
  | cons next rest =>
    unfold stripReturn
    rw [getLast?_cons_cons]
    split <;> rfl

/-- A line ends at the first line feed. -/
theorem lines_append_newline (rest : List Char) (free : '\n' ∉ line) :
    lines (line ++ '\n' :: rest) = stripReturn line :: lines rest := by
  induction line with
  | nil => rfl
  | cons char line ih =>
    have plain : char ≠ '\n' := fun same => free (by simp [same])
    have tailFree : '\n' ∉ line := fun member => free (mem_cons_of_mem _ member)
    by_cases ends : char = '\r' ∧ line = []
    · obtain ⟨rfl, rfl⟩ := ends
      rfl
    · have continues : char = '\r' → line ≠ [] := fun same empty => ends ⟨same, empty⟩
      rw [stripReturn_cons continues, cons_append, lines_cons plain, ih tailFree]
      · rfl
      · intro same tail next
        cases line with
        | nil => exact continues same rfl
        | cons first line =>
          have newline := (cons.inj next).1
          exact tailFree (by simp [newline])

theorem lines_of_free (nonempty : line ≠ []) (free : '\n' ∉ line) :
    lines line = [line] := by
  induction line with
  | nil => exact absurd rfl nonempty
  | cons char line ih =>
    have plain : char ≠ '\n' := fun same => free (by simp [same])
    have tailFree : '\n' ∉ line := fun member => free (mem_cons_of_mem _ member)
    have unbroken : ∀ tail, line ≠ '\n' :: tail := fun tail next => tailFree (by simp [next])
    rw [lines_cons plain fun _ => unbroken]
    cases line with
    | nil => rfl
    | cons first line =>
      rw [ih (cons_ne_nil _ _) tailFree]
      rfl

section Unlines

variable {parts : List (List Char)} {last : List Char}

theorem unlines_cons {part : List Char} (more : parts ≠ []) :
    unlines (part :: parts) = part ++ '\n' :: unlines parts := by
  cases parts with
  | nil => exact absurd rfl more
  | cons next rest => simp [unlines, intercalate_cons_cons]

/-- What is found again of joined lines. -/
theorem lines_unlines (free : ∀ part ∈ parts ++ [last], '\n' ∉ part) :
    lines (unlines (parts ++ [last])) =
      parts.map stripReturn ++ if last = [] then [] else [last] := by
  induction parts with
  | nil =>
    have lastFree := free last (by simp)
    rw [nil_append, unlines, intercalate_singleton]
    by_cases empty : last = []
    · simp [empty, lines]
    · simpa [empty] using lines_of_free empty lastFree
  | cons part parts ih =>
    have partFree := free part (by simp)
    rw [cons_append, unlines_cons (by simp), lines_append_newline _ partFree,
      ih fun other member => free other (mem_cons_of_mem _ member)]
    rfl

/-- At most an empty line at the end is lost. -/
theorem length_le_lines_unlines (free : ∀ part ∈ parts, '\n' ∉ part) :
    parts.length ≤ (lines (unlines parts)).length + 1 := by
  rcases eq_nil_or_concat' parts with rfl | ⟨front, last, rfl⟩
  · exact Nat.zero_le _
  · simp only [lines_unlines free, length_append, length_map, length_singleton]
    omega

theorem stripReturn_eq_self_iff {line : List Char} :
    stripReturn line = line ↔ line.getLast? ≠ some '\r' := by
  unfold stripReturn
  split
  · rename_i ends
    have nonempty : line ≠ [] := by
      rintro rfl
      simp at ends
    have shorter : line.dropLast ≠ line := fun same => by
      have long := congrArg length same
      have positive := length_pos_iff.mpr nonempty
      rw [length_dropLast] at long
      omega
    simp [shorter, ends]
  · rename_i ends
    simp [ends]

theorem map_stripReturn_eq_self_iff :
    parts.map stripReturn = parts ↔ ∀ part ∈ parts, part.getLast? ≠ some '\r' := by
  conv_lhs => rhs; rw [← map_id parts]
  rw [map_inj_left]
  exact forall₂_congr fun part _ => stripReturn_eq_self_iff

/-- Joined lines are found again exactly if they end cleanly. -/
theorem lines_unlines_iff (free : ∀ part ∈ parts, '\n' ∉ part) :
    lines (unlines parts) = parts ↔ EndsCleanly parts := by
  rcases eq_nil_or_concat' parts with rfl | ⟨front, last, rfl⟩
  · exact ⟨fun _ => ⟨by simp, by simp⟩, fun _ => rfl⟩
  · rw [lines_unlines free]
    by_cases empty : last = []
    · subst empty
      constructor
      · intro same
        have long := congrArg length same
        simp at long
      · intro clean
        exact absurd (by simp) clean.last
    · rw [if_neg empty, append_left_inj, map_stripReturn_eq_self_iff]
      constructor
      · intro plain
        exact ⟨by simpa using empty, by rwa [dropLast_concat]⟩
      · intro clean
        have plain := clean.returns
        rwa [dropLast_concat] at plain

/-- Lines are read off from the joined text if their number is known. -/
theorem unlines_inj {others : List (List Char)} (free : ∀ part ∈ parts, '\n' ∉ part)
    (othersFree : ∀ part ∈ others, '\n' ∉ part) (long : parts.length = others.length) :
    unlines parts = unlines others ↔ parts = others := by
  refine ⟨fun same => ?_, congrArg unlines⟩
  induction parts generalizing others with
  | nil => exact (length_eq_zero_iff.mp long.symm).symm
  | cons part parts ih =>
    cases others with
    | nil => simp at long
    | cons other others =>
      have lengths : parts.length = others.length := by simpa using long
      have partFree := free part mem_cons_self
      have otherFree := othersFree other mem_cons_self
      cases parts with
      | nil =>
        obtain rfl := length_eq_zero_iff.mp lengths.symm
        simpa [unlines] using same
      | cons next parts =>
        cases others with
        | nil => simp at lengths
        | cons otherNext others =>
          rw [unlines_cons (cons_ne_nil next parts),
            unlines_cons (cons_ne_nil otherNext others)] at same
          obtain ⟨rfl, tails⟩ := eq_of_cut_eq same partFree otherFree
          rw [ih (fun line member => free line (mem_cons_of_mem _ member))
            (fun line member => othersFree line (mem_cons_of_mem _ member))
            lengths tails]

end Unlines

end Text
