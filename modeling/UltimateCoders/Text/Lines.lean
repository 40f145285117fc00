import Mathlib.Data.List.Basic

/-! # Lines

A text is cut into lines that keep what ends them. A carriage return and a line feed that follow
one another end one line.
-/

namespace Text

/-- The characters that end a line. -/
def isLineBreak (char : Char) : Bool :=
  (0xA ≤ char.toNat && char.toNat ≤ 0xD) || (0x1C ≤ char.toNat && char.toNat ≤ 0x1E) ||
    [0x85, 0x2028, 0x2029].contains char.toNat

/-- Put a character in front of the first line. -/
def ontoFirst (char : Char) : List (List Char) → List (List Char)
  | [] => [[char]]
  | line :: rest => (char :: line) :: rest

/-- `str.splitlines(keepends=True)`. -/
def splitLines : List Char → List (List Char)
  | [] => []
  | '\r' :: '\n' :: rest => ['\r', '\n'] :: splitLines rest
  | char :: rest =>
    if isLineBreak char then [char] :: splitLines rest else ontoFirst char (splitLines rest)

theorem flatten_ontoFirst (char : Char) (lines : List (List Char)) :
    (ontoFirst char lines).flatten = char :: lines.flatten := by
  cases lines <;> rfl

/-- The lines together are the text. -/
theorem flatten_splitLines (text : List Char) : (splitLines text).flatten = text := by
  fun_induction splitLines text with
  | case1 => rfl
  | case2 rest ih => simp [ih]
  | case3 char rest _ breaks ih => simp [ih]
  | case4 char rest _ continues ih => rw [flatten_ontoFirst, ih]

theorem splitLines_eq_nil {text : List Char} : splitLines text = [] ↔ text = [] := by
  constructor
  · intro none
    rw [← flatten_splitLines text, none]
    rfl
  · rintro rfl
    rfl

/-- The line has a break at its end that no line feed after it belongs to. -/
def Ended (line : List Char) : Prop :=
  ∃ char ∈ line.getLast?, isLineBreak char = true ∧ char ≠ '\r'

theorem mem_ontoFirst {line : List Char} {char : Char} {parts : List (List Char)}
    (member : line ∈ ontoFirst char parts) :
    (∃ tail, line = char :: tail ∧ (tail = [] ∨ tail ∈ parts)) ∨ line ∈ parts := by
  cases parts with
  | nil => exact .inl ⟨[], List.mem_singleton.mp member, .inl rfl⟩
  | cons first rest =>
    rcases List.mem_cons.mp member with same | later
    · exact .inl ⟨first, same, .inr List.mem_cons_self⟩
    · exact .inr (List.mem_cons_of_mem _ later)

/-- A line of a text that has its end is the first line wherever it begins a text. -/
theorem splitLines_append {text line : List Char} (member : line ∈ splitLines text)
    (ended : Ended line) (rest : List Char) :
    splitLines (line ++ rest) = line :: splitLines rest := by
  fun_induction splitLines text generalizing line with
  | case1 => cases member
  | case2 text ih =>
    rcases List.mem_cons.mp member with rfl | later
    · rfl
    · exact ih later ended
  | case3 char text _ breaks ih =>
    rcases List.mem_cons.mp member with rfl | later
    · obtain ⟨last, same, -, noReturn⟩ := ended
      obtain rfl : char = last := Option.some.inj same
      rw [List.singleton_append, splitLines.eq_3 _ _ fun _ is _ => noReturn is, if_pos breaks]
    · exact ih later ended
  | case4 char text _ continues ih =>
    rcases mem_ontoFirst member with ⟨tail, rfl, inner⟩ | later
    · obtain ⟨last, same, breaks, noReturn⟩ := ended
      cases tail with
      | nil =>
        obtain rfl : char = last := Option.some.inj same
        exact absurd breaks continues
      | cons next tail =>
        have plain : char ≠ '\r' := by
          rintro rfl
          exact continues rfl
        rw [List.cons_append, splitLines.eq_3 _ _ fun _ is _ => plain is, if_neg continues,
          ih (inner.resolve_left (by simp)) ⟨last, same, breaks, noReturn⟩]
        rfl
    · exact ih later ended

/-- Lines of texts that have their ends come apart again as they were put together. -/
theorem splitLines_flatten {lines : List (List Char)}
    (cut : ∀ line ∈ lines, ∃ text, line ∈ splitLines text)
    (ended : ∀ line ∈ lines, Ended line) : splitLines lines.flatten = lines := by
  induction lines with
  | nil => rfl
  | cons line rest ih =>
    obtain ⟨text, member⟩ := cut line List.mem_cons_self
    rw [List.flatten_cons, splitLines_append member (ended line List.mem_cons_self),
      ih (fun other later => cut other (List.mem_cons_of_mem _ later))
        fun other later => ended other (List.mem_cons_of_mem _ later)]

end Text
