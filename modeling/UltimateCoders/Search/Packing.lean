import Mathlib.Data.List.Infix

/-! # Packing

Items are taken from the front of a list as long as all that is taken fits. If what fits
still fits with its last item left out, the result is the longest part at the front of the
list that fits.
-/

namespace Search

universe u

variable {Item : Type u}

/-- Take items until one does not fit, and tell whether there was such a one. -/
def pack (fits : List Item → Bool) (kept : List Item) : List Item → List Item × Bool
  | [] => (kept, false)
  | item :: rest =>
    if fits (kept ++ [item]) then pack fits (kept ++ [item]) rest else (kept, true)

/-- What remains of a fitting list without its last item fits. -/
def FitsShorter (fits : List Item → Bool) : Prop :=
  ∀ kept item, fits (kept ++ [item]) = true → fits kept = true

/-- The longest part at the front of a list that fits. -/
structure Packed (fits : List Item → Bool) (items kept : List Item) (dropped : Bool) : Prop where
  front : kept <+: items
  room : fits kept = true
  longest : ∀ other, other <+: items → fits other = true → other <+: kept
  dropped_iff : dropped = true ↔ kept ≠ items

variable {fits : List Item → Bool}

theorem FitsShorter.of_append (shorter : FitsShorter fits) (kept : List Item) {more : List Item}
    (fitting : fits (kept ++ more) = true) : fits kept = true := by
  induction more using List.reverseRecOn with
  | nil => rwa [List.append_nil] at fitting
  | append_singleton more item ih => exact ih (shorter _ item (by rwa [List.append_assoc]))

/-- Once an item does not fit, nothing longer does. -/
theorem FitsShorter.front_of_not_fits (shorter : FitsShorter fits) {kept rest other : List Item}
    {item : Item} (full : fits (kept ++ [item]) = false) (front : other <+: kept ++ item :: rest)
    (fitting : fits other = true) : other <+: kept := by
  have longer : kept ++ [item] <+: kept ++ item :: rest := ⟨rest, by simp⟩
  rcases List.prefix_or_prefix_of_prefix front longer with inside | ⟨more, rfl⟩
  · rcases List.prefix_concat_iff.mp inside with rfl | inside
    · exact absurd fitting (by simp [full])
    · exact inside
  · exact absurd (shorter.of_append _ fitting) (by simp [full])

theorem packed_pack (shorter : FitsShorter fits) (items : List Item) {kept : List Item}
    (room : fits kept = true) :
    Packed fits (kept ++ items) (pack fits kept items).1 (pack fits kept items).2 := by
  induction items generalizing kept with
  | nil =>
    simp only [pack, List.append_nil]
    exact ⟨List.prefix_rfl, room, fun _ front _ => front, by simp⟩
  | cons item rest ih =>
    unfold pack
    split_ifs with fitting
    · simpa using ih fitting
    · rw [Bool.not_eq_true] at fitting
      exact ⟨List.prefix_append _ _, room,
        fun _ front fitted => shorter.front_of_not_fits fitting front fitted, by simp⟩

end Search
