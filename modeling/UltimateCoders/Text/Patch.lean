import Mathlib.Algebra.GroupWithZero.Nat
import Mathlib.Data.List.Perm.Basic
import Mathlib.Data.List.Sort
import UltimateCoders.Text.SequenceMatcher

/-! # Patches

Changes of a sequence that are applied one after another, in the order in which they begin. The
changes between blocks that two sequences have in common lead from one to the other. Changes from
two sides that keep apart can be applied in either order, unless they begin at one place.
-/

namespace Text

open List

universe u

variable {Item : Type u}

/-- Items that take the place of those from one position to another. -/
structure Change (Item : Type u) where
  start : Nat
  stop : Nat
  newItems : List Item
  deriving DecidableEq

def Opcode.toChange (second : List Item) (opcode : Opcode) : Change Item where
  start := opcode.i1
  stop := opcode.i2
  newItems := slice second opcode.j1 opcode.j2

/-- What a sequence becomes from a position on. -/
def patched (base : List Item) : Nat → List (Change Item) → List Item
  | position, [] => base.drop position
  | position, change :: rest =>
    slice base position change.start ++ change.newItems ++
      patched base (max (max position (min change.start base.length)) change.stop) rest

section Rebuilding

variable {a b : List Item} {alo blo : Nat}

theorem slice_append_drop (items : List Item) {start mid : Nat} (ordered : start ≤ mid) :
    slice items start mid ++ items.drop mid = items.drop start := by
  have rest : items.drop mid = (items.drop start).drop (mid - start) := by
    rw [drop_drop, Nat.add_sub_cancel' ordered]
  rw [slice_eq, rest, take_append_drop]

theorem slice_length (items : List Item) (start : Nat) :
    slice items start items.length = items.drop start := by
  rw [slice, take_length]

variable {blocks : List Match} {ahi bhi : Nat}

/-- The changes between common blocks lead from the first sequence to the second. -/
theorem patched_gaps (aligned : Aligned a b a.length b.length alo blo blocks) {p q : Nat}
    (aPending : p ≤ alo) (bPending : q ≤ blo) (pending : slice a p alo = slice b q blo) :
    patched a p ((gaps alo blo (blocks ++ [⟨a.length, b.length, 0⟩])).map (Opcode.toChange b)) =
      b.drop q := by
  induction blocks generalizing alo blo p q with
  | nil =>
    obtain ⟨aOrdered, bOrdered⟩ := aligned
    rw [nil_append, gaps]
    split
    · have reached : max (max p (min alo a.length)) a.length = a.length := by omega
      simp only [gaps, map_cons, map_nil, patched, Opcode.toChange, reached,
        drop_length, append_nil, pending, slice_length]
      exact slice_append_drop b bPending
    · rename_i closed
      change ¬ (alo < a.length ∨ blo < b.length) at closed
      have aEnd : alo = a.length := by omega
      have bEnd : blo = b.length := by omega
      subst aEnd bEnd
      rw [slice_length, slice_length] at pending
      simpa [gaps, patched] using pending
  | cons found rest ih =>
    obtain ⟨common, aligned⟩ := aligned
    have aFrom := common.aFrom
    have bFrom := common.bFrom
    rw [cons_append, gaps]
    split
    · have below := common.aBelow
      have position : max (max p (min alo a.length)) found.a = found.a := by omega
      simp only [map_cons, patched, Opcode.toChange, position]
      rw [ih aligned (Nat.le_add_right _ _) (Nat.le_add_right _ _) common.slice_eq, pending,
        append_assoc, slice_append_drop b bFrom, slice_append_drop b bPending]
    · have aSame : alo = found.a := by omega
      have bSame : blo = found.b := by omega
      subst aSame bSame
      refine ih aligned (by omega) (by omega) ?_
      rw [← slice_append a aPending (Nat.le_add_right _ _), pending, common.slice_eq,
        slice_append b bPending (Nat.le_add_right _ _)]

theorem gaps_from (aligned : Aligned a b ahi bhi alo blo blocks) :
    ∀ opcode ∈ gaps alo blo blocks, alo ≤ opcode.i1 ∧ opcode.i1 ≤ opcode.i2 := by
  induction blocks generalizing alo blo with
  | nil => simp [gaps]
  | cons found rest ih =>
    obtain ⟨common, aligned⟩ := aligned
    have aFrom := common.aFrom
    intro opcode member
    rw [gaps] at member
    split at member
    · rcases mem_cons.mp member with rfl | later
      · exact ⟨le_rfl, aFrom⟩
      · have bounds := ih aligned opcode later
        omega
    · have bounds := ih aligned opcode member
      omega

/-- Between blocks that are not empty the changes do not touch one another. -/
theorem gaps_apart (aligned : Aligned a b ahi bhi alo blo blocks) (last : Match)
    (lastAligned : Common a b ahi ahi bhi bhi last) (nonempty : ∀ found ∈ blocks, 0 < found.size) :
    (gaps alo blo (blocks ++ [last])).Pairwise fun first second => first.i2 < second.i1 := by
  induction blocks generalizing alo blo with
  | nil =>
    rw [nil_append, gaps]
    split <;> simp [gaps]
  | cons found rest ih =>
    obtain ⟨common, aligned⟩ := aligned
    have positive := nonempty found mem_cons_self
    have later := ih aligned fun other member => nonempty other (mem_cons_of_mem _ member)
    have ended : Aligned a b ahi bhi ahi bhi [last] :=
      ⟨lastAligned, lastAligned.aBelow, lastAligned.bBelow⟩
    have whole := aligned.append ended
    rw [cons_append, gaps]
    split
    · refine pairwise_cons.mpr ⟨fun opcode member => ?_, later⟩
      have bounds := gaps_from whole opcode member
      simp only
      omega
    · exact later

theorem gaps_changed {bhi : Nat} {ahi : Nat} (aligned : Aligned a b ahi bhi alo blo blocks) :
    ∀ opcode ∈ gaps alo blo blocks,
      (opcode.i1 < opcode.i2 ∨ opcode.j1 < opcode.j2) ∧ opcode.j2 ≤ bhi := by
  induction blocks generalizing alo blo with
  | nil => simp [gaps]
  | cons found rest ih =>
    obtain ⟨common, aligned⟩ := aligned
    have below := common.bBelow
    intro opcode member
    rw [gaps] at member
    split at member
    · rename_i changed
      rcases mem_cons.mp member with rfl | later
      · exact ⟨changed, by simp only; omega⟩
      · exact ih aligned opcode later
    · exact ih aligned opcode member

theorem Aligned.room (aligned : Aligned a b ahi bhi alo blo blocks) :
    alo + (blocks.map Match.size).sum ≤ ahi := by
  induction blocks generalizing alo blo with
  | nil => exact aligned.1
  | cons found rest ih =>
    obtain ⟨common, aligned⟩ := aligned
    have room := ih aligned
    have aFrom := common.aFrom
    simp only [map_cons, sum_cons]
    omega

/-- Blocks that take up the whole first sequence leave out nothing of it. -/
theorem gaps_of_full (aligned : Aligned a b ahi bhi alo blo blocks)
    (full : alo + (blocks.map Match.size).sum = ahi) :
    ∀ opcode ∈ gaps alo blo blocks, opcode.i1 = opcode.i2 := by
  induction blocks generalizing alo blo with
  | nil => simp [gaps]
  | cons found rest ih =>
    obtain ⟨common, aligned⟩ := aligned
    have room := aligned.room
    have aFrom := common.aFrom
    simp only [map_cons, sum_cons] at full
    have later := ih aligned (by omega)
    intro opcode member
    rw [gaps] at member
    split at member
    · rcases mem_cons.mp member with rfl | inside
      · simp only
        omega
      · exact later opcode inside
    · exact later opcode member

end Rebuilding

section Order

variable {changes others : List (Change Item)} {change : Change Item} {start : Nat}

/-- Put changes into the order in which they begin; those that begin together keep theirs. -/
def inStartOrder (changes : List (Change Item)) : List (Change Item) :=
  changes.insertionSort fun one other => one.start ≤ other.start

instance : Std.Total fun one other : Change Item => one.start ≤ other.start :=
  ⟨fun one other => Nat.le_total one.start other.start⟩

instance : IsTrans (Change Item) fun one other => one.start ≤ other.start :=
  ⟨fun _ _ _ => Nat.le_trans⟩

theorem inStartOrder_perm (changes : List (Change Item)) :
    (inStartOrder changes).Perm changes :=
  perm_insertionSort _ _

theorem inStartOrder_ordered (changes : List (Change Item)) :
    (inStartOrder changes).Pairwise fun one other => one.start ≤ other.start :=
  pairwise_insertionSort _ _

theorem inStartOrder_of_ordered
    (ordered : changes.Pairwise fun one other => one.start ≤ other.start) :
    inStartOrder changes = changes :=
  ordered.insertionSort_eq

/-- The new items of the changes that begin at a position. -/
def broughtAt (start : Nat) (changes : List (Change Item)) : List Item :=
  (changes.filter (·.start = start)).flatMap Change.newItems

theorem broughtAt_append (start : Nat) (changes others : List (Change Item)) :
    broughtAt start (changes ++ others) = broughtAt start changes ++ broughtAt start others := by
  simp [broughtAt]

/-- Changes that begin together stay as they were. -/
theorem filter_inStartOrder (changes : List (Change Item)) (start : Nat) :
    (inStartOrder changes).filter (·.start = start) = changes.filter (·.start = start) := by
  have together : (changes.filter (·.start = start)).Pairwise
      fun one other => one.start ≤ other.start := by
    refine pairwise_of_forall_mem_list fun one oneMem other otherMem => ?_
    have oneStart := of_decide_eq_true (mem_filter.mp oneMem).2
    have otherStart := of_decide_eq_true (mem_filter.mp otherMem).2
    omega
  have kept := (sublist_insertionSort together filter_sublist).filter
    (fun change => change.start = start)
  simp only [filter_filter, Bool.and_self] at kept
  exact (kept.eq_of_length ((inStartOrder_perm changes).filter _).length_eq.symm).symm

theorem broughtAt_inStartOrder (start : Nat) (changes : List (Change Item)) :
    broughtAt start (inStartOrder changes) = broughtAt start changes := by
  rw [broughtAt, filter_inStartOrder, broughtAt]

/-- Of changes in order those that begin first come first. -/
theorem filter_append_of_ordered
    (ordered : changes.Pairwise fun one other => one.start ≤ other.start)
    (least : ∀ change ∈ changes, start ≤ change.start) :
    changes.filter (·.start = start) ++ changes.filter (·.start ≠ start) = changes := by
  induction changes with
  | nil => rfl
  | cons change changes ih =>
    obtain ⟨before, ordered⟩ := pairwise_cons.mp ordered
    obtain ⟨first, least⟩ := forall_mem_cons.mp least
    by_cases here : change.start = start
    · simpa [here] using ih ordered least
    · have none : changes.filter (·.start = start) = [] := by
        refine filter_eq_nil_iff.mpr fun other member same => ?_
        have := before other member
        have := of_decide_eq_true same
        omega
      have rest := ih ordered least
      rw [none, nil_append] at rest
      rw [filter_cons_of_neg (by simpa using here), none,
        filter_cons_of_pos (by simpa using here), rest, nil_append]

def reached (base : List Item) (position : Nat) (changes : List (Change Item)) : Nat :=
  changes.foldl
    (fun position change => max (max position (min change.start base.length)) change.stop) position

variable {base : List Item} {position : Nat}

theorem reached_perm (perm : changes.Perm others) :
    reached base position changes = reached base position others := by
  have : RightCommutative fun (position : Nat) (change : Change Item) =>
      max (max position (min change.start base.length)) change.stop :=
    ⟨fun _ _ _ => by ac_rfl⟩
  exact perm.foldl_eq position

theorem patched_together (base : List Item) (position : Nat) (rest : List (Change Item))
    (nonempty : changes ≠ []) (together : ∀ change ∈ changes, change.start = start) :
    patched base position (changes ++ rest) =
      slice base position start ++ (changes.flatMap Change.newItems ++
        patched base (reached base position changes) rest) := by
  induction changes generalizing position with
  | nil => exact absurd rfl nonempty
  | cons change changes ih =>
    obtain ⟨here, together⟩ := forall_mem_cons.mp together
    cases changes with
    | nil =>
      simp only [cons_append, nil_append, patched, reached, flatMap_cons,
        flatMap_nil, append_nil, foldl_cons, foldl_nil, here,
        append_assoc]
    | cons next changes =>
      have done : slice base (max (max position (min start base.length)) change.stop) start =
          [] := by
        refine drop_eq_nil_of_le ?_
        rw [length_take]
        omega
      rw [cons_append, patched, ih _ (cons_ne_nil _ _) together, here, done]
      simp only [reached, foldl_cons, here, nil_append, flatMap_cons, append_assoc]

/-- The changes that begin first are applied first. -/
theorem patched_first (base : List Item) (position : Nat)
    (ordered : changes.Pairwise fun one other => one.start ≤ other.start)
    (least : ∀ change ∈ changes, start ≤ change.start)
    (present : changes.filter (·.start = start) ≠ []) :
    patched base position changes =
      slice base position start ++ (broughtAt start changes ++
        patched base (reached base position (changes.filter (·.start = start)))
          (changes.filter (·.start ≠ start))) := by
  have together : ∀ change ∈ changes.filter (·.start = start), change.start = start :=
    fun change member => of_decide_eq_true (mem_filter.mp member).2
  have applied := patched_together base position (changes.filter (·.start ≠ start)) present together
  rwa [filter_append_of_ordered ordered least] at applied

theorem broughtAt_filter_ne (start other : Nat) (changes : List (Change Item)) :
    broughtAt other (changes.filter (·.start ≠ start)) =
      if other = start then [] else broughtAt other changes := by
  unfold broughtAt
  rw [filter_filter]
  split
  · rename_i same
    subst same
    simp
  · rename_i apart
    congr 1
    refine filter_congr fun change _ => ?_
    by_cases here : change.start = other
    · simp [here, apart]
    · simp [here]

/-- Two orders of changes lead to the same exactly if they bring the same at every position. -/
theorem patched_perm (perm : changes.Perm others)
    (ordered : changes.Pairwise fun one other => one.start ≤ other.start)
    (othersOrdered : others.Pairwise fun one other => one.start ≤ other.start) :
    (patched base position changes).length = (patched base position others).length ∧
      (patched base position changes = patched base position others ↔
        ∀ start, broughtAt start changes = broughtAt start others) := by
  induction long : changes.length using Nat.strong_induction_on generalizing changes others position
  rename_i count ih
  rcases changes with _ | ⟨first, later⟩
  · obtain rfl := perm.nil_eq
    simp
  · obtain ⟨start, startEq⟩ : ∃ start, start = first.start := ⟨_, rfl⟩
    obtain ⟨changes, whole⟩ : ∃ changes, changes = first :: later := ⟨_, rfl⟩
    rw [← whole] at perm ordered long ⊢
    have least : ∀ change ∈ changes, start ≤ change.start := by
      rw [whole, startEq]
      exact forall_mem_cons.mpr ⟨le_rfl, (pairwise_cons.mp (whole ▸ ordered)).1⟩
    have present : changes.filter (·.start = start) ≠ [] := by simp [whole, startEq]
    have group := perm.filter fun change => change.start = start
    have rest := perm.filter fun change => change.start ≠ start
    have fewer : (changes.filter (·.start ≠ start)).length < count := by
      rw [← long, length_filter_lt_length_iff_exists]
      exact ⟨first, by simp [whole], by simp [startEq]⟩
    obtain ⟨restLong, restSame⟩ := @ih _ fewer _ _
      (reached base position (changes.filter (·.start = start))) rest
      (ordered.filter _) (othersOrdered.filter _) rfl
    have broughtLong : (broughtAt start changes).length = (broughtAt start others).length :=
      (group.flatMap_right _).length_eq
    rw [patched_first base position ordered least present,
      patched_first base position othersOrdered
        (fun change member => least change (perm.mem_iff.mpr member))
        (fun none => present (perm_nil.mp (none ▸ group))), ← reached_perm group]
    refine ⟨by simp only [length_append, broughtLong, restLong], ?_⟩
    rw [append_right_inj]
    constructor
    · intro same other
      obtain ⟨here, rest⟩ := append_inj same broughtLong
      have apart := restSame.mp rest other
      rw [broughtAt_filter_ne, broughtAt_filter_ne] at apart
      by_cases first : other = start
      · rw [first, here]
      · rwa [if_neg first, if_neg first] at apart
    · intro same
      rw [same start]
      refine congrArg _ (restSame.mpr fun other => ?_)
      rw [broughtAt_filter_ne, broughtAt_filter_ne, same other]

theorem mem_of_mem_patched {item : Item} (member : item ∈ patched base position changes) :
    item ∈ base ∨ ∃ change ∈ changes, item ∈ change.newItems := by
  induction changes generalizing position with
  | nil => exact .inl (mem_of_mem_drop member)
  | cons change changes ih =>
    rw [patched, mem_append, mem_append] at member
    rcases member with (kept | brought) | later
    · exact .inl (mem_of_mem_slice kept)
    · exact .inr ⟨change, mem_cons_self, brought⟩
    · refine (ih later).imp_right fun found => ?_
      obtain ⟨other, inside, brought⟩ := found
      exact ⟨other, mem_cons_of_mem _ inside, brought⟩

/-- Insertions add their items to those of the base. -/
theorem length_patched_insertions
    (ordered : changes.Pairwise fun one other => one.start ≤ other.start)
    (insertions : ∀ change ∈ changes, change.start = change.stop)
    (inside : ∀ change ∈ changes, position ≤ change.start ∧ change.start ≤ base.length)
    (within : position ≤ base.length) :
    (patched base position changes).length + position =
      base.length + (changes.map fun change => change.newItems.length).sum := by
  induction changes generalizing position with
  | nil =>
    simp only [patched, length_drop, map_nil, sum_nil]
    omega
  | cons change changes ih =>
    obtain ⟨before, ordered⟩ := pairwise_cons.mp ordered
    obtain ⟨here, insertions⟩ := forall_mem_cons.mp insertions
    obtain ⟨⟨first, bounded⟩, inside⟩ := forall_mem_cons.mp inside
    have settled : max (max position (min change.start base.length)) change.stop =
        change.start := by omega
    have rest := @ih change.start ordered insertions
      (fun other member => ⟨before other member, (inside other member).2⟩) bounded
    have cut : (slice base position change.start).length = change.start - position := by
      rw [slice_eq, length_take, length_drop]
      omega
    simp only [patched, settled, length_append, cut, map_cons, sum_cons]
    omega

/-- The order of two sides does not matter exactly if what they bring commutes everywhere. -/
theorem patched_inStartOrder_append (base : List Item) (first second : List (Change Item)) :
    (patched base 0 (inStartOrder (first ++ second))).length =
        (patched base 0 (inStartOrder (second ++ first))).length ∧
      (patched base 0 (inStartOrder (first ++ second)) =
          patched base 0 (inStartOrder (second ++ first)) ↔
        ∀ start, broughtAt start first ++ broughtAt start second =
          broughtAt start second ++ broughtAt start first) := by
  have perm : (inStartOrder (first ++ second)).Perm (inStartOrder (second ++ first)) :=
    ((inStartOrder_perm _).trans perm_append_comm).trans (inStartOrder_perm _).symm
  simpa only [broughtAt_inStartOrder, broughtAt_append] using
    patched_perm perm (inStartOrder_ordered _) (inStartOrder_ordered _)

end Order

end Text
