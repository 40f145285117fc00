import Mathlib.Data.List.Find
import Mathlib.Data.List.Flatten
import Mathlib.Data.List.Perm.Subperm
import UltimateCoders.Conflict.MergeLaws

/-! # The text of a merge with conflicts

Where changes overlap, the merged text shows the contents of both sides between markers. A change
is looked up in the first conflict whose region it begins in, and shown only where that region
begins; so what a side brings is written exactly if one of the conflicts of the change is the first
in whose region its own first line lies.
-/

namespace UltimateCoders.Conflict

open Text Change List

/-- The lines of a joined text, cut at its line feeds. -/
def cutLines (text : List Char) : List Line := text.splitOn '\n'

theorem cutLines_unlines {parts : List Line} (some : parts ≠ []) :
    cutLines (unlines parts) = parts.flatMap cutLines := by
  induction parts with
  | nil => exact absurd rfl some
  | cons part rest ih =>
    cases rest with
    | nil => simp [unlines]
    | cons next rest =>
      rw [unlines_cons (cons_ne_nil next rest), cutLines, splitOn_append_cons_self, flatMap_cons]
      exact congrArg (part.splitOn '\n' ++ ·) (ih (cons_ne_nil next rest))

theorem cutLines_of_free {line : Line} (free : '\n' ∉ line) : cutLines line = [line] :=
  splitOn_eq_singleton free

theorem flatMap_cutLines {parts : List Line} (free : ∀ part ∈ parts, '\n' ∉ part) :
    parts.flatMap cutLines = parts := by
  induction parts with
  | nil => rfl
  | cons part rest ih =>
    obtain ⟨first, others⟩ := forall_mem_cons.mp free
    rw [flatMap_cons, cutLines_of_free first, ih others]
    rfl

/-! ## Conflicts and their regions -/

/-- A change of ours and one of theirs. -/
abbrev ChangePair := LineChange × LineChange

/-- The changes that overlap, in the order in which their conflicts are found. -/
def overlapping (ours theirs : List LineChange) : List ChangePair :=
  ours.flatMap fun our => (theirs.filter fun their => overlaps our their).map fun their => (our, their)

namespace ChangePair

def start (pair : ChangePair) : Nat := min pair.1.start pair.2.start

def stop (pair : ChangePair) : Nat := max pair.1.stop pair.2.stop

/-- A change that begins at the position counts as one in the region. -/
def covers (pair : ChangePair) (position : Nat) : Bool :=
  decide (pair.start ≤ position ∧ position ≤ pair.stop)

def marker (base : List Line) (pair : ChangePair) : ConflictMarker :=
  conflictMarker base pair.1 pair.2

end ChangePair

variable {base : List Line} {ours theirs : List LineChange} {change : LineChange}
  {pair : ChangePair} {pairs : List ChangePair}

theorem mem_overlapping :
    pair ∈ overlapping ours theirs ↔
      pair.1 ∈ ours ∧ pair.2 ∈ theirs ∧ overlaps pair.1 pair.2 := by
  obtain ⟨our, their⟩ := pair
  simp only [overlapping, mem_flatMap, mem_map, mem_filter, decide_eq_true_eq, Prod.mk.injEq]
  constructor
  · rintro ⟨_, ourMem, _, ⟨theirMem, both⟩, rfl, rfl⟩
    exact ⟨ourMem, theirMem, both⟩
  · rintro ⟨ourMem, theirMem, both⟩
    exact ⟨our, ourMem, their, ⟨theirMem, both⟩, rfl, rfl⟩

theorem findConflicts_eq :
    findConflicts ours theirs base = (overlapping ours theirs).map (ChangePair.marker base) := by
  rw [findConflicts, overlapping, map_flatMap]
  refine flatMap_congr fun our _ => ?_
  induction theirs with
  | nil => rfl
  | cons their rest ih =>
    by_cases both : overlaps our their
    · simpa [both, ChangePair.marker] using ih
    · simpa [both] using ih

theorem covers_start_of_mem (member : pair ∈ overlapping ours theirs) :
    pair.covers pair.start = true := by
  obtain ⟨_, _, both⟩ := mem_overlapping.mp member
  unfold overlaps at both
  have inside : pair.start ≤ pair.stop := by
    unfold ChangePair.start ChangePair.stop
    omega
  exact decide_eq_true ⟨le_rfl, inside⟩

theorem inRegion_marker (small : base.length + 1 < 2 ^ 32) (inside : change.start ≤ base.length)
    (within : pair.stop ≤ base.length) (ordered : pair.start ≤ pair.stop) :
    inRegion change (pair.marker base) = pair.covers change.start := by
  have plain {position : Nat} (inside : position ≤ base.length) :
      lineNumber (position + 1) = position + 1 := Nat.mod_eq_of_lt (by omega)
  unfold inRegion ChangePair.marker conflictMarker ChangePair.covers
  change decide (lineNumber (pair.start + 1) ≤ lineNumber (change.start + 1) ∧
    change.start < lineNumber (pair.stop + 1)) = _
  rw [plain inside, plain within, plain (ordered.trans within)]
  simp only [decide_eq_decide]
  omega

/-! ## What is written -/

/-- A part of the merged text. -/
inductive Piece where
  /-- Lines of the base. -/
  | kept (start stop : Nat)
  /-- The lines of a change that is in no conflict. -/
  | change (change : LineChange)
  /-- The contents of both sides between markers. -/
  | conflict (pair : ChangePair)
  deriving DecidableEq

/-- The lines that stand for what a change brings; a blank one where it brings none. -/
def shownLines (change : LineChange) : List Line :=
  if change.newItems = [] then [[]] else change.newItems

namespace Piece

def lines (base : List Line) : Piece → List Line
  | .kept start stop => slice base start stop
  | .change change => change.newItems
  | .conflict pair =>
    "<<<<<<< ours".toList :: (shownLines pair.1 ++ "=======".toList ::
      (shownLines pair.2 ++ [">>>>>>> theirs".toList]))

def brought : Piece → List Line
  | .kept _ _ => []
  | .change change => change.newItems
  | .conflict pair => shownLines pair.1 ++ shownLines pair.2

/-- The positions of the lines of the base. -/
def positions : Piece → List Nat
  | .kept start stop => range' start (stop - start)
  | _ => []

end Piece

/-- What a turn of the loop writes of a change. -/
def writes (pairs : List ChangePair) (change : LineChange) : List Piece :=
  match pairs.find? (·.covers change.start) with
  | some pair => if change.start = pair.start then [.conflict pair] else []
  | none => [.change change]

/-- What the loop writes from a position of the base on. -/
def piecesFrom (base : List Line) (pairs : List ChangePair) : Nat → List LineChange → List Piece
  | position, [] => [.kept position base.length]
  | position, change :: rest =>
    .kept position change.start :: (writes pairs change ++
      piecesFrom base pairs (max (max position (min change.start base.length)) change.stop) rest)

/-- The parts of the merged text. -/
def pieces (base : List Line) (ours theirs : List LineChange) : List Piece :=
  piecesFrom base (overlapping ours theirs) 0 (inStartOrder (ours ++ theirs))

/-- What the loops rely on: changes within the base, their lines without line feeds. -/
structure Fitting (base : List Line) (change : LineChange) : Prop where
  forward : change.start ≤ change.stop
  inside : change.stop ≤ base.length
  free : ∀ line ∈ change.newItems, '\n' ∉ line

theorem cutLines_joined (free : ∀ line ∈ change.newItems, '\n' ∉ line) :
    cutLines (joined change.newItems).toList = shownLines change := by
  unfold shownLines
  rw [joined, String.toList_ofList]
  split
  · rename_i none
    rw [none]
    rfl
  · rename_i some
    rw [cutLines_unlines some, flatMap_cutLines free]

theorem flatMap_markedLines (ourFits : Fitting base pair.1) (theirFits : Fitting base pair.2) :
    (markedLines (pair.marker base)).flatMap cutLines = (Piece.conflict pair).lines base := by
  have our : cutLines (pair.marker base).ours.toList = shownLines pair.1 :=
    cutLines_joined ourFits.free
  have their : cutLines (pair.marker base).theirs.toList = shownLines pair.2 :=
    cutLines_joined theirFits.free
  have begins : cutLines "<<<<<<< ours".toList = ["<<<<<<< ours".toList] := rfl
  have between : cutLines "=======".toList = ["=======".toList] := rfl
  have ends : cutLines ">>>>>>> theirs".toList = [">>>>>>> theirs".toList] := rfl
  simp only [markedLines, flatMap_cons, flatMap_nil, our, their, begins, between, ends,
    Piece.lines, append_nil, cons_append, nil_append]

/-! ## The loop writes the pieces -/

section Loop

variable {changes processed rest : List LineChange} {rendering : Rendering}

structure Arranged (base : List Line) (pairs : List ChangePair) (changes : List LineChange) :
    Prop where
  small : base.length + 1 < 2 ^ 32
  free : ∀ line ∈ base, '\n' ∉ line
  fits : ∀ change ∈ changes, Fitting base change
  ordered : changes.Pairwise fun one other => one.start ≤ other.start
  paired : ∀ pair ∈ pairs, pair.1 ∈ changes ∧ pair.2 ∈ changes ∧ overlaps pair.1 pair.2

section

variable (arranged : Arranged base pairs changes)

include arranged

theorem Arranged.bounds (member : pair ∈ pairs) :
    pair.start ≤ pair.stop ∧ pair.stop ≤ base.length := by
  obtain ⟨ourMem, theirMem, _⟩ := arranged.paired pair member
  have our := arranged.fits _ ourMem
  have their := arranged.fits _ theirMem
  have ourForward := our.forward
  have ourInside := our.inside
  have theirInside := their.inside
  unfold ChangePair.start ChangePair.stop
  omega

theorem Arranged.exists_first (member : pair ∈ pairs) :
    ∃ first ∈ changes, first.start = pair.start := by
  obtain ⟨ourMem, theirMem, _⟩ := arranged.paired pair member
  rcases Nat.le_total pair.1.start pair.2.start with earlier | later
  · exact ⟨pair.1, ourMem, (Nat.min_eq_left earlier).symm⟩
  · exact ⟨pair.2, theirMem, (Nat.min_eq_right later).symm⟩

theorem Arranged.find_marker (member : change ∈ changes) :
    (pairs.map (ChangePair.marker base)).find? (inRegion change) =
      (pairs.find? (·.covers change.start)).map (ChangePair.marker base) := by
  have fits := arranged.fits change member
  rw [find?_map]
  refine congrArg _ (find?_congr fun pair listed => ?_)
  obtain ⟨forward, inside⟩ := arranged.bounds listed
  exact inRegion_marker arranged.small (fits.forward.trans fits.inside) inside forward

end

/-- What a turn adds, and that it adds something if the change is in a conflict. -/
theorem Arranged.render (arranged : Arranged base pairs (processed ++ change :: rest))
    (early : rendering.result = [] →
      ∀ earlier ∈ processed, pairs.find? (·.covers earlier.start) = none) :
    ∃ added, added.flatMap cutLines = (writes pairs change).flatMap (Piece.lines base) ∧
      rendering.render base (pairs.map (ChangePair.marker base)) change =
        ⟨rendering.result ++ slice base rendering.baseIdx change.start ++ added,
          max (max rendering.baseIdx (min change.start base.length)) change.stop⟩ ∧
      (rendering.result ++ slice base rendering.baseIdx change.start ++ added = [] →
        rendering.result = [] ∧ pairs.find? (·.covers change.start) = none) := by
  have member : change ∈ processed ++ change :: rest := by simp
  have fits := arranged.fits change member
  unfold Rendering.render writes
  rw [arranged.find_marker member]
  cases found : pairs.find? (·.covers change.start) with
  | none =>
    refine ⟨change.newItems, ?_, rfl, fun none => ?_⟩
    · simp [Piece.lines, flatMap_cutLines fits.free]
    · simp only [append_eq_nil_iff] at none
      exact ⟨none.1.1, rfl⟩
  | some pair =>
    have listed := mem_of_find?_eq_some found
    obtain ⟨ourMem, theirMem, _⟩ := arranged.paired pair listed
    have inside := arranged.bounds listed
    have covers := find?_some found
    have covered : pair.start ≤ change.start ∧ change.start ≤ pair.stop :=
      of_decide_eq_true covers
    have numbered {position : Nat} (within : position ≤ base.length) :
        lineNumber (position + 1) = position + 1 :=
      Nat.mod_eq_of_lt (by have := arranged.small; omega)
    have same : lineNumber (change.start + 1) = (pair.marker base).startLine ↔
        change.start = pair.start := by
      change lineNumber (change.start + 1) = lineNumber (pair.start + 1) ↔ _
      rw [numbered (fits.forward.trans fits.inside), numbered (inside.1.trans inside.2)]
      omega
    -- the side that begins first has had its turn, so something has been written
    have written (begun : change.start ≠ pair.start) :
        rendering.result ++ slice base rendering.baseIdx change.start ≠ [] := by
      intro none
      obtain ⟨first, firstMem, begins⟩ := arranged.exists_first listed
      have before : first ∈ processed := by
        rcases mem_append.mp firstMem with before | later
        · exact before
        · have ordered := (pairwise_append.mp arranged.ordered).2.1
          rcases mem_cons.mp later with rfl | later
          · exact absurd begins begun
          · have := (pairwise_cons.mp ordered).1 first later
            omega
      have unmarked := early (append_eq_nil_iff.mp none).1 first before
      refine find?_eq_none.mp unmarked pair listed (decide_eq_true ?_)
      omega
    simp only [Option.map_some]
    by_cases begins : change.start = pair.start
    · rw [if_pos (Or.inl (same.mpr begins)), if_pos begins]
      refine ⟨markedLines (pair.marker base), ?_, rfl, fun none => ?_⟩
      · rw [flatMap_markedLines (arranged.fits _ ourMem) (arranged.fits _ theirMem)]
        simp
      · simp [markedLines] at none
    · rw [if_neg (not_or.mpr ⟨fun here => begins (same.mp here), written begins⟩), if_neg begins]
      refine ⟨[], rfl, by rw [append_nil], fun none => ?_⟩
      rw [append_nil] at none
      exact absurd none (written begins)

theorem Arranged.foldl_render (arranged : Arranged base pairs (processed ++ rest))
    (early : rendering.result = [] →
      ∀ earlier ∈ processed, pairs.find? (·.covers earlier.start) = none) :
    let final := rest.foldl (Rendering.render base (pairs.map (ChangePair.marker base))) rendering
    (final.result ++ base.drop final.baseIdx).flatMap cutLines =
        rendering.result.flatMap cutLines ++
          (piecesFrom base pairs rendering.baseIdx rest).flatMap (Piece.lines base) ∧
      (final.result = [] →
        ∀ change ∈ processed ++ rest, pairs.find? (·.covers change.start) = none) := by
  induction rest generalizing processed rendering with
  | nil =>
    have plain : (base.drop rendering.baseIdx).flatMap cutLines = base.drop rendering.baseIdx :=
      flatMap_cutLines fun line member => arranged.free line (mem_of_mem_drop member)
    refine ⟨by simp [piecesFrom, Piece.lines, plain, slice_length], ?_⟩
    rwa [append_nil]
  | cons change rest ih =>
    obtain ⟨added, shown, rendered, nothing⟩ := arranged.render early
    rw [foldl_cons, rendered]
    have moved : processed ++ change :: rest = processed ++ [change] ++ rest := by simp
    have plain : (slice base rendering.baseIdx change.start).flatMap cutLines =
        slice base rendering.baseIdx change.start :=
      flatMap_cutLines fun line member => arranged.free line (mem_of_mem_slice member)
    rw [moved] at arranged ⊢
    have turned (none : rendering.result ++ slice base rendering.baseIdx change.start ++ added =
        []) : ∀ earlier ∈ processed ++ [change],
          pairs.find? (·.covers earlier.start) = Option.none := by
      intro earlier member
      obtain ⟨start, here⟩ := nothing none
      rcases mem_append.mp member with before | this
      · exact early start earlier before
      · rwa [mem_singleton.mp this]
    obtain ⟨written, silent⟩ := @ih _ ⟨_, _⟩ arranged turned
    refine ⟨written.trans ?_, silent⟩
    simp only [piecesFrom, flatMap_cons, flatMap_append, plain, shown, Piece.lines, append_assoc]

end Loop

/-! ## What the pieces hold -/

section Contents

variable {changes rest : List LineChange} {position : Nat}

/-- No change takes the line away. -/
def Untouched (changes : List LineChange) (position : Nat) : Prop :=
  ∀ change ∈ changes, ¬ (change.start ≤ position ∧ position < change.stop)

instance (changes : List LineChange) (position : Nat) : Decidable (Untouched changes position) :=
  inferInstanceAs (Decidable (∀ change ∈ changes, _))

theorem positions_writes : (writes pairs change).flatMap Piece.positions = [] := by
  unfold writes
  split
  · split <;> rfl
  · rfl

/-- The lines of the base that are written are those that no change takes away, in order. -/
theorem positions_piecesFrom
    (ordered : rest.Pairwise fun one other => one.start ≤ other.start)
    (inside : ∀ change ∈ rest, change.start ≤ base.length ∧ change.stop ≤ base.length)
    (here : position ≤ base.length) :
    (piecesFrom base pairs position rest).flatMap Piece.positions =
      (range' position (base.length - position)).filter fun line => Untouched rest line := by
  induction rest generalizing position with
  | nil =>
    simp [piecesFrom, Piece.positions, Untouched]
  | cons change rest ih =>
    obtain ⟨first, ordered⟩ := pairwise_cons.mp ordered
    obtain ⟨within, inside⟩ := forall_mem_cons.mp inside
    have reached : max (max position (min change.start base.length)) change.stop =
        max (max position change.start) change.stop := by omega
    obtain ⟨next, nextEq⟩ : ∃ next, next = max (max position change.start) change.stop := ⟨_, rfl⟩
    have nextInside : next ≤ base.length := by omega
    rw [piecesFrom, reached, ← nextEq, flatMap_cons, flatMap_append, positions_writes,
      nil_append, ih ordered inside nextInside]
    have cut : range' position (base.length - position) =
        range' position (change.start - position) ++
          (range' (max position change.start) (next - max position change.start) ++
            range' next (base.length - next)) := by
      have second := @range'_append_1 (max position change.start)
        (next - max position change.start) (base.length - next)
      have reach : max position change.start + (next - max position change.start) = next := by
        omega
      rw [reach] at second
      have first := @range'_append_1 position (change.start - position)
        (base.length - max position change.start)
      have start : position + (change.start - position) = max position change.start := by omega
      rw [start] at first
      rw [second]
      have long : next - max position change.start + (base.length - next) =
          base.length - max position change.start := by omega
      have whole : change.start - position + (base.length - max position change.start) =
          base.length - position := by omega
      rw [long, first, whole]
    rw [cut, filter_append, filter_append]
    have before : (range' position (change.start - position)).filter
        (fun line => decide (Untouched (change :: rest) line)) =
          range' position (change.start - position) := by
      refine filter_eq_self.mpr fun line member => decide_eq_true ?_
      rw [mem_range'_1] at member
      intro other listed
      rcases mem_cons.mp listed with rfl | later
      · omega
      · have := first other later
        omega
    have taken : (range' (max position change.start)
        (next - max position change.start)).filter
          (fun line => decide (Untouched (change :: rest) line)) = [] := by
      refine filter_eq_nil_iff.mpr fun line member untouched => ?_
      rw [mem_range'_1] at member
      have := of_decide_eq_true untouched change mem_cons_self
      omega
    have after : (range' next (base.length - next)).filter
        (fun line => decide (Untouched (change :: rest) line)) =
          (range' next (base.length - next)).filter fun line => Untouched rest line := by
      refine filter_congr fun line member => ?_
      rw [mem_range'_1] at member
      have past : ¬ (change.start ≤ line ∧ line < change.stop) := by omega
      rw [decide_eq_decide, Untouched, forall_mem_cons]
      exact and_iff_right past
    rw [before, taken, after]
    rfl

def Piece.pair? : Piece → Option ChangePair
  | .conflict pair => some pair
  | _ => none

/-- The change that a piece writes outside of conflicts. -/
def Piece.alone? : Piece → Option LineChange
  | .change change => some change
  | _ => none

theorem mem_writes {piece : Piece} : piece ∈ writes pairs change ↔
    (piece = .change change ∧ pairs.find? (·.covers change.start) = none) ∨
      ∃ pair, piece = .conflict pair ∧ pairs.find? (·.covers change.start) = some pair ∧
        change.start = pair.start := by
  unfold writes
  cases pairs.find? (·.covers change.start) with
  | none => simp
  | some pair =>
    by_cases begins : change.start = pair.start
    · simp only [begins, if_true, mem_singleton, reduceCtorEq, and_false, false_or,
        Option.some.injEq]
      constructor
      · intro same
        exact ⟨pair, same, rfl, rfl⟩
      · rintro ⟨_, same, rfl, _⟩
        exact same
    · simp only [begins, if_false, not_mem_nil, reduceCtorEq, and_false, false_or,
        Option.some.injEq, false_iff, not_exists, not_and]
      exact fun _ _ here => here ▸ begins

theorem conflict_mem_piecesFrom : .conflict pair ∈ piecesFrom base pairs position rest ↔
    ∃ change ∈ rest, pairs.find? (·.covers change.start) = some pair ∧
      change.start = pair.start := by
  induction rest generalizing position with
  | nil => simp [piecesFrom]
  | cons change rest ih => simp [piecesFrom, mem_writes, ih]

theorem alone_piecesFrom : (piecesFrom base pairs position rest).filterMap Piece.alone? =
    rest.filter fun change => (pairs.find? (·.covers change.start)).isNone := by
  induction rest generalizing position with
  | nil => rfl
  | cons change rest ih =>
    rw [piecesFrom, filterMap_cons, filterMap_append, ih, filter_cons]
    unfold writes
    cases pairs.find? (·.covers change.start) with
    | none => rfl
    | some pair =>
      simp only [Piece.alone?, Option.isNone_some]
      split <;> rfl

theorem brought_perm (parts : List Piece) :
    ((parts.filterMap Piece.alone?).flatMap newItems ++
      ((parts.filterMap Piece.pair?).flatMap (fun pair => shownLines pair.1) ++
        (parts.filterMap Piece.pair?).flatMap fun pair => shownLines pair.2)).Perm
      (parts.flatMap Piece.brought) := by
  induction parts with
  | nil => exact .refl _
  | cons piece rest ih =>
    cases piece with
    | kept start stop => exact ih
    | change change =>
      simp only [filterMap_cons, Piece.alone?, Piece.pair?, flatMap_cons,
        Piece.brought, append_assoc]
      exact ih.append_left _
    | conflict pair =>
      simp only [filterMap_cons, Piece.alone?, Piece.pair?, flatMap_cons,
        Piece.brought, append_assoc]
      refine .trans ?_ ((ih.append_left _).append_left _)
      refine perm_iff_count.mpr fun line => ?_
      simp only [count_append]
      omega

theorem lines_subperm {written : List ChangePair} {side : ChangePair → LineChange}
    (distinct : changes.Nodup)
    (sides : ∀ change ∈ changes, change.newItems ≠ [] → change ∈ written.map side) :
    (changes.flatMap newItems).Subperm
      (written.flatMap fun pair => shownLines (side pair)) := by
  have bringing : changes.flatMap newItems =
      (changes.filter (·.newItems ≠ [])).flatMap newItems := by
    clear distinct sides
    induction changes with
    | nil => rfl
    | cons change rest ih =>
      rw [flatMap_cons, filter_cons, ih]
      by_cases none : change.newItems = []
      · simp [none]
      · simp [none]
  have listed : (changes.filter (·.newItems ≠ [])).Subperm (written.map side) := by
    refine (distinct.filter _).subperm fun change member => ?_
    obtain ⟨here, brings⟩ := mem_filter.mp member
    exact sides change here (of_decide_eq_true brings)
  obtain ⟨same, perm, sub⟩ := listed
  have shown (line : LineChange) : line.newItems.Sublist (shownLines line) := by
    unfold shownLines
    split
    · rename_i none
      rw [none]
      exact nil_sublist _
    · exact .refl _
  rw [bringing]
  refine ((perm.flatMap_right newItems).symm.subperm).trans ?_
  refine (sub.flatMap newItems).subperm.trans ?_
  rw [flatMap_map]
  exact (Sublist.flatMap_right written fun pair _ => shown (side pair)).subperm

end Contents

/-! ## No text is lost -/

section NoLoss

variable {base : List Line} {ours theirs : List LineChange} {merged : String}

/-- Neither side takes the line away, and no conflict has it in its region. -/
def Unchanged (ours theirs : List LineChange) (position : Nat) : Prop :=
  Untouched (ours ++ theirs) position ∧
    ∀ pair ∈ overlapping ours theirs, ¬ (pair.start ≤ position ∧ position < pair.stop)

instance (ours theirs : List LineChange) (position : Nat) :
    Decidable (Unchanged ours theirs position) :=
  inferInstanceAs (Decidable (_ ∧ ∀ pair ∈ overlapping ours theirs, _))

/-- The merged text has the lines of its pieces. Every change that brings lines has a piece of its
own or a side of a conflict, so that the lines besides the markers contain all that is brought; the
lines of the base that are written are the unchanged ones, each once and in order. -/
structure KeepsText (base : List Line) (ours theirs : List LineChange) (merged : String) :
    Prop where
  lines : cutLines merged.toList = (pieces base ours theirs).flatMap (Piece.lines base)
  our : ∀ our ∈ ours, our.newItems ≠ [] → .change our ∈ pieces base ours theirs ∨
    ∃ their, .conflict (our, their) ∈ pieces base ours theirs
  their : ∀ their ∈ theirs, their.newItems ≠ [] → .change their ∈ pieces base ours theirs ∨
    ∃ our, .conflict (our, their) ∈ pieces base ours theirs
  contained : ((ours ++ theirs).flatMap newItems).Subperm
    ((pieces base ours theirs).flatMap Piece.brought)
  kept : (pieces base ours theirs).flatMap Piece.positions =
    (range base.length).filter fun position => Unchanged ours theirs position

/-- The pair is the first whose region its own first line lies in. -/
def ComesFirst (ours theirs : List LineChange) (pair : ChangePair) : Prop :=
  (overlapping ours theirs).find? (·.covers pair.start) = some pair

instance (ours theirs : List LineChange) (pair : ChangePair) :
    Decidable (ComesFirst ours theirs pair) :=
  inferInstanceAs (Decidable (_ = _))

/-- A change that brings lines begins in no region, or one of its conflicts is the first in whose
region its own first line lies. -/
structure ShowsChanges (ours theirs : List LineChange) : Prop where
  our : ∀ our ∈ ours, our.newItems ≠ [] →
    (∀ pair ∈ overlapping ours theirs, pair.covers our.start = false) ∨
      ∃ their, ComesFirst ours theirs (our, their)
  their : ∀ their ∈ theirs, their.newItems ≠ [] →
    (∀ pair ∈ overlapping ours theirs, pair.covers their.start = false) ∨
      ∃ our, ComesFirst ours theirs (our, their)

theorem find_eq_none_iff {position : Nat} : pairs.find? (·.covers position) = none ↔
    ∀ pair ∈ pairs, pair.covers position = false := by
  rw [find?_eq_none]
  exact forall₂_congr fun pair _ => iff_of_eq (Bool.not_eq_true _)

theorem change_mem_pieces : .change change ∈ pieces base ours theirs ↔
    change ∈ ours ++ theirs ∧
      ∀ pair ∈ overlapping ours theirs, pair.covers change.start = false := by
  have alone : .change change ∈ pieces base ours theirs ↔
      change ∈ (pieces base ours theirs).filterMap Piece.alone? := by
    rw [mem_filterMap]
    constructor
    · intro member
      exact ⟨_, member, rfl⟩
    · rintro ⟨piece, member, same⟩
      cases piece with
      | change other =>
        cases same
        exact member
      | kept start stop | conflict pair => cases same
  rw [alone, pieces, alone_piecesFrom, mem_filter, (inStartOrder_perm _).mem_iff,
    Option.isNone_iff_eq_none, find_eq_none_iff]

theorem conflict_mem_pieces :
    .conflict pair ∈ pieces base ours theirs ↔ ComesFirst ours theirs pair := by
  rw [pieces, conflict_mem_piecesFrom, ComesFirst]
  constructor
  · rintro ⟨change, _, first, begins⟩
    exact begins ▸ first
  · intro first
    obtain ⟨ourMem, theirMem, _⟩ := mem_overlapping.mp (mem_of_find?_eq_some first)
    have listed (side : LineChange) (member : side ∈ ours ++ theirs) :
        side ∈ inStartOrder (ours ++ theirs) := (inStartOrder_perm _).mem_iff.mpr member
    rcases Nat.le_total pair.1.start pair.2.start with earlier | later
    · have begins : pair.1.start = pair.start := (Nat.min_eq_left earlier).symm
      exact ⟨pair.1, listed _ (mem_append_left _ ourMem), begins ▸ first, begins⟩
    · have begins : pair.2.start = pair.start := (Nat.min_eq_right later).symm
      exact ⟨pair.2, listed _ (mem_append_right _ theirMem), begins ▸ first, begins⟩

/-- Both sides' changes are in order and fit the base. -/
structure Sides (base : List Line) (ours theirs : List LineChange) : Prop where
  small : base.length + 1 < 2 ^ 32
  free : ∀ line ∈ base, '\n' ∉ line
  fits : ∀ change ∈ ours ++ theirs, Fitting base change
  our : ours.Nodup
  their : theirs.Nodup

section

variable (sides : Sides base ours theirs)

include sides

theorem Sides.arranged :
    Arranged base (overlapping ours theirs) (inStartOrder (ours ++ theirs)) where
  small := sides.small
  free := sides.free
  fits change member := sides.fits change ((inStartOrder_perm _).mem_iff.mp member)
  ordered := inStartOrder_ordered _
  paired pair member := by
    obtain ⟨ourMem, theirMem, both⟩ := mem_overlapping.mp member
    rw [(inStartOrder_perm _).mem_iff, (inStartOrder_perm _).mem_iff]
    exact ⟨mem_append_left _ ourMem, mem_append_right _ theirMem, both⟩

theorem Sides.kept : (pieces base ours theirs).flatMap Piece.positions =
      (range base.length).filter fun position => Unchanged ours theirs position := by
  have arranged := sides.arranged
  rw [pieces, positions_piecesFrom arranged.ordered
    (fun change member => by
      have fits := arranged.fits change member
      exact ⟨fits.forward.trans fits.inside, fits.inside⟩) (Nat.zero_le _), Nat.sub_zero,
    ← range_eq_range']
  refine filter_congr fun position _ => ?_
  rw [decide_eq_decide]
  have same : Untouched (inStartOrder (ours ++ theirs)) position ↔
      Untouched (ours ++ theirs) position :=
    forall_congr' fun change => by rw [(inStartOrder_perm _).mem_iff]
  rw [same, Unchanged]
  -- the region of two changes that overlap has no line that neither takes away
  refine ⟨fun untouched => ⟨untouched, fun pair member inside => ?_⟩, fun both => both.1⟩
  obtain ⟨ourMem, theirMem, both⟩ := mem_overlapping.mp member
  have our := untouched pair.1 (mem_append_left _ ourMem)
  have their := untouched pair.2 (mem_append_right _ theirMem)
  unfold overlaps at both
  unfold ChangePair.start ChangePair.stop at inside
  omega

theorem Sides.contained (shows : ShowsChanges ours theirs) :
    ((ours ++ theirs).flatMap newItems).Subperm
      ((pieces base ours theirs).flatMap Piece.brought) := by
  obtain ⟨written, writtenEq⟩ :
      ∃ written, written = (pieces base ours theirs).filterMap Piece.pair? := ⟨_, rfl⟩
  have listed {pair : ChangePair} (first : ComesFirst ours theirs pair) : pair ∈ written := by
    rw [writtenEq, mem_filterMap]
    exact ⟨_, conflict_mem_pieces.mpr first, rfl⟩
  let alone : LineChange → Bool := fun change =>
    ((overlapping ours theirs).find? (·.covers change.start)).isNone
  have marked {change : LineChange} {changes : List LineChange}
      (member : change ∈ changes.filter fun change => !alone change) :
      change ∈ changes ∧ ¬ ∀ pair ∈ overlapping ours theirs, pair.covers change.start = false := by
    obtain ⟨here, covered⟩ := mem_filter.mp member
    refine ⟨here, fun free => ?_⟩
    simp [alone, find_eq_none_iff.mpr free] at covered
  have ourLines : ((ours.filter fun change => !alone change).flatMap newItems).Subperm
      (written.flatMap fun pair => shownLines pair.1) := by
    refine lines_subperm (sides.our.filter _) fun our member brings => ?_
    obtain ⟨here, covered⟩ := marked member
    obtain ⟨their, first⟩ := (shows.our our here brings).resolve_left covered
    exact mem_map.mpr ⟨_, listed first, rfl⟩
  have theirLines : ((theirs.filter fun change => !alone change).flatMap newItems).Subperm
      (written.flatMap fun pair => shownLines pair.2) := by
    refine lines_subperm (sides.their.filter _) fun their member brings => ?_
    obtain ⟨here, covered⟩ := marked member
    obtain ⟨our, first⟩ := (shows.their their here brings).resolve_left covered
    exact mem_map.mpr ⟨_, listed first, rfl⟩
  have parted : ((ours ++ theirs).flatMap newItems).Perm
      (((inStartOrder (ours ++ theirs)).filter alone).flatMap newItems ++
        (((ours.filter fun change => !alone change).flatMap newItems) ++
          (theirs.filter fun change => !alone change).flatMap newItems)) := by
    rw [← flatMap_append, ← filter_append, ← flatMap_append]
    refine .flatMap_right _ ?_
    exact (filter_append_perm alone _).symm.trans
      (((inStartOrder_perm _).filter alone).symm.append_right _)
  refine parted.subperm.trans (.trans ?_ (brought_perm _).subperm)
  rw [← writtenEq, pieces, alone_piecesFrom]
  exact (Subperm.refl _).append (ourLines.append theirLines)

theorem Sides.cutLines_merged (conflicting : overlapping ours theirs ≠ []) :
    cutLines (applyMergeWithConflicts base ours theirs
        (findConflicts ours theirs base)).toList =
      (pieces base ours theirs).flatMap (Piece.lines base) := by
  have arranged : Arranged base (overlapping ours theirs)
      ([] ++ inStartOrder (ours ++ theirs)) := sides.arranged
  obtain ⟨written, silent⟩ := @Arranged.foldl_render _ _ _ _ {} arranged fun _ _ member => by
    cases member
  unfold applyMergeWithConflicts
  rw [findConflicts_eq, joined, String.toList_ofList, cutLines_unlines, written]
  · rfl
  · intro none
    obtain ⟨pair, member⟩ := exists_mem_of_ne_nil _ conflicting
    obtain ⟨first, firstMem, begins⟩ := arranged.exists_first member
    have unmarked := silent (append_eq_nil_iff.mp none).1 first firstMem
    have covers := covers_start_of_mem member
    rw [← begins, find_eq_none_iff.mp unmarked pair member] at covers
    cases covers

theorem Sides.keepsText_iff (conflicting : overlapping ours theirs ≠ []) :
    KeepsText base ours theirs
        (applyMergeWithConflicts base ours theirs (findConflicts ours theirs base)) ↔
      ShowsChanges ours theirs := by
  constructor
  · intro keeps
    refine ⟨fun our member brings => ?_, fun their member brings => ?_⟩
    · exact (keeps.our our member brings).imp (fun alone => (change_mem_pieces.mp alone).2)
        (Exists.imp fun _ => conflict_mem_pieces.mp)
    · exact (keeps.their their member brings).imp (fun alone => (change_mem_pieces.mp alone).2)
        (Exists.imp fun _ => conflict_mem_pieces.mp)
  · intro shows
    refine ⟨?_, fun our member brings => ?_, fun their member brings => ?_, sides.contained shows,
      sides.kept⟩
    · exact sides.cutLines_merged conflicting
    · exact (shows.our our member brings).imp
        (fun free => change_mem_pieces.mpr ⟨mem_append_left _ member, free⟩)
        (Exists.imp fun _ => conflict_mem_pieces.mpr)
    · exact (shows.their their member brings).imp
        (fun free => change_mem_pieces.mpr ⟨mem_append_right _ member, free⟩)
        (Exists.imp fun _ => conflict_mem_pieces.mpr)

end

theorem sides_computeLineChanges {base ours theirs : String}
    (small : (linesOf base).length + 1 < 2 ^ 32) :
    Sides (linesOf base) (computeLineChanges (linesOf base) (linesOf ours))
      (computeLineChanges (linesOf base) (linesOf theirs)) := by
  have fewer : (linesOf base).length < 2 ^ 32 := by omega
  have fits {text : String} (change : LineChange)
      (member : change ∈ computeLineChanges (linesOf base) (linesOf text)) :
      Fitting (linesOf base) change := by
    have proper := computeLineChanges_proper fewer change member
    exact ⟨proper.forward, proper.inside, fun line brought =>
      newline_notMem_of_mem_lines (mem_of_mem_newItems member brought)⟩
  have distinct (text : String) :
      (computeLineChanges (linesOf base) (linesOf text)).Nodup := by
    refine (computeLineChanges_apart fewer).imp_of_mem fun {first second} member _ apart same => ?_
    have forward := (computeLineChanges_proper fewer first member).forward
    rw [← same] at apart
    omega
  refine ⟨small, fun _ => newline_notMem_of_mem_lines, fun change member => ?_, distinct ours,
    distinct theirs⟩
  exact (mem_append.mp member).elim (fits change) (fits change)

/-- A merge with conflicts loses no text exactly if every change that brings lines is shown. -/
theorem conflictingMerge_keepsText_iff {base ours theirs : String}
    (small : (linesOf base).length + 1 < 2 ^ 32)
    (conflicting : (threeWayMerge base ours theirs).conflicts ≠ []) :
    ∃ merged, (threeWayMerge base ours theirs).merged = some merged ∧
      (KeepsText (linesOf base) (computeLineChanges (linesOf base) (linesOf ours))
          (computeLineChanges (linesOf base) (linesOf theirs)) merged ↔
        ShowsChanges (computeLineChanges (linesOf base) (linesOf ours))
          (computeLineChanges (linesOf base) (linesOf theirs))) := by
  simp only [threeWayMerge] at conflicting ⊢
  split at conflicting
  · exact absurd rfl conflicting
  · rename_i found
    rw [if_neg found]
    refine ⟨_, rfl, (sides_computeLineChanges small).keepsText_iff fun none => found ?_⟩
    rw [findConflicts_eq, none]
    rfl

theorem conflictingMerge_keepsText_iff_sample :
    ∃ merged, (threeWayMerge "a\nb\nc" "a\nours\nc" "a\ntheirs\nc").merged = some merged ∧
      KeepsText (linesOf "a\nb\nc") [⟨1, 2, ["ours".toList]⟩] [⟨1, 2, ["theirs".toList]⟩] merged := by
  have ours : computeLineChanges (linesOf "a\nb\nc") (linesOf "a\nours\nc") =
      [⟨1, 2, ["ours".toList]⟩] := by decide +kernel
  have theirs : computeLineChanges (linesOf "a\nb\nc") (linesOf "a\ntheirs\nc") =
      [⟨1, 2, ["theirs".toList]⟩] := by decide +kernel
  obtain ⟨merged, result, keeps⟩ :=
    @conflictingMerge_keepsText_iff "a\nb\nc" "a\nours\nc" "a\ntheirs\nc" (by decide +kernel)
      (by decide +kernel)
  refine ⟨merged, result, keeps.mpr ⟨?_, ?_⟩⟩
  · intro our member _
    rw [mem_singleton.mp member]
    exact .inr ⟨⟨1, 2, ["theirs".toList]⟩, by decide +kernel⟩
  · intro their member _
    rw [mem_singleton.mp member]
    exact .inr ⟨⟨1, 2, ["ours".toList]⟩, by decide +kernel⟩

/-- The second of two changes that overlap one of the other side is lost. -/
theorem conflictingMerge_keepsText_fails :
    (threeWayMerge "a\nb\nc\nd\ne" "x" "p\nb\nq\nd\ne").conflicts.length = 2 ∧
      ⟨2, 3, ["q".toList]⟩ ∈
        computeLineChanges (linesOf "a\nb\nc\nd\ne") (linesOf "p\nb\nq\nd\ne") ∧
      ∀ merged, (threeWayMerge "a\nb\nc\nd\ne" "x" "p\nb\nq\nd\ne").merged = some merged →
        "q".toList ∉ cutLines merged.toList := by
  refine ⟨by decide +kernel, by decide +kernel, fun merged result => ?_⟩
  have text : (threeWayMerge "a\nb\nc\nd\ne" "x" "p\nb\nq\nd\ne").merged =
      some "<<<<<<< ours\nx\n=======\np\n>>>>>>> theirs\n<<<<<<< ours\nx\n=======\np\n>>>>>>> theirs" := by
    decide +kernel
  rw [text, Option.some.injEq] at result
  rw [← result]
  decide +kernel

end NoLoss

end UltimateCoders.Conflict
