import UltimateCoders.Text.LineFeeds
import UltimateCoders.Text.Patch

/-! # Three-way merges

Both versions of a text are compared with their base by a common subsequence of lines. The changes
are applied together where none of ours overlaps one of theirs; otherwise the merged text shows
both contents between markers. Numbers of lines are kept in 32 bits.
-/

namespace UltimateCoders.Conflict

open Text

inductive ResolutionTier where
  | autoMerge
  | llmAssisted
  | reassign
  | human
  deriving DecidableEq

/-- A region that could not be merged; lines are counted from one. -/
structure ConflictMarker where
  startLine : Nat
  endLine : Nat
  ours : String
  theirs : String
  base : String
  deriving DecidableEq

structure MergeResult where
  merged : Option String
  conflicts : List ConflictMarker
  success : Bool
  tier : ResolutionTier
  deriving DecidableEq

abbrev Line := List Char

/-- Lines of the base from one to another and the lines that replace them. -/
abbrev LineChange := Change Line

def lineNumber (position : Nat) : Nat := position % 2 ^ 32

def linesOf (text : String) : List Line := lines text.toList

def joined (parts : List Line) : String := String.ofList (unlines parts)

section Subsequences

variable (base modified : List Line)

def sameLine (i j : Nat) : Bool := decide (base[i]? = modified[j]?)

def lcsRow (same : Nat → Bool) (row : Nat → Nat) : Nat → Nat
  | 0 => 0
  | j + 1 => if same j then row j + 1 else max (row (j + 1)) (lcsRow same row j)

/-- The lengths of longest common subsequences of the first lines. -/
def lcsTable : Nat → Nat → Nat
  | 0 => fun _ => 0
  | i + 1 => lcsRow (sameLine base modified i) (lcsTable i)

/-- Go back along a row of the table, and from there into the row before. -/
def backtrackRow (i : Nat) (before : Nat → List (Nat × Nat)) : Nat → List (Nat × Nat)
  | 0 => []
  | j + 1 =>
    if sameLine base modified i j then before j ++ [(i, j)]
    else if lcsTable base modified (i + 1) j < lcsTable base modified i (j + 1) then
      before (j + 1)
    else backtrackRow i before j

/-- Go back through the table. -/
def backtrack : Nat → Nat → List (Nat × Nat)
  | 0 => fun _ => []
  | i + 1 => backtrackRow base modified i (backtrack i)

/-- For each line of the base the next line of the other text that is the same. -/
def simpleLcs (modified : List Line) (modIdx : Nat) : List Line → Nat → List (Nat × Nat)
  | [], _ => []
  | line :: rest, baseIdx =>
    match (modified.drop modIdx).findIdx? (· = line) with
    | some skipped =>
      (baseIdx, modIdx + skipped) ::
        simpleLcs modified (modIdx + skipped + 1) rest (baseIdx + 1)
    | none => simpleLcs modified modIdx rest (baseIdx + 1)

def longestCommonSubsequence : List (Nat × Nat) :=
  if base.length = 0 ∨ modified.length = 0 then []
  else if 5000 < base.length ∨ 5000 < modified.length then simpleLcs modified 0 base 0
  else backtrack base modified base.length modified.length

/-- The changes from two positions on, before and after the matching lines that are left. -/
def changesAfter : Nat → Nat → List (Nat × Nat) → List LineChange
  | baseIdx, modIdx, [] =>
    if baseIdx < base.length ∨ modIdx < modified.length then
      [{ start := lineNumber baseIdx
         stop := lineNumber base.length
         newItems := modified.drop modIdx }]
    else []
  | baseIdx, modIdx, (matchBase, matchMod) :: rest =>
    if baseIdx < matchBase ∨ modIdx < matchMod then
      { start := lineNumber baseIdx
        stop := lineNumber matchBase
        newItems := slice modified modIdx matchMod } ::
          changesAfter (matchBase + 1) (matchMod + 1) rest
    else changesAfter (matchBase + 1) (matchMod + 1) rest

def computeLineChanges : List LineChange :=
  changesAfter base modified 0 0 (longestCommonSubsequence base modified)

end Subsequences

/-- The changed regions have lines in common; a region may be empty. -/
def overlaps (ours theirs : LineChange) : Prop :=
  ours.start < theirs.stop ∧ theirs.start < ours.stop

instance (ours theirs : LineChange) : Decidable (overlaps ours theirs) :=
  inferInstanceAs (Decidable (_ ∧ _))

/-- What is shown of two changes that overlap. -/
def conflictMarker (base : List Line) (ours theirs : LineChange) : ConflictMarker :=
  let start := min ours.start theirs.start
  let stop := max ours.stop theirs.stop
  { startLine := lineNumber (start + 1)
    endLine := lineNumber (stop + 1)
    ours := joined ours.newItems
    theirs := joined theirs.newItems
    base := joined (slice base start stop) }

def findConflicts (ours theirs : List LineChange) (base : List Line) : List ConflictMarker :=
  ours.flatMap fun our => theirs.filterMap fun their =>
    if overlaps our their then some (conflictMarker base our their) else none

def applyMerge (base : List Line) (ours theirs : List LineChange) : String :=
  joined (patched base 0 (inStartOrder (ours ++ theirs)))

/-- What has been written, and up to where the base is dealt with. -/
structure Rendering where
  result : List Line := []
  baseIdx : Nat := 0

/-- The change begins in the region that is marked. -/
def inRegion (change : LineChange) (conflict : ConflictMarker) : Bool :=
  decide (conflict.startLine ≤ lineNumber (change.start + 1) ∧ change.start < conflict.endLine)

/-- The contents of both sides between markers. -/
def markedLines (conflict : ConflictMarker) : List Line :=
  ["<<<<<<< ours".toList, conflict.ours.toList, "=======".toList, conflict.theirs.toList,
    ">>>>>>> theirs".toList]

/-- One turn of the loop over the changes. -/
def Rendering.render (base : List Line) (conflicts : List ConflictMarker) (rendering : Rendering)
    (change : LineChange) : Rendering :=
  let result := rendering.result ++ slice base rendering.baseIdx change.start
  let baseIdx := max (max rendering.baseIdx (min change.start base.length)) change.stop
  match conflicts.find? (inRegion change) with
  | some conflict =>
    if lineNumber (change.start + 1) = conflict.startLine ∨ result = [] then
      ⟨result ++ markedLines conflict, baseIdx⟩
    else ⟨result, baseIdx⟩
  | none => ⟨result ++ change.newItems, baseIdx⟩

def applyMergeWithConflicts (base : List Line) (ours theirs : List LineChange)
    (conflicts : List ConflictMarker) : String :=
  let rendering := (inStartOrder (ours ++ theirs)).foldl (Rendering.render base conflicts) {}
  joined (rendering.result ++ base.drop rendering.baseIdx)

def threeWayMerge (base ours theirs : String) : MergeResult :=
  let oursChanges := computeLineChanges (linesOf base) (linesOf ours)
  let theirsChanges := computeLineChanges (linesOf base) (linesOf theirs)
  let conflicts := findConflicts oursChanges theirsChanges (linesOf base)
  if conflicts = [] then
    { merged := some (applyMerge (linesOf base) oursChanges theirsChanges)
      conflicts := []
      success := true
      tier := .autoMerge }
  else
    { merged := some
        (applyMergeWithConflicts (linesOf base) oursChanges theirsChanges conflicts)
      conflicts := conflicts
      success := false
      tier := .autoMerge }

end UltimateCoders.Conflict
