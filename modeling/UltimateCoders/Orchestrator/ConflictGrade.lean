import Mathlib.Data.Finset.Card
import Mathlib.Data.Rat.Floor
import UltimateCoders.Text.Split

/-! # Grades of conflict

Every subtask of a decomposition is graded by its worst overlap of files with another one.
-/

namespace UltimateCoders.Orchestrator

/-- What depends on the system: how paths are normalized, and whether names differ in case. -/
structure Platform where
  normalize : String → String
  foldsCase : Bool
  toLowerCase : String → String

/-- White space and line terminators of the language. -/
def isTrimmed (c : Char) : Bool :=
  c.toNat = 0xFEFF || (Text.isWhitespace c && c.toNat != 0x85)

def trim (text : String) : String :=
  String.ofList (((text.toList.dropWhile isTrimmed).reverse.dropWhile isTrimmed).reverse)

def normalizeFileIntent (platform : Platform) (file : String) : String :=
  let n := platform.normalize (trim file)
  if platform.foldsCase then platform.toLowerCase n else n

inductive ConflictRisk where
  | low
  | medium
  | high
  deriving DecidableEq

inductive DispatchMode where
  | local
  | remote
  | preferRemote
  | auto
  deriving DecidableEq

/-- A subtask as it comes out of a decomposition. -/
structure SubtaskDef where
  id : String
  dependsOn : List String
  files : List String
  dispatchMode : Option DispatchMode := none
  deriving DecidableEq

def conflictMediumThreshold : ℚ := 2 / 5

def conflictHighThreshold : ℚ := 4 / 5

variable (platform : Platform)

/-- The files that both touch, against the smaller set. -/
def fileOverlapRatio (filesA filesB : List String) : ℚ :=
  let a := (filesA.map (normalizeFileIntent platform)).toFinset
  let b := (filesB.map (normalizeFileIntent platform)).toFinset
  if a.card = 0 ∨ b.card = 0 then 0 else (a ∩ b).card / min a.card b.card

def worstOverlap (subtasks : List SubtaskDef) (subtask : SubtaskDef) : ℚ :=
  subtasks.foldl (fun worst other =>
    if other.id = subtask.id then worst
    else max worst (fileOverlapRatio platform subtask.files other.files)) 0

def gradeOf (worst : ℚ) : ConflictRisk :=
  if conflictHighThreshold ≤ worst then .high
  else if conflictMediumThreshold ≤ worst then .medium
  else .low

def classifyConflicts (subtasks : List SubtaskDef) : List (String × ConflictRisk) :=
  subtasks.map fun subtask => (subtask.id, gradeOf (worstOverlap platform subtasks subtask))

/-- A key of a map has the value that was set last. -/
def riskOf (risks : List (String × ConflictRisk)) (id : String) : Option ConflictRisk :=
  (risks.reverse.find? fun entry => entry.1 = id).map Prod.snd

variable {platform} {subtasks : List SubtaskDef} {one other : SubtaskDef}

theorem fileOverlapRatio_comm (filesA filesB : List String) :
    fileOverlapRatio platform filesA filesB = fileOverlapRatio platform filesB filesA := by
  simp only [fileOverlapRatio, or_comm, Finset.inter_comm, min_comm]

theorem le_foldl_overlap {files : List String} {id : String} {worst bound : ℚ}
    (reached : bound ≤ worst ∨ ∃ other ∈ subtasks, other.id ≠ id ∧
      bound ≤ fileOverlapRatio platform files other.files) :
    bound ≤ subtasks.foldl (fun worst other =>
      if other.id = id then worst
      else max worst (fileOverlapRatio platform files other.files)) worst := by
  induction subtasks generalizing worst with
  | nil =>
    rcases reached with below | ⟨_, member, _⟩
    · exact below
    · cases member
  | cons first rest ih =>
    rw [List.foldl_cons]
    refine ih ?_
    rcases reached with below | ⟨other, member, different, below⟩
    · left
      split
      · exact below
      · exact le_max_of_le_left below
    · rcases List.mem_cons.mp member with rfl | member
      · left
        rw [if_neg different]
        exact le_max_of_le_right below
      · exact .inr ⟨other, member, different, below⟩

theorem fileOverlapRatio_le_worstOverlap (member : other ∈ subtasks) (different : other.id ≠ one.id) :
    fileOverlapRatio platform one.files other.files ≤ worstOverlap platform subtasks one :=
  le_foldl_overlap (.inr ⟨other, member, different, le_rfl⟩)

theorem overlap_lt_of_low (member : other ∈ subtasks) (different : other.id ≠ one.id)
    (low : gradeOf (worstOverlap platform subtasks one) = .low) :
    fileOverlapRatio platform one.files other.files < conflictMediumThreshold := by
  refine (fileOverlapRatio_le_worstOverlap member different).trans_lt (lt_of_not_ge fun reached => ?_)
  unfold gradeOf at low
  rw [if_pos reached] at low
  split at low <;> cases low

theorem riskOf_classifyConflicts (unique : (subtasks.map SubtaskDef.id).Nodup)
    (member : one ∈ subtasks) :
    riskOf (classifyConflicts platform subtasks) one.id =
      some (gradeOf (worstOverlap platform subtasks one)) := by
  have listed : (one.id, gradeOf (worstOverlap platform subtasks one)) ∈
      (classifyConflicts platform subtasks).reverse :=
    List.mem_reverse.mpr (List.mem_map_of_mem member)
  have present : ((classifyConflicts platform subtasks).reverse.find?
      fun entry => entry.1 = one.id).isSome :=
    List.find?_isSome.mpr ⟨_, listed, decide_eq_true rfl⟩
  obtain ⟨entry, found⟩ := Option.isSome_iff_exists.mp present
  have sameId := List.find?_some found
  obtain ⟨other, otherMem, rfl⟩ :=
    List.mem_map.mp (List.mem_reverse.mp (List.mem_of_find?_eq_some found))
  obtain rfl := List.inj_on_of_nodup_map unique otherMem member (of_decide_eq_true sameId)
  rw [riskOf, found]
  rfl

end UltimateCoders.Orchestrator
