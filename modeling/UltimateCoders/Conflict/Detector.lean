import Mathlib.Data.List.AList
import UltimateCoders.Conflict.Merger
import UltimateCoders.Transition.Program

/-! # Edit intents

Workers declare which lines of a file they are going to edit. A declaration first looks for clashes
with the intents that are recorded, and then is recorded itself, by two operations on the map of
intents.
-/

namespace UltimateCoders.Conflict

open Transition (Program)

structure LineRange where
  start : UInt32
  «end» : UInt32
  deriving DecidableEq

def LineRange.overlaps (range other : LineRange) : Bool :=
  decide (range.start < other.end) && decide (other.start < range.end)

inductive EditType where
  | create
  | modify
  | delete
  deriving DecidableEq

/-- An intent without lines is for the whole file. -/
structure EditIntent where
  workerId : String
  filePath : String
  editType : EditType
  regions : List LineRange
  timestamp : Int
  deriving DecidableEq

inductive ConflictResult where
  | noConflict
  | potentialConflict (conflictingWorkers : List String)
  | conflicting (conflictingWorkers : List String) (resolutionTier : ResolutionTier)
  deriving DecidableEq

/-- The result says that the worker's edit conflicts. -/
def ConflictResult.Names (worker : String) : ConflictResult → Prop
  | .conflicting workers _ => worker ∈ workers
  | _ => False

/-- The test for one recorded intent. -/
def flagged (regions : List LineRange) (intent : EditIntent) : Bool :=
  let hasOverlap := intent.regions.any fun existing => regions.any existing.overlaps
  let wholeFileConflict := (intent.regions.isEmpty || regions.isEmpty) && !hasOverlap
  hasOverlap || wholeFileConflict

/-- Collect the workers whose intents conflict, each of them once. -/
def conflictingWorkers (workerId : String) (regions : List LineRange) (existing : List EditIntent) :
    List String :=
  existing.foldl (fun workers intent =>
    if intent.workerId = workerId then workers
    else if flagged regions intent && !workers.contains intent.workerId then
      workers ++ [intent.workerId]
    else workers) []

/-- What is said about an edit in view of the file's intents. -/
def checkAgainst (workerId : String) (regions : List LineRange) (existing : List EditIntent) :
    ConflictResult :=
  let workers := conflictingWorkers workerId regions existing
  if workers.isEmpty then
    let others := (existing.filter fun intent => intent.workerId ≠ workerId).map EditIntent.workerId
    if others.isEmpty then .noConflict else .potentialConflict others
  else .conflicting workers .autoMerge

structure ConflictDetector where
  activeIntents : AList fun _ : String => List EditIntent

variable (detector : ConflictDetector) {regions : List LineRange}

namespace ConflictDetector

def empty : ConflictDetector := ⟨∅⟩

def getIntents (filePath : String) : List EditIntent :=
  (detector.activeIntents.lookup filePath).getD []

def checkConflict (filePath workerId : String) (regions : List LineRange) : ConflictResult :=
  match detector.activeIntents.lookup filePath with
  | some existing =>
    if existing.isEmpty then .noConflict else checkAgainst workerId regions existing
  | none => .noConflict

def record (intent : EditIntent) : ConflictDetector where
  activeIntents := detector.activeIntents.insert intent.filePath
    (detector.getIntents intent.filePath ++ [intent])

def removeIntent (filePath workerId : String) : ConflictDetector :=
  match detector.activeIntents.lookup filePath with
  | some intents => ⟨detector.activeIntents.insert filePath
      (intents.filter fun intent => intent.workerId ≠ workerId)⟩
  | none => detector

end ConflictDetector

inductive IntentOperation where
  | checkConflict (filePath workerId : String) (regions : List LineRange)
  | record (intent : EditIntent)
  | remove (filePath workerId : String)
  deriving DecidableEq

abbrev IntentOperation.Answer : IntentOperation → Type
  | .checkConflict _ _ _ => ConflictResult
  | .record _ | .remove _ _ => Unit

def serveIntents : Unit → (operation : IntentOperation) → ConflictDetector →
    operation.Answer × ConflictDetector
  | (), .checkConflict filePath workerId regions, detector =>
    (detector.checkConflict filePath workerId regions, detector)
  | (), .record intent, detector => ((), detector.record intent)
  | (), .remove filePath workerId, detector => ((), detector.removeIntent filePath workerId)

abbrev IntentProgram := Program IntentOperation IntentOperation.Answer

/-- The intent is recorded whatever the test has found. -/
def declareIntent (intent : EditIntent) : IntentProgram ConflictResult :=
  .ask (.checkConflict intent.filePath intent.workerId intent.regions) fun result =>
    .ask (.record intent) fun _ => .done result

inductive DetectorCall where
  | declareIntent (intent : EditIntent)
  | removeIntent (filePath workerId : String)
  deriving DecidableEq

/-- What the call does; only declarations return a result. -/
def DetectorCall.program : DetectorCall → IntentProgram (Option ConflictResult)
  | declareIntent intent => some <$> Conflict.declareIntent intent
  | removeIntent filePath workerId => .ask (.remove filePath workerId) fun _ => .done none

/-- The edits overlap, or one of them is for the whole file. -/
def Clash (regions others : List LineRange) : Prop :=
  (∃ region ∈ regions, ∃ other ∈ others, region.overlaps other = true) ∨ regions = [] ∨ others = []

theorem flagged_iff {intent : EditIntent} :
    flagged regions intent = true ↔ Clash intent.regions regions := by
  have overlap_iff : (intent.regions.any fun existing => regions.any existing.overlaps) = true ↔
      ∃ region ∈ intent.regions, ∃ other ∈ regions, region.overlaps other = true := by
    simp only [List.any_eq_true]
  have whole_iff : (intent.regions.isEmpty || regions.isEmpty) = true ↔
      intent.regions = [] ∨ regions = [] := by
    simp only [Bool.or_eq_true, List.isEmpty_iff]
  unfold flagged Clash
  rw [← overlap_iff, ← whole_iff]
  cases intent.regions.any fun existing => regions.any existing.overlaps <;> simp

theorem mem_conflictingWorkers {worker workerId : String} {existing : List EditIntent} :
    worker ∈ conflictingWorkers workerId regions existing ↔
      ∃ intent ∈ existing, intent.workerId = worker ∧ worker ≠ workerId ∧
        Clash intent.regions regions := by
  unfold conflictingWorkers
  induction existing using List.reverseRecOn with
  | nil => simp
  | append_singleton existing intent ih =>
    rw [List.foldl_append, List.foldl_cons, List.foldl_nil]
    simp only [List.mem_append, List.mem_singleton, or_and_right, exists_or, exists_eq_left]
    rw [← ih]
    split
    · rename_i own
      constructor
      · exact .inl
      · rintro (earlier | ⟨rfl, apart, _⟩)
        · exact earlier
        · exact absurd own apart
    · rename_i other
      split
      · rename_i fresh
        rw [Bool.and_eq_true, flagged_iff] at fresh
        rw [List.mem_append, List.mem_singleton]
        constructor
        · rintro (earlier | rfl)
          · exact .inl earlier
          · exact .inr ⟨rfl, other, fresh.1⟩
        · rintro (earlier | ⟨rfl, _⟩)
          · exact .inl earlier
          · exact .inr rfl
      · rename_i unfresh
        constructor
        · exact .inl
        · rintro (earlier | ⟨rfl, _, clash⟩)
          · exact earlier
          · by_contra missing
            refine unfresh (Bool.and_eq_true_iff.mpr ⟨flagged_iff.mpr clash, ?_⟩)
            simpa [List.contains_iff_mem] using missing

theorem names_checkAgainst {worker workerId : String} {existing : List EditIntent} :
    (checkAgainst workerId regions existing).Names worker ↔
      worker ∈ conflictingWorkers workerId regions existing := by
  unfold checkAgainst
  dsimp only
  split
  · rename_i none
    rw [List.isEmpty_iff.mp none]
    split <;> simp [ConflictResult.Names]
  · exact Iff.rfl

namespace ConflictDetector

variable {detector : ConflictDetector} {filePath workerId worker : String}
  {regions : List LineRange} {intent : EditIntent}

theorem checkConflict_eq : detector.checkConflict filePath workerId regions =
    checkAgainst workerId regions (detector.getIntents filePath) := by
  unfold checkConflict getIntents
  cases detector.activeIntents.lookup filePath with
  | none => rfl
  | some existing => cases existing <;> rfl

theorem names_checkConflict : (detector.checkConflict filePath workerId regions).Names worker ↔
    ∃ intent ∈ detector.getIntents filePath, intent.workerId = worker ∧ worker ≠ workerId ∧
      Clash intent.regions regions := by
  rw [checkConflict_eq, names_checkAgainst, mem_conflictingWorkers]

theorem getIntents_record : (detector.record intent).getIntents filePath =
    detector.getIntents filePath ++ if intent.filePath = filePath then [intent] else [] := by
  unfold record
  by_cases own : intent.filePath = filePath
  · subst own
    simp [getIntents]
  · simp [getIntents, own, AList.lookup_insert_ne (Ne.symm own)]

theorem getIntents_removeIntent {removed : String} :
    (detector.removeIntent removed workerId).getIntents filePath =
      (detector.getIntents filePath).filter fun intent =>
        !(decide (filePath = removed) && decide (intent.workerId = workerId)) := by
  unfold removeIntent
  by_cases own : filePath = removed
  · subst own
    cases found : detector.activeIntents.lookup filePath <;> simp [getIntents, found]
  · cases detector.activeIntents.lookup removed <;>
      simp [getIntents, own, AList.lookup_insert_ne own]

end ConflictDetector

end UltimateCoders.Conflict
