import Mathlib.Data.List.DropRight
import UltimateCoders.Gateway.Task

/-! # Placing subtasks

Where a subtask goes first: a score prefers workers that know its files, have little
to do and are near to those of its siblings. Without a preference the subtask goes to
the subject that all workers share. The host of a worker is read from its metadata by
a parser of JSON texts, which is a parameter here.
-/

namespace UltimateCoders.Gateway

def natsSubjectSubtaskExecute : String := "uc.subtask.execute"

def perWorkerSubjectPrefix : String := "uc.subtask.execute.w."

/-- How many files of a subtask a worker must know to be preferred. -/
def minAffinityHits : Nat := 1

inductive PlacementPolicy where
  | affinity
  | capacity
  deriving DecidableEq

def perWorkerSubject (workerId : String) : String := perWorkerSubjectPrefix ++ workerId

/-- Leave out every `./` at the start. -/
def stripCurrent : List Char → List Char
  | '.' :: '/' :: rest => stripCurrent rest
  | path => path

def normalizePath (path : String) : String :=
  let trimmed := (path.toList.dropWhile Text.isWhitespace).rdropWhile Text.isWhitespace
  String.ofList (stripCurrent (trimmed.map fun char => if char = '\\' then '/' else char))

/-- How many of the files a worker has recently touched, each counted once. -/
def affinityHits (fileConstraints recentFiles : List String) : Nat :=
  if fileConstraints = [] || recentFiles = [] then 0
  else
    (fileConstraints.foldl (fun matched constraint =>
      let norm := normalizePath constraint
      if norm = "" || matched.contains norm then matched
      else if recentFiles.contains norm then matched ++ [norm]
      else matched) []).length

/-- What scoring reads of a worker. -/
structure PlacementCandidate where
  workerId : String
  metadata : String
  recentFiles : List String
  currentLoad : UInt32
  maxCapacity : UInt32
  deriving DecidableEq

def PlacementCandidate.loadPercent (candidate : PlacementCandidate) : Nat :=
  if candidate.maxCapacity = 0 then 100
  else min (candidate.currentLoad.toNat * 100 / candidate.maxCapacity.toNat) (2 ^ 32 - 1)

structure Placement where
  workerId : String
  subject : String
  affinityHits : Nat
  loadPercent : Nat
  sameHost : Bool
  deriving DecidableEq

section MinBy

universe u

variable {Item : Type u} (order : Item → Item → Ordering)

/-- The least entry, the first of several. -/
def minBy : List Item → Option Item
  | [] => none
  | first :: rest =>
    some (rest.foldl (fun best next => if order best next = .gt then next else best) first)

variable {order}

theorem minBy_eq_none {items : List Item} : minBy order items = none ↔ items = [] := by
  cases items <;> simp [minBy]

theorem mem_of_minBy {items : List Item} {best : Item} (found : minBy order items = some best) :
    best ∈ items := by
  have kept : ∀ (rest : List Item) (first : Item),
      rest.foldl (fun best next => if order best next = .gt then next else best) first ∈
        first :: rest := by
    intro rest
    induction rest with
    | nil => exact fun first => List.mem_cons_self
    | cons next rest ih =>
      intro first
      rw [List.foldl_cons]
      rcases List.mem_cons.mp (ih (if order first next = .gt then next else first)) with same | later
      · rw [same]
        split <;> simp
      · exact List.mem_cons_of_mem _ (List.mem_cons_of_mem _ later)
  cases items with
  | nil => cases found
  | cons first rest =>
    cases found
    exact kept rest first

end MinBy

section Place

variable (hostFromMetadata : String → Option String)

/-- The score of a worker, if the policy admits it. -/
def score (fileConstraints siblingHosts : List String) (policy : PlacementPolicy)
    (candidate : PlacementCandidate) : Option (PlacementCandidate × Placement) :=
  let hits := affinityHits fileConstraints candidate.recentFiles
  if (policy = .affinity && hits < minAffinityHits) ||
      (policy = .capacity &&
        (candidate.maxCapacity = 0 || candidate.maxCapacity ≤ candidate.currentLoad)) then none
  else some (candidate, {
    workerId := candidate.workerId
    subject := perWorkerSubject candidate.workerId
    affinityHits := hits
    loadPercent := candidate.loadPercent
    sameHost := match hostFromMetadata candidate.metadata with
      | some host => siblingHosts.contains host
      | none => false })

/-- Files first, then load, nearness and id; or the exact load first. -/
def comparePlacements (policy : PlacementPolicy) (first second : PlacementCandidate × Placement) :
    Ordering :=
  match policy with
  | .capacity =>
    (((compare (first.1.currentLoad.toNat * second.1.maxCapacity.toNat)
      (second.1.currentLoad.toNat * first.1.maxCapacity.toNat)).then
      (compare second.2.affinityHits first.2.affinityHits)).then
      (compare second.2.sameHost first.2.sameHost)).then
      (compare first.2.workerId second.2.workerId)
  | .affinity =>
    (((compare second.2.affinityHits first.2.affinityHits).then
      (compare first.2.loadPercent second.2.loadPercent)).then
      (compare second.2.sameHost first.2.sameHost)).then
      (compare first.2.workerId second.2.workerId)

def placeWithPolicy (candidates : List PlacementCandidate)
    (fileConstraints siblingHosts : List String) (policy : PlacementPolicy) : Option Placement :=
  (minBy (comparePlacements policy)
    (candidates.filterMap (score hostFromMetadata fileConstraints siblingHosts policy))).map Prod.snd

variable {hostFromMetadata} {candidates : List PlacementCandidate}
  {fileConstraints siblingHosts : List String} {policy : PlacementPolicy}

def Admits (fileConstraints : List String) : PlacementPolicy → PlacementCandidate → Prop
  | .affinity, candidate => minAffinityHits ≤ affinityHits fileConstraints candidate.recentFiles
  | .capacity, candidate =>
    candidate.maxCapacity ≠ 0 ∧ candidate.currentLoad < candidate.maxCapacity

theorem score_eq_none {candidate : PlacementCandidate} :
    score hostFromMetadata fileConstraints siblingHosts policy candidate = none ↔
      ¬ Admits fileConstraints policy candidate := by
  unfold score
  cases policy <;> simp [Admits, imp_iff_not_or, or_comm]

theorem placeWithPolicy_isSome :
    (placeWithPolicy hostFromMetadata candidates fileConstraints siblingHosts policy).isSome = true ↔
      ∃ candidate ∈ candidates, Admits fileConstraints policy candidate := by
  rw [placeWithPolicy, Option.isSome_map, Option.isSome_iff_ne_none, Ne, minBy_eq_none,
    List.filterMap_eq_nil_iff]
  simp only [score_eq_none, not_forall, not_not, exists_prop]

theorem worker_of_placeWithPolicy {placement : Placement}
    (placed : placeWithPolicy hostFromMetadata candidates fileConstraints siblingHosts policy =
      some placement) :
    ∃ candidate ∈ candidates, placement.workerId = candidate.workerId ∧
      placement.subject = perWorkerSubject candidate.workerId := by
  obtain ⟨best, least, rfl⟩ := Option.map_eq_some_iff.mp placed
  obtain ⟨candidate, member, scored⟩ := List.mem_filterMap.mp (mem_of_minBy least)
  unfold score at scored
  dsimp only at scored
  split_ifs at scored
  cases scored
  exact ⟨candidate, member, rfl, rfl⟩

theorem subject_of_placeWithPolicy {placement : Placement}
    (placed : placeWithPolicy hostFromMetadata candidates fileConstraints siblingHosts policy =
      some placement) :
    ∃ candidate ∈ candidates, placement.subject = perWorkerSubject candidate.workerId := by
  obtain ⟨candidate, member, -, subject⟩ := worker_of_placeWithPolicy placed
  exact ⟨candidate, member, subject⟩

end Place

end UltimateCoders.Gateway
