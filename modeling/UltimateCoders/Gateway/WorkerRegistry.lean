import UltimateCoders.Gateway.Dispatch
import UltimateCoders.Gateway.Placement
import UltimateCoders.Gateway.Protection

/-! # Which worker a subtask goes to

The registry of workers decides whether a ready subtask is published and to which
subject. A review must not reach the workers that produced what it reviews: they are
left out of the verdict and of the choice of a single worker, but not when the review
goes to the subject that all workers share.
-/

namespace UltimateCoders.Gateway

open Governance (Instant)
open TaskStore List

def contractVersion : String := "v1"

def reviewCapability : String := "review"

def requiresIndependence (requiredCapabilities : List String) : Bool :=
  requiredCapabilities.contains reviewCapability

structure RegisteredWorker where
  id : String
  capabilities : List String
  maxCapacity : UInt32
  currentLoad : UInt32
  metadata : String
  contractVersion : String
  projects : List String
  recentFiles : List String
  perWorkerTopic : Bool
  lastHeartbeat : Instant
  deriving DecidableEq

/-- The seconds after which a heartbeat is stale. -/
def staleTimeoutSecs : Int := 60

variable (worker : RegisteredWorker) (registry : WorkerRegistry)

/-- The worker was heard of lately and can take more work. -/
def RegisteredWorker.isAvailable (now : Instant) : Bool :=
  Int.tdiv (now - worker.lastHeartbeat) 1000000000 ≤ staleTimeoutSecs &&
    worker.currentLoad < worker.maxCapacity

/-- The worker serves every project, or the given one by name. -/
def RegisteredWorker.servesScope (projectId : String) : Bool :=
  worker.projects = [] || worker.projects.contains projectId

def RegisteredWorker.candidate : PlacementCandidate where
  workerId := worker.id
  metadata := worker.metadata
  recentFiles := worker.recentFiles
  currentLoad := worker.currentLoad
  maxCapacity := worker.maxCapacity

/-- Load as a percentage of max capacity. With overflow checks a product that is too large stops
the call, otherwise it wraps. -/
def RegisteredWorker.loadPercent (overflowChecks : Bool) (worker : RegisteredWorker) :
    Option UInt32 :=
  if worker.maxCapacity = 0 then some 100
  else if overflowChecks && 2 ^ 32 ≤ worker.currentLoad.toNat * 100 then none
  else some (worker.currentLoad * 100 / worker.maxCapacity)

/-- A hundred times the load by the capacity, rounded down and clamped. -/
def exactPercent (load capacity : UInt32) : Nat :=
  if capacity = 0 then 100 else min (100 * load.toNat / capacity.toNat) (2 ^ 32 - 1)

theorem PlacementCandidate.loadPercent_exact (candidate : PlacementCandidate) :
    candidate.loadPercent = exactPercent candidate.currentLoad candidate.maxCapacity := by
  rw [loadPercent, exactPercent, Nat.mul_comm]

theorem wrapped_ne {product capacity : Nat} (positive : 0 < capacity) (fits : capacity < 2 ^ 32)
    (even : 2 ∣ product) (overflows : 2 ^ 32 ≤ product) :
    product % 2 ^ 32 / capacity ≠ min (product / capacity) (2 ^ 32 - 1) := by
  have wrapped : product % 2 ^ 32 ≤ product - 2 ^ 32 := by omega
  have short : product % 2 ^ 32 / capacity < product / capacity := by
    rw [Nat.div_lt_iff_lt_mul positive]
    have whole := Nat.div_add_mod product capacity
    have rest := Nat.mod_lt product positive
    rw [Nat.mul_comm] at whole
    omega
  intro same
  have atClamp : product % 2 ^ 32 / capacity = 2 ^ 32 - 1 := by omega
  have small := Nat.div_mul_le_self (product % 2 ^ 32) capacity
  rw [atClamp] at small
  have one : capacity = 1 := by
    by_contra other
    have double := Nat.mul_le_mul_left (2 ^ 32 - 1) (show 2 ≤ capacity by omega)
    omega
  rw [one, Nat.div_one] at atClamp
  omega

theorem loadPercent_eq_iff_fits (overflowChecks : Bool) (worker : RegisteredWorker) :
    (worker.loadPercent overflowChecks).map UInt32.toNat = some worker.candidate.loadPercent ↔
      worker.maxCapacity = 0 ∨ worker.currentLoad.toNat * 100 < 2 ^ 32 := by
  unfold RegisteredWorker.loadPercent PlacementCandidate.loadPercent RegisteredWorker.candidate
  by_cases empty : worker.maxCapacity = 0
  · simp [empty]
  have positive : 0 < worker.maxCapacity.toNat := Nat.pos_of_ne_zero fun zero =>
    empty (UInt32.toNat_inj.mp zero)
  simp only [empty, if_false, false_or]
  by_cases fits : worker.currentLoad.toNat * 100 < 2 ^ 32
  · have value : (worker.currentLoad * 100 / worker.maxCapacity).toNat =
        worker.currentLoad.toNat * 100 / worker.maxCapacity.toNat := by
      rw [UInt32.toNat_div, UInt32.toNat_mul]
      exact congrArg (· / _) (Nat.mod_eq_of_lt fits)
    have clamped : worker.currentLoad.toNat * 100 / worker.maxCapacity.toNat ≤ 2 ^ 32 - 1 :=
      (Nat.div_le_self _ _).trans (by omega)
    have noneStopped : ¬(overflowChecks && decide (2 ^ 32 ≤ worker.currentLoad.toNat * 100)) := by
      rw [decide_eq_false (Nat.not_le.mpr fits), Bool.and_false]
      exact Bool.false_ne_true
    rw [if_neg noneStopped, Option.map_some, value, Nat.min_eq_left clamped]
    exact iff_of_true rfl fits
  · have overflows := Nat.not_lt.mp fits
    simp only [fits, iff_false, overflows, decide_true, Bool.and_true]
    cases overflowChecks with
    | true => simp
    | false =>
      have differ := wrapped_ne positive worker.maxCapacity.toNat_lt (by omega) overflows
      simpa [UInt32.toNat_div, UInt32.toNat_mul] using differ

/-- Both percentages are the exact one, in either build, exactly if a hundred times the load fits
in 32 bits; in 64 bits it always does. -/
theorem loadPercent_eq_iff (overflowChecks : Bool) (worker : RegisteredWorker) :
    ((worker.loadPercent overflowChecks).map UInt32.toNat = some worker.candidate.loadPercent ∧
        worker.candidate.loadPercent = exactPercent worker.currentLoad worker.maxCapacity ↔
      worker.maxCapacity = 0 ∨ worker.currentLoad.toNat * 100 < 2 ^ 32) ∧
    worker.currentLoad.toNat * 100 < 2 ^ 64 := by
  have bounded := worker.currentLoad.toNat_lt
  refine ⟨?_, by omega⟩
  rw [← loadPercent_eq_iff_fits overflowChecks worker]
  exact and_iff_left worker.candidate.loadPercent_exact

/-- A load of which a hundredfold does not fit. -/
def sampleLoaded : RegisteredWorker where
  id := "worker-1"
  capabilities := []
  maxCapacity := 42949674
  currentLoad := 42949673
  metadata := ""
  contractVersion := contractVersion
  projects := []
  recentFiles := []
  perWorkerTopic := true
  lastHeartbeat := 0

/-- A nearly full worker is idle by the one percentage and full by the other. -/
theorem loadPercent_differs :
    sampleLoaded.loadPercent false = some 0 ∧ sampleLoaded.loadPercent true = none ∧
      sampleLoaded.candidate.loadPercent = 99 := by
  decide +kernel

/-- Workers that must not execute a subtask, and dependencies of which it is not known who
produced them. -/
structure ReviewIndependence where
  excludedProducers : List String := []
  unknownProducers : List String := []
  deriving DecidableEq

/-- The worker that produced a dependency, if that is known. -/
def producerOf (task : Option Task) (dep : String) : Option String :=
  (task.bind fun task => findSubtask task.subtasks dep).bind Subtask.assignedWorker

def reviewIndependence (subtask : Subtask) (task : Option Task) : ReviewIndependence :=
  if !requiresIndependence subtask.requiredCapabilities then {}
  else
    subtask.dependsOn.foldl (fun found dep =>
      match producerOf task dep with
      | some producer =>
        { found with excludedProducers := found.excludedProducers.insert producer }
      | none => { found with unknownProducers := found.unknownProducers ++ [dep] }) {}

inductive WorkerDispatchGate where
  | dispatch
  | noCapableWorker
  | noScopeMatchedWorker (workers : List String)
  | noVersionMatchedWorker (workers : List (String × String))
  | producerIdentityUnknown (dependencies : List String)
  | noIndependentReviewer (producers : List String)
  deriving DecidableEq

structure WorkerRegistry where
  workers : AList fun _ : String => RegisteredWorker
  placementPolicy : PlacementPolicy
  noIndependentReviewer : Nat
  producerIdentityUnknown : Nat

open WorkerRegistry

namespace WorkerRegistry

def availableWorkers (now : Instant) : List RegisteredWorker :=
  (registry.workers.entries.map Sigma.snd).filter fun worker => worker.isAvailable now

/-- The available workers that have all the capabilities, without the excluded ones. -/
def workersWithCapabilitiesExcluding (required exclude : List String) (now : Instant) :
    List RegisteredWorker :=
  ((registry.availableWorkers now).filter fun worker => !exclude.contains worker.id).filter
    fun worker => required.all fun capability => worker.capabilities.contains capability

def workersWithCapabilities (required : List String) (now : Instant) : List RegisteredWorker :=
  registry.workersWithCapabilitiesExcluding required [] now

/-- Whether a subtask may be published. Refusals on account of independence are counted. -/
def dispatchGate (required : List String) (projectId : String) (independence : ReviewIndependence)
    (now : Instant) : WorkerDispatchGate × WorkerRegistry :=
  if registry.workersWithCapabilities required now = [] then
    (if required = [] then .dispatch else .noCapableWorker, registry)
  else if independence.unknownProducers ≠ [] then
    (.producerIdentityUnknown independence.unknownProducers,
      { registry with producerIdentityUnknown := registry.producerIdentityUnknown + 1 })
  else
    let candidates := registry.workersWithCapabilitiesExcluding required
      independence.excludedProducers now
    if candidates = [] then
      (.noIndependentReviewer (independence.excludedProducers.insertionSort (· ≤ ·)),
        { registry with noIndependentReviewer := registry.noIndependentReviewer + 1 })
    else
      let scopeMatched := candidates.filter fun worker => worker.servesScope projectId
      if scopeMatched = [] then
        (.noScopeMatchedWorker (candidates.map RegisteredWorker.id), registry)
      else if scopeMatched.all fun worker => worker.contractVersion ≠ contractVersion then
        (.noVersionMatchedWorker (scopeMatched.map fun worker => (worker.id, worker.contractVersion)),
          registry)
      else (.dispatch, registry)

/-- The workers that pass the gate. -/
def dispatchCandidates (required : List String) (projectId : String) (exclude : List String)
    (now : Instant) : List RegisteredWorker :=
  ((registry.workersWithCapabilitiesExcluding required exclude now).filter fun worker =>
    worker.servesScope projectId).filter fun worker => worker.contractVersion = contractVersion

section Place

variable (hostFromMetadata : String → Option String)

def workerHost (registry : WorkerRegistry) (workerId : String) : Option String :=
  (registry.workers.lookup workerId).bind fun worker => hostFromMetadata worker.metadata

/-- The worker to send a subtask to, of those that have a subject of their own. -/
def placementTarget (registry : WorkerRegistry) (required : List String) (projectId : String)
    (fileConstraints siblingHosts exclude : List String) (now : Instant) : Option Placement :=
  placeWithPolicy hostFromMetadata
    (((registry.dispatchCandidates required projectId exclude now).filter fun worker =>
      worker.perWorkerTopic).map RegisteredWorker.candidate)
    fileConstraints siblingHosts registry.placementPolicy

end Place

end WorkerRegistry

section Gate

variable (hostFromMetadata : String → Option String)

def siblingWorkerHosts (store : TaskStore) (registry : WorkerRegistry) (taskId : String) :
    List String :=
  match store.tasks.lookup taskId with
  | none => []
  | some task => task.subtasks.filterMap fun subtask =>
    subtask.assignedWorker.bind fun workerId => registry.workerHost hostFromMetadata workerId

def resolveDispatchSubject (registry : WorkerRegistry) (subtask : Subtask) (projectId : String)
    (siblingHosts : List String) (independence : ReviewIndependence) (now : Instant) : String :=
  match registry.placementTarget hostFromMetadata subtask.requiredCapabilities projectId
      subtask.fileConstraints siblingHosts independence.excludedProducers now with
  | some placement => placement.subject
  | none => natsSubjectSubtaskExecute

/-- What a registry says of the subtasks of a task. -/
def WorkerRegistry.gate (registry : WorkerRegistry) (store : TaskStore) (taskId : String)
    (now : Instant) : Gate := fun subtask =>
  let task := store.tasks.lookup taskId
  let projectId := (task.map Task.projectId).getD ""
  let independence := reviewIndependence subtask task
  match (registry.dispatchGate subtask.requiredCapabilities projectId independence now).1 with
  | .dispatch => some (resolveDispatchSubject hostFromMetadata registry subtask projectId
      (siblingWorkerHosts hostFromMetadata store registry taskId) independence now)
  | _ => none

end Gate

/-- The worker produced something that the subtask depends on. -/
def Produced (store : TaskStore) (taskId : String) (subtask : Subtask) (workerId : String) : Prop :=
  ∃ task, store.tasks.lookup taskId = some task ∧ ∃ dep ∈ subtask.dependsOn, ∃ node,
    findSubtask task.subtasks dep = some node ∧ node.assignedWorker = some workerId

/-- The worker can read the subject: its own, or the one that is shared by all workers that
are registered. -/
def CanConsume (registry : WorkerRegistry) (subject workerId : String) : Prop :=
  subject = perWorkerSubject workerId ∨
    subject = natsSubjectSubtaskExecute ∧ (registry.workers.lookup workerId).isSome = true

/-- There is a worker with a subject of its own that may execute the subtask, has not produced
anything the subtask depends on, and, if files count, knows one of those of the subtask. -/
def HasTarget (registry : WorkerRegistry) (store : TaskStore) (taskId : String) (subtask : Subtask)
    (now : Instant) : Prop :=
  ∃ worker ∈ registry.dispatchCandidates subtask.requiredCapabilities
      (((store.tasks.lookup taskId).map Task.projectId).getD "") [] now,
    worker.perWorkerTopic = true ∧ ¬ Produced store taskId subtask worker.id ∧
    (registry.placementPolicy = .affinity →
      minAffinityHits ≤ affinityHits subtask.fileConstraints worker.recentFiles)

variable {hostFromMetadata : String → Option String} {registry : WorkerRegistry}
  {store : TaskStore} {taskId projectId : String} {subtask : Subtask} {now : Instant}

theorem perWorkerSubject_injective {first second : String}
    (same : perWorkerSubject first = perWorkerSubject second) : first = second := by
  have lists := congrArg String.toList same
  simp only [perWorkerSubject, String.toList_append] at lists
  exact String.toList_injective (append_cancel_left lists)

theorem perWorkerSubject_ne_shared (workerId : String) :
    perWorkerSubject workerId ≠ natsSubjectSubtaskExecute := by
  intro same
  have lengths := congrArg (fun text => text.toList.length) same
  simp only [perWorkerSubject, String.toList_append, length_append] at lengths
  have longer : perWorkerSubjectPrefix.toList.length = 21 := by decide
  have shorter : natsSubjectSubtaskExecute.toList.length = 18 := by decide
  omega

theorem producerOf_eq_some {dep workerId : String} :
    producerOf (store.tasks.lookup taskId) dep = some workerId ↔
      ∃ task, store.tasks.lookup taskId = some task ∧ ∃ node,
        findSubtask task.subtasks dep = some node ∧ node.assignedWorker = some workerId := by
  simp only [producerOf, Option.bind_eq_some_iff]
  constructor
  · rintro ⟨node, ⟨task, known, found⟩, assigned⟩
    exact ⟨task, known, node, found, assigned⟩
  · rintro ⟨task, known, node, found, assigned⟩
    exact ⟨node, ⟨task, known, found⟩, assigned⟩

theorem mem_excludedProducers (review : requiresIndependence subtask.requiredCapabilities = true)
    {workerId : String} :
    workerId ∈ (reviewIndependence subtask (store.tasks.lookup taskId)).excludedProducers ↔
      Produced store taskId subtask workerId := by
  have folded : ∀ (deps : List String) (found : ReviewIndependence),
      workerId ∈ (deps.foldl (fun found dep =>
        match producerOf (store.tasks.lookup taskId) dep with
        | some producer =>
          { found with excludedProducers := found.excludedProducers.insert producer }
        | none => { found with unknownProducers := found.unknownProducers ++ [dep] })
          found).excludedProducers ↔
        workerId ∈ found.excludedProducers ∨
          ∃ dep ∈ deps, producerOf (store.tasks.lookup taskId) dep = some workerId := by
    intro deps
    induction deps with
    | nil => simp
    | cons dep rest ih =>
      intro found
      rw [foldl_cons, ih]
      cases producer : producerOf (store.tasks.lookup taskId) dep with
      | none => simp [producer]
      | some worker => simp [producer, or_assoc, or_left_comm, eq_comm]
  rw [reviewIndependence, review, Bool.not_true, if_neg (by simp), folded]
  simp only [not_mem_nil, false_or, producerOf_eq_some]
  constructor
  · rintro ⟨dep, member, task, known, node, found, assigned⟩
    exact ⟨task, known, dep, member, node, found, assigned⟩
  · rintro ⟨task, known, dep, member, node, found, assigned⟩
    exact ⟨dep, member, task, known, node, found, assigned⟩

theorem mem_dispatchCandidates {required exclude : List String} {worker : RegisteredWorker} :
    worker ∈ registry.dispatchCandidates required projectId exclude now ↔
      worker ∈ registry.dispatchCandidates required projectId [] now ∧ worker.id ∉ exclude := by
  simp only [dispatchCandidates, workersWithCapabilitiesExcluding,
    mem_filter, Bool.not_eq_true', contains_eq_mem, decide_eq_false_iff_not]
  tauto

theorem capacity_of_mem_dispatchCandidates {required exclude : List String}
    {worker : RegisteredWorker}
    (member : worker ∈ registry.dispatchCandidates required projectId exclude now) :
    worker.maxCapacity ≠ 0 ∧ worker.currentLoad < worker.maxCapacity := by
  simp only [dispatchCandidates, workersWithCapabilitiesExcluding,
    availableWorkers, mem_filter, RegisteredWorker.isAvailable,
    Bool.and_eq_true, decide_eq_true_eq] at member
  have capacity := member.1.1.1.1.2.2
  refine ⟨fun zero => ?_, capacity⟩
  rw [zero] at capacity
  exact absurd capacity (by simp)

theorem placementTarget_isSome (hostFromMetadata : String → Option String)
    (siblingHosts : List String)
    (review : requiresIndependence subtask.requiredCapabilities = true) :
    (registry.placementTarget hostFromMetadata subtask.requiredCapabilities
      (((store.tasks.lookup taskId).map Task.projectId).getD "") subtask.fileConstraints siblingHosts
      (reviewIndependence subtask (store.tasks.lookup taskId)).excludedProducers now).isSome = true ↔
      HasTarget registry store taskId subtask now := by
  rw [placementTarget, placeWithPolicy_isSome]
  simp only [mem_map, mem_filter, exists_exists_and_eq_and]
  unfold HasTarget
  refine exists_congr fun worker => ?_
  rw [mem_dispatchCandidates, mem_excludedProducers review]
  constructor
  · rintro ⟨⟨⟨member, independent⟩, topic⟩, admits⟩
    refine ⟨member, topic, independent, fun policy => ?_⟩
    rw [policy] at admits
    exact admits
  · rintro ⟨member, topic, independent, files⟩
    refine ⟨⟨⟨member, independent⟩, topic⟩, ?_⟩
    cases policy : registry.placementPolicy with
    | affinity => exact files policy
    | capacity => exact capacity_of_mem_dispatchCandidates member

theorem gate_of_markReady {mouth : Mouth} {gate : Gate} {ready : List Subtask} {dispatch : Dispatch}
    (member : dispatch ∈ (markReady mouth taskId projectId gate now ready store).1) :
    gate dispatch.subtask = some dispatch.subject := by
  induction ready generalizing store with
  | nil => cases member
  | cons subtask rest ih =>
    unfold markReady at member
    split at member
    · exact ih member
    · split at member
      · exact ih member
      · rename_i subject open_
        rcases mem_cons.mp member with rfl | later
        · exact open_
        · exact ih later

/-- A review that is published can be read by none of the workers that produced what it reviews,
exactly if there is an independent worker with a subject of its own for it, or none of them is
registered. -/
theorem review_independent_iff {mouth : Mouth} {dispatch : Dispatch}
    (selected : dispatch ∈ (selectReady store mouth taskId
      (registry.gate hostFromMetadata store taskId now) now).1)
    (review : requiresIndependence dispatch.subtask.requiredCapabilities = true) :
    (∀ workerId, Produced store taskId dispatch.subtask workerId →
      ¬ CanConsume registry dispatch.subject workerId) ↔
    HasTarget registry store taskId dispatch.subtask now ∨
      ∀ workerId, Produced store taskId dispatch.subtask workerId →
        registry.workers.lookup workerId = none := by
  have gated := gate_of_markReady selected
  unfold gate at gated
  dsimp only at gated
  split at gated
  · rename_i verdict
    rw [Option.some.injEq, resolveDispatchSubject] at gated
    rw [← placementTarget_isSome hostFromMetadata
      (siblingWorkerHosts hostFromMetadata store registry taskId) review]
    split at gated
    · rename_i placement placed
      rw [placed]
      refine iff_of_true (fun workerId produced consumes => ?_) (.inl rfl)
      obtain ⟨candidate, member, same⟩ := subject_of_placeWithPolicy placed
      obtain ⟨worker, memberWorker, rfl⟩ := mem_map.mp member
      rw [mem_filter, mem_dispatchCandidates] at memberWorker
      rcases consumes with own | ⟨shared, _⟩
      · rw [← gated, same] at own
        apply memberWorker.1.2
        rw [mem_excludedProducers review, show worker.id = workerId from
          perWorkerSubject_injective own]
        exact produced
      · rw [← gated, same] at shared
        exact perWorkerSubject_ne_shared _ shared
    · rename_i nowhere
      rw [nowhere]
      simp only [Option.isSome_none, Bool.false_eq_true, false_or]
      refine forall₂_congr fun workerId produced => ?_
      rw [CanConsume, ← gated, not_or]
      constructor
      · rintro ⟨_, unregistered⟩
        simpa using unregistered
      · intro unregistered
        exact ⟨fun own => perWorkerSubject_ne_shared workerId own.symm, by simp [unregistered]⟩
  · cases gated

def sampleWorker (id : String) (perWorkerTopic : Bool) : RegisteredWorker where
  id := id
  capabilities := ["build", "review"]
  maxCapacity := 1
  currentLoad := 0
  metadata := ""
  contractVersion := "v1"
  projects := []
  recentFiles := ["src/main.rs"]
  perWorkerTopic := perWorkerTopic
  lastHeartbeat := 0

/-- Two workers, one of which may have a subject of its own. -/
def sampleRegistry (perWorkerTopic : Bool) : WorkerRegistry where
  workers := (AList.singleton "worker-1" (sampleWorker "worker-1" false)).insert "worker-2"
    (sampleWorker "worker-2" perWorkerTopic)
  placementPolicy := .affinity
  noIndependentReviewer := 0
  producerIdentityUnknown := 0

/-- The review of what another subtask has produced. -/
def sampleReview : Subtask :=
  { sampleSubtask "node-2" .pending .preferRemote with
    dependsOn := ["node-1"]
    fileConstraints := ["src/main.rs"]
    requiredCapabilities := ["review"] }

/-- The first worker has produced what is to be reviewed. -/
def sampleReviewStore : TaskStore :=
  sampleStore [{ sampleSubtask "node-1" .completed .preferRemote with
    assignedWorker := some "worker-1" }, sampleReview]

theorem produced_sampleReview : Produced sampleReviewStore "task-1" sampleReview "worker-1" :=
  ⟨_, rfl, "node-1", mem_cons_self, _, rfl, rfl⟩

theorem review_independent_iff_targeted :
    ∃ dispatch : Dispatch, dispatch.subtask = sampleReview ∧
      dispatch ∈ (selectReady sampleReviewStore .publishReadySubtasks "task-1"
        ((sampleRegistry true).gate (fun _ => none) sampleReviewStore "task-1" 1) 1).1 ∧
      ∀ workerId, Produced sampleReviewStore "task-1" dispatch.subtask workerId →
        ¬ CanConsume (sampleRegistry true) dispatch.subject workerId := by
  have selected : (selectReady sampleReviewStore .publishReadySubtasks "task-1"
      ((sampleRegistry true).gate (fun _ => none) sampleReviewStore "task-1" 1) 1).1 =
      [⟨.publishReadySubtasks, "task-1", "proj", sampleReview, "uc.subtask.execute.w.worker-2"⟩] := by
    decide +kernel
  have member : (⟨.publishReadySubtasks, "task-1", "proj", sampleReview,
      "uc.subtask.execute.w.worker-2"⟩ : Dispatch) ∈ (selectReady sampleReviewStore
        .publishReadySubtasks "task-1"
        ((sampleRegistry true).gate (fun _ => none) sampleReviewStore "task-1" 1) 1).1 := by
    rw [selected]
    exact mem_cons_self
  have target : HasTarget (sampleRegistry true) sampleReviewStore "task-1" sampleReview 1 := by
    refine ⟨sampleWorker "worker-2" true, by decide +kernel, rfl, ?_, fun _ => by decide +kernel⟩
    rintro ⟨task, known, dep, memberDep, node, found, assigned⟩
    cases known
    rw [mem_singleton.mp memberDep] at found
    cases found
    exact absurd assigned (by decide)
  exact ⟨_, rfl, member, (review_independent_iff member rfl).mpr (.inl target)⟩

/-- A review goes to the shared subject, where the worker that produced what it reviews finds it. -/
theorem review_independent_fails_shared :
    ∃ dispatch : Dispatch, dispatch.subtask = sampleReview ∧
      dispatch ∈ (selectReady sampleReviewStore .publishReadySubtasks "task-1"
        ((sampleRegistry false).gate (fun _ => none) sampleReviewStore "task-1" 1) 1).1 ∧
      Produced sampleReviewStore "task-1" dispatch.subtask "worker-1" ∧
      CanConsume (sampleRegistry false) dispatch.subject "worker-1" := by
  have selected : (selectReady sampleReviewStore .publishReadySubtasks "task-1"
      ((sampleRegistry false).gate (fun _ => none) sampleReviewStore "task-1" 1) 1).1 =
      [⟨.publishReadySubtasks, "task-1", "proj", sampleReview, "uc.subtask.execute"⟩] := by
    decide +kernel
  refine ⟨⟨.publishReadySubtasks, "task-1", "proj", sampleReview, "uc.subtask.execute"⟩, rfl, ?_,
    produced_sampleReview, .inr ⟨rfl, rfl⟩⟩
  rw [selected]
  exact mem_cons_self

end UltimateCoders.Gateway
