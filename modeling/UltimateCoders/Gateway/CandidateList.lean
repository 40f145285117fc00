import UltimateCoders.Gateway.WorkerRegistry

/-! # The verdict, the candidates and the target

The registry judges a subtask by a cascade of refusals, lists the workers that may take it
by a chain of filters, and chooses one of them by a score. Where somebody has the
capabilities, the verdict says that there is a candidate, and the choice is one of them.
-/

namespace UltimateCoders.Gateway

open Governance (Instant)
open WorkerRegistry

variable {registry : WorkerRegistry} {required exclude : List String} {projectId : String}
  {now : Instant}

theorem dispatchCandidates_eq_nil_iff :
    registry.dispatchCandidates required projectId exclude now = [] ↔
      ((registry.workersWithCapabilitiesExcluding required exclude now).filter fun worker =>
        worker.servesScope projectId).all (fun worker => worker.contractVersion ≠ contractVersion) =
          true := by
  simp only [dispatchCandidates, List.filter_eq_nil_iff, List.all_eq_true, decide_eq_true_eq, ne_eq]

theorem dispatchGate_eq_dispatch_iff
    (capable : registry.workersWithCapabilities required now ≠ []) :
    (registry.dispatchGate required projectId ⟨exclude, []⟩ now).1 = .dispatch ↔
      registry.dispatchCandidates required projectId exclude now ≠ [] := by
  rw [Ne, dispatchCandidates_eq_nil_iff, dispatchGate, if_neg capable, if_neg (by simp)]
  dsimp only
  by_cases independent : registry.workersWithCapabilitiesExcluding required exclude now = []
  · simp [independent]
  · rw [if_neg independent]
    split_ifs with scope version
    · simp [scope]
    · exact iff_of_false (by simp) (not_not.mpr version)
    · exact iff_of_true rfl version

theorem of_mem_dispatchCandidates {worker : RegisteredWorker}
    (member : worker ∈ registry.dispatchCandidates required projectId exclude now) :
    worker.servesScope projectId = true ∧ worker.contractVersion = contractVersion ∧
      worker.id ∉ exclude ∧ worker.currentLoad < worker.maxCapacity := by
  have capacity := (capacity_of_mem_dispatchCandidates member).2
  have independent := (mem_dispatchCandidates.mp member).2
  simp only [dispatchCandidates, List.mem_filter, decide_eq_true_eq] at member
  exact ⟨member.1.2, member.2, independent, capacity⟩

theorem target_mem_dispatchCandidates {hostFromMetadata : String → Option String}
    {fileConstraints siblingHosts : List String} {placement : Placement}
    (placed : registry.placementTarget hostFromMetadata required projectId fileConstraints
      siblingHosts exclude now = some placement) :
    ∃ worker ∈ registry.dispatchCandidates required projectId exclude now,
      worker.id = placement.workerId ∧ placement.subject = perWorkerSubject worker.id ∧
        worker.perWorkerTopic = true := by
  obtain ⟨candidate, member, named, subject⟩ := worker_of_placeWithPolicy placed
  obtain ⟨worker, ownTopic, rfl⟩ := List.mem_map.mp member
  obtain ⟨listed, topic⟩ := List.mem_filter.mp ownTopic
  exact ⟨worker, listed, named.symm, subject, topic⟩

/-- Verdict, list and target agree: a subtask that somebody is able to do is published exactly
if there is a candidate, and its target is a candidate that may take it. -/
theorem dispatch_agrees (hostFromMetadata : String → Option String) (registry : WorkerRegistry)
    (required : List String) (projectId : String)
    (fileConstraints siblingHosts excluded : List String) (now : Instant) :
    ((∃ worker ∈ registry.availableWorkers now,
        ∀ capability ∈ required, capability ∈ worker.capabilities) →
      ((registry.dispatchGate required projectId ⟨excluded, []⟩ now).1 = .dispatch ↔
        registry.dispatchCandidates required projectId excluded now ≠ [])) ∧
    ∀ placement, registry.placementTarget hostFromMetadata required projectId fileConstraints
        siblingHosts excluded now = some placement →
      ∃ worker ∈ registry.dispatchCandidates required projectId excluded now,
        worker.id = placement.workerId ∧ worker.perWorkerTopic = true ∧
        worker.servesScope projectId = true ∧ worker.contractVersion = contractVersion ∧
        worker.id ∉ excluded ∧ worker.currentLoad < worker.maxCapacity := by
  constructor
  · rintro ⟨worker, available, able⟩
    refine dispatchGate_eq_dispatch_iff (List.ne_nil_of_mem (a := worker) ?_)
    simpa [workersWithCapabilities, workersWithCapabilitiesExcluding] using ⟨available, able⟩
  · intro placement placed
    obtain ⟨worker, listed, named, _, topic⟩ := target_mem_dispatchCandidates placed
    exact ⟨worker, listed, named, topic, of_mem_dispatchCandidates listed⟩

/-- The second worker reviews what the first one has made. -/
theorem dispatch_agrees_review :
    ((sampleRegistry true).dispatchGate ["review"] "proj" ⟨["worker-1"], []⟩ 1).1 = .dispatch ∧
      ∃ worker ∈ (sampleRegistry true).dispatchCandidates ["review"] "proj" ["worker-1"] 1,
        worker.id = "worker-2" ∧ worker.perWorkerTopic = true ∧
        worker.servesScope "proj" = true ∧ worker.contractVersion = contractVersion ∧
        worker.id ∉ ["worker-1"] ∧ worker.currentLoad < worker.maxCapacity := by
  have agrees := dispatch_agrees (fun _ => none) (sampleRegistry true) ["review"] "proj"
    ["src/main.rs"] [] ["worker-1"] 1
  refine ⟨(agrees.1 ⟨sampleWorker "worker-2" true, by decide +kernel, by simp [sampleWorker]⟩).mpr ?_,
    agrees.2 ⟨"worker-2", "uc.subtask.execute.w.worker-2", 1, 0, false⟩ ?_⟩
  · exact List.ne_nil_of_mem (a := sampleWorker "worker-2" true) (by decide +kernel)
  · decide +kernel

end UltimateCoders.Gateway
