import UltimateCoders.Orchestrator.TaskReports

/-! # Reconciling a task

A tick takes over what the gateway reports, finishes or re-decomposes the task if no subtask is open
any more, and claims ready subtasks otherwise. A subtask that waits for a failed one is open and
never gets ready.
-/

namespace UltimateCoders.Orchestrator

open UltimateCoders.Graph (SubtaskStatus)

inductive ControlState where
  | running
  | paused
  | cancelled
  deriving DecidableEq

/-- A task that the session drives, as far as a tick reads and changes it. -/
structure OwnedTask where
  status : TaskStateStatus := .inProgress
  controlState : ControlState := .running
  loop : ClaimLoop
  error : Option String := none
  redecomposed : Bool := false
  owned : Bool := true
  deriving DecidableEq

open OwnedTask

namespace OwnedTask

variable (platform : Platform) (answer : Option (List SubtaskDef))

def having (task : OwnedTask) (status : LocalStatus) : List SubtaskResult :=
  task.loop.subtasks.filter (·.status = status)

/-- New subtasks in place of the failed ones, if the decomposer answers. -/
def tryRedecompose (task : OwnedTask) : Option OwnedTask :=
  if task.redecomposed || (task.having .failed).isEmpty then none
  else answer.map fun newDefs => { task with
    loop := { task.loop with
      subtasks := task.loop.subtasks.filter (·.status ≠ .failed) ++ newDefs.map fun definition =>
        { id := definition.id
          dependsOn := (task.having .completed).map (·.id) ++ definition.dependsOn
          files := definition.files
          dispatchMode := definition.dispatchMode
          conflictRisk := riskOf (classifyConflicts platform newDefs) definition.id } }
    redecomposed := true
    error := none
    status := .inProgress }

/-- The task is over, and driven no longer. -/
def finishTask (task : OwnedTask) (terminal : TaskStateStatus) : OwnedTask :=
  let failed := (task.having .failed).map (·.id)
  { task with
    status := terminal
    error := if terminal = .failed && (task.error.getD "").isEmpty then
        some (toString failed.length ++ " subtask(s) failed: " ++ ", ".intercalate failed)
      else task.error
    loop := { task.loop with claimed := [] }
    owned := false }

end OwnedTask

/-- One round of the loop over the subtasks, with the answer to the report of a claim. -/
def ClaimLoop.round (accepts : Nat → Bool) (loop : ClaimLoop) (batch : Batch) : ClaimLoop :=
  let scanned := loop.scan batch
  match scanned.step (.reported (accepts batch.position)) with
  | none => scanned
  | some reported => (reported.step .start).getD reported

/-- So many rounds at most. -/
def ClaimLoop.claimRest (accepts : Nat → Bool) : Nat → ClaimLoop → ClaimLoop
  | 0, loop => loop
  | rounds + 1, loop =>
    match loop.tick with
    | .claiming batch => claimRest accepts rounds (loop.round accepts batch)
    | _ => loop

/-- A tick of the task, with what the decomposer answers and which reports are accepted. -/
def reconcileTask (platform : Platform) (answer : Option (List SubtaskDef)) (accepts : Nat → Bool)
    (task : OwnedTask) (server : List SubtaskSync) : OwnedTask :=
  if task.controlState ≠ .running ∨ task.status ≠ .inProgress then task
  else
    let loop := { task.loop with subtasks := adoptAll task.loop.claimed server task.loop.subtasks }
    let task := { task with loop }
    if (loop.subtasks.filter (·.isOpen)).isEmpty && loop.claimed.isEmpty then
      (task.tryRedecompose platform answer).getD
        (task.finishTask (if (task.having .failed).isEmpty then .completed else .failed))
    else
      let batch := { server, inflightMedium := loop.inflightMedium }
      { task with
        loop := ClaimLoop.claimRest accepts (loop.subtasks.length + 1)
          { loop with tick := .claiming batch } }

/-- The subtask of the mirror shows what the gateway reports: completed, failed or pending. -/
def SubtaskResult.Shows (subtask : SubtaskResult) (sst : SubtaskSync) : Prop :=
  sst.id = subtask.id ∧
    ((sst.status = .completed ∧ subtask.status = .completed) ∨
      (sst.status = .failed ∧ subtask.status = .failed) ∨
      (sst.status = .pending ∧ subtask.status = .pending))

open SubtaskResult

/-- A task that is driven, with a mirror that shows the report; nothing is claimed, and all that is
pending waits for something. -/
structure Stalled (task : OwnedTask) (server : List SubtaskSync) : Prop where
  running : task.controlState = .running
  inProgress : task.status = .inProgress
  unclaimed : task.loop.claimed = []
  shown : ∀ sst ∈ server, ∃ subtask ∈ adoptAll [] server task.loop.subtasks, subtask.Shows sst
  shows : ∀ subtask ∈ adoptAll [] server task.loop.subtasks, ∃ sst ∈ server, subtask.Shows sst
  waits : ∀ subtask ∈ adoptAll [] server task.loop.subtasks, subtask.status = .pending →
    ∃ depId ∈ subtask.dependsOn, ¬ (serverById server depId).any (·.status = .completed)

/-- The task is re-decomposed, for the first time, or finished: completed with all its subtasks, or
failed. -/
def Closes (before after : OwnedTask) : Prop :=
  (before.redecomposed = false ∧ after.redecomposed = true) ∨
    (after.status = .completed ∧ ∀ subtask ∈ after.loop.subtasks, subtask.status = .completed) ∨
    after.status = .failed

theorem claimRest_of_idle (accepts : Nat → Bool) (rounds : Nat) {loop : ClaimLoop}
    (idle : loop.tick = .idle) : loop.claimRest accepts rounds = loop := by
  cases rounds <;> simp [ClaimLoop.claimRest, idle]

theorem claimRest_of_unclaimable {accepts : Nat → Bool} {rounds : Nat} {loop : ClaimLoop}
    {batch : Batch} (claiming : loop.tick = .claiming batch)
    (unclaimable : ∀ subtask ∈ loop.subtasks, subtask.claimable loop.claimed batch.server = false)
    (inside : batch.position ≤ loop.subtasks.length)
    (enough : loop.subtasks.length < rounds + batch.position) :
    loop.claimRest accepts rounds = { loop with tick := .idle } := by
  induction rounds generalizing loop batch with
  | zero => omega
  | succ rounds ih =>
    have ended (scanned : loop.scan batch = { loop with tick := .idle }) :
        loop.claimRest accepts (rounds + 1) = { loop with tick := .idle } := by
      simp only [ClaimLoop.claimRest, claiming, ClaimLoop.round, scanned, ClaimLoop.step]
      exact claimRest_of_idle accepts rounds rfl
    cases here : loop.subtasks[batch.position]? with
    | none => exact ended (by simp only [ClaimLoop.scan, here])
    | some subtask =>
      by_cases full : loop.maxConcurrency ≤ loop.claimed.length
      · exact ended (by simp only [ClaimLoop.scan, here, full, if_true])
      · have below := (List.getElem?_eq_some_iff.mp here).1
        have skipped : loop.scan batch = { loop with tick := .claiming batch.next } := by
          simp [ClaimLoop.scan, here, full, unclaimable subtask (List.mem_of_getElem? here)]
        simp only [ClaimLoop.claimRest, claiming, ClaimLoop.round, skipped, ClaimLoop.step]
        exact ih rfl unclaimable below (by simp only [Batch.next]; omega)

variable {task : OwnedTask} {server : List SubtaskSync} {platform : Platform}
  {answer : Option (List SubtaskDef)} {accepts : Nat → Bool}

theorem SubtaskResult.Shows.isOpen_iff {subtask : SubtaskResult} {sst : SubtaskSync}
    (shows : subtask.Shows sst) : subtask.isOpen = true ↔ sst.status = .pending := by
  obtain ⟨_, ⟨server, mirror⟩ | ⟨server, mirror⟩ | ⟨server, mirror⟩⟩ := shows <;>
    simp [isOpen, server, mirror]

theorem Stalled.unmoved (stalled : Stalled task server) {sst : SubtaskSync} (member : sst ∈ server)
    (pending : sst.status = .pending) :
    reconcileTask platform answer accepts task server = { task with
      loop := { task.loop with
        subtasks := adoptAll [] server task.loop.subtasks
        tick := .idle } } := by
  obtain ⟨running, inProgress, unclaimed, shown, shows, waits⟩ := stalled
  obtain ⟨subtask, listed, same⟩ := shown sst member
  have left : ¬ (((adoptAll [] server task.loop.subtasks).filter (·.isOpen)).isEmpty &&
      ([] : List String).isEmpty) = true := by
    simpa using ⟨subtask, listed, same.isOpen_iff.mpr pending⟩
  unfold reconcileTask
  rw [if_neg (by simp [running, inProgress])]
  simp only [unclaimed, if_neg left]
  rw [claimRest_of_unclaimable rfl ?_ (Nat.zero_le _) (by simp)]
  intro subtask listed
  by_cases pending : subtask.status = .pending
  · obtain ⟨depId, depends, missing⟩ := waits subtask listed pending
    have unready : (subtask.dependsOn.all fun depId =>
        (serverById server depId).any (·.status = .completed)) = false :=
      List.all_eq_false.mpr ⟨depId, depends, missing⟩
    simp only [claimable, unready, Bool.and_false]
  · simp [claimable, pending]

theorem closes_of_settled {before : OwnedTask} (same : before.redecomposed = task.redecomposed)
    (settled : ∀ subtask ∈ task.loop.subtasks,
      subtask.status = .completed ∨ subtask.status = .failed) :
    Closes before ((task.tryRedecompose platform answer).getD
      (task.finishTask (if (task.having .failed).isEmpty then .completed else .failed))) := by
  by_cases none : task.having .failed = []
  · have completed (subtask : SubtaskResult) (member : subtask ∈ task.loop.subtasks) :
        subtask.status = .completed :=
      (settled subtask member).resolve_right fun failed =>
        List.filter_eq_nil_iff.mp none subtask member (decide_eq_true failed)
    refine .inr (.inl ?_)
    simpa [tryRedecompose, none, finishTask] using completed
  · have failing : (task.having .failed).isEmpty = false := by simpa using none
    cases once : task.redecomposed with
    | true =>
      refine .inr (.inr ?_)
      simp [tryRedecompose, finishTask, once, failing]
    | false =>
      cases answer with
      | none =>
        refine .inr (.inr ?_)
        simp [tryRedecompose, finishTask, failing]
      | some newDefs =>
        refine .inl ⟨same.trans once, ?_⟩
        simp [tryRedecompose, once, failing]

/-- A task that has come to a standstill is closed exactly if none of its subtasks is pending. -/
theorem reconcileTask_closes_iff (stalled : Stalled task server) :
    Closes task (reconcileTask platform answer accepts task server) ↔
      ∀ sst ∈ server, sst.status ≠ .pending := by
  constructor
  · intro closes sst member pending
    rw [stalled.unmoved member pending] at closes
    rcases closes with ⟨before, after⟩ | ⟨completed, _⟩ | failed
    · simp [before] at after
    · simp [stalled.inProgress] at completed
    · simp [stalled.inProgress] at failed
  · intro settled
    obtain ⟨running, inProgress, unclaimed, _, shows, _⟩ := stalled
    have closed : (adoptAll [] server task.loop.subtasks).filter (·.isOpen) = [] := by
      rw [List.filter_eq_nil_iff]
      intro subtask listed opened
      obtain ⟨sst, member, same⟩ := shows subtask listed
      exact settled sst member (same.isOpen_iff.mp opened)
    unfold reconcileTask
    rw [if_neg (by simp [running, inProgress])]
    simp only [unclaimed, closed, List.isEmpty_nil, Bool.and_self, if_true]
    refine closes_of_settled rfl fun subtask listed => ?_
    obtain ⟨sst, member, same⟩ := shows subtask listed
    obtain ⟨_, ⟨_, mirror⟩ | ⟨_, mirror⟩ | ⟨pending, _⟩⟩ := same
    · exact .inl mirror
    · exact .inr mirror
    · exact absurd pending (settled sst member)

/-- Two subtasks, the second of which depends on the first. -/
def pairInTurn (first second : LocalStatus) : OwnedTask where
  loop :=
    { subtasks := [{ id := "a", status := first, dependsOn := [], files := [] },
        { id := "b", status := second, dependsOn := ["a"], files := [] }]
      maxConcurrency := 2 }

def pairReported (first second : SubtaskStatus) : List SubtaskSync :=
  [⟨"a", first, ""⟩, ⟨"b", second, ""⟩]

theorem reconcileTask_closes_iff_completed :
    Closes (pairInTurn .completed .completed)
      (reconcileTask ⟨id, false, id⟩ none (fun _ => true) (pairInTurn .completed .completed)
        (pairReported .completed .completed)) := by
  have same : adoptAll [] (pairReported .completed .completed)
      (pairInTurn .completed .completed).loop.subtasks =
        (pairInTurn .completed .completed).loop.subtasks := by decide +kernel
  refine (reconcileTask_closes_iff ⟨rfl, rfl, rfl, ?_, ?_, ?_⟩).mpr (by simp [pairReported]) <;>
    rw [same] <;> simp [pairReported, pairInTurn, Shows]

/-- The first subtask has failed, so the second one never gets ready. -/
theorem reconcileTask_fails_blocked :
    ¬ ∀ platform answer accepts task server, Stalled task server →
      Closes task (reconcileTask platform answer accepts task server) := by
  intro closes
  have same : adoptAll [] (pairReported .failed .pending)
      (pairInTurn .failed .pending).loop.subtasks =
        (pairInTurn .failed .pending).loop.subtasks := by decide +kernel
  have stalled : Stalled (pairInTurn .failed .pending) (pairReported .failed .pending) := by
    refine ⟨rfl, rfl, rfl, ?_, ?_, ?_⟩ <;> rw [same] <;>
      simp [pairReported, pairInTurn, Shows, serverById]
  have after := closes ⟨id, false, id⟩ none (fun _ => true) _ _ stalled
  rw [stalled.unmoved (List.mem_cons_of_mem _ List.mem_cons_self) rfl] at after
  simp [Closes, pairInTurn] at after

end UltimateCoders.Orchestrator
