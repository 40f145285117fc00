import UltimateCoders.Gateway.Dispatch
import UltimateCoders.Gateway.Protection

/-! # Failed publications

When a publication fails, the dispatcher reverts the subtask whatever has become of
it since it was marked. It yields to a newer decision exactly if there is none.
-/

namespace UltimateCoders.Gateway

open Governance (Instant)
open UltimateCoders.Graph (TaskStatus SubtaskStatus)
open TaskStore
open Transition (Run)

variable {store : TaskStore} {taskId subtaskId : String} {task : Task} {subtask old : Subtask}
  {now : Instant}

theorem subtask_eq_some :
    store.subtask taskId subtaskId = some subtask ↔
      ∃ task, store.tasks.lookup taskId = some task ∧
        findSubtask task.subtasks subtaskId = some subtask := by
  unfold TaskStore.subtask
  cases store.tasks.lookup taskId with
  | none | some task => simp

theorem subtask_putTask_self :
    (store.putTask taskId task).subtask taskId subtaskId = findSubtask task.subtasks subtaskId := by
  unfold TaskStore.subtask
  rw [putTask, AList.lookup_insert]

theorem subtask_updateSubtaskStatus {status : SubtaskStatus}
    (found : store.subtask taskId subtaskId = some old) :
    (store.updateSubtaskStatus taskId subtaskId status now).subtask taskId subtaskId =
      some { old with status := status } := by
  obtain ⟨task, lookedUp, first⟩ := subtask_eq_some.mp found
  unfold updateSubtaskStatus
  simp only [lookedUp, first]
  rw [subtask_putTask_self]
  apply findSubtask_changeSubtask _ first
  exact fun _ => rfl

theorem incrementDispatchRetry_of_subtask (now : Instant)
    (found : store.subtask taskId subtaskId = some old) :
    (store.incrementDispatchRetry taskId subtaskId now).1 = some (old.dispatchRetryCount + 1) ∧
      (store.incrementDispatchRetry taskId subtaskId now).2.subtask taskId subtaskId =
        some { old with dispatchRetryCount := old.dispatchRetryCount + 1 } := by
  obtain ⟨task, lookedUp, first⟩ := subtask_eq_some.mp found
  unfold incrementDispatchRetry
  simp only [lookedUp, first]
  refine ⟨trivial, ?_⟩
  rw [subtask_putTask_self]
  apply findSubtask_changeSubtask _ first
  exact fun _ => rfl

/-- What a failed publication makes of a subtask. -/
def failPublication (mode : DispatchMode) (subtask : Subtask) : Subtask :=
  match mode with
  | .remote =>
    let count := subtask.dispatchRetryCount + 1
    { subtask with
      dispatchRetryCount := count
      status := if count ≥ maxDispatchRetries then .failed else .pending }
  | .preferRemote => { subtask with status := .pending }

theorem subtask_handlePublishFailure {dispatch : Dispatch}
    (found : store.subtask dispatch.taskId dispatch.subtask.id = some old) :
    (handlePublishFailure store dispatch now).subtask dispatch.taskId dispatch.subtask.id =
      some (failPublication dispatch.subtask.dispatchMode old) := by
  unfold handlePublishFailure
  cases mode : dispatch.subtask.dispatchMode with
  | remote =>
    obtain ⟨count, counted⟩ := incrementDispatchRetry_of_subtask now found
    simp only [mode, if_true, count, Option.getD_some, failPublication]
    split
    · exact subtask_updateSubtaskStatus counted
    · exact subtask_updateSubtaskStatus counted
  | preferRemote =>
    simp only [mode, reduceCtorEq, if_false, failPublication]
    exact subtask_updateSubtaskStatus found

namespace Dispatch

/-- The subtask is still assigned under the attempt that was to be published. -/
def StillAssigned (dispatch : Dispatch) (subtask : Subtask) : Prop :=
  subtask.status = .assigned ∧ subtask.dispatchRetryCount = dispatch.subtask.dispatchRetryCount

/-- A dispatcher moves or counts a subtask only if it is still assigned under the
attempt that was to be published. In particular it does not take up an outcome. -/
structure Yields (dispatch : Dispatch) (old new : Subtask) : Prop where
  changed : new.status ≠ old.status ∨ new.dispatchRetryCount ≠ old.dispatchRetryCount →
    dispatch.StillAssigned old
  outcome : old.status = .completed ∨ old.status = .failed → new.status ≠ .pending

/-- Nothing was decided since the subtask was marked, or it waits anyway. -/
def Undecided (dispatch : Dispatch) (subtask : Subtask) : Prop :=
  dispatch.StillAssigned subtask ∨
    dispatch.subtask.dispatchMode = .preferRemote ∧ subtask.status = .pending

theorem yields_iff {dispatch : Dispatch} :
    dispatch.Yields old (failPublication dispatch.subtask.dispatchMode old) ↔
      dispatch.Undecided old := by
  constructor
  · intro yields
    cases mode : dispatch.subtask.dispatchMode with
    | remote =>
      rw [mode] at yields
      refine .inl (yields.changed (.inr ?_))
      simp [failPublication]
    | preferRemote =>
      rw [mode] at yields
      by_cases waits : old.status = .pending
      · exact .inr ⟨mode, waits⟩
      · exact .inl (yields.changed (.inl fun same => waits same.symm))
  · rintro (still | ⟨mode, waits⟩)
    · refine ⟨fun _ => still, fun outcome => ?_⟩
      rw [still.1] at outcome
      rcases outcome with impossible | impossible <;> cases impossible
    · rw [mode]
      refine ⟨fun changed => ?_, fun outcome => ?_⟩
      · rcases changed with moved | counted
        · exact absurd waits.symm moved
        · exact absurd rfl counted
      · rw [waits] at outcome
        rcases outcome with impossible | impossible <;> cases impossible

end Dispatch

namespace GatewayState

variable {sha256Hex : String → String} {before after source target : GatewayState}
  {action : GatewayAction} {actions : List GatewayAction} {dispatch : Dispatch}

/-- If the action handles a failed publication, it yields to what was decided since. -/
def FailureYields (before : GatewayState) (action : GatewayAction) (after : GatewayState) : Prop :=
  ∀ dispatch, before.failing action = some dispatch →
    ∀ old, before.store.subtask dispatch.taskId dispatch.subtask.id = some old →
      ∃ new, after.store.subtask dispatch.taskId dispatch.subtask.id = some new ∧
        dispatch.Yields old new

/-- If the action handles a failed publication, nothing was decided since. -/
def FailureUndecided (before : GatewayState) (action : GatewayAction) : Prop :=
  ∀ dispatch, before.failing action = some dispatch →
    ∀ old, before.store.subtask dispatch.taskId dispatch.subtask.id = some old →
      dispatch.Undecided old

theorem store_of_failing (step : before.Steps sha256Hex action after)
    (fails : before.failing action = some dispatch) :
    ∃ now, after.store = handlePublishFailure before.store dispatch now := by
  cases action with
  | handleFailure position now =>
    obtain ⟨first, rest, found, rfl⟩ := steps_handleFailure step
    simp only [failing, found, Option.some.injEq] at fails
    subst fails
    exact ⟨now, rfl⟩
  | _ => cases fails

theorem failureYields_iff (step : before.Steps sha256Hex action after) :
    before.FailureYields action after ↔ before.FailureUndecided action := by
  constructor
  · intro yields dispatch fails old found
    obtain ⟨now, stored⟩ := store_of_failing step fails
    obtain ⟨new, foundNew, yielded⟩ := yields dispatch fails old found
    rw [stored, subtask_handlePublishFailure found, Option.some.injEq] at foundNew
    rw [← foundNew] at yielded
    exact Dispatch.yields_iff.mp yielded
  · intro undecided dispatch fails old found
    obtain ⟨now, stored⟩ := store_of_failing step fails
    refine ⟨_, by rw [stored]; exact subtask_handlePublishFailure found, ?_⟩
    exact Dispatch.yields_iff.mpr (undecided dispatch fails old found)

/-- The runs in which dispatchers yield to every newer decision are those in which
nothing is decided between marking a subtask and handling the failure of its publication. -/
theorem run_failureYields_iff :
    Run (fun before action after => before.Steps sha256Hex action after ∧
        before.FailureYields action after) source actions target ↔
      Run (fun before action after => before.Steps sha256Hex action after ∧
        before.FailureUndecided action) source actions target := by
  constructor
  · exact fun run => run.mono fun before action after ⟨step, yields⟩ =>
      ⟨step, (failureYields_iff step).mp yields⟩
  · exact fun run => run.mono fun before action after ⟨step, undecided⟩ =>
      ⟨step, (failureYields_iff step).mpr undecided⟩

/-- A task is cancelled while the publication of its subtask fails, and the failed
subtask waits again. -/
theorem failureYields_fails_cancelled :
    ∃ before after : GatewayState,
      Run (Steps id) ⟨sampleStore [sampleSubtask "node-1" .pending .preferRemote], [], []⟩
        [.select .dispatchReadySubtasks "task-1" (fun _ => some "uc.subtask.execute") 1,
          .failPublish 0, .operate (.cancelTask "task-1") 2] before ∧
      before.Steps id (.handleFailure 0 3) after ∧
      (before.store.subtask "task-1" "node-1").map Subtask.status = some .failed ∧
      (after.store.subtask "task-1" "node-1").map Subtask.status = some .pending ∧
      ¬ before.FailureYields (.handleFailure 0 3) after := by
  have run : Run (Steps id) ⟨sampleStore [sampleSubtask "node-1" .pending .preferRemote], [], []⟩
      [.select .dispatchReadySubtasks "task-1" (fun _ => some "uc.subtask.execute") 1,
        .failPublish 0, .operate (.cancelTask "task-1") 2] _ :=
    .cons rfl (.cons rfl (.cons rfl (.nil _)))
  refine ⟨_, _, run, rfl, rfl, rfl, fun yields => ?_⟩
  obtain ⟨new, foundNew, yielded⟩ := yields _ rfl _ rfl
  cases foundNew
  exact yielded.outcome (.inr rfl) rfl

end GatewayState

end UltimateCoders.Gateway
