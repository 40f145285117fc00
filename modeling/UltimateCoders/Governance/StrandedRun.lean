import UltimateCoders.Governance.CaseLedger

/-! # Runs that cannot be finished

The calls of a case change it in place. A run is finished before the change of status that follows
is checked, so a call that is rejected there leaves a case that differs from the one it was given,
and the run stays open wherever rejected changes are not stored.
-/

namespace UltimateCoders.Governance

open List

namespace WorkCase

/-- What a call in place leaves, and what it returns. -/
abbrev Reply := WorkCase × Except CaseTransitionError Unit

def transitionInPlace (case : WorkCase) (next : CaseStatus) (now : Instant) : Reply :=
  if case.status.canTransitionTo next then
    ({ case with status := next, updatedAt := now }, .ok ())
  else (case, .error (.illegal case.status next))

def openRunInPlace (case : WorkCase) (runId taskId : String) (submissionId : Option String)
    (now : Instant) : Reply :=
  if case.status.isTerminal then (case, .error (.terminal case.status))
  else if case.status.isQuiescent then (case, .error (.quiescent case.status))
  else if case.activeRun.isSome then (case, .error .runAlreadyOpen)
  else if case.mandateId.isNone then (case, .error .noMandate)
  else
    let run := { CaseRun.open runId taskId case.nextAttempt now with submissionId := submissionId }
    let kept := compactRuns (case.runs ++ [run]) case.compactedRuns
    ({ case with runs := kept.1, compactedRuns := kept.2, updatedAt := now }, .ok ())

/-- The run is finished first, whatever becomes of the status. -/
def finishRunInPlace (case : WorkCase) (runId : String) (outcome : CaseRunOutcome)
    (detail : Option String) (now : Instant) : Reply :=
  let index := case.runs.findIdx fun run => run.runId = runId
  match case.runs[index]? with
  | none => (case, .error .unknownRun)
  | some run =>
    if run.isOpen then
      { case with runs := case.runs.modify index fun run => run.finish outcome detail now
        }.transitionInPlace outcome.next now
    else (case, .error .runAlreadyFinished)

end WorkCase

/-- A call on the document itself. The ids of runs are drawn at random. -/
inductive DocumentCall where
  | openRun (runId taskId : String) (submissionId : Option String) (now : Instant)
  | finishRun (runId : String) (outcome : CaseRunOutcome) (detail : Option String) (now : Instant)
  | transition (next : CaseStatus) (now : Instant)

open DocumentCall

namespace DocumentCall

def perform : DocumentCall → WorkCase → WorkCase.Reply
  | openRun runId taskId submissionId now, case =>
    case.openRunInPlace runId taskId submissionId now
  | finishRun runId outcome detail now, case => case.finishRunInPlace runId outcome detail now
  | transition next now, case => case.transitionInPlace next now

/-- The case after calls of which some may have been rejected. -/
def after (case : WorkCase) (calls : List DocumentCall) : WorkCase :=
  calls.foldl (fun case call => (call.perform case).1) case

def drawn : DocumentCall → Option String
  | openRun runId _ _ _ => some runId
  | _ => none

end DocumentCall

/-- Finishing an open run succeeds and finishes it, and a rejected call changes nothing. -/
structure DocumentCall.Settles (call : DocumentCall) (case : WorkCase) : Prop where
  finishes : ∀ runId outcome detail now, call = .finishRun runId outcome detail now →
    ∀ (position : Nat) (run : CaseRun), case.runs[position]? = some run → run.isOpen = true →
      run.runId = runId →
      (call.perform case).2 = .ok () ∧
        ∃ closed : CaseRun, (call.perform case).1.runs[position]? = some closed ∧
          closed.runId = runId ∧ closed.outcome = some outcome
  unchanged : ∀ error, (call.perform case).2 = .error error → (call.perform case).1 = case

/-- The status is one that a case with a run of this outcome may leave. -/
def CaseStatus.finishable (status : CaseStatus) (outcome : CaseRunOutcome) : Bool :=
  match outcome with
  | .succeeded => status = .active ∨ status = .waitingEvent ∨ status = .verifying
  | .failed | .cancelled | .superseded => !status.isTerminal

theorem CaseStatus.finishable_eq (status : CaseStatus) (outcome : CaseRunOutcome) :
    status.finishable outcome = status.canTransitionTo outcome.next := by
  cases status <;> cases outcome <;> rfl

/-- The call does not finish an open run with an outcome that the status has no room for. -/
def DocumentCall.Admissible (call : DocumentCall) (case : WorkCase) : Prop :=
  ∀ runId outcome detail now, call = .finishRun runId outcome detail now →
    ∀ run ∈ case.runs, run.isOpen = true → run.runId = runId → case.status.finishable outcome = true

namespace DocumentCall

theorem compactRuns_suffix (runs : List CaseRun) (compacted : UInt32) :
    (WorkCase.compactRuns runs compacted).1 <:+ runs := by
  induction runs generalizing compacted with
  | nil => exact suffix_refl _
  | cons removed rest ih =>
    unfold WorkCase.compactRuns
    split_ifs
    · exact suffix_refl _
    · exact (ih _).trans (suffix_cons removed rest)
    · exact suffix_refl _

theorem map_runId_modify (runs : List CaseRun) (index : Nat) (outcome : CaseRunOutcome)
    (detail : Option String) (now : Instant) :
    (runs.modify index fun run => run.finish outcome detail now).map CaseRun.runId =
      runs.map CaseRun.runId := by
  have kept (run : CaseRun) : (run.finish outcome detail now).runId = run.runId := by
    unfold CaseRun.finish
    split_ifs <;> rfl
  apply ext_getElem?
  intro position
  rw [getElem?_map, getElem?_map, getElem?_modify]
  cases runs[position]? with
  | none => rfl
  | some run =>
    by_cases here : index = position
    · simp [here, kept]
    · simp [here]

theorem runIds_perform (call : DocumentCall) (case : WorkCase) :
    ((call.perform case).1.runs.map CaseRun.runId).Sublist
      (case.runs.map CaseRun.runId ++ call.drawn.toList) := by
  cases call with
  | openRun runId taskId submissionId now =>
    simp only [perform, WorkCase.openRunInPlace, drawn]
    split_ifs
    case neg =>
      exact (compactRuns_suffix _ _).sublist.map CaseRun.runId |>.trans (by simp [CaseRun.open])
    all_goals exact sublist_append_left _ _
  | finishRun runId outcome detail now =>
    simp only [perform, WorkCase.finishRunInPlace, WorkCase.transitionInPlace, drawn,
      Option.toList_none, append_nil]
    cases case.runs[case.runs.findIdx fun run => run.runId = runId]? with
    | none => exact Sublist.refl _
    | some run =>
      dsimp only
      split_ifs
      · simp only [map_runId_modify, Sublist.refl]
      · simp only [map_runId_modify, Sublist.refl]
      · exact Sublist.refl _
  | transition next now =>
    simp only [perform, WorkCase.transitionInPlace, drawn, Option.toList_none, append_nil]
    split_ifs <;> exact Sublist.refl _

theorem runIds_after (calls : List DocumentCall) (case : WorkCase) :
    ((after case calls).runs.map CaseRun.runId).Sublist
      (case.runs.map CaseRun.runId ++ calls.filterMap drawn) := by
  induction calls generalizing case with
  | nil => simp [after]
  | cons call calls ih =>
    have first := (runIds_perform call case).append_right (calls.filterMap drawn)
    have rest := (ih (call.perform case).1).trans first
    rw [append_assoc] at rest
    cases fresh : call.drawn with
    | none | some runId => simpa [filterMap_cons, fresh, after] using rest

variable {case : WorkCase} {runId : String} {outcome : CaseRunOutcome} {detail : Option String}
  {now : Instant} {run : CaseRun} {position : Nat}

theorem findIdx_runId (distinct : (case.runs.map CaseRun.runId).Nodup)
    (found : case.runs[position]? = some run) (same : run.runId = runId) :
    (case.runs.findIdx fun run => run.runId = runId) = position := by
  obtain ⟨bound, rfl⟩ := List.getElem?_eq_some_iff.1 found
  rw [findIdx_eq bound]
  refine ⟨by simpa using same, fun earlier before => ?_⟩
  simp only [decide_eq_false_iff_not]
  intro again
  have positions := (nodup_iff_injective_getElem.1 distinct).eq_iff
    (a := ⟨earlier, by simpa using before.trans bound⟩) (b := ⟨position, by simpa using bound⟩)
  simp only [getElem_map, Fin.mk.injEq] at positions
  exact before.ne (positions.1 (again.trans same.symm))

theorem finishRunInPlace_of_found (distinct : (case.runs.map CaseRun.runId).Nodup)
    (found : case.runs[position]? = some run) (isOpen : run.isOpen = true)
    (same : run.runId = runId) :
    case.finishRunInPlace runId outcome detail now =
      { case with runs := case.runs.modify position fun run => run.finish outcome detail now
        }.transitionInPlace outcome.next now := by
  simp only [WorkCase.finishRunInPlace, findIdx_runId distinct found same, found, isOpen, if_true]

theorem finishRunInPlace_of_finished
    (finished : ∀ run ∈ case.runs, run.runId = runId → run.isOpen = false) :
    (case.finishRunInPlace runId outcome detail now).1 = case := by
  unfold WorkCase.finishRunInPlace
  dsimp only
  cases found : case.runs[case.runs.findIdx fun run => run.runId = runId]? with
  | none => rfl
  | some run =>
    obtain ⟨bound, rfl⟩ := List.getElem?_eq_some_iff.1 found
    have same := findIdx_getElem (w := bound)
    simp [finished _ (getElem_mem bound) (by simpa using same)]

theorem runs_finished (found : case.runs[position]? = some run) (isOpen : run.isOpen = true) :
    (case.runs.modify position fun run => run.finish outcome detail now)[position]? =
      some { run with outcome := some outcome, endedAt := some now, detail := detail } := by
  have unfinished : run.outcome.isSome = false := by
    simpa [CaseRun.isOpen] using isOpen
  simp [found, CaseRun.finish, unfinished]

theorem settles_finishRun_iff (distinct : (case.runs.map CaseRun.runId).Nodup) :
    (finishRun runId outcome detail now).Settles case ↔
      (finishRun runId outcome detail now).Admissible case := by
  constructor
  · intro settles id ended why at_ call run member isOpen same
    obtain ⟨position, found⟩ := getElem?_of_mem member
    have accepted := (settles.finishes id ended why at_ call position run found isOpen same).1
    cases call
    simp only [perform, finishRunInPlace_of_found distinct found isOpen same,
      WorkCase.transitionInPlace] at accepted
    rw [CaseStatus.finishable_eq]
    split_ifs at accepted with allowed
    exact allowed
  · intro admissible
    refine ⟨fun id ended why at_ call position run found isOpen same => ?_, fun error rejected => ?_⟩
    · have allowed := admissible id ended why at_ call run (mem_of_getElem? found) isOpen same
      cases call
      rw [CaseStatus.finishable_eq] at allowed
      simp only [perform, finishRunInPlace_of_found distinct found isOpen same,
        WorkCase.transitionInPlace, allowed, if_true, true_and]
      exact ⟨_, runs_finished found isOpen, same, rfl⟩
    · by_cases finished : ∀ run ∈ case.runs, run.runId = runId → run.isOpen = false
      · exact finishRunInPlace_of_finished finished
      · push Not at finished
        obtain ⟨run, member, same, unfinished⟩ := finished
        have isOpen : run.isOpen = true := by simpa using unfinished
        obtain ⟨position, found⟩ := getElem?_of_mem member
        have allowed := admissible runId outcome detail now rfl run member isOpen same
        rw [CaseStatus.finishable_eq] at allowed
        simp [perform, finishRunInPlace_of_found distinct found isOpen same,
          WorkCase.transitionInPlace, allowed] at rejected

theorem settles_iff_of_distinct (call : DocumentCall)
    (distinct : (case.runs.map CaseRun.runId).Nodup) :
    call.Settles case ↔ call.Admissible case := by
  cases call with
  | openRun runId taskId submissionId now =>
    refine iff_of_true ⟨?_, fun error rejected => ?_⟩ ?_
    · intro id ended why at_ other
      cases other
    · simp only [perform, WorkCase.openRunInPlace] at rejected ⊢
      split_ifs at rejected ⊢ <;> rfl
    · intro id ended why at_ other
      cases other
  | finishRun runId outcome detail now => exact settles_finishRun_iff distinct
  | transition next now =>
    refine iff_of_true ⟨?_, fun error rejected => ?_⟩ ?_
    · intro id ended why at_ other
      cases other
    · simp only [perform, WorkCase.transitionInPlace] at rejected ⊢
      split_ifs at rejected ⊢
      rfl
    · intro id ended why at_ other
      cases other

end DocumentCall

/-- A new case under any mandate, after calls in place. -/
def WorkCase.reached (id title description projectId : String) (origin : CaseOrigin)
    (mandateId : Option String) (now : Instant) (calls : List DocumentCall) : WorkCase :=
  after (CaseHistory.new id title description projectId origin mandateId now).case calls

open WorkCase

/-- In every case that calls lead to, whether they were accepted or not, the next call does what it
is to do, if and only if it does not finish an open run with an outcome that the status has no room
for. -/
theorem settles_iff (id title description projectId : String) (origin : CaseOrigin)
    (mandateId : Option String) (now : Instant) (calls : List DocumentCall) (call : DocumentCall)
    (fresh : (calls.filterMap drawn).Nodup) :
    call.Settles
        (reached id title description projectId origin mandateId now calls) ↔
      call.Admissible
        (reached id title description projectId origin mandateId now calls) := by
  have ids := runIds_after calls
    (CaseHistory.new id title description projectId origin mandateId now).case
  rw [show (CaseHistory.new id title description projectId origin mandateId now).case.runs = []
    from rfl, map_nil, nil_append] at ids
  exact call.settles_iff_of_distinct (ids.nodup fresh)

/-- A case that a person is waited for while its run is open. -/
def sampleHandedOver : List DocumentCall :=
  [.transition .active 0, .openRun "run-1" "task-1" none 0, .transition .needsHuman 0]

/-- The failed run of a case that waits for a person is finished. -/
theorem settles_iff_failed :
    (finishRun "run-1" .failed none 1).Settles
      (reached "case-1" "t" "d" "p" ⟨"manual", none, none, none⟩ (some "m-1") 0
        sampleHandedOver) := by
  refine (settles_iff "case-1" "t" "d" "p" ⟨"manual", none, none, none⟩ (some "m-1") 0
    sampleHandedOver (.finishRun "run-1" .failed none 1) (by decide)).2 ?_
  intro runId outcome detail now call run member isOpen same
  cases call
  rfl

/-- The succeeded run of a case that waits for a person is finished by a call that is rejected. -/
theorem not_settles_succeeded :
    ¬ ∀ calls call, (calls.filterMap drawn).Nodup →
      Settles call
        (reached "case-1" "t" "d" "p" ⟨"manual", none, none, none⟩ (some "m-1") 0
          calls) := by
  intro settles
  have settled := settles sampleHandedOver (.finishRun "run-1" .succeeded none 1) (by decide)
  have unchanged := settled.unchanged (.illegal .needsHuman .verifying) (by decide +kernel)
  exact absurd (congrArg activeRun unchanged) (by decide +kernel)

end UltimateCoders.Governance
