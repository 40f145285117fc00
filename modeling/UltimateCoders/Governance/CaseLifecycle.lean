import UltimateCoders.Governance.CaseLedger
import UltimateCoders.Governance.CaseWake

/-! # The life of a stored case

Many clients change cases through the store, each by a compare-and-swap loop that may be overtaken.
Whatever the interleaving, a stored case becomes what a sequence of calls on the document alone
makes of it. So what holds of one case under all sequences of calls holds of every stored case.
-/

namespace UltimateCoders.Governance

open Transition Program Relation

universe u

variable {Index : Type u} {Value Document : Type}

section Steps

variable (codec : Codec Value Document) (Step : Document → Document → Prop)
  (start : RecordStore Value) (space : String)

/-- A client creates a document, or replaces the one that it has read by a step from it. -/
def stepRule : WriteRule Index Value := fun index _ log place key value expected =>
  place = space → expected = some 0 ∨ ∃ record before after,
    WasRead start index space key record [] log ∧ expected = some record.version ∧
      codec.decode record.value = .ok before ∧ value = codec.encode after ∧ Step before after

variable {codec Step start space} {log later : List (StoreEvent Index Value)} {key : String}
  {record : Record Value} {document : Document}

/-- Stored documents take steps only. -/
theorem steps_of_log (proper : ProperLog (stepRule codec Step start space) start later)
    (positive : ∀ record, start.get space key = some record → record.version ≠ 0)
    (since : log <+: later) (found : (storeAfter start log).get space key = some record)
    (decoded : codec.decode record.value = .ok document) :
    ∃ current reached, (storeAfter start later).get space key = some current ∧
      codec.decode current.value = .ok reached ∧ ReflTransGen Step document reached := by
  refine proper.induct_from (motive := fun later => ∃ current reached,
    (storeAfter start later).get space key = some current ∧
      codec.decode current.value = .ok reached ∧ ReflTransGen Step document reached)
    since ⟨record, document, found, decoded, .refl⟩ ?_
  intro middle event _ before allowed ⟨current, reached, stored, read, steps⟩
  rcases get_cases allowed space key with same | ⟨expected, written, accepted, rfl, rfl, replaced⟩
  · exact ⟨current, reached, same.trans stored, read, steps⟩
  · rcases accepted.ruled rfl with rfl | ⟨old, source, target, seen, rfl, oldRead, value, step⟩
    · exact absurd (accepted.version_expected stored) (version_ne_zero before positive stored)
    · have same := seen.current_eq before stored (accepted.version_expected stored)
      rw [← same, read, Except.ok.injEq] at oldRead
      subst oldRead
      refine ⟨written, target, replaced, ?_, steps.tail step⟩
      rw [value]
      exact codec.decode_encode target

end Steps

/-- A call is accepted, and what it makes of the case is written under some version. -/
def CaseStep (before after : WorkCase) : Prop :=
  ∃ (call : CaseCall) (changed : WorkCase) (version : Nat),
    call.apply before = .ok changed ∧ after = { changed with version := version }

/-- No call looks at the version. -/
theorem CaseCall.apply_version (call : CaseCall) (case : WorkCase) (version : Nat) :
    call.apply { case with version := version } =
      (call.apply case).map fun changed => { changed with version := version } := by
  have transition : ∀ (source : WorkCase) next now,
      WorkCase.transition { source with version := version } next now =
        (source.transition next now).map fun changed => { changed with version := version } := by
    intro source next now
    simp only [WorkCase.transition,
      apply_ite (Except.map fun changed : WorkCase => { changed with version := version })]
    rfl
  have openRun : ∀ (source : WorkCase) runId taskId submissionId now,
      WorkCase.openRun { source with version := version } runId taskId submissionId now =
        (source.openRun runId taskId submissionId now).map
          fun changed => { changed with version := version } := by
    intro source runId taskId submissionId now
    simp only [WorkCase.openRun,
      apply_ite (Except.map fun changed : WorkCase => { changed with version := version })]
    rfl
  have finishRun : ∀ (source : WorkCase) runId outcome detail now,
      WorkCase.finishRun { source with version := version } runId outcome detail now =
        (source.finishRun runId outcome detail now).map
          fun changed => { changed with version := version } := by
    intro source runId outcome detail now
    cases found : source.runs[source.runs.findIdx fun run => run.runId = runId]? with
    | none =>
      simp only [WorkCase.finishRun, found]
      rfl
    | some run =>
      simp only [WorkCase.finishRun, found]
      cases run.isOpen with
      | false => rfl
      | true => exact transition { source with runs := source.runs.modify _ _ } outcome.next now
  cases call with
  | openRun runId taskId submissionId now => exact openRun case runId taskId submissionId now
  | linkRun runId taskId submissionId now =>
    simp only [apply, WorkCase.linkRun]
    by_cases isOpen : case.status = .open
    · rw [if_pos isOpen, if_pos isOpen, transition]
      cases case.transition .active now with
      | error error => rfl
      | ok active => exact openRun active runId taskId submissionId now
    · rw [if_neg isOpen, if_neg isOpen]
      exact openRun case runId taskId submissionId now
  | finishRun runId outcome detail now => exact finishRun case runId outcome detail now
  | closeRun runId outcome detail now =>
    simp only [apply, WorkCase.closeRun]
    cases case.runs.find? fun run => run.runId = runId with
    | none => rfl
    | some run => exact finishRun case run.runId outcome detail now
  | transition next now => exact transition case next now

/-- Steps lead to what a sequence of calls makes of the case, under some version. -/
theorem exists_calls {before after : WorkCase} (steps : ReflTransGen CaseStep before after)
    (attempts : List UInt32) :
    ∃ calls version, after =
      { (CaseHistory.after ⟨before, attempts⟩ calls).case with version := version } := by
  induction steps with
  | refl => exact ⟨[], before.version, rfl⟩
  | tail _ step ih =>
    obtain ⟨calls, earlier, rfl⟩ := ih
    obtain ⟨call, changed, version, accepted, rfl⟩ := step
    rw [call.apply_version] at accepted
    refine ⟨calls ++ [call], version, ?_⟩
    rw [CaseHistory.after_snoc, CaseHistory.apply]
    cases made : call.apply (CaseHistory.after ⟨before, attempts⟩ calls).case with
    | error error =>
      rw [made] at accepted
      cases accepted
    | ok next =>
      rw [made] at accepted
      cases accepted
      rfl

theorem WorkCase.status_of_openRun {case changed : WorkCase} {runId taskId : String}
    {submissionId : Option String} {now : Instant}
    (accepted : case.openRun runId taskId submissionId now = .ok changed) :
    changed.status = case.status ∧ case.status.isTerminal = false := by
  unfold openRun at accepted
  split at accepted
  · cases accepted
  · rename_i running
    split_ifs at accepted
    cases accepted
    exact ⟨rfl, Bool.eq_false_iff.mpr running⟩

/-- No call is accepted by a closed case. -/
theorem CaseCall.not_terminal {call : CaseCall} {case changed : WorkCase}
    (accepted : call.apply case = .ok changed) : case.status.isTerminal = false := by
  have moves : case.Moved changed → case.status.isTerminal = false := by
    intro moved
    have allowed := moved.1
    unfold CaseStatus.canTransitionTo at allowed
    split at allowed
    · cases allowed
    · rename_i running
      exact Bool.eq_false_iff.mpr running
  cases call with
  | openRun runId taskId submissionId now => exact (WorkCase.status_of_openRun accepted).2
  | linkRun runId taskId submissionId now =>
    simp only [apply, WorkCase.linkRun] at accepted
    split at accepted
    · rename_i isOpen
      rw [isOpen]
      rfl
    · exact (WorkCase.status_of_openRun accepted).2
  | finishRun runId outcome detail now => exact moves (WorkCase.moved_of_finishRun accepted)
  | closeRun runId outcome detail now => exact moves (WorkCase.moved_of_closeRun accepted)
  | transition next now => exact moves (WorkCase.moved_of_transition accepted)

theorem eq_of_terminal {before after : WorkCase} (steps : ReflTransGen CaseStep before after)
    (terminal : before.status.isTerminal = true) : after = before := by
  rcases steps.cases_head with same | ⟨middle, ⟨call, changed, version, accepted, -⟩, -⟩
  · exact same.symm
  · rw [CaseCall.not_terminal accepted] at terminal
    cases terminal

/-- A case without runs has at most one open, and few, after every sequence of calls. -/
theorem ledger_after {case : WorkCase} (none : case.runs = []) (gone : case.compactedRuns = 0)
    (calls : List CaseCall) :
    ((CaseHistory.after ⟨case, []⟩ calls).case.runs.filter CaseRun.isOpen).length ≤ 1 ∧
      (CaseHistory.after ⟨case, []⟩ calls).case.runs.length ≤ maxRunHistory := by
  have numbered : CaseHistory.Numbered ⟨case, []⟩ 0 := by
    refine ⟨gone, ?_, ?_, ?_, fun impossible => absurd rfl impossible, ?_⟩
    all_goals simp only [none]
    · intro index run found
      cases found
    · rfl
    · exact Nat.zero_le _
    · intro index run found
      cases found
  obtain ⟨removed, reached⟩ := numbered.after calls
  exact ⟨reached.lastOpen.length_filter, reached.bounded⟩

section Clients

variable {serde : CaseSerde Value} {start : RecordStore Value} {calls : Index → CaseClient}
  {index : Index} {log : List (StoreEvent Index Value)}

theorem steps_caseUpdate (caseId : String) {mutate : WorkCase → Except CaseTransitionError WorkCase}
    (steps : ∀ case changed, mutate case = .ok changed → ∀ version,
      CaseStep case { changed with version := version }) :
    Obeys (stepRule serde.case CaseStep start caseNamespace) start index
      (CaseStore.update serde.case caseId mutate) log := by
  refine (heeds_caseUpdate serde.case caseId mutate ?_).weaken fun _ _ _ _ _ => trivial
  intro later record case changed _ _ seen decoded mutated _
  exact .inr ⟨record, case, _, seen.since_mono log.nil_prefix, rfl, decoded, rfl,
    steps case changed mutated _⟩

theorem steps_wakeCase (triggerId : String) (now : Instant) (caseId : String) :
    Obeys (stepRule serde.case CaseStep start caseNamespace) start index
      (wakeCase serde caseId triggerId now) log := by
  apply Heeds.seq (heeds_caseGet serde.case caseId)
  intro result tested _ _ _
  rcases result with error | none | found
  · exact .returned
  · exact .returned
  · dsimp only
    split
    · exact .returned
    · apply Heeds.seq (heeds_resolveWaiting serde caseId triggerId now
        fun _ _ _ _ _ _ elsewhere => absurd elsewhere (by decide))
      intro result resolved _ _ _
      cases result with
      | error detail => exact .returned
      | ok resolvedAttention =>
        refine Heeds.ends (steps_caseUpdate caseId fun case changed moved version =>
          ⟨.transition .active now, changed, version, moved, rfl⟩) fun result => ?_
        cases result with
        | error error | ok changed => exact ⟨_, rfl⟩

theorem steps_wakeMatchedCases (triggerId : String) (now : Instant) (matched : List String)
    (woken : List CaseWake) :
    Obeys (stepRule serde.case CaseStep start caseNamespace) start index
      (wakeMatchedCases serde triggerId now matched woken) log := by
  induction matched generalizing log woken with
  | nil => exact .returned
  | cons caseId rest ih =>
    apply Heeds.seq (steps_wakeCase triggerId now caseId)
    intro result later _ _ _
    rcases result with detail | none | wake <;> exact ih _

/-- Clients that change cases by calls on the store only. -/
def CallsOnly (calls : Index → CaseClient) : Prop :=
  ∀ index caseId mutate, calls index = .update caseId mutate → ∃ call : CaseCall, mutate = call.apply

theorem steps_caseClient (lawful : CallsOnly calls) (index : Index) :
    Obeys (stepRule serde.case CaseStep start caseNamespace) start index
      ((calls index).program serde) log := by
  cases call : calls index with
  | wake triggerId now matched =>
    exact (steps_wakeMatchedCases triggerId now matched []).ends fun _ => ⟨_, rfl⟩
  | create case =>
    refine Heeds.ends (heeds_createUnique serde.case case ?_) fun _ => ⟨_, rfl⟩
    exact fun _ _ _ _ => .inl rfl
  | update caseId mutate =>
    obtain ⟨made, rfl⟩ := lawful index caseId mutate call
    exact (steps_caseUpdate caseId fun case changed accepted version =>
      ⟨made, changed, version, accepted, rfl⟩).ends fun _ => ⟨_, rfl⟩

/-- In every run, a stored case is what a sequence of calls makes of the one that was stored earlier,
up to its version. So it does not change any more once it is closed; and if it had no runs, at most
one of its runs is open, and few are kept. -/
theorem lifecycle_of_run [DecidableEq Index] (lawful : CallsOnly calls)
    {target : CaseSession Index Value} {moves : List (Index × Circumstance)}
    (run : Run (serves RecordStore.execute) (working serde start calls) moves target)
    (earlier : log <+: target.log) {caseId : String} {record : Record Value} {case : WorkCase}
    (positive : ∀ record, start.get caseNamespace caseId = some record → record.version ≠ 0)
    (found : (storeAfter start log).get caseNamespace caseId = some record)
    (decoded : serde.case.decode record.value = .ok case) :
    ∃ current reached calls, target.store.get caseNamespace caseId = some current ∧
      serde.case.decode current.value = .ok reached ∧
      reached = { (CaseHistory.after ⟨case, []⟩ calls).case with version := reached.version } ∧
      (case.status.isTerminal = true → reached = case) ∧
      (case.runs = [] → case.compactedRuns = 0 →
        (reached.runs.filter CaseRun.isOpen).length ≤ 1 ∧ reached.runs.length ≤ maxRunHistory) := by
  have account := Session.accounted_of_run (steps_caseClient lawful) run
  obtain ⟨current, reached, stored, read, steps⟩ :=
    steps_of_log account.proper positive earlier found decoded
  obtain ⟨calls, version, same⟩ := exists_calls steps []
  rw [account.store_eq]
  refine ⟨current, reached, calls, stored, read, ?_, eq_of_terminal steps, fun none gone => ?_⟩
  · rw [same]
  · rw [same]
    exact ledger_after none gone calls

end Clients

theorem lifecycle_of_run_eventAndHuman :
    ∃ current reached calls,
      (servedCases [0, 0, 1, 1, 0, 0]).store.get caseNamespace "case-1" = some current ∧
      plainCases.case.decode current.value = .ok reached ∧ reached.status = .active ∧
      reached = { (CaseHistory.after ⟨{ WorkCase.new "case-1" "fix the build" "it keeps failing"
          "proj" ⟨"github", none, none, none⟩ 0 with status := .waitingEvent, version := 1 }, []⟩
        calls).case with version := reached.version } := by
  have lawful : CallsOnly eventAndHuman := by
    intro index caseId mutate call
    cases index with
    | zero => cases call
    | succ index =>
      cases call
      exact ⟨.transition .needsHuman 3, rfl⟩
  have positive : ∀ record, oneWaiting.get caseNamespace "case-1" = some record →
      record.version ≠ 0 := by
    intro record found
    cases found
    decide
  obtain ⟨current, reached, calls, stored, decoded, same, -⟩ := lifecycle_of_run lawful
    (run_servedCases [0, 0, 1, 1, 0, 0]) (List.nil_prefix) positive rfl rfl
  cases stored
  cases decoded
  exact ⟨_, _, calls, rfl, rfl, rfl, same⟩

end UltimateCoders.Governance
