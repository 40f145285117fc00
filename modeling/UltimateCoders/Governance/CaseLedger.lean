import Mathlib.Data.List.Infix
import UltimateCoders.Governance.CaseStore

/-! # The ledger of runs

A case numbers its runs, keeps the youngest, and has at most one of them open. The
numbers are derived from two counters of 32 bits, so they are consecutive for as
long as the counters do not wrap around.
-/

namespace UltimateCoders.Governance

open List

/-- A change of a case, on the document itself or as the case store makes it. -/
inductive CaseCall where
  | openRun (runId taskId : String) (submissionId : Option String) (now : Instant)
  | linkRun (runId taskId : String) (submissionId : Option String) (now : Instant)
  | finishRun (runId : String) (outcome : CaseRunOutcome) (detail : Option String) (now : Instant)
  | closeRun (runId : String) (outcome : CaseRunOutcome) (detail : Option String) (now : Instant)
  | transition (next : CaseStatus) (now : Instant)

namespace CaseCall

def apply : CaseCall → WorkCase → Except CaseTransitionError WorkCase
  | openRun runId taskId submissionId now, case => case.openRun runId taskId submissionId now
  | linkRun runId taskId submissionId now, case => case.linkRun runId taskId submissionId now
  | finishRun runId outcome detail now, case => case.finishRun runId outcome detail now
  | closeRun runId outcome detail now, case => case.closeRun runId outcome detail now
  | transition next now, case => case.transition next now

def opens : CaseCall → Bool
  | openRun _ _ _ _ => true
  | linkRun _ _ _ _ => true
  | _ => false

end CaseCall

/-- A stored case, and the attempts of the runs that were opened so far. -/
structure CaseHistory where
  case : WorkCase
  attempts : List UInt32
  deriving DecidableEq

namespace CaseHistory

/-- A rejected call leaves the case as it is stored. -/
def apply (history : CaseHistory) (call : CaseCall) : CaseHistory :=
  match call.apply history.case with
  | .error _ => history
  | .ok changed =>
    { case := changed
      attempts := if call.opens then
          history.attempts ++ (changed.runs.getLast?.map CaseRun.attempt).toList
        else history.attempts }

def after (history : CaseHistory) (calls : List CaseCall) : CaseHistory :=
  calls.foldl apply history

def new (id title description projectId : String) (origin : CaseOrigin) (mandateId : Option String)
    (now : Instant) : CaseHistory where
  case := { WorkCase.new id title description projectId origin now with mandateId := mandateId }
  attempts := []

/-- One run is open at most, few are kept, and they are numbered without gap or reuse. -/
structure Sound (history : CaseHistory) : Prop where
  oneOpen : (history.case.runs.filter CaseRun.isOpen).length ≤ 1
  bounded : history.case.runs.length ≤ 64
  numbered : ∀ index run, history.case.runs[index]? = some run →
    run.attempt.toNat = history.case.compactedRuns.toNat + index + 1
  next : ∀ run, history.case.runs.getLast? = some run →
    history.case.nextAttempt.toNat = run.attempt.toNat + 1
  fresh : history.attempts.Nodup

/-- An open run stays in the ledger, one that was opened is in it under the next
attempt, and only verified work is completed. -/
structure Keeps (before after : CaseHistory) : Prop where
  openRun : ∀ run ∈ before.case.runs, run.isOpen = true →
    ∃ kept ∈ after.case.runs, kept.runId = run.runId ∧ kept.attempt = run.attempt
  newest : after.attempts ≠ before.attempts → ∃ run, after.case.runs.getLast? = some run ∧
    run.isOpen = true ∧ run.attempt = before.case.nextAttempt
  completed : after.case.status = .completed →
    before.case.status = .completed ∨ before.case.status = .verifying

end CaseHistory

theorem CaseStatus.verifying_of_canTransitionTo_completed {status : CaseStatus}
    (allowed : status.canTransitionTo .completed = true) : status = .verifying := by
  cases status <;> first | rfl | cases allowed

namespace WorkCase

variable {case changed : WorkCase} {runId taskId : String} {submissionId detail : Option String}
  {outcome : CaseRunOutcome} {next : CaseStatus} {now : Instant}

/-- The changed case has one run more, and the oldest may be gone. -/
def Opened (case changed : WorkCase) : Prop :=
  case.activeRun = none ∧ changed.status ≠ .completed ∧ ∃ run : CaseRun,
    run.attempt = case.nextAttempt ∧ run.isOpen = true ∧
    compactRuns (case.runs ++ [run]) case.compactedRuns = (changed.runs, changed.compactedRuns)

/-- The changed case has the same runs, of which one may be finished now. -/
def Moved (case changed : WorkCase) : Prop :=
  case.status.canTransitionTo changed.status = true ∧
    changed.compactedRuns = case.compactedRuns ∧
    ∃ (index : Nat) (change : CaseRun → CaseRun), changed.runs = case.runs.modify index change ∧
      ∀ run, (change run).runId = run.runId ∧ (change run).attempt = run.attempt ∧
        ((change run).isOpen = true → run.isOpen = true)

theorem opened_of_openRun (accepted : case.openRun runId taskId submissionId now = .ok changed) :
    case.Opened changed := by
  unfold openRun at accepted
  split at accepted
  · cases accepted
  · rename_i running
    split at accepted
    · cases accepted
    · split at accepted
      · cases accepted
      · rename_i free
        split at accepted
        · cases accepted
        · cases accepted
          refine ⟨by simpa using free, ?_, _, rfl, rfl, rfl⟩
          intro completed
          rw [show case.status = .completed from completed] at running
          exact running rfl

theorem moved_of_transition (accepted : case.transition next now = .ok changed) :
    case.Moved changed := by
  unfold transition at accepted
  split at accepted
  · rename_i allowed
    cases accepted
    exact ⟨allowed, rfl, 0, fun run => run, (modify_id 0 case.runs).symm,
      fun run => ⟨rfl, rfl, fun isOpen => isOpen⟩⟩
  · cases accepted

theorem opened_of_linkRun (accepted : case.linkRun runId taskId submissionId now = .ok changed) :
    case.Opened changed := by
  unfold linkRun at accepted
  split at accepted
  · rename_i isOpen
    simp only [transition, isOpen, show CaseStatus.canTransitionTo .open .active = true from rfl,
      if_true] at accepted
    have opened := opened_of_openRun accepted
    exact opened
  · exact opened_of_openRun accepted

theorem moved_of_finishRun (accepted : case.finishRun runId outcome detail now = .ok changed) :
    case.Moved changed := by
  unfold finishRun at accepted
  dsimp only at accepted
  split at accepted
  · cases accepted
  · split at accepted
    · unfold transition at accepted
      split at accepted
      · rename_i allowed
        cases accepted
        refine ⟨allowed, rfl, _, _, rfl, fun run => ?_⟩
        unfold CaseRun.finish
        split
        · exact ⟨rfl, rfl, fun isOpen => isOpen⟩
        · exact ⟨rfl, rfl, fun isOpen => by cases isOpen⟩
      · cases accepted
    · cases accepted

theorem Moved.run_origin (moved : case.Moved changed) (position : Nat) (run : CaseRun)
    (found : changed.runs[position]? = some run) :
    ∃ old, case.runs[position]? = some old ∧ run.attempt = old.attempt ∧
      (run.isOpen = true → old.isOpen = true) := by
  obtain ⟨-, -, index, change, runs, keeps⟩ := moved
  rw [runs, getElem?_modify] at found
  cases before : case.runs[position]? with
  | none =>
    rw [before] at found
    cases found
  | some old =>
    rw [before] at found
    by_cases here : index = position
    · simp only [here, if_true, Option.map_eq_map, Option.map_some, Option.some.injEq] at found
      subst found
      exact ⟨old, rfl, (keeps old).2⟩
    · simp only [here, if_false, Option.map_eq_map, Option.map_some, Option.some.injEq] at found
      subst found
      exact ⟨old, rfl, rfl, fun isOpen => isOpen⟩

theorem Moved.run_kept (moved : case.Moved changed) {run : CaseRun} (member : run ∈ case.runs) :
    ∃ kept ∈ changed.runs, kept.runId = run.runId ∧ kept.attempt = run.attempt := by
  obtain ⟨-, -, index, change, runs, keeps⟩ := moved
  obtain ⟨position, found⟩ := getElem?_of_mem member
  have present := congrArg (fun runs : List CaseRun => runs[position]?) runs
  rw [getElem?_modify, found] at present
  by_cases here : index = position
  · simp only [here, if_true, Option.map_eq_map, Option.map_some] at present
    exact ⟨change run, mem_of_getElem? present, (keeps run).1, (keeps run).2.1⟩
  · simp only [here, if_false, Option.map_eq_map, Option.map_some] at present
    exact ⟨run, mem_of_getElem? present, rfl, rfl⟩

theorem moved_of_closeRun (accepted : case.closeRun runId outcome detail now = .ok changed) :
    case.Moved changed := by
  unfold closeRun at accepted
  split at accepted
  · cases accepted
  · exact moved_of_finishRun accepted

end WorkCase

/-- An accepted call opens a run or moves the case on. -/
theorem CaseCall.apply_cases {call : CaseCall} {case changed : WorkCase}
    (accepted : call.apply case = .ok changed) :
    (call.opens = true ∧ case.Opened changed) ∨ (call.opens = false ∧ case.Moved changed) := by
  cases call with
  | openRun runId taskId submissionId now =>
    exact .inl ⟨rfl, WorkCase.opened_of_openRun accepted⟩
  | linkRun runId taskId submissionId now =>
    exact .inl ⟨rfl, WorkCase.opened_of_linkRun accepted⟩
  | finishRun runId outcome detail now =>
    exact .inr ⟨rfl, WorkCase.moved_of_finishRun accepted⟩
  | closeRun runId outcome detail now =>
    exact .inr ⟨rfl, WorkCase.moved_of_closeRun accepted⟩
  | transition next now => exact .inr ⟨rfl, WorkCase.moved_of_transition accepted⟩

/-- The runs are numbered on from those that are gone. -/
def NumberedFrom (removed : Nat) (runs : List CaseRun) : Prop :=
  ∀ index run, runs[index]? = some run → run.attempt = UInt32.ofNat (removed + index + 1)

def LastOpen (runs : List CaseRun) : Prop :=
  ∀ index run, runs[index]? = some run → run.isOpen = true → index + 1 = runs.length

structure CaseHistory.Numbered (history : CaseHistory) (removed : Nat) : Prop where
  compacted : history.case.compactedRuns = UInt32.ofNat removed
  attempt : NumberedFrom removed history.case.runs
  attempts : history.attempts =
    (range (removed + history.case.runs.length)).map fun count => UInt32.ofNat (count + 1)
  bounded : history.case.runs.length ≤ maxRunHistory
  full : removed ≠ 0 → history.case.runs.length = maxRunHistory
  lastOpen : LastOpen history.case.runs

section Runs

variable {removed : Nat} {run oldest : CaseRun} {runs rest : List CaseRun} {compacted : UInt32}

theorem compactRuns_of_le (few : runs.length ≤ maxRunHistory) :
    WorkCase.compactRuns runs compacted = (runs, compacted) := by
  cases runs with
  | nil => rfl
  | cons oldest rest =>
    rw [length_cons] at few
    rw [WorkCase.compactRuns, if_neg (Nat.not_lt.mpr few)]

theorem compactRuns_of_full (full : rest.length = maxRunHistory)
    (finished : oldest.isOpen = false) :
    WorkCase.compactRuns (oldest :: rest) compacted = (rest, compacted + 1) := by
  have tooMany : rest.length + 1 > maxRunHistory := by omega
  rw [WorkCase.compactRuns, if_pos tooMany, finished, if_neg Bool.false_ne_true,
    compactRuns_of_le full.le]

theorem compactRuns_concat (runs : List CaseRun) (run : CaseRun) (compacted : UInt32) :
    ∃ kept, kept <:+ runs ∧
      (WorkCase.compactRuns (runs ++ [run]) compacted).1 = kept ++ [run] := by
  induction runs generalizing compacted with
  | nil => exact ⟨[], suffix_rfl, rfl⟩
  | cons oldest rest ih =>
    rw [cons_append, WorkCase.compactRuns]
    split
    · split
      · exact ⟨oldest :: rest, suffix_rfl, rfl⟩
      · obtain ⟨kept, isSuffix, runs⟩ := ih (compacted + 1)
        exact ⟨kept, isSuffix.trans (suffix_cons oldest rest), runs⟩
    · exact ⟨oldest :: rest, suffix_rfl, rfl⟩

theorem NumberedFrom.snoc (numbered : NumberedFrom removed runs)
    (attempt : run.attempt = UInt32.ofNat (removed + runs.length + 1)) :
    NumberedFrom removed (runs ++ [run]) := by
  intro index other found
  rcases Nat.lt_trichotomy index runs.length with early | rfl | late
  · rw [getElem?_append_left early] at found
    exact numbered index other found
  · rw [getElem?_concat_length, Option.some.injEq] at found
    rw [← found, attempt]
  · rw [getElem?_eq_none (by rw [length_append]; exact late)] at found
    cases found

theorem NumberedFrom.tail (numbered : NumberedFrom removed (oldest :: rest)) :
    NumberedFrom (removed + 1) rest := by
  intro index other found
  have position : removed + (index + 1) + 1 = removed + 1 + index + 1 := by omega
  rw [numbered (index + 1) other found, position]

theorem LastOpen.snoc (finished : ∀ other ∈ runs, other.isOpen = false) :
    LastOpen (runs ++ [run]) := by
  intro index other found isOpen
  rcases Nat.lt_trichotomy index runs.length with early | rfl | late
  · rw [getElem?_append_left early] at found
    rw [finished other (mem_of_getElem? found)] at isOpen
    cases isOpen
  · rw [length_append, length_singleton]
  · rw [getElem?_eq_none (by rw [length_append]; exact late)] at found
    cases found

theorem LastOpen.tail (last : LastOpen (oldest :: rest)) : LastOpen rest := by
  intro index other found isOpen
  have position := last (index + 1) other found isOpen
  exact Nat.succ.inj position

theorem LastOpen.length_filter (last : LastOpen runs) :
    (runs.filter CaseRun.isOpen).length ≤ 1 := by
  induction runs with
  | nil => exact Nat.zero_le 1
  | cons oldest rest ih =>
    cases isOpen : oldest.isOpen with
    | false =>
      rw [filter_cons_of_neg (by rw [isOpen]; exact Bool.false_ne_true)]
      exact ih last.tail
    | true =>
      have only := last 0 oldest rfl isOpen
      have none : rest = [] := length_eq_zero_iff.mp (Nat.succ.inj only).symm
      rw [none, filter_cons_of_pos isOpen]
      exact Nat.le_refl 1

end Runs

theorem WorkCase.finished_of_activeRun {case : WorkCase} (free : case.activeRun = none)
    {run : CaseRun} (member : run ∈ case.runs) : run.isOpen = false :=
  Bool.eq_false_iff.mpr (find?_eq_none.mp free run member)

namespace CaseHistory

variable {history : CaseHistory} {removed : Nat} {call : CaseCall} {changed : WorkCase}

section

variable (numbered : history.Numbered removed)

include numbered

theorem Numbered.nextAttempt :
    history.case.nextAttempt = UInt32.ofNat (removed + history.case.runs.length + 1) := by
  rw [WorkCase.nextAttempt, numbered.compacted, UInt32.ofNat_add, UInt32.ofNat_add]
  rfl

/-- A run is opened, and numbered on. -/
theorem Numbered.opened (opened : history.case.Opened changed) :
    ∃ gone, CaseHistory.Numbered ⟨changed, history.attempts ++
      (changed.runs.getLast?.map CaseRun.attempt).toList⟩ gone := by
  obtain ⟨free, -, run, attempt, -, compacted⟩ := opened
  rw [numbered.nextAttempt] at attempt
  have finished : ∀ other ∈ history.case.runs, other.isOpen = false :=
    fun other => WorkCase.finished_of_activeRun free
  have extended := numbered.attempt.snoc attempt
  have handedOut : history.attempts ++ [run.attempt] =
      (range (removed + history.case.runs.length + 1)).map fun count =>
        UInt32.ofNat (count + 1) := by
    rw [numbered.attempts, attempt, range_succ, map_append, map_singleton]
  by_cases few : history.case.runs.length < maxRunHistory
  · have longer : (history.case.runs ++ [run]).length = history.case.runs.length + 1 := by
      rw [length_append, length_singleton]
    rw [compactRuns_of_le (by rw [longer]; exact few), Prod.mk.injEq] at compacted
    obtain ⟨runs, sameCount⟩ := compacted
    have last : changed.runs.getLast? = some run := by rw [← runs, getLast?_concat]
    refine ⟨removed, ⟨?_, ?_, ?_, ?_, ?_, ?_⟩⟩
    · rw [← sameCount, numbered.compacted]
    · rw [← runs]
      exact extended
    · rw [last, ← runs, longer]
      exact handedOut
    · rw [← runs, longer]
      exact few
    · intro gone
      exact absurd (numbered.full gone) few.ne
    · rw [← runs]
      exact .snoc finished
  · have length : history.case.runs.length = maxRunHistory :=
      Nat.le_antisymm numbered.bounded (Nat.not_lt.mp few)
    obtain ⟨oldest, rest, split⟩ := exists_cons_of_length_eq_add_one
      (length : history.case.runs.length = 63 + 1)
    rw [split] at compacted extended length finished handedOut
    have restLength : (rest ++ [run]).length = maxRunHistory := by
      rw [length_append, length_singleton, ← length, length_cons]
    rw [cons_append, compactRuns_of_full restLength (finished oldest mem_cons_self),
      Prod.mk.injEq] at compacted
    obtain ⟨runs, sameCount⟩ := compacted
    have last : changed.runs.getLast? = some run := by rw [← runs, getLast?_concat]
    refine ⟨removed + 1, ⟨?_, ?_, ?_, ?_, ?_, ?_⟩⟩
    · rw [← sameCount, numbered.compacted, UInt32.ofNat_add]
      rfl
    · rw [← runs]
      exact extended.tail
    · rw [last, ← runs, restLength, Nat.add_right_comm, ← length]
      exact handedOut
    · rw [← runs, restLength]
    · intro _
      rw [← runs, restLength]
    · rw [← runs]
      exact .snoc fun other member => finished other (mem_cons_of_mem _ member)

theorem Numbered.moved (moved : history.case.Moved changed) :
    CaseHistory.Numbered ⟨changed, history.attempts⟩ removed := by
  have origin := moved.run_origin
  obtain ⟨-, compacted, index, change, runs, -⟩ := moved
  have length : changed.runs.length = history.case.runs.length := by
    rw [runs, length_modify]
  refine ⟨compacted.trans numbered.compacted, ?_, ?_, ?_, ?_, ?_⟩
  · intro position run found
    obtain ⟨old, before, attempt, -⟩ := origin position run found
    rw [attempt, numbered.attempt position old before]
  · rw [length]
    exact numbered.attempts
  · rw [length]
    exact numbered.bounded
  · rw [length]
    exact numbered.full
  · intro position run found isOpen
    obtain ⟨old, before, -, wasOpen⟩ := origin position run found
    rw [length]
    exact numbered.lastOpen position old before (wasOpen isOpen)

theorem Numbered.apply (call : CaseCall) : ∃ gone, (history.apply call).Numbered gone := by
  unfold CaseHistory.apply
  cases accepted : call.apply history.case with
  | error error => exact ⟨removed, numbered⟩
  | ok changed =>
    rcases CaseCall.apply_cases accepted with ⟨opens, opened⟩ | ⟨moves, moved⟩
    · simp only [opens, if_true]
      exact numbered.opened opened
    · simp only [moves, Bool.false_eq_true, if_false]
      exact ⟨removed, numbered.moved moved⟩

end

theorem after_snoc (calls : List CaseCall) :
    history.after (calls ++ [call]) = (history.after calls).apply call := by
  rw [after, foldl_append]
  rfl

theorem Numbered.after (numbered : history.Numbered removed) (calls : List CaseCall) :
    ∃ gone, (history.after calls).Numbered gone := by
  induction calls using reverseRecOn with
  | nil => exact ⟨removed, numbered⟩
  | append_singleton earlier call ih =>
    obtain ⟨gone, reached⟩ := ih
    rw [after_snoc]
    exact reached.apply call

theorem Numbered.length_attempts (numbered : history.Numbered removed) :
    history.attempts.length = removed + history.case.runs.length := by
  rw [numbered.attempts, length_map, length_range]

theorem keeps_apply (history : CaseHistory) (call : CaseCall) :
    history.Keeps (history.apply call) := by
  unfold CaseHistory.apply
  cases accepted : call.apply history.case with
  | error error =>
    exact ⟨fun run member _ => ⟨run, member, rfl, rfl⟩, fun more => absurd rfl more, .inl⟩
  | ok changed =>
    rcases CaseCall.apply_cases accepted with ⟨-, free, status, run, attempt, isOpen, compacted⟩ |
      ⟨moves, moved⟩
    · refine ⟨?_, ?_, fun completed => absurd completed status⟩
      · intro other member otherOpen
        rw [WorkCase.finished_of_activeRun free member] at otherOpen
        cases otherOpen
      · intro _
        obtain ⟨kept, -, last⟩ :=
          compactRuns_concat history.case.runs run history.case.compactedRuns
        rw [compacted] at last
        have runs : changed.runs = kept ++ [run] := last
        exact ⟨run, by dsimp only; rw [runs, getLast?_concat], isOpen, attempt⟩
    · refine ⟨fun run member _ => moved.run_kept member, ?_, ?_⟩
      · intro more
        simp only [moves, Bool.false_eq_true, if_false, ne_eq, not_true] at more
      · intro completed
        rw [WorkCase.Moved, completed] at moved
        exact .inr (CaseStatus.verifying_of_canTransitionTo_completed moved.1)

theorem length_attempts_apply (history : CaseHistory) (call : CaseCall) :
    (history.apply call).attempts.length ≤ history.attempts.length + 1 := by
  unfold CaseHistory.apply
  split
  · exact Nat.le_succ _
  · dsimp only
    split
    · rw [length_append]
      exact Nat.add_le_add_left Option.length_toList_le _
    · exact Nat.le_succ _

theorem exists_prefix_of_le_length {count : Nat} (start : history.attempts.length < count)
    (calls : List CaseCall) (reached : count ≤ (history.after calls).attempts.length) :
    ∃ earlier, earlier <+: calls ∧ (history.after earlier).attempts.length = count := by
  induction calls using reverseRecOn with
  | nil => exact absurd reached (Nat.not_le.mpr start)
  | append_singleton earlier call ih =>
    by_cases before : count ≤ (history.after earlier).attempts.length
    · obtain ⟨first, isPrefix, found⟩ := ih before
      exact ⟨first, isPrefix.trans (prefix_append _ _), found⟩
    · have step := length_attempts_apply (history.after earlier) call
      rw [← after_snoc] at step
      exact ⟨earlier ++ [call], prefix_rfl, by omega⟩

theorem length_attempts_mono {earlier calls : List CaseCall} (isPrefix : earlier <+: calls) :
    (history.after earlier).attempts.length ≤ (history.after calls).attempts.length := by
  obtain ⟨rest, rfl⟩ := isPrefix
  induction rest using reverseRecOn with
  | nil => rw [append_nil]
  | append_singleton rest call ih =>
    rw [← append_assoc, after_snoc]
    refine ih.trans ?_
    generalize history.after (earlier ++ rest) = middle
    unfold CaseHistory.apply
    split
    · exact Nat.le_refl _
    · dsimp only
      split
      · rw [length_append]
        exact Nat.le_add_right _ _
      · exact Nat.le_refl _

theorem Numbered.sound (numbered : history.Numbered removed)
    (few : history.attempts.length < 2 ^ 32 - 1) : history.Sound := by
  rw [numbered.length_attempts] at few
  have counter : ∀ count, count ≤ removed + history.case.runs.length + 1 →
      (UInt32.ofNat count).toNat = count := by
    intro count small
    exact UInt32.toNat_ofNat_of_lt' (show count < 2 ^ 32 by omega)
  refine ⟨numbered.lastOpen.length_filter, numbered.bounded, ?_, ?_, ?_⟩
  · intro index run found
    have early := (List.getElem?_eq_some_iff.mp found).1
    rw [numbered.attempt index run found, numbered.compacted, counter _ (by omega),
      counter _ (by omega)]
  · intro run last
    obtain ⟨earlier, runs⟩ := getLast?_eq_some_iff.mp last
    have length : history.case.runs.length = earlier.length + 1 := by
      rw [runs, length_append, length_singleton]
    have found : history.case.runs[earlier.length]? = some run := by
      rw [runs, getElem?_concat_length]
    rw [numbered.nextAttempt, numbered.attempt _ run found, counter _ (by omega),
      counter _ (by omega), length]
    rfl
  · rw [numbered.attempts]
    apply nodup_range.map_on
    intro first firstMem second secondMem same
    have firstSmall := mem_range.mp firstMem
    have secondSmall := mem_range.mp secondMem
    have sameCount := congrArg UInt32.toNat same
    rw [counter _ (by omega), counter _ (by omega)] at sameCount
    exact Nat.succ.inj sameCount

theorem Numbered.not_sound (numbered : history.Numbered removed)
    (last : history.attempts.length = 2 ^ 32 - 1) : ¬ history.Sound := by
  intro sound
  rw [numbered.length_attempts] at last
  have bounded := numbered.bounded
  have kept : history.case.runs ≠ [] := by
    intro none
    have some : removed ≠ 0 := by
      rw [none, length_nil] at last
      omega
    have full := numbered.full some
    rw [none] at full
    cases full
  obtain ⟨earlier, run, runs⟩ := (eq_nil_or_concat' _).resolve_left kept
  have next := sound.next run (by rw [runs, getLast?_concat])
  rw [numbered.nextAttempt, last] at next
  cases next

theorem numbered_new (id title description projectId : String) (origin : CaseOrigin)
    (mandateId : Option String) (now : Instant) :
    (CaseHistory.new id title description projectId origin mandateId now).Numbered 0 := by
  refine ⟨rfl, ?_, rfl, Nat.zero_le _, fun impossible => absurd rfl impossible, ?_⟩
  · intro index run found
    cases found
  · intro index run found
    cases found

/-- The ledger is sound at every point, and every call keeps what it has to, exactly
if fewer runs are opened than the counter has numbers before its last. -/
theorem ledger_iff (id title description projectId : String) (origin : CaseOrigin)
    (mandateId : Option String) (now : Instant) (calls : List CaseCall) :
    ((∀ earlier, earlier <+: calls →
        ((CaseHistory.new id title description projectId origin mandateId now).after earlier).Sound) ∧
      ∀ earlier call, earlier ++ [call] <+: calls →
        ((CaseHistory.new id title description projectId origin mandateId now).after earlier).Keeps
          ((CaseHistory.new id title description projectId origin mandateId now).after
            (earlier ++ [call]))) ↔
      ((CaseHistory.new id title description projectId origin mandateId now).after
        calls).attempts.length < 2 ^ 32 - 1 := by
  have numbered := numbered_new id title description projectId origin mandateId now
  apply Iff.intro
  · intro holds
    by_contra many
    obtain ⟨earlier, isPrefix, reached⟩ :=
      exists_prefix_of_le_length (show 0 < 2 ^ 32 - 1 by decide) calls (Nat.not_lt.mp many)
    obtain ⟨gone, last⟩ := numbered.after earlier
    exact last.not_sound reached (holds.1 earlier isPrefix)
  · intro few
    refine ⟨?_, ?_⟩
    · intro earlier isPrefix
      obtain ⟨gone, reached⟩ := numbered.after earlier
      exact reached.sound ((length_attempts_mono isPrefix).trans_lt few)
    · intro earlier call _
      rw [after_snoc]
      exact keeps_apply _ call

/-- Run ids that differ for different numbers. -/
def runIdOf (number : Nat) : String := String.ofList (replicate number 'r')

theorem runIdOf_injective : Function.Injective runIdOf := by
  intro first second same
  have letters := congrArg (fun text : String => text.toList.length) same
  simpa [runIdOf] using letters

/-- Open a run of an active case and let it fail, so many times. -/
def failing : Nat → List CaseCall
  | 0 => [.transition .active 0]
  | number + 1 => failing number ++
      [.openRun (runIdOf number) "sub-1" none 0, .finishRun (runIdOf number) .failed none 0]

theorem openRun_of_free {case : WorkCase} {runId taskId : String} {now : Instant}
    (active : case.status = .active) (free : case.activeRun = none)
    (mandate : case.mandateId.isNone = false) :
    case.openRun runId taskId none now = .ok { case with
      runs := (WorkCase.compactRuns
        (case.runs ++ [CaseRun.open runId taskId case.nextAttempt now]) case.compactedRuns).1
      compactedRuns := (WorkCase.compactRuns
        (case.runs ++ [CaseRun.open runId taskId case.nextAttempt now]) case.compactedRuns).2
      updatedAt := now } := by
  simp only [WorkCase.openRun, active, free, mandate]
  rfl

theorem finishRun_of_last {case : WorkCase} {kept : List CaseRun} {run : CaseRun} {now : Instant}
    (active : case.status = .active) (runs : case.runs = kept ++ [run]) (isOpen : run.isOpen = true)
    (others : ∀ other ∈ kept, other.runId ≠ run.runId) :
    case.finishRun run.runId .failed none now = .ok { case with
      status := .active
      runs := kept ++ [run.finish .failed none now]
      updatedAt := now } := by
  have notFound : kept.findIdx (fun other => decide (other.runId = run.runId)) = kept.length :=
    findIdx_eq_length_of_false fun other member => decide_eq_false (others other member)
  have found : case.runs.findIdx (fun other => decide (other.runId = run.runId)) = kept.length := by
    rw [runs, findIdx_append, notFound, if_neg (Nat.lt_irrefl _)]
    simp [findIdx_cons]
  have present : case.runs[kept.length]? = some run := by
    rw [runs, getElem?_concat_length]
  have changed : (case.runs.modify kept.length fun run => run.finish .failed none now) =
      kept ++ [run.finish .failed none now] := by
    rw [runs, modify_eq_take_cons_drop (by simp)]
    simp
  simp only [WorkCase.finishRun, found, present, isOpen, if_true, changed, WorkCase.transition,
    active]
  rfl

/-- The case may open a run, and has used the ids of so many. -/
structure Ready (history : CaseHistory) (number : Nat) : Prop where
  status : history.case.status = .active
  mandate : history.case.mandateId.isNone = false
  finished : ∀ run ∈ history.case.runs, run.isOpen = false
  used : ∀ run ∈ history.case.runs, ∃ earlier < number, run.runId = runIdOf earlier

/-- The last run of the case is open, under the next id. -/
def Running (history : CaseHistory) (number : Nat) : Prop :=
  history.case.status = .active ∧ history.case.mandateId.isNone = false ∧
    ∃ (kept : List CaseRun) (run : CaseRun), history.case.runs = kept ++ [run] ∧
      run.runId = runIdOf number ∧ run.isOpen = true ∧ ∀ other ∈ kept, other.isOpen = false ∧
        ∃ earlier < number, other.runId = runIdOf earlier

theorem Ready.openRun {number : Nat} (ready : history.Ready number) :
    (history.apply (.openRun (runIdOf number) "sub-1" none 0)).Running number ∧
      (history.apply (.openRun (runIdOf number) "sub-1" none 0)).attempts.length =
        history.attempts.length + 1 := by
  have free : history.case.activeRun = none := by
    apply find?_eq_none.mpr
    intro other member
    rw [ready.finished other member]
    exact Bool.false_ne_true
  obtain ⟨kept, isSuffix, runs⟩ := compactRuns_concat history.case.runs
    (CaseRun.open (runIdOf number) "sub-1" history.case.nextAttempt 0) history.case.compactedRuns
  simp only [CaseHistory.apply, CaseCall.apply, openRun_of_free ready.status free ready.mandate,
    CaseCall.opens, if_true, runs, getLast?_concat, Option.map_some, Option.toList_some,
    length_append, length_singleton, and_true]
  refine ⟨ready.status, ready.mandate, kept, _, rfl, rfl, rfl, fun other member => ?_⟩
  exact ⟨ready.finished other (isSuffix.subset member), ready.used other (isSuffix.subset member)⟩

theorem Running.fail {number : Nat} (running : history.Running number) :
    (history.apply (.finishRun (runIdOf number) .failed none 0)).Ready (number + 1) ∧
      (history.apply (.finishRun (runIdOf number) .failed none 0)).attempts = history.attempts := by
  obtain ⟨active, mandate, kept, run, runs, runId, isOpen, others⟩ := running
  have different : ∀ other ∈ kept, other.runId ≠ run.runId := by
    intro other member same
    obtain ⟨-, earlier, before, otherId⟩ := others other member
    rw [otherId, runId] at same
    exact before.ne (runIdOf_injective same)
  simp only [CaseHistory.apply, CaseCall.apply, ← runId,
    finishRun_of_last active runs isOpen different, CaseCall.opens]
  refine ⟨⟨rfl, mandate, ?_, ?_⟩, rfl⟩
  · intro other member
    rcases mem_append.mp member with old | new
    · exact (others other old).1
    · rw [mem_singleton.mp new]
      unfold CaseRun.finish
      split
      · rename_i ended
        simpa [CaseRun.isOpen] using ended
      · rfl
  · intro other member
    rcases mem_append.mp member with old | new
    · obtain ⟨-, earlier, before, otherId⟩ := others other old
      exact ⟨earlier, Nat.lt_succ_of_lt before, otherId⟩
    · rw [mem_singleton.mp new]
      refine ⟨number, Nat.lt_succ_self number, ?_⟩
      unfold CaseRun.finish
      split <;> exact runId

def sampleHistory : CaseHistory :=
  .new "case-1" "fix it" "fix it" "proj" ⟨"manual", none, none, none⟩ (some "mandate-1") 0

theorem ready_failing (number : Nat) :
    (sampleHistory.after (failing number)).Ready number ∧
      (sampleHistory.after (failing number)).attempts.length = number := by
  induction number with
  | zero =>
    have none : (sampleHistory.after (failing 0)).case.runs = [] := rfl
    refine ⟨⟨rfl, rfl, ?_, ?_⟩, rfl⟩
    · rw [none]
      exact fun _ member => absurd member not_mem_nil
    · rw [none]
      exact fun _ member => absurd member not_mem_nil
  | succ number ih =>
    obtain ⟨ready, length⟩ := ih
    obtain ⟨running, longer⟩ := ready.openRun
    obtain ⟨again, same⟩ := running.fail
    rw [failing, append_cons, after_snoc, after_snoc]
    exact ⟨again, by rw [same, longer, length]⟩

/-- After so many failed runs the next attempt is counted from zero again. -/
theorem ledger_fails_failing :
    (sampleHistory.after (failing (2 ^ 32 - 1))).case.nextAttempt = 0 ∧
      ¬ (sampleHistory.after (failing (2 ^ 32 - 1))).Sound := by
  have length := (ready_failing (2 ^ 32 - 1)).2
  obtain ⟨gone, numbered⟩ :=
    (numbered_new "case-1" "fix it" "fix it" "proj" ⟨"manual", none, none, none⟩ (some "mandate-1")
      0).after (failing (2 ^ 32 - 1))
  refine ⟨?_, numbered.not_sound length⟩
  have count := numbered.length_attempts.symm.trans length
  rw [sampleHistory, numbered.nextAttempt, count]
  rfl

end CaseHistory

end UltimateCoders.Governance
