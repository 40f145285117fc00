import Mathlib.Algebra.GroupWithZero.Nat
import UltimateCoders.Runtime.TaskBudget

/-! # Totals and verdicts of the budget

The totals of a task are the sums of what was recorded for it, in whatever order the calls come.
The two verdicts agree where there is a cap: without caps an admission is granted, and a completion
is answered as if the budget were used up. A budget whose time began at zero has no time cap.
-/

namespace UltimateCoders.Runtime

open TaskBudgetLedger

/-- The usage blocks that were recorded for a task. -/
def usagesOf (taskId : String) (calls : List BudgetCall) : List (Option SubtaskUsage) :=
  calls.filterMap fun call =>
    match call.request with
    | .record usage _ => if call.taskId = taskId then some usage else none
    | .admitTask => none

def tokensOf : Option SubtaskUsage → Nat
  | some usage => positivePart usage.inputTokens + positivePart usage.outputTokens
  | none => 0

def costOf : Option SubtaskUsage → Nat
  | some usage => positivePart usage.totalCostMicroUsd
  | none => 0

/-- There is a positive number in the usage block. -/
def CarriesNumber (usage : Option SubtaskUsage) : Prop :=
  ∃ block ∈ usage, ∃ field ∈ [block.inputTokens, block.outputTokens, block.totalCostMicroUsd],
    ∃ number ∈ field, 0 < number

instance (usage : Option SubtaskUsage) : Decidable (CarriesNumber usage) := by
  unfold CarriesNumber
  infer_instance

def tokensUsed (taskId : String) (calls : List BudgetCall) : Nat :=
  ((usagesOf taskId calls).map tokensOf).sum

def costUsed (taskId : String) (calls : List BudgetCall) : Nat :=
  ((usagesOf taskId calls).map costOf).sum

def firstClock (taskId : String) (calls : List BudgetCall) : Option Seconds :=
  (calls.find? fun call => call.taskId = taskId).map BudgetCall.now

/-- The record of a task says what the calls add up to. -/
structure Totals (taskId : String) (calls : List BudgetCall) (record : BudgetRecord) : Prop where
  tokens : record.tokensUsed = tokensUsed taskId calls
  cost : record.costMicroUsd = costUsed taskId calls
  executions : record.executions = (usagesOf taskId calls).length
  unreported : record.unreported = (usagesOf taskId calls).countP fun usage => ¬ CarriesNumber usage
  started : firstClock taskId calls = some record.startedAt

/-- The caps that are met once the last of the calls is counted. -/
def TokensMet (calls : List BudgetCall) (call : BudgetCall) : Prop :=
  ∃ cap ∈ call.limits.tokens, cap ≤ tokensUsed call.taskId calls

def CostMet (calls : List BudgetCall) (call : BudgetCall) : Prop :=
  ∃ cap ∈ call.limits.costUsd, cap ≤ (costUsed call.taskId calls : ℚ) / 1000000

def TimeMet (calls : List BudgetCall) (call : BudgetCall) : Prop :=
  ∃ cap ∈ call.limits.seconds, ∃ started ∈ firstClock call.taskId calls, cap ≤ call.now - started

/-- The verdict of a call is the one that an admission would get right afterwards, and refuses
exactly where a cap is met. -/
structure VerdictRight (before : List BudgetCall) (call : BudgetCall) : Prop where
  agrees : call.request ≠ .admitTask →
    let verdict := call.answer (recordsAfter before call.taskId)
    let next := admitTask call.taskId call.limits call.now
      (recordsAfter (before ++ [call]) call.taskId)
    verdict.admitted = next.admitted ∧ verdict.reason = next.reason
  refuses : (call.answer (recordsAfter before call.taskId)).admitted = false ↔
    TokensMet (before ++ [call]) call ∨ CostMet (before ++ [call]) call ∨
      TimeMet (before ++ [call]) call

structure BudgetKept (calls : List BudgetCall) : Prop where
  totals : ∀ before, before <+: calls → ∀ taskId record,
    recordsAfter before taskId = some record → Totals taskId before record
  verdicts : ∀ before call, before ++ [call] <+: calls → VerdictRight before call

/-- A completion is recorded under some cap, and time that began at zero does not run out before
anything else. -/
def Capped (before : List BudgetCall) (call : BudgetCall) : Prop :=
  (call.request ≠ .admitTask → call.limits.unlimited = false) ∧
    (firstClock call.taskId (before ++ [call]) = some 0 → TimeMet (before ++ [call]) call →
      TokensMet (before ++ [call]) call ∨ CostMet (before ++ [call]) call)

section Totals

variable {taskId : String} {calls : List BudgetCall} {call : BudgetCall} {record : BudgetRecord}

theorem usagesOf_snoc : usagesOf taskId (calls ++ [call]) = usagesOf taskId calls ++
    match call.request with
    | .record usage _ => if call.taskId = taskId then [usage] else []
    | .admitTask => [] := by
  rw [usagesOf, List.filterMap_append]
  congr 1
  cases request : call.request with
  | admitTask => simp [request]
  | record usage subtaskId => by_cases own : call.taskId = taskId <;> simp [request, own]

theorem firstClock_snoc : firstClock taskId (calls ++ [call]) =
    (firstClock taskId calls).or (if call.taskId = taskId then some call.now else none) := by
  rw [firstClock, firstClock, List.find?_append]
  cases calls.find? fun call => call.taskId = taskId with
  | some first => rfl
  | none => by_cases own : call.taskId = taskId <;> simp [own]

theorem positivePart_ne_zero {number : Option Int} :
    positivePart number ≠ 0 ↔ ∃ positive ∈ number, 0 < positive := by
  cases number with
  | none => simp [positivePart]
  | some number =>
    have positive : (∃ positive ∈ some number, 0 < positive) ↔ 0 < number := by simp
    rw [positive, positivePart]
    omega

theorem measure_eq (usage : Option SubtaskUsage) :
    measure usage = (tokensOf usage, costOf usage, decide (CarriesNumber usage)) := by
  cases usage with
  | none => simp [measure, tokensOf, costOf, CarriesNumber]
  | some block =>
    have carries : CarriesNumber (some block) ↔ positivePart block.inputTokens ≠ 0 ∨
        positivePart block.outputTokens ≠ 0 ∨ positivePart block.totalCostMicroUsd ≠ 0 := by
      simp only [positivePart_ne_zero, CarriesNumber, Option.mem_some_iff, exists_eq_left',
        List.exists_mem_cons_iff, List.not_mem_nil, false_and, exists_false, or_false]
    simp only [measure, tokensOf, costOf, carries, Prod.mk.injEq, true_and]
    rw [Bool.eq_iff_iff]
    simp only [Bool.or_eq_true, decide_eq_true_eq]
    omega

/-- The totals before a call, and the start of the time that the call leaves. -/
structure TotalsSoFar (calls : List BudgetCall) (call : BudgetCall) (base : BudgetRecord) :
    Prop where
  tokens : base.tokensUsed = tokensUsed call.taskId calls
  cost : base.costMicroUsd = costUsed call.taskId calls
  executions : base.executions = (usagesOf call.taskId calls).length
  unreported : base.unreported =
    (usagesOf call.taskId calls).countP fun usage => ¬ CarriesNumber usage
  started : firstClock call.taskId (calls ++ [call]) = some base.startedAt

theorem usagesOf_eq_nil (unknown : ∀ earlier ∈ calls, earlier.taskId ≠ taskId) :
    usagesOf taskId calls = [] := by
  rw [usagesOf, List.filterMap_eq_nil_iff]
  intro earlier member
  cases earlier.request with
  | admitTask => rfl
  | record usage subtaskId => exact if_neg (unknown earlier member)

theorem firstClock_eq_none (unknown : ∀ earlier ∈ calls, earlier.taskId ≠ taskId) :
    firstClock taskId calls = none := by
  rw [firstClock, Option.map_eq_none_iff, List.find?_eq_none]
  simpa using unknown

theorem totalsSoFar (old : Option BudgetRecord)
    (known : ∀ record, old = some record → Totals call.taskId calls record)
    (unknown : old = none → ∀ earlier ∈ calls, earlier.taskId ≠ call.taskId) :
    TotalsSoFar calls call (old.getD (.fresh call.taskId call.now)) := by
  cases found : old with
  | some record =>
    obtain ⟨tokens, cost, executions, unreported, started⟩ := known record found
    refine ⟨tokens, cost, executions, unreported, ?_⟩
    rw [firstClock_snoc, started]
    rfl
  | none =>
    have nothing := usagesOf_eq_nil (unknown found)
    refine ⟨?_, ?_, ?_, ?_, ?_⟩
    · rw [tokensUsed, nothing]
      rfl
    · rw [costUsed, nothing]
      rfl
    · rw [nothing]
      rfl
    · rw [nothing]
      rfl
    · rw [firstClock_snoc, firstClock_eq_none (unknown found), if_pos rfl]
      rfl

theorem TotalsSoFar.leaves {old : Option BudgetRecord}
    (soFar : TotalsSoFar calls call (old.getD (.fresh call.taskId call.now))) :
    Totals call.taskId (calls ++ [call]) (call.leaves old) := by
  obtain ⟨tokens, cost, executions, unreported, started⟩ := soFar
  cases request : call.request with
  | admitTask =>
    have same : usagesOf call.taskId (calls ++ [call]) = usagesOf call.taskId calls := by
      simp [usagesOf_snoc, request]
    simp only [BudgetCall.leaves, request, admitted]
    refine ⟨?_, ?_, ?_, ?_, started⟩
    · rw [tokens, tokensUsed, tokensUsed, same]
    · rw [cost, costUsed, costUsed, same]
    · rw [executions, same]
    · rw [unreported, same]
  | record usage subtaskId =>
    have more : usagesOf call.taskId (calls ++ [call]) =
        usagesOf call.taskId calls ++ [usage] := by
      simp [usagesOf_snoc, request]
    simp only [BudgetCall.leaves, request, recorded, measure_eq]
    refine ⟨?_, ?_, ?_, ?_, started⟩
    · simp [tokens, tokensUsed, more]
    · simp [cost, costUsed, more]
    · simp [executions, more]
    · by_cases carries : CarriesNumber usage <;> simp [unreported, more, carries]

theorem Totals.other (totals : Totals taskId calls record) (other : call.taskId ≠ taskId) :
    Totals taskId (calls ++ [call]) record := by
  have same : usagesOf taskId (calls ++ [call]) = usagesOf taskId calls := by
    cases request : call.request <;> simp [usagesOf_snoc, request, other]
  obtain ⟨tokens, cost, executions, unreported, started⟩ := totals
  refine ⟨?_, ?_, ?_, ?_, ?_⟩
  · rw [tokens, tokensUsed, tokensUsed, same]
  · rw [cost, costUsed, costUsed, same]
  · rw [executions, same]
  · rw [unreported, same]
  · rw [firstClock_snoc, started]
    rfl

theorem totals_recordsAfter (calls : List BudgetCall) (taskId : String) :
    (∀ record, recordsAfter calls taskId = some record → Totals taskId calls record) ∧
      (recordsAfter calls taskId = none → ∀ earlier ∈ calls, earlier.taskId ≠ taskId) := by
  induction calls using List.reverseRecOn with
  | nil => exact ⟨nofun, fun _ _ member => absurd member List.not_mem_nil⟩
  | append_singleton calls call ih =>
    rw [recordsAfter_snoc, BudgetCall.perform]
    by_cases own : taskId = call.taskId
    · subst own
      rw [Function.update_self]
      refine ⟨fun record same => ?_, nofun⟩
      cases same
      exact (totalsSoFar _ ih.1 ih.2).leaves
    · rw [Function.update_of_ne own]
      refine ⟨fun record found => (ih.1 record found).other (Ne.symm own), fun none => ?_⟩
      intro earlier member
      rcases List.mem_append.mp member with known | last
      · exact ih.2 none earlier known
      · rw [List.mem_singleton.mp last]
        exact Ne.symm own

end Totals

section Verdicts

variable {before calls : List BudgetCall} {call : BudgetCall} {record : BudgetRecord}

theorem Totals.exhaustionReason (totals : Totals call.taskId calls record) :
    (record.exhaustionReason call.limits call.now).isSome ↔
      TokensMet calls call ∨ CostMet calls call ∨
        (firstClock call.taskId calls ≠ some 0 ∧ TimeMet calls call) := by
  have tokens : (∃ cap ∈ call.limits.tokens, cap ≤ record.tokensUsed) ↔ TokensMet calls call := by
    rw [TokensMet, totals.tokens]
  have cost : (∃ cap ∈ call.limits.costUsd, cap ≤ record.spent) ↔ CostMet calls call := by
    rw [CostMet, BudgetRecord.spent, totals.cost]
  have time : (∃ cap ∈ call.limits.seconds, record.startedAt ≠ 0 ∧
      cap ≤ call.now - record.startedAt) ↔
        firstClock call.taskId calls ≠ some 0 ∧ TimeMet calls call := by
    rw [TimeMet, totals.started]
    simp only [Option.mem_some_iff, exists_eq_left', ne_eq, Option.some.injEq]
    tauto
  rw [← tokens, ← cost, ← time, BudgetRecord.exhaustionReason]
  by_cases first : ∃ cap ∈ call.limits.tokens, cap ≤ record.tokensUsed
  · rw [if_pos first]
    exact ⟨fun _ => .inl first, fun _ => rfl⟩
  · rw [if_neg first, or_iff_right first]
    by_cases second : ∃ cap ∈ call.limits.costUsd, cap ≤ record.spent
    · rw [if_pos second]
      exact ⟨fun _ => .inl second, fun _ => rfl⟩
    · rw [if_neg second, or_iff_right second]
      split
      · rename_i third
        exact ⟨fun _ => third, fun _ => rfl⟩
      · rename_i third
        exact ⟨nofun, fun met => absurd met third⟩

theorem not_met_of_unlimited (unlimited : call.limits.unlimited = true) :
    ¬ (TokensMet calls call ∨ CostMet calls call ∨ TimeMet calls call) := by
  obtain ⟨tokens, cost, seconds⟩ : call.limits.tokens = none ∧ call.limits.costUsd = none ∧
      call.limits.seconds = none := by
    simpa [BudgetLimits.unlimited, and_assoc] using unlimited
  simp [TokensMet, CostMet, TimeMet, tokens, cost, seconds]

theorem answer_refuses (old : Option BudgetRecord) : (call.answer old).admitted = false ↔
    if call.limits.unlimited then call.request ≠ .admitTask
    else ((call.leaves old).exhaustionReason call.limits call.now).isSome := by
  cases request : call.request with
  | admitTask =>
    simp only [BudgetCall.answer, BudgetCall.leaves, request, admitTask]
    cases call.limits.unlimited with
    | true => simp [BudgetRecord.verdict]
    | false =>
      cases (admitted call.taskId call.now old).exhaustionReason call.limits
        call.now <;> simp [BudgetRecord.verdict]
  | record usage subtaskId =>
    simp only [BudgetCall.answer, BudgetCall.leaves, request, record]
    cases call.limits.unlimited with
    | true => simp [BudgetRecord.verdict]
    | false =>
      cases BudgetRecord.exhaustionReason
        (recorded call.taskId usage subtaskId call.now old) call.limits
        call.now <;> simp [BudgetRecord.verdict]

theorem record_agrees (old : Option BudgetRecord) (completes : call.request ≠ .admitTask) :
    let next := admitTask call.taskId call.limits call.now (some (call.leaves old))
    ((call.answer old).admitted = next.admitted ∧ (call.answer old).reason = next.reason) ↔
      call.limits.unlimited = false := by
  cases request : call.request with
  | admitTask => exact absurd request completes
  | record usage subtaskId =>
    simp only [BudgetCall.answer, BudgetCall.leaves, request, record,
      admitTask, admitted, Option.getD_some]
    cases call.limits.unlimited with
    | true => simp [BudgetRecord.verdict]
    | false =>
      cases BudgetRecord.exhaustionReason
        (recorded call.taskId usage subtaskId call.now old) call.limits
        call.now <;> simp [BudgetRecord.verdict]

/-- A verdict is right exactly where its call is capped. -/
theorem verdictRight_iff : VerdictRight before call ↔ Capped before call := by
  have after : recordsAfter (before ++ [call]) call.taskId =
      some (call.leaves (recordsAfter before call.taskId)) := by
    rw [recordsAfter_snoc, BudgetCall.perform, Function.update_self]
  have met := ((totals_recordsAfter (before ++ [call]) call.taskId).1 _ after).exhaustionReason
  have refuses := @answer_refuses call (recordsAfter before call.taskId)
  have agrees := @record_agrees call (recordsAfter before call.taskId)
  rw [met] at refuses
  rw [← after] at agrees
  refine ⟨fun right => ⟨fun completes => (agrees completes).mp (right.agrees completes), ?_⟩,
    fun capped => ⟨fun completes => (agrees completes).mpr (capped.1 completes), ?_⟩⟩
  · intro zero time
    have exactly := right.refuses
    cases unlimited : call.limits.unlimited with
    | true => exact absurd (.inr (.inr time)) (not_met_of_unlimited unlimited)
    | false =>
      simp only [unlimited, Bool.false_eq_true, if_false] at refuses
      rw [refuses] at exactly
      rcases exactly.mpr (.inr (.inr time)) with tokens | cost | ⟨nonzero, -⟩
      · exact .inl tokens
      · exact .inr cost
      · exact absurd zero nonzero
  · cases unlimited : call.limits.unlimited with
    | true =>
      simp only [unlimited, if_true] at refuses
      have admits : ¬ call.request ≠ .admitTask := fun completes =>
        absurd (capped.1 completes) (by simp [unlimited])
      exact iff_of_false (fun refused => admits (refuses.mp refused))
        (not_met_of_unlimited unlimited)
    | false =>
      simp only [unlimited, Bool.false_eq_true, if_false] at refuses
      rw [refuses]
      refine ⟨Or.imp_right (Or.imp_right And.right), fun met => ?_⟩
      rcases met with tokens | cost | time
      · exact .inl tokens
      · exact .inr (.inl cost)
      · by_cases zero : firstClock call.taskId (before ++ [call]) = some 0
        · exact (capped.2 zero time).imp_right .inl
        · exact .inr (.inr ⟨zero, time⟩)

/-- The totals are right in every sequence of calls, and the verdicts exactly where every call is
capped. -/
theorem budgetKept_iff :
    BudgetKept calls ↔ ∀ before call, before ++ [call] <+: calls → Capped before call := by
  refine ⟨fun kept before call within => verdictRight_iff.mp (kept.verdicts before call within),
    fun capped => ⟨fun before _ taskId => (totals_recordsAfter before taskId).1,
      fun before call within => verdictRight_iff.mpr (capped before call within)⟩⟩

end Verdicts

def sampleUsage : SubtaskUsage := { inputTokens := some 700, outputTokens := some 300 }

theorem budgetKept_fails_unlimited :
    ¬ BudgetKept [⟨"task", {}, 10, .record (some sampleUsage) "one"⟩] := by
  intro kept
  have capped := verdictRight_iff.mp (kept.verdicts [] _ (List.prefix_refl _))
  exact absurd (capped.1 nofun) (by decide)

end UltimateCoders.Runtime
