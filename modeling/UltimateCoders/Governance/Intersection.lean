import UltimateCoders.Governance.Mandate

/-! # Intersection of mandates

A case that accumulates authority from two sources works under their
intersection. It is meant never to grant more than either input; it does where an
input was revoked, or where one input leaves out a budget ceiling that the other
sets.
-/

namespace UltimateCoders.Governance

/-- Of two optional values the smaller; an absent one gives way. -/
def narrowest {Value : Type} (smaller : Value → Value → Value) :
    Option Value → Option Value → Option Value
  | some first, some second => some (smaller first second)
  | some first, none => some first
  | none, some second => some second
  | none, none => none

def narrowestU64 : Option Nat → Option Nat → Option Nat := narrowest min

/-- Of two doubles the smaller; not-a-number gives way. -/
def floatMin (first second : Float) : Float :=
  if first.isNaN then second
  else if second.isNaN then first
  else if first ≤ second then first
  else second

def narrowestF64 : Option Float → Option Float → Option Float := narrowest floatMin

/-- A scope of the other mandate is kept when this one has it too; budgets are
merged and not kept. -/
def Mandate.sharesScope (self : Mandate) : MandateScope → Bool
  | .repo pattern => self.scopes.any fun
      | .repo other => other == pattern
      | _ => false
  | .branch pattern => self.scopes.any fun
      | .branch other => other == pattern
      | _ => false
  | .path pattern => self.scopes.any fun
      | .path other => other == pattern
      | _ => false
  | .tool name => self.scopes.any fun
      | .tool other => other == name
      | _ => false
  | .action class' => self.scopes.any fun
      | .action other => other == class'
      | _ => false
  | .budget _ _ _ => false
  | .maxRuns max => self.scopes.any fun
      | .maxRuns other => max ≤ other
      | _ => false

open Mandate

/-- The budget of an intersection, when both mandates have one. -/
def mergeBudget : Option MandateScope → Option MandateScope → List MandateScope
  | some (.budget firstTokens firstCost firstWall), some (.budget secondTokens secondCost secondWall) =>
    [.budget (narrowestU64 firstTokens secondTokens) (narrowestF64 firstCost secondCost)
      (narrowestU64 firstWall secondWall)]
  | _, _ => []

/-- Narrowest of two mandates of one case, under a fresh id. -/
def Mandate.intersect (self other : Mandate) (freshId : String) (now : Instant) : Mandate where
  id := freshId
  caseId := self.caseId
  grantor := self.grantor
  policyVersion := max self.policyVersion other.policyVersion
  scopes := self.scopes.filter other.sharesScope ++ mergeBudget self.budgetScope other.budgetScope
  issuedAt := now
  expiresAt := narrowest min self.expiresAt other.expiresAt
  revoked := none
  origin := if self.origin = other.origin then self.origin else .caseDelegated
  delegatedFrom := none

section Intersect

variable {first second : Mandate} {freshId : String} {now : Instant}

theorem intersect_live_iff {time : Instant} :
    (first.intersect second freshId now).Live time ↔
      first.isExpired time = false ∧ second.isExpired time = false := by
  have live : (first.intersect second freshId now).Live time ↔
      ∀ expiry ∈ narrowest min first.expiresAt second.expiresAt, time < expiry :=
    ⟨fun live => live.unexpired, fun unexpired => ⟨rfl, unexpired⟩⟩
  rw [live, isExpired, isExpired]
  cases first.expiresAt <;> cases second.expiresAt <;> simp [narrowest]

theorem isBudget_of_mem_mergeBudget {firstBudget secondBudget : Option MandateScope}
    {scope : MandateScope} (member : scope ∈ mergeBudget firstBudget secondBudget) :
    scope.isBudget = true := by
  unfold mergeBudget at member
  split at member
  · rw [List.mem_singleton.mp member]
    rfl
  · exact (List.not_mem_nil member).elim

theorem mem_intersect_scopes {scope : MandateScope} (plain : scope.isBudget = false) :
    scope ∈ (first.intersect second freshId now).scopes ↔
      scope ∈ first.scopes ∧ second.sharesScope scope = true := by
  refine List.mem_append.trans (Iff.trans (or_iff_left fun merged => ?_) List.mem_filter)
  rw [isBudget_of_mem_mergeBudget merged] at plain
  cases plain

theorem intersect_budgetScope :
    (first.intersect second freshId now).budgetScope =
      (mergeBudget first.budgetScope second.budgetScope).head? := by
  have none : (first.scopes.filter second.sharesScope).find? MandateScope.isBudget = none := by
    rw [List.find?_eq_none]
    intro scope member isBudget
    have shared := (List.mem_filter.mp member).2
    cases scope with
    | budget _ _ _ => cases shared
    | _ => cases isBudget
  have merged : (mergeBudget first.budgetScope second.budgetScope).find? MandateScope.isBudget =
      (mergeBudget first.budgetScope second.budgetScope).head? := by
    unfold mergeBudget
    split <;> rfl
  rw [budgetScope, intersect, List.find?_append, none, merged, Option.none_or]

theorem intersect_ceilings (first second : Mandate) (freshId : String) (now : Instant) :
    ((first.budgetScope = none ∨ second.budgetScope = none) ∧
      (first.intersect second freshId now).maxTokens = none ∧
        (first.intersect second freshId now).maxWallSecs = none) ∨
    (first.budgetScope.isSome = true ∧ second.budgetScope.isSome = true ∧
      (first.intersect second freshId now).maxTokens =
          narrowestU64 first.maxTokens second.maxTokens ∧
        (first.intersect second freshId now).maxWallSecs =
          narrowestU64 first.maxWallSecs second.maxWallSecs) := by
  rcases first.budgetScope_cases with absent | ⟨tokens, cost, wall, found⟩
  · exact .inl ⟨.inl absent, by
      simp [maxTokens, maxWallSecs, intersect_budgetScope, absent, mergeBudget]⟩
  · rcases second.budgetScope_cases with absent | ⟨otherTokens, otherCost, otherWall, otherFound⟩
    · exact .inl ⟨.inr absent, by
        simp [maxTokens, maxWallSecs, intersect_budgetScope, absent, mergeBudget]⟩
    · exact .inr (by
        simp [maxTokens, maxWallSecs, intersect_budgetScope, found, otherFound, mergeBudget])

end Intersect

theorem sharesScope_iff_mem {self : Mandate} {scope : MandateScope}
    (plain : scope.isBudget = false) (uncounted : ∀ max, scope ≠ .maxRuns max) :
    self.sharesScope scope = true ↔ scope ∈ self.scopes := by
  cases scope with
  | repo pattern | branch pattern | path pattern | tool name | action class' =>
    exact any_eq_scope_iff fun scope => by cases scope <;> simp
  | budget _ _ _ => cases plain
  | maxRuns max => exact (uncounted max rfl).elim

/-- The other mandate has every scope, or a wider count in its place. -/
structure Mandate.Carries (mandate other : Mandate) : Prop where
  scopes : ∀ scope ∈ mandate.scopes, scope.isBudget = false → (∀ max, scope ≠ .maxRuns max) →
    scope ∈ other.scopes
  maxRuns : ∀ max, .maxRuns max ∈ mandate.scopes →
    ∃ otherMax, .maxRuns otherMax ∈ other.scopes ∧ max ≤ otherMax
  maxTokens : ∀ max ∈ mandate.maxTokens, ∃ otherMax ∈ other.maxTokens, max ≤ otherMax
  maxWallSecs : ∀ max ∈ mandate.maxWallSecs, ∃ otherMax ∈ other.maxWallSecs, max ≤ otherMax

theorem Mandate.Carries.grants {mandate other : Mandate} (carries : mandate.Carries other)
    {request : MandateRequest} (costless : request.costUsd = none)
    (grants : mandate.Grants request) : other.Grants request := by
  refine ⟨?_, ?_, ?_, ?_, ?_, ?_, ?_, ?_, ?_⟩
  · intro repo named
    obtain ⟨pattern, member, covers⟩ := grants.repo repo named
    exact ⟨pattern, carries.scopes _ member rfl (fun _ => nofun), covers⟩
  · intro branch named
    obtain ⟨pattern, member, covers⟩ := grants.branch branch named
    exact ⟨pattern, carries.scopes _ member rfl (fun _ => nofun), covers⟩
  · intro path named
    obtain ⟨pattern, member, covers⟩ := grants.path path named
    exact ⟨pattern, carries.scopes _ member rfl (fun _ => nofun), covers⟩
  · intro tool named
    obtain ⟨name, member, covers⟩ := grants.tool tool named
    exact ⟨name, carries.scopes _ member rfl (fun _ => nofun), covers⟩
  · intro action named
    exact carries.scopes _ (grants.action action named) rfl (fun _ => nofun)
  · intro tokens named
    obtain ⟨max, sets, enough⟩ := grants.tokens tokens named
    obtain ⟨otherMax, otherSets, wider⟩ := carries.maxTokens max sets
    exact ⟨otherMax, otherSets, enough.trans wider⟩
  · simp [costless]
  · intro wall named
    obtain ⟨max, sets, enough⟩ := grants.wallSecs wall named
    obtain ⟨otherMax, otherSets, wider⟩ := carries.maxWallSecs max sets
    exact ⟨otherMax, otherSets, enough.trans wider⟩
  · intro runs named
    obtain ⟨max, member, enough⟩ := grants.runs runs named
    obtain ⟨otherMax, otherMember, wider⟩ := carries.maxRuns max member
    exact ⟨otherMax, otherMember, enough.trans wider⟩

/-- Two mandates that both have a budget set the same counted ceilings. -/
def CeilingsAgree (first second : Mandate) : Prop :=
  first.budgetScope.isSome = true → second.budgetScope.isSome = true →
    first.maxTokens.isSome = second.maxTokens.isSome ∧
      first.maxWallSecs.isSome = second.maxWallSecs.isSome

theorem narrowestU64_le {first second : Option Nat} (agree : first.isSome = second.isSome)
    {max : Nat} (narrowed : max ∈ narrowestU64 first second) :
    (∃ firstMax ∈ first, max ≤ firstMax) ∧ ∃ secondMax ∈ second, max ≤ secondMax := by
  cases first with
  | none =>
    cases second with
    | none => cases narrowed
    | some secondMax => cases agree
  | some firstMax =>
    cases second with
    | none => cases agree
    | some secondMax =>
      cases narrowed
      exact ⟨⟨firstMax, rfl, min_le_left _ _⟩, secondMax, rfl, min_le_right _ _⟩

theorem isSome_narrowestU64 {first second : Option Nat} :
    (narrowestU64 first second).isSome = (first.isSome || second.isSome) := by
  cases first <;> cases second <;> rfl

section Narrows

variable {first second : Mandate} {freshId : String} {now : Instant}

theorem intersect_carries (agree : CeilingsAgree first second) :
    (first.intersect second freshId now).Carries first ∧
      (first.intersect second freshId now).Carries second := by
  have ceilings : (∀ max ∈ (first.intersect second freshId now).maxTokens,
        (∃ firstMax ∈ first.maxTokens, max ≤ firstMax) ∧
          ∃ secondMax ∈ second.maxTokens, max ≤ secondMax) ∧
      ∀ max ∈ (first.intersect second freshId now).maxWallSecs,
        (∃ firstMax ∈ first.maxWallSecs, max ≤ firstMax) ∧
          ∃ secondMax ∈ second.maxWallSecs, max ≤ secondMax := by
    rcases intersect_ceilings first second freshId now with
      ⟨-, tokens, wall⟩ | ⟨firstHas, secondHas, tokens, wall⟩
    · simp [tokens, wall]
    · obtain ⟨tokensAgree, wallAgree⟩ := agree firstHas secondHas
      rw [tokens, wall]
      exact ⟨fun _ => narrowestU64_le tokensAgree, fun _ => narrowestU64_le wallAgree⟩
  constructor
  · refine ⟨fun scope member plain _ => ((mem_intersect_scopes plain).mp member).1,
      fun max member => ⟨max, ((mem_intersect_scopes rfl).mp member).1, le_rfl⟩,
      fun max sets => (ceilings.1 max sets).1, fun max sets => (ceilings.2 max sets).1⟩
  · refine ⟨fun scope member plain uncounted => ?_, fun max member => ?_,
      fun max sets => (ceilings.1 max sets).2, fun max sets => (ceilings.2 max sets).2⟩
    · exact (sharesScope_iff_mem plain uncounted).mp ((mem_intersect_scopes plain).mp member).2
    · have shared : second.coversRuns max = true := ((mem_intersect_scopes rfl).mp member).2
      exact coversRuns_iff.mp shared

theorem ceilingsAgree_of_narrows
    (live : (first.intersect second freshId now).Live now)
    (narrows : ∀ request : MandateRequest, request.costUsd = none →
      (first.intersect second freshId now).permits request now = .allowed →
        first.permits request now = .allowed ∧ second.permits request now = .allowed) :
    CeilingsAgree first second := by
  intro firstHas secondHas
  rcases intersect_ceilings first second freshId now with ⟨absent, -⟩ | ⟨-, -, tokens, wall⟩
  · rcases absent with absent | absent
    · rw [absent] at firstHas
      cases firstHas
    · rw [absent] at secondHas
      cases secondHas
  · constructor
    · by_cases sets : (first.maxTokens.isSome || second.maxTokens.isSome) = true
      · obtain ⟨byFirst, bySecond⟩ := narrows { tokens := some 0 } rfl
          (permits_no_tokens_iff.mpr ⟨live, by rw [tokens, isSome_narrowestU64, sets]⟩)
        rw [(permits_no_tokens_iff.mp byFirst).2, (permits_no_tokens_iff.mp bySecond).2]
      · rw [Bool.not_eq_true, Bool.or_eq_false_iff] at sets
        rw [sets.1, sets.2]
    · by_cases sets : (first.maxWallSecs.isSome || second.maxWallSecs.isSome) = true
      · obtain ⟨byFirst, bySecond⟩ := narrows { wallSecs := some 0 } rfl
          (permits_no_wallSecs_iff.mpr ⟨live, by rw [wall, isSome_narrowestU64, sets]⟩)
        rw [(permits_no_wallSecs_iff.mp byFirst).2, (permits_no_wallSecs_iff.mp bySecond).2]
      · rw [Bool.not_eq_true, Bool.or_eq_false_iff] at sets
        rw [sets.1, sets.2]

end Narrows

/-- The intersection permits no more than either mandate, exactly when one has
expired already, or neither was revoked and their ceilings agree. -/
theorem intersection_narrows_iff (first second : Mandate) (freshId : String) (now : Instant) :
    (∀ time ≥ now, ∀ request : MandateRequest, request.costUsd = none →
      (first.intersect second freshId now).permits request time = .allowed →
        first.permits request time = .allowed ∧ second.permits request time = .allowed) ↔
      first.isExpired now = true ∨ second.isExpired now = true ∨
        (first.isRevoked = false ∧ second.isRevoked = false ∧ CeilingsAgree first second) := by
  constructor
  · intro narrows
    by_cases live : (first.intersect second freshId now).Live now
    · obtain ⟨byFirst, bySecond⟩ := narrows now le_rfl {} rfl (permits_empty_iff.mpr live)
      have unrevoked : ∀ {mandate : Mandate}, mandate.permits {} now = .allowed →
          mandate.isRevoked = false := by
        intro mandate permitted
        rw [isRevoked, (permits_empty_iff.mp permitted).current]
        rfl
      exact .inr (.inr ⟨unrevoked byFirst, unrevoked bySecond,
        ceilingsAgree_of_narrows live (narrows now le_rfl)⟩)
    · rw [intersect_live_iff, not_and_or, Bool.not_eq_false, Bool.not_eq_false] at live
      rcases live with expired | expired
      · exact .inl expired
      · exact .inr (.inl expired)
  · intro condition time later request costless permitted
    rw [permits_eq_allowed_iff] at permitted
    obtain ⟨live, grants⟩ := permitted
    obtain ⟨firstNow, secondNow⟩ := intersect_live_iff.mp (live.earlier later)
    rw [firstNow, secondNow] at condition
    rcases condition with impossible | impossible | ⟨firstCurrent, secondCurrent, agree⟩
    · cases impossible
    · cases impossible
    · obtain ⟨firstUnexpired, secondUnexpired⟩ := intersect_live_iff.mp live
      obtain ⟨carriedFirst, carriedSecond⟩ := intersect_carries agree
      rw [permits_eq_allowed_iff, permits_eq_allowed_iff]
      exact ⟨⟨live_iff.mpr ⟨firstCurrent, firstUnexpired⟩, carriedFirst.grants costless grants⟩,
        live_iff.mpr ⟨secondCurrent, secondUnexpired⟩, carriedSecond.grants costless grants⟩

/-- A token ceiling that only one of the mandates sets is granted. -/
theorem intersection_widens_splitBudget :
    ¬ ∀ (first second : Mandate) (freshId : String) (now time : Instant), now ≤ time →
      ∀ request : MandateRequest, request.costUsd = none →
        (first.intersect second freshId now).permits request time = .allowed →
          first.permits request time = .allowed ∧ second.permits request time = .allowed := by
  intro narrows
  have permitted := narrows (budgetMandate "tokens" .humanIssued (some 5) none)
    (budgetMandate "wall" .humanIssued none (some 60)) "both" 0 0 le_rfl { tokens := some 5 } rfl rfl
  cases permitted.2

end UltimateCoders.Governance
