import UltimateCoders.Governance.Mandate

/-! # Delegated mandates

A mandate may be handed on when it is validated against its parent. The child is
meant to hold no more than its parent; whether it does depends on the budget
ceilings, since a ceiling the parent leaves out is read as unbounded here and as
not granted when a request is made.
-/

namespace UltimateCoders.Governance

/-- A ceiling of the child is within that of its parent; an absent ceiling is
taken as unbounded. -/
def ceilingWithin {Value : Type} (le : Value → Value → Bool) : Option Value → Option Value → Bool
  | some child, some parent => le child parent
  | some _, none => true
  | none, some _ => false
  | none, none => true

def budgetWithin : Option Nat → Option Nat → Bool :=
  ceilingWithin fun child parent => child ≤ parent

/-- The difference between one and the next larger double. -/
def floatEpsilon : Float := 2.2204460492503131e-16

def costWithin : Option Float → Option Float → Bool :=
  ceilingWithin fun child parent => child ≤ parent + floatEpsilon

/-- The parent holds a scope that is to be delegated. -/
def Mandate.holdsScope (self : Mandate) : MandateScope → Bool
  | .repo pattern => self.scopes.any fun
      | .repo parent => patternSubsumes parent pattern
      | _ => false
  | .branch pattern => self.scopes.any fun
      | .branch parent => patternSubsumes parent pattern
      | _ => false
  | .path pattern => self.scopes.any fun
      | .path parent => patternSubsumes parent pattern
      | _ => false
  | .tool name => self.scopes.any fun
      | .tool parent => parent == name || parent == "*"
      | _ => false
  | .action class' => self.scopes.any fun
      | .action parent => parent == class'
      | _ => false
  | .budget maxTokens maxCostUsd maxWallSecs =>
    match self.budgetScope with
    | some (.budget parentTokens parentCost parentWall) =>
      budgetWithin maxTokens parentTokens && costWithin maxCostUsd parentCost &&
        budgetWithin maxWallSecs parentWall
    | _ => false
  | .maxRuns max => self.scopes.any fun
      | .maxRuns parent => max ≤ parent
      | _ => false

open Mandate

def expiryWithin : Option Instant → Option Instant → MandateDecision
  | some child, some parent =>
    if child > parent then widen "delegated mandate outlives its parent" else .allowed
  | some _, none => .allowed
  | none, some _ => widen "delegated mandate removed the parent's expiry"
  | none, none => .allowed

/-- Verify that the child is a subset of this mandate. -/
def Mandate.validateChild (self child : Mandate) (now : Instant) (minimumPolicy : Option Nat) :
    MandateDecision :=
  inOrder ([
    self.permits {} now,
    if child.origin = .humanIssued then .denied (.originForbidden child.origin.asStr)
    else .allowed,
    if child.policyVersion < self.policyVersion then
      .denied (.stalePolicyVersion child.policyVersion self.policyVersion)
    else .allowed,
    match minimumPolicy with
    | some minimum =>
      if child.policyVersion < minimum then
        .denied (.stalePolicyVersion child.policyVersion minimum)
      else .allowed
    | none => .allowed,
    if child.caseId ≠ self.caseId ∧ child.delegatedFrom ≠ some self.id then
      widen "delegated mandate must reference its parent mandate"
    else .allowed,
    expiryWithin child.expiresAt self.expiresAt] ++
    child.scopes.map fun scope =>
      if self.holdsScope scope then .allowed
      else widen ("delegated mandate introduces a scope the parent does not hold: " ++ scope.kind))

structure Validated (parent child : Mandate) (now : Instant) (minimumPolicy : Option Nat) :
    Prop where
  live : parent.Live now
  origin : child.origin ≠ .humanIssued
  policy : parent.policyVersion ≤ child.policyVersion
  minimum : ∀ minimum ∈ minimumPolicy, minimum ≤ child.policyVersion
  reference : child.caseId = parent.caseId ∨ child.delegatedFrom = some parent.id
  expiry : ∀ expiry ∈ parent.expiresAt, ∃ childExpiry ∈ child.expiresAt, childExpiry ≤ expiry
  scopes : ∀ scope ∈ child.scopes, parent.holdsScope scope = true

theorem expiryWithin_eq_allowed_iff {child parent : Option Instant} :
    expiryWithin child parent = .allowed ↔
      ∀ expiry ∈ parent, ∃ childExpiry ∈ child, childExpiry ≤ expiry := by
  cases child <;> cases parent <;> simp [expiryWithin, widen]

theorem ite_denied_eq_allowed_iff {condition : Prop} [Decidable condition]
    {denial : MandateDenial} :
    (if condition then MandateDecision.denied denial else .allowed) = .allowed ↔ ¬ condition := by
  by_cases holds : condition <;> simp [holds]

theorem Mandate.validateChild_eq_allowed_iff {parent child : Mandate} {now : Instant}
    {minimumPolicy : Option Nat} :
    parent.validateChild child now minimumPolicy = .allowed ↔
      Validated parent child now minimumPolicy := by
  have minimum : (match minimumPolicy with
      | some minimum =>
        if child.policyVersion < minimum then
          MandateDecision.denied (.stalePolicyVersion child.policyVersion minimum)
        else .allowed
      | none => .allowed) = .allowed ↔ ∀ minimum ∈ minimumPolicy, minimum ≤ child.policyVersion := by
    cases minimumPolicy <;> simp
  have held : (∀ decision ∈ child.scopes.map fun scope =>
        if parent.holdsScope scope then MandateDecision.allowed
        else widen ("delegated mandate introduces a scope the parent does not hold: " ++ scope.kind),
        decision = .allowed) ↔ ∀ scope ∈ child.scopes, parent.holdsScope scope = true := by
    rw [List.forall_mem_map]
    refine forall₂_congr fun scope _ => ?_
    by_cases holds : parent.holdsScope scope = true <;> simp [holds, widen]
  unfold validateChild
  rw [inOrder_eq_allowed_iff, List.forall_mem_append, held]
  simp only [List.forall_mem_cons, permits_empty_iff, minimum, expiryWithin_eq_allowed_iff, widen,
    ite_denied_eq_allowed_iff, not_and_or, not_not, Nat.not_lt]
  constructor
  · rintro ⟨⟨live, origin, policy, enough, reference, expiry, -⟩, scopes⟩
    exact ⟨live, origin, policy, enough, reference, expiry, scopes⟩
  · rintro ⟨live, origin, policy, enough, reference, expiry, scopes⟩
    exact ⟨⟨live, origin, policy, enough, reference, expiry, fun _ member =>
      (List.not_mem_nil member).elim⟩, scopes⟩

/-- The request names no pattern dimension and no cost. -/
structure MandateRequest.PlainlyCounted (request : MandateRequest) : Prop where
  repo : request.repo = none
  branch : request.branch = none
  path : request.path = none
  costUsd : request.costUsd = none

/-- Every counted ceiling that the child sets, the parent sets too. -/
structure CeilingsGranted (parent child : Mandate) : Prop where
  tokens : child.maxTokens.isSome = true → parent.maxTokens.isSome = true
  wallSecs : child.maxWallSecs.isSome = true → parent.maxWallSecs.isSome = true

theorem budgetWithin_le {child parent : Option Nat} (within : budgetWithin child parent = true)
    {childMax parentMax : Nat} (childSets : childMax ∈ child) (parentSets : parentMax ∈ parent) :
    childMax ≤ parentMax := by
  cases childSets
  cases parentSets
  exact of_decide_eq_true within

section Validated

variable {parent child : Mandate} {now : Instant} {minimumPolicy : Option Nat}

section

variable (validated : Validated parent child now minimumPolicy)

include validated

theorem Validated.ceilings :
    (∀ max ∈ child.maxTokens, ∀ parentMax ∈ parent.maxTokens, max ≤ parentMax) ∧
      ∀ max ∈ child.maxWallSecs, ∀ parentMax ∈ parent.maxWallSecs, max ≤ parentMax := by
  rcases child.budgetScope_cases with absent | ⟨tokens, cost, wall, found⟩
  · simp [maxTokens, maxWallSecs, absent]
  · have held := validated.scopes _ (List.mem_of_find?_eq_some found)
    rcases parent.budgetScope_cases with absent | ⟨parentTokens, parentCost, parentWall, parentFound⟩
    · simp [maxTokens, maxWallSecs, absent]
    · simp only [holdsScope, parentFound, Bool.and_eq_true] at held
      obtain ⟨⟨tokensWithin, -⟩, wallWithin⟩ := held
      simp only [maxTokens, maxWallSecs, found, parentFound]
      exact ⟨fun _ sets _ => budgetWithin_le tokensWithin sets,
        fun _ sets _ => budgetWithin_le wallWithin sets⟩

theorem Validated.live_of_child {time : Instant} (childLive : child.Live time) :
    parent.Live time := by
  refine ⟨validated.live.current, fun expiry expires => ?_⟩
  obtain ⟨childExpiry, childExpires, sooner⟩ := validated.expiry expiry expires
  exact lt_of_lt_of_le (childLive.unexpired childExpiry childExpires) sooner

theorem Validated.tool {name tool : String} (holds : .tool name ∈ child.scopes)
    (covers : name = tool ∨ name = "*") :
    ∃ other, .tool other ∈ parent.scopes ∧ (other = tool ∨ other = "*") := by
  have held : parent.coversTool name = true := validated.scopes _ holds
  obtain ⟨other, member, same | any⟩ := coversTool_iff.mp held
  · exact ⟨other, member, same ▸ covers⟩
  · exact ⟨other, member, .inr any⟩

theorem Validated.action {action : ActionClass} (holds : .action action ∈ child.scopes) :
    .action action ∈ parent.scopes :=
  coversAction_iff.mp (validated.scopes _ holds)

theorem Validated.maxRuns {max : Nat} (holds : .maxRuns max ∈ child.scopes) :
    ∃ parentMax, .maxRuns parentMax ∈ parent.scopes ∧ max ≤ parentMax :=
  coversRuns_iff.mp (validated.scopes _ holds)

theorem Validated.grants_of_child (granted : CeilingsGranted parent child)
    {request : MandateRequest} (counted : request.PlainlyCounted) (grants : child.Grants request) :
    parent.Grants request := by
  obtain ⟨tokensWithin, wallWithin⟩ := validated.ceilings
  refine ⟨?_, ?_, ?_, ?_, ?_, ?_, ?_, ?_, ?_⟩
  · simp [counted.repo]
  · simp [counted.branch]
  · simp [counted.path]
  · intro tool named
    obtain ⟨name, holds, covers⟩ := grants.tool tool named
    exact validated.tool holds covers
  · intro action named
    exact validated.action (grants.action action named)
  · intro tokens named
    obtain ⟨max, sets, enough⟩ := grants.tokens tokens named
    obtain ⟨parentMax, parentSets⟩ :=
      Option.isSome_iff_exists.mp (granted.tokens (Option.isSome_of_mem sets))
    exact ⟨parentMax, parentSets, enough.trans (tokensWithin max sets parentMax parentSets)⟩
  · simp [counted.costUsd]
  · intro wall named
    obtain ⟨max, sets, enough⟩ := grants.wallSecs wall named
    obtain ⟨parentMax, parentSets⟩ :=
      Option.isSome_iff_exists.mp (granted.wallSecs (Option.isSome_of_mem sets))
    exact ⟨parentMax, parentSets, enough.trans (wallWithin max sets parentMax parentSets)⟩
  · intro runs named
    obtain ⟨max, holds, enough⟩ := grants.runs runs named
    obtain ⟨parentMax, parentHolds, within⟩ := validated.maxRuns holds
    exact ⟨parentMax, parentHolds, enough.trans within⟩

end

end Validated

/-- A validated child permits no more than its parent, exactly when it is not in
force or the parent sets every counted ceiling that it sets. -/
theorem delegation_narrows_iff {parent child : Mandate} {now : Instant}
    {minimumPolicy : Option Nat}
    (accepted : parent.validateChild child now minimumPolicy = .allowed) :
    (∀ time ≥ now, ∀ request : MandateRequest, request.PlainlyCounted →
      child.permits request time = .allowed → parent.permits request time = .allowed) ↔
        child.isRevoked = true ∨ child.isExpired now = true ∨ CeilingsGranted parent child := by
  have validated := validateChild_eq_allowed_iff.mp accepted
  constructor
  · intro narrows
    by_cases live : child.Live now
    · refine .inr (.inr ⟨fun sets => ?_, fun sets => ?_⟩)
      · have permitted := narrows now le_rfl { tokens := some 0 } ⟨rfl, rfl, rfl, rfl⟩
          (permits_no_tokens_iff.mpr ⟨live, sets⟩)
        exact (permits_no_tokens_iff.mp permitted).2
      · have permitted := narrows now le_rfl { wallSecs := some 0 } ⟨rfl, rfl, rfl, rfl⟩
          (permits_no_wallSecs_iff.mpr ⟨live, sets⟩)
        exact (permits_no_wallSecs_iff.mp permitted).2
    · rcases not_live_iff.mp live with revoked | expired
      · exact .inl revoked
      · exact .inr (.inl expired)
  · intro condition time later request counted permitted
    rw [permits_eq_allowed_iff] at permitted ⊢
    obtain ⟨live, grants⟩ := permitted
    have liveNow := live.earlier later
    rcases condition with revoked | expired | granted
    · exact (not_live_iff.mpr (.inl revoked) liveNow).elim
    · exact (not_live_iff.mpr (.inr expired) liveNow).elim
    · exact ⟨validated.live_of_child live, validated.grants_of_child granted counted grants⟩

theorem delegation_narrows_iff_budgetMandate :
    (budgetMandate "parent" .humanIssued (some 10) none).validateChild
        (budgetMandate "child" .caseDelegated (some 5) none) 0 none = .allowed ∧
      ∀ time ≥ (0 : Instant), ∀ request : MandateRequest, request.PlainlyCounted →
        (budgetMandate "child" .caseDelegated (some 5) none).permits request time = .allowed →
          (budgetMandate "parent" .humanIssued (some 10) none).permits request time = .allowed := by
  have accepted : (budgetMandate "parent" .humanIssued (some 10) none).validateChild
      (budgetMandate "child" .caseDelegated (some 5) none) 0 none = .allowed := rfl
  refine ⟨accepted, (delegation_narrows_iff accepted).mpr (.inr (.inr ⟨fun _ => rfl, ?_⟩))⟩
  intro sets
  cases sets

/-- A parent without a token ceiling accepts a child with one. -/
theorem delegation_widens_budgetMandate :
    ¬ ∀ (parent child : Mandate) (now : Instant) (minimumPolicy : Option Nat),
      parent.validateChild child now minimumPolicy = .allowed →
        ∀ time ≥ now, ∀ request : MandateRequest, request.PlainlyCounted →
          child.permits request time = .allowed → parent.permits request time = .allowed := by
  intro narrows
  have permitted := narrows (budgetMandate "parent" .humanIssued none (some 60))
    (budgetMandate "child" .caseDelegated (some 5) (some 60)) 0 none rfl 0 le_rfl
    { tokens := some 5 } ⟨rfl, rfl, rfl, rfl⟩ rfl
  cases permitted

end UltimateCoders.Governance
