import UltimateCoders.Governance.Delegation

/-! # Chains of delegations

A mandate that was delegated may be delegated again, each time validated against the one before it
only. What the last mandate of a chain may do beyond the first one depends on these two alone.
-/

namespace UltimateCoders.Governance

open Mandate

/-- The second mandate was delegated from the first one, through any number of others, and last
validated at this moment. -/
inductive Delegated (root : Mandate) : Mandate → Instant → Prop where
  | direct {child : Mandate} {now : Instant} {minimumPolicy : Option Nat}
      (accepted : root.validateChild child now minimumPolicy = .allowed) : Delegated root child now
  | further {parent child : Mandate} {earlier now : Instant} {minimumPolicy : Option Nat}
      (chain : Delegated root parent earlier)
      (accepted : parent.validateChild child now minimumPolicy = .allowed) :
      Delegated root child now

/-- The ceiling that the parent sets, if any, the child sets no higher. -/
def CeilingKept (parent child : Option Nat) : Prop :=
  ∀ parentMax ∈ parent, ∃ max ∈ child, max ≤ parentMax

/-- What the child holds, the parent holds too, up to ceilings that it does not set. -/
structure Mandate.Holds (parent child : Mandate) : Prop where
  live : ∀ time, child.Live time → parent.Live time
  tool : ∀ tool name, .tool name ∈ child.scopes → (name = tool ∨ name = "*") →
    ∃ other, .tool other ∈ parent.scopes ∧ (other = tool ∨ other = "*")
  action : ∀ action, .action action ∈ child.scopes → .action action ∈ parent.scopes
  runs : ∀ max, .maxRuns max ∈ child.scopes → ∃ other, .maxRuns other ∈ parent.scopes ∧ max ≤ other
  budget : child.budgetScope.isSome = true → parent.budgetScope.isSome = true ∧
    CeilingKept parent.maxTokens child.maxTokens ∧ CeilingKept parent.maxWallSecs child.maxWallSecs

variable {root parent child last : Mandate} {now : Instant} {minimumPolicy : Option Nat}

theorem ceilingKept_of_budgetWithin {parent child : Option Nat}
    (within : budgetWithin child parent = true) : CeilingKept parent child := by
  cases parent with
  | none => exact fun _ sets => by cases sets
  | some parentMax =>
    cases child with
    | none => cases within
    | some max =>
      intro _ sets
      cases sets
      exact ⟨max, rfl, of_decide_eq_true within⟩

theorem CeilingKept.trans {first second third : Option Nat} (left : CeilingKept first second)
    (right : CeilingKept second third) : CeilingKept first third := by
  intro firstMax sets
  obtain ⟨secondMax, secondSets, lower⟩ := left firstMax sets
  obtain ⟨thirdMax, thirdSets, lowest⟩ := right secondMax secondSets
  exact ⟨thirdMax, thirdSets, lowest.trans lower⟩

theorem Validated.holds (validated : Validated parent child now minimumPolicy) :
    parent.Holds child where
  live _ childLive := validated.live_of_child childLive
  tool _ _ held covers := validated.tool held covers
  action _ held := validated.action held
  runs _ held := validated.maxRuns held
  budget sets := by
    rcases child.budgetScope_cases with absent | ⟨tokens, cost, wall, found⟩
    · simp [absent] at sets
    · have held := validated.scopes _ (List.mem_of_find?_eq_some found)
      rcases parent.budgetScope_cases with absent | ⟨parentTokens, parentCost, parentWall, parentFound⟩
      · simp [holdsScope, absent] at held
      · simp only [holdsScope, parentFound, Bool.and_eq_true] at held
        simp only [maxTokens, maxWallSecs, found, parentFound]
        exact ⟨rfl, ceilingKept_of_budgetWithin held.1.1, ceilingKept_of_budgetWithin held.2⟩

theorem Mandate.Holds.trans (left : root.Holds parent) (right : parent.Holds child) :
    root.Holds child where
  live time childLive := left.live time (right.live time childLive)
  tool tool name held covers := by
    obtain ⟨other, held, covers⟩ := right.tool tool name held covers
    exact left.tool tool other held covers
  action action held := left.action action (right.action action held)
  runs max held := by
    obtain ⟨other, held, lower⟩ := right.runs max held
    obtain ⟨first, held, lowest⟩ := left.runs other held
    exact ⟨first, held, lower.trans lowest⟩
  budget sets := by
    obtain ⟨parentSets, tokens, wall⟩ := right.budget sets
    obtain ⟨rootSets, rootTokens, rootWall⟩ := left.budget parentSets
    exact ⟨rootSets, rootTokens.trans tokens, rootWall.trans wall⟩

theorem Delegated.holds (chain : Delegated root last now) : root.Holds last := by
  induction chain with
  | direct accepted => exact (validateChild_eq_allowed_iff.mp accepted).holds
  | further _ accepted ih => exact ih.trans (validateChild_eq_allowed_iff.mp accepted).holds

/-- A mandate at the end of a chain sets a budget where it sets a ceiling. -/
theorem budgetScope_of_ceiling (sets : last.maxTokens.isSome = true ∨ last.maxWallSecs.isSome = true) :
    last.budgetScope.isSome = true := by
  cases absent : last.budgetScope with
  | some scope => rfl
  | none => simp [maxTokens, maxWallSecs, absent] at sets

/-- Where the root sets the ceilings of the last mandate, it grants what that one grants. -/
theorem Mandate.Holds.grants (holds : root.Holds last) (granted : CeilingsGranted root last)
    {request : MandateRequest} (counted : request.PlainlyCounted) (grants : last.Grants request) :
    root.Grants request := by
  have covered : ∀ {rootMax lastMax : Option Nat}, CeilingKept rootMax lastMax →
      rootMax.isSome = true → ∀ amount, (∃ max ∈ lastMax, amount ≤ max) →
        ∃ max ∈ rootMax, amount ≤ max := by
    intro rootMax lastMax kept sets amount enough
    obtain ⟨max, rootSets⟩ := Option.isSome_iff_exists.mp sets
    obtain ⟨lower, lastSets, within⟩ := kept max rootSets
    obtain ⟨other, otherSets, covers⟩ := enough
    cases lastSets.symm.trans otherSets
    exact ⟨max, rootSets, covers.trans within⟩
  refine ⟨?_, ?_, ?_, ?_, ?_, ?_, ?_, ?_, ?_⟩
  · simp [counted.repo]
  · simp [counted.branch]
  · simp [counted.path]
  · intro tool named
    obtain ⟨name, held, covers⟩ := grants.tool tool named
    exact holds.tool tool name held covers
  · exact fun action named => holds.action action (grants.action action named)
  · intro tokens named
    have enough := grants.tokens tokens named
    have sets := Option.isSome_of_mem enough.choose_spec.1
    exact covered (holds.budget (budgetScope_of_ceiling (.inl sets))).2.1 (granted.tokens sets) _
      enough
  · simp [counted.costUsd]
  · intro wall named
    have enough := grants.wallSecs wall named
    have sets := Option.isSome_of_mem enough.choose_spec.1
    exact covered (holds.budget (budgetScope_of_ceiling (.inr sets))).2.2 (granted.wallSecs sets) _
      enough
  · intro runs named
    obtain ⟨max, held, enough⟩ := grants.runs runs named
    obtain ⟨rootMax, rootHeld, within⟩ := holds.runs max held
    exact ⟨rootMax, rootHeld, enough.trans within⟩

/-- A mandate at the end of a chain permits no more than the one at its start, exactly when it is
not in force or the first one sets every counted ceiling that it sets; what those in between set
does not matter. -/
theorem chain_narrows_iff (chain : Delegated root last now) :
    (∀ time ≥ now, ∀ request : MandateRequest, request.PlainlyCounted →
      last.permits request time = .allowed → root.permits request time = .allowed) ↔
        last.isRevoked = true ∨ last.isExpired now = true ∨ CeilingsGranted root last := by
  constructor
  · intro narrows
    by_cases live : last.Live now
    · refine .inr (.inr ⟨fun sets => ?_, fun sets => ?_⟩)
      · exact (permits_no_tokens_iff.mp (narrows now le_rfl { tokens := some 0 } ⟨rfl, rfl, rfl, rfl⟩
          (permits_no_tokens_iff.mpr ⟨live, sets⟩))).2
      · exact (permits_no_wallSecs_iff.mp (narrows now le_rfl { wallSecs := some 0 }
          ⟨rfl, rfl, rfl, rfl⟩ (permits_no_wallSecs_iff.mpr ⟨live, sets⟩))).2
    · exact (not_live_iff.mp live).imp id .inl
  · intro condition time later request counted permitted
    rw [permits_eq_allowed_iff] at permitted ⊢
    obtain ⟨live, grants⟩ := permitted
    have holds := chain.holds
    rcases condition with revoked | expired | granted
    · exact (not_live_iff.mpr (.inl revoked) (live.earlier later)).elim
    · exact (not_live_iff.mpr (.inr expired) (live.earlier later)).elim
    · exact ⟨holds.live time live, holds.grants granted counted grants⟩

theorem chain_narrows_iff_budgetMandate :
    Delegated (budgetMandate "parent" .humanIssued (some 10) none)
        (budgetMandate "grandchild" .caseDelegated (some 3) none) 1 ∧
      ∀ time ≥ (1 : Instant), ∀ request : MandateRequest, request.PlainlyCounted →
        (budgetMandate "grandchild" .caseDelegated (some 3) none).permits request time = .allowed →
          (budgetMandate "parent" .humanIssued (some 10) none).permits request time = .allowed := by
  have first : (budgetMandate "parent" .humanIssued (some 10) none).validateChild
      (budgetMandate "child" .caseDelegated (some 5) none) 0 none = .allowed := rfl
  have second : (budgetMandate "child" .caseDelegated (some 5) none).validateChild
      (budgetMandate "grandchild" .caseDelegated (some 3) none) 1 none = .allowed := rfl
  have chain := Delegated.further (.direct first) second
  exact ⟨chain, (chain_narrows_iff chain).mpr
    (.inr (.inr ⟨fun _ => rfl, fun sets => by cases sets⟩))⟩

end UltimateCoders.Governance
