import UltimateCoders.Governance.Pattern
import UltimateCoders.Governance.Policy

/-! # Mandates

A mandate is the authority granted to one case: a list of scopes with a lifetime.
A request names some dimensions of authority and is permitted when a live mandate
covers each of them. The checks run in order and the first denial is returned.
-/

namespace UltimateCoders.Governance

inductive MandateOrigin where
  | humanIssued
  | caseDelegated
  | systemDefault
  | testFixture
  deriving DecidableEq

def MandateOrigin.asStr : MandateOrigin → String
  | humanIssued => "human_issued"
  | caseDelegated => "case_delegated"
  | systemDefault => "system_default"
  | testFixture => "test_fixture"

/-- One dimension of authority. -/
inductive MandateScope where
  | repo (pattern : String)
  | branch (pattern : String)
  | path (pattern : String)
  | tool (name : String)
  | action (class' : ActionClass)
  | budget (maxTokens : Option Nat) (maxCostUsd : Option Float) (maxWallSecs : Option Nat)
  | maxRuns (max : Nat)

def MandateScope.kind : MandateScope → String
  | repo _ => "repo"
  | branch _ => "branch"
  | path _ => "path"
  | tool _ => "tool"
  | action _ => "action"
  | budget _ _ _ => "budget"
  | maxRuns _ => "max_runs"

def MandateScope.isBudget : MandateScope → Bool
  | budget _ _ _ => true
  | _ => false

/-- A single authorization question; by default it names nothing. -/
structure MandateRequest where
  repo : Option String := none
  branch : Option String := none
  path : Option String := none
  tool : Option String := none
  action : Option ActionClass := none
  tokens : Option Nat := none
  costUsd : Option Float := none
  wallSecs : Option Nat := none
  runs : Option Nat := none

/-- The requested value that a denial reports, before it is rendered. -/
inductive Requested where
  | text (text : String)
  | count (count : Nat)
  | cost (cost : Float)

/-- Why a mandate check failed. -/
inductive MandateDenial where
  | revoked (mandateId reason : String)
  | expired (mandateId : String) (expiredAt : Instant)
  | outOfScope (scope : String) (value : Requested)
  | wideningDenied (detail : String)
  | stalePolicyVersion (mandateVersion minimum : Nat)
  | originForbidden (origin : String)

/-- Outcome of a mandate check. -/
inductive MandateDecision where
  | allowed
  | denied (denial : MandateDenial)

def outOfScope (scope : String) (value : Requested) : MandateDecision :=
  .denied (.outOfScope scope value)

def widen (detail : String) : MandateDecision :=
  .denied (.wideningDenied detail)

structure MandateRevocation where
  at_ : Instant
  by_ : Principal
  reason : String
  deriving DecidableEq

/-- The authority granted to one case. -/
structure Mandate where
  id : String
  caseId : String
  grantor : Principal
  policyVersion : Nat
  scopes : List MandateScope
  issuedAt : Instant
  expiresAt : Option Instant
  revoked : Option MandateRevocation
  origin : MandateOrigin
  delegatedFrom : Option String

/-- A fresh mandate under a given id. -/
def Mandate.new (id caseId : String) (grantor : Principal) (origin : MandateOrigin)
    (scopes : List MandateScope) (policyVersion : Nat) (now : Instant) : Mandate where
  id := id
  caseId := caseId
  grantor := grantor
  policyVersion := policyVersion
  scopes := scopes
  issuedAt := now
  expiresAt := none
  revoked := none
  origin := origin
  delegatedFrom := none

/-- A mandate of one case with a single budget scope. -/
def budgetMandate (id : String) (origin : MandateOrigin) (maxTokens maxWallSecs : Option Nat) :
    Mandate :=
  .new id "case-1" ⟨.user, "operator"⟩ origin [.budget maxTokens none maxWallSecs] 1 0

variable (self : Mandate)

def Mandate.isRevoked : Bool := self.revoked.isSome

def Mandate.isExpired (now : Instant) : Bool :=
  (self.expiresAt.map fun expiry => decide (expiry ≤ now)).getD false

/-- The first budget scope, the only one that is read. -/
def Mandate.budgetScope : Option MandateScope :=
  self.scopes.find? MandateScope.isBudget

/-- The first denial of checks made in order. -/
def inOrder : List MandateDecision → MandateDecision
  | [] => .allowed
  | .allowed :: rest => inOrder rest
  | .denied denial :: _ => .denied denial

/-- A dimension that the request names has to be covered. -/
def requireCovered {Value : Type} (requested : Option Value) (covered : Value → Bool)
    (scope : String) (shown : Value → Requested) : MandateDecision :=
  match requested with
  | some value => if covered value then .allowed else outOfScope scope (shown value)
  | none => .allowed

section Covers

variable (self : Mandate)

def Mandate.coversRepo (repo : String) : Bool :=
  self.scopes.any fun
    | .repo pattern => patternCovers pattern repo
    | _ => false

def Mandate.coversBranch (branch : String) : Bool :=
  self.scopes.any fun
    | .branch pattern => patternCovers pattern branch
    | _ => false

def Mandate.coversPath (path : String) : Bool :=
  self.scopes.any fun
    | .path pattern => patternCovers pattern path
    | _ => false

def Mandate.coversTool (tool : String) : Bool :=
  self.scopes.any fun
    | .tool name => name == tool || name == "*"
    | _ => false

def Mandate.coversAction (action : ActionClass) : Bool :=
  self.scopes.any fun
    | .action class' => class' == action
    | _ => false

def Mandate.coversTokens (tokens : Nat) : Bool :=
  match self.budgetScope with
  | some (.budget (some max) _ _) => tokens ≤ max
  | _ => false

def Mandate.coversCostUsd (cost : Float) : Bool :=
  match self.budgetScope with
  | some (.budget _ (some max) _) => cost ≤ max
  | _ => false

def Mandate.coversWallSecs (wall : Nat) : Bool :=
  match self.budgetScope with
  | some (.budget _ _ (some max)) => wall ≤ max
  | _ => false

def Mandate.coversRuns (runs : Nat) : Bool :=
  self.scopes.any fun
    | .maxRuns max => runs ≤ max
    | _ => false

end Covers

/-- Does this mandate authorize the request right now? -/
def Mandate.permits (request : MandateRequest) (now : Instant) : MandateDecision :=
  inOrder [
    match self.revoked with
    | some revocation => .denied (.revoked self.id revocation.reason)
    | none => .allowed,
    match self.expiresAt with
    | some expiresAt => if expiresAt ≤ now then .denied (.expired self.id expiresAt) else .allowed
    | none => .allowed,
    requireCovered request.repo self.coversRepo "repo" .text,
    requireCovered request.branch self.coversBranch "branch" .text,
    requireCovered request.path self.coversPath "path" .text,
    requireCovered request.tool self.coversTool "tool" .text,
    requireCovered request.action self.coversAction "action" fun action => .text action.asStr,
    requireCovered request.tokens self.coversTokens "budget.tokens" .count,
    requireCovered request.costUsd self.coversCostUsd "budget.cost_usd" .cost,
    requireCovered request.wallSecs self.coversWallSecs "budget.wall_secs" .count,
    requireCovered request.runs self.coversRuns "max_runs" .count]

/-- The ceilings of the budget scope that is read. -/
def Mandate.maxTokens : Option Nat :=
  match self.budgetScope with
  | some (.budget maxTokens _ _) => maxTokens
  | _ => none

def Mandate.maxCostUsd : Option Float :=
  match self.budgetScope with
  | some (.budget _ maxCostUsd _) => maxCostUsd
  | _ => none

def Mandate.maxWallSecs : Option Nat :=
  match self.budgetScope with
  | some (.budget _ _ maxWallSecs) => maxWallSecs
  | _ => none

/-- Neither withdrawn nor past its expiry. -/
structure Mandate.Live (mandate : Mandate) (now : Instant) : Prop where
  current : mandate.revoked = none
  unexpired : ∀ expiry ∈ mandate.expiresAt, now < expiry

/-- Every dimension the request names is granted by a scope; a budget ceiling
that is absent grants nothing. -/
structure Mandate.Grants (mandate : Mandate) (request : MandateRequest) : Prop where
  repo : ∀ repo ∈ request.repo, ∃ pattern, .repo pattern ∈ mandate.scopes ∧
    patternCovers pattern repo = true
  branch : ∀ branch ∈ request.branch, ∃ pattern, .branch pattern ∈ mandate.scopes ∧
    patternCovers pattern branch = true
  path : ∀ path ∈ request.path, ∃ pattern, .path pattern ∈ mandate.scopes ∧
    patternCovers pattern path = true
  tool : ∀ tool ∈ request.tool, ∃ name, .tool name ∈ mandate.scopes ∧ (name = tool ∨ name = "*")
  action : ∀ action ∈ request.action, .action action ∈ mandate.scopes
  tokens : ∀ tokens ∈ request.tokens, ∃ max ∈ mandate.maxTokens, tokens ≤ max
  costUsd : ∀ cost ∈ request.costUsd, ∃ max ∈ mandate.maxCostUsd, cost ≤ max
  wallSecs : ∀ wall ∈ request.wallSecs, ∃ max ∈ mandate.maxWallSecs, wall ≤ max
  runs : ∀ runs ∈ request.runs, ∃ max, .maxRuns max ∈ mandate.scopes ∧ runs ≤ max

theorem inOrder_eq_allowed_iff {checks : List MandateDecision} :
    inOrder checks = .allowed ↔ ∀ check ∈ checks, check = .allowed := by
  fun_induction inOrder checks with
  | case1 => simp
  | case2 rest ih => simp [ih]
  | case3 denial rest => simp

theorem requireCovered_eq_allowed_iff {Value : Type} {requested : Option Value}
    {covered : Value → Bool} {scope : String} {shown : Value → Requested} :
    requireCovered requested covered scope shown = .allowed ↔
      ∀ value ∈ requested, covered value = true := by
  unfold requireCovered
  cases requested with
  | none => simp
  | some value =>
    by_cases holds : covered value = true
    · simp [holds]
    · simp [holds, outOfScope]

/-- A scope of one kind is found among the scopes. -/
theorem any_scope_iff {Value : Type} {scopes : List MandateScope} {test : MandateScope → Bool}
    {kind : Value → MandateScope} {passes : Value → Prop}
    (reads : ∀ scope, test scope = true ↔ ∃ value, scope = kind value ∧ passes value) :
    scopes.any test = true ↔ ∃ value, kind value ∈ scopes ∧ passes value := by
  rw [List.any_eq_true]
  constructor
  · rintro ⟨scope, member, accepted⟩
    obtain ⟨value, rfl, holds⟩ := (reads scope).mp accepted
    exact ⟨value, member, holds⟩
  · rintro ⟨value, member, holds⟩
    exact ⟨kind value, member, (reads _).mpr ⟨value, rfl, holds⟩⟩

theorem any_eq_scope_iff {scopes : List MandateScope} {test : MandateScope → Bool}
    {wanted : MandateScope} (reads : ∀ scope, test scope = true ↔ scope = wanted) :
    scopes.any test = true ↔ wanted ∈ scopes := by
  rw [List.any_eq_true]
  constructor
  · rintro ⟨scope, member, accepted⟩
    rw [← (reads scope).mp accepted]
    exact member
  · intro member
    exact ⟨wanted, member, (reads wanted).mpr rfl⟩

theorem Mandate.budgetScope_cases : self.budgetScope = none ∨
      ∃ maxTokens maxCostUsd maxWallSecs,
        self.budgetScope = some (.budget maxTokens maxCostUsd maxWallSecs) := by
  cases found : self.budgetScope with
  | none => exact .inl rfl
  | some scope =>
    have isBudget := List.find?_some found
    cases scope with
    | budget maxTokens maxCostUsd maxWallSecs => exact .inr ⟨_, _, _, rfl⟩
    | _ => cases isBudget

section Covered

variable {self : Mandate}

theorem Mandate.coversRepo_iff {repo : String} : self.coversRepo repo = true ↔
    ∃ pattern, .repo pattern ∈ self.scopes ∧ patternCovers pattern repo = true :=
  any_scope_iff fun scope => by cases scope <;> simp

theorem Mandate.coversBranch_iff {branch : String} : self.coversBranch branch = true ↔
    ∃ pattern, .branch pattern ∈ self.scopes ∧ patternCovers pattern branch = true :=
  any_scope_iff fun scope => by cases scope <;> simp

theorem Mandate.coversPath_iff {path : String} : self.coversPath path = true ↔
    ∃ pattern, .path pattern ∈ self.scopes ∧ patternCovers pattern path = true :=
  any_scope_iff fun scope => by cases scope <;> simp

theorem Mandate.coversTool_iff {tool : String} : self.coversTool tool = true ↔
    ∃ name, .tool name ∈ self.scopes ∧ (name = tool ∨ name = "*") :=
  any_scope_iff fun scope => by cases scope <;> simp

theorem Mandate.coversAction_iff {action : ActionClass} : self.coversAction action = true ↔
    .action action ∈ self.scopes :=
  any_eq_scope_iff fun scope => by cases scope <;> simp

theorem Mandate.coversRuns_iff {runs : Nat} : self.coversRuns runs = true ↔
    ∃ max, .maxRuns max ∈ self.scopes ∧ runs ≤ max :=
  any_scope_iff fun scope => by cases scope <;> simp

theorem Mandate.coversTokens_iff {tokens : Nat} : self.coversTokens tokens = true ↔
    ∃ max ∈ self.maxTokens, tokens ≤ max := by
  rcases self.budgetScope_cases with absent | ⟨maxTokens, maxCostUsd, maxWallSecs, found⟩
  · simp [coversTokens, Mandate.maxTokens, absent]
  · cases maxTokens <;> simp [coversTokens, Mandate.maxTokens, found]

theorem Mandate.coversCostUsd_iff {cost : Float} : self.coversCostUsd cost = true ↔
    ∃ max ∈ self.maxCostUsd, cost ≤ max := by
  rcases self.budgetScope_cases with absent | ⟨maxTokens, maxCostUsd, maxWallSecs, found⟩
  · simp [coversCostUsd, Mandate.maxCostUsd, absent]
  · cases maxCostUsd <;> simp [coversCostUsd, Mandate.maxCostUsd, found]

theorem Mandate.coversWallSecs_iff {wall : Nat} : self.coversWallSecs wall = true ↔
    ∃ max ∈ self.maxWallSecs, wall ≤ max := by
  rcases self.budgetScope_cases with absent | ⟨maxTokens, maxCostUsd, maxWallSecs, found⟩
  · simp [coversWallSecs, Mandate.maxWallSecs, absent]
  · cases maxWallSecs <;> simp [coversWallSecs, Mandate.maxWallSecs, found]

end Covered

theorem Mandate.permits_eq_allowed_iff (request : MandateRequest) (now : Instant) :
    self.permits request now = .allowed ↔ self.Live now ∧ self.Grants request := by
  have revoked : (match self.revoked with
      | some revocation => MandateDecision.denied (.revoked self.id revocation.reason)
      | none => .allowed) = .allowed ↔ self.revoked = none := by
    cases self.revoked <;> simp
  have expired : (match self.expiresAt with
      | some expiresAt =>
        if expiresAt ≤ now then MandateDecision.denied (.expired self.id expiresAt) else .allowed
      | none => .allowed) = .allowed ↔ ∀ expiry ∈ self.expiresAt, now < expiry := by
    cases self.expiresAt <;> simp
  rw [Mandate.permits, inOrder_eq_allowed_iff]
  simp only [List.forall_mem_cons, requireCovered_eq_allowed_iff, revoked, expired, coversRepo_iff,
    coversBranch_iff, coversPath_iff, coversTool_iff, coversAction_iff, coversTokens_iff,
    coversCostUsd_iff, coversWallSecs_iff, coversRuns_iff]
  constructor
  · rintro ⟨current, unexpired, repo, branch, path, tool, action, tokens, costUsd, wallSecs, runs, -⟩
    exact ⟨⟨current, unexpired⟩,
      ⟨repo, branch, path, tool, action, tokens, costUsd, wallSecs, runs⟩⟩
  · rintro ⟨⟨current, unexpired⟩, grants⟩
    exact ⟨current, unexpired, grants.repo, grants.branch, grants.path, grants.tool, grants.action,
      grants.tokens, grants.costUsd, grants.wallSecs, grants.runs, fun _ member =>
        (List.not_mem_nil member).elim⟩

theorem Mandate.live_iff {self : Mandate} {now : Instant} :
    self.Live now ↔ self.isRevoked = false ∧ self.isExpired now = false := by
  have live : self.Live now ↔ self.revoked = none ∧ ∀ expiry ∈ self.expiresAt, now < expiry :=
    ⟨fun live => ⟨live.current, live.unexpired⟩, fun both => ⟨both.1, both.2⟩⟩
  rw [live, isRevoked, isExpired]
  cases self.revoked <;> cases self.expiresAt <;> simp

theorem Mandate.not_live_iff {self : Mandate} {now : Instant} :
    ¬ self.Live now ↔ self.isRevoked = true ∨ self.isExpired now = true := by
  rw [live_iff, not_and_or, Bool.not_eq_false, Bool.not_eq_false]

theorem Mandate.Live.earlier {mandate : Mandate} {now later : Instant} (live : mandate.Live later)
    (before : now ≤ later) : mandate.Live now :=
  ⟨live.current, fun expiry expires => lt_of_le_of_lt before (live.unexpired expiry expires)⟩

section Single

variable {self : Mandate} {now : Instant}

theorem Mandate.permits_empty_iff : self.permits {} now = .allowed ↔ self.Live now := by
  rw [permits_eq_allowed_iff]
  refine and_iff_left ⟨?_, ?_, ?_, ?_, ?_, ?_, ?_, ?_, ?_⟩
  all_goals
    intro value named
    cases named

theorem Mandate.permits_no_tokens_iff :
    self.permits { tokens := some 0 } now = .allowed ↔
      self.Live now ∧ self.maxTokens.isSome = true := by
  rw [permits_eq_allowed_iff, Option.isSome_iff_exists]
  refine and_congr_right fun _ => ⟨fun grants => ?_, fun ⟨max, sets⟩ => ?_⟩
  · obtain ⟨max, sets, -⟩ := grants.tokens 0 rfl
    exact ⟨max, sets⟩
  · refine ⟨?_, ?_, ?_, ?_, ?_, fun tokens named => ?_, ?_, ?_, ?_⟩
    rotate_left 5
    · cases named
      exact ⟨max, sets, Nat.zero_le max⟩
    all_goals
      intro value named
      cases named

theorem Mandate.permits_no_wallSecs_iff :
    self.permits { wallSecs := some 0 } now = .allowed ↔
      self.Live now ∧ self.maxWallSecs.isSome = true := by
  rw [permits_eq_allowed_iff, Option.isSome_iff_exists]
  refine and_congr_right fun _ => ⟨fun grants => ?_, fun ⟨max, sets⟩ => ?_⟩
  · obtain ⟨max, sets, -⟩ := grants.wallSecs 0 rfl
    exact ⟨max, sets⟩
  · refine ⟨?_, ?_, ?_, ?_, ?_, ?_, ?_, fun wall named => ?_, ?_⟩
    rotate_left 7
    · cases named
      exact ⟨max, sets, Nat.zero_le max⟩
    all_goals
      intro value named
      cases named

end Single

end UltimateCoders.Governance
