import UltimateCoders.Governance.Authorization

/-! # What grants allow

A decision on a permission goes through the grants of the principal and returns at the first
that is in force and covers the project. What it says does not depend on the order of the
grants: it allows if there is such a grant, and otherwise names the strongest reason that
some grant of the principal gives.
-/

namespace UltimateCoders.Governance

open PolicySnapshot

variable {grants : List Grant} {principal : Principal} {permission : Permission}
  {projectId : Option String} {now : Instant}

def Grant.isExpired (grant : Grant) (now : Instant) : Bool :=
  grant.expiresAt.any fun expiresAt => expiresAt ≤ now

open Grant

/-- The grant is neither revoked nor expired, and covers the project. -/
def Grant.allows (grant : Grant) (permission : Permission) (projectId : Option String)
    (now : Instant) : Bool :=
  !grant.revoked && !grant.isExpired now && grant.permits permission projectId

/-- The decision on grants, from what is found among them. -/
def decision (permission : Permission) (allowed revoked expired : Bool) : PolicyDecision :=
  if allowed then .allow
  else if revoked then .deny (.grantRevoked permission)
  else if expired then .deny (.grantExpired permission)
  else .deny (.missingPermission permission)

theorem evaluateGrants_eq_decision (grants : List Grant) (sawRevoked sawExpired : Bool) :
    evaluateGrants permission projectId now grants sawRevoked sawExpired =
      decision permission (grants.any fun grant => grant.allows permission projectId now)
        (sawRevoked || grants.any revoked)
        (sawExpired || grants.any fun grant => !grant.revoked && grant.isExpired now) := by
  induction grants generalizing sawRevoked sawExpired with
  | nil => simp [evaluateGrants, decision]
  | cons grant rest ih =>
    unfold evaluateGrants
    by_cases revoked : grant.revoked = true
    · rw [if_pos revoked, ih]
      simp [allows, revoked]
    · rw [if_neg revoked, ← isExpired]
      rw [Bool.not_eq_true] at revoked
      by_cases expired : grant.isExpired now = true
      · rw [if_pos expired, ih]
        simp [allows, revoked, expired]
      · rw [if_neg expired]
        rw [Bool.not_eq_true] at expired
        by_cases permits : grant.permits permission projectId = true
        · rw [if_pos permits]
          simp [decision, allows, revoked, expired, permits]
        · rw [if_neg permits, ih]
          simp [allows, revoked, expired, permits]

theorem decision_eq_allow_iff {allowed revoked expired : Bool} :
    decision permission allowed revoked expired = .allow ↔ allowed = true := by
  cases allowed <;> cases revoked <;> cases expired <;> simp [decision]

theorem isExpired_eq_false_iff {grant : Grant} :
    grant.isExpired now = false ↔ ∀ expiresAt, grant.expiresAt = some expiresAt → now < expiresAt := by
  cases known : grant.expiresAt <;> simp [isExpired, known]

theorem permits_iff {grant : Grant} :
    grant.permits permission projectId = true ↔
      grant.revoked = false ∧ permission ∈ grant.permissions ∧
        ∀ scope, grant.projectId = some scope → projectId = some scope := by
  cases scope : grant.projectId with
  | none => simp [permits, scope]
  | some own =>
    cases projectId with
    | none => simp [permits, scope]
    | some requested => simp [permits, scope, and_assoc, eq_comm (a := requested)]

theorem allows_iff {grant : Grant} :
    grant.allows permission projectId now = true ↔
      permission ∈ grant.permissions ∧ grant.revoked = false ∧
        (∀ expiresAt, grant.expiresAt = some expiresAt → now < expiresAt) ∧
        ∀ scope, grant.projectId = some scope → projectId = some scope := by
  simp only [allows, Bool.and_eq_true, Bool.not_eq_true', isExpired_eq_false_iff, permits_iff]
  tauto

/-- A permission is allowed exactly if the principal may hold it and has a grant for it that is
in force. The decision is the same for every order of the grants. -/
theorem evaluate_spec (snapshot : PolicySnapshot) (principal : Principal) (permission : Permission)
    (projectId : Option String) (now : Instant) :
    (snapshot.evaluate principal permission projectId now = .allow ↔
      principal.kind ≠ .anonymous ∧ principal.kind.mayHold permission = true ∧
      ∃ grant ∈ snapshot.grants, grant.principal = principal ∧
        permission ∈ grant.permissions ∧ grant.revoked = false ∧
        (∀ expiresAt, grant.expiresAt = some expiresAt → now < expiresAt) ∧
        ∀ scope, grant.projectId = some scope → projectId = some scope) ∧
    ∀ others : List Grant, others.Perm snapshot.grants →
      (mk others).evaluate principal permission projectId now =
        snapshot.evaluate principal permission projectId now := by
  constructor
  · unfold evaluate
    by_cases anonymous : principal.kind = .anonymous
    · simp [anonymous]
    by_cases forbidden : principal.kind.mayHold permission = true
    · rw [if_neg anonymous, if_neg (by simp [forbidden])]
      dsimp only
      rw [evaluateGrants_eq_decision, decision_eq_allow_iff]
      simp only [List.any_eq_true, List.mem_filter, allows_iff, Bool.and_eq_true,
        decide_eq_true_eq, List.contains_eq_mem]
      constructor
      · rintro ⟨grant, ⟨member, own, _⟩, allows⟩
        exact ⟨anonymous, forbidden, grant, member, own, allows⟩
      · rintro ⟨_, _, grant, member, own, allows⟩
        exact ⟨grant, ⟨member, own, allows.1⟩, allows⟩
    · simp [anonymous, forbidden]
  · intro others same
    have kept := same.filter fun grant =>
      grant.principal = principal && grant.permissions.contains permission
    unfold evaluate
    dsimp only
    rw [evaluateGrants_eq_decision, evaluateGrants_eq_decision]
    simp only [kept.any_eq]

end UltimateCoders.Governance
