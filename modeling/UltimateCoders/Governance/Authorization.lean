import UltimateCoders.Governance.Approval
import UltimateCoders.Governance.GovernedWork

/-! # Authorization of tools

A tool is allowed to a principal that holds the permission of its class of action. A tool of
the human tier needs the permission of operators on top, or a permit that a human has given
for this tool and case: the permit is looked up first and spent once nothing else speaks
against the call.
-/

namespace UltimateCoders.Governance

open Transition

/-- A capability that the gateway checks. -/
inductive Permission where
  | taskSubmit
  | taskRead
  | taskControl
  | caseCreate
  | caseRead
  | caseControl
  | mandateIssue
  | mandateRevoke
  | triggerIngest
  | workerScale
  | memoryWrite
  | mergeGrant
  | attentionResolve
  | proactivePropose
  | proactiveExecute
  deriving DecidableEq

def Permission.isAuthorityGranting : Permission → Bool
  | mandateIssue | mandateRevoke | workerScale | mergeGrant | proactiveExecute => true
  | _ => false

/-- The ceiling of what a kind of principal may hold. -/
def PrincipalKind.mayHold : PrincipalKind → Permission → Bool
  | externalTrigger, permission => !permission.isAuthorityGranting
  | anonymous, permission => !permission.isAuthorityGranting
  | agent, .mandateIssue | agent, .mandateRevoke | agent, .workerScale
  | agent, .proactiveExecute => false
  | worker, .mandateIssue | worker, .mandateRevoke | worker, .workerScale
  | worker, .proactiveExecute => false
  | _, _ => true

def ActionClass.requiredPermission : ActionClass → Permission
  | read => .taskRead
  | write => .taskSubmit
  | execute => .taskSubmit
  | dispatch => .taskControl
  | push => .mergeGrant
  | merge => .mergeGrant
  | externalNotify => .memoryWrite
  | scale => .workerScale
  | admin => .workerScale

structure Grant where
  principal : Principal
  permissions : List Permission
  projectId : Option String := none
  expiresAt : Option Instant := none
  revoked : Bool := false

def Grant.permits (grant : Grant) (permission : Permission) (projectId : Option String) : Bool :=
  if grant.revoked || !grant.permissions.contains permission then false
  else
    match grant.projectId, projectId with
    | none, _ => true
    | some scope, some requested => scope = requested
    | some _, none => false

/-- Why a decision was denied. -/
inductive DenyReason where
  | unauthenticated
  | missingPermission (required : Permission)
  | grantRevoked (permission : Permission)
  | grantExpired (permission : Permission)
  | forbiddenPrincipalKind (kind : PrincipalKind) (permission : Permission)
  | stalePolicyVersion (provided minimum : Nat)
  | mandateMissing
  | mandateRevoked (mandateId : String)
  | mandateExpired (mandateId : String) (expiredAt : Instant)
  | mandateOutOfScope (scope : String) (value : Requested)
  | mandateWideningDenied (detail : String)
  | toolNotPermitted (tool : String)
  | toolRequiresHumanApproval (tool : String)

inductive PolicyDecision where
  | allow
  | deny (reason : DenyReason)

def PolicyDecision.isAllowed : PolicyDecision → Bool
  | allow => true
  | deny _ => false

structure PolicySnapshot where
  grants : List Grant

namespace PolicySnapshot

/-- Go through the grants of a principal for a permission. -/
def evaluateGrants (permission : Permission) (projectId : Option String) (now : Instant) :
    List Grant → (sawRevoked sawExpired : Bool) → PolicyDecision
  | [], sawRevoked, sawExpired =>
    if sawRevoked then .deny (.grantRevoked permission)
    else if sawExpired then .deny (.grantExpired permission)
    else .deny (.missingPermission permission)
  | grant :: rest, sawRevoked, sawExpired =>
    if grant.revoked then evaluateGrants permission projectId now rest true sawExpired
    else if grant.expiresAt.any fun expiresAt => expiresAt ≤ now then
      evaluateGrants permission projectId now rest sawRevoked true
    else if grant.permits permission projectId then .allow
    else evaluateGrants permission projectId now rest sawRevoked sawExpired

def evaluate (snapshot : PolicySnapshot) (principal : Principal) (permission : Permission)
    (projectId : Option String) (now : Instant) : PolicyDecision :=
  if principal.kind = .anonymous then .deny .unauthenticated
  else if !principal.kind.mayHold permission then
    .deny (.forbiddenPrincipalKind principal.kind permission)
  else
    let grants := snapshot.grants.filter fun grant =>
      grant.principal = principal && grant.permissions.contains permission
    evaluateGrants permission projectId now grants false false

end PolicySnapshot

structure ToolPolicy where
  tool : String
  action : ActionClass
  known : Bool := true
  requiresMandateScope : Bool := true
  humanApproval : Bool := false

structure ToolPolicyTable where
  rules : List ToolPolicy

namespace ToolPolicyTable

/-- The tools that sandboxes offer. -/
def builtin : ToolPolicyTable where
  rules :=
    (["Read", "Glob", "Grep", "LS", "NotebookRead", "TodoRead"].map fun tool =>
      { tool := tool, action := .read, requiresMandateScope := false }) ++
    (["Edit", "Write", "NotebookEdit", "MultiEdit"].map fun tool =>
      { tool := tool, action := .write }) ++
    (["Bash", "BashOutput", "KillBash"].map fun tool => { tool := tool, action := .execute }) ++
    (["Task", "Agent"].map fun tool => { tool := tool, action := .dispatch }) ++
    [{ tool := "git_push", action := .push },
      { tool := "merge", action := .merge },
      { tool := "github_comment", action := .externalNotify },
      { tool := "github_issue_update", action := .externalNotify },
      { tool := "memory_write", action := .write },
      { tool := "scale_workers", action := .scale, humanApproval := true },
      { tool := "docker_run", action := .execute, humanApproval := true }]

def requirement (table : ToolPolicyTable) (tool : String) : ToolPolicy :=
  (table.rules.find? fun policy => policy.tool = tool).getD {
    tool := tool
    action := .admin
    known := false
    humanApproval := true }

end ToolPolicyTable

def mandateDenial : MandateDenial → DenyReason
  | .revoked mandateId _ => .mandateRevoked mandateId
  | .expired mandateId expiredAt => .mandateExpired mandateId expiredAt
  | .outOfScope scope value => .mandateOutOfScope scope value
  | .wideningDenied detail => .mandateWideningDenied detail
  | .stalePolicyVersion mandateVersion minimum => .stalePolicyVersion mandateVersion minimum
  | .originForbidden origin => .mandateWideningDenied ("forbidden mandate origin: " ++ origin)

def authorizeMandate (mandate : Mandate) (request : MandateRequest) (now : Instant) :
    PolicyDecision :=
  match mandate.permits request now with
  | .allowed => .allow
  | .denied denial => .deny (mandateDenial denial)

/-- The documents that the policy engine reads and writes. -/
structure PolicySerde (Value : Type) where
  approval : Codec Value ToolApproval
  mandate : Codec Value Mandate

variable {Value : Type}

/-- The mandate of the case that was issued last. -/
def MandateStore.latestForCase (codec : Codec Value Mandate) (caseId : String) (limit : Nat) :
    StoreProgram Value (Except RecordError (Option Mandate)) := do
  match ← MandateStore.view.list codec limit with
  | .error error => return .error error
  | .ok mandates =>
    let own := (mandates.map Prod.fst).filter fun mandate => mandate.caseId = caseId
    return .ok (own.foldl (fun latest mandate =>
      match latest with
      | none => some mandate
      | some best => if best.issuedAt ≤ mandate.issuedAt then some mandate else some best) none)

structure PolicyEngine where
  snapshot : PolicySnapshot
  tools : ToolPolicyTable
  /-- Whether approvals are attached to the engine. -/
  approvals : Bool

namespace PolicyEngine

variable (serde : PolicySerde Value) (engine : PolicyEngine)

def authorize (principal : Principal) (permission : Permission) (projectId : Option String)
    (now : Instant) : PolicyDecision :=
  engine.snapshot.evaluate principal permission projectId now

/-- The permit that the call needs, if any. -/
def peekHumanTierPermit (principal : Principal) (projectId : Option String) (tool : String)
    (caseId : Option String) (now : Instant) :
    StoreProgram Value (Except PolicyDecision (Option String)) := do
  if (engine.authorize principal .proactiveExecute projectId now).isAllowed then return .ok none
  else if engine.approvals then
    match ← ApprovalStore.findApproved serde.approval tool caseId now with
    | .ok (some approval) => return .ok (some approval.id)
    | .ok none => return .error (.deny (.toolRequiresHumanApproval tool))
    | .error _ => return .error (.deny (.toolRequiresHumanApproval tool))
  else return .error (.deny (.toolRequiresHumanApproval tool))

/-- Spend the permit and answer. -/
def settleToolDecision (permitId : Option String) (tool : String) (now : Instant) :
    StoreProgram Value PolicyDecision := do
  match permitId with
  | none => return .allow
  | some id =>
    if engine.approvals then
      match ← ApprovalStore.consume serde.approval id now with
      | .ok _ => return .allow
      | .error _ => return .deny (.toolRequiresHumanApproval tool)
    else return .deny (.toolRequiresHumanApproval tool)

def checkMandate (requirement : ToolPolicy) (tool : String) (caseId : Option String)
    (now : Instant) : StoreProgram Value PolicyDecision := do
  match caseId with
  | none => return .deny .mandateMissing
  | some caseId =>
    match ← MandateStore.latestForCase serde.mandate caseId 256 with
    | .error _ => return .deny .mandateMissing
    | .ok none => return .deny .mandateMissing
    | .ok (some mandate) =>
      return authorizeMandate mandate { tool := some tool, action := some requirement.action } now

/-- The checks that both entry points share; then `settle` goes on with the permit. -/
def gate (principal : Principal) (tool : String) (projectId caseId : Option String) (now : Instant)
    (settle : ToolPolicy → Option String → StoreProgram Value PolicyDecision) :
    StoreProgram Value PolicyDecision := do
  let requirement := engine.tools.requirement tool
  if !requirement.known then return .deny (.toolNotPermitted tool)
  else
    match engine.authorize principal requirement.action.requiredPermission projectId now with
    | .deny reason => return .deny reason
    | .allow =>
      if requirement.humanApproval then
        match ← peekHumanTierPermit serde engine principal projectId tool caseId now with
        | .ok permitId => settle requirement permitId
        | .error decision => return decision
      else settle requirement none

/-- The check of a tool that is used for a case. -/
def authorizeTool (principal : Principal) (tool : String) (projectId caseId : Option String)
    (now : Instant) : StoreProgram Value PolicyDecision :=
  gate serde engine principal tool projectId caseId now fun requirement permitId => do
    if !requirement.requiresMandateScope then settleToolDecision serde engine permitId tool now
    else
      match ← checkMandate serde requirement tool caseId now with
      | .allow => settleToolDecision serde engine permitId tool now
      | .deny reason => return .deny reason

/-- The check of a tool that is no work on a case. -/
def authorizeHumanTierTool (principal : Principal) (tool : String)
    (projectId caseId : Option String) (now : Instant) : StoreProgram Value PolicyDecision :=
  gate serde engine principal tool projectId caseId now fun _ permitId =>
    settleToolDecision serde engine permitId tool now

end PolicyEngine

end UltimateCoders.Governance
