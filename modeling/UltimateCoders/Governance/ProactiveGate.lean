import UltimateCoders.Governance.RecordStore

/-! # The proactive gate

A proposal suggests work that nobody has asked for. The gate admits it or denies it by the mode,
the evidence and the number of open proposals, writes an audit entry, and records the proposal
either way. What is recorded and open can be decided by a human, and executed when approved.
-/

namespace UltimateCoders.Governance

open Transition

def proactiveNamespace : String := "proactive_proposal"

def proactiveAuditNamespace : String := "proactive_audit"

/-- How much autonomy the system has. -/
inductive ProactiveMode where
  | off
  | observe
  | propose
  | execute
  deriving DecidableEq

namespace ProactiveMode

def asStr : ProactiveMode → String
  | off => "off"
  | observe => "observe"
  | propose => "propose"
  | execute => "execute"

def evaluates (mode : ProactiveMode) : Bool := mode ≠ off

def allowsProposal : ProactiveMode → Bool
  | propose | execute => true
  | off | observe => false

end ProactiveMode

inductive ProposalKind where
  | discoveredFollowup
  | unblockStalled
  | fixFailingCi
  | maintenanceDebt
  | investigateAlert
  | replan
  deriving DecidableEq

inductive ProposalStatus where
  | observed
  | proposed
  | approved
  | rejected
  | executed
  | expired
  | failed
  deriving DecidableEq

namespace ProposalStatus

def asStr : ProposalStatus → String
  | observed => "observed"
  | proposed => "proposed"
  | approved => "approved"
  | rejected => "rejected"
  | executed => "executed"
  | expired => "expired"
  | failed => "failed"

def isOpen : ProposalStatus → Bool
  | proposed | approved => true
  | observed | rejected | executed | expired | failed => false

end ProposalStatus

inductive ProposalDecision where
  | approve (decider : String)
  | reject (decider reason : String)

/-- A suggestion of work. -/
structure ProactiveProposal where
  id : String
  caseId : Option String := none
  kind : ProposalKind
  title : String
  rationale : String
  evidence : List String := []
  proposedRequest : Option String := none
  projectId : Option String := none
  estimatedTokens : Option Nat := none
  modeAtCreation : ProactiveMode
  status : ProposalStatus
  createdAt : Instant
  decidedAt : Option Instant := none
  decidedBy : Option String := none
  executedCaseId : Option String := none
  version : Nat := 0
  deriving DecidableEq

/-- A refused change of a proposal. -/
inductive ProposalError where
  | notActionable (status : ProposalStatus)

namespace ProactiveProposal

def applyDecision (proposal : ProactiveProposal) (decision : ProposalDecision) (now : Instant) :
    Except ProposalError ProactiveProposal :=
  if proposal.status ≠ .proposed then .error (.notActionable proposal.status)
  else
    match decision with
    | .approve decider =>
      .ok { proposal with status := .approved, decidedBy := some decider, decidedAt := some now }
    | .reject decider reason =>
      .ok { proposal with
        status := .rejected
        decidedBy := some (decider ++ ":" ++ reason)
        decidedAt := some now }

def markExecuted (proposal : ProactiveProposal) (caseId : String) (now : Instant) :
    Except ProposalError ProactiveProposal :=
  if proposal.status ≠ .approved then .error (.notActionable proposal.status)
  else
    .ok { proposal with status := .executed, executedCaseId := some caseId, decidedAt := some now }

end ProactiveProposal

/-- Why the gate denies a proposal. -/
inductive ProposalDenial where
  | proactiveModeDisallows (mode action : String)
  | budgetExhausted (detail : String)

namespace ProposalDenial

def code : ProposalDenial → String
  | proactiveModeDisallows _ _ => "proactive_mode_disallows"
  | budgetExhausted _ => "budget_exhausted"

/-- The reason as it is rendered for debugging. -/
def debug : ProposalDenial → String
  | proactiveModeDisallows mode action =>
    "ProactiveModeDisallows \x7b mode: \"" ++ mode ++ "\", action: \"" ++ action ++ "\" \x7d"
  | budgetExhausted detail => "BudgetExhausted \x7b detail: \"" ++ detail ++ "\" \x7d"

end ProposalDenial

structure ProactiveGateState where
  mode : ProactiveMode := .off
  maxOpenProposals : Nat := 5
  maxTokensPerAction : Option Nat := none
  alwaysRequireApproval : Bool := false

/-- Why a proposal may not be recorded as one now, if it may not. -/
def ProactiveGateState.admitProposal (state : ProactiveGateState) (proposal : ProactiveProposal)
    (openProposals : Nat) : Option ProposalDenial :=
  if !state.mode.evaluates then some (.proactiveModeDisallows state.mode.asStr "evaluate")
  else if proposal.evidence.isEmpty then
    some (.proactiveModeDisallows state.mode.asStr "propose_without_evidence")
  else if openProposals ≥ state.maxOpenProposals then
    some (.budgetExhausted ("open proactive proposals at capacity (" ++ toString openProposals ++
      "/" ++ toString state.maxOpenProposals ++ ")"))
  else none

/-- What is recorded of a denied proposal. -/
def ProactiveGateState.silence (state : ProactiveGateState) (proposal : ProactiveProposal) :
    ProactiveProposal :=
  if proposal.status = .proposed && !state.mode.allowsProposal && state.mode.evaluates then
    { proposal with status := .observed }
  else proposal

/-- The verdict of the gate. -/
structure Admission where
  allowed : Bool
  denyCode : Option String
  denyDetail : Option String

structure ProactiveAuditEntry where
  at_ : Instant
  mode : ProactiveMode
  action : String
  proposalId : Option String := none
  caseId : Option String := none
  allowed : Bool
  reason : Option String := none
  detail : Option String := none

/-- Failure modes of the gate. -/
inductive ProactiveGateError where
  | store (error : RecordError)
  | notFound (proposalId : String)
  | notActionable (proposalId status : String)
  | contended

/-- How the gate stores its documents. -/
structure GateSerde (Value : Type) where
  proposal : Codec Value ProactiveProposal
  audit : Codec Value ProactiveAuditEntry

namespace ProactiveGate

variable {Value : Type} (serde : GateSerde Value) (state : ProactiveGateState)

def proposals : NamespacedStore := ⟨proactiveNamespace⟩

def audit : NamespacedStore := ⟨proactiveAuditNamespace⟩

/-- Entries are kept apart by the microsecond and the proposal. -/
def auditKey (now : Instant) (proposalId : String) : String :=
  toString (now / 1000) ++ ":" ++ proposalId

def submitEntry (proposal : ProactiveProposal) (denial : Option ProposalDenial) (now : Instant) :
    ProactiveAuditEntry where
  at_ := now
  mode := state.mode
  action := "admit_proposal"
  proposalId := some proposal.id
  caseId := proposal.caseId
  allowed := denial.isNone
  reason := denial.map ProposalDenial.code
  detail := denial.map ProposalDenial.debug

/-- Admit a proposal and record it; what is denied is recorded too, unless the gate is off. -/
def submit (proposal : ProactiveProposal) (openProposals : Nat) (now : Instant) :
    StoreProgram Value (Except ProactiveGateError (Admission × ProactiveProposal)) := do
  let denial := state.admitProposal proposal openProposals
  let _ ← audit.put serde.audit (auditKey now proposal.id) (submitEntry state proposal denial now)
    none
  match denial with
  | some reason =>
    let silenced := state.silence proposal
    let admission : Admission := ⟨false, some reason.code, some reason.debug⟩
    if state.mode.evaluates then
      let _ ← proposals.put serde.proposal silenced.id silenced none
      return .ok (admission, silenced)
    else return .ok (admission, silenced)
  | none =>
    match ← proposals.put serde.proposal proposal.id proposal (some 0) with
    | .error error => return .error (.store error)
    | .ok _ => return .ok (⟨true, none, none⟩, proposal)

def countOpen (listed : List (ProactiveProposal × Nat)) : Nat :=
  listed.countP fun entry => entry.1.status.isOpen

def openCount : StoreProgram Value (Except ProactiveGateError Nat) := do
  match ← proposals.list serde.proposal 1000 with
  | .error error => return .error (.store error)
  | .ok listed => return .ok (countOpen listed)

/-- Submit a proposal with the number of open ones, as the service does. -/
def suggest (proposal : ProactiveProposal) (now : Instant) :
    StoreProgram Value (Except ProactiveGateError (Admission × ProactiveProposal)) := do
  match ← openCount serde with
  | .error error => return .error error
  | .ok openProposals => submit serde state proposal openProposals now

def decisionEntry (proposalId : String) (decision : ProposalDecision) (now : Instant) :
    ProactiveAuditEntry where
  at_ := now
  mode := state.mode
  action := "decision"
  proposalId := some proposalId
  allowed := match decision with
    | .approve _ => true
    | .reject _ _ => false

/-- Record a decision of a human, in at most eight tries. -/
def decide (proposalId : String) (decision : ProposalDecision) (now : Instant) :
    StoreProgram Value (Except ProactiveGateError ProactiveProposal) := do
  match ← proposals.modify serde.proposal proposalId (fun proposal _ =>
      (proposal.applyDecision decision now).map fun decided => (decided, ())) 8 with
  | .absent => return .error (.notFound proposalId)
  | .refused (.notActionable status) => return .error (.notActionable proposalId status.asStr)
  | .written proposal _ =>
    let _ ← audit.put serde.audit (auditKey now proposalId)
      (decisionEntry state proposalId decision now) none
    return .ok proposal
  | .contended => return .error .contended
  | .failed error => return .error (.store error)

/-- Mark an approved proposal as executed with its case, in at most eight tries. -/
def markExecuted (proposalId caseId : String) (now : Instant) :
    StoreProgram Value (Except ProactiveGateError ProactiveProposal) := do
  match ← proposals.modify serde.proposal proposalId (fun proposal _ =>
      (proposal.markExecuted caseId now).map fun executed => (executed, ())) 8 with
  | .absent => return .error (.notFound proposalId)
  | .refused (.notActionable status) => return .error (.notActionable proposalId status.asStr)
  | .written proposal _ => return .ok proposal
  | .contended => return .error .contended
  | .failed error => return .error (.store error)

end ProactiveGate

end UltimateCoders.Governance
