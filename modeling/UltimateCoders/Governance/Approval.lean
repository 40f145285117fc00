import UltimateCoders.Governance.History

/-! # Approvals of tools

A request names one action of one requester; a human other than the requester allows or
refuses it, and what is allowed may be used once before it expires. Documents are kept under
an id that is derived from tool, case, requester and action, so that a request that is made
again finds the document of the first.
-/

namespace UltimateCoders.Governance

open Transition

/-- A minute, in nanoseconds. -/
def minute : Int := 60 * 1000000000

def approvalTtlMinutes : Int := 15

def maxApprovalTtlMinutes : Int := 24 * 60

inductive ApprovalState where
  | pending
  | approved
  | rejected
  | expired
  | used
  deriving DecidableEq

structure ApprovalRequest where
  tool : String
  caseId : Option String
  projectId : Option String
  actionDigest : Option String
  requestedBy : Principal
  reason : Option String
  deriving DecidableEq

structure ToolApproval where
  id : String
  request : ApprovalRequest
  state : ApprovalState
  requestedAt : Instant
  expiresAt : Instant
  decidedAt : Option Instant
  decidedBy : Option Principal
  note : Option String
  usedAt : Option Instant
  deriving DecidableEq

/-- Why a decision or the use of a permit was refused. -/
inductive ApprovalError where
  | notPending (state : ApprovalState)
  | notAHumanDecision (kind : PrincipalKind)
  | selfDecision
  | expired (expiresAt : Instant)
  | notUsable (state : ApprovalState)
  deriving DecidableEq

/-- The text that the id of a request is derived from. -/
def approvalMaterial (request : ApprovalRequest) : String :=
  request.tool ++ "|" ++ request.caseId.getD "" ++ "|" ++ request.requestedBy.kind.asStr ++ "|" ++
    request.requestedBy.id ++ "|" ++ request.actionDigest.getD ""

def approvalId (sha256Hex : String → String) (request : ApprovalRequest) : String :=
  "apr-" ++ String.ofList ((sha256Hex (approvalMaterial request)).toList.take 32)

namespace ToolApproval

/-- A pending request; its lifetime is between a minute and a day. -/
def ofRequest (sha256Hex : String → String) (request : ApprovalRequest) (now : Instant)
    (ttl : Option Int) : ToolApproval where
  id := approvalId sha256Hex request
  request := request
  state := .pending
  requestedAt := now
  expiresAt := now + match ttl with
    | some ttl => max minute (min ttl (maxApprovalTtlMinutes * minute))
    | none => approvalTtlMinutes * minute
  decidedAt := none
  decidedBy := none
  note := none
  usedAt := none

variable (approval : ToolApproval)

def isPending : Bool := approval.state = .pending

def isDecidable (now : Instant) : Bool :=
  approval.isPending && now < approval.expiresAt

def isUsable (now : Instant) : Bool :=
  approval.state = .approved && now < approval.expiresAt

/-- The approval was granted for this tool and this case. -/
def covers (tool : String) (caseId : Option String) : Bool :=
  approval.request.tool = tool && approval.request.caseId = caseId

def decide (by_ : Principal) (next : ApprovalState) (note : Option String) (now : Instant) :
    Except ApprovalError ToolApproval :=
  if !approval.isPending then .error (.notPending approval.state)
  else if now ≥ approval.expiresAt then .error (.expired approval.expiresAt)
  else if by_.kind ≠ .user then .error (.notAHumanDecision by_.kind)
  else if by_ = approval.request.requestedBy then .error .selfDecision
  else .ok { approval with
    state := next
    decidedAt := some now
    decidedBy := some by_
    note := note }

def approve (by_ : Principal) (note : Option String) (now : Instant) :
    Except ApprovalError ToolApproval :=
  (approval.decide by_ .approved note now).map fun approved =>
    { approved with decidedAt := some now }

def reject (by_ : Principal) (note : Option String) (now : Instant) :
    Except ApprovalError ToolApproval :=
  approval.decide by_ .rejected note now

/-- Spend the permit. -/
def consume (now : Instant) : Except ApprovalError ToolApproval :=
  if !approval.isUsable now then .error (.notUsable approval.state)
  else .ok { approval with state := .used, usedAt := some now }

/-- Close a request that nobody has decided. -/
def expire (now : Instant) : Except ApprovalError ToolApproval :=
  if !approval.isPending then .error (.notPending approval.state)
  else if now < approval.expiresAt then .error (.notPending approval.state)
  else .ok { approval with state := .expired }

end ToolApproval

inductive ApprovalStoreError where
  | store (error : RecordError)
  | refused (error : ApprovalError)
  | notFound (id : String)
  deriving DecidableEq

def approvalNamespace : String := "approvals"

def approvalScanLimit : Nat := 512

namespace ApprovalStore

variable {Value : Type} (codec : Codec Value ToolApproval)

def view : NamespacedStore := ⟨approvalNamespace⟩

def get (id : String) :
    StoreProgram Value (Except ApprovalStoreError (Option (ToolApproval × Nat))) := do
  match ← view.get codec id with
  | .error error => return .error (.store error)
  | .ok found => return .ok found

/-- Record a request, or find the one that is recorded under its id. -/
def request (approval : ToolApproval) :
    StoreProgram Value (Except ApprovalStoreError (ToolApproval × Bool)) := do
  match ← view.put codec approval.id approval (some 0) with
  | .ok _ => return .ok (approval, true)
  | .error (.conflict _ _) =>
    match ← get codec approval.id with
    | .error error => return .error error
    | .ok none => return .error (.notFound approval.id)
    | .ok (some existing) => return .ok (existing.1, false)
  | .error error => return .error (.store error)

/-- Listed documents, or the error of the listing. -/
def scan : StoreProgram Value (Except ApprovalStoreError (List (ToolApproval × Nat))) := do
  match ← view.list codec approvalScanLimit with
  | .error error => return .error (.store error)
  | .ok approvals => return .ok approvals

/-- One page of the approvals in a state, the newest first. -/
def listPage (state : Option ApprovalState) (limit offset : Nat) :
    StoreProgram Value (Except ApprovalStoreError (List ToolApproval)) := do
  match ← scan codec with
  | .error error => return .error error
  | .ok approvals =>
    let kept := (approvals.map Prod.fst).filter fun approval =>
      match state with
      | none => true
      | some state => approval.state = state
    let sorted := kept.insertionSort fun first second =>
      second.requestedAt < first.requestedAt ∨
        (second.requestedAt = first.requestedAt ∧ first.id ≤ second.id)
    return .ok ((sorted.drop offset).take limit)

/-- Change the document in at most three attempts; `lost` is the answer if all of them were
overtaken. -/
def change (id : String) (mutate : ToolApproval → Except ApprovalError ToolApproval)
    (lost : ApprovalError) : StoreProgram Value (Except ApprovalStoreError ToolApproval) := do
  match ← view.modify codec id (fun approval _ => (mutate approval).map fun next => (next, ())) 3 with
  | .absent => return .error (.notFound id)
  | .refused refusal => return .error (.refused refusal)
  | .written next _ => return .ok next
  | .contended => return .error (.refused lost)
  | .failed error => return .error (.store error)

def approve (id : String) (by_ : Principal) (note : Option String) (now : Instant) :
    StoreProgram Value (Except ApprovalStoreError ToolApproval) :=
  change codec id (fun approval => approval.approve by_ note now) (.notPending .pending)

def reject (id : String) (by_ : Principal) (note : Option String) (now : Instant) :
    StoreProgram Value (Except ApprovalStoreError ToolApproval) :=
  change codec id (fun approval => approval.reject by_ note now) (.notPending .pending)

/-- Spend one permit. -/
def consume (id : String) (now : Instant) :
    StoreProgram Value (Except ApprovalStoreError ToolApproval) :=
  change codec id (fun approval => approval.consume now) (.notUsable .approved)

/-- The usable permits for a tool and case, in the order in which they were decided. -/
def candidates (tool : String) (caseId : Option String) (now : Instant)
    (approvals : List (ToolApproval × Nat)) : List (ToolApproval × Nat) :=
  (approvals.filter fun entry => entry.1.isUsable now && entry.1.covers tool caseId).insertionSort
    fun first second => first.1.decidedAt.getD first.1.requestedAt ≤
      second.1.decidedAt.getD second.1.requestedAt

/-- Find a usable permit without spending it. -/
def findApproved (tool : String) (caseId : Option String) (now : Instant) :
    StoreProgram Value (Except ApprovalStoreError (Option ToolApproval)) := do
  match ← scan codec with
  | .error error => return .error error
  | .ok approvals => return .ok ((candidates tool caseId now approvals).head?.map Prod.fst)

/-- Spend the first of the permits that nobody else has spent. -/
def consumeFirst (now : Instant) : List (ToolApproval × Nat) →
    StoreProgram Value (Except ApprovalStoreError (Option ToolApproval))
  | [] => return .ok none
  | (approval, version) :: rest =>
    match approval.consume now with
    | .error _ => consumeFirst now rest
    | .ok used => do
        match ← view.put codec used.id used (some version) with
        | .ok _ => return .ok (some used)
        | .error (.conflict _ _) => consumeFirst now rest
        | .error error => return .error (.store error)

/-- Spend a permit for a tool and case, if there is one. -/
def consumeApproved (tool : String) (caseId : Option String) (now : Instant) :
    StoreProgram Value (Except ApprovalStoreError (Option ToolApproval)) := do
  match ← scan codec with
  | .error error => return .error error
  | .ok approvals => consumeFirst codec now (candidates tool caseId now approvals)

/-- Close the listed requests; the number of those that were closed. -/
def expireEach (now : Instant) : List (ToolApproval × Nat) → Nat →
    StoreProgram Value (Except ApprovalStoreError Nat)
  | [], expired => return .ok expired
  | (approval, version) :: rest, expired =>
    match approval.expire now with
    | .error _ => expireEach now rest expired
    | .ok next => do
        match ← view.put codec next.id next (some version) with
        | .ok _ => expireEach now rest (expired + 1)
        | .error (.conflict _ _) => expireEach now rest expired
        | .error error => return .error (.store error)

/-- Close requests whose lifetime ran out. -/
def expireStale (now : Instant) (limit : Nat) :
    StoreProgram Value (Except ApprovalStoreError Nat) := do
  match ← scan codec with
  | .error error => return .error error
  | .ok approvals =>
    let stale := (approvals.filter fun entry => entry.1.isPending && now ≥ entry.1.expiresAt).take
      limit
    expireEach codec now stale 0

end ApprovalStore

end UltimateCoders.Governance
