import UltimateCoders.Governance.CaseStore
import UltimateCoders.Governance.Mandate
import UltimateCoders.Governance.Submission

/-! # Submitting governed work

A submission may belong to a case. The gateway records it, links a run of the case
to its task, and drains the outbox onto the transport. An event that a case has
subscribed to may resume the case by a submission of its own.
-/

namespace UltimateCoders.Governance

open Transition SubmissionStore

variable {Value : Type}

/-- How all governance documents are serialized. -/
structure GovernanceSerde (Value : Type) extends Serde Value where
  case : Codec Value WorkCase
  mandate : Codec Value Mandate

/-- Text without the white space around it. -/
def trim (text : String) : String :=
  String.ofList ((text.toList.dropWhile Text.isWhitespace).rdropWhile Text.isWhitespace)

/-- What the transport says to a publication: nothing, or an error. -/
abbrev Transport := OutboxEntry → Option String

structure OutboxDrain where
  delivered : Nat := 0
  retried : Nat := 0
  deriving DecidableEq

def submissionIdFromOutboxKey (key : String) : Option String :=
  if "task-submit:".toList.isPrefixOf key.toList then
    let rest := String.ofList (key.toList.drop "task-submit:".length)
    if rest = "" then none else some (trim rest)
  else none

section Drain

variable (serde : Serde Value)

/-- Advance the record of a submission whose publication was delivered. -/
def confirmPublishedSubmission (key : String) (now : Instant) : StoreProgram Value Unit := do
  match submissionIdFromOutboxKey key with
  | none => return ()
  | some submissionId =>
    let _ ← markPublished serde submissionId now
    return ()

/-- Publish claimed entries one by one, and record what came of it. -/
def drainEach (transport : Transport) (now : Instant) : List OutboxEntry → OutboxDrain →
    StoreProgram Value OutboxDrain
  | [], summary => return summary
  | entry :: rest, summary => do
      match transport entry with
      | none =>
        match ← OutboxQueue.markDelivered serde.outbox entry.key now with
        | .error _ => drainEach transport now rest summary
        | .ok _ =>
          confirmPublishedSubmission serde entry.key now
          drainEach transport now rest { summary with delivered := summary.delivered + 1 }
      | some error =>
        let _ ← OutboxQueue.scheduleRetry serde.outbox entry.key error now
        drainEach transport now rest { summary with retried := summary.retried + 1 }

def drainOutbox (transport : Transport) (now : Instant) (limit : Nat) :
    StoreProgram Value OutboxDrain := do
  match ← OutboxQueue.claimDue serde.outbox now limit with
  | .error _ => return {}
  | .ok entries => drainEach serde transport now entries {}

end Drain

/-- How many entries one pass of the gateway drains. -/
def outboxDrainLimit : Nat := 64

/-- A call that submits a task, after its caller was identified. -/
structure SubmitTaskRequest where
  principal : Principal
  description : String
  projectId : String
  caseId : Option String
  submissionId : Option String
  deriving DecidableEq

structure SubmitTaskResponse where
  success : Bool
  taskId : String := ""
  error : Option String := none
  dedupReplayed : Bool := false
  submissionId : Option String := none
  deriving DecidableEq

def Principal.display (principal : Principal) : String :=
  principal.kind.asStr ++ ":" ++ principal.id

def SubmissionError.display : SubmissionError → String
  | store error => "submission store: " ++ error.display
  | outbox detail => "submission outbox: " ++ detail

/-- An optional field counts if there is text in it. -/
def givenText (text : Option String) : Option String :=
  (text.map trim).filter fun given => given ≠ ""

section Submit

variable (sha256Hex : String → String)

/-- The id of a request whose caller sent none. -/
def deriveSubmissionId (principal : Principal) (projectId description : String) : String :=
  let digest := sha256Hex (projectId ++ "\x00" ++ normalizeRequest description)
  let material := principal.display ++ "|" ++ projectId ++ "|" ++ digest
  "auto-" ++ String.ofList ((sha256Hex material).toList.take 32)

def SubmitTaskRequest.id (request : SubmitTaskRequest) : String :=
  (givenText request.submissionId).getD
    (deriveSubmissionId sha256Hex request.principal request.projectId request.description)

/-- What is submitted for a call. -/
def SubmitTaskRequest.submission (request : SubmitTaskRequest) : SubmissionRequest where
  submissionId := request.id sha256Hex
  principal := request.principal
  projectId := request.projectId
  description := request.description
  caseId := givenText request.caseId

variable (serde : GovernanceSerde Value)

/-- Whether the case has a run of the task already. -/
def alreadyLinked (caseId taskId : String) : StoreProgram Value Bool := do
  match ← CaseStore.get serde.case caseId with
  | .ok (some (case, _)) => return case.runs.any fun run => run.taskId = taskId
  | .ok none => return false
  | .error _ => return false

/-- Link a run of the case to the task of a recorded submission, unless there is
one; a submission whose run is refused is marked failed. -/
def linkSubmission (caseId runId submissionId : String) (record : SubmissionRecord)
    (now : Instant) : StoreProgram Value (Except CaseStoreError Unit) := do
  if ← alreadyLinked serde caseId record.taskId then return .ok ()
  else
    match ← CaseStore.openRun serde.case caseId runId record.taskId (some record.submissionId)
        now with
    | .ok _ => return .ok ()
    | .error error =>
      let _ ← markFailed serde.toSerde submissionId error.display now
      return .error error

/-- Settle the record of a submission whose task exists, and answer. -/
def settleSubmission (submissionId : String) (record : SubmissionRecord) (dedupReplayed : Bool)
    (now : Instant) : StoreProgram Value (Except String SubmitTaskResponse) := do
  if ← isDelivered serde.toSerde (outboxKey submissionId) then
    let _ ← markPublished serde.toSerde submissionId now
  let _ ← markApplied serde.toSerde submissionId now
  return .ok {
    success := true
    taskId := record.taskId
    dedupReplayed := dedupReplayed
    submissionId := some submissionId }

def finishSubmission (transport : Option Transport) (submissionId : String)
    (record : SubmissionRecord) (dedupReplayed : Bool) (now : Instant) :
    StoreProgram Value (Except String SubmitTaskResponse) := do
  match transport with
  | none => settleSubmission serde submissionId record dedupReplayed now
  | some transport =>
    let _ ← drainOutbox serde.toSerde transport now outboxDrainLimit
    settleSubmission serde submissionId record dedupReplayed now

/-- Whether the case of a submission, if it has one, is known. -/
def caseKnown (caseId : Option String) : StoreProgram Value (Except CaseStoreError Bool) := do
  match caseId with
  | none => return .ok true
  | some caseId =>
    match ← CaseStore.get serde.case caseId with
    | .error error => return .error error
    | .ok found => return .ok found.isSome

/-- Submit a task: record it once, link it to its case, publish it. -/
def submitTask (request : SubmitTaskRequest) (runId : String) (transport : Option Transport)
    (now : Instant) : StoreProgram Value (Except String SubmitTaskResponse) := do
  if request.description = "" then
    return .ok { success := false, error := some "Task description cannot be empty" }
  else if trim request.projectId = "" then
    return .ok {
      success := false
      error := some ("project_id cannot be empty — every task must declare a project scope " ++
        "(D8 #645)") }
  else
    let submission := request.submission sha256Hex
    let submissionId := submission.submissionId
    match ← caseKnown serde submission.caseId with
    | .error error => return .error ("case store failed: " ++ error.display)
    | .ok false =>
      return .ok {
        success := false
        error := some ("unknown case_id '" ++ submission.caseId.getD "" ++ "'")
        submissionId := some submissionId }
    | .ok true =>
      match ← submitOnce serde.toSerde sha256Hex submission now with
      | .error error => return .error ("submission store failed: " ++ error.display)
      | .ok (.conflict conflicting _ _) =>
        return .ok {
          success := false
          error := some ("submission_id '" ++ conflicting ++
            "' was already used for a different request; use a fresh idempotency key")
          submissionId := some submissionId }
      | .ok (.created record) => linked submission.caseId submissionId record false
      | .ok (.replayed record) => linked submission.caseId submissionId record true
where
  linked (caseId : Option String) (submissionId : String) (record : SubmissionRecord)
      (dedupReplayed : Bool) : StoreProgram Value (Except String SubmitTaskResponse) := do
    match caseId with
    | none => finishSubmission serde transport submissionId record dedupReplayed now
    | some caseId =>
      match ← linkSubmission serde caseId runId submissionId record now with
      | .ok _ => finishSubmission serde transport submissionId record dedupReplayed now
      | .error error =>
        return .ok {
          success := false
          taskId := record.taskId
          error := some ("case run could not be opened: " ++ error.display)
          dedupReplayed := dedupReplayed
          submissionId := some submissionId }

end Submit

def mandateNamespace : String := "mandate"

/-- Failure modes of reading and issuing mandates. -/
inductive MandateStoreError where
  | store (error : RecordError)
  deriving DecidableEq

def MandateStoreError.display : MandateStoreError → String
  | store error => "mandate store: " ++ error.display

namespace MandateStore

def view : NamespacedStore := ⟨mandateNamespace⟩

variable (codec : Codec Value Mandate)

def get (mandateId : String) :
    StoreProgram Value (Except MandateStoreError (Option (Mandate × Nat))) := do
  match ← view.get codec mandateId with
  | .error error => return .error (.store error)
  | .ok found => return .ok found

/-- Persist a newly issued mandate. -/
def putNew (mandate : Mandate) : StoreProgram Value (Except MandateStoreError Unit) := do
  match ← view.put codec mandate.id mandate (some 0) with
  | .error error => return .error (.store error)
  | .ok _ => return .ok ()

end MandateStore

inductive SourceKind where
  | gitHub
  | ci
  | lark
  | dashboard
  | api
  | cron
  | manual
  deriving DecidableEq

def SourceKind.asStr : SourceKind → String
  | gitHub => "github"
  | ci => "ci"
  | lark => "lark"
  | dashboard => "dashboard"
  | api => "api"
  | cron => "cron"
  | manual => "manual"

inductive TriggerKind where
  | issueOpened
  | issueComment
  | pullRequestOpened
  | pullRequestSynchronize
  | pullRequestReview
  | pullRequestComment
  | push
  | checkRun
  | workflowRun
  | message
  | cronTick
  | apiCall
  | manual
  deriving DecidableEq

def TriggerKind.asStr : TriggerKind → String
  | issueOpened => "issue_opened"
  | issueComment => "issue_comment"
  | pullRequestOpened => "pull_request_opened"
  | pullRequestSynchronize => "pull_request_synchronize"
  | pullRequestReview => "pull_request_review"
  | pullRequestComment => "pull_request_comment"
  | push => "push"
  | checkRun => "check_run"
  | workflowRun => "workflow_run"
  | message => "message"
  | cronTick => "cron_tick"
  | apiCall => "api_call"
  | manual => "manual"

/-- What a resume reads of an event. -/
structure TriggerEvent where
  source : SourceKind
  kind : TriggerKind
  externalId : String
  payloadDigest : Option String
  deriving DecidableEq

/-- Why a resume did not happen. -/
inductive ResumeSkip where
  | unknownCase
  | terminal (status : CaseStatus)
  | notRunnable (status : CaseStatus)
  | runAlreadyOpen (runId : String)
  | noLiveMandate (detail : String)
  deriving DecidableEq

def resumeDescription (caseId : String) (event : TriggerEvent) : String :=
  "Resume case " ++ caseId ++ " after a " ++ event.source.asStr ++ " " ++ event.kind.asStr ++
    " event (external id " ++ event.externalId ++
    "). Continue the outstanding work for this case."

section Resume

variable (sha256Hex : String → String)

def TriggerEvent.dedupKey (event : TriggerEvent) : String :=
  sha256Hex (event.source.asStr ++ "|" ++ event.kind.asStr ++ "|" ++ event.externalId ++ "|" ++
    event.payloadDigest.getD "")

def resumeSubmissionId (caseId : String) (event : TriggerEvent) : String :=
  trim ("case-resume:" ++ caseId ++ ":" ++ event.dedupKey sha256Hex)

variable (serde : GovernanceSerde Value)

/-- Decide whether an event that the case has opted into starts a new run. -/
def planResume (caseId : String) (event : TriggerEvent) (now : Instant) :
    StoreProgram Value (Except ResumeSkip SubmissionRequest) := do
  match ← CaseStore.get serde.case caseId with
  | .error _ => return .error .unknownCase
  | .ok none => return .error .unknownCase
  | .ok (some (case, _)) =>
    if case.status.isTerminal then return .error (.terminal case.status)
    else if case.status ≠ .active then return .error (.notRunnable case.status)
    else
      match case.activeRun, case.mandateId with
      | some run, _ => return .error (.runAlreadyOpen run.runId)
      | none, none => return .error (.noLiveMandate "case has no mandate")
      | none, some mandateId =>
        let named := "mandate " ++ mandateId
        match ← MandateStore.get serde.mandate mandateId with
        | .ok none => return .error (.noLiveMandate (named ++ " no longer exists"))
        | .error error =>
          return .error (.noLiveMandate (named ++ " could not be read: " ++ error.display))
        | .ok (some (mandate, _)) =>
          if mandate.isRevoked then return .error (.noLiveMandate (named ++ " is revoked"))
          else if mandate.isExpired now then
            return .error (.noLiveMandate (named ++ " has expired"))
          else
            match mandate.permits { action := some .dispatch } now with
            | .denied _ =>
              return .error (.noLiveMandate (named ++ " does not permit the dispatch action"))
            | .allowed =>
              return .ok {
                submissionId := resumeSubmissionId sha256Hex caseId event
                principal := mandate.grantor
                projectId := case.projectId
                description := resumeDescription caseId event
                caseId := some caseId }

def resumeOne (caseId : String) (event : TriggerEvent) (runId : String) (now : Instant) :
    StoreProgram Value (Except String (Option String)) := do
  match ← planResume sha256Hex serde caseId event now with
  | .error _ => return .ok none
  | .ok submission =>
    match ← submitOnce serde.toSerde sha256Hex submission now with
    | .error error => return .error ("submit-once failed: " ++ error.display)
    | .ok (.conflict _ _ _) => return .ok none
    | .ok (.created record) => linked submission.submissionId record
    | .ok (.replayed record) => linked submission.submissionId record
where
  linked (submissionId : String) (record : SubmissionRecord) :
      StoreProgram Value (Except String (Option String)) := do
    match ← linkSubmission serde caseId runId submissionId record now with
    | .error error => return .error ("case run could not be opened: " ++ error.display)
    | .ok _ =>
      let _ ← markApplied serde.toSerde submissionId now
      return .ok (some record.taskId)

end Resume

end UltimateCoders.Governance
