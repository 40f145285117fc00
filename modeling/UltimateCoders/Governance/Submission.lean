import Mathlib.Data.List.DropRight
import UltimateCoders.Governance.Outbox
import UltimateCoders.Text.Split

/-! # Submissions

A client submits a task under a stable id. The record of the submission is
created by one compare-and-swap write, and its publication is queued by a second
one in another namespace. The digest is a parameter, as is the serialization of
documents.
-/

namespace UltimateCoders.Governance

open Transition

def submissionNamespace : String := "submission"

/-- Lifecycle of a submission record. -/
inductive SubmissionState where
  | received
  | published
  | applied
  | failed
  | abandoned
  deriving DecidableEq

/-- A request to create exactly one logical task. -/
structure SubmissionRequest where
  submissionId : String
  principal : Principal
  projectId : String
  description : String
  caseId : Option String
  deriving DecidableEq

structure SubmissionRecord where
  submissionId : String
  taskId : String
  state : SubmissionState
  principal : Principal
  projectId : String
  requestDigest : String
  caseId : Option String
  outboxKey : Option String
  publishAttempts : Nat
  createdAt : Instant
  updatedAt : Instant
  publishedAt : Option Instant
  appliedAt : Option Instant
  lastError : Option String
  version : Nat
  deriving DecidableEq

inductive SubmitOnceOutcome where
  | created (record : SubmissionRecord)
  | replayed (record : SubmissionRecord)
  | conflict (submissionId existingDigest requestedDigest : String)
  deriving DecidableEq

/-- Failure modes of the submission store. -/
inductive SubmissionError where
  | store (error : RecordError)
  | outbox (detail : String)
  deriving DecidableEq

def replaceCrLf : List Char → List Char
  | '\r' :: '\n' :: rest => '\n' :: replaceCrLf rest
  | char :: rest => char :: replaceCrLf rest
  | [] => []

/-- Line endings collapse, trailing white space and outer blank lines go. -/
def normalizeRequest (description : String) : String :=
  let unified := (replaceCrLf description.toList).map fun char => if char = '\r' then '\n' else char
  let trimmedLines := (unified.splitOn '\n').map fun line => line.rdropWhile Text.isWhitespace
  let joined := List.intercalate ['\n'] trimmedLines
  String.ofList ((joined.dropWhile (· == '\n')).rdropWhile (· == '\n'))

section Digest

variable (sha256Hex : String → String)

def SubmissionRequest.digest (request : SubmissionRequest) : String :=
  let material := request.projectId ++ "\x00" ++ normalizeRequest request.description
  sha256Hex (match request.caseId with
    | some caseId => material ++ "\x00" ++ caseId
    | none => material)

def deriveTaskId (submissionId : String) : String :=
  "sub-" ++ String.ofList ((sha256Hex ("task:" ++ submissionId)).toList.take 32)

def SubmissionRecord.new (request : SubmissionRequest) (now : Instant) : SubmissionRecord where
  submissionId := request.submissionId
  taskId := deriveTaskId sha256Hex request.submissionId
  state := .received
  principal := request.principal
  projectId := request.projectId
  requestDigest := request.digest sha256Hex
  caseId := request.caseId
  outboxKey := none
  publishAttempts := 0
  createdAt := now
  updatedAt := now
  publishedAt := none
  appliedAt := none
  lastError := none
  version := 0

end Digest

def outboxKey (submissionId : String) : String := "task-submit:" ++ submissionId

/-- Transport subject of submission publications. -/
def outboxSubjectTaskSubmit : String := "uc.task.submit"

inductive JsonValue where
  | null
  | bool (value : Bool)
  | string (text : String)
  deriving DecidableEq

def JsonValue.ofOption : Option String → JsonValue
  | some text => string text
  | none => null

/-- How documents and published objects are serialized. -/
structure Serde (Value : Type) where
  submission : Codec Value SubmissionRecord
  outbox : Codec Value OutboxEntry
  object : List (String × JsonValue) → String

namespace SubmissionStore

def view : NamespacedStore := ⟨submissionNamespace⟩

variable {Value : Type} (serde : Serde Value) (sha256Hex : String → String)

def queuePublication (record : SubmissionRecord) (request : SubmissionRequest) (now : Instant) :
    StoreProgram Value (Except SubmissionError Unit) := do
  let payload := [
    ("task_id", JsonValue.string record.taskId),
    ("description", .string request.description),
    ("project_id", .string request.projectId),
    ("submission_id", .string record.submissionId),
    ("case_id", .ofOption record.caseId)]
  let entry := OutboxEntry.new (outboxKey record.submissionId) outboxSubjectTaskSubmit
    (serde.object payload) now
  match ← OutboxQueue.enqueue serde.outbox entry with
  | .error error => return .error (.outbox error.display)
  | .ok _ => return .ok ()

/-- Record a submission exactly once and queue its publication. -/
def submitOnce (request : SubmissionRequest) (now : Instant) :
    StoreProgram Value (Except SubmissionError SubmitOnceOutcome) := do
  let key := request.submissionId
  let record := SubmissionRecord.new sha256Hex request now
  match ← view.put serde.submission key record (some 0) with
  | .ok _ =>
    match ← queuePublication serde record request now with
    | .error error => return .error error
    | .ok _ => return .ok (.created record)
  | .error (.conflict _ _) =>
    match ← view.get serde.submission key with
    | .error error => return .error (.store error)
    | .ok none => return .error (.store (.conflict 0 none))
    | .ok (some (existing, _)) =>
      let requestedDigest := request.digest sha256Hex
      if existing.requestDigest ≠ requestedDigest then
        return .ok (.conflict existing.submissionId existing.requestDigest requestedDigest)
      match ← queuePublication serde existing request now with
      | .error error => return .error error
      | .ok _ => return .ok (.replayed existing)
  | .error other => return .error (.store other)

/-- Change a record under compare-and-swap, in at most eight tries. -/
def transition (submissionId : String) (now : Instant)
    (mutate : SubmissionRecord → SubmissionRecord) :
    StoreProgram Value (Except SubmissionError (Option SubmissionRecord)) := do
  match ← view.modify serde.submission submissionId (fun record version =>
      .ok ({ mutate record with updatedAt := now, version := version + 1 }, ())) 8 with
  | .absent => return .ok none
  | .refused refusal => nomatch (refusal : Empty)
  | .written record _ => return .ok (some record)
  | .contended => return .error (.store (.conflict 0 none))
  | .failed error => return .error (.store error)

/-- The transport has accepted the publication. -/
def markPublished (submissionId : String) (now : Instant) :
    StoreProgram Value (Except SubmissionError (Option SubmissionRecord)) :=
  transition serde submissionId now fun record =>
    let attempted := { record with publishAttempts := saturatingAdd32 record.publishAttempts 1 }
    if record.state = .received then { attempted with state := .published, publishedAt := some now }
    else attempted

/-- The consumer has created the orchestration. -/
def markApplied (submissionId : String) (now : Instant) :
    StoreProgram Value (Except SubmissionError (Option SubmissionRecord)) :=
  transition serde submissionId now fun record =>
    { record with state := .applied, appliedAt := some now }

def markFailed (submissionId error : String) (now : Instant) :
    StoreProgram Value (Except SubmissionError (Option SubmissionRecord)) :=
  transition serde submissionId now fun record =>
    { record with state := .failed, lastError := some error }

/-- Whether the publication of a submission is known to be delivered. -/
def isDelivered (key : String) : StoreProgram Value Bool := do
  match ← OutboxQueue.get serde.outbox key with
  | .ok (some entry) => return entry.state = .delivered
  | .ok none => return false
  | .error _ => return false

end SubmissionStore

/-- What a startup sweep has done. -/
structure SubmissionRecovery where
  requeued : Nat := 0
  confirmed : Nat := 0
  alreadyApplied : Nat := 0
  alreadyPublished : Nat := 0
  failed : Nat := 0
  taskIds : List String := []
  deriving DecidableEq

namespace SubmissionStore

variable {Value : Type} (serde : Serde Value)

def recoverEach (now : Instant) : List (SubmissionRecord × Nat) → SubmissionRecovery →
    StoreProgram Value (Except SubmissionError SubmissionRecovery)
  | [], summary => return .ok summary
  | (record, _) :: rest, summary => do
      match record.state with
      | .applied | .abandoned =>
        recoverEach now rest { summary with alreadyApplied := summary.alreadyApplied + 1 }
      | .failed => recoverEach now rest { summary with failed := summary.failed + 1 }
      | .received | .published =>
        let key := outboxKey record.submissionId
        let touched := { summary with taskIds := summary.taskIds ++ [record.taskId] }
        if ← isDelivered serde key then
          if record.state = .published then
            recoverEach now rest { touched with alreadyPublished := summary.alreadyPublished + 1 }
          else
            match ← markPublished serde record.submissionId now with
            | .error error => return .error error
            | .ok _ => recoverEach now rest { touched with confirmed := summary.confirmed + 1 }
        else
          let payload := [
            ("task_id", JsonValue.string record.taskId),
            ("project_id", .string record.projectId),
            ("submission_id", .string record.submissionId),
            ("case_id", .ofOption record.caseId),
            ("recovered", .bool true)]
          let entry := OutboxEntry.new key outboxSubjectTaskSubmit (serde.object payload) now
          match ← OutboxQueue.enqueue serde.outbox entry with
          | .ok _ => recoverEach now rest { touched with requeued := summary.requeued + 1 }
          | .error _ => recoverEach now rest summary

/-- Startup sweep over the submissions whose publication was never confirmed. -/
def recoverUnfinished (now : Instant) (limit : Nat) :
    StoreProgram Value (Except SubmissionError SubmissionRecovery) := do
  match ← view.list serde.submission limit with
  | .error error => return .error (.store error)
  | .ok records => recoverEach serde now records {}

end SubmissionStore

end UltimateCoders.Governance
