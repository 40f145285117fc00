import UltimateCoders.Runtime.EffectLedger
import UltimateCoders.Transition.Program

/-! # Publishing the base branch

The arbiter publishes the merged base branch as one effect: it records the intent, marks the effect
as in flight, pushes, and reports what came of it. Where the outcome of a push is not known, the
remote is asked before anything is pushed again.
-/

namespace UltimateCoders.Arbiter

open UltimateCoders.Runtime Transition

/-- The hash of a commit; empty where there is none. -/
abbrev Commit := String

/-- The git commands of the arbiter. -/
inductive GitOperation where
  | fetchBase
  | checkoutBase
  /-- `checkout -b` from the tracking branch. -/
  | createBase
  /-- `reset --hard` to the tracking branch. -/
  | resetBase
  | fetchBranch (branch : String)
  | merge (branch : String)
  /-- The files with conflicts that are not resolved. -/
  | unmergedFiles
  | abortMerge
  /-- `_resolve_one_file`: whether the file was resolved, written and added. -/
  | resolveFile (path : String)
  | commit
  | push
  /-- `_head`. -/
  | head
  /-- `rev-parse` of the tracking branch. -/
  | trackingHead
  /-- `ls-remote` of the base branch. -/
  | lsRemote
  deriving DecidableEq

/-- What a command prints; a command that fails leaves its error output. -/
abbrev GitOperation.Answer : GitOperation → Type
  | unmergedFiles => Except String (List String)
  | resolveFile _ => Bool
  | head | trackingHead => Commit
  | lsRemote => Except String Commit
  | _ => Except String Unit

inductive ArbiterOperation where
  | git (operation : GitOperation)
  | get (effectId : String)
  | ledger (effectId : String) (request : EffectRequest)
  deriving DecidableEq

open ArbiterOperation

abbrev ArbiterOperation.Answer : ArbiterOperation → Type
  | git operation => operation.Answer
  | get _ => Option EffectRecord
  | ledger _ _ => Except EffectError EffectRecord

abbrev Ledger := String → Option EffectRecord

/-- The clock, and what the git commands print. -/
structure Environment where
  now : Seconds
  git : (operation : GitOperation) → operation.Answer

/-- Serve an operation; what git does is up to the environment. -/
def ArbiterOperation.execute (environment : Environment) :
    (operation : ArbiterOperation) → Ledger → operation.Answer × Ledger
  | .git operation, records => (environment.git operation, records)
  | .get effectId, records => (records effectId, records)
  | .ledger effectId request, records =>
    match EffectLedger.handle effectId request environment.now (records effectId) with
    | .ok record => (.ok record, Function.update records effectId (some record))
    | .error error => (.error error, records)

/-- A program of the arbiter; an illegal change of the ledger ends it. -/
abbrev ArbiterProgram (Result : Type) :=
  ExceptT EffectError (Program ArbiterOperation Answer) Result

def git (operation : GitOperation) : ArbiterProgram operation.Answer :=
  ExceptT.lift (@Program.perform _ Answer (.git operation))

def getEffect (effectId : String) : ArbiterProgram (Option EffectRecord) :=
  ExceptT.lift (@Program.perform _ Answer (.get effectId))

def ledger (effectId : String) (request : EffectRequest) : ArbiterProgram EffectRecord :=
  ExceptT.mk (@Program.perform _ Answer (.ledger effectId request))

inductive ArbitrationStatus where
  | merged
  | conflict
  | failed
  | skipped
  deriving DecidableEq

inductive PushStatus where
  | none
  | pushed
  | alreadyPushed
  | skipped
  | failed
  | busy
  | unknown
  deriving DecidableEq

structure ArbitrationResult where
  status : ArbitrationStatus := .skipped
  mergedBranches : List String := []
  conflictBranches : List String := []
  pushStatus : PushStatus := .none
  effectId : Option String := .none
  error : String := ""
  deriving DecidableEq

/-- `_AMBIGUOUS_PUSH_MARKERS`. -/
def ambiguousPushMarkers : List String :=
  ["could not resolve host", "failed to connect", "connection timed out", "connection reset",
    "connection refused", "network is unreachable", "unable to access", "early eof", "rpc failed",
    "tls", "ssl", "broken pipe"]

/-- A push that failed like this may still have been applied. -/
def ambiguousPushFailure (stderr : String) : Bool :=
  let lowered := stderr.toList.map Char.toLower
  ambiguousPushMarkers.any fun marker => decide (marker.toList <:+: lowered)

/-- The first 200 characters. -/
def shortened (text : String) : String := String.ofList (text.toList.take 200)

/-- What the remote says of a publication. -/
inductive Verdict where
  | applied
  | absent
  | inconclusive
  deriving DecidableEq

def arbiterName : String := "merge-arbiter"

def leaseSeconds : Seconds := 120

namespace MergeArbiter

/-- The second part of `_reconcile_push`: compare the head of the remote with the one that was to
be published, and settle the reconciliation. -/
def askRemote (effectId : String) : ArbiterProgram Verdict := do
  let expectedAfter ← git .head
  let expectedBefore ← git .trackingHead
  match ← git .lsRemote with
  | .error _ =>
    let _ ← ledger effectId (.markUnknown "reconcile could not reach the remote")
    return .inconclusive
  | .ok current =>
    if expectedAfter ≠ "" ∧ current = expectedAfter then
      let _ ← ledger effectId .confirm
      return .applied
    else if current = expectedBefore ∨ current = "" then
      let _ ← ledger effectId (.resolveReconcile false "remote does not have the commit")
      return .absent
    else
      let _ ← ledger effectId (.markUnknown "remote moved to an unexpected head")
      return .inconclusive

/-- `_reconcile_push`: ask the remote whether the publication has landed. -/
def reconcilePush (effectId : String) : ArbiterProgram Verdict := do
  let record ← getEffect effectId
  if record.map EffectRecord.status = some .prepared then
    -- the record is not read again, so the mark is followed by a reconciliation that cannot begin
    let _ ← ledger effectId (.markInFlight arbiterName leaseSeconds)
    let _ ← ledger effectId (.beginReconcile arbiterName)
    askRemote effectId
  else if record.map EffectRecord.status ≠ some .reconciling then
    let _ ← ledger effectId (.beginReconcile arbiterName)
    askRemote effectId
  else askRemote effectId

/-- Push under the ledger and report the outcome. -/
def pushPrepared (effectId : String) (result : ArbitrationResult) :
    ArbiterProgram ArbitrationResult := do
  let _ ← ledger effectId (.markInFlight arbiterName leaseSeconds)
  match ← git .push with
  | .ok () =>
    let _ ← ledger effectId .confirm
    return { result with
      status := .merged
      pushStatus := .pushed
      effectId := some effectId }
  | .error stderr =>
    let failed := { result with
      status := .failed
      error := "push failed: " ++ shortened stderr
      effectId := some effectId }
    if ambiguousPushFailure stderr then
      let _ ← ledger effectId (.markUnknown (shortened stderr))
      match ← reconcilePush effectId with
      | .applied =>
        return { failed with status := .merged, pushStatus := .alreadyPushed, error := "" }
      | .absent => return { failed with pushStatus := .failed }
      | .inconclusive => return { failed with pushStatus := .unknown }
    else
      let _ ← ledger effectId (.fail (shortened stderr))
      return { failed with pushStatus := .failed }

/-- The result where the publication has already happened. -/
def alreadyPushed (effectId : String) (result : ArbitrationResult) : ArbitrationResult :=
  { result with status := .merged, pushStatus := .alreadyPushed, effectId := some effectId }

/-- `_push_base_branch` with a ledger and the identity of the effect. -/
def publish (effectId : String) (result : ArbitrationResult) :
    ArbiterProgram ArbitrationResult := do
  let expectedAfter ← git .head
  match ← ExceptT.lift (ledger effectId (.prepare "push-main" expectedAfter)).run with
  | .error (.busy held owner leaseUntil) =>
    return { result with
      status := .failed
      pushStatus := .busy
      effectId := some effectId
      error := held ++ " is held by " ++ owner ++ " until " ++ toString leaseUntil }
  | .error error => throw error
  | .ok record =>
    match record.status with
    | .confirmed => return alreadyPushed effectId result
    | .unknown | .reconciling =>
      match ← reconcilePush effectId with
      | .applied => return alreadyPushed effectId result
      | .inconclusive =>
        return { result with
          status := .failed
          pushStatus := .unknown
          effectId := some effectId
          error := "push outcome unknown; awaiting reconciliation" }
      | .absent => pushPrepared effectId result
    | _ => pushPrepared effectId result

/-- `_push_base_branch` without a ledger. -/
def pushPlainly (result : ArbitrationResult) : ArbiterProgram ArbitrationResult := do
  match ← git .push with
  | .ok () => return { result with status := .merged, pushStatus := .pushed }
  | .error stderr =>
    return { result with
      status := .failed
      error := "push failed: " ++ shortened stderr
      pushStatus := .failed }

/-- `_push_base_branch`: without a head there is no identity, and the ledger is passed over. -/
def pushBaseBranch (hasLedger : Bool) (effectIdOf : Commit → String)
    (result : ArbitrationResult) : ArbiterProgram ArbitrationResult :=
  if hasLedger then do
    let head ← git .head
    if head = "" then pushPlainly result else publish (effectIdOf head) result
  else pushPlainly result

end MergeArbiter

end UltimateCoders.Arbiter
