import UltimateCoders.Governance.RecordStore
import UltimateCoders.Governance.WorkCase

/-! # The case store and the attention board

Cases are changed by bounded compare-and-swap loops. The attention board says why
a case does not move on. An event that matched a subscription of a case wakes it:
the item on the board is resolved, and the case goes back to work.
-/

namespace UltimateCoders.Governance

open Transition

variable {Value : Type}

/-- Failure modes of the case store. -/
inductive CaseStoreError where
  | store (error : RecordError)
  | notFound (caseId : String)
  | transition (error : CaseTransitionError)
  | contended (caseId : String)
  deriving DecidableEq

def CaseStoreError.display : CaseStoreError → String
  | store error => "case store: " ++ error.display
  | notFound caseId => "case " ++ caseId ++ " not found"
  | transition error => "case transition rejected: " ++ error.display
  | contended caseId => "case " ++ caseId ++ " is contended; retry later"

/-- What the case store does to open a run: an open case becomes active first. -/
def WorkCase.linkRun (case : WorkCase) (runId taskId : String) (submissionId : Option String)
    (now : Instant) : Except CaseTransitionError WorkCase :=
  if case.status = .open then
    match case.transition .active now with
    | .error error => .error error
    | .ok active => active.openRun runId taskId submissionId now
  else case.openRun runId taskId submissionId now

def WorkCase.closeRun (case : WorkCase) (runId : String) (outcome : CaseRunOutcome)
    (detail : Option String) (now : Instant) : Except CaseTransitionError WorkCase :=
  match case.runs.find? fun run => run.runId = runId with
  | none => .error .unknownRun
  | some run => case.finishRun run.runId outcome detail now

namespace CaseStore

def view : NamespacedStore := ⟨caseNamespace⟩

variable (codec : Codec Value WorkCase)

def get (caseId : String) : StoreProgram Value (Except CaseStoreError (Option (WorkCase × Nat))) := do
  match ← view.get codec caseId with
  | .error error => return .error (.store error)
  | .ok found => return .ok found

/-- Create the case unless there is one under its id. -/
def createUnique (case : WorkCase) :
    StoreProgram Value (Except CaseStoreError (WorkCase × Bool)) := do
  let created := { case with version := 1 }
  match ← view.put codec created.id created (some 0) with
  | .ok _ => return .ok (created, false)
  | .error (.conflict _ _) =>
    match ← get codec created.id with
    | .error error => return .error error
    | .ok (some (existing, _)) => return .ok (existing, true)
    | .ok none => return .error (.store (.conflict 0 none))
  | .error other => return .error (.store other)

/-- Change a case under compare-and-swap, in at most sixteen tries. -/
def update (caseId : String) (mutate : WorkCase → Except CaseTransitionError WorkCase) :
    StoreProgram Value (Except CaseStoreError WorkCase) := do
  match ← view.modify codec caseId (fun case version =>
      match mutate case with
      | .error error => .error error
      | .ok changed => .ok ({ changed with version := version + 1 }, ())) 16 with
  | .absent => return .error (.notFound caseId)
  | .refused error => return .error (.transition error)
  | .written case _ => return .ok case
  | .contended => return .error (.contended caseId)
  | .failed error => return .error (.store error)

def transition (caseId : String) (status : CaseStatus) (now : Instant) :
    StoreProgram Value (Except CaseStoreError WorkCase) :=
  update codec caseId fun case => case.transition status now

def openRun (caseId runId taskId : String) (submissionId : Option String) (now : Instant) :
    StoreProgram Value (Except CaseStoreError WorkCase) :=
  update codec caseId fun case => case.linkRun runId taskId submissionId now

end CaseStore

def attentionNamespace : String := "attention"

inductive AttentionKind where
  | waitingEvent
  | needsHuman
  | blocked
  | verifying
  deriving DecidableEq

/-- How an attention item was resolved. -/
inductive AttentionResolution where
  | humanDecision (decider answer : String)
  | eventReceived (triggerId : String)
  | automatic (detail : String)
  | caseClosed (status : String)
  deriving DecidableEq

/-- One thing a case is waiting on. -/
structure AttentionItem where
  id : String
  caseId : String
  taskId : Option String
  kind : AttentionKind
  summary : String
  detail : Option String
  since : Instant
  priority : Nat
  humanAction : Option String
  resolvedAt : Option Instant
  resolution : Option AttentionResolution
  version : Nat
  deriving DecidableEq

def AttentionItem.isOpen (item : AttentionItem) : Bool := item.resolvedAt.isNone

def AttentionItem.resolve (item : AttentionItem) (resolution : AttentionResolution)
    (now : Instant) : AttentionItem :=
  if item.resolvedAt.isSome then item
  else { item with resolvedAt := some now, resolution := some resolution }

/-- Failure modes of the attention board. -/
inductive AttentionBoardError where
  | store (error : RecordError)
  | notFound (attentionId : String)
  | contended
  deriving DecidableEq

def AttentionBoardError.display : AttentionBoardError → String
  | store error => "attention board: " ++ error.display
  | notFound attentionId => "attention item " ++ attentionId ++ " not found"
  | contended => "attention board contention"

namespace AttentionBoard

def view : NamespacedStore := ⟨attentionNamespace⟩

variable (codec : Codec Value AttentionItem)

/-- Resolve an item; one that is resolved already stays as it is. -/
def resolve (attentionId : String) (resolution : AttentionResolution) (now : Instant) :
    StoreProgram Value (Except AttentionBoardError AttentionItem) := do
  match ← view.modify codec attentionId (fun item _ =>
      if item.isOpen then .ok (item.resolve resolution now, ()) else .error item) 8 with
  | .absent => return .error (.notFound attentionId)
  | .refused item => return .ok item
  | .written item _ => return .ok item
  | .contended => return .error .contended
  | .failed error => return .error (.store error)

/-- The last of the youngest items. -/
def latest : List AttentionItem → Option AttentionItem :=
  List.foldl (fun best item =>
    match best with
    | none => some item
    | some found => if found.since ≤ item.since then some item else some found) none

def openForCase (caseId : String) :
    StoreProgram Value (Except AttentionBoardError (Option AttentionItem)) := do
  match ← view.list codec 2000 with
  | .error error => return .error (.store error)
  | .ok items =>
    return .ok (latest ((items.map Prod.fst).filter fun item =>
      item.caseId = caseId && item.isOpen))

end AttentionBoard

/-- How cases and attention items are serialized. -/
structure CaseSerde (Value : Type) where
  case : Codec Value WorkCase
  attention : Codec Value AttentionItem

/-- One case that an event has woken. -/
structure CaseWake where
  caseId : String
  resolvedAttention : Option String
  deriving DecidableEq

section Wake

variable (serde : CaseSerde Value)

def openWaitingItem (caseId : String) :
    StoreProgram Value (Except AttentionBoardError (Option AttentionItem)) := do
  match ← AttentionBoard.openForCase serde.attention caseId with
  | .error error => return .error error
  | .ok none => return .ok none
  | .ok (some item) => return .ok (if item.kind = .waitingEvent then some item else none)

def resolveWaiting (caseId triggerId : String) (now : Instant) :
    StoreProgram Value (Except String (Option String)) := do
  match ← openWaitingItem serde caseId with
  | .error error => return .error ("attention read failed: " ++ error.display)
  | .ok none => return .ok none
  | .ok (some item) =>
    match ← AttentionBoard.resolve serde.attention item.id (.eventReceived triggerId) now with
    | .error error => return .error ("attention resolve failed: " ++ error.display)
    | .ok _ => return .ok (some item.id)

def wakeCase (caseId triggerId : String) (now : Instant) :
    StoreProgram Value (Except String (Option CaseWake)) := do
  match ← CaseStore.get serde.case caseId with
  | .error error => return .error ("case read failed: " ++ error.display)
  | .ok none => return .ok none
  | .ok (some (case, _)) =>
    if case.status.isTerminal || case.status ≠ .waitingEvent then return .ok none
    else
      match ← resolveWaiting serde caseId triggerId now with
      | .error detail => return .error detail
      | .ok resolvedAttention =>
        match ← CaseStore.transition serde.case caseId .active now with
        | .error error => return .error ("case transition failed: " ++ error.display)
        | .ok _ => return .ok (some ⟨caseId, resolvedAttention⟩)

/-- Wake every matched case that waits for an event; those that cannot be woken are skipped. -/
def wakeMatchedCases (triggerId : String) (now : Instant) : List String → List CaseWake →
    StoreProgram Value (List CaseWake)
  | [], woken => return woken
  | caseId :: rest, woken => do
      match ← wakeCase serde caseId triggerId now with
      | .ok (some wake) => wakeMatchedCases triggerId now rest (woken ++ [wake])
      | .ok none => wakeMatchedCases triggerId now rest woken
      | .error _ => wakeMatchedCases triggerId now rest woken

end Wake

end UltimateCoders.Governance
