import UltimateCoders.Runtime.Outbox

/-! # The ledger of effects

An effect is one operation on the outside world, whatever the number of attempts at it. Its record
tells whether it is known to have happened, known not to have happened, or neither. Every operation
reads and rewrites the record in one transaction, and an exception leaves the record alone.
-/

namespace UltimateCoders.Runtime

inductive EffectStatus where
  | prepared
  | inFlight
  | confirmed
  | failed
  | unknown
  | reconciling
  deriving DecidableEq

/-- `TRANSITIONS`. -/
def EffectStatus.transitions : EffectStatus → List EffectStatus
  | prepared => [inFlight, failed, unknown]
  | inFlight => [confirmed, failed, unknown]
  | unknown => [reconciling, confirmed, prepared]
  | reconciling => [confirmed, prepared, unknown]
  | failed => [prepared]
  | confirmed => []

structure EffectRecord where
  effectId : String
  kind : String
  status : EffectStatus
  expectedAfter : String
  attempts : Nat := 0
  createdAt : Seconds
  updatedAt : Seconds
  owner : String := ""
  leaseUntil : Seconds := 0
  reason : String := ""
  error : String := ""
  deriving DecidableEq

open EffectRecord

/-- The exceptions of the ledger: the lease of another worker, and the illegal changes. -/
inductive EffectError where
  | busy (effectId owner : String) (leaseUntil : Seconds)
  | noRecord (effectId : String)
  | notAllowed (effectId : String) (status : EffectStatus) (expected : List EffectStatus)
  | cannotConfirm (effectId : String) (status : EffectStatus)
  | illegal (effectId : String) (source target : EffectStatus)
  deriving DecidableEq

/-- The identity of one operation, the same for all attempts at it. -/
def stableEffectId (sha1Hex : String → String) (kind : String) (parts : List String) : String :=
  "eff_" ++ String.ofList ((sha1Hex ("\x1f".intercalate (kind :: parts))).toList.take 24)

namespace EffectRecord

/-- `_moved`: `fields` is the record with what the caller sets beside the state. -/
def moved (old : EffectRecord) (target : EffectStatus) (now : Seconds) (fields : EffectRecord) :
    Except EffectError EffectRecord :=
  if target ∈ old.status.transitions then
    .ok { fields with status := target, updatedAt := now }
  else .error (.illegal old.effectId old.status target)

/-- `_require`. -/
def require (old : Option EffectRecord) (effectId : String) (allowed : List EffectStatus) :
    Except EffectError EffectRecord :=
  match old with
  | none => .error (.noRecord effectId)
  | some old =>
    if allowed ≠ [] ∧ old.status ∉ allowed then
      .error (.notAllowed effectId old.status allowed)
    else .ok old

end EffectRecord

/-- The operations that change a record. -/
inductive EffectRequest where
  | prepare (kind expectedAfter : String)
  | markInFlight (owner : String) (leaseSeconds : Seconds)
  | confirm
  | fail (error : String)
  | markUnknown (reason : String)
  | beginReconcile (owner : String)
  | resolveReconcile (applied : Bool) (reason : String)
  deriving DecidableEq

namespace EffectLedger

open EffectRecord

/-- Record the intent, or say what the record of this effect is. -/
def prepare (effectId kind expectedAfter : String) (now : Seconds) :
    Option EffectRecord → Except EffectError EffectRecord
  | none => .ok
      { effectId := effectId
        kind := kind
        status := .prepared
        expectedAfter := expectedAfter
        createdAt := now
        updatedAt := now }
  | some old =>
    match old.status with
    | .confirmed => .ok old
    | .inFlight =>
      if now < old.leaseUntil then .error (.busy effectId old.owner old.leaseUntil)
      else old.moved .unknown now { old with reason := "lease expired" }
    | .unknown | .reconciling => .ok old
    | .failed => old.moved .prepared now { old with reason := "retry after definite failure" }
    | .prepared => .ok old

def markInFlight (effectId owner : String) (leaseSeconds now : Seconds)
    (stored : Option EffectRecord) : Except EffectError EffectRecord := do
  let old ← require stored effectId [.prepared]
  old.moved .inFlight now
    { old with owner := owner, leaseUntil := now + leaseSeconds, attempts := old.attempts + 1 }

def confirm (effectId : String) (now : Seconds) (stored : Option EffectRecord) :
    Except EffectError EffectRecord := do
  let old ← require stored effectId []
  if old.status = .confirmed then
    .ok old
  else if old.status ∉ [.inFlight, .unknown, .reconciling] then
    .error (.cannotConfirm effectId old.status)
  else old.moved .confirmed now { old with owner := "", leaseUntil := 0 }

/-- The effect has definitely not been applied. -/
def fail (effectId error : String) (now : Seconds) (stored : Option EffectRecord) :
    Except EffectError EffectRecord := do
  let old ← require stored effectId []
  old.moved .failed now { old with owner := "", leaseUntil := 0, error := error }

def markUnknown (effectId reason : String) (now : Seconds) (stored : Option EffectRecord) :
    Except EffectError EffectRecord := do
  let old ← require stored effectId []
  old.moved .unknown now { old with owner := "", leaseUntil := 0, reason := reason }

def beginReconcile (effectId owner : String) (now : Seconds) (stored : Option EffectRecord) :
    Except EffectError EffectRecord := do
  let old ← require stored effectId [.unknown]
  old.moved .reconciling now { old with owner := owner, reason := "" }

/-- Settle a reconciliation: applied, or free to be tried again. -/
def resolveReconcile (effectId : String) (applied : Bool) (reason : String) (now : Seconds)
    (stored : Option EffectRecord) : Except EffectError EffectRecord := do
  let old ← require stored effectId [.reconciling]
  if applied then old.moved .confirmed now { old with owner := "", reason := reason }
  else old.moved .prepared now { old with owner := "", reason := reason }

/-- What a request makes of the record of its effect. -/
def handle (effectId : String) (request : EffectRequest) (now : Seconds) :
    Option EffectRecord → Except EffectError EffectRecord :=
  match request with
  | .prepare kind expectedAfter => prepare effectId kind expectedAfter now
  | .markInFlight owner leaseSeconds => markInFlight effectId owner leaseSeconds now
  | .confirm => confirm effectId now
  | .fail error => fail effectId error now
  | .markUnknown reason => markUnknown effectId reason now
  | .beginReconcile owner => beginReconcile effectId owner now
  | .resolveReconcile applied reason => resolveReconcile effectId applied reason now

end EffectLedger

section Status

variable {effectId : String} {now : Seconds} {stored : Option EffectRecord}
  {old after fields : EffectRecord} {target : EffectStatus}

theorem EffectRecord.moved_ok (moves : old.moved target now fields = .ok after) :
    target ∈ old.status.transitions ∧ after.status = target := by
  unfold moved at moves
  split at moves
  · rename_i legal
    cases moves
    exact ⟨legal, rfl⟩
  · cases moves

theorem EffectRecord.require_ok {allowed : List EffectStatus}
    (required : require stored effectId allowed = .ok old) :
    stored = some old ∧ (allowed = [] ∨ old.status ∈ allowed) := by
  cases stored with
  | none => cases required
  | some found =>
    simp only [require] at required
    split at required
    · cases required
    · rename_i allows
      cases required
      exact ⟨rfl, by tauto⟩

theorem Except.bind_ok {Error Value Result : Type} {first : Except Error Value}
    {next : Value → Except Error Result} {result : Result} (ok : first >>= next = .ok result) :
    ∃ value, first = .ok value ∧ next value = .ok result := by
  cases first with
  | error error => cases ok
  | ok value => exact ⟨value, rfl, ok⟩

/-- The states from which a request is served, and the state it leads to. -/
def EffectRequest.Leads (request : EffectRequest) (source : Option EffectStatus)
    (target : EffectStatus) : Prop :=
  match request with
  | .prepare _ _ =>
    (source = none ∨ source = some .failed) ∧ target = .prepared ∨
      source = some .inFlight ∧ target = .unknown ∨
        source = some target ∧ target ≠ .inFlight ∧ target ≠ .failed
  | .markInFlight _ _ => source = some .prepared ∧ target = .inFlight
  | .confirm => target = .confirmed ∧
      source ∈ [some .confirmed, some .inFlight, some .unknown, some .reconciling]
  | .fail _ => target = .failed ∧ source ∈ [some .prepared, some .inFlight]
  | .markUnknown _ => target = .unknown ∧
      source ∈ [some .prepared, some .inFlight, some .reconciling]
  | .beginReconcile _ => source = some .unknown ∧ target = .reconciling
  | .resolveReconcile applied _ => source = some .reconciling ∧
      target = if applied then .confirmed else .prepared

theorem EffectRequest.Leads.of_confirmed {request : EffectRequest} {target : EffectStatus}
    (leads : request.Leads (some .confirmed) target) : target = .confirmed := by
  cases request <;> simp_all [EffectRequest.Leads]

/-- A request that is served leads from one state to another as it should. -/
theorem EffectLedger.handle_leads {request : EffectRequest}
    (served : handle effectId request now stored = .ok after) :
    request.Leads (stored.map status) after.status := by
  cases request with
  | prepare kind expectedAfter =>
    cases stored with
    | none =>
      cases served
      exact .inl ⟨.inl rfl, rfl⟩
    | some old =>
      simp only [handle, prepare] at served
      simp only [EffectRequest.Leads, Option.map_some]
      cases status : old.status with
      | confirmed | unknown | reconciling | prepared =>
        simp only [status, Except.ok.injEq] at served
        simp [← served, status]
      | failed =>
        simp only [status] at served
        simp [(moved_ok served).2]
      | inFlight =>
        simp only [status] at served
        split at served
        · cases served
        · simp [(moved_ok served).2]
  | markInFlight owner leaseSeconds | beginReconcile owner =>
    obtain ⟨old, required, moves⟩ := Except.bind_ok served
    obtain ⟨rfl, allowed⟩ := require_ok required
    simpa [EffectRequest.Leads, (moved_ok moves).2] using allowed
  | confirm =>
    obtain ⟨old, required, moves⟩ := Except.bind_ok served
    obtain ⟨rfl, -⟩ := require_ok required
    simp only [EffectRequest.Leads, Option.map_some]
    split at moves
    · rename_i already
      cases moves
      simp [already]
    · split at moves
      · cases moves
      · rename_i possible
        rw [(moved_ok moves).2]
        revert possible
        cases old.status <;> simp
  | fail error | markUnknown reason =>
    obtain ⟨old, required, moves⟩ := Except.bind_ok served
    obtain ⟨rfl, -⟩ := require_ok required
    obtain ⟨legal, became⟩ := moved_ok moves
    refine ⟨became, ?_⟩
    revert legal
    rw [Option.map_some]
    cases old.status <;> simp [EffectStatus.transitions]
  | resolveReconcile applied reason =>
    obtain ⟨old, required, moves⟩ := Except.bind_ok served
    obtain ⟨rfl, allowed⟩ := require_ok required
    refine ⟨by simpa using allowed, ?_⟩
    cases applied with
    | true | false => exact (moved_ok moves).2

theorem EffectLedger.prepare_of_lease (kind expectedAfter : String)
    (running : old.status = .inFlight) (leased : now < old.leaseUntil) :
    prepare effectId kind expectedAfter now (some old) =
      .error (.busy effectId old.owner old.leaseUntil) := by
  simp only [prepare, running, if_pos leased]

end Status

end UltimateCoders.Runtime
