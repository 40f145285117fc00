import UltimateCoders.Governance.Delivery
import UltimateCoders.Governance.SubmitOnce

/-! # Recovered submissions

A client may stop between the record of its submission and the entry that
publishes it. A replay of the submission or the sweep at the next start then
writes the entry, and the first one that is written stays. A replay knows the
request; the sweep knows what the record has kept of it.
-/

namespace UltimateCoders.Governance

open Transition SubmissionStore Program RecordStore List

universe u

variable {Index : Type u} {Value : Type}

def publicationFields (record : SubmissionRecord) (request : SubmissionRequest) :
    List (String × JsonValue) := [
  ("task_id", .string record.taskId),
  ("description", .string request.description),
  ("project_id", .string request.projectId),
  ("submission_id", .string record.submissionId),
  ("case_id", .ofOption record.caseId)]

/-- The fields that the sweep publishes. -/
def recoveryFields (record : SubmissionRecord) : List (String × JsonValue) := [
  ("task_id", .string record.taskId),
  ("project_id", .string record.projectId),
  ("submission_id", .string record.submissionId),
  ("case_id", .ofOption record.caseId),
  ("recovered", .bool true)]

/-- The entry that publishes these fields for a recorded submission. -/
def publication (serde : Serde Value) (record : SubmissionRecord)
    (fields : List (String × JsonValue)) (now : Instant) : OutboxEntry :=
  .new (outboxKey record.submissionId) outboxSubjectTaskSubmit (serde.object fields) now

/-- What the confirmation of a publication makes of a record. -/
def SubmissionRecord.publishedOnce (record : SubmissionRecord) (now : Instant) : SubmissionRecord :=
  let attempted := { record with publishAttempts := saturatingAdd32 record.publishAttempts 1 }
  if record.state = .received then { attempted with state := .published, publishedAt := some now }
  else attempted

section Programs

variable {serde : Serde Value} {sha256Hex : String → String} {rule : WriteRule Index Value}
  {start : RecordStore Value} {index : Index} {log : List (StoreEvent Index Value)}

theorem heeds_queuePublication (record : SubmissionRecord) (request : SubmissionRequest)
    (now : Instant)
    (permitted : ∀ later, log <+: later → ProperLog rule start later →
      rule index (storeAfter start later) later outboxNamespace (outboxKey record.submissionId)
        (serde.outbox.encode (publication serde record (publicationFields record request) now))
        (some 0)) :
    Obeys rule start index (queuePublication serde record request now) log := by
  refine Heeds.ends (heeds_enqueue _ permitted) fun result => ?_
  cases result <;> exact ⟨_, rfl⟩

/-- What the answer to a submission says about the record that was there. -/
def SubmitAnswered (serde : Serde Value) (sha256Hex : String → String) (start : RecordStore Value)
    (index : Index) (request : SubmissionRequest) (now : Instant)
    (since : List (StoreEvent Index Value)) :
    Except SubmissionError SubmitOnceOutcome → List (StoreEvent Index Value) → Prop
  | .ok (.created record), _ => record = .new sha256Hex request now
  | .ok (.replayed record), later => ∃ stored,
      WasRead start index submissionNamespace request.submissionId stored since later ∧
      serde.submission.decode stored.value = .ok record
  | .ok (.conflict _ _ _), later => ∃ stored record,
      WasRead start index submissionNamespace request.submissionId stored since later ∧
      serde.submission.decode stored.value = .ok record ∧
      record.requestDigest ≠ request.digest sha256Hex
  | .error _, _ => True

theorem heeds_submitOnce (request : SubmissionRequest) (now : Instant)
    (creates : ∀ later, log <+: later → ProperLog rule start later →
      rule index (storeAfter start later) later submissionNamespace request.submissionId
        (serde.submission.encode (.new sha256Hex request now)) (some 0))
    (queuesNew : ∀ later, log <+: later → ProperLog rule start later →
      WasWritten index submissionNamespace request.submissionId
        (serde.submission.encode (.new sha256Hex request now)) (some 0) later →
      rule index (storeAfter start later) later outboxNamespace (outboxKey request.submissionId)
        (serde.outbox.encode (publication serde (.new sha256Hex request now)
          (publicationFields (.new sha256Hex request now) request) now)) (some 0))
    (queuesOld : ∀ later stored existing, log <+: later → ProperLog rule start later →
      WasRead start index submissionNamespace request.submissionId stored log later →
      serde.submission.decode stored.value = .ok existing →
      existing.requestDigest = request.digest sha256Hex →
      rule index (storeAfter start later) later outboxNamespace (outboxKey existing.submissionId)
        (serde.outbox.encode (publication serde existing (publicationFields existing request) now))
        (some 0)) :
    Upholds rule start index (submitOnce serde sha256Hex request now)
      (SubmitAnswered serde sha256Hex start index request now log) log := by
  apply Heeds.seq (heeds_put view serde.submission creates)
  intro answer created since _ wasWritten
  cases answer with
  | ok record =>
    have written := wasWritten record rfl
    apply Heeds.seq (heeds_queuePublication _ request now ?_)
    · intro result queued _ _ _
      cases result with
      | error error => exact .done fun _ _ _ => trivial
      | ok entry => exact .done fun _ _ _ => rfl
    · exact fun later further proper =>
        queuesNew later (since.trans further) proper (written.mono further)
  | error error =>
    cases error with
    | conflict expected actual =>
      apply Heeds.seq (heeds_get view serde.submission _)
      intro result read readSince _ wasRead
      cases result with
      | error error => exact .done fun _ _ _ => trivial
      | ok found =>
        cases found with
        | none => exact .done fun _ _ _ => trivial
        | some found =>
          obtain ⟨existing, version⟩ := found
          obtain ⟨stored, seen, decoded, -⟩ := wasRead existing version rfl
          dsimp only
          split
          · rename_i different
            apply Heeds.done
            intro later further _
            exact ⟨stored, existing, (seen.since_mono since).mono further, decoded, different⟩
          · rename_i sameDigest
            apply Heeds.seq (heeds_queuePublication existing request now ?_)
            · intro result queued queuedSince _ _
              cases result with
              | error error => exact .done fun _ _ _ => trivial
              | ok entry =>
                apply Heeds.done
                intro later further _
                exact ⟨stored, (seen.since_mono since).mono (queuedSince.trans further), decoded⟩
            · intro later further proper
              exact queuesOld later stored existing
                ((since.trans readSince).trans further) proper
                ((seen.since_mono since).mono further) decoded (not_not.mp sameDigest)
    | _ => exact .done fun _ _ _ => trivial

theorem heeds_transition (submissionId : String) (now : Instant)
    (mutate : SubmissionRecord → SubmissionRecord)
    (permitted : ∀ later stored record, log <+: later → ProperLog rule start later →
      WasRead start index submissionNamespace submissionId stored log later →
      serde.submission.decode stored.value = .ok record →
      rule index (storeAfter start later) later submissionNamespace submissionId
        (serde.submission.encode
          { mutate record with updatedAt := now, version := stored.version + 1 })
        (some stored.version)) :
    Obeys rule start index (transition serde submissionId now mutate) log := by
  apply Heeds.ends (heeds_modify view serde.submission submissionId _ 8 ?_)
  · intro result
    cases result with
    | refused refusal => cases refusal
    | _ => exact ⟨_, rfl⟩
  · intro later stored record changed since proper read decoded same
    cases same
    exact permitted later stored record since proper read decoded

theorem heeds_isDelivered (key : String) :
    Obeys rule start index (isDelivered serde key) log := by
  refine Heeds.ends (heeds_outboxGet key) fun result => ?_
  rcases result with error | none | entry <;> exact ⟨_, rfl⟩

/-- The sweep confirms a listed record, or queues the publication of what it has kept. -/
theorem heeds_submissionRecoverEach (now : Instant) (records : List (SubmissionRecord × Nat))
    (summary : SubmissionRecovery)
    (marks : ∀ later record version stored current, log <+: later → ProperLog rule start later →
      (record, version) ∈ records →
      WasRead start index submissionNamespace record.submissionId stored log later →
      serde.submission.decode stored.value = .ok current →
      rule index (storeAfter start later) later submissionNamespace record.submissionId
        (serde.submission.encode { current.publishedOnce now with
          updatedAt := now, version := stored.version + 1 })
        (some stored.version))
    (queues : ∀ later record version, log <+: later → ProperLog rule start later →
      (record, version) ∈ records →
      rule index (storeAfter start later) later outboxNamespace (outboxKey record.submissionId)
        (serde.outbox.encode (publication serde record (recoveryFields record) now)) (some 0)) :
    Obeys rule start index (recoverEach serde now records summary) log := by
  induction records generalizing log summary with
  | nil => exact .returned
  | cons listed rest ih =>
    obtain ⟨record, version⟩ := listed
    have next : ∀ reached, log <+: reached → ∀ summary,
        Obeys rule start index (recoverEach serde now rest summary) reached := by
      intro reached since summary
      apply ih
      · intro later record version stored current further proper member read
        exact marks later record version stored current (since.trans further) proper
          (mem_cons_of_mem _ member) (read.since_mono since)
      · intro later record version further proper member
        exact queues later record version (since.trans further) proper (mem_cons_of_mem _ member)
    cases state : record.state with
    | applied | abandoned | failed =>
      simp only [recoverEach, state]
      exact next log prefix_rfl _
    | received | published =>
      unfold recoverEach
      rw [state]
      apply Heeds.seq (heeds_isDelivered _)
      intro delivered looked since _ _
      cases delivered with
      | true =>
        rw [if_pos rfl]
        split
        · exact next looked since _
        · apply Heeds.seq (heeds_transition record.submissionId now _ ?_)
          · intro result marked markedSince _ _
            cases result with
            | error error => exact .returned
            | ok changed => exact next marked (since.trans markedSince) _
          · intro later stored current further proper read
            exact marks later record version stored current (since.trans further) proper
              mem_cons_self (read.since_mono since)
      | false =>
        apply Heeds.seq (heeds_enqueue _ ?_)
        · intro result queued queuedSince _ _
          cases result with
          | error error | ok entry => exact next queued (since.trans queuedSince) _
        · exact fun later further proper =>
            queues later record version (since.trans further) proper mem_cons_self

theorem heeds_recoverUnfinished (now : Instant) (limit : Nat)
    (marks : ∀ later stored current submissionId, log <+: later → ProperLog rule start later →
      WasRead start index submissionNamespace submissionId stored log later →
      serde.submission.decode stored.value = .ok current →
      rule index (storeAfter start later) later submissionNamespace submissionId
        (serde.submission.encode { current.publishedOnce now with
          updatedAt := now, version := stored.version + 1 })
        (some stored.version))
    (queues : ∀ later records stored record, log <+: later → ProperLog rule start later →
      WasListed start index submissionNamespace limit records log later → stored ∈ records →
      serde.submission.decode stored.value = .ok record →
      rule index (storeAfter start later) later outboxNamespace (outboxKey record.submissionId)
        (serde.outbox.encode (publication serde record (recoveryFields record) now)) (some 0)) :
    Obeys rule start index (recoverUnfinished serde now limit) log := by
  apply Heeds.seq (heeds_list view serde.submission limit)
  intro result listed since _ wasListed
  cases result with
  | error error => exact .returned
  | ok records =>
    obtain ⟨stored, fromStore, decodedAll⟩ := wasListed records rfl
    apply heeds_submissionRecoverEach
    · intro later record version found current further proper _ read
      exact marks later found current _ (since.trans further) proper (read.since_mono since)
    · intro later record version further proper member
      obtain ⟨found, foundMem, decoded, -⟩ := NamespacedStore.mem_decodeAll decodedAll member
      exact queues later stored found record (since.trans further) proper
        (fromStore.mono further) foundMem decoded

end Programs

inductive SubmissionCall where
  | submit (request : SubmissionRequest) (now : Instant)
  | recover (now : Instant) (limit : Nat)

inductive SubmissionAnswer where
  | submitted (result : Except SubmissionError SubmitOnceOutcome)
  | recovered (result : Except SubmissionError SubmissionRecovery)

/-- The fields that a call publishes for a recorded submission. -/
def SubmissionCall.fields : SubmissionCall → SubmissionRecord → List (String × JsonValue)
  | submit request _, record => publicationFields record request
  | recover _ _, record => recoveryFields record

def SubmissionCall.Resubmits (request : SubmissionRequest) : SubmissionCall → Prop
  | submit own _ => own.projectId = request.projectId ∧ own.description = request.description
  | recover _ _ => False

/-- Calls on one submission store, at some moment. -/
abbrev SubmissionSession (Index : Type u) (Value : Type) :=
  Session Index (RecordStore Value) (StoreOperation Value) StoreOperation.Answer SubmissionAnswer

section Recovery

variable (serde : Serde Value) (sha256Hex : String → String) (calls : Index → SubmissionCall)

def SubmissionCall.program : SubmissionCall → StoreProgram Value SubmissionAnswer
  | submit request now => do
      return .submitted (← submitOnce serde sha256Hex request now)
  | recover now limit => do
      return .recovered (← recoverUnfinished serde now limit)

/-- Calls on one store that is empty at first. -/
def recovering : SubmissionSession Index Value :=
  ⟨.empty, fun index => (calls index).program serde sha256Hex, []⟩

/-- The record is the one of the request, whatever became of it since. -/
structure SubmissionRecord.IsFor (record : SubmissionRecord) (request : SubmissionRequest) :
    Prop where
  submissionId : record.submissionId = request.submissionId
  taskId : record.taskId = deriveTaskId sha256Hex request.submissionId
  projectId : record.projectId = request.projectId
  caseId : record.caseId = request.caseId

/-- The call has created the record of this request. -/
def CreatedBy (creator : Index) (request : SubmissionRequest)
    (log : List (StoreEvent Index Value)) : Prop :=
  ∃ now, calls creator = .submit request now ∧
    WasWritten creator submissionNamespace request.submissionId
      (serde.submission.encode (.new sha256Hex request now)) (some 0) log

structure Carries (fields : List (String × JsonValue)) (request : SubmissionRequest) : Prop where
  taskId : fields.lookup "task_id" = some (.string (deriveTaskId sha256Hex request.submissionId))
  projectId : fields.lookup "project_id" = some (.string request.projectId)
  caseId : fields.lookup "case_id" = some (.ofOption request.caseId)
  description : fields.lookup "description" = some (.string request.description)

/-- The write creates the record of its call's request, or changes a record and keeps
what it has of a request. -/
def WritesRecord (keeps : SubmissionRecord → SubmissionRequest → Prop) (index : Index)
    (store : RecordStore Value) (key : String) (value : Value) (expected : Option Nat) : Prop :=
  (expected = some 0 ∧ ∃ request now, calls index = .submit request now ∧
    key = request.submissionId ∧
    value = serde.submission.encode (.new sha256Hex request now)) ∨
  ∃ version, expected = some version ∧ version ≠ 0 ∧
    ∀ current, store.get submissionNamespace key = some current → current.version = version →
      ∃ record changed, serde.submission.decode current.value = .ok record ∧
        value = serde.submission.encode changed ∧
        ∀ request, keeps record request → keeps changed request

/-- A stored record has been created for a request of its id, and keeps what it is to keep of it. -/
def KeepsRequest (keeps : SubmissionRecord → SubmissionRequest → Prop)
    (log : List (StoreEvent Index Value)) (id : String) (stored : Record Value) : Prop :=
  ∃ creator request record, CreatedBy serde sha256Hex calls creator request log ∧
    request.submissionId = id ∧ serde.submission.decode stored.value = .ok record ∧
    keeps record request

/-- A record is created for the request of its call, and is changed without touching
what it is for. An entry publishes the fields of its call for a created record. -/
def recoveryRule : WriteRule Index Value := fun index store log space key value expected =>
  (space = submissionNamespace ∧ WritesRecord serde sha256Hex calls (·.IsFor sha256Hex ·) index
    store key value expected) ∨
  (space = outboxNamespace ∧ expected = some 0 ∧ ∃ creator request record now,
    CreatedBy serde sha256Hex calls creator request log ∧ record.IsFor sha256Hex request ∧
    key = outboxKey request.submissionId ∧
    value = serde.outbox.encode (publication serde record ((calls index).fields record) now))

end Recovery

variable {serde : Serde Value} {sha256Hex : String → String} {calls : Index → SubmissionCall}
  {index creator other : Index} {log later : List (StoreEvent Index Value)}
  {request : SubmissionRequest} {record : SubmissionRecord}

theorem CreatedBy.mono (created : CreatedBy serde sha256Hex calls creator request log)
    (isPrefix : log <+: later) : CreatedBy serde sha256Hex calls creator request later := by
  obtain ⟨now, call, written⟩ := created
  exact ⟨now, call, written.mono isPrefix⟩

theorem SubmissionRecord.IsFor.of_new (request : SubmissionRequest) (now : Instant) :
    (SubmissionRecord.new sha256Hex request now).IsFor sha256Hex request :=
  ⟨rfl, rfl, rfl, rfl⟩

variable {stored : Record Value}

/-- What records keep of the requests that they are created for, stored records have of the
request whose call has created them. -/
theorem kept_of_stored {rule : WriteRule Index Value}
    {keeps : SubmissionRecord → SubmissionRequest → Prop} {id : String}
    (keepsNew : ∀ request now, keeps (.new sha256Hex request now) request)
    (writes : ∀ index store log key value expected,
      rule index store log submissionNamespace key value expected →
        WritesRecord serde sha256Hex calls keeps index store key value expected)
    (proper : ProperLog rule .empty log)
    (found : (storeAfter .empty log).get submissionNamespace id = some stored) :
    KeepsRequest serde sha256Hex calls keeps log id stored := by
  suffices created : ∀ stored, (storeAfter .empty log).get submissionNamespace id = some stored →
      KeepsRequest serde sha256Hex calls keeps log id stored from created stored found
  refine proper.induct (motive := fun log => ∀ stored,
    (storeAfter .empty log).get submissionNamespace id = some stored →
      KeepsRequest serde sha256Hex calls keeps log id stored)
    (fun stored initial => by cases initial) ?_
  intro middle event _ allowed before stored found
  have further := prefix_append middle [event]
  rcases get_cases allowed submissionNamespace id with
    same | ⟨expected, written, accepted, space, rfl, replaced⟩
  · obtain ⟨creator, request, record, created, rest⟩ := before stored (same.symm.trans found)
    exact ⟨creator, request, record, created.mono further, rest⟩
  · rw [replaced, Option.some.injEq] at found
    subst found
    have ruled := accepted.ruled
    rw [space] at ruled
    rcases writes _ _ _ _ _ _ ruled with
      ⟨rfl, request, now, call, key, value⟩ | ⟨version, rfl, positive, changes⟩
    · refine ⟨event.index, request, _, ⟨now, call, middle, written, ?_⟩, key.symm, ?_,
        keepsNew request now⟩
      · rw [← key, ← value, ← space, ← accepted.event_eq]
      · rw [value, serde.submission.decode_encode]
    · cases current : (storeAfter .empty middle).get submissionNamespace written.key with
      | none =>
        have agrees := accepted.agrees
        rw [space, current] at agrees
        simp only [casConflict, if_pos positive, reduceCtorEq] at agrees
      | some replacedRecord =>
        have sameVersion := accepted.version_expected (by rw [space]; exact current)
        obtain ⟨record, changed, decoded, value, preserves⟩ :=
          changes replacedRecord current sameVersion
        obtain ⟨creator, request, other, created, key, otherDecoded, kept⟩ :=
          before replacedRecord current
        rw [decoded, Except.ok.injEq] at otherDecoded
        subst otherDecoded
        refine ⟨creator, request, changed, created.mono further, key, ?_, preserves request kept⟩
        rw [value, serde.submission.decode_encode]

theorem created_of_stored {id : String}
    (proper : ProperLog (recoveryRule serde sha256Hex calls) .empty log)
    (found : (storeAfter .empty log).get submissionNamespace id = some stored) :
    KeepsRequest serde sha256Hex calls (·.IsFor sha256Hex ·) log id stored := by
  refine kept_of_stored SubmissionRecord.IsFor.of_new ?_ proper found
  rintro index store log key value expected (⟨-, writes⟩ | ⟨impossible, -⟩)
  · exact writes
  · exact absurd impossible (by decide)

theorem created_of_read {id : String}
    (proper : ProperLog (recoveryRule serde sha256Hex calls) .empty later)
    (isPrefix : log <+: later)
    (found : (storeAfter .empty log).get submissionNamespace id = some stored)
    (decoded : serde.submission.decode stored.value = .ok record) :
    ∃ creator request, CreatedBy serde sha256Hex calls creator request later ∧
      record.IsFor sha256Hex request := by
  obtain ⟨creator, request, other, created, -, otherDecoded, isFor⟩ :=
    created_of_stored (proper.of_prefix isPrefix) found
  rw [decoded, Except.ok.injEq] at otherDecoded
  subst otherDecoded
  exact ⟨creator, request, created.mono isPrefix, isFor⟩

theorem recoveryRule_publication {key : String} {now : Instant}
    (created : CreatedBy serde sha256Hex calls creator request later)
    (isFor : record.IsFor sha256Hex request) (sameKey : key = outboxKey record.submissionId) :
    recoveryRule serde sha256Hex calls index (storeAfter .empty later) later outboxNamespace key
      (serde.outbox.encode (publication serde record ((calls index).fields record) now))
      (some 0) := by
  refine .inr ⟨rfl, rfl, creator, request, record, now, created, isFor, ?_, rfl⟩
  rw [sameKey, isFor.submissionId]

theorem SubmissionRecord.IsFor.publishedOnce (isFor : record.IsFor sha256Hex request)
    (now : Instant) (version : Nat) :
    { record.publishedOnce now with updatedAt := now, version := version }.IsFor sha256Hex
      request := by
  unfold SubmissionRecord.publishedOnce
  split <;> exact ⟨isFor.submissionId, isFor.taskId, isFor.projectId, isFor.caseId⟩

theorem heeds_submissionCall (index : Index) :
    Obeys (recoveryRule serde sha256Hex calls) .empty index
      ((calls index).program serde sha256Hex) log := by
  cases call : calls index with
  | submit request now =>
    have fields : ∀ record, publicationFields record request = (calls index).fields record := by
      intro record
      rw [call]
      rfl
    apply Heeds.ends (heeds_submitOnce request now ?_ ?_ ?_)
    · exact fun result => ⟨_, rfl⟩
    · exact fun later _ _ => .inl ⟨rfl, .inl ⟨rfl, request, now, call, rfl, rfl⟩⟩
    · intro later _ _ written
      rw [fields]
      exact recoveryRule_publication ⟨now, call, written⟩ (.of_new request now) rfl
    · intro later stored existing _ proper read decoded _
      obtain ⟨earlier, _, logged, found⟩ := read
      obtain ⟨creator, first, created, isFor⟩ :=
        created_of_read proper ((prefix_append _ _).trans logged) found decoded
      rw [fields]
      exact recoveryRule_publication created isFor rfl
  | recover now limit =>
    have fields : ∀ record, recoveryFields record = (calls index).fields record := by
      intro record
      rw [call]
      rfl
    apply Heeds.ends (heeds_recoverUnfinished now limit ?_ ?_)
    · exact fun result => ⟨_, rfl⟩
    · intro later stored current submissionId _ proper read decoded
      obtain ⟨earlier, _, logged, found⟩ := id read
      have before := proper.of_prefix ((prefix_append _ _).trans logged)
      have positive := version_ne_zero before (fun _ initial => by cases initial) found
      refine .inl ⟨rfl, .inr ⟨stored.version, rfl, positive, ?_⟩⟩
      intro present presentStored version
      rw [read.current_eq proper presentStored version]
      exact ⟨current, _, decoded, rfl, fun request isFor => isFor.publishedOnce now _⟩
    · intro later records stored record _ proper listed member decoded
      obtain ⟨earlier, _, logged, same⟩ := listed
      have found : (storeAfter .empty earlier).get submissionNamespace stored.key = some stored :=
        get_of_mem_list (same ▸ member)
      obtain ⟨creator, first, created, isFor⟩ :=
        created_of_read proper ((prefix_append _ _).trans logged) found decoded
      rw [fields]
      exact recoveryRule_publication created isFor rfl

theorem carries_fields_iff (isFor : record.IsFor sha256Hex request) (call : SubmissionCall) :
    Carries sha256Hex (call.fields record) request ↔ call.Resubmits request := by
  cases call with
  | submit own now =>
    have taskId : (publicationFields record own).lookup "task_id" =
        some (.string (deriveTaskId sha256Hex request.submissionId)) := by
      rw [← isFor.taskId]
      rfl
    have caseId : (publicationFields record own).lookup "case_id" =
        some (.ofOption request.caseId) := by
      rw [← isFor.caseId]
      rfl
    have projectId : (publicationFields record own).lookup "project_id" =
        some (.string own.projectId) := rfl
    have description : (publicationFields record own).lookup "description" =
        some (.string own.description) := rfl
    apply Iff.intro
    · intro carries
      exact ⟨by simpa using projectId.symm.trans carries.projectId,
        by simpa using description.symm.trans carries.description⟩
    · intro resubmits
      exact ⟨taskId, by rw [← resubmits.1]; exact projectId, caseId,
        by rw [← resubmits.2]; exact description⟩
  | recover now limit =>
    have missing : (recoveryFields record).lookup "description" = none := rfl
    apply Iff.intro
    · intro carries
      cases missing.symm.trans carries.description
    · exact False.elim

/-- In every run, the entry stored for a submission is the serialization of fields that
carry the work of the one request whose call has created the record, exactly if
the call that wrote the entry submits the same project and description. -/
theorem payload_of_run [DecidableEq Index] {target : SubmissionSession Index Value}
    {moves : List (Index × Circumstance)} {stored : Record Value} {entry : OutboxEntry} {id : String}
    (run : Run (serves execute) (recovering serde sha256Hex calls) moves target)
    (found : target.store.get outboxNamespace (outboxKey id) = some stored)
    (decoded : serde.outbox.decode stored.value = .ok entry) :
    ∃ creator request, CreatedBy serde sha256Hex calls creator request target.log ∧
      request.submissionId = id ∧
      (∀ other otherRequest, CreatedBy serde sha256Hex calls other otherRequest target.log →
        otherRequest.submissionId = id → other = creator) ∧
      ∃ writer fields,
        WasWritten writer outboxNamespace (outboxKey id) stored.value (some 0) target.log ∧
        entry.payload = serde.object fields ∧
        (Carries sha256Hex fields request ↔ (calls writer).Resubmits request) := by
  have account := Session.accounted_of_run heeds_submissionCall run
  have same : target.store = storeAfter .empty target.log := account.store_eq
  rw [same] at found
  rcases origin_of_get account.proper target.log.nil_prefix found with
    initial | ⟨middle, event, expected, -, within, accepted, space, key⟩
  · cases initial
  · have ruled := accepted.ruled
    rw [space, key] at ruled
    rcases ruled with ⟨impossible, -⟩ |
      ⟨-, rfl, creator, request, record, now, created, isFor, sameKey, value⟩
    · exact absurd impossible (by decide)
    · have sameId : request.submissionId = id :=
        (String.append_right_inj _).mp sameKey.symm
      have createdNow := created.mono ((prefix_append middle [event]).trans within)
      refine ⟨creator, request, createdNow, sameId, ?_, event.index, (calls event.index).fields record,
        ⟨middle, stored, ?_⟩, ?_, carries_fields_iff isFor (calls event.index)⟩
      · intro other otherRequest otherCreated otherId
        obtain ⟨createdAt, -, written⟩ := createdNow
        obtain ⟨otherAt, -, otherWritten⟩ := otherCreated
        rw [sameId] at written
        rw [otherId] at otherWritten
        exact (otherWritten.created_once account.proper (fun _ initial => by cases initial)
          written).1
      · rw [← space, ← key, ← accepted.event_eq]
        exact within
      · rw [value, serde.outbox.decode_encode, Except.ok.injEq] at decoded
        rw [← decoded]
        rfl

/-- A client stops after it has recorded its submission; a second one submits the
same request, and a sweep runs. -/
def interrupted : Nat → SubmissionCall
  | 0 => .submit sampleRequest 0
  | 1 => .submit sampleRequest 1
  | _ => .recover 2 100

def replayed : SubmissionSession Nat (SubmissionRecord ⊕ OutboxEntry) :=
  ([0, 1, 1, 1].map served).foldl (Session.serve execute)
    (recovering plainSerde sampleDigest interrupted)

theorem payload_of_run_replayed :
    ∃ stored entry, replayed.store.get outboxNamespace (outboxKey "key-1") = some stored ∧
      plainSerde.outbox.decode stored.value = .ok entry ∧
      ∃ creator request,
        CreatedBy plainSerde sampleDigest interrupted creator request replayed.log ∧
        request.submissionId = "key-1" ∧
        (∀ other otherRequest,
          CreatedBy plainSerde sampleDigest interrupted other otherRequest replayed.log →
          otherRequest.submissionId = "key-1" → other = creator) ∧
        ∃ writer fields,
          WasWritten writer outboxNamespace (outboxKey "key-1") stored.value (some 0) replayed.log ∧
          entry.payload = plainSerde.object fields ∧
          (Carries sampleDigest fields request ↔ (interrupted writer).Resubmits request) :=
  ⟨_, _, rfl, rfl, payload_of_run (run_serves _ _) rfl rfl⟩

theorem name_infix_object {fields : List (String × JsonValue)} {name : String} {value : JsonValue}
    (carried : fields.lookup name = some value) :
    ("\"" ++ name ++ "\":").toList <:+: (plainSerde.object fields).toList := by
  obtain ⟨before, after, rfl, -⟩ := lookup_eq_some_iff.mp carried
  simp only [plainSerde, String.toList_append, String.toList_intercalate]
  apply IsInfix.trans _ ((suffix_append _ _).isInfix.trans (prefix_append _ _).isInfix)
  refine IsInfix.trans ?_ (Text.infix_intercalate (mem_map_of_mem (mem_map_of_mem
    (mem_append_right before mem_cons_self))))
  simp only [String.toList_append]
  exact (prefix_append _ _).isInfix

/-- The sweep has queued the interrupted submission. -/
def swept : SubmissionSession Nat (SubmissionRecord ⊕ OutboxEntry) :=
  ([0, 2, 2, 2].map served).foldl (Session.serve execute)
    (recovering plainSerde sampleDigest interrupted)

/-- The sweep publishes the interrupted submission without its description. -/
theorem payload_fails_swept :
    Run (serves execute) (recovering plainSerde sampleDigest interrupted)
      ([0, 2, 2, 2].map served) swept ∧
    CreatedBy plainSerde sampleDigest interrupted 0 sampleRequest swept.log ∧
    ∃ stored entry, swept.store.get outboxNamespace (outboxKey "key-1") = some stored ∧
      plainSerde.outbox.decode stored.value = .ok entry ∧
      entry.payload = "\x7b\"task_id\":\"sub-fc3f8c8557fc998fc4f0061bd99dcd23\"," ++
        "\"project_id\":\"proj\",\"submission_id\":\"key-1\",\"case_id\":null," ++
        "\"recovered\":true\x7d" ∧
      ¬ ∃ fields, entry.payload = plainSerde.object fields ∧
        Carries sampleDigest fields sampleRequest := by
  refine ⟨run_serves _ _, ⟨0, rfl, [], _, _, rfl⟩, _, _, rfl, rfl, by decide, ?_⟩
  rintro ⟨fields, same, carries⟩
  have shown := name_infix_object carries.description
  rw [← same] at shown
  exact absurd shown (by decide +kernel)

end UltimateCoders.Governance
