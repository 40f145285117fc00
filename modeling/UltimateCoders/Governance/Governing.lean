import UltimateCoders.Governance.CaseLedger
import UltimateCoders.Governance.CaseWake
import UltimateCoders.Governance.GovernedWork
import UltimateCoders.Governance.Recovery

/-! # Governed work and the outbox

A submission is queued before a run of its case is opened. Dispatchers look at the
outbox only, so they claim what is due whether or not the run was opened. If every
listing of a dispatcher finds the due entry of a submission with its run linked,
the entry is claimed only after a call has opened the run.
-/

namespace UltimateCoders.Governance

open Transition Program RecordStore MandateStore List

universe u

variable {Index : Type u} {Value Document : Type}

/-! ## Calls on the governance stores -/

inductive CaseChange where
  | transition (status : CaseStatus) (now : Instant)
  | finishRun (runId : String) (outcome : CaseRunOutcome) (detail : Option String) (now : Instant)
  | setMandate (mandateId : Option String)
  | attachSubscription (subscriptionId : String)

def CaseChange.apply : CaseChange → WorkCase → Except CaseTransitionError WorkCase
  | transition status now, case => case.transition status now
  | finishRun runId outcome detail now, case => case.closeRun runId outcome detail now
  | setMandate mandateId, case => .ok { case with mandateId := mandateId }
  | attachSubscription subscriptionId, case => .ok (case.attachSubscription subscriptionId)

/-- A client of the governance stores. -/
inductive GovernedCall where
  | submitTask (request : SubmitTaskRequest) (runId : String) (transport : Option Transport)
      (now : Instant)
  | resume (caseId : String) (event : TriggerEvent) (runId : String) (now : Instant)
  | claim (now : Instant) (limit : Nat)
  | drain (transport : Transport) (now : Instant) (limit : Nat)
  | recoverOutbox (now : Instant)
  | recoverUnfinished (now : Instant) (limit : Nat)
  | issueMandate (mandate : Mandate)
  | createCase (caseId title description projectId : String) (origin : CaseOrigin) (now : Instant)
  | changeCase (caseId : String) (change : CaseChange)
  | openCaseRun (caseId runId taskId : String) (now : Instant)

inductive GovernedAnswer where
  | submitted (result : Except String SubmitTaskResponse)
  | resumed (result : Except String (Option String))
  | claimed (result : Except OutboxError (List OutboxEntry))
  | drained (result : OutboxDrain)
  | recovered (result : Except OutboxError Nat)
  | swept (result : Except SubmissionError SubmissionRecovery)
  | issued (result : Except MandateStoreError Unit)
  | created (result : Except CaseStoreError (WorkCase × Bool))
  | changed (result : Except CaseStoreError WorkCase)

/-- Clients of the governance stores, at some moment. -/
abbrev GovernedSession (Index : Type u) (Value : Type) :=
  Session Index (RecordStore Value) (StoreOperation Value) StoreOperation.Answer GovernedAnswer

/-- The instant at which a call looks for due entries, if it does. -/
def GovernedCall.claimsAt : GovernedCall → Option Instant
  | submitTask _ _ transport now => transport.map fun _ => now
  | claim now _ => some now
  | drain _ now _ => some now
  | _ => none

section Calls

variable (sha256Hex : String → String) (serde : GovernanceSerde Value)

def GovernedCall.program : GovernedCall → StoreProgram Value GovernedAnswer
  | submitTask request runId transport now => do
      return .submitted (← Governance.submitTask sha256Hex serde request runId transport now)
  | resume caseId event runId now => do
      return .resumed (← resumeOne sha256Hex serde caseId event runId now)
  | claim now limit => do return .claimed (← OutboxQueue.claimDue serde.outbox now limit)
  | drain transport now limit => do
      return .drained (← drainOutbox serde.toSerde transport now limit)
  | recoverOutbox now => do return .recovered (← OutboxQueue.recover serde.outbox now)
  | recoverUnfinished now limit => do
      return .swept (← SubmissionStore.recoverUnfinished serde.toSerde now limit)
  | issueMandate mandate => do return .issued (← putNew serde.mandate mandate)
  | createCase caseId title description projectId origin now => do
      return .created (← CaseStore.createUnique serde.case
        (.new caseId title description projectId origin now))
  | changeCase caseId change => do
      return .changed (← CaseStore.update serde.case caseId change.apply)
  | openCaseRun caseId runId taskId now => do
      return .changed (← CaseStore.openRun serde.case caseId runId taskId none now)

def GovernedCall.Submits (caseId submissionId : String) : GovernedCall → Prop
  | submitTask request _ _ _ =>
    givenText request.caseId = some caseId ∧ request.id sha256Hex = submissionId
  | resume resumed event _ _ =>
    resumed = caseId ∧ resumeSubmissionId sha256Hex caseId event = submissionId
  | _ => False

/-- Clients that find an empty store. -/
def governing (calls : Index → GovernedCall) : GovernedSession Index Value :=
  ⟨.empty, fun index => (calls index).program sha256Hex serde, []⟩

end Calls

/-! ## Refusals, claims and openings -/

/-- A document with this property is serialized. -/
def Codec.holds (codec : Codec Value Document) (test : Document → Bool) (value : Value) : Bool :=
  match codec.decode value with
  | .ok document => test document
  | .error _ => false

@[simp] theorem Codec.holds_encode (codec : Codec Value Document) (test : Document → Bool)
    (document : Document) : codec.holds test (codec.encode document) = test document := by
  simp only [Codec.holds, codec.decode_encode]

/-- What an accepted write has stored, and where. -/
def StoreOperation.stored : (operation : StoreOperation Value) → operation.Answer →
    Option (String × String × Value)
  | .put space key value _, .ok _ => some (space, key, value)
  | _, _ => none

/-- What an answered listing has found. -/
def StoreOperation.listed : (operation : StoreOperation Value) → operation.Answer →
    Option (String × List (Record Value))
  | .list space _, .ok records => some (space, records)
  | _, _ => none

/-- The event has stored a document with this property. -/
def StoreEvent.stores (event : StoreEvent Index Value) (space key : String) (test : Value → Bool) :
    Bool :=
  match event.operation.stored event.answer with
  | some (writtenSpace, writtenKey, value) =>
    writtenSpace = space && writtenKey = key && test value
  | none => false

def WorkCase.runsFor (case : WorkCase) (submissionId : String) : Bool :=
  case.runs.any fun run => run.submissionId = some submissionId

section Events

variable (serde : GovernanceSerde Value) (caseId submissionId : String)

/-- A dispatcher has claimed the entry of the submission. -/
def StoreEvent.claims (event : StoreEvent Index Value) : Bool :=
  StoreEvent.stores event outboxNamespace (outboxKey submissionId)
    (serde.outbox.holds fun entry => entry.state = .inFlight)

/-- A call has marked the submission failed. -/
def StoreEvent.refuses (event : StoreEvent Index Value) : Bool :=
  StoreEvent.stores event submissionNamespace submissionId
    (serde.submission.holds fun record => record.state = .failed)

/-- A client has stored the case with a run of the submission. -/
def StoreEvent.links (event : StoreEvent Index Value) : Bool :=
  StoreEvent.stores event caseNamespace caseId (serde.case.holds fun case => case.runsFor submissionId)

def linked (store : RecordStore Value) : Bool :=
  ((store.get caseNamespace caseId).map fun record =>
    serde.case.holds (fun case => case.runsFor submissionId) record.value).getD false

variable (calls : Index → GovernedCall)

/-- A dispatcher finds the entry of the submission due while the case has no run of it,
or the submission is marked failed after a run of it was opened. -/
def ungoverned (session : GovernedSession Index Value) (event : StoreEvent Index Value) : Bool :=
  (StoreEvent.refuses serde submissionId event &&
    session.log.any (StoreEvent.links serde caseId submissionId)) ||
  match (calls event.index).claimsAt, event.operation.listed event.answer with
  | some now, some (space, records) =>
    space = outboxNamespace && !linked serde caseId submissionId session.store &&
      records.any fun record => serde.outbox.holds (fun entry =>
        entry.key = outboxKey submissionId && entry.isDue (Instant.timestampMillis now))
        record.value
  | _, _ => false

variable (sha256Hex : String → String)

/-- The event after the log opens the run: a call that submits the submission links
it to the case, which had none of its runs before. -/
structure OpensRun (log : List (StoreEvent Index Value)) (event : StoreEvent Index Value) : Prop where
  submits : (calls event.index).Submits sha256Hex caseId submissionId
  unlinked : linked serde caseId submissionId (storeAfter .empty log) = false
  linked : linked serde caseId submissionId (storeAfter .empty (log ++ [event])) = true

end Events

/-! ## What the clients write -/

section Rule

variable (serde : GovernanceSerde Value) (sha256Hex : String → String)
  (calls : Index → GovernedCall)

/-- The client has listed an entry under the key that was due. -/
def FoundDue (index : Index) (key : String) (log : List (StoreEvent Index Value)) : Prop :=
  ∃ now limit records record entry, (calls index).claimsAt = some now ∧
    WasListed .empty index outboxNamespace limit records [] log ∧ record ∈ records ∧
    serde.outbox.decode record.value = .ok entry ∧
    entry.isDue (Instant.timestampMillis now) = true ∧ entry.key = key

/-- Records are stored under the id of their submission; entries are taken in flight
if they were listed as due; a case gets a run of a submission from a call that
submits it. -/
def governedRule : WriteRule Index Value := fun index store log space key value expected =>
  (space = submissionNamespace ∧
    ∃ changed, value = serde.submission.encode changed ∧ changed.submissionId = key) ∨
  (space = outboxNamespace ∧ ∃ changed, value = serde.outbox.encode changed ∧
    (changed.state = .inFlight → FoundDue serde calls index key log)) ∨
  (space = caseNamespace ∧ ∃ changed, value = serde.case.encode changed ∧
    (changed.runs = [] ∨ ∃ version, expected = some version ∧ version ≠ 0 ∧
      ∀ current, store.get space key = some current → current.version = version →
        ∃ case, serde.case.decode current.value = .ok case ∧ ∀ submissionId,
          changed.runsFor submissionId = true → case.runsFor submissionId = true ∨
            (calls index).Submits sha256Hex key submissionId)) ∨
  space = mandateNamespace

end Rule

variable {serde : GovernanceSerde Value} {sha256Hex : String → String} {calls : Index → GovernedCall}
  {index : Index} {log later : List (StoreEvent Index Value)} {caseId submissionId : String}

/-! ## The clients keep to it -/

variable {expected : Option Nat}

theorem governedRule_submission {key : String} {store : RecordStore Value}
    (record : SubmissionRecord) (sameId : record.submissionId = key) :
    governedRule serde sha256Hex calls index store log submissionNamespace key
      (serde.submission.encode record) expected :=
  .inl ⟨rfl, record, rfl, sameId⟩

theorem governedRule_outbox {key : String} {store : RecordStore Value} (entry : OutboxEntry)
    (settled : entry.state ≠ .inFlight) :
    governedRule serde sha256Hex calls index store log outboxNamespace key
      (serde.outbox.encode entry) expected :=
  .inr (.inl ⟨rfl, entry, rfl, fun inFlight => absurd inFlight settled⟩)

theorem submissionId_of_stored {stored : Record Value} {record : SubmissionRecord} {key : String}
    (proper : ProperLog (governedRule serde sha256Hex calls) .empty log)
    (found : (storeAfter .empty log).get submissionNamespace key = some stored)
    (decoded : serde.submission.decode stored.value = .ok record) : record.submissionId = key := by
  rcases origin_of_get proper log.nil_prefix found with
    initial | ⟨middle, event, expected, _, _, accepted, space, rfl⟩
  · cases initial
  · have ruled := accepted.ruled
    rw [space] at ruled
    rcases ruled with ⟨-, changed, value, sameId⟩ | ⟨elsewhere, -⟩ | ⟨elsewhere, -⟩ | elsewhere
    · rw [value, serde.submission.decode_encode, Except.ok.injEq] at decoded
      rw [← decoded, sameId]
    · exact absurd elsewhere (by decide)
    · exact absurd elsewhere (by decide)
    · exact absurd elsewhere (by decide)

theorem submissionId_of_read {stored : Record Value} {record : SubmissionRecord} {key : String}
    {since : List (StoreEvent Index Value)}
    (proper : ProperLog (governedRule serde sha256Hex calls) .empty log)
    (read : WasRead .empty index submissionNamespace key stored since log)
    (decoded : serde.submission.decode stored.value = .ok record) : record.submissionId = key := by
  obtain ⟨earlier, _, logged, found⟩ := read
  exact submissionId_of_stored (proper.of_prefix ((prefix_append _ _).trans logged)) found decoded

theorem heeds_mark (submissionId : String) (now : Instant)
    (mutate : SubmissionRecord → SubmissionRecord)
    (keeps : ∀ record, (mutate record).submissionId = record.submissionId) :
    Obeys (governedRule serde sha256Hex calls) .empty index
      (SubmissionStore.transition serde.toSerde submissionId now mutate) log := by
  apply heeds_transition
  intro later stored record _ proper read decoded
  apply governedRule_submission
  exact (keeps record).trans (submissionId_of_read proper read decoded)

theorem heeds_markPublished (submissionId : String) (now : Instant) :
    Obeys (governedRule serde sha256Hex calls) .empty index
      (SubmissionStore.markPublished serde.toSerde submissionId now) log := by
  apply heeds_mark
  intro record
  split <;> rfl

theorem heeds_markApplied (submissionId : String) (now : Instant) :
    Obeys (governedRule serde sha256Hex calls) .empty index
      (SubmissionStore.markApplied serde.toSerde submissionId now) log :=
  heeds_mark submissionId now _ fun _ => rfl

theorem heeds_markFailed (submissionId error : String) (now : Instant) :
    Obeys (governedRule serde sha256Hex calls) .empty index
      (SubmissionStore.markFailed serde.toSerde submissionId error now) log :=
  heeds_mark submissionId now _ fun _ => rfl

theorem heeds_changeCase (caseId : String) (mutate : WorkCase → Except CaseTransitionError WorkCase)
    (keeps : ∀ later case changed submissionId, log <+: later →
      ProperLog (governedRule serde sha256Hex calls) .empty later → mutate case = .ok changed →
      changed.runsFor submissionId = true → case.runsFor submissionId = true ∨
        (calls index).Submits sha256Hex caseId submissionId) :
    Obeys (governedRule serde sha256Hex calls) .empty index
      (CaseStore.update serde.case caseId mutate) log := by
  apply (heeds_caseUpdate serde.case caseId mutate ?_).weaken
  · exact fun _ _ _ _ _ => trivial
  · intro later record case changed since proper read decoded changes
    obtain ⟨earlier, _, logged, found⟩ := id read
    have before := proper.of_prefix ((prefix_append _ _).trans logged)
    have positive := version_ne_zero before (fun _ initial => by cases initial) found
    refine .inr (.inr (.inl ⟨rfl, _, rfl, .inr ⟨record.version, rfl, positive, ?_⟩⟩))
    intro current stored version
    rw [read.current_eq proper stored version]
    exact ⟨case, decoded, fun submissionId => keeps later case changed submissionId since proper
      changes⟩

theorem WorkCase.runs_of_transition {case changed : WorkCase} {status : CaseStatus} {now : Instant}
    (accepted : case.transition status now = .ok changed) : changed.runs = case.runs := by
  unfold WorkCase.transition at accepted
  split at accepted
  · cases accepted
    rfl
  · cases accepted

theorem WorkCase.runsFor_of_closeRun {case changed : WorkCase} {runId : String}
    {outcome : CaseRunOutcome} {detail : Option String} {now : Instant}
    (accepted : case.closeRun runId outcome detail now = .ok changed)
    (has : changed.runsFor submissionId = true) : case.runsFor submissionId = true := by
  unfold WorkCase.closeRun at accepted
  split at accepted
  · cases accepted
  · unfold WorkCase.finishRun at accepted
    dsimp only at accepted
    split at accepted
    · cases accepted
    · split at accepted
      · have runs := WorkCase.runs_of_transition accepted
        rw [WorkCase.runsFor, any_eq_true] at has ⊢
        obtain ⟨run, member, same⟩ := has
        rw [runs] at member
        obtain ⟨position, inside, rfl⟩ := mem_iff_getElem.mp member
        rw [length_modify] at inside
        refine ⟨case.runs[position], getElem_mem _, ?_⟩
        rw [getElem_modify] at same
        split at same
        · unfold CaseRun.finish at same
          split at same <;> exact same
        · exact same
      · cases accepted

theorem WorkCase.runsFor_of_openRun {case changed : WorkCase} {runId taskId : String}
    {given : Option String} {now : Instant}
    (accepted : case.openRun runId taskId given now = .ok changed)
    (has : changed.runsFor submissionId = true) :
    case.runsFor submissionId = true ∨ given = some submissionId := by
  unfold WorkCase.openRun at accepted
  split_ifs at accepted
  cases accepted
  obtain ⟨kept, isSuffix, runs⟩ := compactRuns_concat case.runs
    { CaseRun.open runId taskId case.nextAttempt now with submissionId := given }
    case.compactedRuns
  rw [WorkCase.runsFor, any_eq_true] at has ⊢
  obtain ⟨run, member, same⟩ := has
  rw [runs, mem_append, mem_singleton] at member
  rcases member with old | rfl
  · exact .inl ⟨run, isSuffix.subset old, same⟩
  · exact .inr (of_decide_eq_true same)

theorem WorkCase.runsFor_of_linkRun {case changed : WorkCase} {runId taskId : String}
    {given : Option String} {now : Instant}
    (accepted : case.linkRun runId taskId given now = .ok changed)
    (has : changed.runsFor submissionId = true) :
    case.runsFor submissionId = true ∨ given = some submissionId := by
  unfold WorkCase.linkRun at accepted
  split at accepted
  · split at accepted
    · cases accepted
    · rename_i active activated
      have runs := WorkCase.runs_of_transition activated
      rcases WorkCase.runsFor_of_openRun accepted has with old | new
      · rw [WorkCase.runsFor, runs] at old
        exact .inl old
      · exact .inr new
  · exact WorkCase.runsFor_of_openRun accepted has

theorem CaseChange.runsFor_of_apply {case changed : WorkCase} (change : CaseChange)
    (accepted : change.apply case = .ok changed) (has : changed.runsFor submissionId = true) :
    case.runsFor submissionId = true := by
  cases change with
  | transition status now =>
    rw [WorkCase.runsFor, WorkCase.runs_of_transition accepted] at has
    exact has
  | finishRun runId outcome detail now => exact WorkCase.runsFor_of_closeRun accepted has
  | setMandate mandateId =>
    cases accepted
    exact has
  | attachSubscription subscriptionId =>
    cases accepted
    unfold WorkCase.attachSubscription at has
    split at has <;> exact has

theorem heeds_governedClaim {now : Instant} (claims : (calls index).claimsAt = some now)
    (limit : Nat) :
    Upholds (governedRule serde sha256Hex calls) .empty index
      (OutboxQueue.claimDue serde.outbox now limit)
      (fun result later => ∀ entries, result = .ok entries →
        ∀ entry ∈ entries, WasClaimed serde.outbox index entry later) log := by
  apply heeds_claimDue
  intro later records record entry _ _ listed member decoded due
  obtain ⟨earlier, _, logged, same⟩ := listed
  refine .inr (.inl ⟨rfl, _, rfl, fun _ => ?_⟩)
  exact ⟨now, _, records, record, entry, claims, ⟨earlier, nil_prefix, logged, same⟩, member,
    decoded, due, rfl⟩

theorem heeds_confirmPublished (key : String) (now : Instant) :
    Obeys (governedRule serde sha256Hex calls) .empty index
      (confirmPublishedSubmission serde.toSerde key now) log := by
  unfold confirmPublishedSubmission
  cases submissionIdFromOutboxKey key with
  | none => exact .returned
  | some submissionId =>
    exact Heeds.ends (heeds_markPublished submissionId now) fun _ => ⟨_, rfl⟩

theorem OutboxEntry.scheduleRetry_settled (entry : OutboxEntry) (error : String) (now : Instant) :
    (entry.scheduleRetry error now).state ≠ .inFlight := by
  unfold OutboxEntry.scheduleRetry
  dsimp only
  split <;> exact nofun

theorem heeds_drainEach (transport : Transport) (now : Instant) (entries : List OutboxEntry)
    (summary : OutboxDrain) :
    Obeys (governedRule serde sha256Hex calls) .empty index
      (drainEach serde.toSerde transport now entries summary) log := by
  induction entries generalizing log summary with
  | nil => exact .returned
  | cons entry rest ih =>
    unfold drainEach
    cases transport entry with
    | none =>
      apply Heeds.seq (heeds_mutate entry.key _ ?_)
      · intro result reported _ _ _
        cases result with
        | error error => exact ih _
        | ok delivered =>
          apply Heeds.seq (heeds_confirmPublished entry.key now)
          exact fun _ _ _ _ _ => ih _
      · intro later record stored _ _ _ _
        exact governedRule_outbox _ nofun
    | some error =>
      apply Heeds.seq (heeds_mutate entry.key _ ?_)
      · exact fun _ _ _ _ _ => ih _
      · intro later record stored _ _ _ _
        exact governedRule_outbox _ (stored.scheduleRetry_settled error now)

theorem heeds_drainOutbox {now : Instant} (claims : (calls index).claimsAt = some now)
    (transport : Transport) (limit : Nat) :
    Obeys (governedRule serde sha256Hex calls) .empty index
      (drainOutbox serde.toSerde transport now limit) log := by
  apply Heeds.seq (heeds_governedClaim claims limit)
  intro result claimed _ _ _
  cases result with
  | error error => exact .returned
  | ok entries => exact heeds_drainEach transport now entries {}

theorem heeds_submitGoverned (request : SubmissionRequest) (now : Instant) :
    Upholds (governedRule serde sha256Hex calls) .empty index
      (SubmissionStore.submitOnce serde.toSerde sha256Hex request now)
      (fun result _ => ∀ record, (result = .ok (.created record) ∨ result = .ok (.replayed record)) →
        record.submissionId = request.submissionId) log := by
  apply (heeds_submitOnce request now ?_ ?_ ?_).weaken
  · intro result later _ proper answered record recorded
    rcases recorded with rfl | rfl
    · exact congrArg SubmissionRecord.submissionId answered
    · obtain ⟨stored, read, decoded⟩ := answered
      exact submissionId_of_read proper read decoded
  · exact fun later _ _ => governedRule_submission _ rfl
  · exact fun later _ _ _ => governedRule_outbox _ nofun
  · exact fun later stored existing _ _ _ _ _ =>
      governedRule_outbox _ nofun

theorem heeds_linkSubmission (runId : String) (record : SubmissionRecord) (now : Instant)
    (submits : (calls index).Submits sha256Hex caseId record.submissionId) :
    Obeys (governedRule serde sha256Hex calls) .empty index
      (linkSubmission serde caseId runId submissionId record now) log := by
  have looked : Obeys (governedRule serde sha256Hex calls) .empty index
    (alreadyLinked serde caseId record.taskId) log := by
    refine Heeds.ends (heeds_caseGet serde.case caseId) fun result => ?_
    rcases result with error | none | found <;> exact ⟨_, rfl⟩
  apply Heeds.seq looked
  intro already seen _ _ _
  cases already with
  | true => exact .returned
  | false =>
    apply Heeds.seq (heeds_changeCase caseId _ ?_)
    · intro result later _ _ _
      cases result with
      | ok case => exact .returned
      | error error =>
        exact Heeds.ends (heeds_markFailed submissionId _ now) fun _ => ⟨_, rfl⟩
    · intro later case changed other _ _ accepted has
      rcases WorkCase.runsFor_of_linkRun accepted has with old | new
      · exact .inl old
      · cases new
        exact .inr submits

theorem heeds_settleSubmission (record : SubmissionRecord) (dedupReplayed : Bool) (now : Instant) :
    Obeys (governedRule serde sha256Hex calls) .empty index
      (settleSubmission serde submissionId record dedupReplayed now) log := by
  apply Heeds.seq (heeds_isDelivered _)
  intro delivered looked _ _ _
  cases delivered with
  | true =>
    apply Heeds.seq (heeds_markPublished submissionId now)
    intro _ marked _ _ _
    exact Heeds.ends (heeds_markApplied submissionId now) fun _ => ⟨_, rfl⟩
  | false =>
    exact Heeds.ends (heeds_markApplied submissionId now) fun _ => ⟨_, rfl⟩

theorem heeds_finishSubmission {transport : Option Transport} {now : Instant}
    (claims : ∀ given, transport = some given → (calls index).claimsAt = some now)
    (record : SubmissionRecord) (dedupReplayed : Bool) :
    Obeys (governedRule serde sha256Hex calls) .empty index
      (finishSubmission serde transport submissionId record dedupReplayed now) log := by
  cases transport with
  | none => exact heeds_settleSubmission record dedupReplayed now
  | some given =>
    apply Heeds.seq (heeds_drainOutbox (claims given rfl) given outboxDrainLimit)
    exact fun _ _ _ _ _ => heeds_settleSubmission record dedupReplayed now

theorem heeds_submitTask {request : SubmitTaskRequest} {runId : String}
    {transport : Option Transport} {now : Instant}
    (call : calls index = .submitTask request runId transport now) :
    Obeys (governedRule serde sha256Hex calls) .empty index
      (submitTask sha256Hex serde request runId transport now) log := by
  have claims : ∀ given, transport = some given → (calls index).claimsAt = some now := by
    intro given same
    rw [call, same]
    rfl
  have linking : ∀ (record : SubmissionRecord) (dedupReplayed : Bool)
      (reached : List (StoreEvent Index Value)),
      record.submissionId = request.id sha256Hex →
      Obeys (governedRule serde sha256Hex calls) .empty index
        (submitTask.linked serde runId transport now (givenText request.caseId)
        (request.id sha256Hex) record dedupReplayed)
        reached := by
    intro record dedupReplayed reached sameId
    cases given : givenText request.caseId with
    | none => exact heeds_finishSubmission claims record dedupReplayed
    | some caseId =>
      have submits : (calls index).Submits sha256Hex caseId record.submissionId := by
        rw [call]
        exact ⟨given, sameId.symm⟩
      apply Heeds.seq (heeds_linkSubmission runId record now submits)
      intro result later _ _ _
      cases result with
      | error error => exact .returned
      | ok _ => exact heeds_finishSubmission claims record dedupReplayed
  have known : Obeys (governedRule serde sha256Hex calls) .empty index
    (caseKnown serde (givenText request.caseId)) log := by
    cases givenText request.caseId with
    | none => exact .returned
    | some caseId =>
      refine Heeds.ends (heeds_caseGet serde.case caseId) fun result => ?_
      cases result <;> exact ⟨_, rfl⟩
  unfold submitTask
  split
  · exact .returned
  · split
    · exact .returned
    · apply Heeds.seq known
      intro result looked _ _ _
      match result with
      | .error error => exact .returned
      | .ok false => exact .returned
      | .ok true =>
        apply Heeds.seq (heeds_submitGoverned (request.submission sha256Hex) now)
        intro outcome recorded _ _ post
        match outcome with
        | .error error => exact .returned
        | .ok (.conflict _ _ _) => exact .returned
        | .ok (.created record) =>
          exact linking record false recorded (post record (.inl rfl))
        | .ok (.replayed record) =>
          exact linking record true recorded (post record (.inr rfl))

theorem heeds_mandateGet (mandateId : String) :
    Obeys (governedRule serde sha256Hex calls) .empty index
      (get serde.mandate mandateId) log := by
  refine Heeds.ends (heeds_get view serde.mandate mandateId) fun result => ?_
  cases result <;> exact ⟨_, rfl⟩

theorem heeds_mandatePutNew (mandate : Mandate) :
    Obeys (governedRule serde sha256Hex calls) .empty index
      (putNew serde.mandate mandate) log := by
  apply Heeds.seq (heeds_put view serde.mandate ?_)
  · intro answer later _ _ _
    cases answer with
    | error error | ok record => exact .returned
  · exact fun _ _ _ => .inr (.inr (.inr rfl))

/-- What a resume submits is for its case, under the id of the event. -/
theorem heeds_planResume (caseId : String) (event : TriggerEvent) (now : Instant) :
    Upholds (governedRule serde sha256Hex calls) .empty index
      (planResume sha256Hex serde caseId event now)
      (fun result _ => ∀ submission, result = .ok submission →
        submission.submissionId = resumeSubmissionId sha256Hex caseId event) log := by
  have skipped : ∀ (skip : ResumeSkip) (reached : List (StoreEvent Index Value)),
      Upholds (governedRule serde sha256Hex calls) .empty index
        (done (.error skip) :
        StoreProgram Value (Except ResumeSkip SubmissionRequest))
        (fun result _ => ∀ submission, result = .ok submission →
          submission.submissionId = resumeSubmissionId sha256Hex caseId event) reached :=
    fun skip reached => .done fun _ _ _ _ => nofun
  apply Heeds.seq (heeds_caseGet serde.case caseId)
  intro result read _ _ _
  match result with
  | .error error => exact skipped _ read
  | .ok none => exact skipped _ read
  | .ok (some (case, version)) =>
    dsimp only
    split
    · exact skipped _ read
    · split
      · exact skipped _ read
      · cases case.activeRun with
        | some run => exact skipped _ read
        | none =>
          cases case.mandateId with
          | none => exact skipped _ read
          | some mandateId =>
            apply Heeds.seq (heeds_mandateGet mandateId)
            intro found looked _ _ _
            match found with
            | .error error => exact skipped _ looked
            | .ok none => exact skipped _ looked
            | .ok (some (mandate, _)) =>
              dsimp only
              split
              · exact skipped _ looked
              · split
                · exact skipped _ looked
                · split
                  · exact skipped _ looked
                  · apply Heeds.done
                    intro later _ _ submission same
                    rw [← Except.ok.inj same]

theorem heeds_resumeOne {caseId runId : String} {event : TriggerEvent} {now : Instant}
    (call : calls index = .resume caseId event runId now) :
    Obeys (governedRule serde sha256Hex calls) .empty index
      (resumeOne sha256Hex serde caseId event runId now) log := by
  have linking : ∀ (submissionId : String) (record : SubmissionRecord)
      (reached : List (StoreEvent Index Value)),
      record.submissionId = resumeSubmissionId sha256Hex caseId event →
      Obeys (governedRule serde sha256Hex calls) .empty index
        (resumeOne.linked serde caseId runId now submissionId record) reached := by
    intro submissionId record reached sameId
    have submits : (calls index).Submits sha256Hex caseId record.submissionId := by
      rw [call]
      exact ⟨rfl, sameId.symm⟩
    apply Heeds.seq (heeds_linkSubmission runId record now submits)
    intro result later _ _ _
    cases result with
    | error error => exact .returned
    | ok _ =>
      exact Heeds.ends (heeds_markApplied submissionId now) fun _ => ⟨_, rfl⟩
  apply Heeds.seq (heeds_planResume caseId event now)
  intro plan planned _ _ planPost
  cases plan with
  | error skip => exact .returned
  | ok submission =>
    apply Heeds.seq (heeds_submitGoverned submission now)
    intro outcome recorded _ _ post
    match outcome with
    | .error error => exact .returned
    | .ok (.conflict _ _ _) => exact .returned
    | .ok (.created record) =>
      exact linking _ record recorded ((post record (.inl rfl)).trans (planPost submission rfl))
    | .ok (.replayed record) =>
      exact linking _ record recorded ((post record (.inr rfl)).trans (planPost submission rfl))

/-- What a returned call has established: it has claimed what it returns. -/
def ClaimsGoverned (serde : GovernanceSerde Value) (index : Index) (answer : GovernedAnswer)
    (log : List (StoreEvent Index Value)) : Prop :=
  ∀ entries, answer = .claimed (.ok entries) →
    ∀ entry ∈ entries, WasClaimed serde.outbox index entry log

theorem heeds_governedCall (index : Index) :
    Upholds (governedRule serde sha256Hex calls) .empty index
      ((calls index).program sha256Hex serde) (ClaimsGoverned serde index)
      log := by
  cases call : calls index with
  | submitTask request runId transport now =>
    apply Heeds.seq (heeds_submitTask call)
    exact fun _ _ _ _ _ => .done fun _ _ _ _ => nofun
  | resume caseId event runId now =>
    apply Heeds.seq (heeds_resumeOne call)
    exact fun _ _ _ _ _ => .done fun _ _ _ _ => nofun
  | claim now limit =>
    have claims : (calls index).claimsAt = some now := by
      rw [call]
      rfl
    apply Heeds.seq (heeds_governedClaim claims limit)
    intro result claimed _ _ post
    apply Heeds.done
    intro later further _ entries same entry member
    cases same
    exact (post entries rfl entry member).mono further
  | drain transport now limit =>
    have claims : (calls index).claimsAt = some now := by
      rw [call]
      rfl
    apply Heeds.seq (heeds_drainOutbox claims transport limit)
    exact fun _ _ _ _ _ => .done fun _ _ _ _ => nofun
  | recoverOutbox now =>
    apply Heeds.seq (heeds_recover now ?_)
    · exact fun _ _ _ _ _ => .done fun _ _ _ _ => nofun
    · intro later records record entry queued _ _ _ _ _ requeued
      apply governedRule_outbox
      unfold OutboxEntry.recoverInFlight at requeued
      split at requeued
      · cases requeued
      · cases requeued
        exact nofun
  | recoverUnfinished now limit =>
    apply Heeds.seq (heeds_recoverUnfinished now limit ?_ ?_)
    · exact fun _ _ _ _ _ => .done fun _ _ _ _ => nofun
    · intro later stored current submissionId _ proper read decoded
      apply governedRule_submission
      rw [← submissionId_of_read proper read decoded]
      unfold SubmissionRecord.publishedOnce
      split <;> rfl
    · intro later records stored record _ _ _ _ _
      exact governedRule_outbox _ nofun
  | issueMandate mandate =>
    apply Heeds.seq (heeds_mandatePutNew mandate)
    exact fun _ _ _ _ _ => .done fun _ _ _ _ => nofun
  | createCase caseId title description projectId origin now =>
    apply Heeds.seq (heeds_createUnique serde.case _ ?_)
    · exact fun _ _ _ _ _ => .done fun _ _ _ _ => nofun
    · exact fun _ _ _ => .inr (.inr (.inl ⟨rfl, _, rfl, .inl rfl⟩))
  | changeCase caseId change =>
    apply Heeds.seq (heeds_changeCase caseId _ ?_)
    · exact fun _ _ _ _ _ => .done fun _ _ _ _ => nofun
    · exact fun _ _ _ _ _ _ accepted has => .inl (change.runsFor_of_apply accepted has)
  | openCaseRun caseId runId taskId now =>
    apply Heeds.seq (heeds_changeCase caseId _ ?_)
    · exact fun _ _ _ _ _ => .done fun _ _ _ _ => nofun
    · intro later case changed submissionId _ _ accepted has
      rcases WorkCase.runsFor_of_linkRun accepted has with old | impossible
      · exact .inl old
      · cases impossible

/-! ## Every run -/

/-- An accepted write has stored its document. -/
theorem Accepted.stores_iff {rule : WriteRule Index Value} {start : RecordStore Value}
    {event : StoreEvent Index Value} {record : Record Value}
    (accepted : Accepted rule start log event expected record) (space key : String)
    (test : Value → Bool) :
    StoreEvent.stores event space key test = true ↔
      record.space = space ∧ record.key = key ∧ test record.value = true := by
  rw [accepted.event_eq]
  simp [StoreEvent.stores, StoreOperation.stored, and_assoc]

theorem accepted_of_stores {rule : WriteRule Index Value} {start : RecordStore Value}
    {event : StoreEvent Index Value} {space key : String} {test : Value → Bool}
    (allowed : AllowsEvent rule start log event)
    (stores : StoreEvent.stores event space key test = true) :
    ∃ expected record, Accepted rule start log event expected record ∧ record.space = space ∧
      record.key = key ∧ test record.value = true := by
  rcases accepted_cases allowed with ⟨silent, -⟩ | ⟨expected, record, accepted, -, -⟩
  · exfalso
    obtain ⟨index, operation, answer⟩ := event
    cases operation with
    | get getSpace getKey | list listSpace limit | delete deleteSpace deleteKey => cases stores
    | put putSpace putKey value expected =>
      cases answer with
      | error error => cases stores
      | ok record => cases silent
  · exact ⟨expected, record, accepted, (accepted.stores_iff space key test).mp stores⟩

/-- A case that has a run of a submission got it from a call that submits it. -/
theorem opened_of_linked (proper : ProperLog (governedRule serde sha256Hex calls) .empty log)
    (has : linked serde caseId submissionId (storeAfter .empty log) = true) :
    ∃ before event, before ++ [event] <+: log ∧
      StoreEvent.links serde caseId submissionId event = true ∧
      OpensRun serde caseId submissionId calls sha256Hex before event := by
  revert has
  apply proper.induct
  · exact fun initial => by cases initial
  intro middle event _ allowed before has
  cases already : linked serde caseId submissionId (storeAfter .empty middle) with
  | true =>
    obtain ⟨first, opening, within, rest⟩ := before already
    exact ⟨first, opening, within.trans (prefix_append _ _), rest⟩
  | false =>
    rcases get_cases allowed caseNamespace caseId with
      same | ⟨expected, written, accepted, space, rfl, replaced⟩
    · rw [linked, same, ← linked, already] at has
      cases has
    · have stored := has
      rw [linked, replaced, Option.map_some, Option.getD_some] at stored
      have links := (accepted.stores_iff caseNamespace written.key _).mpr ⟨space, rfl, stored⟩
      refine ⟨middle, event, prefix_rfl, links, ?_, already, has⟩
      have ruled := accepted.ruled
      rw [space] at ruled
      rcases ruled with ⟨elsewhere, -⟩ | ⟨elsewhere, -⟩ | ⟨-, changed, value, changes⟩ | elsewhere
      · exact absurd elsewhere (by decide)
      · exact absurd elsewhere (by decide)
      · rw [value, Codec.holds_encode] at stored
        rcases changes with none | ⟨version, rfl, positive, changes⟩
        · rw [WorkCase.runsFor, none] at stored
          cases stored
        · cases current : (storeAfter .empty middle).get caseNamespace written.key with
          | none =>
            have agrees := accepted.agrees
            rw [space, current] at agrees
            simp only [casConflict, if_pos positive, reduceCtorEq] at agrees
          | some old =>
            have version := accepted.version_expected (by rw [space]; exact current)
            obtain ⟨case, decoded, keeps⟩ := changes old current version
            rcases keeps submissionId stored with kept | submits
            · rw [linked, current, Option.map_some, Option.getD_some, Codec.holds,
                decoded] at already
              exact absurd kept (Bool.eq_false_iff.mp already)
            · exact submits
      · exact absurd elsewhere (by decide)

section Runs

variable [DecidableEq Index] {target : GovernedSession Index Value}
  {moves : List (Index × Circumstance)} {earlier : List (StoreEvent Index Value)}
  {event : StoreEvent Index Value}

theorem accounted_of_governing
    (run : Run (serves execute) (governing sha256Hex serde calls) moves target) :
    target.Accounted recordService (writing (governedRule serde sha256Hex calls)) .empty
      (ClaimsGoverned serde) :=
  Session.accounted_of_run heeds_governedCall run

theorem guarded_of_event
    {fault : GovernedSession Index Value → StoreEvent Index Value → Bool}
    (run : Run (avoids execute fault) (governing sha256Hex serde calls) moves target)
    (within : earlier ++ [event] <+: target.log) :
    ∃ session : GovernedSession Index Value, session.log = earlier ∧
      session.store = storeAfter .empty earlier ∧ fault session event = false := by
  obtain ⟨before, move, after, first, reached, taken, rfl, there⟩ :=
    Session.step_of_event (fun _ _ _ step => step.1) run nil_prefix within
  have account := accounted_of_governing (reached.mono fun _ _ _ step => step.1)
  exact ⟨before, rfl, account.store_eq, taken.2 event there⟩

theorem linked_of_claim
    (run : Run (avoids execute (ungoverned serde caseId submissionId calls))
      (governing sha256Hex serde calls) moves target)
    (within : earlier ++ [event] <+: target.log)
    (claims : StoreEvent.claims serde submissionId event = true) :
    ∃ listed, listed <+: earlier ∧
      linked serde caseId submissionId (storeAfter .empty listed) = true := by
  have account := accounted_of_governing (run.mono fun _ _ _ step => step.1)
  obtain ⟨expected, record, accepted, space, key, inFlight⟩ :=
    accepted_of_stores (account.proper _ _ within) claims
  have ruled := accepted.ruled
  rw [space, key] at ruled
  rcases ruled with ⟨elsewhere, -⟩ | ⟨-, changed, value, found⟩ | ⟨elsewhere, -⟩ | elsewhere
  · exact absurd elsewhere (by decide)
  · rw [value, Codec.holds_encode] at inFlight
    obtain ⟨now, limit, records, due, entry, claimsAt, ⟨listed, -, logged, same⟩, member, decoded,
      isDue, entryKey⟩ := found (of_decide_eq_true inFlight)
    have before := (prefix_append earlier [event]).trans within
    refine ⟨listed, (prefix_append listed _).trans logged, ?_⟩
    obtain ⟨session, -, stored, governed⟩ := guarded_of_event run (logged.trans before)
    by_contra unlinked
    -- the listing has found the entry due without its run
    have dueFound : serde.outbox.holds (fun entry => entry.key = outboxKey submissionId &&
        entry.isDue (Instant.timestampMillis now)) due.value = true := by
      rw [Codec.holds, decoded]
      simp [entryKey, isDue]
    have fault : ungoverned serde caseId submissionId calls session
        ⟨event.index, .list outboxNamespace limit, .ok records⟩ = true := by
      unfold ungoverned
      rw [claimsAt, stored, Bool.eq_false_iff.mpr unlinked]
      simp only [StoreOperation.listed, decide_true, Bool.not_false, Bool.and_self, Bool.true_and,
        Bool.or_eq_true]
      exact .inr (any_eq_true.mpr ⟨due, member, dueFound⟩)
    exact Bool.false_ne_true (governed.symm.trans fault)
  · exact absurd elsewhere (by decide)
  · exact absurd elsewhere (by decide)

/-- In every run in which dispatchers find the due entry of a submission only with its
run linked, and the submission is not marked failed once its run was opened, the
entry is claimed only after a call that submits it has opened the run, and has
done so after every refusal. What a claim returns was claimed so. -/
theorem governed_of_run
    (run : Run (avoids execute (ungoverned serde caseId submissionId calls))
      (governing sha256Hex serde calls) moves target) :
    (∀ earlier event, earlier ++ [event] <+: target.log →
      StoreEvent.claims serde submissionId event = true →
      ∃ before opening, before ++ [opening] <+: earlier ∧
        OpensRun serde caseId submissionId calls sha256Hex before opening ∧
        ∀ first refusal, first ++ [refusal] <+: earlier →
          StoreEvent.refuses serde submissionId refusal = true → first ++ [refusal] <+: before) ∧
    ∀ index entries entry, target.calls index = .done (.claimed (.ok entries)) → entry ∈ entries →
      entry.key = outboxKey submissionId →
      ∃ event ∈ target.log, StoreEvent.claims serde submissionId event = true := by
  have account := accounted_of_governing (run.mono fun _ _ _ step => step.1)
  refine ⟨?_, ?_⟩
  · intro earlier event within claims
    have inside := (prefix_append earlier [event]).trans within
    obtain ⟨listed, since, has⟩ := linked_of_claim run within claims
    obtain ⟨before, opening, opened, links, opens⟩ :=
      opened_of_linked (account.proper.of_prefix (since.trans inside)) has
    refine ⟨before, opening, opened.trans since, opens, ?_⟩
    intro first refusal refused refuses
    rcases prefix_snoc_cases refused (opened.trans since) with sooner | later | ⟨-, same⟩
    · exact sooner
    · -- a submission that is marked failed has had no run so far
      obtain ⟨session, sameLog, -, governed⟩ := guarded_of_event run (refused.trans inside)
      have linkedBefore : session.log.any (StoreEvent.links serde caseId submissionId) = true := by
        rw [sameLog, any_eq_true]
        exact ⟨opening, later.subset (mem_append_right _ mem_cons_self), links⟩
      rw [ungoverned, refuses, linkedBefore] at governed
      cases governed
    · subst same
      obtain ⟨_, record, accepted, space, -, -⟩ :=
        accepted_of_stores (account.proper _ _ (refused.trans inside)) refuses
      have elsewhere := ((accepted.stores_iff _ _ _).mp links).1
      rw [space] at elsewhere
      exact absurd elsewhere (by decide)
  · intro index entries entry returned member sameKey
    obtain ⟨inFlight, expected, earlier, record, logged⟩ :=
      account.returned index _ returned entries rfl entry member
    refine ⟨_, logged.subset (mem_append_right _ mem_cons_self), ?_⟩
    simp [StoreEvent.claims, StoreEvent.stores, StoreOperation.stored, sameKey, inFlight]

end Runs

inductive GovernedDocument where
  | submission (record : SubmissionRecord)
  | outbox (entry : OutboxEntry)
  | case (case : WorkCase)
  | mandate (mandate : Mandate)

def plainGovernance : GovernanceSerde GovernedDocument where
  submission :=
    { encode := .submission
      decode
        | .submission record => .ok record
        | _ => .error "missing field `submission_id`"
      decode_encode := fun _ => rfl }
  outbox :=
    { encode := .outbox
      decode
        | .outbox entry => .ok entry
        | _ => .error "missing field `key`"
      decode_encode := fun _ => rfl }
  object := plainSerde.object
  case :=
    { encode := .case
      decode
        | .case case => .ok case
        | _ => .error "missing field `title`"
      decode_encode := fun _ => rfl }
  mandate :=
    { encode := .mandate
      decode
        | .mandate mandate => .ok mandate
        | _ => .error "missing field `grantor`"
      decode_encode := fun _ => rfl }

/-- Hash of the texts that arise for the request below. -/
def caseDigest (text : String) : String :=
  if text = "proj\x00fix it\x00case-1" then
    "424881ec61edf5b0376d46df9d41ac92988e5ec77997787491541613f27b8653"
  else sampleDigest text

def caseRequest : SubmitTaskRequest where
  principal := ⟨.user, "alice"⟩
  description := "fix it"
  projectId := "proj"
  caseId := some "case-1"
  submissionId := some "key-1"

/-- A task is submitted to a case without a mandate, and again with one; dispatchers
look for work. -/
def refusedThenGoverned : Nat → GovernedCall
  | 0 => .createCase "case-1" "fix the build" "it keeps failing" "proj" ⟨"github", none, none, none⟩ 0
  | 1 => .submitTask caseRequest "run-1" none 1
  | 2 => .changeCase "case-1" (.setMandate (some "mandate-1"))
  | 3 => .submitTask caseRequest "run-2" (some fun _ => none) 3
  | _ => .claim 4 10

def servedGoverned (indices : List Nat) : GovernedSession Nat GovernedDocument :=
  (indices.map served).foldl (Session.serve execute)
    (governing caseDigest plainGovernance refusedThenGoverned)

/-- The submission is refused a run, is submitted again, and that call looks for work. -/
def untilListed : List Nat := [0, 1, 1, 1, 1, 1, 1, 1, 2, 2, 3, 3, 3, 3, 3, 3, 3, 3, 3]

theorem governed_of_run_replayed :
    ∃ earlier event, earlier ++ [event] = (servedGoverned (untilListed ++ [3])).log ∧
      StoreEvent.claims plainGovernance "key-1" event = true ∧
      (∃ first refusal, first ++ [refusal] <+: earlier ∧
        StoreEvent.refuses plainGovernance "key-1" refusal = true) ∧
      ∃ before opening, before ++ [opening] <+: earlier ∧
        OpensRun plainGovernance "case-1" "key-1" refusedThenGoverned caseDigest before opening ∧
        ∀ first refusal, first ++ [refusal] <+: earlier →
          StoreEvent.refuses plainGovernance "key-1" refusal = true →
          first ++ [refusal] <+: before := by
  have run : Run (avoids execute
      (ungoverned plainGovernance "case-1" "key-1" refusedThenGoverned))
      (governing caseDigest plainGovernance refusedThenGoverned)
      ((untilListed ++ [3]).map served) (servedGoverned (untilListed ++ [3])) :=
    Session.run_avoids rfl
  exact ⟨(servedGoverned untilListed).log, _, rfl, rfl,
    ⟨(servedGoverned (untilListed.take 7)).log, _, ⟨_, rfl⟩, rfl⟩,
    (governed_of_run run).1 _ _ prefix_rfl rfl⟩

/-- A dispatcher claims the submission whose run was refused. -/
theorem governed_fails_refused :
    Run (serves execute) (governing caseDigest plainGovernance refusedThenGoverned)
        ([0, 1, 1, 1, 1, 1, 1, 1, 4, 4].map served) (servedGoverned [0, 1, 1, 1, 1, 1, 1, 1, 4, 4]) ∧
      refusedThenGoverned 1 = .submitTask caseRequest "run-1" none 1 ∧
      (servedGoverned [0, 1, 1, 1, 1, 1, 1, 1, 4, 4]).calls 1 = .done (.submitted (.ok {
        success := false
        taskId := "sub-fc3f8c8557fc998fc4f0061bd99dcd23"
        error := some ("case run could not be opened: case transition rejected: " ++
          "case has no mandate and may not execute")
        submissionId := some "key-1" })) ∧
      (servedGoverned [0, 1, 1, 1, 1, 1, 1, 1, 4, 4]).log.map
        (StoreEvent.refuses plainGovernance "key-1") =
        [false, false, false, false, false, false, false, true, false, false] ∧
      (∃ entry, (servedGoverned [0, 1, 1, 1, 1, 1, 1, 1, 4, 4]).calls 4 =
        .done (.claimed (.ok [entry])) ∧ entry.key = outboxKey "key-1") ∧
      (servedGoverned [0, 1, 1, 1, 1, 1, 1, 1, 4, 4]).log.all (fun event =>
        !StoreEvent.links plainGovernance "case-1" "key-1" event) = true :=
  ⟨run_serves _ _, rfl, rfl, rfl, ⟨_, rfl, rfl⟩, rfl⟩

end UltimateCoders.Governance
