import UltimateCoders.Governance.GovernedWork
import UltimateCoders.Governance.Recovery

/-! # Terminal submissions

Several actors write the state of a submission: the call that submits it, the reports of its
application or failure, the sweep at the next start and the outbox that has delivered its
publication. A report is written over whatever record is read, so a late one replaces even a
state that was final. What the submission is about is never written again.
-/

namespace UltimateCoders.Governance

open Transition RecordStore Program

universe u

variable {Index : Type u} {Value : Type}

def SubmissionState.isTerminal : SubmissionState → Bool
  | applied | failed | abandoned => true
  | _ => false

/-- An actor that writes records of submissions. -/
inductive SubmissionActor where
  | submitOnce (request : SubmissionRequest) (now : Instant)
  | markApplied (submissionId : String) (now : Instant)
  | markFailed (submissionId error : String) (now : Instant)
  | recoverUnfinished (now : Instant) (limit : Nat)
  | confirmPublishedSubmission (key : String) (now : Instant)
  | drainOutbox (transport : Transport) (now : Instant) (limit : Nat)

section Actors

variable (serde : Serde Value) (sha256Hex : String → String)

def SubmissionActor.program : SubmissionActor → StoreProgram Value Unit
  | submitOnce request now => do
      let _ ← SubmissionStore.submitOnce serde sha256Hex request now
      return ()
  | markApplied submissionId now => do
      let _ ← SubmissionStore.markApplied serde submissionId now
      return ()
  | markFailed submissionId error now => do
      let _ ← SubmissionStore.markFailed serde submissionId error now
      return ()
  | recoverUnfinished now limit => do
      let _ ← SubmissionStore.recoverUnfinished serde now limit
      return ()
  | confirmPublishedSubmission key now => Governance.confirmPublishedSubmission serde key now
  | drainOutbox transport now limit => do
      let _ ← Governance.drainOutbox serde transport now limit
      return ()

abbrev ReportSession (Index : Type u) (Value : Type) :=
  Session Index (RecordStore Value) (StoreOperation Value) StoreOperation.Answer Unit

def reporting (actors : Index → SubmissionActor) (start : RecordStore Value) :
    ReportSession Index Value :=
  ⟨start, fun index => (actors index).program serde sha256Hex, []⟩

end Actors

inductive SubmissionReport where
  | published (now : Instant)
  | applied (now : Instant)
  | failed (error : String) (now : Instant)

def SubmissionReport.apply : SubmissionReport → SubmissionRecord → SubmissionRecord
  | published now, record => record.publishedOnce now
  | applied now, record => { record with state := .applied, appliedAt := some now }
  | failed error _, record => { record with state := .failed, lastError := some error }

/-- The state that a report writes, whatever it was before. -/
def SubmissionActor.writes : SubmissionActor → Option SubmissionState
  | markApplied _ _ => some .applied
  | markFailed _ _ _ => some .failed
  | _ => none

def SubmissionActor.Makes : SubmissionActor → SubmissionReport → Prop
  | submitOnce _ _, _ => False
  | markApplied _ now, report => report = .applied now
  | markFailed _ error now, report => report = .failed error now
  | recoverUnfinished now _, report => report = .published now
  | confirmPublishedSubmission _ now, report => report = .published now
  | drainOutbox _ now _, report => report = .published now

structure SubmissionRecord.Keeps (before after : SubmissionRecord) : Prop where
  taskId : after.taskId = before.taskId
  requestDigest : after.requestDigest = before.requestDigest
  state : before.state.isTerminal → after.state = before.state

theorem SubmissionRecord.Keeps.refl (record : SubmissionRecord) : record.Keeps record :=
  ⟨rfl, rfl, fun _ => rfl⟩

theorem SubmissionRecord.Keeps.trans {first second third : SubmissionRecord}
    (left : first.Keeps second) (right : second.Keeps third) : first.Keeps third := by
  refine ⟨right.taskId.trans left.taskId, right.requestDigest.trans left.requestDigest,
    fun terminal => ?_⟩
  have stays := left.state terminal
  exact (right.state (stays ▸ terminal)).trans stays

theorem SubmissionRecord.keeps_publishedOnce (record : SubmissionRecord) (now : Instant) :
    record.Keeps (record.publishedOnce now) := by
  unfold publishedOnce
  split
  · rename_i received
    exact ⟨rfl, rfl, fun terminal => by simp [received, SubmissionState.isTerminal] at terminal⟩
  · exact ⟨rfl, rfl, fun _ => rfl⟩

theorem SubmissionActor.writes_of_makes {actor : SubmissionActor} :
    (∀ now, actor.Makes (.applied now) → actor.writes = some .applied) ∧
      ∀ error now, actor.Makes (.failed error now) → actor.writes = some .failed := by
  cases actor <;> simp [Makes, writes]

theorem SubmissionReport.keeps_apply {actor : SubmissionActor} {report : SubmissionReport}
    {record : SubmissionRecord} (makes : actor.Makes report)
    (agrees : record.state.isTerminal → ∀ state, actor.writes = some state → state = record.state) :
    record.Keeps (report.apply record) := by
  obtain ⟨applied, failed⟩ := actor.writes_of_makes
  cases report with
  | published now => exact record.keeps_publishedOnce now
  | applied now => exact ⟨rfl, rfl, fun terminal => agrees terminal _ (applied now makes)⟩
  | failed error now => exact ⟨rfl, rfl, fun terminal => agrees terminal _ (failed error now makes)⟩

section Rule

variable (serde : Serde Value) (sha256Hex : String → String) (actors : Index → SubmissionActor)
  (start : RecordStore Value)

/-- A record of a submission is created for a request, or is what a report makes of the record
that was read. -/
def reportRule : WriteRule Index Value := fun index _ log space key value expected =>
  space = submissionNamespace →
    (∃ request now, value = serde.submission.encode (.new sha256Hex request now) ∧
      expected = some 0) ∨
    ∃ stored record report, WasRead start index submissionNamespace key stored [] log ∧
      serde.submission.decode stored.value = .ok record ∧ (actors index).Makes report ∧
      ∃ updatedAt, value = serde.submission.encode
        { report.apply record with updatedAt := updatedAt, version := stored.version + 1 } ∧
      expected = some stored.version

end Rule

section Heeds

variable {serde : Serde Value} {sha256Hex : String → String} {actors : Index → SubmissionActor}
  {start : RecordStore Value} {index : Index} {log : List (StoreEvent Index Value)}

theorem reportRule_outbox {later : List (StoreEvent Index Value)} {store : RecordStore Value}
    {key : String} {value : Value} {expected : Option Nat} :
    reportRule serde sha256Hex actors start index store later outboxNamespace key value expected :=
  fun impossible => absurd impossible (by decide)

theorem heeds_submissionReport {submissionId : String} {now : Instant} {report : SubmissionReport}
    (makes : (actors index).Makes report) :
    Obeys (reportRule serde sha256Hex actors start) start index
      (SubmissionStore.transition serde submissionId now report.apply) log := by
  apply heeds_transition
  intro later stored record since _ read decoded _
  exact .inr ⟨stored, record, report, read.since_mono List.nil_prefix, decoded, makes, now, rfl, rfl⟩

theorem heeds_confirmReport {key : String} {now : Instant}
    (makes : (actors index).Makes (.published now)) :
    Obeys (reportRule serde sha256Hex actors start) start index
      (Governance.confirmPublishedSubmission serde key now) log := by
  unfold Governance.confirmPublishedSubmission
  cases submissionIdFromOutboxKey key with
  | none => exact .returned
  | some submissionId =>
    exact Heeds.ends (heeds_submissionReport makes) fun _ => ⟨_, rfl⟩

theorem heeds_drainReports {transport : Transport} {now : Instant}
    (makes : (actors index).Makes (.published now)) (entries : List OutboxEntry)
    (summary : OutboxDrain) :
    Obeys (reportRule serde sha256Hex actors start) start index
      (drainEach serde transport now entries summary) log := by
  induction entries generalizing log summary with
  | nil => exact .returned
  | cons entry rest ih =>
    unfold drainEach
    cases transport entry with
    | none =>
      apply Heeds.seq (heeds_mutate entry.key _ fun _ _ _ _ _ _ _ => reportRule_outbox)
      intro result reported _ _ _
      cases result with
      | error error => exact ih _
      | ok delivered =>
        apply Heeds.seq (heeds_confirmReport makes)
        exact fun _ _ _ _ _ => ih _
    | some error =>
      apply Heeds.seq (heeds_mutate entry.key _ fun _ _ _ _ _ _ _ => reportRule_outbox)
      exact fun _ _ _ _ _ => ih _

theorem heeds_drainOutboxReports {transport : Transport} {now : Instant} {limit : Nat}
    (makes : (actors index).Makes (.published now)) :
    Obeys (reportRule serde sha256Hex actors start) start index
      (Governance.drainOutbox serde transport now limit) log := by
  apply Heeds.seq (heeds_claimDue now limit fun _ _ _ _ _ _ _ _ _ _ => reportRule_outbox)
  intro result claimed _ _ _
  cases result with
  | error error => exact .returned
  | ok entries => exact heeds_drainReports makes entries {}

theorem heeds_actor (index : Index) :
    Obeys (reportRule serde sha256Hex actors start) start index
      ((actors index).program serde sha256Hex) [] := by
  have finish : ∀ later : List (StoreEvent Index Value),
      Obeys (reportRule serde sha256Hex actors start) start index
        (done () : StoreProgram Value Unit) later :=
    fun _ => .returned
  cases actor : actors index with
  | submitOnce request now =>
    apply Heeds.seq (heeds_submitOnce request now ?_ ?_ ?_)
    · exact fun _ later _ _ _ => finish later
    · exact fun later _ _ _ => .inl ⟨request, now, rfl, rfl⟩
    · exact fun _ _ _ _ => reportRule_outbox
    · exact fun _ _ _ _ _ _ _ _ => reportRule_outbox
  | markApplied submissionId now =>
    have makes : (actors index).Makes (.applied now) := actor ▸ rfl
    apply Heeds.seq (heeds_submissionReport makes)
    exact fun _ later _ _ _ => finish later
  | markFailed submissionId error now =>
    have makes : (actors index).Makes (.failed error now) := actor ▸ rfl
    apply Heeds.seq (heeds_submissionReport makes)
    exact fun _ later _ _ _ => finish later
  | recoverUnfinished now limit =>
    have makes : (actors index).Makes (.published now) := actor ▸ rfl
    apply Heeds.seq (heeds_recoverUnfinished now limit ?_ ?_)
    · exact fun _ later _ _ _ => finish later
    · intro later stored current submissionId since _ read decoded _
      exact .inr ⟨stored, current, .published now, read, decoded, makes, now, rfl, rfl⟩
    · exact fun _ _ _ _ _ _ _ _ _ => reportRule_outbox
  | confirmPublishedSubmission key now => exact heeds_confirmReport (actor ▸ rfl)
  | drainOutbox transport now limit =>
    have makes : (actors index).Makes (.published now) := actor ▸ rfl
    apply Heeds.seq (heeds_drainOutboxReports makes)
    exact fun _ later _ _ _ => finish later

end Heeds

def storedSubmission (serde : Serde Value) (store : RecordStore Value) (submissionId : String) :
    Option SubmissionRecord :=
  (store.get submissionNamespace submissionId).bind fun stored =>
    (serde.submission.decode stored.value).toOption

section Runs

variable {serde : Serde Value} {sha256Hex : String → String} {actors : Index → SubmissionActor}
  {start : RecordStore Value} {log : List (StoreEvent Index Value)} {submissionId : String}
  {before : SubmissionRecord}

theorem storedSubmission_of_get {store : RecordStore Value} {stored : Record Value}
    {record : SubmissionRecord} (found : store.get submissionNamespace submissionId = some stored)
    (value : stored.value = serde.submission.encode record) :
    storedSubmission serde store submissionId = some record := by
  simp [storedSubmission, found, value, serde.submission.decode_encode, Except.toOption]

variable (serde actors) in
/-- The event is a report that is written over a record in another terminal state. -/
def overturns (session : ReportSession Index Value) (event : StoreEvent Index Value) : Bool :=
  match event.operation, event.answer with
  | .put space key _ _, .ok _ =>
    space = submissionNamespace &&
      match storedSubmission serde session.store key, (actors event.index).writes with
      | some record, some state => record.state.isTerminal && record.state ≠ state
      | _, _ => false
  | _, _ => false

theorem keeps_of_event {event : StoreEvent Index Value} {session : ReportSession Index Value}
    (positive : ∀ stored, start.get submissionNamespace submissionId = some stored →
      stored.version ≠ 0)
    (proper : ProperLog (reportRule serde sha256Hex actors start) start (log ++ [event]))
    (reached : session.store = storeAfter start log)
    (careful : overturns serde actors session event = false)
    (recorded : storedSubmission serde (storeAfter start log) submissionId = some before) :
    ∃ after, storedSubmission serde (storeAfter start (log ++ [event])) submissionId = some after ∧
      before.Keeps after := by
  have proper' := proper.of_prefix (List.prefix_append log [event])
  have allowed := proper _ _ List.prefix_rfl
  rcases get_cases allowed submissionNamespace submissionId with same |
    ⟨expected, written, accepted, space, key, replaced⟩
  · exact ⟨before, by rw [storedSubmission, same]; exact recorded, .refl before⟩
  · obtain ⟨current, found, decoded⟩ := Option.bind_eq_some_iff.mp recorded
    have there : (storeAfter start log).get written.space written.key = some current := by
      rw [space, key]
      exact found
    rcases accepted.ruled space with ⟨request, now, -, rfl⟩ |
      ⟨stored, record, report, read, readDecoded, makes, updatedAt, value, rfl⟩
    · exact absurd (accepted.version_expected there) (version_ne_zero proper' positive found)
    · rw [key] at read
      have sameVersion := accepted.version_expected there
      have sameRecord := read.current_eq proper' found sameVersion
      subst sameRecord
      rw [readDecoded, Except.toOption, Option.some.injEq] at decoded
      subst decoded
      have keeps : record.Keeps (report.apply record) := by
        refine SubmissionReport.keeps_apply makes fun terminal state writes => ?_
        rw [accepted.event_eq] at careful
        simp only [overturns, space, key, reached, recorded, writes, terminal, decide_true,
          Bool.true_and] at careful
        exact (by simpa using careful : record.state = state).symm
      refine ⟨_, storedSubmission_of_get replaced value, keeps.taskId, keeps.requestDigest, keeps.state⟩

variable [DecidableEq Index] {middle target : ReportSession Index Value}
  {moves more : List (Index × Circumstance)}

theorem accounted_of_reporting
    (run : Run (serves execute) (reporting serde sha256Hex actors start) moves target) :
    target.Accounted recordService (writing (reportRule serde sha256Hex actors start)) start
      fun _ _ _ => True :=
  Session.accounted_of_run heeds_actor run

theorem keeps_of_step {move : Index × Circumstance}
    (positive : ∀ stored, start.get submissionNamespace submissionId = some stored →
      stored.version ≠ 0)
    (run : Run (serves execute) (reporting serde sha256Hex actors start) moves middle)
    (step : avoids execute (overturns serde actors) middle move target)
    (recorded : storedSubmission serde middle.store submissionId = some before) :
    ∃ after, storedSubmission serde target.store submissionId = some after ∧
      before.Keeps after := by
  have account := accounted_of_reporting run
  have next := accounted_of_reporting (run.append (.cons step.1 (.nil target)))
  rw [next.store_eq]
  rw [account.store_eq] at recorded
  have longer := Session.log_prefix_run (.cons step.1 (.nil target))
  have shorter : target.log.length ≤ middle.log.length + 1 := by
    rw [← step.1]
    exact middle.log_length_serve move
  obtain ⟨added, logged⟩ := longer
  rcases added with _ | ⟨event, _ | ⟨other, rest⟩⟩
  · rw [← logged, List.append_nil]
    exact ⟨before, recorded, .refl before⟩
  · rw [← logged]
    exact keeps_of_event positive (logged ▸ next.proper) account.store_eq
      (step.2 event logged.symm) recorded
  · rw [← logged, List.length_append, List.length_cons, List.length_cons] at shorter
    omega

/-- In every run, as long as no report overturns a terminal state, a terminal state stays, and what
the submission is about stays the same. -/
theorem terminal_of_run
    (positive : ∀ stored, start.get submissionNamespace submissionId = some stored →
      stored.version ≠ 0)
    (first : Run (serves execute) (reporting serde sha256Hex actors start) moves middle)
    (second : Run (avoids execute (overturns serde actors)) middle more target)
    (recorded : storedSubmission serde middle.store submissionId = some before) :
    ∃ after, storedSubmission serde target.store submissionId = some after ∧
      before.Keeps after := by
  induction second generalizing moves before with
  | nil session => exact ⟨before, recorded, .refl before⟩
  | cons step rest ih =>
    obtain ⟨between, stored, keeps⟩ := keeps_of_step positive first step recorded
    obtain ⟨after, found, onward⟩ := ih (first.append (.cons step.1 (.nil _))) stored
    exact ⟨after, found, keeps.trans onward⟩

end Runs

def lateReports : Nat → SubmissionActor
  | 0 => .submitOnce sampleRequest 0
  | 1 => .markFailed "key-1" "policy denied" 1
  | 2 => .markApplied "key-1" 2
  | _ => .confirmPublishedSubmission "task-submit:key-1" 3

def lateSession (indices : List Nat) : ReportSession Nat (SubmissionRecord ⊕ OutboxEntry) :=
  (indices.map served).foldl (Session.serve execute)
    (reporting plainSerde sampleDigest lateReports .empty)

/-- The outbox has delivered the publication of a submission that has failed. -/
theorem terminal_of_run_confirmed :
    ∃ before after,
      storedSubmission plainSerde (lateSession [0, 0, 1, 1]).store "key-1" = some before ∧
      storedSubmission plainSerde (lateSession [0, 0, 1, 1, 3, 3]).store "key-1" = some after ∧
      before.Keeps after := by
  have recorded : storedSubmission plainSerde (lateSession [0, 0, 1, 1]).store "key-1" = some _ := rfl
  have first : Run (serves execute)
      (reporting plainSerde sampleDigest lateReports .empty) ([0, 0, 1, 1].map served)
      (lateSession [0, 0, 1, 1]) := run_serves _ _
  have second : Run (avoids execute (overturns plainSerde lateReports))
      (lateSession [0, 0, 1, 1]) ([3, 3].map served) (lateSession [0, 0, 1, 1, 3, 3]) :=
    Session.run_avoids rfl
  have fresh : ∀ stored, (get .empty submissionNamespace "key-1" :
      Option (Record (SubmissionRecord ⊕ OutboxEntry))) = some stored → stored.version ≠ 0 :=
    fun _ found => by cases found
  obtain ⟨after, stored, keeps⟩ := terminal_of_run fresh first second recorded
  exact ⟨_, after, recorded, stored, keeps⟩

/-- The report of an application replaces the failure. -/
theorem terminal_fails_late :
    Run (serves execute) (reporting plainSerde sampleDigest lateReports .empty)
      ([0, 0, 1, 1, 2, 2].map served) (lateSession [0, 0, 1, 1, 2, 2]) ∧
    ∃ before after,
      storedSubmission plainSerde (lateSession [0, 0, 1, 1]).store "key-1" = some before ∧
      before.state.isTerminal ∧
      storedSubmission plainSerde (lateSession [0, 0, 1, 1, 2, 2]).store "key-1" = some after ∧
      ¬ before.Keeps after := by
  refine ⟨run_serves _ _, _, _, rfl, rfl, rfl, fun keeps => ?_⟩
  exact absurd (keeps.state rfl) (by decide)

end UltimateCoders.Governance
