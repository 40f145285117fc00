import UltimateCoders.Governance.History
import UltimateCoders.Governance.Submission

/-! # Submitting once

Any number of clients submit against one record store, their operations served
in any order, and any of them may stop at any point. The record of a submission
is created by at most one of them; all others find it. A client writes only when
the record that is there carries the digest of its own request.
-/

namespace UltimateCoders.Governance

open Transition RecordStore StoreEvent SubmissionStore List

universe u

variable {Index : Type u} {Value : Type}

/-- Clients that submit against one store. -/
abbrev SubmitSession (Index : Type u) (Value : Type) :=
  Session Index (RecordStore Value) (StoreOperation Value) StoreOperation.Answer
    (Except SubmissionError SubmitOnceOutcome)

section Contract

variable (serde : Serde Value) (sha256Hex : String → String) (requests : Index → SubmissionRequest)

/-- The store holds the record of the request's id, and it is one of this very
content. -/
def RecordedAs (request : SubmissionRequest) (store : RecordStore Value) : Prop :=
  ∃ stored record, store.get submissionNamespace request.submissionId = some stored ∧
    serde.submission.decode stored.value = .ok record ∧
    record.requestDigest = request.digest sha256Hex

/-- A stored submission is one of the id that it is stored under. -/
def Identified (id : String) (value : Value) : Prop :=
  ∃ record, serde.submission.decode value = .ok record ∧ record.submissionId = id ∧
    record.taskId = deriveTaskId sha256Hex id

/-- What holds of store and log throughout. -/
structure SubmittedOnce (store : RecordStore Value) (log : List (StoreEvent Index Value)) :
    Prop where
  positive : ∀ space key stored, store.get space key = some stored → stored.version ≠ 0
  identified : ∀ id stored, store.get submissionNamespace id = some stored →
    Identified serde sha256Hex id stored.value
  present : ∀ event ∈ log, ∀ space key, event.wrote = some (space, key) →
    (store.get space key).isSome = true
  once : ∀ place, log.countP (fun event => decide (event.wrote = some place)) ≤ 1
  owned : ∀ event ∈ log, event.wrote.isSome = true →
    RecordedAs serde sha256Hex (requests event.index) store

/-- Documents and log entries from before are still there. -/
structure Since (store : RecordStore Value) (log : List (StoreEvent Index Value))
    (later : RecordStore Value) (laterLog : List (StoreEvent Index Value)) : Prop where
  extended : store.Extends later
  grown : log <+: laterLog

theorem Since.trans {first second third : RecordStore Value}
    {firstLog secondLog thirdLog : List (StoreEvent Index Value)}
    (left : Since first firstLog second secondLog) (right : Since second secondLog third thirdLog) :
    Since first firstLog third thirdLog :=
  ⟨left.extended.trans right.extended, left.grown.trans right.grown⟩

/-- Calls rely on each other never to change or remove a document. -/
def submitContract : Contract Index (RecordStore Value) (StoreEvent Index Value) where
  shared := SubmittedOnce serde sha256Hex requests
  rely _ := Since
  rely_refl _ store _ := ⟨.refl store, prefix_rfl⟩
  rely_trans _ _ _ _ _ _ _ := Since.trans

/-- What a returned call has established. -/
def SubmitPost (index : Index) (result : Except SubmissionError SubmitOnceOutcome)
    (store : RecordStore Value) (log : List (StoreEvent Index Value)) : Prop :=
  match result with
  | .ok (.created record) =>
    (∃ event ∈ log, event.index = index ∧
      event.wrote = some (submissionNamespace, (requests index).submissionId)) ∧
    record.taskId = deriveTaskId sha256Hex (requests index).submissionId ∧
    RecordedAs serde sha256Hex (requests index) store
  | .ok (.replayed record) =>
    record.taskId = deriveTaskId sha256Hex (requests index).submissionId ∧
    RecordedAs serde sha256Hex (requests index) store
  | _ => True

end Contract

variable {serde : Serde Value} {sha256Hex : String → String} {requests : Index → SubmissionRequest}

theorem RecordedAs.of_extends {request : SubmissionRequest} {store later : RecordStore Value}
    (recorded : RecordedAs serde sha256Hex request store) (extended : store.Extends later) :
    RecordedAs serde sha256Hex request later := by
  obtain ⟨stored, record, found, decoded, same⟩ := recorded
  exact ⟨stored, record, extended _ _ _ found, decoded, same⟩

section Operation

variable {store : RecordStore Value} {log : List (StoreEvent Index Value)}

theorem SubmittedOnce.idle (holds : SubmittedOnce serde sha256Hex requests store log)
    {event : StoreEvent Index Value} (silent : event.wrote = none) :
    SubmittedOnce serde sha256Hex requests store (log ++ [event]) := by
  have written : ∀ other ∈ log ++ [event], other.wrote.isSome = true → other ∈ log := by
    intro other member wrote
    rcases mem_append.mp member with before | last
    · exact before
    · rw [mem_singleton.mp last, silent] at wrote
      cases wrote
  refine ⟨holds.positive, holds.identified, fun other member space key wrote => ?_, fun place => ?_,
    fun other member wrote => holds.owned other (written other member wrote) wrote⟩
  · exact holds.present other (written other member (by rw [wrote]; rfl)) space key wrote
  · rw [countP_append]
    simpa [silent] using holds.once place

/-- A document created under a free key keeps what holds, if it is a proper one
and its writer's request is the recorded one. -/
theorem SubmittedOnce.create (holds : SubmittedOnce serde sha256Hex requests store log)
    (event : StoreEvent Index Value) (record : Record Value)
    (wrote : event.wrote = some (record.space, record.key)) (fresh : record.version = 1)
    (absent : store.get record.space record.key = none)
    (proper : record.space = submissionNamespace → Identified serde sha256Hex record.key record.value)
    (recorded : RecordedAs serde sha256Hex (requests event.index) (store.insert record)) :
    SubmittedOnce serde sha256Hex requests (store.insert record) (log ++ [event]) := by
  have extended := extends_insert absent
  have cases_of_get : ∀ {space key stored}, (store.insert record).get space key = some stored →
      (record.space = space ∧ record.key = key ∧ stored = record) ∨
        store.get space key = some stored := by
    intro space key stored found
    by_cases here : record.space = space ∧ record.key = key
    · obtain ⟨rfl, rfl⟩ := here
      rw [get_insert_self, Option.some.injEq] at found
      exact .inl ⟨rfl, rfl, found.symm⟩
    · rw [get_insert_of_ne here] at found
      exact .inr found
  refine ⟨?_, ?_, ?_, ?_, ?_⟩
  · intro space key stored found
    rcases cases_of_get found with ⟨-, -, rfl⟩ | before
    · rw [fresh]
      exact one_ne_zero
    · exact holds.positive space key stored before
  · intro id stored found
    rcases cases_of_get found with ⟨space, rfl, rfl⟩ | before
    · exact proper space
    · exact holds.identified id stored before
  · intro other member space key otherWrote
    rcases mem_append.mp member with before | last
    · obtain ⟨stored, found⟩ :=
        Option.isSome_iff_exists.mp (holds.present other before space key otherWrote)
      rw [extended _ _ _ found]
      rfl
    · rw [mem_singleton.mp last, wrote, Option.some.injEq, Prod.mk.injEq] at otherWrote
      obtain ⟨rfl, rfl⟩ := otherWrote
      rw [get_insert_self]
      rfl
  · intro place
    rw [countP_append]
    by_cases here : event.wrote = some place
    · -- an earlier write here would have left a document
      have none : log.countP (fun event => decide (event.wrote = some place)) = 0 := by
        rw [countP_eq_zero]
        intro other member same
        rw [here] at wrote
        have there := holds.present other member record.space record.key
          ((of_decide_eq_true same).trans wrote)
        rw [absent] at there
        cases there
      rw [none]
      exact (Nat.zero_add _).le.trans countP_le_length
    · simpa [here] using holds.once place
  · intro other member otherWrote
    rcases mem_append.mp member with before | last
    · exact (holds.owned other before otherWrote).of_extends extended
    · rw [mem_singleton.mp last]
      exact recorded

end Operation

section Rules

variable {Result Document : Type} {store : RecordStore Value} {log : List (StoreEvent Index Value)}
  {index : Index} {post : Result → RecordStore Value → List (StoreEvent Index Value) → Prop}

theorem since_idle (event : StoreEvent Index Value) : Since store log store (log ++ [event]) :=
  ⟨.refl store, prefix_append log [event]⟩

theorem meets_done {result : Result}
    (established : ∀ later laterLog, Since store log later laterLog → post result later laterLog) :
    (Program.done result).Meets execute (submitContract serde sha256Hex requests) index
      post store log :=
  fun later laterLog relied _ => established later laterLog relied

theorem meets_get (view : NamespacedStore) (codec : Codec Value Document) (key : String) :
    (view.get codec key).Meets execute (submitContract serde sha256Hex requests) index
      (fun result later laterLog => Since store log later laterLog ∧
        ∀ document version, result = .ok (some (document, version)) →
          ∃ stored, later.get view.space key = some stored ∧
            codec.decode stored.value = .ok document) store log := by
  rintro later laterLog since holds ⟨now, failure⟩
  cases failure with
  | some detail =>
    have silent : wrote
        (⟨index, .get view.space key, .error (.backend detail)⟩ : StoreEvent Index Value) = none :=
      rfl
    refine ⟨holds.idle silent, fun _ _ => since_idle _, ?_⟩
    exact meets_done fun _ _ further => ⟨since.trans ((since_idle _).trans further), by simp⟩
  | none =>
    have silent : wrote (⟨index, .get view.space key, .ok (later.get view.space key)⟩ :
        StoreEvent Index Value) = none := rfl
    refine ⟨holds.idle silent, fun _ _ => since_idle _, ?_⟩
    simp only [execute]
    cases found : later.get view.space key with
    | none => exact meets_done fun _ _ further => ⟨since.trans ((since_idle _).trans further), by simp⟩
    | some stored =>
      simp only [Program.bind]
      cases decoded : codec.decode stored.value with
      | error detail =>
        exact meets_done fun _ _ further => ⟨since.trans ((since_idle _).trans further), by simp⟩
      | ok document =>
        refine meets_done fun last lastLog further =>
          ⟨since.trans ((since_idle _).trans further), ?_⟩
        intro other version same
        cases same
        exact ⟨stored, further.extended _ _ _ found, decoded⟩

theorem meets_create (view : NamespacedStore) (codec : Codec Value Document) (key : String)
    (document : Document)
    (proper : view.space = submissionNamespace →
      Identified serde sha256Hex key (codec.encode document))
    (recorded : ∀ later now, store.Extends later → later.get view.space key = none →
      RecordedAs serde sha256Hex (requests index)
        (later.insert ⟨view.space, key, 1, codec.encode document, now⟩)) :
    (view.put codec key document (some 0)).Meets execute
      (submitContract serde sha256Hex requests) index
      (fun answer later laterLog => Since store log later laterLog ∧
        ∀ written, answer = .ok written → RecordedAs serde sha256Hex (requests index) later ∧
          ∃ event ∈ laterLog, event.index = index ∧ wrote event = some (view.space, key))
      store log := by
  rintro later laterLog since holds ⟨now, failure⟩
  cases failure with
  | some detail =>
    have silent : wrote (⟨index, .put view.space key (codec.encode document) (some 0),
        .error (.backend detail)⟩ : StoreEvent Index Value) = none := rfl
    refine ⟨holds.idle silent, fun _ _ => since_idle _, ?_⟩
    exact meets_done fun _ _ further =>
      ⟨since.trans ((since_idle _).trans further), fun _ failed => by cases failed⟩
  | none =>
    rcases put_create (holds.positive view.space key) (codec.encode document) now with
      ⟨current, -, conflicts⟩ | ⟨absent, creates⟩
    · have silent : wrote (⟨index, .put view.space key (codec.encode document) (some 0),
          .error (.conflict 0 (some current.version))⟩ : StoreEvent Index Value) = none := rfl
      simp only [execute, conflicts]
      refine ⟨holds.idle silent, fun _ _ => since_idle _, ?_⟩
      exact meets_done fun _ _ further =>
        ⟨since.trans ((since_idle _).trans further), fun _ failed => by cases failed⟩
    · let stored : Record Value := ⟨view.space, key, 1, codec.encode document, now⟩
      let event : StoreEvent Index Value :=
        ⟨index, .put view.space key (codec.encode document) (some 0), .ok stored⟩
      have wrote : event.wrote = some (view.space, key) := rfl
      have nowRecorded := recorded later now since.extended absent
      have grew : Since later laterLog (later.insert stored) (laterLog ++ [event]) :=
        ⟨extends_insert absent, prefix_append _ _⟩
      simp only [execute, creates]
      refine ⟨holds.create event stored wrote rfl absent proper nowRecorded, fun _ _ => grew, ?_⟩
      refine meets_done fun last lastLog further => ⟨since.trans (grew.trans further), ?_⟩
      intro written _
      refine ⟨nowRecorded.of_extends further.extended, event, ?_, rfl, wrote⟩
      exact further.grown.subset (mem_append_right _ mem_cons_self)

end Rules

section Call

variable {store : RecordStore Value} {log : List (StoreEvent Index Value)} {index : Index}

theorem meets_outboxGet (key : String) :
    (OutboxQueue.get serde.outbox key).Meets execute
      (submitContract serde sha256Hex requests) index (fun _ => Since store log) store log := by
  refine (meets_get OutboxQueue.view serde.outbox key).seq fun result later laterLog _ post => ?_
  cases result with
  | error error | ok found => exact meets_done fun _ _ => post.1.trans

theorem meets_enqueue (recorded : RecordedAs serde sha256Hex (requests index) store)
    (entry : OutboxEntry) :
    (OutboxQueue.enqueue serde.outbox entry).Meets execute
      (submitContract serde sha256Hex requests) index (fun _ => Since store log) store log := by
  refine Program.Meets.seq (meets_create OutboxQueue.view serde.outbox entry.key entry ?_ ?_) ?_
  · intro same
    exact absurd same (by decide)
  · intro later now extended absent
    exact (recorded.of_extends extended).of_extends (extends_insert absent)
  · intro answer later laterLog _ post
    have since := post.1
    cases answer with
    | ok written => exact meets_done fun _ _ => since.trans
    | error error =>
      cases error with
      | conflict expected actual =>
        refine (meets_outboxGet entry.key).seq fun found last lastLog _ further => ?_
        have sinceLast := since.trans further
        cases found with
        | error error => exact meets_done fun _ _ => sinceLast.trans
        | ok found =>
          cases found with
          | none | some existing => exact meets_done fun _ _ => sinceLast.trans
      | _ => exact meets_done fun _ _ => since.trans

theorem meets_queuePublication (recorded : RecordedAs serde sha256Hex (requests index) store)
    (record : SubmissionRecord) (request : SubmissionRequest) (now : Instant) :
    (queuePublication serde record request now).Meets execute
      (submitContract serde sha256Hex requests) index (fun _ => Since store log) store log := by
  refine (meets_enqueue recorded _).seq fun result later laterLog _ since => ?_
  cases result with
  | error error | ok entry => exact meets_done fun _ _ => since.trans

theorem recordedAs_insert_new (request : SubmissionRequest) (now : Instant)
    (later : RecordStore Value) (updatedAt : Instant) :
    RecordedAs serde sha256Hex request (later.insert ⟨submissionNamespace, request.submissionId, 1,
      serde.submission.encode (SubmissionRecord.new sha256Hex request now), updatedAt⟩) :=
  ⟨_, _, get_insert_self, serde.submission.decode_encode _, rfl⟩

/-- Every call meets the contract. -/
theorem meets_submitOnce (now : Instant) :
    (submitOnce serde sha256Hex (requests index) now).Meets execute
      (submitContract serde sha256Hex requests) index
      (SubmitPost serde sha256Hex requests index) store log := by
  refine Program.Meets.seq (meets_create view serde.submission _ _ ?_ ?_) ?_
  · intro _
    exact ⟨_, serde.submission.decode_encode _, rfl, rfl⟩
  · intro later updatedAt _ _
    exact recordedAs_insert_new (requests index) now later updatedAt
  · intro answer later laterLog _ post
    cases answer with
    | ok written =>
      obtain ⟨recorded, event, logged, own, wrote⟩ := post.2 written rfl
      refine (meets_queuePublication recorded _ _ _).seq fun queued last lastLog _ since => ?_
      cases queued with
      | error error => exact meets_done fun _ _ _ => trivial
      | ok _ =>
        refine meets_done fun final finalLog further => ?_
        have sinceFinal := since.trans further
        exact ⟨⟨event, sinceFinal.grown.subset logged, own, wrote⟩, rfl,
          recorded.of_extends sinceFinal.extended⟩
    | error error =>
      cases error with
      | conflict expected actual =>
        refine (meets_get view serde.submission _).seq fun found last lastLog holds read => ?_
        cases found with
        | error error => exact meets_done fun _ _ _ => trivial
        | ok found =>
          cases found with
          | none => exact meets_done fun _ _ _ => trivial
          | some existing =>
            obtain ⟨existing, version⟩ := existing
            obtain ⟨stored, found, decoded⟩ := read.2 existing version rfl
            obtain ⟨record, decodedToo, -, derived⟩ :=
              SubmittedOnce.identified holds _ stored found
            rw [decoded, Except.ok.injEq] at decodedToo
            subst decodedToo
            dsimp only
            split
            · exact meets_done fun _ _ _ => trivial
            · rename_i same
              have recorded : RecordedAs serde sha256Hex (requests index) last :=
                ⟨stored, existing, found, decoded, not_not.mp same⟩
              refine (meets_queuePublication recorded _ _ _).seq
                fun queued final finalLog _ since => ?_
              cases queued with
              | error error => exact meets_done fun _ _ _ => trivial
              | ok _ => exact meets_done fun _ _ further =>
                ⟨derived, recorded.of_extends (since.trans further).extended⟩
      | _ => exact meets_done fun _ _ _ => trivial

end Call

section Run

variable (serde sha256Hex requests)

/-- Every client has a request and a clock, and none has begun. -/
def submitting (clocks : Index → Instant) : SubmitSession Index Value where
  store := .empty
  calls index := submitOnce serde sha256Hex (requests index) (clocks index)
  log := []

/-- What submitting once means for a session of clients. -/
structure SubmitsOnce (session : SubmitSession Index Value) : Prop where
  created_once : ∀ first second firstRecord secondRecord,
    session.calls first = .done (.ok (.created firstRecord)) →
    session.calls second = .done (.ok (.created secondRecord)) →
    (requests first).submissionId = (requests second).submissionId → first = second
  task_derived : ∀ index record,
    session.calls index = .done (.ok (.created record)) ∨
      session.calls index = .done (.ok (.replayed record)) →
    record.taskId = deriveTaskId sha256Hex (requests index).submissionId
  conflicting_refused : ∀ index stored record,
    session.store.get submissionNamespace (requests index).submissionId = some stored →
    serde.submission.decode stored.value = .ok record →
    record.requestDigest ≠ (requests index).digest sha256Hex →
      (∀ outcome, session.calls index ≠ .done (.ok (.created outcome)) ∧
        session.calls index ≠ .done (.ok (.replayed outcome))) ∧
      ∀ event ∈ session.log, event.index = index → wrote event = none
  queued_once : ∀ submissionId,
    session.log.countP (fun event =>
      decide (wrote event = some (outboxNamespace, outboxKey submissionId))) ≤ 1

variable {serde sha256Hex requests}

theorem RecordedAs.digest_eq {request : SubmissionRequest} {store : RecordStore Value}
    (recorded : RecordedAs serde sha256Hex request store) {stored : Record Value}
    {record : SubmissionRecord}
    (found : store.get submissionNamespace request.submissionId = some stored)
    (decoded : serde.submission.decode stored.value = .ok record) :
    record.requestDigest = request.digest sha256Hex := by
  obtain ⟨other, otherRecord, otherFound, otherDecoded, same⟩ := recorded
  rw [found, Option.some.injEq] at otherFound
  rw [← otherFound, decoded, Except.ok.injEq] at otherDecoded
  rw [otherDecoded, same]

theorem eq_of_countP_le_one {Event : Type u} {holds : Event → Bool} {log : List Event}
    (once : log.countP holds ≤ 1) {first second : Event} (firstMem : first ∈ log)
    (secondMem : second ∈ log) (firstHolds : holds first = true) (secondHolds : holds second = true) :
    first = second := by
  have firstKept : first ∈ log.filter holds := mem_filter.mpr ⟨firstMem, firstHolds⟩
  have secondKept : second ∈ log.filter holds := mem_filter.mpr ⟨secondMem, secondHolds⟩
  rw [countP_eq_length_filter] at once
  cases kept : log.filter holds with
  | nil =>
    rw [kept] at firstKept
    exact (not_mem_nil firstKept).elim
  | cons only rest =>
    rw [kept, length_cons] at once
    have nothing : rest.length = 0 := by omega
    rw [kept, eq_nil_of_length_eq_zero nothing] at firstKept secondKept
    rw [mem_singleton.mp firstKept, mem_singleton.mp secondKept]

variable [DecidableEq Index]

/-- In every interleaving each submission is created once and only once queued,
and a request of other content is turned away. -/
theorem submitsOnce_of_run {clocks : Index → Instant} {session : SubmitSession Index Value}
    {moves : List (Index × Circumstance)}
    (run : Run (serves execute) (submitting serde sha256Hex requests clocks) moves
      session) : SubmitsOnce serde sha256Hex requests session := by
  have empty : SubmittedOnce serde sha256Hex requests (.empty : RecordStore Value) [] :=
    ⟨nofun, nofun, nofun, fun _ => Nat.zero_le 1, fun _ failed => by cases failed⟩
  have start : (submitting serde sha256Hex requests clocks).Complies execute
      (submitContract serde sha256Hex requests) (SubmitPost serde sha256Hex requests) :=
    ⟨empty, fun index => meets_submitOnce (clocks index)⟩
  have complies := start.run run
  have holds : SubmittedOnce serde sha256Hex requests session.store session.log := complies.shared
  refine ⟨?_, ?_, ?_, ?_⟩
  · intro first second firstRecord secondRecord firstCreated secondCreated same
    obtain ⟨⟨firstEvent, firstMem, firstOwn, firstWrote⟩, -⟩ := complies.post_of_done firstCreated
    obtain ⟨⟨secondEvent, secondMem, secondOwn, secondWrote⟩, -⟩ :=
      complies.post_of_done secondCreated
    rw [← same] at secondWrote
    have sameEvent := eq_of_countP_le_one (holds.once _) firstMem secondMem
      (decide_eq_true firstWrote) (decide_eq_true secondWrote)
    rw [← firstOwn, ← secondOwn, sameEvent]
  · rintro index record (created | replayed)
    · exact (complies.post_of_done created).2.1
    · exact (complies.post_of_done replayed).1
  · intro index stored record found decoded different
    have unrecorded : ¬ RecordedAs serde sha256Hex (requests index) session.store :=
      fun recorded => different (recorded.digest_eq found decoded)
    refine ⟨fun outcome => ⟨fun created => ?_, fun replayed => ?_⟩, fun event member own => ?_⟩
    · exact unrecorded (complies.post_of_done created).2.2
    · exact unrecorded (complies.post_of_done replayed).2
    · by_contra wrote
      have recorded := holds.owned event member (Option.isSome_iff_ne_none.mpr wrote)
      rw [own] at recorded
      exact unrecorded recorded
  · intro submissionId
    exact holds.once _

end Run

/-- Documents stored as they are; objects rendered in the order of their fields. -/
def plainSerde : Serde (SubmissionRecord ⊕ OutboxEntry) where
  submission :=
    { encode := .inl
      decode
        | .inl record => .ok record
        | .inr _ => .error "missing field `submission_id`"
      decode_encode := fun _ => rfl }
  outbox :=
    { encode := .inr
      decode
        | .inr entry => .ok entry
        | .inl _ => .error "missing field `key`"
      decode_encode := fun _ => rfl }
  object fields :=
    let rendered := fields.map fun field => "\"" ++ field.1 ++ "\":" ++
      match field.2 with
      | .null => "null"
      | .bool value => if value then "true" else "false"
      | .string text => "\"" ++ text ++ "\""
    "\x7b" ++ String.intercalate "," rendered ++ "\x7d"

/-- The digest of the texts that occur for the sample request. -/
def sampleDigest (text : String) : String :=
  if text = "task:key-1" then "fc3f8c8557fc998fc4f0061bd99dcd230a451a922d48db9e3a256351664f6283"
  else if text = "proj\x00fix it" then
    "0a1333cdc6d58ea2e013199d45219a9950fa26a017396167814c82e3d9e37049"
  else text

def sampleRequest : SubmissionRequest where
  submissionId := "key-1"
  principal := ⟨.user, "alice"⟩
  projectId := "proj"
  description := "fix it"
  caseId := none

/-- Two clients submit one request; the second queues the publication of the
record that the first has created. -/
def racingMoves : List (Bool × Circumstance) :=
  [(false, ⟨1, none⟩), (true, ⟨2, none⟩), (true, ⟨3, none⟩), (true, ⟨4, none⟩), (false, ⟨5, none⟩),
    (false, ⟨6, none⟩)]

theorem submitsOnce_of_run_racingMoves :
    ∃ session : SubmitSession Bool (SubmissionRecord ⊕ OutboxEntry),
      Run (serves execute)
        (submitting plainSerde sampleDigest (fun _ => sampleRequest) fun _ => 0) racingMoves session ∧
      session.calls false = .done (.ok (.created (.new sampleDigest sampleRequest 0))) ∧
      session.calls true = .done (.ok (.replayed (.new sampleDigest sampleRequest 0))) ∧
      SubmitsOnce plainSerde sampleDigest (fun _ => sampleRequest) session :=
  ⟨_, run_serves _ _, rfl, rfl, submitsOnce_of_run (run_serves _ _)⟩

end UltimateCoders.Governance
