import UltimateCoders.Governance.CaseStore
import UltimateCoders.Governance.History

/-! # Waking cases among other changes

A wake tests the status of a case, and changes it by a compare-and-swap loop that
reads the case again. What others do to the case in between is not tested a
second time: the change to active is legal from most statuses.
-/

namespace UltimateCoders.Governance

open Transition Program

universe u

variable {Index : Type u} {Value : Type}

section Programs

variable {rule : WriteRule Index Value} {start : RecordStore Value} {index : Index}
  {log : List (StoreEvent Index Value)}

variable (codec : Codec Value WorkCase)

theorem heeds_caseGet (caseId : String) :
    Upholds rule start index (CaseStore.get codec caseId)
      (fun result later => ∀ case version, result = .ok (some (case, version)) →
        ∃ record, WasRead start index caseNamespace caseId record log later ∧
          codec.decode record.value = .ok case ∧ record.version = version) log := by
  apply Heeds.seq (heeds_get CaseStore.view codec caseId)
  intro result read _ _ wasRead
  cases result with
  | error error => exact .done fun _ _ _ _ _ => nofun
  | ok found =>
    apply Heeds.done
    intro later further _ case version same
    cases same
    obtain ⟨record, seen, decoded, sameVersion⟩ := wasRead case version rfl
    exact ⟨record, seen.mono further, decoded, sameVersion⟩

theorem heeds_createUnique (case : WorkCase)
    (permitted : ∀ later, log <+: later → ProperLog rule start later →
      rule index (storeAfter start later) later caseNamespace case.id
        (codec.encode { case with version := 1 }) (some 0)) :
    Obeys rule start index (CaseStore.createUnique codec case) log := by
  apply Heeds.seq (heeds_put CaseStore.view codec permitted)
  intro answer later _ _ _
  cases answer with
  | ok record => exact .returned
  | error error =>
    cases error with
    | conflict expected actual =>
      refine Heeds.ends (heeds_caseGet codec case.id) fun result => ?_
      rcases result with error | none | existing <;> exact ⟨_, rfl⟩
    | _ => exact .returned

theorem heeds_caseUpdate (caseId : String)
    (mutate : WorkCase → Except CaseTransitionError WorkCase)
    (permitted : ∀ later record case changed, log <+: later → ProperLog rule start later →
      WasRead start index caseNamespace caseId record log later →
      codec.decode record.value = .ok case → mutate case = .ok changed →
      rule index (storeAfter start later) later caseNamespace caseId
        (codec.encode { changed with version := record.version + 1 }) (some record.version)) :
    Upholds rule start index (CaseStore.update codec caseId mutate)
      (fun result later => ∀ written, result = .ok written →
        ∃ record case changed, WasRead start index caseNamespace caseId record log later ∧
          codec.decode record.value = .ok case ∧ mutate case = .ok changed ∧
          written = { changed with version := record.version + 1 } ∧
          WasWritten index caseNamespace caseId (codec.encode written) (some record.version) later)
      log := by
  apply Heeds.seq (heeds_modify CaseStore.view codec caseId _ 16 ?_)
  · intro result reached _ _ post
    cases result with
    | absent | refused error | contended | failed error =>
      exact .done fun _ _ _ _ => nofun
    | written final extra =>
      obtain ⟨record, case, seen, decoded, mutated, wasWritten⟩ := post final extra rfl
      cases changes : mutate case with
      | error error =>
        simp only [changes] at mutated
        cases mutated
      | ok changed =>
        simp only [changes] at mutated
        cases mutated
        apply Heeds.done
        intro later further _ written same
        cases same
        exact ⟨record, case, changed, seen.mono further, decoded, changes, rfl,
          wasWritten.mono further⟩
  · intro later record case final since proper seen decoded mutated
    cases changes : mutate case with
    | error error =>
      simp only [changes] at mutated
      cases mutated
    | ok changed =>
      simp only [changes] at mutated
      cases mutated
      exact permitted later record case changed since proper seen decoded changes

theorem heeds_openForCase (codec : Codec Value AttentionItem) (caseId : String) :
    Obeys rule start index (AttentionBoard.openForCase codec caseId) log := by
  refine Heeds.ends (heeds_list AttentionBoard.view codec 2000) fun result => ?_
  cases result <;> exact ⟨_, rfl⟩

theorem heeds_attentionResolve (codec : Codec Value AttentionItem) (attentionId : String)
    (resolution : AttentionResolution) (now : Instant)
    (permitted : ∀ later key value expected, log <+: later → ProperLog rule start later →
      rule index (storeAfter start later) later attentionNamespace key value expected) :
    Obeys rule start index (AttentionBoard.resolve codec attentionId resolution now) log := by
  apply Heeds.seq (heeds_modify AttentionBoard.view codec attentionId _ 8 ?_)
  · intro result later _ _ _
    cases result with
    | _ => exact .returned
  · exact fun later _ _ _ since proper _ _ _ => permitted later _ _ _ since proper

theorem heeds_resolveWaiting (serde : CaseSerde Value) (caseId triggerId : String) (now : Instant)
    (permitted : ∀ later key value expected, log <+: later → ProperLog rule start later →
      rule index (storeAfter start later) later attentionNamespace key value expected) :
    Obeys rule start index (resolveWaiting serde caseId triggerId now) log := by
  have waiting : Obeys rule start index (openWaitingItem serde caseId) log := by
    refine Heeds.ends (heeds_openForCase serde.attention caseId) fun result => ?_
    rcases result with error | none | item <;> exact ⟨_, rfl⟩
  apply Heeds.seq waiting
  intro result listed since _ _
  cases result with
  | error error => exact .returned
  | ok found =>
    cases found with
    | none => exact .returned
    | some item =>
      apply Heeds.seq (heeds_attentionResolve serde.attention item.id _ now
        fun later key value expected further => permitted later key value expected
          (since.trans further))
      intro answer later _ _ _
      cases answer with
      | error error | ok resolved => exact .returned

end Programs

inductive CaseClient where
  | wake (triggerId : String) (now : Instant) (matched : List String)
  | create (case : WorkCase)
  | update (caseId : String) (mutate : WorkCase → Except CaseTransitionError WorkCase)

inductive CaseAnswer where
  | woken (wakes : List CaseWake)
  | created (result : Except CaseStoreError (WorkCase × Bool))
  | updated (result : Except CaseStoreError WorkCase)

/-- Clients of one case store, at some moment. -/
abbrev CaseSession (Index : Type u) (Value : Type) :=
  Session Index (RecordStore Value) (StoreOperation Value) StoreOperation.Answer CaseAnswer

section Rule

variable (serde : CaseSerde Value) (start : RecordStore Value) (calls : Index → CaseClient)

def CaseClient.program : CaseClient → StoreProgram Value CaseAnswer
  | wake triggerId now matched => do
      return .woken (← wakeMatchedCases serde triggerId now matched [])
  | create case => do return .created (← CaseStore.createUnique serde.case case)
  | update caseId mutate => do return .updated (← CaseStore.update serde.case caseId mutate)

/-- Clients that find this store. -/
def working : CaseSession Index Value := ⟨start, fun index => (calls index).program serde, []⟩

def caseStatus (store : RecordStore Value) (caseId : String) : Option CaseStatus :=
  match store.get caseNamespace caseId with
  | none => none
  | some record =>
    match serde.case.decode record.value with
    | .error _ => none
    | .ok case => some case.status

def FoundWaiting (index : Index) (caseId : String) (log : List (StoreEvent Index Value)) : Prop :=
  ∃ record case, WasRead start index caseNamespace caseId record [] log ∧
    serde.case.decode record.value = .ok case ∧ case.status = .waitingEvent

/-- A wake makes a case active that it has once found waiting. -/
def wakeRule : WriteRule Index Value := fun index _ log space key value _ =>
  space = caseNamespace → ∀ triggerId now matched, calls index = .wake triggerId now matched →
    FoundWaiting serde start index key log ∧
      ∃ changed, value = serde.case.encode changed ∧ changed.status = .active

/-- The case is waiting for an event, or at work already. -/
def Wakeable (store : RecordStore Value) (caseId : String) : Prop :=
  caseStatus serde store caseId = some .waitingEvent ∨ caseStatus serde store caseId = some .active

/-- Each write that took the case out of waiting, after the first log and before the
second, is followed by one before the second log that brought it back. -/
def BroughtBack (caseId : String) (tested log : List (StoreEvent Index Value)) : Prop :=
  ∀ middle write, tested <+: middle → middle ++ [write] <+: log →
    StoreEvent.wrote write = some (caseNamespace, caseId) →
    ¬ Wakeable serde (storeAfter start (middle ++ [write])) caseId →
    ∃ later back, middle ++ [write] <+: later ∧ later ++ [back] <+: log ∧
      StoreEvent.wrote back = some (caseNamespace, caseId) ∧
      Wakeable serde (storeAfter start (later ++ [back])) caseId

end Rule

variable {serde : CaseSerde Value} {start : RecordStore Value} {calls : Index → CaseClient}
  {index : Index} {log later : List (StoreEvent Index Value)} {caseId : String}

theorem FoundWaiting.mono (found : FoundWaiting serde start index caseId log)
    (isPrefix : log <+: later) : FoundWaiting serde start index caseId later := by
  obtain ⟨record, case, read, decoded, status⟩ := found
  exact ⟨record, case, read.mono isPrefix, decoded, status⟩

theorem WorkCase.status_of_transition {case changed : WorkCase} {next : CaseStatus} {now : Instant}
    (accepted : case.transition next now = .ok changed) : changed.status = next := by
  unfold WorkCase.transition at accepted
  split at accepted
  · cases accepted
    rfl
  · cases accepted

theorem heeds_wakeCase (triggerId : String) (now : Instant) (caseId : String) :
    Obeys (wakeRule serde start calls) start index (wakeCase serde caseId triggerId now) log := by
  apply Heeds.seq (heeds_caseGet serde.case caseId)
  intro result tested since _ wasRead
  cases result with
  | error error => exact .returned
  | ok found =>
    cases found with
    | none => exact .returned
    | some found =>
      obtain ⟨case, version⟩ := found
      obtain ⟨record, seen, decoded, -⟩ := wasRead case version rfl
      dsimp only
      split
      · exact .returned
      · rename_i waiting
        have status : case.status = .waitingEvent := by
          by_contra other
          exact waiting (by simp [other])
        have found : FoundWaiting serde start index caseId tested :=
          ⟨record, case, seen.since_mono log.nil_prefix, decoded, status⟩
        apply Heeds.seq (heeds_resolveWaiting serde caseId triggerId now
          fun _ _ _ _ _ _ elsewhere => absurd elsewhere (by decide))
        intro result resolved resolvedSince _ _
        cases result with
        | error detail => exact .returned
        | ok resolvedAttention =>
          apply Heeds.seq (heeds_caseUpdate serde.case caseId _ ?_)
          · intro result later _ _ _
            cases result with
            | error error | ok changed => exact .returned
          · intro later stored old changed further _ _ _ moved _ _ _ _ _
            have active := WorkCase.status_of_transition moved
            exact ⟨found.mono (resolvedSince.trans further), _, rfl, active⟩

theorem heeds_wakeMatchedCases (triggerId : String) (now : Instant) (matched : List String)
    (woken : List CaseWake) :
    Obeys (wakeRule serde start calls) start index
      (wakeMatchedCases serde triggerId now matched woken) log := by
  induction matched generalizing log woken with
  | nil => exact .returned
  | cons caseId rest ih =>
    apply Heeds.seq (heeds_wakeCase triggerId now caseId)
    intro result later _ _ _
    cases result with
    | error detail => exact ih woken
    | ok wake =>
      cases wake with
      | none => exact ih woken
      | some wake => exact ih (woken ++ [wake])

theorem heeds_caseClient (index : Index) :
    Obeys (wakeRule serde start calls) start index ((calls index).program serde) log := by
  cases call : calls index with
  | wake triggerId now matched =>
    exact Heeds.ends (heeds_wakeMatchedCases triggerId now matched []) fun _ => ⟨_, rfl⟩
  | create case =>
    apply Heeds.seq (heeds_createUnique serde.case case ?_)
    · exact fun _ _ _ _ _ => .returned
    · intro later _ _ _ triggerId now matched other
      cases call.symm.trans other
  | update caseId mutate =>
    apply Heeds.seq (heeds_caseUpdate serde.case caseId mutate ?_)
    · exact fun _ _ _ _ _ => .returned
    · intro later _ _ _ _ _ _ _ _ _ triggerId now matched other
      cases call.symm.trans other

theorem caseStatus_of_get {store : RecordStore Value} {record : Record Value} {case : WorkCase}
    (found : store.get caseNamespace caseId = some record)
    (decoded : serde.case.decode record.value = .ok case) :
    caseStatus serde store caseId = some case.status := by
  simp only [caseStatus, found, decoded]

theorem wakeable_congr {first second : RecordStore Value}
    (same : first.get caseNamespace caseId = second.get caseNamespace caseId) :
    Wakeable serde first caseId ↔ Wakeable serde second caseId := by
  unfold Wakeable caseStatus
  rw [same]

theorem wakeable_iff_broughtBack {tested : List (StoreEvent Index Value)} {record : Record Value}
    (proper : ProperLog (wakeRule serde start calls) start log) (since : tested <+: log)
    (found : (storeAfter start tested).get caseNamespace caseId = some record)
    (waiting : caseStatus serde (storeAfter start tested) caseId = some .waitingEvent) :
    Wakeable serde (storeAfter start log) caseId ↔
      BroughtBack serde start caseId tested log := by
  obtain ⟨current, stored, -⟩ := get_later proper since found
  apply Iff.intro
  · intro wakeable middle write _ within wrote taken
    rcases origin_of_get proper within stored with
      same | ⟨later, back, expected, further, inside, accepted, space, key⟩
    · exact absurd ((wakeable_congr (same.trans stored.symm)).mpr wakeable) taken
    · have present := accepted.get_snoc
      rw [space, key] at present
      refine ⟨later, back, further, inside, ?_, ?_⟩
      · rw [accepted.event_eq, ← space, ← key]
        rfl
      · exact (wakeable_congr (present.trans stored.symm)).mpr wakeable
  · intro broughtBack
    by_contra taken
    rcases origin_of_get proper since stored with
      same | ⟨middle, write, expected, begun, within, accepted, space, key⟩
    · exact taken ((wakeable_congr (same.trans stored.symm)).mp (.inl waiting))
    · have present := accepted.get_snoc
      rw [space, key] at present
      have wrote : StoreEvent.wrote write = some (caseNamespace, caseId) := by
        rw [accepted.event_eq, ← space, ← key]
        rfl
      obtain ⟨later, back, further, inside, again, -⟩ := broughtBack middle write begun within wrote
        fun wakeable => taken ((wakeable_congr (present.trans stored.symm)).mp wakeable)
      exact unwritten_of_get_eq proper further inside present stored again

/-- In every run, a case that a wake makes active was found waiting by the same call
before, and it is taken out of waiting, or is at work already, exactly if every
write that took it elsewhere since then was followed by one that brought it back. -/
theorem wake_iff [DecidableEq Index] {target : CaseSession Index Value}
    {moves : List (Index × Circumstance)} {event : StoreEvent Index Value} {triggerId : String}
    {now : Instant} {matched : List String}
    (run : Run (serves RecordStore.execute) (working serde start calls) moves target)
    (within : log ++ [event] <+: target.log)
    (wakes : calls event.index = .wake triggerId now matched)
    (wrote : StoreEvent.wrote event = some (caseNamespace, caseId)) :
    caseStatus serde (storeAfter start (log ++ [event])) caseId = some .active ∧
      ∃ tested record, tested ++ [⟨event.index, .get caseNamespace caseId, .ok (some record)⟩] <+: log ∧
        caseStatus serde (storeAfter start tested) caseId = some .waitingEvent ∧
        (Wakeable serde (storeAfter start log) caseId ↔
          BroughtBack serde start caseId tested log) := by
  have account := Session.accounted_of_run heeds_caseClient run
  obtain ⟨expected, written, accepted, space, key, stored⟩ :=
    accepted_of_wrote (account.proper _ _ within) wrote
  have before := account.proper.of_prefix ((List.prefix_append log [event]).trans within)
  have ruled := accepted.ruled
  rw [space, key] at ruled
  obtain ⟨⟨record, case, ⟨tested, -, logged, found⟩, decoded, status⟩, changed, value, active⟩ :=
    ruled rfl triggerId now matched wakes
  have waiting : caseStatus serde (storeAfter start tested) caseId = some .waitingEvent := by
    rw [caseStatus_of_get found decoded, status]
  have since := (List.prefix_append tested _).trans logged
  refine ⟨?_, tested, record, logged, waiting, wakeable_iff_broughtBack before since found waiting⟩
  rw [caseStatus_of_get stored (by rw [value]; exact serde.case.decode_encode changed), active]

/-- Documents stored as they are. -/
def plainCases : CaseSerde (WorkCase ⊕ AttentionItem) where
  case :=
    { encode := .inl
      decode
        | .inl case => .ok case
        | .inr _ => .error "missing field `title`"
      decode_encode := fun _ => rfl }
  attention :=
    { encode := .inr
      decode
        | .inr item => .ok item
        | .inl _ => .error "missing field `case_id`"
      decode_encode := fun _ => rfl }

def oneWaiting : RecordStore (WorkCase ⊕ AttentionItem) :=
  (RecordStore.put .empty caseNamespace "case-1" (.inl
    { WorkCase.new "case-1" "fix the build" "it keeps failing" "proj"
        ⟨"github", none, none, none⟩ 0 with status := .waitingEvent, version := 1 }) none 0).2

/-- An event wakes the case while another client asks for a human decision. -/
def eventAndHuman : Nat → CaseClient
  | 0 => .wake "evt-1" 5 ["case-1"]
  | _ => .update "case-1" fun case => case.transition .needsHuman 3

def servedCases (indices : List Nat) : CaseSession Nat (WorkCase ⊕ AttentionItem) :=
  (indices.map fun index => (index, ⟨0, none⟩)).foldl (Session.serve RecordStore.execute)
    (working plainCases oneWaiting eventAndHuman)

theorem run_servedCases (indices : List Nat) :
    Run (serves RecordStore.execute) (working plainCases oneWaiting eventAndHuman)
      (indices.map fun index => (index, ⟨0, none⟩)) (servedCases indices) :=
  run_serves _ _

theorem wake_iff_undisturbed :
    ∃ log event, log ++ [event] = (servedCases [0, 0, 0, 0]).log ∧
      caseStatus plainCases (storeAfter oneWaiting (log ++ [event])) "case-1" = some .active ∧
      ∃ tested record,
        tested ++ [⟨event.index, .get caseNamespace "case-1", .ok (some record)⟩] <+: log ∧
        caseStatus plainCases (storeAfter oneWaiting tested) "case-1" = some .waitingEvent ∧
        (Wakeable plainCases (storeAfter oneWaiting log) "case-1" ↔
          BroughtBack plainCases oneWaiting "case-1" tested log) :=
  ⟨(servedCases [0, 0, 0]).log, _, rfl,
    wake_iff (run_servedCases [0, 0, 0, 0]) List.prefix_rfl rfl rfl⟩

/-- The event answers for the human. -/
theorem wake_fails_needsHuman :
    ∃ log event, Run (serves RecordStore.execute) (working plainCases oneWaiting eventAndHuman)
        ([0, 0, 1, 1, 0, 0].map fun index => (index, ⟨0, none⟩)) (servedCases [0, 0, 1, 1, 0, 0]) ∧
      log ++ [event] = (servedCases [0, 0, 1, 1, 0, 0]).log ∧ event.index = 0 ∧
      eventAndHuman 0 = .wake "evt-1" 5 ["case-1"] ∧
      StoreEvent.wrote event = some (caseNamespace, "case-1") ∧
      caseStatus plainCases (storeAfter oneWaiting log) "case-1" = some .needsHuman ∧
      caseStatus plainCases (storeAfter oneWaiting (log ++ [event])) "case-1" = some .active :=
  ⟨(servedCases [0, 0, 1, 1, 0]).log, _, run_servedCases _, rfl, rfl, rfl, rfl, rfl, rfl⟩

end UltimateCoders.Governance
