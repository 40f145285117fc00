import UltimateCoders.Governance.History
import UltimateCoders.Governance.Outbox

/-! # Dispatchers

What the operations of the outbox ask for. A claim, a report and a recovery each
write what they made of an entry that they have read, under the version read.
-/

namespace UltimateCoders.Governance

open Transition OutboxQueue Program

universe u

variable {Index : Type u} {Value : Type}

section Programs

variable {codec : Codec Value OutboxEntry} {rule : WriteRule Index Value}
  {start : RecordStore Value} {index : Index} {log : List (StoreEvent Index Value)}

theorem heeds_outboxGet (key : String) :
    Obeys rule start index (get codec key) log := by
  refine Heeds.ends (heeds_get view codec key) fun result => ?_
  cases result <;> exact ⟨_, rfl⟩

theorem heeds_enqueue (entry : OutboxEntry)
    (permitted : ∀ later, log <+: later → ProperLog rule start later →
      rule index (storeAfter start later) later outboxNamespace entry.key (codec.encode entry)
        (some 0)) :
    Obeys rule start index (enqueue codec entry) log := by
  apply Heeds.seq (heeds_put view codec permitted)
  intro answer later _ _ _
  cases answer with
  | ok record => exact .returned
  | error error =>
    cases error with
    | conflict expected actual =>
      refine Heeds.ends (heeds_outboxGet entry.key) fun found => ?_
      rcases found with error | none | existing <;> exact ⟨_, rfl⟩
    | _ => exact .returned

theorem heeds_mutate (key : String) (change : OutboxEntry → OutboxEntry)
    (permitted : ∀ later record entry, log <+: later → ProperLog rule start later →
      WasRead start index outboxNamespace key record log later →
      codec.decode record.value = .ok entry →
      rule index (storeAfter start later) later outboxNamespace key (codec.encode (change entry))
        (some record.version)) :
    Obeys rule start index (mutate codec key change) log := by
  apply Heeds.seq (heeds_modify view codec key _ 8 ?_)
  · intro result later _ _ _
    cases result with
    | absent | written entry extra | contended | failed error => exact .returned
    | refused refusal => cases refusal
  · intro later record entry changed since proper read decoded same
    cases same
    exact permitted later record entry since proper read decoded

/-- The client has taken the entry in flight by a write of its own. -/
def WasClaimed (codec : Codec Value OutboxEntry) (index : Index) (entry : OutboxEntry)
    (log : List (StoreEvent Index Value)) : Prop :=
  entry.state = .inFlight ∧
    ∃ expected, WasWritten index outboxNamespace entry.key (codec.encode entry) expected log

theorem WasClaimed.mono {entry : OutboxEntry} {later : List (StoreEvent Index Value)}
    (claimed : WasClaimed codec index entry log) (isPrefix : log <+: later) :
    WasClaimed codec index entry later := by
  obtain ⟨inFlight, expected, written⟩ := claimed
  exact ⟨inFlight, expected, written.mono isPrefix⟩

variable (now : Instant)

theorem heeds_claimEach (limit : Nat) (candidates : List (OutboxEntry × Nat))
    (claimed : List OutboxEntry) (before : ∀ entry ∈ claimed, WasClaimed codec index entry log)
    (permitted : ∀ later entry version, log <+: later → ProperLog rule start later →
      (entry, version) ∈ candidates → entry.isDue (Instant.timestampMillis now) = true →
      rule index (storeAfter start later) later outboxNamespace entry.key
        (codec.encode (entry.held now)) (some version)) :
    Upholds rule start index (claimEach codec now limit candidates claimed)
      (fun result later => ∀ entries, result = .ok entries →
        ∀ entry ∈ entries, WasClaimed codec index entry later) log := by
  induction candidates generalizing log claimed with
  | nil =>
    apply Heeds.done
    intro later further _ entries same entry member
    cases same
    exact (before entry member).mono further
  | cons candidate rest ih =>
    obtain ⟨entry, version⟩ := candidate
    unfold claimEach
    split
    · apply Heeds.done
      intro later further _ entries same entry member
      cases same
      exact (before entry member).mono further
    · split
      · apply ih claimed before
        intro later entry version further proper member
        exact permitted later entry version further proper (List.mem_cons_of_mem _ member)
      · rename_i room due
        have isDue : entry.isDue (Instant.timestampMillis now) = true := by
          by_contra early
          exact due (by simp [Bool.eq_false_iff.mpr early])
        apply Heeds.seq (heeds_put view codec fun later further proper =>
          permitted later entry version further proper List.mem_cons_self isDue)
        intro answer written writtenPrefix _ wasWritten
        have restPermitted : ∀ later entry version, written <+: later →
            ProperLog rule start later → (entry, version) ∈ rest →
            entry.isDue (Instant.timestampMillis now) = true →
            rule index (storeAfter start later) later outboxNamespace entry.key
              (codec.encode (entry.held now)) (some version) := by
          intro later entry version further proper member
          exact permitted later entry version (writtenPrefix.trans further) proper
            (List.mem_cons_of_mem _ member)
        have kept : ∀ entry ∈ claimed, WasClaimed codec index entry written :=
          fun entry member => (before entry member).mono writtenPrefix
        cases answer with
        | ok record =>
          apply ih _ ?_ restPermitted
          intro other member
          rcases List.mem_append.mp member with old | new
          · exact kept other old
          · rw [List.mem_singleton.mp new]
            exact ⟨rfl, _, wasWritten record rfl⟩
        | error error =>
          cases error with
          | conflict expected actual => exact ih claimed kept restPermitted
          | _ => exact .done fun _ _ _ _ => nofun

theorem heeds_claimDue (limit : Nat)
    (permitted : ∀ later records record entry, log <+: later → ProperLog rule start later →
      WasListed start index outboxNamespace
        (max (saturatingMul64 limit 4) limit) records log later → record ∈ records →
        codec.decode record.value = .ok entry → entry.isDue (Instant.timestampMillis now) = true →
        rule index (storeAfter start later) later outboxNamespace entry.key
          (codec.encode (entry.held now)) (some record.version)) :
    Upholds rule start index (claimDue codec now limit)
      (fun result later => ∀ entries, result = .ok entries →
        ∀ entry ∈ entries, WasClaimed codec index entry later) log := by
  apply Heeds.seq (heeds_list view codec _)
  intro result listed since _ wasListed
  cases result with
  | error error => exact .done fun _ _ _ _ => nofun
  | ok candidates =>
    obtain ⟨records, fromStore, decodedAll⟩ := wasListed candidates rfl
    have none : ∀ entry ∈ ([] : List OutboxEntry), WasClaimed codec index entry listed :=
      fun _ member => absurd member List.not_mem_nil
    apply Heeds.seq (heeds_claimEach now limit candidates [] none ?_)
    · intro result last _ _ claimed
      cases result with
      | error error => exact .done fun _ _ _ _ => nofun
      | ok entries =>
        apply Heeds.done
        intro later further _ sorted same entry member
        cases same
        exact (claimed entries rfl entry ((List.mem_insertionSort _).mp member)).mono further
    · intro later entry version further proper member due
      obtain ⟨record, recordMem, decoded, rfl⟩ := NamespacedStore.mem_decodeAll decodedAll member
      exact permitted later records record entry (since.trans further) proper
        (fromStore.mono further) recordMem decoded due

theorem heeds_recoverEach (candidates : List (OutboxEntry × Nat)) (recovered : Nat)
    (permitted : ∀ later entry version queued, log <+: later → ProperLog rule start later →
      (entry, version) ∈ candidates → entry.recoverInFlight now = some queued →
      rule index (storeAfter start later) later outboxNamespace queued.key (codec.encode queued)
        (some version)) :
    Obeys rule start index (recoverEach codec now candidates recovered) log := by
  induction candidates generalizing log recovered with
  | nil => exact .returned
  | cons candidate rest ih =>
    obtain ⟨entry, version⟩ := candidate
    have restPermitted : ∀ written, log <+: written → ∀ later entry version queued,
        written <+: later → ProperLog rule start later → (entry, version) ∈ rest →
        entry.recoverInFlight now = some queued →
        rule index (storeAfter start later) later outboxNamespace queued.key
          (codec.encode queued) (some version) := by
      intro written since later entry version queued further proper member
      exact permitted later entry version queued (since.trans further) proper
        (List.mem_cons_of_mem _ member)
    unfold recoverEach
    split
    · exact ih recovered (restPermitted log List.prefix_rfl)
    · cases requeued : entry.recoverInFlight now with
      | none => exact ih recovered (restPermitted log List.prefix_rfl)
      | some queued =>
        apply Heeds.seq (heeds_put view codec fun later further proper =>
          permitted later entry version queued further proper List.mem_cons_self requeued)
        intro answer written since _ _
        cases answer with
        | ok record => exact ih _ (restPermitted written since)
        | error error =>
          cases error with
          | conflict expected actual => exact ih _ (restPermitted written since)
          | _ => exact .returned

theorem heeds_recover
    (permitted : ∀ later records record entry queued, log <+: later → ProperLog rule start later →
      WasListed start index outboxNamespace 1000 records log later → record ∈ records →
      codec.decode record.value = .ok entry → entry.recoverInFlight now = some queued →
      rule index (storeAfter start later) later outboxNamespace queued.key (codec.encode queued)
        (some record.version)) :
    Obeys rule start index (recover codec now) log := by
  apply Heeds.seq (heeds_list view codec 1000)
  intro result listed since _ wasListed
  cases result with
  | error error => exact .returned
  | ok candidates =>
    obtain ⟨records, fromStore, decodedAll⟩ := wasListed candidates rfl
    apply heeds_recoverEach now candidates 0
    intro later entry version queued further proper member requeued
    obtain ⟨record, recordMem, decoded, rfl⟩ := NamespacedStore.mem_decodeAll decodedAll member
    exact permitted later records record entry queued (since.trans further) proper
      (fromStore.mono further) recordMem decoded requeued

end Programs

end UltimateCoders.Governance
