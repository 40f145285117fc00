import UltimateCoders.Governance.Dispatch

/-! # Delivered entries

Any number of dispatchers work on one outbox. A claim writes over pending entries
only and a recovery over those in flight, so an entry that was delivered can only
be changed by a report. The report of a failed publication does not look at the
state it replaces.
-/

namespace UltimateCoders.Governance

open Transition RecordStore OutboxEntry StoreEvent List

universe u

variable {Index : Type u} {Value : Type}

inductive OutboxCall where
  | enqueue (entry : OutboxEntry)
  | claimDue (now : Instant) (limit : Nat)
  | markDelivered (key : String) (now : Instant)
  | scheduleRetry (key error : String) (now : Instant)
  | recover (now : Instant)

inductive OutboxAnswer where
  | enqueued (result : Except OutboxError OutboxEntry)
  | claimed (result : Except OutboxError (List OutboxEntry))
  | reported (result : Except OutboxError (Option OutboxEntry))
  | recovered (result : Except OutboxError Nat)

def OutboxCall.program (codec : Codec Value OutboxEntry) :
    OutboxCall → StoreProgram Value OutboxAnswer
  | enqueue entry => do return .enqueued (← OutboxQueue.enqueue codec entry)
  | claimDue now limit => do return .claimed (← OutboxQueue.claimDue codec now limit)
  | markDelivered key now => do return .reported (← OutboxQueue.markDelivered codec key now)
  | scheduleRetry key error now => do
      return .reported (← OutboxQueue.scheduleRetry codec key error now)
  | recover now => do return .recovered (← OutboxQueue.recover codec now)

/-- What a call makes of an entry that it has read. -/
def OutboxCall.Changes : OutboxCall → OutboxEntry → OutboxEntry → Prop
  | enqueue _, _, _ => False
  | claimDue now _, entry, changed => entry.state = .pending ∧ changed = entry.held now
  | markDelivered _ now, entry, changed => changed = entry.markDelivered now
  | scheduleRetry _ error now, entry, changed => changed = entry.scheduleRetry error now
  | recover now, entry, changed => entry.recoverInFlight now = some changed

/-- The call reports a failed publication. -/
def OutboxCall.isRetry : OutboxCall → Bool
  | scheduleRetry _ _ _ => true
  | _ => false

/-- Calls on one outbox, at some moment. -/
abbrev OutboxSession (Index : Type u) (Value : Type) :=
  Session Index (RecordStore Value) (StoreOperation Value) StoreOperation.Answer OutboxAnswer

section Rule

variable (codec : Codec Value OutboxEntry) (calls : Index → OutboxCall)

/-- Entries are stored under their own key. A write creates one, or is what the
call makes of the entry that it replaces. -/
def outboxRule : WriteRule Index Value := fun index store _ space key value expected =>
  space = outboxNamespace ∧ ∃ changed, value = codec.encode changed ∧ changed.key = key ∧
    (expected = some 0 ∨ ∃ version, expected = some version ∧ ∀ current,
      store.get space key = some current → current.version = version →
      ∃ entry, codec.decode current.value = .ok entry ∧ (calls index).Changes entry changed)

def StoredAs (store : RecordStore Value) (key : String) (state : OutboxState) : Prop :=
  ∃ record entry, store.get outboxNamespace key = some record ∧
    codec.decode record.value = .ok entry ∧ entry.state = state

def dispatching : OutboxSession Index Value :=
  ⟨.empty, fun index => (calls index).program codec, []⟩

/-- The step writes the report of a failed publication over a delivered entry. -/
def RetriesDelivered (before after : OutboxSession Index Value) : Prop :=
  ∃ event key, after.log = before.log ++ [event] ∧ (calls event.index).isRetry = true ∧
    wrote event = some (outboxNamespace, key) ∧
    StoredAs codec before.store key .delivered

end Rule

variable {codec : Codec Value OutboxEntry} {calls : Index → OutboxCall} {index : Index}
  {log later : List (StoreEvent Index Value)} {key : String}

@[simp] theorem OutboxEntry.scheduleRetry_key (entry : OutboxEntry) (error : String)
    (now : Instant) : (entry.scheduleRetry error now).key = entry.key := by
  unfold scheduleRetry
  dsimp only
  split <;> rfl

variable {record : Record Value} {entry : OutboxEntry}

theorem OutboxEntry.recoverInFlight_eq_some {queued : OutboxEntry} {now : Instant}
    (requeued : entry.recoverInFlight now = some queued) :
    entry.state = .inFlight ∧ queued.key = entry.key := by
  unfold recoverInFlight at requeued
  split at requeued
  · cases requeued
  · rename_i inFlight
    cases requeued
    exact ⟨not_not.mp inFlight, rfl⟩

theorem OutboxEntry.pending_of_isDue {nowMs : Int} (due : entry.isDue nowMs = true) :
    entry.state = .pending := by
  unfold isDue at due
  simp only [Bool.and_eq_true, decide_eq_true_eq] at due
  exact due.1

theorem key_of_stored (proper : ProperLog (outboxRule codec calls) .empty log)
    (found : (storeAfter .empty log).get outboxNamespace key = some record)
    (decoded : codec.decode record.value = .ok entry) : entry.key = key := by
  rcases origin_of_get proper log.nil_prefix found with
    initial | ⟨middle, event, expected, _, _, accepted, -, rfl⟩
  · cases initial
  · obtain ⟨-, changed, value, sameKey, -⟩ := accepted.ruled
    rw [value, codec.decode_encode, Except.ok.injEq] at decoded
    rw [← decoded, sameKey]

theorem outboxRule_of_read {changed : OutboxEntry}
    (decoded : codec.decode record.value = .ok entry)
    (current_eq : ∀ current, (storeAfter .empty later).get outboxNamespace key = some current →
      current.version = record.version → current = record)
    (changes : (calls index).Changes entry changed) (sameKey : changed.key = key) :
    outboxRule codec calls index (storeAfter .empty later) later outboxNamespace key
      (codec.encode changed) (some record.version) := by
  refine ⟨rfl, changed, rfl, sameKey, .inr ⟨record.version, rfl, ?_⟩⟩
  intro current found same
  rw [current_eq current found same]
  exact ⟨entry, decoded, changes⟩

theorem listed_entry {limit : Nat} {records : List (Record Value)}
    (proper : ProperLog (outboxRule codec calls) .empty later)
    (listed : WasListed .empty index outboxNamespace limit records log later)
    (member : record ∈ records) (decoded : codec.decode record.value = .ok entry) :
    entry.key = record.key ∧
      ∀ current, (storeAfter .empty later).get outboxNamespace entry.key = some current →
        current.version = record.version → current = record := by
  obtain ⟨earlier, _, logged, same⟩ := id listed
  have within := (prefix_append earlier _).trans logged
  have stored : (storeAfter .empty earlier).get outboxNamespace record.key = some record :=
    get_of_mem_list (same ▸ member)
  have sameKey := key_of_stored (proper.of_prefix within) stored decoded
  refine ⟨sameKey, fun current found version => ?_⟩
  rw [sameKey] at found
  exact listed.current_eq member proper found version

theorem heeds_report (change : OutboxEntry → OutboxEntry)
    (keeps : ∀ entry, (change entry).key = entry.key)
    (changes : ∀ entry, (calls index).Changes entry (change entry)) :
    Obeys (outboxRule codec calls) .empty index (OutboxQueue.mutate codec key change) log := by
  apply heeds_mutate key change
  intro later record entry _ proper read decoded
  obtain ⟨earlier, _, logged, found⟩ := id read
  have within := (prefix_append earlier _).trans logged
  have sameKey := key_of_stored (proper.of_prefix within) found decoded
  apply outboxRule_of_read decoded _ (changes entry)
  · rw [keeps, sameKey]
  · intro current stored version
    exact read.current_eq proper stored version

/-- What a returned call has established: it has claimed what it returns. -/
def Claims (codec : Codec Value OutboxEntry) (index : Index) (answer : OutboxAnswer)
    (log : List (StoreEvent Index Value)) : Prop :=
  ∀ entries, answer = .claimed (.ok entries) → ∀ entry ∈ entries, WasClaimed codec index entry log

theorem heeds_outboxCall (index : Index) :
    Upholds (outboxRule codec calls) .empty index ((calls index).program codec)
      (Claims codec index) log := by
  cases call : calls index with
  | enqueue entry =>
    apply Program.Heeds.seq (heeds_enqueue entry ?_)
    · exact fun _ _ _ _ _ => .done fun _ _ _ _ => nofun
    · exact fun _ _ _ => ⟨rfl, entry, rfl, rfl, .inl rfl⟩
  | claimDue now limit =>
    apply Program.Heeds.seq (heeds_claimDue now limit ?_)
    · intro result claimed _ _ post
      apply Program.Heeds.done
      intro later further _ entries same entry member
      cases same
      exact (post entries rfl entry member).mono further
    · intro later records record entry _ proper listed member decoded due
      obtain ⟨-, current_eq⟩ := listed_entry proper listed member decoded
      have changes : (calls index).Changes entry (entry.held now) := by
        rw [call]
        exact ⟨pending_of_isDue due, rfl⟩
      exact outboxRule_of_read decoded current_eq changes rfl
  | markDelivered key now =>
    have changes : ∀ entry, (calls index).Changes entry (entry.markDelivered now) := by
      intro entry
      rw [call]
      rfl
    apply Program.Heeds.seq (heeds_report (fun entry => entry.markDelivered now) (fun _ => rfl) changes)
    exact fun _ _ _ _ _ => .done fun _ _ _ _ => nofun
  | scheduleRetry key error now =>
    have changes : ∀ entry, (calls index).Changes entry (entry.scheduleRetry error now) := by
      intro entry
      rw [call]
      rfl
    apply Program.Heeds.seq
      (heeds_report _ (fun entry => entry.scheduleRetry_key error now) changes)
    exact fun _ _ _ _ _ => .done fun _ _ _ _ => nofun
  | recover now =>
    apply Program.Heeds.seq (heeds_recover now ?_)
    · exact fun _ _ _ _ _ => .done fun _ _ _ _ => nofun
    · intro later records record entry queued _ proper listed member decoded requeued
      obtain ⟨sameKey, current_eq⟩ := listed_entry proper listed member decoded
      have queuedKey := (recoverInFlight_eq_some requeued).2
      have changes : (calls index).Changes entry queued := by
        rw [call]
        exact requeued
      rw [queuedKey]
      exact outboxRule_of_read decoded current_eq changes queuedKey

/-- An event that may come next leaves a delivered entry delivered, unless it is the
report of a failed publication; and it is no claim of that entry. -/
theorem delivered_of_event {event : StoreEvent Index Value}
    (proper : ProperLog (outboxRule codec calls) .empty log)
    (allowed : AllowsEvent (outboxRule codec calls) .empty log event)
    (delivered : StoredAs codec (storeAfter .empty log) key .delivered)
    (calm : (calls event.index).isRetry = true → wrote event ≠ some (outboxNamespace, key)) :
    StoredAs codec (storeAfter .empty (log ++ [event])) key .delivered ∧
      (wrote event = some (outboxNamespace, key) →
        ∀ now limit, calls event.index ≠ .claimDue now limit) := by
  obtain ⟨record, entry, found, decoded, state⟩ := delivered
  rcases accepted_cases allowed with ⟨silent, same⟩ | ⟨expected, written, accepted, wrote, stored⟩
  · rw [same, silent]
    exact ⟨⟨record, entry, found, decoded, state⟩, nofun⟩
  · by_cases here : written.space = outboxNamespace ∧ written.key = key
    · obtain ⟨space, rfl⟩ := here
      obtain ⟨-, changed, value, -, created | replaced⟩ := accepted.ruled
      · -- nothing is created where there is an entry
        subst created
        rw [← space] at found
        have zero := accepted.version_expected found
        exact absurd zero (version_ne_zero proper (fun _ initial => by cases initial) found)
      · obtain ⟨version, rfl, replaced⟩ := replaced
        rw [← space] at found
        obtain ⟨other, otherDecoded, changes⟩ :=
          replaced record found (accepted.version_expected found)
        rw [decoded, Except.ok.injEq] at otherDecoded
        subst otherDecoded
        rw [wrote, space] at calm ⊢
        have storedNow : (storeAfter .empty (log ++ [event])).get outboxNamespace written.key =
            some written := by
          rw [stored, ← space]
          exact get_insert_self
        cases call : calls event.index with
        | enqueue entry => exact (call ▸ changes).elim
        | claimDue now limit =>
          rw [call] at changes
          cases state.symm.trans changes.1
        | markDelivered key now =>
          rw [call] at changes
          refine ⟨⟨written, changed, storedNow, ?_, ?_⟩, fun _ _ _ => nofun⟩
          · rw [value, codec.decode_encode]
          · rw [changes]
            rfl
        | scheduleRetry key error now => exact absurd rfl (calm (by rw [call]; rfl))
        | recover now =>
          rw [call] at changes
          cases state.symm.trans (recoverInFlight_eq_some changes).1
    · refine ⟨⟨record, entry, ?_, decoded, state⟩, ?_⟩
      · rw [stored, get_insert_of_ne here]
        exact found
      · intro elsewhere
        rw [wrote, Option.some.injEq, Prod.mk.injEq] at elsewhere
        exact absurd elsewhere here

theorem delivered_of_log (proper : ProperLog (outboxRule codec calls) .empty later)
    (isPrefix : log <+: later) (delivered : StoredAs codec (storeAfter .empty log) key .delivered)
    (calm : ∀ earlier event, log <+: earlier → earlier ++ [event] <+: later →
      StoredAs codec (storeAfter .empty earlier) key .delivered →
      (calls event.index).isRetry = true →
      wrote event ≠ some (outboxNamespace, key)) :
    StoredAs codec (storeAfter .empty later) key .delivered := by
  obtain ⟨rest, rfl⟩ := isPrefix
  induction rest using reverseRecOn with
  | nil => simpa using delivered
  | append_singleton rest event ih =>
    rw [← append_assoc] at proper calm ⊢
    have within := prefix_append (log ++ rest) [event]
    have before := ih (proper.of_prefix within) fun earlier event since inside =>
      calm earlier event since (inside.trans within)
    exact (delivered_of_event (proper.of_prefix within) (proper _ event prefix_rfl) before
      (calm _ event (prefix_append _ _) prefix_rfl before)).1

variable [DecidableEq Index] {middle target : OutboxSession Index Value}
  {moves more : List (Index × Circumstance)}

theorem accounted_of_dispatching
    (run : Run (serves execute) (dispatching codec calls) moves target) :
    target.Accounted recordService (writing (outboxRule codec calls)) .empty (Claims codec) :=
  Session.accounted_of_run heeds_outboxCall run

/-- No step of the run writes the report of a failed publication over a delivered entry. -/
theorem calm_of_run
    (first : Run (serves execute) (dispatching codec calls) moves middle)
    (second : Run (fun before move after => serves execute before move after ∧
      ¬ RetriesDelivered codec calls before after) middle more target)
    (earlier : List (StoreEvent Index Value)) (event : StoreEvent Index Value)
    (since : middle.log <+: earlier) (within : earlier ++ [event] <+: target.log)
    (delivered : StoredAs codec (storeAfter .empty earlier) key .delivered)
    (retry : (calls event.index).isRetry = true) :
    wrote event ≠ some (outboxNamespace, key) := by
  intro wrote
  obtain ⟨before, move, after, path, reached, taken, rfl, there⟩ :=
    Session.step_of_event (fun _ _ _ step => step.1) second since within
  have account := accounted_of_dispatching (first.append (reached.mono fun _ _ _ step => step.1))
  have same : before.store = storeAfter .empty before.log := account.store_eq
  rw [← same] at delivered
  exact taken.2 ⟨event, key, there, retry, wrote, delivered⟩

/-- In every run in which no report of a failed publication is written over a
delivered entry, delivered entries stay delivered, and whoever returns one as
claimed had claimed it before it was delivered. -/
theorem delivered_of_run
    (first : Run (serves execute) (dispatching codec calls) moves middle)
    (second : Run (fun before move after => serves execute before move after ∧
      ¬ RetriesDelivered codec calls before after) middle more target)
    (delivered : StoredAs codec middle.store key .delivered) :
    StoredAs codec target.store key .delivered ∧
      ∀ index now limit entries, calls index = .claimDue now limit →
        target.calls index = .done (.claimed (.ok entries)) → ∀ entry ∈ entries, entry.key = key →
          ∃ event ∈ middle.log, event.index = index ∧
            wrote event = some (outboxNamespace, key) := by
  have served : Run (serves execute) middle more target :=
    second.mono fun _ _ _ step => step.1
  have account := accounted_of_dispatching (first.append served)
  have onward := Session.log_prefix_run served
  rw [(accounted_of_dispatching first).store_eq] at delivered
  have stays : ∀ later, middle.log <+: later → later <+: target.log →
      StoredAs codec (storeAfter .empty later) key .delivered := by
    intro later since within
    exact delivered_of_log (account.proper.of_prefix within) since delivered
      fun earlier event begun inside =>
        calm_of_run first second earlier event begun (inside.trans within)
  refine ⟨?_, ?_⟩
  · rw [account.store_eq]
    exact stays target.log onward prefix_rfl
  · intro index now limit entries call returned entry member sameKey
    obtain ⟨-, expected, earlier, record, logged⟩ :=
      account.returned index _ returned entries rfl entry member
    by_cases since : middle.log <+: earlier
    · -- a claim of a delivered entry would be refused
      have before := stays earlier since ((prefix_append _ _).trans logged)
      have claimed := (delivered_of_event (account.proper.of_prefix
        ((prefix_append _ _).trans logged)) (account.proper _ _ logged) before
        (calm_of_run first second _ _ since logged before)).2
      exact absurd call (claimed (by rw [← sameKey]; rfl) now limit)
    · have inside : earlier ++ [⟨index, .put outboxNamespace entry.key (codec.encode entry) expected,
          .ok record⟩] <+: middle.log := by
        rcases prefix_or_prefix_of_prefix onward logged with shorter | longer
        · rcases prefix_concat_iff.mp shorter with same | within
          · rw [same]
          · exact absurd within since
        · exact longer
      refine ⟨_, inside.subset (mem_append_right _ mem_cons_self), rfl, ?_⟩
      rw [← sameKey]
      rfl

def plainOutbox : Codec OutboxEntry OutboxEntry := ⟨id, .ok, fun _ => rfl⟩

/-- Two dispatchers hold one entry, the second after a recovery at boot; the first
publishes it, the second fails to; a third one claims a minute later. -/
def twoHolders : Nat → OutboxCall
  | 0 => .enqueue (.new "k1" "uc.task.submit" "\x7b\x7d" 0)
  | 1 => .claimDue 0 1
  | 2 => .recover 0
  | 3 => .claimDue 0 1
  | 4 => .markDelivered "k1" 0
  | 5 => .scheduleRetry "k1" "nats unavailable" 0
  | 6 => .claimDue 60000000000 1
  | _ => .recover 0

/-- A client is served, and the backend is there. -/
def served (index : Nat) : Nat × Circumstance := (index, ⟨0, none⟩)

/-- The first holder has reported its publication. -/
def onceDelivered : OutboxSession Nat OutboxEntry :=
  ([0, 1, 1, 2, 2, 3, 3, 4, 4].map served).foldl (Session.serve execute)
    (dispatching plainOutbox twoHolders)

theorem delivered_of_run_twoHolders :
    StoredAs plainOutbox onceDelivered.store "k1" .delivered ∧
      StoredAs plainOutbox (onceDelivered.serve execute (served 6)).store "k1"
        .delivered := by
  have delivered : StoredAs plainOutbox onceDelivered.store "k1" .delivered :=
    ⟨_, _, rfl, rfl, rfl⟩
  have careful : ¬ RetriesDelivered plainOutbox twoHolders onceDelivered
      (onceDelivered.serve execute (served 6)) := by
    rintro ⟨event, key, logged, retry, -⟩
    have last := append_cancel_left
      (logged : onceDelivered.log ++ [⟨6, _, _⟩] = onceDelivered.log ++ [event])
    cases last
    cases retry
  exact ⟨delivered, (delivered_of_run (run_serves _ _) (.cons ⟨rfl, careful⟩ (.nil _)) delivered).1⟩

/-- The report of the second holder makes the delivered entry pending again, and it
is claimed once more. -/
theorem delivered_fails_twoHolders :
    ∃ target : OutboxSession Nat OutboxEntry,
      Run (serves execute) (dispatching plainOutbox twoHolders)
        ([0, 1, 1, 2, 2, 3, 3, 4, 4].map served) onceDelivered ∧
      Run (serves execute) onceDelivered ([5, 5, 6, 6].map served) target ∧
      StoredAs plainOutbox onceDelivered.store "k1" .delivered ∧
      StoredAs plainOutbox target.store "k1" .inFlight ∧
      ∃ entry, target.calls 6 = .done (.claimed (.ok [entry])) ∧ entry.key = "k1" ∧
        ∀ event ∈ onceDelivered.log, event.index ≠ 6 :=
  ⟨_, run_serves _ _, run_serves _ _, ⟨_, _, rfl, rfl, rfl⟩, ⟨_, _, rfl, rfl, rfl⟩, _, rfl, rfl,
    by decide⟩

end UltimateCoders.Governance
