import UltimateCoders.Governance.History
import UltimateCoders.Governance.Listing
import UltimateCoders.Governance.TriggerInbox
import UltimateCoders.Transition.Protocol

/-! # Routed once

Deliveries of one event race for its record. The one that creates it fans the event out; the
others are duplicates. The event is routed exactly once if all deliveries have one key, and the
delivery that has recorded the event is neither stopped nor failed after that.
-/

namespace UltimateCoders.Governance

open Transition RecordStore TriggerInbox Function

variable {Index Value : Type} {serde : InboxSerde Value} {sha256Hex : String → String}

/-! ## How a delivery proceeds -/

inductive IngestStage where
  | recording
  /-- It has recorded the event. -/
  | listing
  | delivering (listed : List (Subscription × Nat))
  | duplicate
  /-- It has failed before the event was recorded. -/
  | refused
  /-- It has failed after it has recorded the event. -/
  | lost

def IngestStage.Recorded : IngestStage → Prop
  | listing | delivering _ | lost => True
  | recording | duplicate | refused => False

structure IngestPhase where
  event : DeliveredEvent
  now : Instant
  stage : IngestStage

def ingestion (serde : InboxSerde Value) (sha256Hex : String → String) :
    Protocol (StoreOperation Value) StoreOperation.Answer IngestPhase where
  permits phase operation :=
    match phase.stage with
    | .recording => operation = .put triggerNamespace (phase.event.dedupKey sha256Hex)
        (serde.event.encode phase.event) (some 0)
    | .listing => operation = .list subscriptionNamespace 1000
    | .delivering listed => ∃ entry ∈ listed, operation = .put subscriptionNamespace entry.1.id
        (serde.subscription.encode (entry.1.recordEvent phase.now)) (some entry.2)
    | _ => False
  next phase operation answer :=
    match phase.stage, operation, answer with
    | .recording, .put _ _ _ _, .ok _ => { phase with stage := .listing }
    | .recording, .put _ _ _ _, .error (.conflict _ _) => { phase with stage := .duplicate }
    | .recording, .put _ _ _ _, .error _ => { phase with stage := .refused }
    | .listing, .list _ _, .ok records =>
      match NamespacedStore.decodeAll serde.subscription records with
      | .ok listed => { phase with stage := .delivering listed }
      | .error _ => { phase with stage := .lost }
    | .listing, .list _ _, .error _ => { phase with stage := .lost }
    | .delivering _, .put _ _ _ _, .error (.conflict _ _) => phase
    | .delivering _, .put _ _ _ _, .error _ => { phase with stage := .lost }
    | _, _, _ => phase

/-- In which stages a delivery ends, and what it returns there. -/
def IngestEnds (sha256Hex : String → String) (result : Except TriggerInboxError IngestOutcome)
    (phase : IngestPhase) : Prop :=
  match result with
  | .ok outcome =>
    (∃ listed, phase.stage = .delivering listed ∧
      outcome = accepted sha256Hex phase.event (routedBy phase.event listed {})) ∨
    (phase.stage = .duplicate ∧
      outcome = .ofDuplicate phase.event.id (phase.event.dedupKey sha256Hex))
  | .error _ => phase.stage = .refused ∨ phase.stage = .lost

theorem follows_fanOut {event : DeliveredEvent} {now : Instant}
    {listed rest : List (Subscription × Nat)} {routed : Routed}
    (within : ∀ entry ∈ rest, entry ∈ listed) :
    (fanOut serde sha256Hex event now rest routed).Follows
      (ingestion serde sha256Hex) (fun _ _ => True)
      (fun result later => match result with
        | .ok outcome => later = ⟨event, now, .delivering listed⟩ ∧
            outcome = accepted sha256Hex event (routedBy event rest routed)
        | .error _ => later.stage = .lost)
      ⟨event, now, .delivering listed⟩ := by
  induction rest generalizing routed with
  | nil => exact ⟨rfl, rfl⟩
  | cons entry rest ih =>
    obtain ⟨subscription, version⟩ := entry
    have onward := fun routed => @ih routed fun other member =>
      within other (List.mem_cons_of_mem _ member)
    unfold fanOut
    by_cases taken : subscription.takes event = true
    · have joined : routedBy event ((subscription, version) :: rest) routed =
          routedBy event rest (routed.add subscription) := by
        simp [routedBy, taken]
      rw [if_pos taken, joined]
      refine ⟨⟨_, within _ List.mem_cons_self, rfl⟩, fun answer _ => ?_⟩
      cases answer with
      | ok record => exact onward _
      | error error =>
        cases error with
        | conflict expected actual => exact onward _
        | _ => exact rfl
    · have joined : routedBy event ((subscription, version) :: rest) routed =
          routedBy event rest routed := by
        simp [routedBy, taken]
      rw [if_neg taken, joined]
      exact onward _

theorem follows_ingest (event : DeliveredEvent) (now : Instant) :
    (ingest serde sha256Hex event now).Follows (ingestion serde sha256Hex)
      (fun _ _ => True) (IngestEnds sha256Hex) ⟨event, now, .recording⟩ := by
  refine ⟨rfl, fun answer _ => ?_⟩
  cases answer with
  | error error =>
    cases error with
    | conflict expected actual => exact .inr ⟨rfl, rfl⟩
    | _ => exact .inl rfl
  | ok record =>
    refine ⟨rfl, fun answer _ => ?_⟩
    cases answer with
    | error error => exact .inr rfl
    | ok records =>
      simp only [Program.bind, ingestion]
      cases NamespacedStore.decodeAll serde.subscription records with
      | error error => exact .inr rfl
      | ok listed =>
        refine (follows_fanOut fun _ member => member).weaken fun result later ended => ?_
        cases result with
        | error error => exact .inr ended
        | ok outcome =>
          obtain ⟨rfl, rfl⟩ := ended
          exact .inl ⟨listed, rfl, rfl⟩

/-! ## What the store and the stages tell of each other -/

/-- Two subscriptions take the same events for the same case. -/
structure Subscription.SameRoute (first second : Subscription) : Prop where
  id : first.id = second.id
  case : first.caseId = second.caseId
  source : first.source = second.source
  filter : first.filter = second.filter
  active : first.active = second.active

variable {first second : Subscription}

theorem Subscription.SameRoute.takes_eq (same : first.SameRoute second) (event : DeliveredEvent) :
    first.takes event = second.takes event := by
  simp only [takes, same.source, same.filter, same.active]

theorem Subscription.SameRoute.recordEvent (same : first.SameRoute second) (now : Instant) :
    (first.recordEvent now).SameRoute second :=
  ⟨same.id, same.case, same.source, same.filter, same.active⟩

def HoldsSubscription (serde : InboxSerde Value) (store : RecordStore Value) (id : String)
    (subscription : Subscription) : Prop :=
  ∃ record, store.get subscriptionNamespace id = some record ∧
    serde.subscription.decode record.value = .ok subscription

/-- There are no more subscriptions than a listing shows, each under its id. -/
structure SubscriptionsFiled (serde : InboxSerde Value) (start : RecordStore Value) : Prop where
  filed : ∀ id record, start.get subscriptionNamespace id = some record →
    ∃ subscription, serde.subscription.decode record.value = .ok subscription ∧ subscription.id = id
  few : start.count subscriptionNamespace ≤ 1000

/-- Subscriptions are where they were, but for what they have counted. -/
structure SubscriptionsKept (serde : InboxSerde Value) (start store : RecordStore Value) :
    Prop where
  present : ∀ id, (store.get subscriptionNamespace id).isSome =
    (start.get subscriptionNamespace id).isSome
  same : ∀ id record, store.get subscriptionNamespace id = some record →
    ∃ subscription original, serde.subscription.decode record.value = .ok subscription ∧
      HoldsSubscription serde start id original ∧ subscription.SameRoute original ∧
      subscription.id = id

structure ListsAll (serde : InboxSerde Value) (start : RecordStore Value)
    (listed : List (Subscription × Nat)) : Prop where
  sound : ∀ entry ∈ listed, ∃ original, HoldsSubscription serde start entry.1.id original ∧
    entry.1.SameRoute original
  complete : ∀ id original, HoldsSubscription serde start id original →
    ∃ entry ∈ listed, entry.1.SameRoute original

/-- What holds throughout, as long as nothing fails after the event was recorded. -/
structure InboxHolds (serde : InboxSerde Value) (events : Index → DeliveredEvent)
    (start : RecordStore Value) (key : String) (phases : Index → IngestPhase)
    (store : RecordStore Value) (log : List (StoreEvent Index Value)) : Prop where
  own : ∀ index, (phases index).event = events index
  unrecorded : (∀ index, ¬ (phases index).stage.Recorded) → store.get triggerNamespace key = none
  recorded : ∀ index, (phases index).stage.Recorded →
    ∃ record, store.get triggerNamespace key = some record ∧ record.version ≠ 0
  logged : ∀ index, (phases index).stage.Recorded →
    ∃ event ∈ log, event.index = index ∧ StoreEvent.wrote event = some (triggerNamespace, key)
  one : ∀ index other, (phases index).stage.Recorded → (phases other).stage.Recorded → index = other
  duplicate : ∀ index, (phases index).stage = .duplicate →
    ∃ creator, (phases creator).stage.Recorded
  kept : ∀ index, (phases index).stage ≠ .lost
  subscriptions : SubscriptionsKept serde start store
  listed : ∀ index listed, (phases index).stage = .delivering listed → ListsAll serde start listed

section Step

variable [DecidableEq Index] {events : Index → DeliveredEvent}
  {start store after : RecordStore Value} {key : String} {phases : Index → IngestPhase}
  {log : List (StoreEvent Index Value)}
  {index : Index} {later : IngestPhase} {event : StoreEvent Index Value}

/-- A delivery goes on without recording the event now. -/
theorem InboxHolds.keep (holds : InboxHolds serde events start key phases store log)
    (sameEvent : later.event = (phases index).event)
    (sameRecorded : later.stage.Recorded ↔ (phases index).stage.Recorded)
    (sameRecord : after.get triggerNamespace key = store.get triggerNamespace key)
    (duplicate : later.stage = .duplicate → ∃ creator, (phases creator).stage.Recorded)
    (kept : later.stage ≠ .lost) (subscriptions : SubscriptionsKept serde start after)
    (listed : ∀ listed, later.stage = .delivering listed → ListsAll serde start listed) :
    InboxHolds serde events start key (update phases index later) after
      (log ++ [event]) := by
  have recorded_iff : ∀ other, (update phases index later other).stage.Recorded ↔
      (phases other).stage.Recorded := by
    intro other
    by_cases same : other = index
    · subst same
      rw [update_self]
      exact sameRecorded
    · rw [update_of_ne same]
  refine ⟨fun other => ?_, fun nobody => ?_, fun other recorded => ?_, fun other recorded => ?_,
    fun one other recorded alsoRecorded => ?_, fun other stage => ?_, fun other => ?_,
    subscriptions, fun other entries stage => ?_⟩
  · by_cases same : other = index
    · subst same
      rw [update_self, sameEvent, holds.own]
    · rw [update_of_ne same, holds.own]
  · rw [sameRecord]
    exact holds.unrecorded fun other recorded => nobody other ((recorded_iff other).mpr recorded)
  · rw [sameRecord]
    exact holds.recorded other ((recorded_iff other).mp recorded)
  · obtain ⟨earlier, member, wrote⟩ := holds.logged other ((recorded_iff other).mp recorded)
    exact ⟨earlier, List.mem_append_left _ member, wrote⟩
  · exact holds.one one other ((recorded_iff one).mp recorded)
      ((recorded_iff other).mp alsoRecorded)
  · simp only [recorded_iff]
    by_cases same : other = index
    · subst same
      rw [update_self] at stage
      exact duplicate stage
    · rw [update_of_ne same] at stage
      exact holds.duplicate other stage
  · by_cases same : other = index
    · subst same
      rw [update_self]
      exact kept
    · rw [update_of_ne same]
      exact holds.kept other
  · by_cases same : other = index
    · subst same
      rw [update_self] at stage
      exact listed entries stage
    · rw [update_of_ne same] at stage
      exact holds.listed other entries stage

/-- A delivery records the event. -/
theorem InboxHolds.record (holds : InboxHolds serde events start key phases store log)
    (nobody : ∀ other, ¬ (phases other).stage.Recorded) {record : Record Value}
    (space : record.space = triggerNamespace) (sameKey : record.key = key)
    (version : record.version ≠ 0) (own : event.index = index)
    (wrote : StoreEvent.wrote event = some (triggerNamespace, key)) :
    InboxHolds serde events start key
      (update phases index { phases index with stage := .listing }) (store.insert record)
      (log ++ [event]) := by
  have elsewhere : ∀ id, (store.insert record).get subscriptionNamespace id =
      store.get subscriptionNamespace id := by
    intro id
    apply get_insert_of_ne
    rintro ⟨here, -⟩
    exact absurd (here.symm.trans space) (by decide)
  have recorded_iff : ∀ other, (update phases index
      { phases index with stage := .listing } other).stage.Recorded ↔ other = index := by
    intro other
    by_cases same : other = index
    · subst same
      rw [update_self]
      exact ⟨fun _ => rfl, fun _ => trivial⟩
    · rw [update_of_ne same]
      exact ⟨fun recorded => (nobody other recorded).elim, fun impossible => (same impossible).elim⟩
  have stored : (store.insert record).get triggerNamespace key = some record := by
    rw [← space, ← sameKey]
    exact get_insert_self
  refine ⟨fun other => ?_, fun unrecorded => ?_, fun _ _ => ⟨record, stored, version⟩,
    fun other recorded => ?_, fun one other recorded alsoRecorded => ?_, fun other stage => ?_,
    fun other => ?_, ?_, fun other entries stage => ?_⟩
  · by_cases same : other = index
    · subst same
      rw [update_self, holds.own]
    · rw [update_of_ne same, holds.own]
  · exact (unrecorded index ((recorded_iff index).mpr rfl)).elim
  · obtain rfl := (recorded_iff other).mp recorded
    exact ⟨event, List.mem_append_right _ List.mem_cons_self, own, wrote⟩
  · rw [(recorded_iff one).mp recorded, (recorded_iff other).mp alsoRecorded]
  · exact ⟨index, (recorded_iff index).mpr rfl⟩
  · by_cases same : other = index
    · subst same
      rw [update_self]
      exact nofun
    · rw [update_of_ne same]
      exact holds.kept other
  · refine ⟨fun id => ?_, fun id found stored => ?_⟩
    · rw [elsewhere]
      exact holds.subscriptions.present id
    · rw [elsewhere] at stored
      exact holds.subscriptions.same id found stored
  · by_cases same : other = index
    · subst same
      rw [update_self] at stage
      cases stage
    · rw [update_of_ne same] at stage
      exact holds.listed other entries stage

end Step

section Subscriptions

variable {start store : RecordStore Value}

theorem HoldsSubscription.eq {id : String} (holds : HoldsSubscription serde start id first)
    (also : HoldsSubscription serde start id second) : first = second := by
  obtain ⟨record, found, decoded⟩ := holds
  obtain ⟨other, otherFound, otherDecoded⟩ := also
  rw [found, Option.some.injEq] at otherFound
  subst otherFound
  rw [decoded, Except.ok.injEq] at otherDecoded
  exact otherDecoded

theorem SubscriptionsKept.of_filed (filed : SubscriptionsFiled serde start) :
    SubscriptionsKept serde start start := by
  refine ⟨fun _ => rfl, fun id record found => ?_⟩
  obtain ⟨subscription, decoded, same⟩ := filed.filed id record found
  exact ⟨subscription, subscription, decoded, ⟨record, found, decoded⟩, ⟨rfl, rfl, rfl, rfl, rfl⟩,
    same⟩

theorem SubscriptionsKept.listed (kept : SubscriptionsKept serde start store)
    (few : start.count subscriptionNamespace ≤ 1000) :
    ∃ listed, NamespacedStore.decodeAll serde.subscription
        (store.list subscriptionNamespace 1000) = .ok listed ∧ ListsAll serde start listed := by
  have small : store.count subscriptionNamespace ≤ 1000 := by
    rwa [count_eq_of_isSome kept.present]
  have readable : Readable serde.subscription (store.list subscriptionNamespace 1000) := by
    intro record member
    obtain ⟨subscription, -, decoded, -⟩ :=
      kept.same _ record ((mem_list_iff_get small).mp member)
    exact ⟨subscription, decoded⟩
  obtain ⟨listed, all, members⟩ := decodeAll_of_readable readable
  refine ⟨listed, all, ⟨fun entry member => ?_, fun id original holds => ?_⟩⟩
  · obtain ⟨record, within, decoded, -⟩ := (members entry.1 entry.2).mp member
    obtain ⟨subscription, original, alsoDecoded, holds, same, own⟩ :=
      kept.same _ record ((mem_list_iff_get small).mp within)
    rw [decoded, Except.ok.injEq] at alsoDecoded
    subst alsoDecoded
    rw [← own] at holds
    exact ⟨original, holds, same⟩
  · obtain ⟨first, firstFound, firstDecoded⟩ := holds
    have present := kept.present id
    rw [firstFound, Option.isSome_some] at present
    obtain ⟨record, found⟩ := Option.isSome_iff_exists.mp present
    obtain ⟨subscription, other, decoded, otherHolds, same, -⟩ := kept.same id record found
    obtain rfl := HoldsSubscription.eq ⟨first, firstFound, firstDecoded⟩ otherHolds
    have within : record ∈ store.list subscriptionNamespace 1000 := by
      rw [mem_list_iff_get small, (key_of_get found).2]
      exact found
    exact ⟨(subscription, record.version),
      (members subscription record.version).mpr ⟨record, within, decoded, rfl⟩, same⟩

theorem SubscriptionsKept.insert (kept : SubscriptionsKept serde start store)
    {subscription original : Subscription} {record : Record Value}
    (holds : HoldsSubscription serde start subscription.id original)
    (same : subscription.SameRoute original) (space : record.space = subscriptionNamespace)
    (sameKey : record.key = subscription.id)
    (decoded : serde.subscription.decode record.value = .ok subscription) :
    SubscriptionsKept serde start (store.insert record) := by
  have stored : (store.insert record).get subscriptionNamespace subscription.id = some record := by
    rw [← space, ← sameKey]
    exact get_insert_self
  have elsewhere : ∀ id, id ≠ subscription.id →
      (store.insert record).get subscriptionNamespace id = store.get subscriptionNamespace id := by
    intro id different
    exact get_insert_of_ne fun here => different (here.2.symm.trans sameKey)
  obtain ⟨first, found, firstDecoded⟩ := holds
  refine ⟨fun id => ?_, fun id other otherStored => ?_⟩
  · by_cases here : id = subscription.id
    · subst here
      rw [stored, found]
      rfl
    · rw [elsewhere id here]
      exact kept.present id
  · by_cases here : id = subscription.id
    · subst here
      rw [stored, Option.some.injEq] at otherStored
      subst otherStored
      exact ⟨subscription, original, decoded, ⟨first, found, firstDecoded⟩, same, rfl⟩
    · rw [elsewhere id here] at otherStored
      exact kept.same id other otherStored

end Subscriptions

section Step

variable [DecidableEq Index] {events : Index → DeliveredEvent} {start store : RecordStore Value}
  {key : String} {phases : Index → IngestPhase} {log : List (StoreEvent Index Value)}
  {index : Index} {operation : StoreOperation Value} {circumstance : Circumstance}

/-- What one operation of a delivery preserves. -/
theorem InboxHolds.step (filed : SubscriptionsFiled serde start)
    (sameKey : ∀ index, (events index).dedupKey sha256Hex = key)
    (holds : InboxHolds serde events start key phases store log)
    (permitted : (ingestion serde sha256Hex).permits (phases index) operation)
    (unfailing : (phases index).stage.Recorded → circumstance.failure = none) :
    InboxHolds serde events start key
      (update phases index ((ingestion serde sha256Hex).next (phases index) operation
        (execute circumstance operation store).1))
      (execute circumstance operation store).2
      (log ++ [⟨index, operation, (execute circumstance operation store).1⟩]) := by
  obtain ⟨now, failure⟩ := circumstance
  cases stage : (phases index).stage with
  | duplicate | refused | lost => simp only [ingestion, stage] at permitted
  | recording =>
    simp only [ingestion, stage] at permitted
    rw [holds.own, sameKey] at permitted
    subst permitted
    cases failure with
    | some detail =>
      simp only [execute, StoreOperation.refuse, ingestion, stage]
      exact holds.keep rfl (by rw [stage]; exact Iff.rfl) rfl
        (fun other => by cases other) (fun other => by cases other)
        holds.subscriptions fun _ other => by cases other
    | none =>
      have positive : ∀ current, store.get triggerNamespace key = some current →
          current.version ≠ 0 := by
        intro current found
        by_cases somebody : ∃ other, (phases other).stage.Recorded
        · obtain ⟨creator, created⟩ := somebody
          obtain ⟨record, alsoFound, positive⟩ := holds.recorded creator created
          rw [found, Option.some.injEq] at alsoFound
          exact alsoFound ▸ positive
        · rw [holds.unrecorded fun other recorded => somebody ⟨other, recorded⟩] at found
          cases found
      rcases put_create positive (serde.event.encode (events index)) now with
        ⟨current, found, conflict⟩ | ⟨absent, creates⟩
      · have somebody : ∃ creator, (phases creator).stage.Recorded := by
          by_contra nobody
          rw [holds.unrecorded fun other recorded => nobody ⟨other, recorded⟩] at found
          cases found
        simp only [execute, conflict, ingestion, stage]
        exact holds.keep rfl (by rw [stage]; exact Iff.rfl) rfl (fun _ => somebody)
          (fun other => by cases other) holds.subscriptions
          fun _ other => by cases other
      · have nobody : ∀ other, ¬ (phases other).stage.Recorded := by
          intro other recorded
          obtain ⟨record, found, -⟩ := holds.recorded other recorded
          rw [absent] at found
          cases found
        simp only [execute, creates, ingestion, stage]
        exact holds.record nobody rfl rfl one_ne_zero rfl rfl
  | listing =>
    simp only [ingestion, stage] at permitted
    subst permitted
    obtain rfl : failure = none := unfailing (by rw [stage]; trivial)
    obtain ⟨listed, decoded, all⟩ := holds.subscriptions.listed filed.few
    simp only [execute, ingestion, stage, decoded]
    exact holds.keep rfl (by rw [stage]; exact Iff.rfl) rfl
      (fun other => by cases other) (fun other => by cases other)
      holds.subscriptions fun _ same => by cases same; exact all
  | delivering listed =>
    simp only [ingestion, stage] at permitted
    obtain ⟨entry, member, rfl⟩ := permitted
    obtain rfl : failure = none := unfailing (by rw [stage]; trivial)
    have all := holds.listed index listed stage
    obtain ⟨original, original_holds, same⟩ := all.sound entry member
    have goesOn : ∀ {after : RecordStore Value} {event : StoreEvent Index Value},
        after.get triggerNamespace key = store.get triggerNamespace key →
        SubscriptionsKept serde start after →
        InboxHolds serde events start key (update phases index (phases index)) after
          (log ++ [event]) := by
      intro after event sameRecord kept
      refine holds.keep rfl Iff.rfl sameRecord (fun impossible => ?_) (holds.kept index) kept
        fun _ other => ?_
      · rw [stage] at impossible
        cases impossible
      · rw [stage] at other
        cases other
        exact all
    simp only [execute]
    rcases store.put_cases subscriptionNamespace entry.1.id
        (serde.subscription.encode (entry.1.recordEvent (phases index).now)) (some entry.2)
        now with
      ⟨error, conflict, refused⟩ | ⟨record, -, stored, rfl⟩
    · obtain ⟨version, actual, rfl⟩ := exists_conflict conflict
      simp only [refused, ingestion, stage]
      exact goesOn rfl holds.subscriptions
    · simp only [stored, ingestion, stage]
      have counted := same.recordEvent (phases index).now
      have here : HoldsSubscription serde start (entry.1.recordEvent (phases index).now).id
          original := original_holds
      have other : subscriptionNamespace ≠ triggerNamespace := by decide
      exact goesOn (get_insert_of_ne fun same => other same.1)
        (holds.subscriptions.insert here counted rfl rfl (serde.subscription.decode_encode _))

end Step

/-! ## Every run -/

/-- Deliveries of events to one inbox. -/
abbrev IngestSession (Index Value : Type) :=
  Session Index (RecordStore Value) (StoreOperation Value) StoreOperation.Answer
    (Except TriggerInboxError IngestOutcome)

section Run

variable (serde sha256Hex) (events : Index → DeliveredEvent) (clocks : Index → Instant)
  (start : RecordStore Value)

/-- No delivery has begun. -/
def ingesting : IngestSession Index Value where
  store := start
  calls index := ingest serde sha256Hex (events index) (clocks index)
  log := []

structure Redeliveries : Prop where
  source : ∀ first second, (events first).source = (events second).source
  kind : ∀ first second, (events first).kind = (events second).kind
  externalId : ∀ first second, (events first).externalId = (events second).externalId

/-- The payloads of all deliveries have one digest. -/
def SameDigest : Prop :=
  ∀ first second, (events first).payloadDigest.getD "" = (events second).payloadDigest.getD ""

def HasRecorded (index : Index) (session : IngestSession Index Value) : Prop :=
  ∃ event ∈ session.log, event.index = index ∧
    StoreEvent.wrote event = some (triggerNamespace, (events index).dedupKey sha256Hex)

/-- Nothing fails for a delivery that has recorded its event. -/
def UnfailingOnce (before : IngestSession Index Value) (move : Index × Circumstance) : Prop :=
  HasRecorded sha256Hex events move.1 before → move.2.failure = none

/-- What routing once means for the deliveries of an event. -/
structure RoutedOnce (session : IngestSession Index Value) : Prop where
  once : ∀ first second firstOutcome secondOutcome,
    session.calls first = .done (.ok firstOutcome) →
    session.calls second = .done (.ok secondOutcome) →
    firstOutcome.accepted = true → secondOutcome.accepted = true → first = second
  routed : (∃ index outcome, session.calls index = .done (.ok outcome)) →
    (∀ index, HasRecorded sha256Hex events index session →
      ∃ result, session.calls index = .done result) →
    ∃ index outcome, session.calls index = .done (.ok outcome) ∧ outcome.accepted = true
  matched : ∀ index outcome, session.calls index = .done (.ok outcome) →
    outcome.accepted = true → outcome.matchedCases.Nodup ∧
      ∀ caseId, caseId ∈ outcome.matchedCases ↔
        ∃ id subscription, HoldsSubscription serde start id subscription ∧
          subscription.active = true ∧ subscription.source = (events index).source ∧
          subscription.filter.matches (events index) = true ∧ subscription.caseId = caseId

end Run

variable {events : Index → DeliveredEvent} {clocks : Index → Instant} {start : RecordStore Value}

theorem dedupKey_eq (deliveries : Redeliveries events) (sameDigest : SameDigest events)
    (first second : Index) :
    (events first).dedupKey sha256Hex = (events second).dedupKey sha256Hex := by
  simp only [TriggerEvent.dedupKey, deliveries.source first second, deliveries.kind first second,
    deliveries.externalId first second, sameDigest first second]

theorem Subscription.takes_iff {subscription : Subscription} {event : DeliveredEvent} :
    subscription.takes event = true ↔ subscription.active = true ∧
      subscription.source = event.source ∧ subscription.filter.matches event = true := by
  simp [takes, and_assoc]

theorem ListsAll.mem_iff {listed : List (Subscription × Nat)} (all : ListsAll serde start listed)
    (event : DeliveredEvent) (caseId : String) :
    caseId ∈ (routedBy event listed {}).matchedCases ↔
      ∃ id subscription, HoldsSubscription serde start id subscription ∧
        subscription.active = true ∧ subscription.source = event.source ∧
        subscription.filter.matches event = true ∧ subscription.caseId = caseId := by
  rw [mem_routedBy]
  apply Iff.intro
  · rintro (impossible | ⟨entry, member, taken, sameCase⟩)
    · cases impossible
    · obtain ⟨original, holds, same⟩ := all.sound entry member
      rw [same.takes_eq, Subscription.takes_iff] at taken
      exact ⟨_, original, holds, taken.1, taken.2.1, taken.2.2, same.case.symm.trans sameCase⟩
  · rintro ⟨id, subscription, holds, active, source, matched, sameCase⟩
    obtain ⟨entry, member, same⟩ := all.complete id subscription holds
    refine .inr ⟨entry, member, ?_, same.case.trans sameCase⟩
    rw [same.takes_eq, Subscription.takes_iff]
    exact ⟨active, source, matched⟩

section Account

variable [DecidableEq Index] {session : IngestSession Index Value} {key : String}
  {phases : Index → IngestPhase} {index : Index} {outcome : IngestOutcome}

omit [DecidableEq Index] in
theorem InboxHolds.initially (filed : SubscriptionsFiled serde start)
    (fresh : start.get triggerNamespace key = none) :
    InboxHolds serde events start key (fun index => ⟨events index, clocks index, .recording⟩) start
      [] where
  own _ := rfl
  unrecorded _ := fresh
  recorded _ impossible := impossible.elim
  logged _ impossible := impossible.elim
  one _ _ impossible := impossible.elim
  duplicate _ impossible := by cases impossible
  kept _ impossible := by cases impossible
  subscriptions := .of_filed filed
  listed _ _ impossible := by cases impossible

omit [DecidableEq Index] in
theorem InboxHolds.accepted
    (holds : InboxHolds serde events start key phases session.store session.log)
    (ended : IngestEnds sha256Hex (.ok outcome) (phases index))
    (accepted : outcome.accepted = true) :
    ∃ listed, (phases index).stage = .delivering listed ∧ ListsAll serde start listed ∧
      outcome.matchedCases = (routedBy (events index) listed {}).matchedCases := by
  rcases ended with ⟨listed, stage, rfl⟩ | ⟨-, rfl⟩
  · rw [holds.own]
    exact ⟨listed, stage, holds.listed index listed stage, rfl⟩
  · cases accepted

/-- In every run in which all deliveries have one digest, and nothing fails for the delivery that
has recorded the event, the event is routed once. -/
theorem routedOnce_of_run {moves : List (Index × Circumstance)}
    (filed : SubscriptionsFiled serde start) (deliveries : Redeliveries events)
    (fresh : ∀ index, start.get triggerNamespace ((events index).dedupKey sha256Hex) = none)
    (sameDigest : SameDigest events)
    (run : Run (servesWhere execute (UnfailingOnce sha256Hex events))
      (ingesting serde sha256Hex events clocks start) moves session) :
    RoutedOnce serde sha256Hex events start session := by
  by_cases nobody : IsEmpty Index
  · exact ⟨fun first => (nobody.false first).elim, fun ⟨index, _⟩ => (nobody.false index).elim,
      fun index => (nobody.false index).elim⟩
  · obtain ⟨someone⟩ := not_isEmpty_iff.mp nobody
    let key := (events someone).dedupKey sha256Hex
    have sameKey : ∀ index, (events index).dedupKey sha256Hex = key :=
      fun index => dedupKey_eq deliveries sameDigest index someone
    let initial : Index → IngestPhase := fun index => ⟨events index, clocks index, .recording⟩
    have underway : (ingesting serde sha256Hex events clocks start).Underway
        (ingestion serde sha256Hex) (fun _ _ => True) (IngestEnds sha256Hex) initial :=
      fun index => follows_ingest (events index) (clocks index)
    let holding (store : RecordStore Value) (phases : Index → IngestPhase)
        (log : List (StoreEvent Index Value)) : Prop :=
      InboxHolds serde events start key phases store log
    have initially : holding start initial [] := .initially filed (fresh someone)
    have holds : holding session.store
        ((ingestion serde sha256Hex).phase initial session.log) session.log := by
      refine Session.Underway.invariant (fun _ _ _ => trivial) ?_ run underway initially
      intro before index circumstance operation resume _ _ unfailing permitted holds _ _
      refine InboxHolds.step filed sameKey holds permitted fun recorded => unfailing ?_
      obtain ⟨event, member, own, wrote⟩ := holds.logged index recorded
      exact ⟨event, member, own, by rw [sameKey]; exact wrote⟩
    have ends := Session.Underway.run (fun _ _ _ => trivial) run underway
    refine ⟨?_, ?_, ?_⟩
    · intro first second firstOutcome secondOutcome firstReturned secondReturned firstAccepted
        secondAccepted
      obtain ⟨listed, stage, -⟩ :=
        holds.accepted (ends.final_of_done firstReturned) firstAccepted
      obtain ⟨otherListed, otherStage, -⟩ :=
        holds.accepted (ends.final_of_done secondReturned) secondAccepted
      exact holds.one first second (by rw [stage]; trivial) (by rw [otherStage]; trivial)
    · rintro ⟨index, outcome, returned⟩ finish
      obtain ⟨creator, recorded⟩ : ∃ creator,
          ((ingestion serde sha256Hex).phase initial session.log creator).stage.Recorded := by
        rcases ends.final_of_done returned with ⟨listed, stage, -⟩ | ⟨stage, -⟩
        · exact ⟨index, by rw [stage]; trivial⟩
        · exact holds.duplicate index stage
      obtain ⟨event, member, own, wrote⟩ := holds.logged creator recorded
      obtain ⟨result, creatorReturned⟩ :=
        finish creator ⟨event, member, own, by rw [sameKey]; exact wrote⟩
      have ended := ends.final_of_done creatorReturned
      rcases result with error | created
      · rcases ended with stage | stage
        · rw [stage] at recorded
          exact recorded.elim
        · exact (holds.kept creator stage).elim
      · rcases ended with ⟨listed, -, rfl⟩ | ⟨stage, -⟩
        · exact ⟨creator, _, creatorReturned, rfl⟩
        · rw [stage] at recorded
          exact recorded.elim
    · intro index outcome returned accepted
      obtain ⟨listed, -, all, matched⟩ := holds.accepted (ends.final_of_done returned) accepted
      rw [matched]
      exact ⟨nodup_routedBy List.nodup_nil, all.mem_iff (events index)⟩

end Account

/-! ## Two deliveries of one comment -/

/-- Documents stored as they are. -/
def plainInbox : InboxSerde (DeliveredEvent ⊕ Subscription) where
  event :=
    { encode := .inl
      decode
        | .inl event => .ok event
        | .inr _ => .error "missing field `kind`"
      decode_encode := fun _ => rfl }
  subscription :=
    { encode := .inr
      decode
        | .inr subscription => .ok subscription
        | .inl _ => .error "missing field `case_id`"
      decode_encode := fun _ => rfl }

def comment (id digest : String) : DeliveredEvent where
  source := .gitHub
  kind := .pullRequestComment
  externalId := "d1"
  payloadDigest := some digest
  id := id
  threadKey := some "acme/widgets#1"
  repo := some "acme/widgets"

/-- The digests of the payload with and without the count of attempts. -/
def firstPayload : String := "4e9bcf9503a76669e03a410e5894a8f62106726c61b4491bbabdc8da7ea639c2"

def secondPayload : String := "a5f813642e4607c1aa73af675a67f021413962230ed42f7bb5290a73c26e800a"

/-- The digest of the texts that the keys of the deliveries are made of. -/
def commentDigest (text : String) : String :=
  if text = "github|pull_request_comment|d1|" ++ firstPayload then
    "9c31700f4999b792b9096724cc57075c6808cc63445761465b13d849b4f4f3fc"
  else "841a2250cf5f063323b796eda8f8de1448080528f63a7d63857702d65775d71b"

def threadSubscription : Subscription where
  id := "sub-1"
  caseId := "case-1"
  source := .gitHub
  filter := { threadKey := some "acme/widgets#1" }
  createdAt := 0

def subscribed : RecordStore (DeliveredEvent ⊕ Subscription) :=
  insert .empty ⟨subscriptionNamespace, "sub-1", 1, .inr threadSubscription, 0⟩

theorem filed_subscribed : SubscriptionsFiled plainInbox subscribed := by
  refine ⟨fun id record found => ?_, by decide +kernel⟩
  by_cases here : id = "sub-1"
  · subst here
    obtain rfl := Option.some.inj (get_insert_self.symm.trans found)
    exact ⟨threadSubscription, rfl, rfl⟩
  · have absent : subscribed.get subscriptionNamespace id = none :=
      get_insert_of_ne fun same => here same.2.symm
    rw [absent] at found
    cases found

def redelivered : Bool → DeliveredEvent
  | false => comment "event-1" firstPayload
  | true => comment "event-2" firstPayload

/-- The comment is delivered again with another count of attempts. -/
def reattempted : Bool → DeliveredEvent
  | false => comment "event-1" firstPayload
  | true => comment "event-2" secondPayload

theorem redeliveries_redelivered : Redeliveries redelivered := by
  constructor <;> rintro (_ | _) (_ | _) <;> rfl

theorem redeliveries_reattempted : Redeliveries reattempted := by
  constructor <;> rintro (_ | _) (_ | _) <;> rfl

theorem sameDigest_redelivered : SameDigest redelivered := by
  rintro (_ | _) (_ | _) <;> rfl

def ingestSession (events : Bool → DeliveredEvent) (moves : List (Bool × Circumstance)) :
    IngestSession Bool (DeliveredEvent ⊕ Subscription) :=
  moves.foldl (Session.serve execute)
    (ingesting plainInbox commentDigest events (fun _ => 0) subscribed)

/-- The second delivery comes before the first one is through. -/
def overlapping : List (Bool × Circumstance) :=
  [(false, ⟨1, none⟩), (true, ⟨2, none⟩), (false, ⟨3, none⟩), (false, ⟨4, none⟩)]

/-- No operation fails. -/
def goesWell (_ : IngestSession Bool (DeliveredEvent ⊕ Subscription))
    (move : Bool × Circumstance) : Bool := move.2.failure.isNone

theorem unfailingOnce_of_goesWell {events : Bool → DeliveredEvent}
    (before : IngestSession Bool (DeliveredEvent ⊕ Subscription)) (move : Bool × Circumstance)
    (passed : goesWell before move = true) : UnfailingOnce commentDigest events before move :=
  fun _ => Option.isNone_iff_eq_none.mp passed

def commentAccepted (eventId dedupKey : String) : IngestOutcome where
  eventId := eventId
  dedupKey := dedupKey
  accepted := true
  duplicate := false
  matchedCases := ["case-1"]

theorem routedOnce_of_run_overlapping :
    Redeliveries redelivered ∧ SameDigest redelivered ∧
    (ingestSession redelivered overlapping).calls false =
      .done (.ok (commentAccepted "event-1"
        "9c31700f4999b792b9096724cc57075c6808cc63445761465b13d849b4f4f3fc")) ∧
    RoutedOnce plainInbox commentDigest redelivered subscribed
      (ingestSession redelivered overlapping) := by
  refine ⟨redeliveries_redelivered, sameDigest_redelivered, by rfl,
    routedOnce_of_run filed_subscribed redeliveries_redelivered ?_ sameDigest_redelivered
      (run_servesWhere unfailingOnce_of_goesWell (by rfl))⟩
  rintro (_ | _) <;> rfl

/-- Both deliveries of the comment, one after the other. -/
def consecutive : List (Bool × Circumstance) :=
  [(false, ⟨1, none⟩), (false, ⟨2, none⟩), (false, ⟨3, none⟩), (true, ⟨4, none⟩), (true, ⟨5, none⟩),
    (true, ⟨6, none⟩)]

/-- The first delivery cannot list the subscriptions. -/
def interruptedDelivery : List (Bool × Circumstance) :=
  [(false, ⟨1, none⟩), (false, ⟨2, some "connection closed"⟩), (true, ⟨3, none⟩)]

/-- A comment that is delivered again with another payload is accepted twice; one whose first
delivery fails behind its record is never accepted. -/
theorem routedOnce_fails_comment :
    (Redeliveries reattempted ∧
      Run (serves execute)
        (ingesting plainInbox commentDigest reattempted (fun _ => 0) subscribed) consecutive
        (ingestSession reattempted consecutive) ∧
      (ingestSession reattempted consecutive).calls false = .done (.ok (commentAccepted "event-1"
        "9c31700f4999b792b9096724cc57075c6808cc63445761465b13d849b4f4f3fc")) ∧
      (ingestSession reattempted consecutive).calls true = .done (.ok (commentAccepted "event-2"
        "841a2250cf5f063323b796eda8f8de1448080528f63a7d63857702d65775d71b")) ∧
      ¬ RoutedOnce plainInbox commentDigest reattempted subscribed
        (ingestSession reattempted consecutive)) ∧
    Redeliveries redelivered ∧ SameDigest redelivered ∧
    Run (serves execute)
      (ingesting plainInbox commentDigest redelivered (fun _ => 0) subscribed) interruptedDelivery
      (ingestSession redelivered interruptedDelivery) ∧
    (ingestSession redelivered interruptedDelivery).calls false =
      .done (.error (.store (.backend "connection closed"))) ∧
    (ingestSession redelivered interruptedDelivery).calls true =
      .done (.ok (.ofDuplicate "event-2"
        "9c31700f4999b792b9096724cc57075c6808cc63445761465b13d849b4f4f3fc")) ∧
    ¬ RoutedOnce plainInbox commentDigest redelivered subscribed
      (ingestSession redelivered interruptedDelivery) := by
  refine ⟨⟨redeliveries_reattempted, run_serves _ _, by rfl, by rfl, fun routed => ?_⟩,
    redeliveries_redelivered, sameDigest_redelivered, run_serves _ _, by rfl, by rfl,
    fun routed => ?_⟩
  · have same := routed.once false true _ _ rfl rfl rfl rfl
    cases same
  · obtain ⟨index, outcome, returned, accepted⟩ := routed.routed ⟨true, _, rfl⟩ fun index _ => by
      cases index with
      | false | true => exact ⟨_, rfl⟩
    cases index with
    | false => cases returned
    | true =>
      cases returned
      cases accepted

end UltimateCoders.Governance
