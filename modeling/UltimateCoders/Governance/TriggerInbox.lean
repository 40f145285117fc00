import UltimateCoders.Governance.GovernedWork

/-! # The trigger inbox

An event from outside is recorded under a key that is meant to be the same for all of its
deliveries. The delivery that records it is fanned out to the subscriptions: their cases are
collected, and each counts the event.
-/

namespace UltimateCoders.Governance

open Transition

def triggerNamespace : String := "trigger_event"

def subscriptionNamespace : String := "subscription"

/-- What a source sends along with an event. -/
inductive Payload where
  | null
  | bool (value : Bool)
  | number (digits : String)
  | text (content : String)
  | array (items : List Payload)
  | object (fields : List (String × Payload))

namespace Payload

def get (payload : Payload) (field : String) : Option Payload :=
  match payload with
  | object fields => fields.lookup field
  | _ => none

def asArray : Payload → Option (List Payload)
  | array items => some items
  | _ => none

def asText : Payload → Option String
  | text content => some content
  | _ => none

end Payload

structure DeliveredEvent extends TriggerEvent where
  id : String
  threadKey : Option String := none
  repo : Option String := none
  payload : Payload := .null

/-- Which events a subscription accepts. -/
structure SubscriptionFilter where
  repo : Option String := none
  kinds : List TriggerKind := []
  threadKey : Option String := none
  labels : List String := []
  deriving DecidableEq

def DeliveredEvent.labels (event : DeliveredEvent) : List String :=
  (((event.payload.get "labels").bind Payload.asArray).map
    fun items => items.filterMap Payload.asText).getD []

def SubscriptionFilter.matches (filter : SubscriptionFilter) (event : DeliveredEvent) : Bool :=
  (filter.repo.all fun repo => event.repo = some repo) &&
    (filter.kinds.isEmpty || filter.kinds.contains event.kind) &&
    (filter.threadKey.all fun thread => event.threadKey = some thread) &&
    (filter.labels.isEmpty || filter.labels.any fun wanted => event.labels.contains wanted)

def saturatingAdd64 (first second : Nat) : Nat := min (first + second) (2 ^ 64 - 1)

/-- The interest of a case in a stream of events. -/
structure Subscription where
  id : String
  caseId : String
  source : SourceKind
  filter : SubscriptionFilter
  createdAt : Instant
  active : Bool := true
  lastEventAt : Option Instant := none
  eventCount : Nat := 0
  autoResume : Bool := false
  deriving DecidableEq

def Subscription.recordEvent (subscription : Subscription) (now : Instant) : Subscription :=
  { subscription with
    eventCount := saturatingAdd64 subscription.eventCount 1
    lastEventAt := some now }

structure IngestOutcome where
  eventId : String
  dedupKey : String
  accepted : Bool
  duplicate : Bool
  matchedCases : List String := []
  unmatchedReason : Option String := none
  autoResumeCases : List String := []
  deriving DecidableEq

def IngestOutcome.ofDuplicate (eventId dedupKey : String) : IngestOutcome where
  eventId := eventId
  dedupKey := dedupKey
  accepted := false
  duplicate := true

/-- Failure modes of the inbox. -/
inductive TriggerInboxError where
  | store (error : RecordError)
  | notFound (subscriptionId : String)
  | contended
  deriving DecidableEq

/-- How the documents of the inbox are serialized. -/
structure InboxSerde (Value : Type) where
  event : Codec Value DeliveredEvent
  subscription : Codec Value Subscription

/-- The cases that the subscriptions seen so far route an event to. -/
structure Routed where
  matchedCases : List String := []
  autoResumeCases : List String := []
  deriving DecidableEq

def addNew (items : List String) (item : String) : List String :=
  if items.contains item then items else items ++ [item]

def Routed.add (routed : Routed) (subscription : Subscription) : Routed where
  matchedCases := addNew routed.matchedCases subscription.caseId
  autoResumeCases :=
    if subscription.autoResume then addNew routed.autoResumeCases subscription.caseId
    else routed.autoResumeCases

def Subscription.takes (subscription : Subscription) (event : DeliveredEvent) : Bool :=
  subscription.active && subscription.source = event.source && subscription.filter.matches event

namespace TriggerInbox

variable {Value : Type} (serde : InboxSerde Value) (sha256Hex : String → String)

def events : NamespacedStore := ⟨triggerNamespace⟩

def subscriptions : NamespacedStore := ⟨subscriptionNamespace⟩

def accepted (event : DeliveredEvent) (routed : Routed) : IngestOutcome where
  eventId := event.id
  dedupKey := event.dedupKey sha256Hex
  accepted := true
  duplicate := false
  matchedCases := routed.matchedCases
  unmatchedReason :=
    if routed.matchedCases.isEmpty then
      some (if event.threadKey.isSome then "thread_has_no_subscription" else "no_subscription")
    else none
  autoResumeCases := routed.autoResumeCases

/-- Fan the event out; a subscription that was changed in the meantime does not count it. -/
def fanOut (event : DeliveredEvent) (now : Instant) : List (Subscription × Nat) → Routed →
    StoreProgram Value (Except TriggerInboxError IngestOutcome)
  | [], routed => return .ok (accepted sha256Hex event routed)
  | (subscription, version) :: rest, routed => do
      if subscription.takes event then
        match ← subscriptions.put serde.subscription subscription.id
            (subscription.recordEvent now) (some version) with
        | .ok _ => fanOut event now rest (routed.add subscription)
        | .error (.conflict _ _) => fanOut event now rest (routed.add subscription)
        | .error other => return .error (.store other)
      else fanOut event now rest routed

/-- Record an event and fan it out to the subscriptions that match. -/
def ingest (event : DeliveredEvent) (now : Instant) :
    StoreProgram Value (Except TriggerInboxError IngestOutcome) := do
  let dedupKey := event.dedupKey sha256Hex
  match ← events.put serde.event dedupKey event (some 0) with
  | .error (.conflict _ _) => return .ok (.ofDuplicate event.id dedupKey)
  | .error other => return .error (.store other)
  | .ok _ =>
    match ← subscriptions.list serde.subscription 1000 with
    | .error error => return .error (.store error)
    | .ok listed => fanOut serde sha256Hex event now listed {}

end TriggerInbox

theorem mem_addNew {items : List String} {item other : String} :
    other ∈ addNew items item ↔ other ∈ items ∨ other = item := by
  unfold addNew
  split
  · rename_i present
    rw [List.contains_iff_mem] at present
    exact ⟨.inl, fun member => member.elim id (fun same => same ▸ present)⟩
  · simp

theorem nodup_addNew {items : List String} {item : String} (distinct : items.Nodup) :
    (addNew items item).Nodup := by
  unfold addNew
  split
  · exact distinct
  · rename_i absent
    rw [List.contains_iff_mem] at absent
    rw [List.nodup_append]
    refine ⟨distinct, by simp, ?_⟩
    rintro other member last lastMem rfl
    exact absent (List.mem_singleton.mp lastMem ▸ member)

/-- What a fan-out collects. -/
def routedBy (event : DeliveredEvent) (listed : List (Subscription × Nat)) (routed : Routed) :
    Routed :=
  listed.foldl (fun routed entry =>
    if entry.1.takes event then routed.add entry.1 else routed) routed

theorem mem_routedBy {event : DeliveredEvent} {listed : List (Subscription × Nat)}
    {routed : Routed} {caseId : String} :
    caseId ∈ (routedBy event listed routed).matchedCases ↔
      caseId ∈ routed.matchedCases ∨
        ∃ entry ∈ listed, entry.1.takes event = true ∧ entry.1.caseId = caseId := by
  induction listed generalizing routed with
  | nil => simp [routedBy]
  | cons entry rest ih =>
    unfold routedBy at ih ⊢
    rw [List.foldl_cons, ih]
    by_cases taken : entry.1.takes event = true
    · simp only [taken, if_true, Routed.add, mem_addNew, List.mem_cons, exists_eq_or_imp,
        true_and, or_assoc, @eq_comm _ caseId]
    · simp [taken]

theorem nodup_routedBy {event : DeliveredEvent} {listed : List (Subscription × Nat)}
    {routed : Routed} (distinct : routed.matchedCases.Nodup) :
    (routedBy event listed routed).matchedCases.Nodup := by
  induction listed generalizing routed with
  | nil => exact distinct
  | cons entry rest ih =>
    unfold routedBy at ih ⊢
    rw [List.foldl_cons]
    split
    · exact ih (nodup_addNew distinct)
    · exact ih distinct

end UltimateCoders.Governance
