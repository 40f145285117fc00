import UltimateCoders.Governance.History

/-! # Lost updates

A client reads a document and writes it back under the version that it has read. Versions
count the writes of a key since it was created, so a write that is accepted replaces the very
document that was read, unless the key was deleted in between and written again as often as
the version says.
-/

namespace UltimateCoders.Governance

open Relational Transition

universe u

variable {Index : Type u} {Value : Type}

def carriedOut (before : RecordStore Value) (event : StoreEvent Index Value)
    (after : RecordStore Value) : Prop :=
  ∃ circumstance, (before.execute circumstance event.operation).1 = event.answer ∧
    (before.execute circumstance event.operation).2 = after

def StoreEvent.deletes (space key : String) (event : StoreEvent Index Value) : Bool :=
  match event with
  | ⟨_, .delete otherSpace otherKey, .ok true⟩ => otherSpace = space && otherKey = key
  | _ => false

/-- What was done to a document: whether it was deleted, and how often it was written since. -/
structure Touches where
  deleted : Bool := false
  writes : Nat := 0
  deriving DecidableEq

namespace Touches

def touch (space key : String) (touches : Touches) (event : StoreEvent Index Value) : Touches :=
  if StoreEvent.deletes space key event then ⟨true, 0⟩
  else if StoreEvent.wrote event = some (space, key) then
    { touches with writes := touches.writes + 1 }
  else touches

/-- What a sequence of events did to a document. -/
def of (space key : String) (events : List (StoreEvent Index Value)) : Touches :=
  events.foldl (touch space key) {}

/-- The version of a document that had this version before. -/
def version (touches : Touches) (before : Nat) : Option Nat :=
  if touches.deleted then if touches.writes = 0 then none else some touches.writes
  else some (before + touches.writes)

end Touches

variable {store after : RecordStore Value} {event : StoreEvent Index Value} {space key : String}
  {record : Record Value} {events : List (StoreEvent Index Value)} {touches : Touches}

/-- What an event does to the version of a document. -/
theorem carriedOut_cases (step : carriedOut store event after) (space key : String) :
    (StoreEvent.deletes space key event = true ∧ after.get space key = none) ∨
      (StoreEvent.deletes space key event = false ∧ StoreEvent.wrote event = some (space, key) ∧
        (after.get space key).map Record.version =
          some (((store.get space key).map Record.version).getD 0 + 1)) ∨
      (StoreEvent.deletes space key event = false ∧ StoreEvent.wrote event ≠ some (space, key) ∧
        after.get space key = store.get space key) := by
  obtain ⟨index, operation, answer⟩ := event
  obtain ⟨⟨now, failure⟩, answered, rfl⟩ := step
  dsimp only at answered
  subst answered
  cases failure with
  | some detail =>
    right; right
    cases operation <;> exact ⟨rfl, (Option.some_ne_none _).symm, rfl⟩
  | none =>
    cases operation with
    | get otherSpace otherKey | list otherSpace limit =>
      exact .inr (.inr ⟨rfl, (Option.some_ne_none _).symm, rfl⟩)
    | put otherSpace otherKey value expected =>
      simp only [RecordStore.execute]
      rcases store.put_cases otherSpace otherKey value expected now with
        ⟨error, -, refused⟩ | ⟨written, -, accepted, rfl⟩
      · rw [refused]
        exact .inr (.inr ⟨rfl, (Option.some_ne_none _).symm, rfl⟩)
      · rw [accepted]
        by_cases here : otherSpace = space ∧ otherKey = key
        · obtain ⟨rfl, rfl⟩ := here
          refine .inr (.inl ⟨rfl, rfl, ?_⟩)
          rw [RecordStore.get_insert_self]
          cases store.get otherSpace otherKey <;> rfl
        · refine .inr (.inr ⟨rfl, ?_, RecordStore.get_insert_of_ne here⟩)
          simpa [StoreEvent.wrote, StoreOperation.wrote] using here
    | delete otherSpace otherKey =>
      have got := RecordStore.get_delete store otherSpace otherKey space key
      simp only [RecordStore.execute, RecordStore.delete] at got ⊢
      cases found : (store.get otherSpace otherKey).isSome with
      | false =>
        refine .inr (.inr ⟨rfl, (Option.some_ne_none _).symm, got.trans ?_⟩)
        split
        · rename_i here
          obtain ⟨rfl, rfl⟩ := here
          exact (Option.not_isSome_iff_eq_none.mp (by simp [found])).symm
        · rfl
      | true =>
        by_cases here : space = otherSpace ∧ key = otherKey
        · obtain ⟨rfl, rfl⟩ := here
          refine .inl ⟨by simp [StoreEvent.deletes], got.trans ?_⟩
          simp
        · have apart : ¬ (otherSpace = space ∧ otherKey = key) :=
            fun same => here ⟨same.1.symm, same.2.symm⟩
          refine .inr (.inr ⟨?_, ?_, got.trans (if_neg here)⟩)
          · simpa [StoreEvent.deletes] using apart
          · simpa [StoreEvent.wrote, StoreOperation.wrote] using apart

theorem Touches.step (step : carriedOut store event after) {before : Nat}
    (counted : (store.get space key).map Record.version = touches.version before) :
    (after.get space key).map Record.version = (touches.touch space key event).version before := by
  rcases carriedOut_cases step space key with
    ⟨deletes, absent⟩ | ⟨keeps, writes, moved⟩ | ⟨keeps, silent, same⟩
  · simp [touch, deletes, absent, version]
  · rw [moved, counted, touch, if_neg (by simp [keeps]), if_pos writes]
    cases deleted : touches.deleted with
    | false => simp [version, deleted, Nat.add_assoc]
    | true =>
      by_cases none : touches.writes = 0
      · simp [version, deleted, none]
      · simp [version, deleted, none]
  · rw [same, counted, touch, if_neg (by simp [keeps]), if_neg silent]

/-- The version of a document after a run, from what was done to it. -/
theorem Touches.run {before : Nat} (run : Run carriedOut store events after)
    (counted : (store.get space key).map Record.version = touches.version before) :
    (after.get space key).map Record.version =
      (events.foldl (touch space key) touches).version before := by
  induction run generalizing touches with
  | nil state => exact counted
  | cons first _ ih => exact ih (Touches.step first counted)

theorem StoreEvent.wrote_of_deletes (deletes : StoreEvent.deletes space key event = true) :
    StoreEvent.wrote event = some (space, key) := by
  unfold StoreEvent.deletes at deletes
  split at deletes
  · simpa [StoreEvent.wrote, StoreOperation.wrote] using deletes
  · cases deletes

theorem Touches.touch_eq_iff : touches.touch space key event = {} ↔
    touches = {} ∧ StoreEvent.wrote event ≠ some (space, key) := by
  unfold touch
  split
  · rename_i deletes
    simp [StoreEvent.wrote_of_deletes deletes]
  · split
    · rename_i wrote
      simp [wrote]
    · rename_i silent
      simp [silent]

theorem Touches.foldl_eq_iff : events.foldl (touch space key) touches = {} ↔
    touches = {} ∧ ∀ event ∈ events, StoreEvent.wrote event ≠ some (space, key) := by
  induction events generalizing touches with
  | nil => simp
  | cons event rest ih => rw [List.foldl_cons, ih, touch_eq_iff, List.forall_mem_cons, and_assoc]

def RecordStore.Positive (store : RecordStore Value) : Prop :=
  ∀ space key record, store.get space key = some record → record.version ≠ 0

open RecordStore

theorem RecordStore.Positive.step (positive : store.Positive)
    (step : carriedOut store event after) : after.Positive := by
  intro space key record found
  rcases carriedOut_cases step space key with ⟨-, absent⟩ | ⟨-, -, moved⟩ | ⟨-, -, same⟩
  · rw [absent] at found
    cases found
  · rw [found, Option.map_some, Option.some.injEq] at moved
    omega
  · exact positive space key record (same.symm.trans found)

theorem positive_of_run (run : Run carriedOut Table.empty events store) : store.Positive := by
  refine run.invariant (fun _ => True) (fun _ _ _ positive _ step => positive.step step)
    (fun _ _ => trivial) ?_
  intro space key record impossible
  cases impossible

theorem get_of_read {client : Index} {other : RecordStore Value}
    (reading : carriedOut store ⟨client, .get space key, .ok (some record)⟩ other) :
    store.get space key = some record := by
  obtain ⟨⟨now, failure⟩, answered, -⟩ := reading
  cases failure with
  | some detail => cases answered
  | none => exact Except.ok.inj answered

theorem exists_written_iff {client : Index} {value : Value} {version : Nat}
    (positive : version ≠ 0) :
    (∃ written after,
        carriedOut store ⟨client, .put space key value (some version), .ok written⟩ after) ↔
      (store.get space key).map Record.version = some version := by
  constructor
  · rintro ⟨written, after, ⟨now, failure⟩, answered, -⟩
    cases failure with
    | some detail => cases answered
    | none =>
      rcases store.put_cases space key value (some version) now with
        ⟨error, -, refused⟩ | ⟨record, agrees, -, -⟩
      · simp only [execute, refused] at answered
        cases answered
      · cases found : store.get space key with
        | none => simp [found, casConflict, positive] at agrees
        | some current =>
          simp only [found, casConflict, ite_eq_right_iff, reduceCtorEq,
            imp_false, ne_eq, Decidable.not_not] at agrees
          rw [Option.map_some, agrees]
  · intro stored
    obtain ⟨current, found, rfl⟩ := Option.map_eq_some_iff.mp stored
    refine ⟨⟨space, key, current.version + 1, value, 0⟩, _, ⟨0, none⟩, ?_, rfl⟩
    simp only [execute, put_of_version found]
    rfl

/-- Between a read and the accepted write of what was read, no other write or deletion of the
document took effect, exactly unless the document was deleted in between and then written as
often as the version that was read says. -/
theorem unwritten_iff {log middle : List (StoreEvent Index Value)}
    {read current : RecordStore Value} (client : Index) (value : Value)
    (reached : Run carriedOut Table.empty log read)
    (reading : carriedOut read ⟨client, .get space key, .ok (some record)⟩ read)
    (run : Run carriedOut read middle current) :
    ((∃ written after, carriedOut current
        ⟨client, .put space key value (some record.version), .ok written⟩ after) →
      ∀ event ∈ middle, StoreEvent.wrote event ≠ some (space, key)) ↔
    ¬ ((Touches.of space key middle).deleted = true ∧
      (Touches.of space key middle).writes = record.version) := by
  have found := get_of_read reading
  have positive := positive_of_run reached space key record found
  have untouchedYet : (read.get space key).map Record.version =
      Touches.version {} record.version := by
    rw [found]
    rfl
  have counted := Touches.run run untouchedYet
  have untouched : Touches.of space key middle = {} ↔
      ∀ event ∈ middle, StoreEvent.wrote event ≠ some (space, key) := by
    rw [Touches.of, Touches.foldl_eq_iff]
    exact and_iff_right rfl
  rw [exists_written_iff positive, counted, ← untouched, Touches.of]
  obtain ⟨deleted, writes⟩ := middle.foldl (Touches.touch space key) {}
  cases deleted with
  | false =>
    simp only [Touches.version, Bool.false_eq_true, if_false, false_and, not_false_eq_true,
      iff_true, Option.some.injEq, Touches.mk.injEq, true_and]
    omega
  | true =>
    simp only [Touches.version, if_true, true_and, Touches.mk.injEq, Bool.true_eq_false, false_and]
    by_cases none : writes = 0
    · simp [none, positive.symm]
    · simp [none]

def sampleCreate (value : String) (now : Instant) : StoreEvent String String :=
  ⟨"owner", .put "subscriptions" "sub-1" value (some 0),
    .ok ⟨"subscriptions", "sub-1", 1, value, now⟩⟩

def sampleSubscribed (value : String) (now : Instant) : RecordStore String :=
  insert Table.empty ⟨"subscriptions", "sub-1", 1, value, now⟩

theorem run_sampleCreate (value : String) (now : Instant) :
    Run carriedOut Table.empty [sampleCreate value now] (sampleSubscribed value now) :=
  .cons ⟨⟨now, none⟩, rfl, rfl⟩ (.nil _)

/-- The inbox reads the subscription that was created. -/
def sampleRead : StoreEvent String String :=
  ⟨"inbox", .get "subscriptions" "sub-1", .ok (some ⟨"subscriptions", "sub-1", 1, "first", 1⟩)⟩

theorem carriedOut_sampleRead :
    carriedOut (sampleSubscribed "first" 1) sampleRead (sampleSubscribed "first" 1) :=
  ⟨⟨2, none⟩, rfl, rfl⟩

/-- Only a read happens between the read and the write, and the write is accepted. -/
theorem unwritten_sample :
    (∃ written after, carriedOut (sampleSubscribed "first" 1)
      ⟨"inbox", .put "subscriptions" "sub-1" "counted" (some 1), .ok written⟩ after) ∧
    StoreEvent.wrote sampleRead ≠ some ("subscriptions", "sub-1") := by
  have accepted : ∃ written after, carriedOut (sampleSubscribed "first" 1)
      ⟨"inbox", .put "subscriptions" "sub-1" "counted" (some 1), .ok written⟩ after :=
    ⟨_, _, ⟨⟨3, none⟩, rfl, rfl⟩⟩
  exact ⟨accepted, (unwritten_iff "inbox" "counted" (run_sampleCreate "first" 1)
    carriedOut_sampleRead (.cons carriedOut_sampleRead (.nil _))).mpr (by decide) accepted
      sampleRead List.mem_cons_self⟩

/-- The owner deletes the subscription that the inbox has read and creates another one; the
inbox overwrites it. -/
theorem unwritten_fails :
    Run carriedOut Table.empty [sampleCreate "first" 1] (sampleSubscribed "first" 1) ∧
    carriedOut (sampleSubscribed "first" 1) sampleRead (sampleSubscribed "first" 1) ∧
    Run carriedOut (sampleSubscribed "first" 1)
      [⟨"owner", .delete "subscriptions" "sub-1", .ok true⟩, sampleCreate "second" 4]
      (sampleSubscribed "second" 4) ∧
    (∃ written after, carriedOut (sampleSubscribed "second" 4)
      ⟨"inbox", .put "subscriptions" "sub-1" "counted" (some 1), .ok written⟩ after) ∧
    ¬ ∀ event ∈ ([⟨"owner", .delete "subscriptions" "sub-1", .ok true⟩, sampleCreate "second" 4] :
        List (StoreEvent String String)),
      StoreEvent.wrote event ≠ some ("subscriptions", "sub-1") := by
  refine ⟨run_sampleCreate "first" 1, carriedOut_sampleRead, ?_, ?_, by decide⟩
  · refine .cons ⟨⟨3, none⟩, rfl, rfl⟩ ?_
    exact run_sampleCreate "second" 4
  · exact ⟨⟨"subscriptions", "sub-1", 2, "counted", 5⟩, _, ⟨5, none⟩, rfl, rfl⟩

end UltimateCoders.Governance
