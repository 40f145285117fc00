import Mathlib.Data.String.Basic
import UltimateCoders.Governance.Policy
import UltimateCoders.Relational.Table
import UltimateCoders.Transition.Program

/-! # Record store

Governance entities are documents under a namespace and a key, with a version
that every write moves on. A write may name the version it expects. Clients are
programs of single store operations; an operation either takes effect as a whole
or is refused by the backend.
-/

namespace UltimateCoders.Governance

open Relational Transition List

/-- One stored document. -/
structure Record (Value : Type) where
  space : String
  key : String
  version : Nat
  value : Value
  updatedAt : Instant
  deriving Repr

/-- Failure modes of the record store. -/
inductive RecordError where
  | conflict (expected : Nat) (actual : Option Nat)
  | backend (detail : String)
  | decode (key detail : String)
  | encode (key detail : String)
  deriving DecidableEq

def RecordError.display : RecordError → String
  | conflict expected (some actual) =>
    "record version conflict: expected v" ++ toString expected ++ ", found v" ++ toString actual
  | conflict expected none =>
    "record version conflict: expected v" ++ toString expected ++ ", found nothing"
  | backend detail => "record store backend error: " ++ detail
  | decode key detail => "cannot decode record " ++ key ++ ": " ++ detail
  | encode key detail => "cannot encode record " ++ key ++ ": " ++ detail

variable {Value Document : Type}

/-- Two records under one namespace and key. -/
def Record.SameKey (first second : Record Value) : Prop :=
  first.space = second.space ∧ first.key = second.key

instance : DecidableRel (@Record.SameKey Value) := fun first second =>
  inferInstanceAs (Decidable (first.space = second.space ∧ first.key = second.key))

/-- The stored documents, one for each namespace and key. -/
abbrev RecordStore (Value : Type) := Table (Record Value) Record.SameKey

variable (store : RecordStore Value) (view : NamespacedStore)

namespace RecordStore

def get (space key : String) : Option (Record Value) :=
  store.rows.find? fun record => record.space == space && record.key == key

/-- Put the record in the place of the one under its key. -/
def replace (record : Record Value) : RecordStore Value :=
  store.update (fun stored => if stored.SameKey record then record else stored) (by
    intro first second
    have kept : ∀ stored : Record Value,
        (if stored.SameKey record then record else stored).SameKey stored := by
      intro stored
      by_cases same : stored.SameKey record
      · rw [if_pos same]
        exact ⟨same.1.symm, same.2.symm⟩
      · rw [if_neg same]
        exact ⟨rfl, rfl⟩
    rintro ⟨sameSpace, sameKey⟩
    exact ⟨(kept first).1.symm.trans (sameSpace.trans (kept second).1),
      (kept first).2.symm.trans (sameKey.trans (kept second).2)⟩)

def insert (record : Record Value) : RecordStore Value :=
  if (store.get record.space record.key).isSome then store.replace record
  else store.insertOrIgnore record

/-- The precondition that a write of an expected version breaks. -/
def casConflict : Option Nat → Option (Record Value) → Option RecordError
  | some expected, some current =>
    if current.version ≠ expected then some (.conflict expected (some current.version)) else none
  | some expected, none => if expected ≠ 0 then some (.conflict expected none) else none
  | none, _ => none

/-- Compare-and-swap write. -/
def put (space key : String) (value : Value) (expectedVersion : Option Nat) (now : Instant) :
    Except RecordError (Record Value) × RecordStore Value :=
  let existing := store.get space key
  match casConflict expectedVersion existing with
  | some error => (.error error, store)
  | none =>
    let record : Record Value :=
      { space := space
        key := key
        version := (existing.map fun record => record.version + 1).getD 1
        value := value
        updatedAt := now }
    (.ok record, store.insert record)

/-- The records of a namespace in key order, at most `limit`. -/
def list (space : String) (limit : Nat) : List (Record Value) :=
  ((store.rows.filter fun record => record.space == space).insertionSort
    fun first second => first.key ≤ second.key).take limit

def delete (space key : String) : Bool × RecordStore Value :=
  ((store.get space key).isSome,
    store.filter fun record => !(record.space == space && record.key == key))

end RecordStore

inductive StoreOperation (Value : Type) where
  | get (space key : String)
  | put (space key : String) (value : Value) (expectedVersion : Option Nat)
  | list (space : String) (limit : Nat)
  | delete (space key : String)

def StoreOperation.Answer : StoreOperation Value → Type
  | get _ _ => Except RecordError (Option (Record Value))
  | put _ _ _ _ => Except RecordError (Record Value)
  | list _ _ => Except RecordError (List (Record Value))
  | delete _ _ => Except RecordError Bool

/-- What an operation meets: the clock, and a backend that may fail. -/
structure Circumstance where
  now : Instant
  failure : Option String

def StoreOperation.refuse (error : RecordError) : (operation : StoreOperation Value) →
    operation.Answer
  | get _ _ => .error error
  | put _ _ _ _ => .error error
  | list _ _ => .error error
  | delete _ _ => .error error

def RecordStore.execute (circumstance : Circumstance) (operation : StoreOperation Value)
    (store : RecordStore Value) : operation.Answer × RecordStore Value :=
  match circumstance.failure with
  | some detail => (operation.refuse (.backend detail), store)
  | none =>
    match operation with
    | .get space key => (.ok (store.get space key), store)
    | .put space key value expectedVersion =>
      store.put space key value expectedVersion circumstance.now
    | .list space limit => (.ok (store.list space limit), store)
    | .delete space key =>
      let deleted := store.delete space key
      (.ok deleted.1, deleted.2)

abbrev StoreProgram (Value Result : Type) :=
  Program (StoreOperation Value) StoreOperation.Answer Result

/-- The serialization of a type of documents; what was written is read back. -/
structure Codec (Value Document : Type) where
  encode : Document → Value
  decode : Value → Except String Document
  decode_encode : ∀ document, decode (encode document) = .ok document

/-- A typed view of one namespace. -/
structure NamespacedStore where
  space : String

def NamespacedStore.get (codec : Codec Value Document) (key : String) :
    StoreProgram Value (Except RecordError (Option (Document × Nat))) := do
  let found : Except RecordError (Option (Record Value)) ←
    Program.perform (StoreOperation.get view.space key)
  match found with
  | .error error => return .error error
  | .ok none => return .ok none
  | .ok (some record) =>
    match codec.decode record.value with
    | .ok document => return .ok (some (document, record.version))
    | .error detail => return .error (.decode key detail)

def NamespacedStore.put (codec : Codec Value Document) (key : String) (document : Document)
    (expectedVersion : Option Nat) : StoreProgram Value (Except RecordError (Record Value)) :=
  Program.perform (StoreOperation.put view.space key (codec.encode document) expectedVersion)

/-- Decode listed records; the first that does not decode fails the listing. -/
def NamespacedStore.decodeAll (codec : Codec Value Document) :
    List (Record Value) → Except RecordError (List (Document × Nat))
  | [] => .ok []
  | record :: rest =>
    match codec.decode record.value with
    | .error detail => .error (.decode record.key detail)
    | .ok document =>
      match decodeAll codec rest with
      | .error error => .error error
      | .ok decoded => .ok ((document, record.version) :: decoded)

def NamespacedStore.list (codec : Codec Value Document) (limit : Nat) :
    StoreProgram Value (Except RecordError (List (Document × Nat))) := do
  let listed : Except RecordError (List (Record Value)) ←
    Program.perform (StoreOperation.list view.space limit)
  match listed with
  | .error error => return .error error
  | .ok records => return decodeAll codec records

/-- How a bounded compare-and-swap loop ends. -/
inductive Modified (Document Refusal Extra : Type) where
  | absent
  | refused (refusal : Refusal)
  | written (document : Document) (extra : Extra)
  | contended
  | failed (error : RecordError)

/-- Read, change, and write back what was read, again after every lost race. -/
def NamespacedStore.modify {Refusal Extra : Type} (view : NamespacedStore)
    (codec : Codec Value Document) (key : String)
    (mutate : Document → Nat → Except Refusal (Document × Extra)) :
    Nat → StoreProgram Value (Modified Document Refusal Extra)
  | 0 => return .contended
  | tries + 1 => do
      match ← view.get codec key with
      | .error error => return .failed error
      | .ok none => return .absent
      | .ok (some (document, version)) =>
        match mutate document version with
        | .error refusal => return .refused refusal
        | .ok (changed, extra) =>
          match ← view.put codec key changed (some version) with
          | .ok _ => return .written changed extra
          | .error (.conflict _ _) => modify view codec key mutate tries
          | .error other => return .failed other

theorem NamespacedStore.modify_succ {Refusal Extra : Type} (codec : Codec Value Document)
    (key : String) (mutate : Document → Nat → Except Refusal (Document × Extra)) (tries : Nat) :
    view.modify codec key mutate (tries + 1) =
      .ask (.get view.space key) fun answer =>
        match answer with
        | .error error => .done (.failed error)
        | .ok none => .done .absent
        | .ok (some record) =>
          match codec.decode record.value with
          | .error detail => .done (.failed (.decode key detail))
          | .ok document =>
            match mutate document record.version with
            | .error refusal => .done (.refused refusal)
            | .ok (changed, extra) =>
              .ask (.put view.space key (codec.encode changed) (some record.version))
                fun answer =>
                  match answer with
                  | .ok _ => .done (.written changed extra)
                  | .error (.conflict _ _) => view.modify codec key mutate tries
                  | .error other => .done (.failed other) := by
  refine congrArg (Program.ask _) (funext fun answer => ?_)
  rcases answer with error | _ | record
  · rfl
  · rfl
  · dsimp only [bind, Program.bind]
    cases codec.decode record.value with
    | error detail => rfl
    | ok document =>
      dsimp only [pure, Program.bind]
      rcases mutate document record.version with refusal | ⟨changed, extra⟩
      · rfl
      · refine congrArg (Program.ask _) (funext fun answer => ?_)
        rcases answer with error | written
        · cases error <;> rfl
        · rfl

theorem NamespacedStore.mem_decodeAll {codec : Codec Value Document} {records : List (Record Value)}
    {decoded : List (Document × Nat)} (all : decodeAll codec records = .ok decoded)
    {document : Document} {version : Nat} (member : (document, version) ∈ decoded) :
    ∃ record ∈ records, codec.decode record.value = .ok document ∧ record.version = version := by
  induction records generalizing decoded with
  | nil =>
    cases all
    cases member
  | cons record rest ih =>
    unfold decodeAll at all
    cases first : codec.decode record.value with
    | error detail =>
      rw [first] at all
      cases all
    | ok head =>
      cases others : decodeAll codec rest with
      | error error =>
        simp only [first, others] at all
        cases all
      | ok tail =>
        simp only [first, others] at all
        cases all
        rcases mem_cons.mp member with same | later
        · cases same
          exact ⟨record, mem_cons_self, first, rfl⟩
        · obtain ⟨other, otherMem, found⟩ := ih others later
          exact ⟨other, mem_cons_of_mem _ otherMem, found⟩

namespace RecordStore

variable {store : RecordStore Value} {space key : String} {record : Record Value}

theorem key_of_get (found : store.get space key = some record) :
    record.space = space ∧ record.key = key := by
  have here := find?_some found
  simpa using here

instance : Std.Symm (@Record.SameKey Value) := ⟨fun _ _ same => ⟨same.1.symm, same.2.symm⟩⟩

theorem mem_of_get (found : store.get space key = some record) : record ∈ store.rows :=
  mem_of_find?_eq_some found

theorem get_of_mem (member : record ∈ store.rows) :
    store.get record.space record.key = some record := by
  cases found : store.get record.space record.key with
  | none =>
    have absent := find?_eq_none.mp found record member
    simp at absent
  | some stored =>
    rw [store.eq_of_clash (mem_of_get found) member (key_of_get found)]

theorem get_of_mem_list {limit : Nat} (listed : record ∈ store.list space limit) :
    store.get space record.key = some record := by
  have kept := mem_insertionSort _ |>.mp (mem_of_mem_take listed)
  obtain ⟨member, here⟩ := mem_filter.mp kept
  rw [← beq_iff_eq.mp here]
  exact get_of_mem member

theorem get_replace :
    (store.replace record).get space key = (store.get space key).map fun stored =>
      if stored.SameKey record then record else stored := by
  unfold get replace
  rw [Table.rows_update, find?_map]
  congr 2
  funext stored
  by_cases same : stored.SameKey record
  · simp [same, same.1, same.2]
  · simp [same]

theorem get_insert_self : (store.insert record).get record.space record.key = some record := by
  unfold insert
  cases found : store.get record.space record.key with
  | some stored =>
    have same : stored.SameKey record := key_of_get found
    simp only [Option.isSome_some, if_true, get_replace, found, Option.map_some, if_pos same]
  | none =>
    have free : store.Free record := by
      intro stored member same
      have absent := find?_eq_none.mp found stored member
      simp [same.1, same.2] at absent
    unfold get at found ⊢
    rw [Option.isSome_none, if_neg Bool.false_ne_true, Table.rows_insertOrIgnore_of_free free,
      find?_append, found]
    simp

theorem get_insert_of_ne (other : ¬ (record.space = space ∧ record.key = key)) :
    (store.insert record).get space key = store.get space key := by
  unfold insert
  split
  · rw [get_replace]
    cases found : store.get space key with
    | none => rfl
    | some stored =>
      have different : ¬ stored.SameKey record := by
        rintro ⟨sameSpace, sameKey⟩
        obtain ⟨here, this⟩ := key_of_get found
        exact other ⟨sameSpace.symm.trans here, sameKey.symm.trans this⟩
      simp only [Option.map_some, if_neg different]
  · by_cases free : store.Free record
    · unfold get
      rw [Table.rows_insertOrIgnore_of_free free, find?_append]
      have missed : ([record].find? fun record => record.space == space && record.key == key) =
          none := by
        simpa using other
      rw [missed, Option.or_none]
    · rw [Table.insertOrIgnore_of_not_free free]

theorem get_delete (store : RecordStore Value) (space key otherSpace otherKey : String) :
    (store.delete space key).2.get otherSpace otherKey =
      if otherSpace = space ∧ otherKey = key then none else store.get otherSpace otherKey := by
  simp only [delete, get, Table.filter, find?_filter]
  split
  · rename_i here
    obtain ⟨rfl, rfl⟩ := here
    rw [find?_eq_none]
    intro record _ found
    simp at found
    tauto
  · rename_i apart
    congr 1
    funext record
    by_cases matched : record.space = otherSpace ∧ record.key = otherKey
    · obtain ⟨rfl, rfl⟩ := matched
      simpa [imp_iff_not_or] using apart
    · have missed : (record.space == otherSpace && record.key == otherKey) = false := by
        simpa using matched
      simp only [missed, Bool.false_eq_true, and_false, decide_false]

/-- Every stored document is still there, unchanged. -/
def Extends (before after : RecordStore Value) : Prop :=
  ∀ space key record, before.get space key = some record → after.get space key = some record

theorem Extends.refl (store : RecordStore Value) : store.Extends store :=
  fun _ _ _ found => found

theorem Extends.trans {first second third : RecordStore Value} (left : first.Extends second)
    (right : second.Extends third) : first.Extends third :=
  fun space key record found => right space key record (left space key record found)

theorem extends_insert (absent : store.get record.space record.key = none) :
    store.Extends (store.insert record) := by
  intro space key stored found
  rw [get_insert_of_ne, found]
  rintro ⟨rfl, rfl⟩
  rw [absent] at found
  cases found

/-- A write is refused for the precondition it breaks, or stores the next version. -/
theorem put_cases (store : RecordStore Value) (space key : String) (value : Value)
    (expected : Option Nat) (now : Instant) :
    (∃ error, casConflict expected (store.get space key) = some error ∧
      store.put space key value expected now = (.error error, store)) ∨
    ∃ record : Record Value, casConflict expected (store.get space key) = none ∧
      store.put space key value expected now = (.ok record, store.insert record) ∧
      record = ⟨space, key, ((store.get space key).map fun stored => stored.version + 1).getD 1,
        value, now⟩ := by
  cases conflict : casConflict expected (store.get space key) with
  | some error => exact .inl ⟨error, rfl, by simp only [put, conflict]⟩
  | none => exact .inr ⟨_, rfl, by simp only [put, conflict], rfl⟩

theorem put_of_version (found : store.get space key = some record) (value : Value) (now : Instant) :
    store.put space key value (some record.version) now =
      (.ok ⟨space, key, record.version + 1, value, now⟩,
        store.insert ⟨space, key, record.version + 1, value, now⟩) := by
  simp [put, found, casConflict]

theorem put_create (positive : ∀ current, store.get space key = some current → current.version ≠ 0)
    (value : Value) (now : Instant) :
    (∃ current, store.get space key = some current ∧
      store.put space key value (some 0) now =
        (.error (.conflict 0 (some current.version)), store)) ∨
    store.get space key = none ∧
      store.put space key value (some 0) now =
        (.ok ⟨space, key, 1, value, now⟩, store.insert ⟨space, key, 1, value, now⟩) := by
  cases found : store.get space key with
  | some current =>
    have newer := positive current found
    refine .inl ⟨current, rfl, ?_⟩
    simp [put, found, casConflict, newer]
  | none => exact .inr ⟨rfl, by simp [put, found, casConflict]⟩

end RecordStore

end UltimateCoders.Governance
