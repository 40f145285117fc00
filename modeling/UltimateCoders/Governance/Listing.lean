import UltimateCoders.Governance.RecordStore
import UltimateCoders.Search.Latest

/-! # Listings

A listing of a namespace holds its first documents in the order of their keys. Where all
documents can be read, the listing is one of documents.
-/

namespace UltimateCoders.Governance

open Transition RecordStore List

variable {Value Document : Type} {store : RecordStore Value} {space : String} {limit : Nat}
  {record : Record Value} {records : List (Record Value)} {codec : Codec Value Document}
  {view : NamespacedStore} {inputs : Nat → Circumstance}

namespace RecordStore

theorem exists_conflict {expected : Option Nat} {found : Option (Record Value)}
    {error : RecordError} (conflict : casConflict expected found = some error) :
    ∃ version actual, error = .conflict version actual := by
  unfold casConflict at conflict
  split at conflict
  · split at conflict
    · exact ⟨_, _, (Option.some.inj conflict).symm⟩
    · cases conflict
  · split at conflict
    · exact ⟨_, _, (Option.some.inj conflict).symm⟩
    · cases conflict
  · cases conflict

/-- How many documents of the namespace have a smaller key. -/
def rank (store : RecordStore Value) (space key : String) : Nat :=
  store.rows.countP fun record => record.space = space ∧ record.key < key

theorem mem_list_iff :
    record ∈ store.list space limit ↔
      record ∈ store.rows ∧ record.space = space ∧ store.rank space record.key < limit := by
  have distinct : (store.rows.filter fun record => record.space == space).Pairwise
      fun first second => first.key ≠ second.key := by
    rw [pairwise_filter]
    refine store.distinct.imp ?_
    intro first second apart firstHere secondHere same
    exact apart ⟨(beq_iff_eq.mp firstHere).trans (beq_iff_eq.mp secondHere).symm, same⟩
  unfold list rank
  rw [Search.mem_take_insertionSort_iff distinct, mem_filter, countP_filter, and_assoc, beq_iff_eq]
  have same : ∀ other : Record Value,
      (decide (other.key < record.key) && other.space == space) =
        decide (other.space = space ∧ other.key < record.key) := by
    intro other
    rw [Bool.eq_iff_iff]
    simp only [Bool.and_eq_true, decide_eq_true_eq, beq_iff_eq]
    exact and_comm
  simp only [same]

/-- The number of documents of a namespace. -/
def count (store : RecordStore Value) (space : String) : Nat :=
  store.rows.countP fun record => record.space = space

theorem rank_lt_count (member : record ∈ store.rows) (own : record.space = space) :
    store.rank space record.key < store.count space := by
  unfold rank count
  let here := store.rows.filter fun other => other.space = space
  have strict : here.countP (fun other => other.key < record.key) < here.length := by
    refine lt_of_le_of_ne countP_le_length fun all => ?_
    have within : record ∈ here := mem_filter.mpr ⟨member, by simpa using own⟩
    have self := countP_eq_length.mp all record within
    exact lt_irrefl _ (of_decide_eq_true self)
  rw [countP_filter, ← countP_eq_length_filter] at strict
  refine lt_of_eq_of_lt ?_ strict
  congr 1
  funext other
  rw [Bool.eq_iff_iff]
  simp only [Bool.and_eq_true, decide_eq_true_eq]
  exact and_comm

theorem rank_of_last {before : List (Record Value)} (rows : store.rows = before ++ [record])
    (smaller : ∀ other ∈ before, other.space = space ∧ other.key < record.key) :
    store.rank space record.key = before.length := by
  have all : ∀ other ∈ before, decide (other.space = space ∧ other.key < record.key) = true :=
    fun other member => decide_eq_true (smaller other member)
  have own : decide (record.space = space ∧ record.key < record.key) = false :=
    decide_eq_false fun below => lt_irrefl _ below.2
  rw [rank, rows, countP_append, countP_eq_length.mpr all, countP_singleton, own]
  rfl

theorem mem_list_of_count_le (small : store.count space ≤ limit) :
    record ∈ store.list space limit ↔ record ∈ store.rows ∧ record.space = space := by
  rw [mem_list_iff]
  apply Iff.intro
  · rintro ⟨member, here, -⟩
    exact ⟨member, here⟩
  · rintro ⟨member, here⟩
    exact ⟨member, here, (rank_lt_count member here).trans_le small⟩

theorem mem_list_iff_get (small : store.count space ≤ limit) :
    record ∈ store.list space limit ↔ store.get space record.key = some record := by
  rw [mem_list_of_count_le small]
  apply Iff.intro
  · rintro ⟨member, rfl⟩
    exact get_of_mem member
  · intro found
    exact ⟨mem_of_get found, (key_of_get found).1⟩

theorem nodup_keys (store : RecordStore Value) (space : String) :
    ((store.rows.filter fun record => record.space = space).map Record.key).Nodup := by
  unfold Nodup
  rw [pairwise_map, pairwise_filter]
  refine store.distinct.imp ?_
  intro first second apart firstHere secondHere sameKey
  rw [decide_eq_true_eq] at firstHere secondHere
  exact apart ⟨firstHere.trans secondHere.symm, sameKey⟩

theorem count_eq_of_isSome {other : RecordStore Value}
    (same : ∀ key, (store.get space key).isSome = (other.get space key).isSome) :
    store.count space = other.count space := by
  have mem_keys : ∀ (store : RecordStore Value) key,
      key ∈ (store.rows.filter fun record => record.space = space).map Record.key ↔
        (store.get space key).isSome = true := by
    intro store key
    simp only [mem_map, mem_filter, decide_eq_true_eq]
    apply Iff.intro
    · rintro ⟨record, ⟨member, rfl⟩, rfl⟩
      rw [get_of_mem member]
      rfl
    · intro present
      obtain ⟨record, found⟩ := Option.isSome_iff_exists.mp present
      exact ⟨record, ⟨mem_of_get found, (key_of_get found).1⟩, (key_of_get found).2⟩
  have perm := (perm_ext_iff_of_nodup (store.nodup_keys space) (other.nodup_keys space)).mpr fun key => by
    rw [mem_keys, mem_keys, same]
  simpa [count, countP_eq_length_filter] using perm.length_eq

end RecordStore

def Readable (codec : Codec Value Document) (records : List (Record Value)) : Prop :=
  ∀ record ∈ records, ∃ document, codec.decode record.value = .ok document

theorem decodeAll_of_readable (readable : Readable codec records) :
    ∃ decoded, NamespacedStore.decodeAll codec records = .ok decoded ∧
      ∀ document version, (document, version) ∈ decoded ↔
        ∃ record ∈ records, codec.decode record.value = .ok document ∧
          record.version = version := by
  induction records with
  | nil => exact ⟨[], rfl, by simp⟩
  | cons record rest ih =>
    obtain ⟨document, first⟩ := readable record mem_cons_self
    obtain ⟨decoded, others, members⟩ :=
      ih fun other member => readable other (mem_cons_of_mem _ member)
    refine ⟨(document, record.version) :: decoded, ?_, fun other version => ?_⟩
    · simp only [NamespacedStore.decodeAll, first, others]
    · simp only [mem_cons, members, exists_eq_or_imp, first, Prod.mk.injEq, Except.ok.injEq,
        @eq_comm _ other, @eq_comm _ version]

/-- The backend never fails. -/
def Steady (inputs : Nat → Circumstance) : Prop := ∀ step, (inputs step).failure = none

theorem Steady.tail (steady : Steady inputs) : Steady fun step => inputs (step + 1) :=
  fun step => steady (step + 1)

theorem list_alone (steady : Steady inputs) (view : NamespacedStore)
    (codec : Codec Value Document) (limit : Nat) :
    (view.list codec limit).alone execute inputs store =
      (NamespacedStore.decodeAll codec (store.list view.space limit),
        (fun step => inputs (step + 1)), store) := by
  have answered : execute (inputs 0) (.list view.space limit) store =
      (.ok (store.list view.space limit), store) := by
    simp only [execute, steady 0]
  unfold NamespacedStore.list
  simp only [bind, Program.bind, Program.perform, Program.alone, answered]
  rfl

theorem write_alone (steady : Steady inputs) (view : NamespacedStore)
    (codec : Codec Value Document) (key : String) (document : Document) (expected : Option Nat) :
    (view.put codec key document expected).alone execute inputs store =
      ((store.put view.space key (codec.encode document) expected (inputs 0).now).1,
        (fun step => inputs (step + 1)),
        (store.put view.space key (codec.encode document) expected (inputs 0).now).2) := by
  have answered : execute (inputs 0)
      (.put view.space key (codec.encode document) expected) store =
      store.put view.space key (codec.encode document) expected (inputs 0).now := by
    simp only [execute, steady 0]
    rfl
  simp only [NamespacedStore.put, Program.perform, Program.alone, answered]

end UltimateCoders.Governance
