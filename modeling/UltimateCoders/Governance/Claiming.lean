import UltimateCoders.Governance.Delivery
import UltimateCoders.Governance.Listing

/-! # Claims without company

A claim that runs without concurrent writers takes the due entries of the listing
that it has made, in key order and up to its limit. The listing is bounded before
it is filtered, so what it leaves out is not claimed.
-/

namespace UltimateCoders.Governance

open Transition OutboxQueue RecordStore Instant List

variable {Value Document : Type}

/-- The outbox holds entries, each under its own key. -/
def OutboxContent (codec : Codec Value OutboxEntry) (store : RecordStore Value) : Prop :=
  ∀ record ∈ store.rows, record.space = outboxNamespace →
    ∃ entry, codec.decode record.value = .ok entry ∧ entry.key = record.key

def entriesOf (codec : Codec Value OutboxEntry) (records : List (Record Value)) : List OutboxEntry :=
  records.filterMap fun record => (codec.decode record.value).toOption

def dueCount (codec : Codec Value OutboxEntry) (now : Instant) (records : List (Record Value)) :
    Nat :=
  (entriesOf codec records).countP fun entry => entry.isDue (timestampMillis now)

def outboxRecords (store : RecordStore Value) : List (Record Value) :=
  store.rows.filter fun record => record.space == outboxNamespace

/-- The records of the outbox that a claim looks at. -/
def claimWindow (store : RecordStore Value) (limit : Nat) : List (Record Value) :=
  store.list outboxNamespace (max (saturatingMul64 limit 4) limit)

section Claim

variable {codec : Codec Value OutboxEntry} {now : Instant} {limit : Nat}
  {inputs : Nat → Circumstance}

def claimsOf (now : Instant) (limit : Nat) (candidates : List (OutboxEntry × Nat)) :
    List OutboxEntry :=
  (((candidates.map Prod.fst).filter fun entry => entry.isDue (timestampMillis now)).take
    limit).map fun entry => entry.held now

def UpToDate (store : RecordStore Value) (candidates : List (OutboxEntry × Nat)) : Prop :=
  ∀ candidate ∈ candidates, ∃ record,
    store.get outboxNamespace candidate.1.key = some record ∧ record.version = candidate.2

variable {store : RecordStore Value} {record : Record Value}

theorem UpToDate.tail {candidate : OutboxEntry × Nat} {rest : List (OutboxEntry × Nat)}
    (upToDate : UpToDate store (candidate :: rest)) : UpToDate store rest :=
  fun other member => upToDate other (mem_cons_of_mem _ member)

theorem UpToDate.insert {candidates : List (OutboxEntry × Nat)}
    (upToDate : UpToDate store candidates)
    (apart : ∀ candidate ∈ candidates, candidate.1.key ≠ record.key) :
    UpToDate (store.insert record) candidates := by
  intro candidate member
  obtain ⟨stored, found, version⟩ := upToDate candidate member
  refine ⟨stored, ?_, version⟩
  rw [get_insert_of_ne, found]
  rintro ⟨-, same⟩
  exact apart candidate member same.symm

theorem claimsOf_cons_of_not_due {entry : OutboxEntry} (version : Nat)
    (rest : List (OutboxEntry × Nat)) (early : ¬ entry.isDue (timestampMillis now) = true) :
    claimsOf now limit ((entry, version) :: rest) = claimsOf now limit rest := by
  simp [claimsOf, early]

theorem claimsOf_cons_of_due {entry : OutboxEntry} (version : Nat)
    (rest : List (OutboxEntry × Nat)) (due : entry.isDue (timestampMillis now) = true) :
    claimsOf now (limit + 1) ((entry, version) :: rest) =
      entry.held now :: claimsOf now limit rest := by
  simp [claimsOf, due]

theorem put_alone (steady : Steady inputs) (view : NamespacedStore)
    (documents : Codec Value Document) {key : String}
    (found : store.get view.space key = some record) (document : Document) :
    ∃ written : Record Value, written.space = view.space ∧ written.key = key ∧
      (view.put documents key document (some record.version)).alone execute inputs
        store = (.ok written, (fun step => inputs (step + 1)), store.insert written) := by
  refine ⟨⟨view.space, key, record.version + 1, documents.encode document, (inputs 0).now⟩, rfl,
    rfl, ?_⟩
  simp only [NamespacedStore.put, Program.perform, Program.alone, execute, steady 0,
    put_of_version found]

/-- Without company, every due entry is claimed while there is room. -/
theorem claimEach_alone (steady : Steady inputs) (candidates : List (OutboxEntry × Nat))
    (claimed : List OutboxEntry) (upToDate : UpToDate store candidates)
    (apart : (candidates.map fun candidate => candidate.1.key).Nodup)
    (room : claimed.length ≤ limit) :
    ((claimEach codec now limit candidates claimed).alone execute inputs
      store).1 = .ok (claimed ++ claimsOf now (limit - claimed.length) candidates) := by
  induction candidates generalizing claimed store inputs with
  | nil => simp [claimEach, claimsOf, Program.alone, pure]
  | cons candidate rest ih =>
    obtain ⟨entry, version⟩ := candidate
    rw [map_cons, nodup_cons] at apart
    unfold claimEach
    split
    · rename_i full
      have none : limit - claimed.length = 0 := by omega
      simp [none, claimsOf, Program.alone, pure]
    · rename_i notFull
      split
      · rename_i skipped
        have early : ¬ entry.isDue (timestampMillis now) = true := by
          intro due
          simp [due, OutboxEntry.pending_of_isDue due] at skipped
        rw [ih steady claimed upToDate.tail apart.2 room, claimsOf_cons_of_not_due version rest early]
      · rename_i due
        have isDue : entry.isDue (timestampMillis now) = true := by
          by_contra early
          exact due (by simp [Bool.eq_false_iff.mpr early])
        obtain ⟨record, found, rfl⟩ := upToDate (entry, version) mem_cons_self
        obtain ⟨written, -, writtenKey, wrote⟩ :=
          put_alone steady view codec found (entry.held now)
        have others : ∀ candidate ∈ rest, candidate.1.key ≠ written.key := by
          intro candidate member same
          apply apart.1
          rw [mem_map]
          exact ⟨candidate, member, same.trans writtenKey⟩
        have onward := ih steady.tail (claimed ++ [entry.held now]) (upToDate.tail.insert others)
          apart.2 (by simp only [length_append, length_singleton]; omega)
        obtain ⟨left, more⟩ : ∃ left, limit - claimed.length = left + 1 :=
          ⟨limit - claimed.length - 1, by omega⟩
        have less : limit - (claimed ++ [entry.held now]).length = left := by
          simp only [length_append, length_singleton]
          omega
        rw [Program.alone_bind]
        rw [show (entry.held now).key = entry.key from rfl, wrote, more,
          claimsOf_cons_of_due record.version rest isDue]
        rw [less, append_assoc, singleton_append] at onward
        exact onward

theorem decodeAll_of_content (content : OutboxContent codec store) {records : List (Record Value)}
    (listed : ∀ record ∈ records, record ∈ outboxRecords store) :
    ∃ candidates, NamespacedStore.decodeAll codec records = .ok candidates ∧
      candidates.map Prod.fst = entriesOf codec records ∧
      candidates.map (fun candidate => (candidate.1.key, candidate.2)) =
        records.map fun record => (record.key, record.version) := by
  induction records with
  | nil => exact ⟨[], rfl, rfl, rfl⟩
  | cons record rest ih =>
    obtain ⟨candidates, decodedAll, entries, places⟩ :=
      ih fun other member => listed other (mem_cons_of_mem _ member)
    obtain ⟨member, space⟩ := mem_filter.mp (listed record mem_cons_self)
    obtain ⟨entry, decoded, sameKey⟩ := content record member (beq_iff_eq.mp space)
    refine ⟨(entry, record.version) :: candidates, ?_, ?_, ?_⟩
    · simp only [NamespacedStore.decodeAll, decoded, decodedAll]
    · simp only [entriesOf, map_cons, filterMap_cons, decoded, Except.toOption]
      rw [entries]
      rfl
    · rw [map_cons, map_cons, places, sameKey]

theorem mem_outboxRecords_of_window (member : record ∈ claimWindow store limit) :
    record ∈ outboxRecords store :=
  (mem_insertionSort _).mp (mem_of_mem_take member)

theorem window_apart (store : RecordStore Value) (limit : Nat) :
    ((claimWindow store limit).map Record.key).Nodup := by
  have records : ((outboxRecords store).map Record.key).Nodup := by
    rw [Nodup, pairwise_map]
    have distinct := store.distinct.sublist
      (filter_sublist (p := fun record => record.space == outboxNamespace))
    apply distinct.imp_of_mem
    intro first second firstMem secondMem apart sameKey
    have firstSpace := beq_iff_eq.mp (mem_filter.mp firstMem).2
    have secondSpace := beq_iff_eq.mp (mem_filter.mp secondMem).2
    exact apart ⟨firstSpace.trans secondSpace.symm, sameKey⟩
  have sorted := ((perm_insertionSort (fun first second => first.key ≤ second.key)
    (outboxRecords store)).map Record.key).nodup_iff.mpr records
  exact sorted.sublist ((take_sublist _ _).map _)

theorem claimDue_alone (content : OutboxContent codec store) (steady : Steady inputs) :
    ((claimDue codec now limit).alone execute inputs store).1 =
      .ok (((((entriesOf codec (claimWindow store limit)).filter fun entry =>
        entry.isDue (timestampMillis now)).take limit).map fun entry =>
          entry.held now).insertionSort fun first second => first.createdAt ≤ second.createdAt) := by
  obtain ⟨candidates, decodedAll, entries, places⟩ :=
    decodeAll_of_content content fun record (member : record ∈ claimWindow store limit) =>
      mem_outboxRecords_of_window member
  have keys : candidates.map (fun candidate => candidate.1.key) =
      (claimWindow store limit).map Record.key := by
    have first := congrArg (map Prod.fst) places
    simpa [map_map, Function.comp_def] using first
  have upToDate : UpToDate store candidates := by
    intro candidate member
    have place : (candidate.1.key, candidate.2) ∈
        (claimWindow store limit).map fun record => (record.key, record.version) := by
      rw [← places]
      exact mem_map_of_mem member
    obtain ⟨record, listed, same⟩ := mem_map.mp place
    obtain ⟨sameKey, version⟩ := Prod.mk.inj same
    refine ⟨record, ?_, version⟩
    rw [← sameKey]
    exact get_of_mem_list listed
  have apart : (candidates.map fun candidate => candidate.1.key).Nodup := by
    rw [keys]
    exact window_apart store limit
  have claimed : ((claimEach codec now limit candidates []).alone execute
      (fun step => inputs (step + 1)) store).1 = .ok (claimsOf now limit candidates) :=
    claimEach_alone steady.tail candidates [] upToDate apart (Nat.zero_le _)
  unfold claimDue
  rw [Program.alone_bind, list_alone steady]
  rw [show store.list view.space (max (saturatingMul64 limit 4) limit) =
    claimWindow store limit from rfl, decodedAll]
  dsimp only
  rw [Program.alone_bind, claimed, claimsOf, entries]
  rfl

theorem dueCount_window_le (codec : Codec Value OutboxEntry) (now : Instant)
    (store : RecordStore Value) (limit : Nat) :
    dueCount codec now (claimWindow store limit) ≤ dueCount codec now (outboxRecords store) := by
  have sorted := (perm_insertionSort (fun first second => first.key ≤ second.key)
    (outboxRecords store)).filterMap fun record => (codec.decode record.value).toOption
  have within := (take_sublist (max (saturatingMul64 limit 4) limit)
    ((outboxRecords store).insertionSort fun first second => first.key ≤ second.key)).filterMap
      fun record => (codec.decode record.value).toOption
  have fewer := within.countP_le (p := fun entry => entry.isDue (timestampMillis now))
  rw [sorted.countP_eq] at fewer
  exact fewer

/-- A claim without company returns all it should exactly if enough of the due entries
are in its window. -/
theorem claimDue_exact_iff (content : OutboxContent codec store) (steady : Steady inputs) :
    (∃ entries, ((claimDue codec now limit).alone execute inputs
        store).1 = .ok entries ∧
      entries.length = min limit (dueCount codec now (outboxRecords store))) ↔
    min limit (dueCount codec now (outboxRecords store)) ≤
      dueCount codec now (claimWindow store limit) := by
  have fewer := dueCount_window_le codec now store limit
  have counted : ∀ due : OutboxEntry → Bool,
      ((((entriesOf codec (claimWindow store limit)).filter due).take limit).map fun entry =>
        entry.held now).length = min limit ((entriesOf codec (claimWindow store limit)).countP due) := by
    intro due
    rw [length_map, length_take, countP_eq_length_filter]
  rw [claimDue_alone content steady]
  constructor
  · intro claimed
    obtain ⟨entries, same, exact⟩ := claimed
    cases same
    rw [length_insertionSort, counted] at exact
    unfold dueCount at fewer exact ⊢
    omega
  · intro enough
    refine ⟨_, rfl, ?_⟩
    rw [length_insertionSort, counted]
    unfold dueCount at fewer enough ⊢
    omega

end Claim

def outboxOf (entries : List OutboxEntry) : RecordStore OutboxEntry :=
  entries.foldl (fun store entry => store.insert ⟨outboxNamespace, entry.key, 1, entry, 0⟩) .empty

/-- Four delivered entries, whose keys come before the one that is due. -/
def finishedFirst : List OutboxEntry :=
  (["a1", "a2", "a3", "a4"].map fun key =>
    (OutboxEntry.new key "uc.task.submit" "\x7b\x7d" 0).markDelivered 0) ++
  [.new "b1" "uc.task.submit" "\x7b\x7d" 0]

def twoDue : RecordStore OutboxEntry :=
  outboxOf [.new "k1" "uc.task.submit" "\x7b\x7d" 0, .new "k2" "uc.task.submit" "\x7b\x7d" 0]

theorem claimDue_exact_iff_twoDue :
    OutboxContent plainOutbox twoDue ∧
      (∃ entries, ((claimDue plainOutbox 0 1).alone execute
          (fun _ => ⟨0, none⟩) twoDue).1 = .ok entries ∧
        entries.length = min 1 (dueCount plainOutbox 0 (outboxRecords twoDue))) ∧
      dueCount plainOutbox 0 (outboxRecords twoDue) = 2 := by
  have sameKeys : ∀ record ∈ twoDue.rows, record.value.key = record.key := by decide
  have content : OutboxContent plainOutbox twoDue := fun record member _ =>
    ⟨record.value, rfl, sameKeys record member⟩
  exact ⟨content, (claimDue_exact_iff content fun _ => rfl).mpr (by decide), by decide⟩

/-- A claim of one entry finds none, though one is due. -/
theorem claimDue_exact_fails_finishedFirst :
    ((claimDue plainOutbox 0 1).alone execute (fun _ => ⟨0, none⟩)
        (outboxOf finishedFirst)).1 = .ok [] ∧
      min 1 (dueCount plainOutbox 0 (outboxRecords (outboxOf finishedFirst))) = 1 :=
  ⟨rfl, by decide⟩

end UltimateCoders.Governance
