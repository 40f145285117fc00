import UltimateCoders.Governance.NewestMandate

/-! # The oldest permit

Of the permits that a call could use, the one that was decided first is to be found and
spent. It is looked for among the first documents of the namespace in the order of their
keys, whatever their state: a permit that enough others come before is not seen.
-/

namespace UltimateCoders.Governance

open Transition ApprovalStore RecordStore
open NamespacedStore (decodeAll)
open List

variable {Value : Type} {codec : Codec Value ToolApproval} {store : RecordStore Value}
  {tool : String} {caseId : Option String} {now : Instant} {inputs : Nat → Circumstance}
  {approval : ToolApproval} {entries : List (ToolApproval × Nat)} {entry : ToolApproval × Nat}

def ToolApproval.decisionTime (approval : ToolApproval) : Instant :=
  approval.decidedAt.getD approval.requestedAt

/-- The permits that a call for the tool and case could use. -/
def permitsFor (codec : Codec Value ToolApproval) (store : RecordStore Value) (tool : String)
    (caseId : Option String) (now : Instant) : Set ToolApproval :=
  {approval | ∃ record ∈ store.rows, record.space = approvalNamespace ∧
    codec.decode record.value = .ok approval ∧
    approval.isUsable now = true ∧ approval.covers tool caseId = true}

/-- Of these permits it was decided first. -/
def IsOldest (permits : Set ToolApproval) (approval : ToolApproval) : Prop :=
  approval ∈ permits ∧ ∀ other ∈ permits, approval.decisionTime ≤ other.decisionTime

/-- Whenever there is a permit, the oldest one is found, and spent by a call that runs alone. -/
def PermitServed (codec : Codec Value ToolApproval) (tool : String) (caseId : Option String)
    (now : Instant) (store : RecordStore Value) : Prop :=
  ∀ inputs, Steady inputs → (permitsFor codec store tool caseId now).Nonempty →
    (∃ approval, ((findApproved codec tool caseId now).alone execute
        inputs store).1 = .ok (some approval) ∧
      IsOldest (permitsFor codec store tool caseId now) approval) ∧
    ∃ approval used, ((consumeApproved codec tool caseId now).alone
        execute inputs store).1 = .ok (some used) ∧ approval.consume now = .ok used ∧
      IsOldest (permitsFor codec store tool caseId now) approval

theorem decisionTime_of_consume {used : ToolApproval} (consumed : approval.consume now = .ok used) :
    used.decisionTime = approval.decisionTime := by
  unfold ToolApproval.consume at consumed
  split_ifs at consumed
  rw [← Except.ok.inj consumed]
  rfl

/-- The document that is stored under the id of the permit has this version. -/
def Writable (store : RecordStore Value) (entry : ToolApproval × Nat) : Bool :=
  (casConflict (some entry.2) (store.get approvalNamespace entry.1.id)).isNone

/-- There is no permit, or the first documents can be read and an oldest permit that can be
written back is among them. -/
def OldestSeen (codec : Codec Value ToolApproval) (tool : String) (caseId : Option String)
    (now : Instant) (store : RecordStore Value) : Prop :=
  permitsFor codec store tool caseId now = ∅ ∨
    (∀ record ∈ store.rows, record.space = approvalNamespace →
      store.rank approvalNamespace record.key < approvalScanLimit →
      ∃ document, codec.decode record.value = .ok document) ∧
    ∃ record ∈ store.rows, record.space = approvalNamespace ∧
      store.rank approvalNamespace record.key < approvalScanLimit ∧
      ∃ approval, codec.decode record.value = .ok approval ∧
        IsOldest (permitsFor codec store tool caseId now) approval ∧
        Writable store (approval, record.version) = true

theorem pairwise_candidates (approvals : List (ToolApproval × Nat)) :
    (candidates tool caseId now approvals).Pairwise
      fun first second => first.1.decisionTime ≤ second.1.decisionTime := by
  let earlier := fun first second : ToolApproval × Nat =>
    first.1.decisionTime ≤ second.1.decisionTime
  have total : Std.Total earlier := ⟨fun first second => le_total _ _⟩
  have trans : IsTrans _ earlier := ⟨fun first second third => le_trans⟩
  exact pairwise_insertionSort earlier _

theorem decisionTime_le_of_find? {meets : ToolApproval × Nat → Bool}
    (sorted : entries.Pairwise fun first second => first.1.decisionTime ≤ second.1.decisionTime)
    (found : entries.find? meets = some entry) {other : ToolApproval × Nat} (member : other ∈ entries)
    (alsoMeets : meets other = true) : entry.1.decisionTime ≤ other.1.decisionTime := by
  obtain ⟨-, before, after, rfl, skipped⟩ := find?_eq_some_iff_append.mp found
  rcases mem_append.mp member with earlier | later
  · simpa [alsoMeets] using skipped other earlier
  · rcases mem_cons.mp later with rfl | later
    · exact le_rfl
    · exact (pairwise_cons.mp (pairwise_append.mp sorted).2.1).1 other later

theorem readable_of_decodeAll {records : List (Record Value)} {decoded : List (ToolApproval × Nat)}
    (all : decodeAll codec records = .ok decoded) : Readable codec records := by
  induction records generalizing decoded with
  | nil => simp [Readable]
  | cons record rest ih =>
    unfold decodeAll at all
    cases first : codec.decode record.value with
    | error detail => simp [first] at all
    | ok document =>
      cases others : decodeAll codec rest with
      | error error => simp [first, others] at all
      | ok tail =>
        simp only [Readable, mem_cons, forall_eq_or_imp]
        exact ⟨⟨document, first⟩, ih others⟩

/-- The listing that both calls look through. -/
def scanned (codec : Codec Value ToolApproval) (store : RecordStore Value) :
    Except RecordError (List (ToolApproval × Nat)) :=
  decodeAll codec (store.list approvalNamespace approvalScanLimit)

theorem scan_alone (steady : Steady inputs) :
    (scan codec).alone execute inputs store =
      ((scanned codec store).mapError ApprovalStoreError.store, fun step => inputs (step + 1),
        store) := by
  unfold scan scanned
  rw [Program.alone_bind, list_alone steady]
  dsimp only [view]
  cases decodeAll codec (store.list approvalNamespace approvalScanLimit) <;> rfl

theorem findApproved_result (steady : Steady inputs) :
    ((findApproved codec tool caseId now).alone execute inputs store).1 =
      ((scanned codec store).mapError ApprovalStoreError.store).map fun approvals =>
        (candidates tool caseId now approvals).head?.map Prod.fst := by
  unfold findApproved
  rw [Program.alone_bind, scan_alone steady]
  cases scanned codec store <;> rfl

theorem consumeFirst_result (steady : Steady inputs)
    (usable : ∀ entry ∈ entries, entry.1.isUsable now = true) :
    ((consumeFirst codec now entries).alone execute inputs store).1 =
      .ok ((entries.find? (Writable store)).map fun entry =>
        { entry.1 with state := .used, usedAt := some now }) := by
  induction entries generalizing inputs with
  | nil => rfl
  | cons entry rest ih =>
    obtain ⟨approval, version⟩ := entry
    have consumed : approval.consume now =
        .ok { approval with state := .used, usedAt := some now } := by
      rw [ToolApproval.consume, usable (approval, version) mem_cons_self]
      rfl
    have later := ih steady.tail fun entry member => usable entry (mem_cons_of_mem _ member)
    unfold consumeFirst
    rw [consumed]
    dsimp only
    rw [Program.alone_bind, write_alone steady]
    dsimp only [put, view]
    cases conflict : casConflict (some version) (store.get approvalNamespace approval.id) with
    | none =>
      rw [find?_cons_of_pos (by simp [Writable, conflict])]
      rfl
    | some error =>
      obtain ⟨expected, actual, rfl⟩ := exists_conflict conflict
      rw [find?_cons_of_neg (by simp [Writable, conflict])]
      exact later

theorem consumeApproved_result (steady : Steady inputs) :
    ((consumeApproved codec tool caseId now).alone execute inputs
        store).1 =
      ((scanned codec store).mapError ApprovalStoreError.store).map fun approvals =>
        ((candidates tool caseId now approvals).find? (Writable store)).map
          fun entry => { entry.1 with state := .used, usedAt := some now } := by
  unfold consumeApproved
  rw [Program.alone_bind, scan_alone steady]
  cases scanned codec store with
  | error error => rfl
  | ok approvals =>
    exact consumeFirst_result steady.tail fun entry member => (mem_candidates member).2.1

variable {approvals : List (ToolApproval × Nat)}

/-- The candidates are the permits among the first documents. -/
theorem mem_candidates_iff (all : scanned codec store = .ok approvals) :
    entry ∈ candidates tool caseId now approvals ↔
      (∃ record ∈ store.rows, record.space = approvalNamespace ∧
        store.rank approvalNamespace record.key < approvalScanLimit ∧
        codec.decode record.value = .ok entry.1 ∧ record.version = entry.2) ∧
      entry.1.isUsable now = true ∧ entry.1.covers tool caseId = true := by
  obtain ⟨decoded, alsoAll, members⟩ := decodeAll_of_readable (readable_of_decodeAll all)
  obtain rfl : approvals = decoded := Except.ok.inj (all.symm.trans alsoAll)
  unfold candidates
  rw [mem_insertionSort, mem_filter, Bool.and_eq_true, members]
  simp only [mem_list_iff, and_assoc]

theorem readable_iff :
    Readable codec (store.list approvalNamespace approvalScanLimit) ↔
      ∀ record ∈ store.rows, record.space = approvalNamespace →
        store.rank approvalNamespace record.key < approvalScanLimit →
        ∃ document, codec.decode record.value = .ok document := by
  simp only [Readable, mem_list_iff, and_imp]

theorem mem_permitsFor_of_candidate (all : scanned codec store = .ok approvals)
    (member : entry ∈ candidates tool caseId now approvals) :
    entry.1 ∈ permitsFor codec store tool caseId now := by
  obtain ⟨⟨record, stored, here, -, read, -⟩, fits⟩ := (mem_candidates_iff all).mp member
  exact ⟨record, stored, here, read, fits⟩

theorem isOldest_of_find? (all : scanned codec store = .ok approvals)
    (meets : ToolApproval × Nat → Bool) {oldest : ToolApproval × Nat}
    (member : oldest ∈ candidates tool caseId now approvals)
    (isOldest : IsOldest (permitsFor codec store tool caseId now) oldest.1)
    (oldestMeets : meets oldest = true) :
    ∃ found, (candidates tool caseId now approvals).find? meets = some found ∧
      IsOldest (permitsFor codec store tool caseId now) found.1 := by
  cases found : (candidates tool caseId now approvals).find? meets with
  | none => exact absurd oldestMeets (find?_eq_none.mp found oldest member)
  | some entry =>
    refine ⟨entry, rfl,
      mem_permitsFor_of_candidate all (mem_of_find?_eq_some found), fun other permit => ?_⟩
    exact (decisionTime_le_of_find? (pairwise_candidates approvals) found member oldestMeets).trans
      (isOldest.2 other permit)

/-- The oldest permit is found and spent exactly where it is seen. -/
theorem permitServed_iff (codec : Codec Value ToolApproval) (tool : String)
    (caseId : Option String) (now : Instant) (store : RecordStore Value) :
    PermitServed codec tool caseId now store ↔ OldestSeen codec tool caseId now store := by
  constructor
  · intro served
    by_cases nothing : permitsFor codec store tool caseId now = ∅
    · exact .inl nothing
    · have steady : Steady fun _ => ⟨0, none⟩ := fun _ => rfl
      obtain ⟨-, approval, used, spent, consumed, isOldest⟩ :=
        served _ steady (Set.nonempty_iff_ne_empty.mpr nothing)
      rw [consumeApproved_result steady] at spent
      cases all : scanned codec store with
      | error error => simp [all, Except.mapError, Except.map] at spent
      | ok approvals =>
        refine .inr ⟨readable_iff.mp (readable_of_decodeAll all), ?_⟩
        simp only [all, Except.mapError, Except.map, Except.ok.injEq,
          Option.map_eq_some_iff] at spent
        obtain ⟨entry, found, rfl⟩ := spent
        have member := mem_of_find?_eq_some found
        obtain ⟨⟨record, stored, here, first, read, version⟩, -⟩ :=
          (mem_candidates_iff all).mp member
        refine ⟨record, stored, here, first, entry.1, read,
          ⟨mem_permitsFor_of_candidate all member, ?_⟩, ?_⟩
        · have sameTime := decisionTime_of_consume consumed
          intro other permit
          exact (show entry.1.decisionTime = _ from sameTime).trans_le (isOldest.2 other permit)
        · rw [version]
          exact find?_some found
  · rintro (nothing | ⟨readable, record, stored, here, first, approval, read, isOldest, writable⟩)
      inputs steady some_
    · exact absurd nothing some_.ne_empty
    · obtain ⟨approvals, all, -⟩ := decodeAll_of_readable (readable_iff.mpr readable)
      have member : (approval, record.version) ∈ candidates tool caseId now approvals :=
        (mem_candidates_iff all).mpr
          ⟨⟨record, stored, here, first, read, rfl⟩, isOldest.1.choose_spec.2.2.2⟩
      have all' : scanned codec store = .ok approvals := all
      rw [findApproved_result steady, consumeApproved_result steady, all']
      dsimp only [Except.mapError, Except.map]
      constructor
      · obtain ⟨found, isFound, foundOldest⟩ :=
          isOldest_of_find? all (fun _ => true) member isOldest rfl
        have first : (candidates tool caseId now approvals).head? = some found := by
          rw [← isFound]
          cases candidates tool caseId now approvals <;> rfl
        exact ⟨found.1, by rw [first, Option.map_some], foundOldest⟩
      · obtain ⟨spent, isSpent, spentOldest⟩ := isOldest_of_find? all _ member isOldest writable
        refine ⟨spent.1, _, by rw [isSpent, Option.map_some], ?_, spentOldest⟩
        obtain ⟨-, usable, -⟩ := mem_candidates (mem_of_find?_eq_some isSpent)
        rw [ToolApproval.consume, usable]
        rfl

def shellApproval (id : String) (state : ApprovalState) : ToolApproval where
  id := id
  request := ⟨"Bash", some "case-1", none, none, ⟨.agent, "executor"⟩, none⟩
  state := state
  requestedAt := 0
  expiresAt := 10
  decidedAt := some 1
  decidedBy := some ⟨.user, "alice"⟩
  note := none
  usedAt := none

def approvalRecord (approval : ToolApproval) : Record (ToolApproval ⊕ Mandate) :=
  ⟨approvalNamespace, approval.id, 1, .inl approval, 0⟩

/-- The documents of 512 permits that were spent. -/
def spentRecords : List (Record (ToolApproval ⊕ Mandate)) :=
  (range approvalScanLimit).map fun index =>
    approvalRecord (shellApproval (otherId index) .used)

/-- The document of a permit that was not. -/
def liveRecord : Record (ToolApproval ⊕ Mandate) := approvalRecord (shellApproval "b" .approved)

def crowdedPermits : RecordStore (ToolApproval ⊕ Mandate) where
  rows := spentRecords ++ [liveRecord]
  distinct := distinct_crowded (fun _ => rfl) rfl

theorem mem_spentRecords {record : Record (ToolApproval ⊕ Mandate)} (member : record ∈ spentRecords) :
    ∃ index, record = approvalRecord (shellApproval (otherId index) .used) := by
  obtain ⟨index, -, rfl⟩ := mem_map.mp member
  exact ⟨index, rfl⟩

theorem rank_crowdedPermits :
    crowdedPermits.rank approvalNamespace liveRecord.key = approvalScanLimit := by
  have smaller : ∀ other ∈ spentRecords,
      other.space = approvalNamespace ∧ other.key < liveRecord.key := by
    intro other member
    obtain ⟨index, rfl⟩ := mem_spentRecords member
    exact ⟨rfl, otherId_lt index⟩
  have rows : crowdedPermits.rows = spentRecords ++ [liveRecord] := rfl
  rw [rank_of_last rows smaller, spentRecords, length_map, length_range]

theorem mem_permitsFor_crowdedPermits :
    shellApproval "b" .approved ∈
      permitsFor plainPolicy.approval crowdedPermits "Bash" (some "case-1") 2 := by
  refine ⟨liveRecord, mem_append_right _ (mem_singleton_self _), rfl, rfl, ?_, ?_⟩
  · decide
  · decide +kernel

theorem mem_crowdedPermits {record : Record (ToolApproval ⊕ Mandate)}
    (member : record ∈ crowdedPermits.rows) : record ∈ spentRecords ∨ record = liveRecord := by
  rcases mem_append.mp member with spent | live
  · exact .inl spent
  · exact .inr (mem_singleton.mp live)

theorem not_mem_candidates_crowdedPermits
    (all : scanned plainPolicy.approval crowdedPermits = .ok approvals)
    (entry : ToolApproval × Nat) :
    entry ∉ candidates "Bash" (some "case-1") 2 approvals := by
  intro member
  obtain ⟨⟨record, stored, -, seen, read, -⟩, usable, -⟩ := (mem_candidates_iff all).mp member
  rcases mem_crowdedPermits stored with spent | rfl
  · obtain ⟨index, rfl⟩ := mem_spentRecords spent
    have spentState : entry.1.state = .used := by
      rw [← Except.ok.inj read]
      rfl
    simp [ToolApproval.isUsable, spentState] at usable
  · rw [rank_crowdedPermits] at seen
    exact lt_irrefl _ seen

/-- A permit behind 512 that were spent is not found. -/
theorem permitServed_fails_crowded :
    shellApproval "b" .approved ∈
      permitsFor plainPolicy.approval crowdedPermits "Bash" (some "case-1") 2 ∧
    ¬ PermitServed plainPolicy.approval "Bash" (some "case-1") 2 crowdedPermits := by
  refine ⟨mem_permitsFor_crowdedPermits, fun served => ?_⟩
  have steady : Steady fun _ => ⟨0, none⟩ := fun _ => rfl
  obtain ⟨⟨approval, found, -⟩, -⟩ := served _ steady ⟨_, mem_permitsFor_crowdedPermits⟩
  rw [findApproved_result steady] at found
  cases all : scanned plainPolicy.approval crowdedPermits with
  | error error => 
      rw [all] at found
      cases found
  | ok approvals =>
    rw [all] at found
    simp only [Except.mapError, Except.map, Except.ok.injEq, Option.map_eq_some_iff] at found
    obtain ⟨entry, first, -⟩ := found
    exact not_mem_candidates_crowdedPermits all entry (mem_of_head? first)

end UltimateCoders.Governance
