import UltimateCoders.Governance.RecordStore

/-! # The record store in PostgreSQL

The table `governance_records` holds the same documents as the store in memory, and
every write is one statement whose guard is the compare-and-swap. The guard belongs to
the update of a stored row: a write that finds no row inserts one, whatever version it
expects. Apart from such a write, and from versions that a column cannot hold, the two
stores give the same answers. Texts are taken to fit into a `TEXT` column, which refuses
U+0000, and payloads to be read back from `JSONB` as they were written.
-/

namespace UltimateCoders.Governance

open Relational List

variable {Value : Type}

/-- The first number that a `BIGINT` cannot hold. -/
def bigintBound : Nat := 2 ^ 63

/-- What a number of 64 bits is as a `BIGINT`. -/
def asBigint (number : Nat) : Int := Int.bmod number (2 ^ 64)

namespace PostgresRecordStore

/-- `INSERT … ON CONFLICT (namespace, key) DO UPDATE … WHERE … RETURNING version`: the row
that was inserted or updated, if any. -/
def upsert (table : RecordStore Value) (space key : String) (payload : Value)
    (expected : Option Int) (now : Instant) :
    Except String (Option (Record Value)) × RecordStore Value :=
  match table.get space key with
  | none =>
    let row : Record Value := ⟨space, key, 1, payload, now⟩
    (.ok (some row), table.insert row)
  | some stored =>
    if expected = none ∨ expected = some (stored.version : Int) then
      if stored.version + 1 < bigintBound then
        let row : Record Value := ⟨space, key, stored.version + 1, payload, now⟩
        (.ok (some row), table.insert row)
      else (.error "bigint out of range", table)
    else (.ok none, table)

/-- Compare-and-swap write. -/
def put (table : RecordStore Value) (space key : String) (value : Value)
    (expectedVersion : Option Nat) (now : Instant) :
    Except RecordError (Record Value) × RecordStore Value :=
  match upsert table space key value (expectedVersion.map asBigint) now with
  | (.error detail, table) => (.error (.backend ("postgres put: " ++ detail)), table)
  | (.ok (some row), table) => (.ok row, table)
  | (.ok none, table) =>
    -- the guard kept the row as it is: read what the write has lost to
    let actual := (table.get space key).map Record.version
    (.error (.conflict (expectedVersion.getD 0) actual), table)

/-- `SELECT … ORDER BY key ASC LIMIT`. -/
def list (table : RecordStore Value) (space : String) (limit : Nat) :
    Except RecordError (List (Record Value)) :=
  if asBigint limit < 0 then .error (.backend "postgres list: LIMIT must not be negative")
  else .ok (table.list space (asBigint limit).toNat)

def execute (now : Instant) (operation : StoreOperation Value) (table : RecordStore Value) :
    operation.Answer × RecordStore Value :=
  match operation with
  | .get space key => (.ok (table.get space key), table)
  | .put space key value expectedVersion => put table space key value expectedVersion now
  | .list space limit => (list table space limit, table)
  | .delete space key =>
    let deleted := table.delete space key
    (.ok deleted.1, deleted.2)

end PostgresRecordStore

/-- A document without the time at which it was written. -/
def Record.content (record : Record Value) : String × String × Nat × Value :=
  (record.space, record.key, record.version, record.value)

/-- Two answers tell the same. -/
def StoreOperation.SameAnswer : (operation : StoreOperation Value) →
    operation.Answer → operation.Answer → Prop
  | .get _ _, (first : Except RecordError (Option (Record Value))), second =>
    first.map (Option.map Record.content) = Except.map (Option.map Record.content) second
  | .put _ _ _ _, (first : Except RecordError (Record Value)), second =>
    first.map Record.content = Except.map Record.content second
  | .list _ _, (first : Except RecordError (List (Record Value))), second =>
    first.map (map Record.content) = Except.map (map Record.content) second
  | .delete _ _, first, second => first = second

open StoreOperation

/-- Two stores hold the same documents. -/
def RecordStore.SameRecords (memory table : RecordStore Value) : Prop :=
  ∀ space key, (memory.get space key).map Record.content = (table.get space key).map Record.content

open RecordStore (casConflict)

/-- An operation on both stores, each with its own clock. -/
structure RecordCall (Value : Type) where
  operation : StoreOperation Value
  memoryNow : Instant
  postgresNow : Instant

variable (call : RecordCall Value) {record : Record Value}

namespace RecordCall

/-- The versions and limits that the stores are compared on. -/
def InRange : Prop :=
  match call.operation with
  | .put _ _ _ expected => ∀ version ∈ expected, version < bigintBound
  | .list _ limit => limit < bigintBound
  | .get _ _ => True
  | .delete _ _ => True

def onMemory (memory : RecordStore Value) : call.operation.Answer × RecordStore Value :=
  memory.execute ⟨call.memoryNow, none⟩ call.operation

def onPostgres (table : RecordStore Value) : call.operation.Answer × RecordStore Value :=
  PostgresRecordStore.execute call.postgresNow call.operation table

/-- The stores give the same answer to the call and hold the same documents after it, and a
write that expects a version does not create the document. -/
structure Agrees (memory table : RecordStore Value) (call : RecordCall Value) : Prop where
  answers : call.operation.SameAnswer (call.onMemory memory).1 (call.onPostgres table).1
  records : (call.onMemory memory).2.SameRecords (call.onPostgres table).2
  created : ∀ space key value version, call.operation = .put space key value (some version) →
    0 < version → table.get space key = none → (call.onPostgres table).2.get space key = none

/-- The write finds the document whose version it expects, and a version that can be moved
on. -/
def Guarded (memory : RecordStore Value) (call : RecordCall Value) : Prop :=
  match call.operation with
  | .put space key _ expected =>
    match memory.get space key with
    | none => expected = none ∨ expected = some 0
    | some record =>
      expected = none ∨ expected = some record.version → record.version + 1 < bigintBound
  | .get _ _ => True
  | .list _ _ => True
  | .delete _ _ => True

end RecordCall

/-- The stores agree on every call of the sequence. -/
def AgreeAlong : RecordStore Value → RecordStore Value → List (RecordCall Value) → Prop
  | _, _, [] => True
  | memory, table, call :: rest =>
    call.Agrees memory table ∧ AgreeAlong (call.onMemory memory).2 (call.onPostgres table).2 rest

/-- Every write of the sequence finds what it expects. -/
def GuardedAlong : RecordStore Value → List (RecordCall Value) → Prop
  | _, [] => True
  | memory, call :: rest => call.Guarded memory ∧ GuardedAlong (call.onMemory memory).2 rest

namespace RecordStore

variable {store memory table : RecordStore Value} {space key : String} {record row : Record Value}

theorem mem_contents {content : String × String × Nat × Value} :
    content ∈ (store.rows.filter fun record => record.space == space).map Record.content ↔
      content.1 = space ∧ (store.get space content.2.1).map Record.content = some content := by
  constructor
  · intro member
    obtain ⟨record, kept, rfl⟩ := mem_map.mp member
    obtain ⟨stored, here⟩ := mem_filter.mp kept
    obtain rfl := beq_iff_eq.mp here
    refine ⟨rfl, ?_⟩
    rw [Record.content, get_of_mem stored]
    rfl
  · rintro ⟨-, found⟩
    obtain ⟨record, got, rfl⟩ := Option.map_eq_some_iff.mp found
    refine mem_map_of_mem (mem_filter.mpr ⟨mem_of_get got, ?_⟩)
    simpa using (key_of_get got).1

theorem nodup_contents (store : RecordStore Value) (keep : Record Value → Bool) :
    ((store.rows.filter keep).map Record.content).Nodup := by
  rw [Nodup, pairwise_map]
  apply (store.distinct.sublist filter_sublist).imp
  intro first second apart same
  exact apart ⟨congrArg Prod.fst same, congrArg (fun content => content.2.1) same⟩

theorem SameRecords.list (same : memory.SameRecords table) (space : String) (limit : Nat) :
    (memory.list space limit).map Record.content = (table.list space limit).map Record.content := by
  have sorted : ∀ store : RecordStore Value, (((store.rows.filter fun record =>
      record.space == space).insertionSort fun first second => first.key ≤ second.key).map
        Record.content).Pairwise fun first second => first.2.1 ≤ second.2.1 := by
    intro store
    rw [pairwise_map]
    exact pairwise_insertionSort _ _
  have permuted : ∀ store : RecordStore Value, (((store.rows.filter fun record =>
      record.space == space).insertionSort fun first second => first.key ≤ second.key).map
        Record.content).Perm ((store.rows.filter fun record => record.space == space).map
          Record.content) :=
    fun store => (perm_insertionSort _ _).map _
  unfold RecordStore.list
  rw [map_take, map_take]
  congr 1
  refine Perm.eq_of_pairwise ?_ (sorted memory) (sorted table) ?_
  · intro first second firstMem secondMem before after
    obtain ⟨-, firstFound⟩ := mem_contents.mp ((permuted memory).mem_iff.mp firstMem)
    obtain ⟨-, secondFound⟩ := mem_contents.mp ((permuted table).mem_iff.mp secondMem)
    rw [le_antisymm before after, same] at firstFound
    exact Option.some.inj (firstFound.symm.trans secondFound)
  · refine (permuted memory).trans (.trans ?_ (permuted table).symm)
    rw [perm_ext_iff_of_nodup (nodup_contents _ _) (nodup_contents _ _)]
    intro content
    rw [mem_contents, mem_contents, same]

theorem SameRecords.insert (same : memory.SameRecords table)
    (content : record.content = row.content) :
    (memory.insert record).SameRecords (table.insert row) := by
  have sameSpace : record.space = row.space := congrArg Prod.fst content
  have sameKey : record.key = row.key := congrArg (fun content => content.2.1) content
  intro space key
  by_cases here : record.space = space ∧ record.key = key
  · obtain ⟨rfl, rfl⟩ := here
    rw [get_insert_self, sameSpace, sameKey, get_insert_self, Option.map_some, content,
      Option.map_some]
  · have apart : ¬ (row.space = space ∧ row.key = key) := by
      rwa [← sameSpace, ← sameKey]
    rw [get_insert_of_ne here, get_insert_of_ne apart, same]

theorem SameRecords.delete (same : memory.SameRecords table) (space key : String) :
    (memory.delete space key).2.SameRecords (table.delete space key).2 := by
  intro otherSpace otherKey
  rw [get_delete, get_delete]
  split
  · rfl
  · exact same otherSpace otherKey

end RecordStore

theorem asBigint_of_lt {number : Nat} (small : number < bigintBound) :
    asBigint number = number := by
  unfold bigintBound at small
  exact Int.bmod_eq_of_le (by omega) (by omega)

variable {memory table : RecordStore Value} {space key : String} {value : Value}
  {expected : Option Nat} {memoryNow postgresNow : Instant}

theorem guard_iff {version : Nat} (small : ∀ version ∈ expected, version < bigintBound) :
    (expected.map asBigint = none ∨ expected.map asBigint = some (version : Int)) ↔
      expected = none ∨ expected = some version := by
  cases expected with
  | none => simp
  | some number =>
    simp only [Option.map_some, asBigint_of_lt (small number rfl), reduceCtorEq, false_or,
      Option.some.injEq, Int.natCast_inj]

theorem casConflict_of_matches (matched : expected = none ∨ expected = some record.version) :
    casConflict expected (some record) = none := by
  rcases matched with rfl | rfl
  · rfl
  · simp [casConflict]

theorem casConflict_of_differs (differs : ¬ (expected = none ∨ expected = some record.version)) :
    casConflict expected (some record) =
      some (.conflict (expected.getD 0) (some record.version)) := by
  cases expected with
  | none => simp at differs
  | some number =>
    have apart : record.version ≠ number := by
      rintro rfl
      exact differs (.inr rfl)
    simp [casConflict, apart]

theorem agrees_put_create (same : memory.SameRecords table) (absent : memory.get space key = none)
    (creates : expected = none ∨ expected = some 0) :
    RecordCall.Agrees memory table ⟨.put space key value expected, memoryNow, postgresNow⟩ := by
  have missing : table.get space key = none := by
    have content := same space key
    rw [absent] at content
    simpa using content.symm
  have passes : casConflict expected (none : Option (Record Value)) = none := by
    rcases creates with rfl | rfl <;> rfl
  have onMemory : memory.put space key value expected memoryNow =
      (.ok ⟨space, key, 1, value, memoryNow⟩, memory.insert ⟨space, key, 1, value, memoryNow⟩) := by
    simp only [RecordStore.put, absent, passes, Option.map_none, Option.getD_none]
  have onTable : PostgresRecordStore.put table space key value expected postgresNow =
      (.ok ⟨space, key, 1, value, postgresNow⟩,
        table.insert ⟨space, key, 1, value, postgresNow⟩) := by
    simp only [PostgresRecordStore.put, PostgresRecordStore.upsert, missing]
  refine ⟨?_, ?_, ?_⟩
  · simp only [SameAnswer, RecordCall.onMemory, RecordCall.onPostgres,
      RecordStore.execute, PostgresRecordStore.execute, onMemory, onTable]
    rfl
  · simp only [RecordCall.onMemory, RecordCall.onPostgres, RecordStore.execute,
      PostgresRecordStore.execute, onMemory, onTable]
    exact same.insert rfl
  · rintro otherSpace otherKey otherValue version operation positive -
    simp only [put.injEq] at operation
    obtain ⟨-, -, -, rfl⟩ := operation
    simp at creates
    omega

/-- Both stores answer a write under a stored key in the same way. -/
theorem agrees_put_update (same : memory.SameRecords table)
    (found : memory.get space key = some record)
    (small : ∀ version ∈ expected, version < bigintBound)
    (moves : expected = none ∨ expected = some record.version → record.version + 1 < bigintBound) :
    RecordCall.Agrees memory table ⟨.put space key value expected, memoryNow, postgresNow⟩ := by
  obtain ⟨row, stored, content⟩ : ∃ row, table.get space key = some row ∧
      row.content = record.content := by
    have content := same space key
    rw [found] at content
    exact Option.map_eq_some_iff.mp content.symm
  have version : row.version = record.version := congrArg (fun content => content.2.2.1) content
  have known : ∀ otherSpace otherKey otherValue number,
      put space key value expected =
        .put otherSpace otherKey otherValue (some number) → 0 < number →
      table.get otherSpace otherKey = none →
      (PostgresRecordStore.put table space key value expected postgresNow).2.get otherSpace
        otherKey = none := by
    rintro otherSpace otherKey otherValue number operation - missing
    simp only [put.injEq] at operation
    obtain ⟨rfl, rfl, -, -⟩ := operation
    rw [stored] at missing
    cases missing
  by_cases matched : expected = none ∨ expected = some record.version
  · have onMemory : memory.put space key value expected memoryNow =
        (.ok ⟨space, key, record.version + 1, value, memoryNow⟩,
          memory.insert ⟨space, key, record.version + 1, value, memoryNow⟩) := by
      simp only [RecordStore.put, found, casConflict_of_matches matched, Option.map_some,
        Option.getD_some]
    have onTable : PostgresRecordStore.put table space key value expected postgresNow =
        (.ok ⟨space, key, record.version + 1, value, postgresNow⟩,
          table.insert ⟨space, key, record.version + 1, value, postgresNow⟩) := by
      simp only [PostgresRecordStore.put, PostgresRecordStore.upsert, stored, version,
        if_pos ((guard_iff small).mpr matched), if_pos (moves matched)]
    refine ⟨?_, ?_, known⟩
    · simp only [SameAnswer, RecordCall.onMemory, RecordCall.onPostgres,
        RecordStore.execute, PostgresRecordStore.execute, onMemory, onTable]
      rfl
    · simp only [RecordCall.onMemory, RecordCall.onPostgres, RecordStore.execute,
        PostgresRecordStore.execute, onMemory, onTable]
      exact same.insert rfl
  · have onMemory : memory.put space key value expected memoryNow =
        (.error (.conflict (expected.getD 0) (some record.version)), memory) := by
      simp only [RecordStore.put, found, casConflict_of_differs matched]
    have onTable : PostgresRecordStore.put table space key value expected postgresNow =
        (.error (.conflict (expected.getD 0) (some record.version)), table) := by
      simp only [PostgresRecordStore.put, PostgresRecordStore.upsert, stored, version,
        if_neg fun guarded => matched ((guard_iff small).mp guarded), Option.map_some]
    refine ⟨?_, ?_, known⟩
    · simp only [SameAnswer, RecordCall.onMemory, RecordCall.onPostgres,
        RecordStore.execute, PostgresRecordStore.execute, onMemory, onTable]
    · simp only [RecordCall.onMemory, RecordCall.onPostgres, RecordStore.execute,
        PostgresRecordStore.execute, onMemory, onTable]
      exact same

variable {call : RecordCall Value}

theorem RecordCall.Guarded.agrees (same : memory.SameRecords table) (inRange : call.InRange)
    (guarded : call.Guarded memory) : call.Agrees memory table := by
  obtain ⟨operation, memoryNow, postgresNow⟩ := call
  cases operation with
  | get space key =>
    refine ⟨?_, same, by simp⟩
    exact congrArg Except.ok (same space key)
  | put space key value expected =>
    cases found : memory.get space key with
    | none =>
      simp only [Guarded, found] at guarded
      exact agrees_put_create same found guarded
    | some record =>
      simp only [Guarded, found] at guarded
      exact agrees_put_update same found inRange guarded
  | list space limit =>
    refine ⟨?_, same, by simp⟩
    have small : limit < bigintBound := inRange
    simp only [SameAnswer, onMemory, onPostgres, RecordStore.execute,
      PostgresRecordStore.execute, PostgresRecordStore.list, asBigint_of_lt small]
    rw [if_neg (by omega), Int.toNat_natCast]
    exact congrArg Except.ok (same.list space limit)
  | delete space key =>
    refine ⟨?_, same.delete space key, by simp⟩
    have sameSome := congrArg Option.isSome (same space key)
    rw [Option.isSome_map, Option.isSome_map] at sameSome
    exact congrArg Except.ok sameSome

theorem RecordCall.Agrees.guarded (same : memory.SameRecords table) (inRange : call.InRange)
    (agrees : call.Agrees memory table) : call.Guarded memory := by
  obtain ⟨operation, memoryNow, postgresNow⟩ := call
  cases operation with
  | get | list | delete => trivial
  | put space key value expected =>
    have answers := agrees.answers
    simp only [SameAnswer, onMemory, onPostgres, RecordStore.execute,
      PostgresRecordStore.execute] at answers
    have content := same space key
    cases found : memory.get space key with
    | none =>
      rw [found] at content
      have missing : table.get space key = none := by simpa using content.symm
      simp only [Guarded, found]
      cases expected with
      | none => exact .inl rfl
      | some number =>
        right
        by_contra positive
        have conflicts : number ≠ 0 := fun zero => positive (congrArg some zero)
        simp [RecordStore.put, found, casConflict, conflicts,
          PostgresRecordStore.put, PostgresRecordStore.upsert, missing, Except.map] at answers
    | some record =>
      rw [found] at content
      obtain ⟨row, stored, rowContent⟩ := Option.map_eq_some_iff.mp content.symm
      have version : row.version = record.version :=
        congrArg (fun content => content.2.2.1) rowContent
      simp only [Guarded, found]
      intro matched
      by_contra full
      simp only [RecordStore.put, found, casConflict_of_matches matched,
        PostgresRecordStore.put, PostgresRecordStore.upsert, stored, version,
        if_pos ((guard_iff inRange).mpr matched), if_neg full] at answers
      cases answers

theorem agreeAlong_iff (calls : List (RecordCall Value)) (same : memory.SameRecords table)
    (inRange : ∀ call ∈ calls, call.InRange) :
    AgreeAlong memory table calls ↔ GuardedAlong memory calls := by
  induction calls generalizing memory table with
  | nil => exact Iff.rfl
  | cons call rest ih =>
    have here := inRange call mem_cons_self
    have later : call.Agrees memory table →
        (AgreeAlong (call.onMemory memory).2 (call.onPostgres table).2 rest ↔
          GuardedAlong (call.onMemory memory).2 rest) := fun agrees =>
      ih agrees.records fun other member => inRange other (mem_cons_of_mem _ member)
    constructor
    · rintro ⟨agrees, agreesLater⟩
      exact ⟨agrees.guarded same here, (later agrees).mp agreesLater⟩
    · rintro ⟨guarded, guardedLater⟩
      have agrees := guarded.agrees same here
      exact ⟨agrees, (later agrees).mpr guardedLater⟩

/-- From empty stores on, the stores agree on a sequence of calls exactly if every write with
an expected version finds a document, and no version outgrows its column. -/
theorem postgres_agrees_iff (calls : List (RecordCall Value))
    (inRange : ∀ call ∈ calls, call.InRange) :
    AgreeAlong Table.empty Table.empty calls ↔ GuardedAlong Table.empty calls :=
  agreeAlong_iff calls (fun _ _ => rfl) inRange

/-- A subscription is stored, moved on, written by a reader that is late, and listed. -/
def sampleCalls : List (RecordCall String) := [
  ⟨.put "subscriptions" "sub-1" "first" (some 0), 1, 2⟩,
  ⟨.put "subscriptions" "sub-1" "second" (some 1), 3, 4⟩,
  ⟨.put "subscriptions" "sub-1" "late" (some 1), 5, 6⟩,
  ⟨.list "subscriptions" 10, 7, 8⟩]

theorem inRange_sampleCalls : ∀ call ∈ sampleCalls, call.InRange := by
  simp [sampleCalls, RecordCall.InRange, bigintBound]

theorem guardedAlong_sampleCalls : GuardedAlong Table.empty sampleCalls := by
  refine ⟨.inr rfl, ?_, ?_, trivial, trivial⟩
  · exact fun _ => (by decide : 1 + 1 < 2 ^ 63)
  · exact fun _ => (by decide : 2 + 1 < 2 ^ 63)

theorem postgres_agrees_sample : AgreeAlong Table.empty Table.empty sampleCalls :=
  (postgres_agrees_iff sampleCalls inRange_sampleCalls).mpr guardedAlong_sampleCalls

/-- A subscription is deleted after it was read; the reader then counts its event. -/
def sampleRecreate : List (RecordCall String) := [
  ⟨.put "subscriptions" "sub-1" "first" (some 0), 1, 2⟩,
  ⟨.delete "subscriptions" "sub-1", 3, 4⟩,
  ⟨.put "subscriptions" "sub-1" "counted" (some 1), 5, 6⟩]

/-- The table stores the deleted document again. -/
theorem postgres_agrees_fails : (∀ call ∈ sampleRecreate, call.InRange) ∧
    ¬ AgreeAlong Table.empty Table.empty sampleRecreate := by
  refine ⟨by simp [sampleRecreate, RecordCall.InRange, bigintBound], ?_⟩
  rintro ⟨-, -, agrees, -⟩
  have absent := agrees.created "subscriptions" "sub-1" "counted" 1 rfl Nat.one_pos (by decide)
  revert absent
  decide

end UltimateCoders.Governance
