import UltimateCoders.Memory.ShortTermMemory
import Mathlib.Data.List.Infix
import Mathlib.Data.List.Perm.Subperm

/-! # Memories under different keys stay apart

Short-term memory is meant to be a map from keys to entries. It is one for the keys that
their encoding keeps apart, and a listing of a scope shows what the map holds there if
TiKV's scan reaches it.
-/

namespace UltimateCoders.Memory

open ShortTermMemory List

variable {Bytes Scalar Json : Type}

/-- A call that changes short-term memory. -/
inductive Operation (Scalar Json : Type) where
  | write (entry : MemoryEntry Scalar Json)
  | delete (key : MemoryKey)

namespace Operation

def key : Operation Scalar Json → MemoryKey
  | write entry => entry.key
  | delete key => key

variable (serde : EntrySerde Bytes Scalar Json)

def exec (memory : ShortTermMemory Bytes Scalar Json) :
    Operation Scalar Json → ShortTermMemory Bytes Scalar Json
  | write entry => memory.write serde entry
  | delete key => memory.delete key

/-- What the operation does to a map from keys to entries. -/
def amend (contents : MemoryKey → Option (StoredEntry Scalar Json)) :
    Operation Scalar Json → MemoryKey → Option (StoredEntry Scalar Json)
  | write entry => Function.update contents entry.key (some (.fromEntry entry))
  | delete key => Function.update contents key none

end Operation

inductive Backend where
  | tikv
  | fallback
  deriving DecidableEq

def Backend.empty : Backend → ShortTermMemory Bytes Scalar Json
  | tikv => .tikv []
  | fallback => .fallback []

def Backend.of : ShortTermMemory Bytes Scalar Json → Backend
  | .tikv _ => tikv
  | .fallback _ => fallback

variable (serde : EntrySerde Bytes Scalar Json) (backend : Backend)

/-- The memory after a run of operations on an empty one. -/
def after (operations : List (Operation Scalar Json)) : ShortTermMemory Bytes Scalar Json :=
  operations.foldl (Operation.exec serde) backend.empty

/-- The map that a run of operations leaves. -/
def contents (operations : List (Operation Scalar Json)) :
    MemoryKey → Option (StoredEntry Scalar Json) :=
  operations.foldl Operation.amend fun _ => none

def UsesOnly (keys : Set MemoryKey) (operations : List (Operation Scalar Json)) : Prop :=
  ∀ operation ∈ operations, operation.key ∈ keys

/-- Keys do not alias, decoding undoes encoding, an operation under one key leaves the others
alone, and the keys listed for a scope are those stored in it, once each. -/
structure KeysApart (keys : Set MemoryKey) : Prop where
  injective : ∀ first ∈ keys, ∀ second ∈ keys, encodeKey first = encodeKey second → first = second
  decoded : ∀ key ∈ keys, decodeKey (encodeKey key) = some key
  undisturbed : ∀ operations, UsesOnly keys operations → ∀ operation : Operation Scalar Json,
    operation.key ∈ keys → ∀ key ∈ keys, key ≠ operation.key →
      (operation.exec serde (after serde backend operations)).read serde key =
        (after serde backend operations).read serde key
  listed : ∀ operations : List (Operation Scalar Json), UsesOnly keys operations → ∀ key ∈ keys,
    ((after serde backend operations).listKeys (scopePrefix key)).Nodup ∧
      ∀ found, found ∈ (after serde backend operations).listKeys (scopePrefix key) ↔
        (contents operations found).isSome ∧ found.SameScope key

/-- The scan of a scope reaches all its keys: none begins at or after `ÿ`, and there are not more
of them than one scan returns. -/
def Backend.Reaches (keys : Set MemoryKey) : Backend → Prop
  | tikv => (∀ key ∈ keys, key.inner < "ÿ") ∧
      ∀ key ∈ keys, ∀ together : List MemoryKey, together.Nodup →
        (∀ other ∈ together, other ∈ keys ∧ other.SameScope key) → together.length ≤ scanLimit
  | fallback => True

/-- The memory holds, under their encodings, the keys that the map has entries for. -/
structure Holds (keys : Set MemoryKey) (held : MemoryKey → Option (StoredEntry Scalar Json))
    (memory : ShortTermMemory Bytes Scalar Json) : Prop where
  kept : memory.WellKept
  used : ∀ key, (held key).isSome → key ∈ keys
  encoded : ∀ encoded, encoded ∈ memory.encodedKeys ↔
    ∃ key, (held key).isSome ∧ encodeKey key = encoded

variable {serde backend} {keys : Set MemoryKey} {memory : ShortTermMemory Bytes Scalar Json}
  {held : MemoryKey → Option (StoredEntry Scalar Json)}

variable (serde) in
theorem Holds.exec (holds : Holds keys held memory) (separable : ∀ key ∈ keys, key.Separable)
    {operation : Operation Scalar Json} (used : operation.key ∈ keys) :
    Holds keys (operation.amend held) (operation.exec serde memory) := by
  cases operation with
  | write entry =>
    refine ⟨holds.kept.write entry, fun key some => ?_, fun encoded => ?_⟩
    · by_cases same : key = entry.key
      · exact same ▸ used
      · exact holds.used key (by simpa [Operation.amend, same] using some)
    · rw [Operation.exec, mem_encodedKeys_write, holds.encoded]
      constructor
      · rintro (rfl | ⟨key, some, rfl⟩)
        · exact ⟨entry.key, by simp [Operation.amend], rfl⟩
        · by_cases same : key = entry.key
          · exact ⟨entry.key, by simp [Operation.amend], by rw [same]⟩
          · exact ⟨key, by simpa [Operation.amend, same] using some, rfl⟩
      · rintro ⟨key, some, rfl⟩
        by_cases same : key = entry.key
        · exact .inl (by rw [same])
        · exact .inr ⟨key, by simpa [Operation.amend, same] using some, rfl⟩
  | delete removed =>
    refine ⟨holds.kept.delete removed, fun key some => ?_, fun encoded => ?_⟩
    · by_cases same : key = removed
      · exact same ▸ used
      · exact holds.used key (by simpa [Operation.amend, same] using some)
    · rw [Operation.exec, mem_encodedKeys_delete, holds.encoded]
      constructor
      · rintro ⟨different, key, some, rfl⟩
        have apart : key ≠ removed := fun same => different (by rw [same])
        exact ⟨key, by simpa [Operation.amend, apart] using some, rfl⟩
      · rintro ⟨key, some, rfl⟩
        have apart : key ≠ removed := by
          rintro rfl
          simp [Operation.amend] at some
        have some : (held key).isSome := by simpa [Operation.amend, apart] using some
        exact ⟨fun same => apart (encodeKey_injOn (separable removed used)
          (separable key (holds.used key some)) same).symm, key, some, rfl⟩

variable (serde backend) in
theorem Holds.of_run (separable : ∀ key ∈ keys, key.Separable)
    (operations : List (Operation Scalar Json)) (used : UsesOnly keys operations) :
    Holds keys (contents operations) (after serde backend operations) := by
  induction operations using reverseRecOn with
  | nil =>
    constructor <;> cases backend <;>
      simp [contents, after, Backend.empty, WellKept, encodedKeys]
  | append_singleton operations operation ih =>
    have step := (ih fun earlier member => used earlier (by simp [member])).exec serde
      separable (used operation (by simp))
    simpa [contents, after, foldl_append] using step

/-- The encoded keys that a listing looks at. -/
def scanned (front : String) : ShortTermMemory Bytes Scalar Json → List String
  | .tikv pairs =>
    ((pairs.map Prod.fst).filter fun encoded => front ≤ encoded ∧ encoded < front ++ "ÿ").take
      scanLimit
  | .fallback entries =>
    (entries.map Prod.fst).filter fun encoded => front.toList.isPrefixOf encoded.toList

theorem listKeys_eq (front : String) (memory : ShortTermMemory Bytes Scalar Json) :
    memory.listKeys front = (scanned front memory).filterMap decodeKey := by
  cases memory with
  | tikv pairs =>
    simp only [listKeys, scanned, filter_map, ← map_take, filterMap_map]
    rfl
  | fallback entries =>
    simp only [listKeys, scanned, filter_map, filterMap_map]
    rfl

theorem mem_scan_iff {front encoded : String} : (front ≤ encoded ∧ encoded < front ++ "ÿ") ↔
    ∃ rest, encoded = front ++ rest ∧ rest < "ÿ" := by
  rw [String.le_iff_toList_le, String.lt_iff_toList_lt, String.toList_append, Text.mem_range_iff]
  constructor
  · rintro ⟨rest, joined, below⟩
    refine ⟨String.ofList rest, ?_, by rw [String.lt_iff_toList_lt, String.toList_ofList]; exact below⟩
    rw [← String.toList_inj, joined, String.toList_append, String.toList_ofList]
  · rintro ⟨rest, rfl, below⟩
    exact ⟨rest.toList, String.toList_append, String.lt_iff_toList_lt.mp below⟩

theorem nodup_listKeys (kept : memory.WellKept) (front : String) :
    (memory.listKeys front).Nodup := by
  rw [listKeys_eq]
  refine Nodup.filterMap ?_ ?_
  · intro first second key firstRead secondRead
    rw [(eq_encodeKey_of_decodeKey firstRead).1, (eq_encodeKey_of_decodeKey secondRead).1]
  · cases memory with
    | tikv pairs => exact (kept.nodup.filter _).sublist (take_sublist _ _)
    | fallback entries => exact kept.nodup.filter _

section Listing

variable (holds : Holds keys held memory) (separable : ∀ key ∈ keys, key.Separable)

include holds separable

theorem Holds.of_mem_listKeys {key found : MemoryKey} (used : key ∈ keys)
    (member : found ∈ memory.listKeys (scopePrefix key)) :
    (held found).isSome ∧ found.SameScope key := by
  rw [listKeys_eq, mem_filterMap] at member
  obtain ⟨encoded, looked, read⟩ := member
  obtain ⟨rfl, plain⟩ := eq_encodeKey_of_decodeKey read
  have begins : (scopePrefix key).toList <+: (encodeKey found).toList := by
    cases memory with
    | tikv pairs =>
      have inside := (mem_filter.mp (mem_of_mem_take looked)).2
      obtain ⟨rest, joined, -⟩ := mem_scan_iff.mp (of_decide_eq_true inside)
      rw [joined, String.toList_append]
      exact prefix_append _ _
    | fallback entries =>
      exact isPrefixOf_iff_prefix.mp (mem_filter.mp looked).2
  have present : encodeKey found ∈ memory.encodedKeys := by
    cases memory with
    | tikv pairs => exact (mem_filter.mp (mem_of_mem_take looked)).1
    | fallback entries => exact (mem_filter.mp looked).1
  obtain ⟨stored, some, same⟩ := (holds.encoded _).mp present
  obtain rfl := encodeKey_injOn (separable stored (holds.used stored some)) plain same
  exact ⟨some, (scopePrefix_prefix_iff (separable key used) plain).mp begins⟩

theorem Holds.mem_scope {key : MemoryKey} {encoded : String} (used : key ∈ keys)
    (present : encoded ∈ memory.encodedKeys)
    (begins : (scopePrefix key).toList <+: encoded.toList) :
    ∃ stored ∈ keys, encoded = encodeKey stored ∧ (held stored).isSome ∧
      stored.SameScope key := by
  obtain ⟨stored, some, rfl⟩ := (holds.encoded _).mp present
  have inside := holds.used stored some
  exact ⟨stored, inside, rfl, some,
    (scopePrefix_prefix_iff (separable key used) (separable stored inside)).mp begins⟩

theorem Holds.length_le_scanLimit {pairs : List (String × Bytes)} (stands : memory = .tikv pairs)
    (reaches : Backend.tikv.Reaches keys) {key : MemoryKey} (used : key ∈ keys) :
    ((pairs.map Prod.fst).filter fun encoded => scopePrefix key ≤ encoded ∧
      encoded < scopePrefix key ++ "ÿ").length ≤ scanLimit := by
  subst stands
  set inRange := (pairs.map Prod.fst).filter fun encoded => scopePrefix key ≤ encoded ∧
    encoded < scopePrefix key ++ "ÿ" with range
  have stored {encoded : String} (member : encoded ∈ inRange) : ∃ found ∈ keys,
      encoded = encodeKey found ∧ (held found).isSome ∧ found.SameScope key := by
    obtain ⟨present, inside⟩ := mem_filter.mp member
    obtain ⟨rest, joined, -⟩ := mem_scan_iff.mp (of_decide_eq_true inside)
    refine holds.mem_scope separable used present ?_
    rw [joined, String.toList_append]
    exact prefix_append _ _
  have nodup : inRange.Nodup := holds.kept.nodup.filter _
  have whole : (inRange.filterMap decodeKey).length = inRange.length := by
    rw [length_filterMap_eq_countP, countP_eq_length]
    intro encoded member
    obtain ⟨found, inside, rfl, -, -⟩ := stored member
    rw [decodeKey_encodeKey (separable found inside), Option.isSome_some]
  rw [← whole]
  refine reaches.2 key used _ (nodup.filterMap ?_) ?_
  · intro first second found firstRead secondRead
    rw [(eq_encodeKey_of_decodeKey firstRead).1, (eq_encodeKey_of_decodeKey secondRead).1]
  · intro found member
    obtain ⟨encoded, looked, read⟩ := mem_filterMap.mp member
    obtain ⟨other, inside, rfl, -, scope⟩ := stored looked
    rw [decodeKey_encodeKey (separable other inside), Option.some.injEq] at read
    exact read ▸ ⟨inside, scope⟩

theorem Holds.mem_listKeys (reaches : (Backend.of memory).Reaches keys) {key found : MemoryKey}
    (used : key ∈ keys) (some : (held found).isSome) (scope : found.SameScope key) :
    found ∈ memory.listKeys (scopePrefix key) := by
  have inside := holds.used found some
  have present : encodeKey found ∈ memory.encodedKeys := (holds.encoded _).mpr ⟨found, some, rfl⟩
  rw [listKeys_eq, mem_filterMap]
  refine ⟨encodeKey found, ?_, decodeKey_encodeKey (separable found inside)⟩
  cases memory with
  | tikv pairs =>
    change encodeKey found ∈ take scanLimit _
    rw [take_of_length_le (holds.length_le_scanLimit separable rfl reaches used), mem_filter]
    refine ⟨present, decide_eq_true (mem_scan_iff.mpr ⟨found.inner, ?_, reaches.1 found inside⟩)⟩
    rw [encodeKey_eq, SameScope.scopePrefix_eq scope]
  | fallback entries =>
    rw [scanned, mem_filter, isPrefixOf_iff_prefix,
      scopePrefix_prefix_iff (separable key used) (separable found inside)]
    exact ⟨present, scope⟩

end Listing

variable (serde backend) in
theorem of_after (operations : List (Operation Scalar Json)) :
    Backend.of (after serde backend operations) = backend := by
  induction operations using reverseRecOn with
  | nil => cases backend <;> rfl
  | append_singleton operations operation ih =>
    rw [after, foldl_append]
    refine Eq.trans ?_ ih
    change Backend.of (operation.exec serde (after serde backend operations)) = _
    cases operation <;> cases after serde backend operations <;> rfl

variable (Scalar Json) in
/-- The entries that the keys of a list are written with. -/
def writing [Inhabited Scalar] (together : List MemoryKey) : List (Operation Scalar Json) :=
  together.map fun key => .write
    { id := ""
      key := key
      content := .text ""
      metadata := { sourceAgent := "", importance := default, tags := [], embedding := none }
      createdAt := 0
      updatedAt := 0
      version := 0 }

theorem usesOnly_writing [Inhabited Scalar] {together : List MemoryKey}
    (within : ∀ key ∈ together, key ∈ keys) :
    UsesOnly keys (writing Scalar Json together) := by
  intro operation member
  obtain ⟨key, listed, rfl⟩ := mem_map.mp member
  exact within key listed

theorem isSome_contents_writing [Inhabited Scalar] {together : List MemoryKey} {key : MemoryKey}
    (member : key ∈ together) :
    (contents (writing Scalar Json together) key).isSome := by
  induction together using reverseRecOn with
  | nil => cases member
  | append_singleton together last ih =>
    simp only [writing, map_append, map_cons, map_nil, contents,
      foldl_append, foldl_cons, foldl_nil, Operation.amend]
    by_cases same : key = last
    · simp [same]
    · have earlier : key ∈ together := by simpa [same] using member
      rw [Function.update_of_ne same]
      exact ih earlier

/-- Exactly for keys that can be cut where they were put together, in scopes that a scan reaches,
memories under different keys stay apart. -/
theorem keysApart_iff [Inhabited Scalar] (serde : EntrySerde Bytes Scalar Json) (backend : Backend)
    (keys : Set MemoryKey) :
    KeysApart serde backend keys ↔ (∀ key ∈ keys, key.Separable) ∧ backend.Reaches keys := by
  constructor
  · intro apart
    have separable : ∀ key ∈ keys, key.Separable := fun key used =>
      (eq_encodeKey_of_decodeKey (apart.decoded key used)).2
    refine ⟨separable, ?_⟩
    cases backend with
    | fallback => trivial
    | tikv =>
      have stands (operations : List (Operation Scalar Json)) :
          ∃ pairs, after serde .tikv operations = .tikv pairs := by
        have kind := of_after serde .tikv operations
        cases memory : after serde .tikv operations with
        | tikv pairs => exact ⟨pairs, rfl⟩
        | fallback entries => rw [memory] at kind; cases kind
      have listed {together : List MemoryKey} (within : ∀ key ∈ together, key ∈ keys)
          {key : MemoryKey} (used : key ∈ keys) :=
        apart.listed (writing Scalar Json together) (usesOnly_writing within) key used
      constructor
      · intro key used
        have alone : ∀ other ∈ [key], other ∈ keys := by simpa using used
        have found := ((listed alone used).2 key).mpr
          ⟨isSome_contents_writing mem_cons_self, by cases key <;> simp [MemoryKey.SameScope]⟩
        obtain ⟨pairs, memory⟩ := stands (writing Scalar Json [key])
        rw [listKeys_eq, memory, mem_filterMap] at found
        obtain ⟨encoded, looked, read⟩ := found
        obtain ⟨rfl, -⟩ := eq_encodeKey_of_decodeKey read
        have inside := (mem_filter.mp (mem_of_mem_take looked)).2
        obtain ⟨rest, joined, below⟩ := mem_scan_iff.mp (of_decide_eq_true inside)
        rw [encodeKey_eq, String.append_right_inj] at joined
        exact joined ▸ below
      · intro key used together nodup within
        have found := listed (fun other member => (within other member).1) used
        have covered : together ⊆
            (after serde .tikv (writing Scalar Json together)).listKeys (scopePrefix key) :=
          fun other member => (found.2 other).mpr
            ⟨isSome_contents_writing member, (within other member).2⟩
        obtain ⟨pairs, memory⟩ := stands (writing Scalar Json together)
        calc together.length
            ≤ ((after serde .tikv (writing Scalar Json together)).listKeys
                (scopePrefix key)).length := (subperm_of_subset nodup covered).length_le
          _ ≤ scanLimit := by
            rw [listKeys_eq, memory]
            exact (length_filterMap_le _ _).trans (length_take_le _ _)
  · rintro ⟨separable, reaches⟩
    have injective : ∀ first ∈ keys, ∀ second ∈ keys,
        encodeKey first = encodeKey second → first = second := fun first used second other same =>
      encodeKey_injOn (separable first used) (separable second other) same
    refine ⟨injective, fun key used => decodeKey_encodeKey (separable key used), ?_, ?_⟩
    · intro operations _ operation used key other different
      have apart : encodeKey operation.key ≠ encodeKey key := fun same =>
        different (injective _ used _ other same).symm
      cases operation with
      | write entry => exact read_write_of_ne apart
      | delete removed => exact read_delete_of_ne apart
    · intro operations within key used
      have holds := Holds.of_run serde backend separable operations within
      refine ⟨nodup_listKeys holds.kept _, fun found => ?_⟩
      constructor
      · exact holds.of_mem_listKeys separable used
      · rintro ⟨some, scope⟩
        refine holds.mem_listKeys separable ?_ used some scope
        rw [of_after]
        exact reaches

/-- A task id with a colon makes two keys one, and a key without a scope that has a colon is not
decoded. -/
theorem keysApart_fails_colon :
    encodeKey (.task "a" "b:c") = encodeKey (.task "a:b" "c") ∧
      MemoryKey.task "a" "b:c" ≠ MemoryKey.task "a:b" "c" ∧
      decodeKey (encodeKey (.global "a:b")) = none := by
  decide

end UltimateCoders.Memory
