import UltimateCoders.Memory.MemoryEntry
import UltimateCoders.Search.Entries

/-! # Short-term memory

Entries are kept under their encoded keys: as raw pairs in TiKV, or in a list that stands
in for it. A scan of TiKV meets the pairs in the order of their keys, which for UTF-8 is
the order of the characters.
-/

namespace UltimateCoders.Memory

open Search

/-- An entry as it is stored; the key is not part of it. -/
structure StoredEntry (Scalar Json : Type) where
  id : MemoryId
  content : MemoryContent Json
  metadata : MemoryMetadata Scalar
  createdAt : Timestamp
  updatedAt : Timestamp
  version : Nat
  deriving DecidableEq

variable {Bytes Scalar Json : Type}

def StoredEntry.fromEntry (entry : MemoryEntry Scalar Json) : StoredEntry Scalar Json where
  id := entry.id
  content := entry.content
  metadata := entry.metadata
  createdAt := entry.createdAt
  updatedAt := entry.updatedAt
  version := entry.version

def StoredEntry.toEntry (stored : StoredEntry Scalar Json) (key : MemoryKey) :
    MemoryEntry Scalar Json where
  id := stored.id
  key := key
  content := stored.content
  metadata := stored.metadata
  createdAt := stored.createdAt
  updatedAt := stored.updatedAt
  version := stored.version

@[simp]
theorem StoredEntry.toEntry_fromEntry (entry : MemoryEntry Scalar Json) :
    (StoredEntry.fromEntry entry).toEntry entry.key = entry := rfl

/-- The serialization of stored entries; what was written is read back. -/
structure EntrySerde (Bytes Scalar Json : Type) where
  toVec : StoredEntry Scalar Json → Bytes
  fromSlice : Bytes → Except String (StoredEntry Scalar Json)
  fromSlice_toVec : ∀ stored, fromSlice (toVec stored) = .ok stored

/-- Serialization that keeps entries as they are. -/
def plainEntrySerde : EntrySerde (StoredEntry Nat Unit) Nat Unit where
  toVec := id
  fromSlice := .ok
  fromSlice_toVec _ := rfl

inductive ShortTermMemory (Bytes Scalar Json : Type) where
  | tikv (pairs : List (String × Bytes))
  | fallback (entries : List (String × StoredEntry Scalar Json))

namespace ShortTermMemory

/-- How many pairs one scan returns at most. -/
def scanLimit : Nat := 1024

variable (serde : EntrySerde Bytes Scalar Json)

def read (key : MemoryKey) : ShortTermMemory Bytes Scalar Json →
    Except EngineError (Option (MemoryEntry Scalar Json))
  | tikv pairs =>
    match stored (encodeKey key) pairs with
    | some bytes =>
      match serde.fromSlice bytes with
      | .ok entry => .ok (some (entry.toEntry key))
      | .error detail => .error (.memoryReadError ("Deserialization error: " ++ detail))
    | none => .ok none
  | fallback entries => .ok ((stored (encodeKey key) entries).map (·.toEntry key))

def write (entry : MemoryEntry Scalar Json) :
    ShortTermMemory Bytes Scalar Json → ShortTermMemory Bytes Scalar Json
  | tikv pairs => tikv (place (encodeKey entry.key) (serde.toVec (.fromEntry entry)) pairs)
  | fallback entries => fallback (overwrite (encodeKey entry.key) (.fromEntry entry) entries)

def delete (key : MemoryKey) :
    ShortTermMemory Bytes Scalar Json → ShortTermMemory Bytes Scalar Json
  | tikv pairs => tikv (without (encodeKey key) pairs)
  | fallback entries => fallback (without (encodeKey key) entries)

/-- The keys that are stored under encodings that begin with `front`. -/
def listKeys (front : String) : ShortTermMemory Bytes Scalar Json → List MemoryKey
  | tikv pairs =>
    ((pairs.filter fun pair => front ≤ pair.1 ∧ pair.1 < front ++ "ÿ").take scanLimit).filterMap
      fun pair => decodeKey pair.1
  | fallback entries =>
    (entries.filter fun entry => front.toList.isPrefixOf entry.1.toList).filterMap
      fun entry => decodeKey entry.1

/-- The encoded keys under which something is stored. -/
def encodedKeys : ShortTermMemory Bytes Scalar Json → List String
  | tikv pairs => pairs.map Prod.fst
  | fallback entries => entries.map Prod.fst

variable {serde} {memory : ShortTermMemory Bytes Scalar Json} {entry : MemoryEntry Scalar Json}
  {key other : MemoryKey}

theorem read_write (same : encodeKey entry.key = encodeKey other) :
    (memory.write serde entry).read serde other =
      .ok (some ((StoredEntry.fromEntry entry).toEntry other)) := by
  cases memory with
  | tikv pairs => simp only [write, read, stored_place, if_pos same, serde.fromSlice_toVec]
  | fallback entries => simp only [write, read, stored_overwrite, if_pos same, Option.map_some]

theorem read_write_of_ne (apart : encodeKey entry.key ≠ encodeKey other) :
    (memory.write serde entry).read serde other = memory.read serde other := by
  cases memory with
  | tikv pairs => simp only [write, read, stored_place, if_neg apart]
  | fallback entries => simp only [write, read, stored_overwrite, if_neg apart]

theorem read_delete_of_ne (apart : encodeKey key ≠ encodeKey other) :
    (memory.delete key).read serde other = memory.read serde other := by
  cases memory with
  | tikv pairs | fallback entries => simp only [delete, read, stored_without, if_neg apart]

theorem mem_encodedKeys_write {encoded : String} :
    encoded ∈ (memory.write serde entry).encodedKeys ↔
      encodeKey entry.key = encoded ∨ encoded ∈ memory.encodedKeys := by
  cases memory with
  | tikv pairs =>
    simp only [write, encodedKeys, ← isSome_stored_iff, stored_place]
    split <;> simp_all
  | fallback entries =>
    simp only [write, encodedKeys, ← isSome_stored_iff, stored_overwrite]
    split <;> simp_all

theorem mem_encodedKeys_delete {encoded : String} :
    encoded ∈ (memory.delete key).encodedKeys ↔
      encodeKey key ≠ encoded ∧ encoded ∈ memory.encodedKeys := by
  cases memory with
  | tikv pairs | fallback entries =>
    simp only [delete, encodedKeys, ← isSome_stored_iff, stored_without]
    split <;> simp_all

/-- Nothing is stored twice, and TiKV keeps its pairs in order. -/
def WellKept : ShortTermMemory Bytes Scalar Json → Prop
  | tikv pairs => (pairs.map Prod.fst).Pairwise (· < ·)
  | fallback entries => (entries.map Prod.fst).Nodup

theorem WellKept.nodup (kept : memory.WellKept) : memory.encodedKeys.Nodup := by
  cases memory with
  | tikv pairs => exact List.Pairwise.imp ne_of_lt kept
  | fallback entries => exact kept

theorem WellKept.write (kept : memory.WellKept) (entry : MemoryEntry Scalar Json) :
    (memory.write serde entry).WellKept := by
  cases memory with
  | tikv pairs => exact pairwise_place kept _ _
  | fallback entries => exact nodup_overwrite kept _ _

theorem WellKept.delete (kept : memory.WellKept) (key : MemoryKey) :
    (memory.delete key).WellKept := by
  cases memory with
  | tikv pairs =>
    change ((without _ pairs).map Prod.fst).Pairwise (· < ·)
    rw [map_without]
    exact List.Pairwise.filter _ kept
  | fallback entries =>
    change ((without _ entries).map Prod.fst).Nodup
    rw [map_without]
    exact List.Nodup.filter _ kept

end ShortTermMemory

end UltimateCoders.Memory
