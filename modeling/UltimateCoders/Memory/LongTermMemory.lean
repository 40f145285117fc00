import UltimateCoders.Memory.MemoryEntry

/-! # Long-term memory

The list that stands in for the vector store: points under the ids of their entries, each
with its vector and the whole entry. How alike two vectors are is computed in floating
point, and left to a parameter.
-/

namespace UltimateCoders.Memory

variable {Scalar Json : Type}

structure FallbackEntry (Scalar Json : Type) where
  id : MemoryId
  vector : List Scalar
  entry : MemoryEntry Scalar Json
  deriving DecidableEq

def vectorSize : Nat := 1024

inductive MemorySearchScope where
  | project (projectId : String)
  | global
  | all
  deriving DecidableEq

structure MemorySearchResult (Scalar Json : Type) where
  entry : MemoryEntry Scalar Json
  score : Scalar
  deriving DecidableEq

def encodeKeyForPayload : MemoryKey → String
  | .task taskId inner => "task:" ++ taskId ++ ":" ++ inner
  | .project projectId inner => "project:" ++ projectId ++ ":" ++ inner
  | .global inner => "global:" ++ inner

/-- Both stores take the same keys for one. -/
theorem encodeKey_eq_iff {first second : MemoryKey} :
    encodeKey first = encodeKey second ↔ encodeKeyForPayload first = encodeKeyForPayload second := by
  have whole (key : MemoryKey) : encodeKey key = "memory:" ++ encodeKeyForPayload key := by
    rw [← String.toList_inj, String.toList_append, toList_encodeKey]
    cases key with
    | task taskId inner =>
      change _ = _ ++ ("task:" ++ taskId ++ ":" ++ inner).toList
      simp only [String.toList_append, List.append_assoc]
      rfl
    | project projectId inner =>
      change _ = _ ++ ("project:" ++ projectId ++ ":" ++ inner).toList
      simp only [String.toList_append, List.append_assoc]
      rfl
    | «global» inner =>
      change _ = _ ++ ("global:" ++ inner).toList
      simp only [String.toList_append]
      rfl
  rw [whole, whole, String.append_right_inj]

def matchesScope (key : MemoryKey) : MemorySearchScope → Bool
  | .project projectId =>
    match key with
    | .project own _ => own = projectId
    | _ => false
  | .global =>
    match key with
    | .global _ => true
    | _ => false
  | .all => true

abbrev LongTermMemory (Scalar Json : Type) := List (FallbackEntry Scalar Json)

namespace LongTermMemory

/-- A point under the id of the entry, in place of an earlier one. -/
def write [Zero Scalar] (memory : LongTermMemory Scalar Json) (entry : MemoryEntry Scalar Json) :
    LongTermMemory Scalar Json :=
  memory.filter (·.id ≠ entry.id) ++
    [{ id := entry.id
       vector := entry.metadata.embedding.getD (List.replicate vectorSize 0)
       entry := entry }]

def delete (memory : LongTermMemory Scalar Json) (key : MemoryKey) : LongTermMemory Scalar Json :=
  memory.filter fun point => encodeKeyForPayload point.entry.key ≠ encodeKeyForPayload key

/-- The points of a scope that are alike enough, the most alike first. -/
def search [LE Scalar] [DecidableLE Scalar] [LT Scalar] [DecidableLT Scalar]
    (cosineSimilarity : List Scalar → List Scalar → Scalar) (memory : LongTermMemory Scalar Json)
    (query : List Scalar) (scope : MemorySearchScope) (maxResults : Nat) (minScore : Scalar) :
    List (MemorySearchResult Scalar Json) :=
  let found := (memory.filter fun point => matchesScope point.entry.key scope).filterMap
    fun point =>
      let score := cosineSimilarity query point.vector
      if minScore ≤ score then some { entry := point.entry, score := score } else none
  (found.mergeSort fun first second => ¬ first.score < second.score).take maxResults

variable {memory : LongTermMemory Scalar Json}

theorem exists_of_mem_search [LE Scalar] [DecidableLE Scalar] [LT Scalar] [DecidableLT Scalar]
    {cosineSimilarity : List Scalar → List Scalar → Scalar} {query : List Scalar}
    {scope : MemorySearchScope} {maxResults : Nat} {minScore : Scalar}
    {result : MemorySearchResult Scalar Json}
    (found : result ∈ memory.search cosineSimilarity query scope maxResults minScore) :
    ∃ point ∈ memory, point.entry = result.entry := by
  have sorted := List.mem_mergeSort.mp (List.mem_of_mem_take found)
  obtain ⟨point, among, made⟩ := List.mem_filterMap.mp sorted
  refine ⟨point, List.mem_of_mem_filter among, ?_⟩
  rw [Option.ite_none_right_eq_some] at made
  rw [← Option.some.inj made.2]

theorem mem_write [Zero Scalar] {entry : MemoryEntry Scalar Json}
    {point : FallbackEntry Scalar Json} (member : point ∈ memory.write entry) :
    (point ∈ memory ∧ point.id ≠ entry.id) ∨ point.entry = entry := by
  rcases List.mem_append.mp member with old | new
  · exact .inl (by simpa using List.mem_filter.mp old)
  · rw [List.mem_singleton.mp new]
    exact .inr rfl

theorem mem_delete {key : MemoryKey} {point : FallbackEntry Scalar Json} :
    point ∈ memory.delete key ↔
      point ∈ memory ∧ encodeKeyForPayload point.entry.key ≠ encodeKeyForPayload key := by
  simp [delete]

end LongTermMemory

end UltimateCoders.Memory
