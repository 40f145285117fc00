import Mathlib.Data.Finset.Card
import UltimateCoders.Memory.KeysApart
import UltimateCoders.Search.Latest

/-! # Both backends of short-term memory answer alike

TiKV and the list that stands in for it are meant to be the same store. They are for reads,
writes and deletes; what they list agrees where the scan of TiKV reaches every key that begins
with the text that is asked for.
-/

namespace UltimateCoders.Memory

open ShortTermMemory Search List

variable {Bytes Scalar Json : Type}

inductive ShortTermCall (Scalar Json : Type) where
  | write (entry : MemoryEntry Scalar Json)
  | read (key : MemoryKey)
  | delete (key : MemoryKey)
  | listKeys (front : String)

/-- What a call returns. -/
inductive ShortTermReply (Scalar Json : Type) where
  | written
  | found (result : Except EngineError (Option (MemoryEntry Scalar Json)))
  | deleted
  | listed (keys : List MemoryKey)

/-- The same reply, listed keys up to their order. -/
inductive ShortTermReply.Agrees :
    ShortTermReply Scalar Json → ShortTermReply Scalar Json → Prop where
  | same (reply : ShortTermReply Scalar Json) : Agrees reply reply
  | listed {first second : List MemoryKey} (perm : first.Perm second) :
      Agrees (.listed first) (.listed second)

section Serve

variable (serde : EntrySerde Bytes Scalar Json)

/-- What a call returns and leaves. -/
def ShortTermCall.serve (memory : ShortTermMemory Bytes Scalar Json) :
    ShortTermCall Scalar Json → ShortTermReply Scalar Json × ShortTermMemory Bytes Scalar Json
  | write entry => (.written, memory.write serde entry)
  | read key => (.found (memory.read serde key), memory)
  | delete key => (.deleted, memory.delete key)
  | listKeys front => (.listed (memory.listKeys front), memory)

def replies : ShortTermMemory Bytes Scalar Json → List (ShortTermCall Scalar Json) →
    List (ShortTermReply Scalar Json)
  | _, [] => []
  | memory, call :: rest =>
    (call.serve serde memory).1 :: replies (call.serve serde memory).2 rest

/-- Both backends give the same replies to a sequence of calls. -/
def BackendsAgree (calls : List (ShortTermCall Scalar Json)) : Prop :=
  Forall₂ ShortTermReply.Agrees (replies serde Backend.tikv.empty calls)
    (replies serde Backend.fallback.empty calls)

end Serve

/-- The encoded keys under which something is kept after a call. -/
def ShortTermCall.keep (held : Finset String) : ShortTermCall Scalar Json → Finset String
  | write entry => insert (encodeKey entry.key) held
  | delete key => held.erase (encodeKey key)
  | read _ | listKeys _ => held

/-- The scan from `front` meets an encoded key: it goes on below `ÿ`, and fewer keys than one
scan returns lie before it. -/
def ScanMeets (held : Finset String) (front encoded : String) : Prop :=
  (∃ rest, encoded = front ++ rest ∧ rest < "ÿ") ∧
    (held.filter fun other => front ≤ other ∧ other < encoded).card < scanLimit

/-- The scan from `front` meets all the keys that begin with it. -/
def ScanReaches (held : Finset String) (front : String) : Prop :=
  ∀ encoded ∈ held, front.toList <+: encoded.toList → (decodeKey encoded).isSome →
    ScanMeets held front encoded

/-- Every listing of a sequence of calls reaches the keys that are kept when it is made. -/
def ScansReach (held : Finset String) (calls : List (ShortTermCall Scalar Json)) : Prop :=
  ∀ earlier front later, calls = earlier ++ .listKeys front :: later →
    ScanReaches (earlier.foldl ShortTermCall.keep held) front

theorem scansReach_nil (held : Finset String) :
    ScansReach held ([] : List (ShortTermCall Scalar Json)) := by
  intro earlier front later same
  cases earlier <;> cases same

theorem scansReach_cons {held : Finset String} {call : ShortTermCall Scalar Json}
    {rest : List (ShortTermCall Scalar Json)} : ScansReach held (call :: rest) ↔
      (∀ front, call = .listKeys front → ScanReaches held front) ∧
        ScansReach (call.keep held) rest := by
  constructor
  · intro reach
    refine ⟨fun front same => reach [] front rest (by rw [same]; rfl), ?_⟩
    intro earlier front later same
    exact reach (call :: earlier) front later (by rw [same]; rfl)
  · rintro ⟨here, onward⟩ earlier front later same
    cases earlier with
    | nil =>
      obtain ⟨rfl, rfl⟩ := cons.inj same
      exact here front rfl
    | cons first earlier =>
      obtain ⟨rfl, rfl⟩ := cons.inj same
      exact onward earlier front later rfl

variable (serde : EntrySerde Bytes Scalar Json)

/-- Both backends keep the same entries, under the encoded keys of a set. -/
structure SameContents (held : Finset String) (pairs : List (String × Bytes))
    (entries : List (String × StoredEntry Scalar Json)) : Prop where
  ordered : (tikv pairs : ShortTermMemory Bytes Scalar Json).WellKept
  once : (fallback entries : ShortTermMemory Bytes Scalar Json).WellKept
  bytes : ∀ encoded, stored encoded pairs = (stored encoded entries).map serde.toVec
  keys : ∀ encoded, encoded ∈ held ↔ (stored encoded entries).isSome

variable {serde} {held : Finset String} {pairs : List (String × Bytes)}
  {entries : List (String × StoredEntry Scalar Json)}

namespace SameContents

section

variable (same : SameContents serde held pairs entries)

include same

theorem mem_pairs {encoded : String} : encoded ∈ pairs.map Prod.fst ↔ encoded ∈ held := by
  rw [← isSome_stored_iff, same.bytes, Option.isSome_map, same.keys]

theorem mem_entries {encoded : String} : encoded ∈ entries.map Prod.fst ↔ encoded ∈ held := by
  rw [← isSome_stored_iff, same.keys]

theorem read (key : MemoryKey) : ShortTermMemory.read serde key (.tikv pairs) =
      ShortTermMemory.read serde key (.fallback entries) := by
  simp only [ShortTermMemory.read, same.bytes]
  cases stored (encodeKey key) entries with
  | none => rfl
  | some entry => simp [serde.fromSlice_toVec]

theorem write (entry : MemoryEntry Scalar Json) :
    SameContents serde (insert (encodeKey entry.key) held)
      (place (encodeKey entry.key) (serde.toVec (.fromEntry entry)) pairs)
      (overwrite (encodeKey entry.key) (.fromEntry entry) entries) where
  ordered := WellKept.write same.ordered entry
  once := @WellKept.write _ _ _ serde _ same.once entry
  bytes encoded := by
    rw [stored_place, stored_overwrite, same.bytes]
    split <;> rfl
  keys encoded := by
    rw [stored_overwrite, Finset.mem_insert, same.keys]
    by_cases here : encodeKey entry.key = encoded
    · simp [here]
    · simp [here, show encoded ≠ encodeKey entry.key from Ne.symm here]

theorem delete (key : MemoryKey) :
    SameContents serde (held.erase (encodeKey key)) (without (encodeKey key) pairs)
      (without (encodeKey key) entries) where
  ordered := WellKept.delete same.ordered key
  once := WellKept.delete same.once key
  bytes encoded := by
    rw [stored_without, stored_without, same.bytes]
    split <;> rfl
  keys encoded := by
    rw [stored_without, Finset.mem_erase, same.keys]
    by_cases here : encodeKey key = encoded
    · simp [here]
    · simp [here, show encoded ≠ encodeKey key from Ne.symm here]

theorem countP_pairs (among : String → Prop) [DecidablePred among] :
    (pairs.map Prod.fst).countP among = (held.filter among).card := by
  have nodup : (pairs.map Prod.fst).Nodup := same.ordered.nodup
  rw [countP_eq_length_filter, ← toFinset_card_of_nodup (nodup.filter _)]
  congr 1
  ext encoded
  simp only [mem_toFinset, mem_filter, decide_eq_true_eq, Finset.mem_filter, same.mem_pairs]

theorem mem_listKeys_tikv {front : String} {key : MemoryKey} :
    key ∈ (tikv pairs : ShortTermMemory Bytes Scalar Json).listKeys front ↔
      ∃ encoded ∈ held, ScanMeets held front encoded ∧ decodeKey encoded = some key := by
  rw [listKeys_eq, mem_filterMap]
  have ordered : ((pairs.map Prod.fst).filter fun encoded =>
      front ≤ encoded ∧ encoded < front ++ "ÿ").Pairwise (· < ·) :=
    Pairwise.filter _ same.ordered
  have met (encoded : String) :
      encoded ∈ scanned front (tikv pairs : ShortTermMemory Bytes Scalar Json) ↔
        encoded ∈ held ∧ ScanMeets held front encoded := by
    rw [scanned, mem_take_iff ordered, mem_filter, same.mem_pairs,
      countP_filter, decide_eq_true_eq, mem_scan_iff, and_assoc]
    refine and_congr_right fun _ => and_congr_right fun inside => ?_
    -- whatever is below a key in the range and not below the front is in the range
    rw [← same.countP_pairs, countP_congr]
    intro other _
    obtain ⟨-, above⟩ := mem_scan_iff.mpr inside
    simp only [Bool.and_eq_true, decide_eq_true_eq]
    exact ⟨fun both => ⟨both.2.1, both.1⟩, fun both => ⟨both.2, both.1, both.2.trans above⟩⟩
  constructor
  · rintro ⟨encoded, looked, read⟩
    exact ⟨encoded, ((met encoded).mp looked).1, ((met encoded).mp looked).2, read⟩
  · rintro ⟨encoded, kept, meets, read⟩
    exact ⟨encoded, (met encoded).mpr ⟨kept, meets⟩, read⟩

theorem mem_listKeys_fallback {front : String} {key : MemoryKey} :
    key ∈ (fallback entries : ShortTermMemory Bytes Scalar Json).listKeys front ↔
      ∃ encoded ∈ held, front.toList <+: encoded.toList ∧ decodeKey encoded = some key := by
  rw [listKeys_eq, mem_filterMap]
  simp only [scanned, mem_filter, isPrefixOf_iff_prefix, same.mem_entries, and_assoc]

theorem perm_listKeys_iff (front : String) :
    ((tikv pairs : ShortTermMemory Bytes Scalar Json).listKeys front).Perm
        ((fallback entries : ShortTermMemory Bytes Scalar Json).listKeys front) ↔
      ScanReaches held front := by
  rw [perm_ext_iff_of_nodup (nodup_listKeys same.ordered front) (nodup_listKeys same.once front)]
  simp only [same.mem_listKeys_tikv, same.mem_listKeys_fallback]
  constructor
  · intro alike encoded kept begins readable
    obtain ⟨key, read⟩ := Option.isSome_iff_exists.mp readable
    obtain ⟨other, -, meets, otherRead⟩ := (alike key).mpr ⟨encoded, kept, begins, read⟩
    rwa [(eq_encodeKey_of_decodeKey read).1, ← (eq_encodeKey_of_decodeKey otherRead).1]
  · intro reaches key
    constructor
    · rintro ⟨encoded, kept, ⟨⟨rest, joined, below⟩, few⟩, read⟩
      refine ⟨encoded, kept, ?_, read⟩
      rw [joined, String.toList_append]
      exact prefix_append _ _
    · rintro ⟨encoded, kept, begins, read⟩
      exact ⟨encoded, kept, reaches encoded kept begins (by rw [read]; rfl), read⟩

end

end SameContents

theorem agrees_listed_iff {first second : List MemoryKey} :
    ShortTermReply.Agrees (.listed first : ShortTermReply Scalar Json) (.listed second) ↔
      first.Perm second := by
  constructor
  · intro agrees
    cases agrees with
    | same => exact .refl _
    | listed perm => exact perm
  · exact .listed

theorem SameContents.serve (same : SameContents serde held pairs entries)
    (call : ShortTermCall Scalar Json) :
    (ShortTermReply.Agrees (call.serve serde (tikv pairs)).1
        (call.serve serde (fallback entries)).1 ↔
      ∀ front, call = .listKeys front → ScanReaches held front) ∧
    ∃ nextPairs nextEntries, (call.serve serde (tikv pairs)).2 = tikv nextPairs ∧
      (call.serve serde (fallback entries)).2 = fallback nextEntries ∧
      SameContents serde (call.keep held) nextPairs nextEntries := by
  cases call with
  | write entry =>
    exact ⟨⟨fun _ _ impossible => (by cases impossible), fun _ => .same _⟩, _, _, rfl, rfl,
      same.write entry⟩
  | read key =>
    refine ⟨⟨fun _ _ impossible => (by cases impossible), fun _ => ?_⟩, _, _, rfl, rfl, same⟩
    simp only [ShortTermCall.serve, same.read]
    exact .same _
  | delete key =>
    exact ⟨⟨fun _ _ impossible => (by cases impossible), fun _ => .same _⟩, _, _, rfl, rfl,
      same.delete key⟩
  | listKeys front =>
    refine ⟨?_, _, _, rfl, rfl, same⟩
    simp only [ShortTermCall.serve, agrees_listed_iff, same.perm_listKeys_iff,
      ShortTermCall.listKeys.injEq, forall_eq']

theorem SameContents.replies_agree_iff (same : SameContents serde held pairs entries)
    (calls : List (ShortTermCall Scalar Json)) :
    Forall₂ ShortTermReply.Agrees (replies serde (tikv pairs) calls)
        (replies serde (fallback entries) calls) ↔
      ScansReach held calls := by
  induction calls generalizing held pairs entries with
  | nil => exact ⟨fun _ => scansReach_nil held, fun _ => .nil⟩
  | cons call rest ih =>
    obtain ⟨reply, nextPairs, nextEntries, left, right, next⟩ := same.serve call
    rw [replies, replies, forall₂_cons, reply, left, right, ih next, scansReach_cons]

/-- Both backends give the same replies exactly if every listing reaches the keys that begin with
what it asks for. -/
theorem backendsAgree_iff (serde : EntrySerde Bytes Scalar Json)
    (calls : List (ShortTermCall Scalar Json)) :
    BackendsAgree serde calls ↔ ScansReach ∅ calls := by
  have same : SameContents serde ∅ ([] : List (String × Bytes)) [] :=
    ⟨.nil, .nil, fun _ => rfl, by simp⟩
  exact same.replies_agree_iff calls

/-- A key without a scope that begins with `ÿ` is listed by the fallback only. -/
theorem backendsAgree_fails_range :
    ¬ BackendsAgree plainEntrySerde
      [.write
        { id := "m"
          key := .global "ÿ"
          content := .text ""
          metadata := { sourceAgent := "", importance := 0, tags := [], embedding := none }
          createdAt := 0
          updatedAt := 0
          version := 0 },
        .listKeys "memory:global:"] := by
  intro agree
  obtain ⟨-, listing⟩ := forall₂_cons.mp agree
  obtain ⟨alike, -⟩ := forall₂_cons.mp listing
  have perm := agrees_listed_iff.mp alike
  exact absurd perm.length_eq (by decide +kernel)

end UltimateCoders.Memory
