import Mathlib.Algebra.GroupWithZero.Nat
import Mathlib.Data.List.Infix
import UltimateCoders.Memory.MemoryStore

/-! # What long-term memory holds of the current entries

A write that is important enough is put into long-term memory under the fresh id of its entry,
and nothing takes the place of what an earlier write of the key has put there. Long-term
memory shows current entries as long as no write meets an entry of its key there.
-/

namespace UltimateCoders.Memory

open Transition
open MemoryStore (pendingVersion reconcile settle withEmbedding)
open Memories
open Program (alone alone_bind perform)
open List

variable {Bytes Scalar Json : Type}

/-- The entry without its vector, which long-term memory may have made for it. -/
def MemoryEntry.unembedded (entry : MemoryEntry Scalar Json) : MemoryEntry Scalar Json :=
  { entry with metadata := { entry.metadata with embedding := none } }

/-- Long-term memory holds one entry of a key at most, the one that is stored under it now. -/
structure Mirrors (serde : EntrySerde Bytes Scalar Json) (memories : Memories Bytes Scalar Json) :
    Prop where
  current : ∀ point ∈ memories.longTerm, ∃ entry,
    memories.shortTerm.read serde point.entry.key = .ok (some entry) ∧
      entry.unembedded = point.entry.unembedded
  once : (memories.longTerm.map (·.entry.key)).Nodup

/-- Long-term memory holds nothing that it takes for an entry of the key. -/
def Unpromoted (memories : Memories Bytes Scalar Json) (key : MemoryKey) : Prop :=
  ∀ point ∈ memories.longTerm, encodeKeyForPayload point.entry.key ≠ encodeKeyForPayload key

inductive MemoryCall (Scalar Json : Type) where
  | write (request : MemoryWriteRequest Scalar Json)
  | replayWrite (request : MemoryWriteRequest Scalar Json)
  | delete (key : MemoryKey)

section Calls

variable [LE Scalar] [DecidableLE Scalar] [Zero Scalar] (serde : EntrySerde Bytes Scalar Json)
  (config : MemoryConfig Scalar) (render : Json → String)

/-- What a call makes of the memories, in the surroundings that its operations meet one after the
other. -/
def MemoryCall.exec (memories : Memories Bytes Scalar Json) (surroundings : Nat → Surroundings Scalar) :
    MemoryCall Scalar Json → Memories Bytes Scalar Json
  | write request => ((MemoryStore.write config render request).alone (execute serde)
      surroundings memories).2.2
  | replayWrite request => ((MemoryStore.replayWrite config render request).alone
      (execute serde) surroundings memories).2.2
  | delete key => ((MemoryStore.delete key).alone (execute serde) surroundings memories).2.2

/-- Nothing newer than the replay is stored; without a version of its own it takes the time. -/
def UpToDate (memories : Memories Bytes Scalar Json) (surroundings : Nat → Surroundings Scalar)
    (request : MemoryWriteRequest Scalar Json) : Prop :=
  ∀ entry, memories.shortTerm.read serde request.key = .ok (some entry) →
    entry.version ≤ request.version.getD (versionFromTimestamp (surroundings 2).now)

/-- A call that stores an entry meets none of its key in long-term memory. -/
def MemoryCall.Unopposed (memories : Memories Bytes Scalar Json)
    (surroundings : Nat → Surroundings Scalar) : MemoryCall Scalar Json → Prop
  | write request => Unpromoted memories request.key
  | replayWrite request => UpToDate serde memories surroundings request →
      Unpromoted memories request.key
  | delete _ => True

variable {serde config render} {memories : Memories Bytes Scalar Json}
  {surroundings : Nat → Surroundings Scalar} {request : MemoryWriteRequest Scalar Json}

def Surroundings.working (surroundings : Surroundings Scalar) : Surroundings Scalar :=
  { surroundings with failure := none }

/-- What a write leaves: its entry in short-term memory, and perhaps in long-term memory too. -/
def Stores (serde : EntrySerde Bytes Scalar Json) (request : MemoryWriteRequest Scalar Json)
    (before after : Memories Bytes Scalar Json) : Prop :=
  ∃ entry : MemoryEntry Scalar Json, entry.key = request.key ∧
    after.shortTerm = before.shortTerm.write serde entry ∧
      (after.longTerm = before.longTerm ∨ ∃ promoted, promoted.unembedded = entry.unembedded ∧
        after.longTerm = before.longTerm.write promoted)

variable (serde render memories surroundings) in
omit [LE Scalar] [DecidableLE Scalar] in
theorem withEmbedding_alone (entry : MemoryEntry Scalar Json) :
    ∃ (promoted : MemoryEntry Scalar Json) (later : Nat → Surroundings Scalar),
    (withEmbedding render entry).alone (execute serde)
        (fun step => (surroundings step).working) memories =
      (promoted, fun step => (later step).working, memories) ∧
    promoted.unembedded = entry.unembedded := by
  unfold withEmbedding
  split
  · exact ⟨entry, surroundings, rfl, rfl⟩
  · refine ⟨((surroundings 0).embedding.toOption.elim entry fun vector =>
      { entry with metadata := { entry.metadata with embedding := some vector } }),
      fun step => surroundings (step + 1), ?_, ?_⟩
    · simp only [bind, Program.bind, perform, alone, execute, Surroundings.working]
      cases (surroundings 0).embedding <;> rfl
    · cases (surroundings 0).embedding <;> rfl

variable (serde config render memories request) in
theorem stores_write (surroundings : Nat → Surroundings Scalar) :
    Stores serde request memories
      ((MemoryStore.write config render request).alone (execute serde)
        (fun step => (surroundings step).working) memories).2.2 := by
  refine ⟨request.entry (surroundings 1).id (surroundings 0).now, rfl, ?_⟩
  set entry := request.entry (surroundings 1).id (surroundings 0).now
  have wrote : (MemoryStore.write config render request).alone (execute serde)
      (fun step => (surroundings step).working) memories =
      (if config.longTermImportanceThreshold ≤ entry.metadata.importance then
        (withEmbedding render entry >>= fun embedded =>
          perform (MemoryOperation.writeLong embedded) >>= fun _ => pure (.ok embedded) :
            MemoryProgram Scalar Json (Except EngineError (MemoryEntry Scalar Json)))
        else pure (.ok entry)).alone (execute serde)
          (fun step => (surroundings (step + 3)).working)
          { memories with shortTerm := memories.shortTerm.write serde entry } := rfl
  rw [wrote]
  split
  · obtain ⟨promoted, later, made, same⟩ := withEmbedding_alone serde render
      { memories with shortTerm := memories.shortTerm.write serde entry }
      (fun step => surroundings (step + 3)) entry
    rw [alone_bind, made]
    exact ⟨rfl, .inr ⟨promoted, same, rfl⟩⟩
  · exact ⟨rfl, .inl rfl⟩

theorem settle_cases (stored : Option (MemoryEntry Scalar Json)) (version : Nat)
    (surroundings : Nat → Surroundings Scalar) :
    let ended := (settle config render request stored version).alone
      (execute serde) (fun step => (surroundings step).working) memories
    ended.2.2 = memories ∨
      (∀ entry, stored = some entry → entry.version ≤ version) ∧
        Stores serde request memories ended.2.2 := by
  unfold settle
  cases newer : stored.filter (version < ·.version) with
  | some existing => exact .inl rfl
  | none =>
    refine .inr ⟨fun entry same => ?_, ?_⟩
    · simpa using Option.filter_eq_none_iff.mp newer entry same
    · have wrote := stores_write serde config render memories
        { request with version := some version } surroundings
      simp only [alone_bind]
      split <;> exact wrote

variable (serde memories request) in
omit [LE Scalar] [DecidableLE Scalar] in
theorem pendingVersion_alone (surroundings : Nat → Surroundings Scalar) :
    ∃ later : Nat → Surroundings Scalar,
      (pendingVersion request).alone (execute serde)
          (fun step => (surroundings step).working) memories =
        (request.version.getD (versionFromTimestamp (surroundings 0).now),
          fun step => (later step).working, memories) := by
  unfold pendingVersion
  cases request.version with
  | some version => exact ⟨surroundings, rfl⟩
  | none => exact ⟨fun step => surroundings (step + 1), rfl⟩

variable (serde config render memories request) in
theorem reconcile_cases (surroundings : Nat → Surroundings Scalar) :
    let ended := (reconcile config render request).alone (execute serde)
      (fun step => (surroundings step).working) memories
    ended.2.2 = memories ∨
      (∀ entry, memories.shortTerm.read serde request.key = .ok (some entry) →
        entry.version ≤ request.version.getD (versionFromTimestamp (surroundings 1).now)) ∧
        Stores serde request memories ended.2.2 := by
  intro ended
  have steady : (surroundings 0).working.failure = none := rfl
  cases read : memories.shortTerm.read serde request.key with
  | error error =>
    refine .inl ?_
    simp only [ended, reconcile, bind, Program.bind, perform, alone, execute, steady, read]
    rfl
  | ok stored =>
    obtain ⟨later, known⟩ := pendingVersion_alone serde memories request
      fun step => surroundings (step + 1)
    have begun : ended = (pendingVersion request >>=
        settle config render request stored).alone (execute serde)
          (fun step => (surroundings (step + 1)).working) memories := by
      simp only [ended, reconcile, bind, Program.bind, perform, alone, execute, steady, read]
    simp only [begun, alone_bind, known, Except.ok.injEq]
    exact settle_cases stored _ later

variable (serde config render memories request) in
theorem replayWrite_cases (surroundings : Nat → Surroundings Scalar) :
    let after := ((MemoryStore.replayWrite config render request).alone (execute serde)
      (fun step => (surroundings step).working) memories).2.2
    (after.shortTerm = memories.shortTerm ∧ after.longTerm = memories.longTerm) ∨
      UpToDate serde memories (fun step => (surroundings step).working) request ∧
        Stores serde request memories after := by
  have begun : (MemoryStore.replayWrite config render request).alone (execute serde)
      (fun step => (surroundings step).working) memories =
      (reconcile config render request >>= fun result =>
        perform (MemoryOperation.unlock (encodeKey request.key)) >>= fun _ => pure result :
          MemoryProgram Scalar Json (Except EngineError (MemoryReplayResult Scalar Json))).alone
        (execute serde) (fun step => (surroundings (step + 1)).working)
        { memories with locked := encodeKey request.key :: memories.locked } := rfl
  intro after
  simp only [after, begun, alone_bind]
  rcases reconcile_cases serde config render
    { memories with locked := encodeKey request.key :: memories.locked } request
    (fun step => surroundings (step + 1)) with same | ⟨upToDate, stores⟩
  · left
    rw [same]
    exact ⟨rfl, rfl⟩
  · exact .inr ⟨upToDate, stores⟩

omit [LE Scalar] [DecidableLE Scalar] in
theorem Mirrors.stores {after : Memories Bytes Scalar Json} (mirrors : Mirrors serde memories)
    (unpromoted : Unpromoted memories request.key) (stores : Stores serde request memories after) :
    Mirrors serde after := by
  obtain ⟨entry, own, shortTerm, longTerm⟩ := stores
  have old {point : FallbackEntry Scalar Json} (member : point ∈ memories.longTerm) :
      ∃ current, after.shortTerm.read serde point.entry.key = .ok (some current) ∧
        current.unembedded = point.entry.unembedded := by
    have apart : encodeKey entry.key ≠ encodeKey point.entry.key := fun same =>
      unpromoted point member (encodeKey_eq_iff.mp (own ▸ same)).symm
    rw [shortTerm, ShortTermMemory.read_write_of_ne apart]
    exact mirrors.current point member
  rcases longTerm with same | ⟨promoted, alike, written⟩
  · exact ⟨fun point member => old (same ▸ member), by rw [same]; exact mirrors.once⟩
  · have sameKey : promoted.unembedded.key = entry.unembedded.key := by rw [alike]
    change promoted.key = entry.key at sameKey
    constructor
    · intro point member
      rw [written] at member
      rcases LongTermMemory.mem_write member with ⟨earlier, -⟩ | new
      · exact old earlier
      · refine ⟨entry, ?_, by rw [new, alike]⟩
        rw [new, sameKey, shortTerm, ShortTermMemory.read_write rfl, StoredEntry.toEntry_fromEntry]
    · rw [written, LongTermMemory.write, map_append]
      refine Nodup.append ?_ (nodup_singleton _) ?_
      · exact mirrors.once.sublist (filter_sublist.map _)
      · intro key earlier new
        obtain ⟨point, kept, rfl⟩ := mem_map.mp earlier
        refine unpromoted point (mem_of_mem_filter kept) ?_
        rw [map_singleton, mem_singleton] at new
        rw [new, sameKey, own]

omit [LE Scalar] [DecidableLE Scalar] in
theorem Mirrors.delete (mirrors : Mirrors serde memories) (key : MemoryKey)
    (surroundings : Nat → Surroundings Scalar) :
    Mirrors serde ((MemoryStore.delete key).alone (execute serde)
      (fun step => (surroundings step).working) memories).2.2 := by
  change Mirrors serde { memories with
    shortTerm := memories.shortTerm.delete key, longTerm := memories.longTerm.delete key }
  constructor
  · intro point member
    obtain ⟨earlier, apart⟩ := LongTermMemory.mem_delete.mp member
    rw [ShortTermMemory.read_delete_of_ne fun same => apart (encodeKey_eq_iff.mp same).symm]
    exact mirrors.current point earlier
  · exact mirrors.once.sublist (filter_sublist.map _)

variable (config render) in
theorem Mirrors.exec (mirrors : Mirrors serde memories) {call : MemoryCall Scalar Json}
    (works : ∀ step, (surroundings step).failure = none)
    (unopposed : call.Unopposed serde memories surroundings) :
    Mirrors serde (call.exec serde config render memories surroundings) := by
  have quiet : surroundings = fun step => (surroundings step).working := by
    funext step
    rw [Surroundings.working, ← works step]
  rw [quiet] at unopposed ⊢
  cases call with
  | write request =>
    exact mirrors.stores unopposed (stores_write serde config render memories request surroundings)
  | replayWrite request =>
    rcases replayWrite_cases serde config render memories request surroundings with
      ⟨shortTerm, longTerm⟩ | ⟨upToDate, stores⟩
    · refine ⟨fun point member => ?_, ?_⟩
      · rw [MemoryCall.exec] at member ⊢
        rw [longTerm] at member
        rw [shortTerm]
        exact mirrors.current point member
      · rw [MemoryCall.exec, longTerm]
        exact mirrors.once
    · exact mirrors.stores (unopposed upToDate) stores
  | delete key => exact mirrors.delete key surroundings

variable (serde config render) in
def afterCalls (first : Memories Bytes Scalar Json)
    (history : List (MemoryCall Scalar Json × (Nat → Surroundings Scalar))) :
    Memories Bytes Scalar Json :=
  history.foldl (fun memories call => call.1.exec serde config render memories call.2) first

/-- Long-term memory shows what is current, to every search as well. -/
structure ShowsCurrent [LT Scalar] [DecidableLT Scalar] (serde : EntrySerde Bytes Scalar Json)
    (memories : Memories Bytes Scalar Json) : Prop extends Mirrors serde memories where
  found : ∀ cosineSimilarity query scope maxResults minScore,
    ∀ result ∈ memories.longTerm.search cosineSimilarity query scope maxResults minScore,
      ∃ entry, memories.shortTerm.read serde result.entry.key = .ok (some entry) ∧
        entry.unembedded = result.entry.unembedded

/-- As long as no call that stores an entry meets one of its key in long-term memory, long-term
memory shows current entries only. -/
theorem showsCurrent_of_calls [LT Scalar] [DecidableLT Scalar] {first : Memories Bytes Scalar Json}
    {history : List (MemoryCall Scalar Json × (Nat → Surroundings Scalar))}
    (begin : Mirrors serde first)
    (works : ∀ call ∈ history, ∀ step, (call.2 step).failure = none)
    (unopposed : ∀ earlier call later, history = earlier ++ call :: later →
      call.1.Unopposed serde (afterCalls serde config render first earlier) call.2) :
    ShowsCurrent serde (afterCalls serde config render first history) := by
  have mirrors : Mirrors serde (afterCalls serde config render first history) := by
    induction history using reverseRecOn with
    | nil => exact begin
    | append_singleton history call ih =>
      have before := ih (fun earlier member => works earlier (by simp [member]))
        fun earlier other later same => unopposed earlier other (later ++ [call]) (by simp [same])
      have step := before.exec config render (works call (by simp)) (unopposed history call [] rfl)
      simpa [afterCalls, foldl_append] using step
  refine { mirrors with found := ?_ }
  intro cosineSimilarity query scope maxResults minScore result member
  obtain ⟨point, kept, same⟩ := LongTermMemory.exists_of_mem_search member
  exact same ▸ mirrors.current point kept

end Calls

/-- A write that is important enough for long-term memory. -/
def sampleImportant (text : String) : MemoryWriteRequest Nat Unit where
  key := .project "project" "architecture"
  content := .text text
  metadata := { sourceAgent := "worker", importance := 9, tags := [], embedding := none }
  version := none

/-- Surroundings in which nothing fails and every entry gets this id. -/
def sampleMinting (id : MemoryId) : Nat → Surroundings Nat := fun _ => ⟨0, id, .ok [1], none⟩

/-- What is left of important writes, each with an id of its own. -/
def afterImportant (texts : List String) : Memories (StoredEntry Nat Unit) Nat Unit :=
  afterCalls plainEntrySerde ⟨7⟩ (fun _ => "") ⟨.fallback [], [], []⟩
    (texts.map fun text => (.write (sampleImportant text), sampleMinting text))

/-- An important write, its entry deleted, and another important write of the key. -/
def writtenAgain : List (MemoryCall Nat Unit × (Nat → Surroundings Nat)) :=
  [(.write (sampleImportant "first"), sampleMinting "first"),
    (.delete (sampleImportant "first").key, sampleMinting ""),
    (.write (sampleImportant "second"), sampleMinting "second")]

theorem showsCurrent_of_calls_writtenAgain :
    ShowsCurrent plainEntrySerde
      (afterCalls plainEntrySerde ⟨7⟩ (fun _ => "") ⟨.fallback [], [], []⟩ writtenAgain) := by
  refine showsCurrent_of_calls ⟨fun point member => absurd member not_mem_nil, .nil⟩ ?_ ?_
  · intro call member step
    simp only [writtenAgain, mem_cons, not_mem_nil, or_false] at member
    rcases member with rfl | rfl | rfl <;> rfl
  · rintro (_ | ⟨first, _ | ⟨second, _ | ⟨third, earlier⟩⟩⟩) call later same
    · obtain ⟨rfl, -⟩ := cons.inj same
      exact fun point member => absurd member not_mem_nil
    · obtain ⟨rfl, rest⟩ := cons.inj same
      obtain ⟨rfl, -⟩ := cons.inj rest
      trivial
    · obtain ⟨rfl, rest⟩ := cons.inj same
      obtain ⟨rfl, last⟩ := cons.inj rest
      obtain ⟨rfl, -⟩ := cons.inj last
      unfold MemoryCall.Unopposed Unpromoted
      decide +kernel
    · simp [writtenAgain] at same

/-- The entry of the first of two important writes stays in long-term memory. -/
theorem showsCurrent_fails_overwritten :
    ¬ ShowsCurrent plainEntrySerde (afterImportant ["first", "second"]) := by
  intro shows
  exact absurd shows.once (by decide +kernel)

end UltimateCoders.Memory
