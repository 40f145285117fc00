import UltimateCoders.Memory.LongTermMemory
import UltimateCoders.Memory.ShortTermMemory
import UltimateCoders.Transition.Protocol

/-! # The memory store

Every write goes to short-term memory, and one that is important enough to long-term memory
as well. A replayed write is made under a lock of its key, and only if nothing newer is
stored. Each read or write of one of the memories is one operation.
-/

namespace UltimateCoders.Memory

open Transition Program

variable {Bytes Scalar Json : Type}

inductive MemoryOperation (Scalar Json : Type) where
  | now
  | newId
  | lock (encodedKey : String)
  | unlock (encodedKey : String)
  | readShort (key : MemoryKey)
  | writeShort (entry : MemoryEntry Scalar Json)
  | deleteShort (key : MemoryKey)
  | embedSingle (text : String)
  | writeLong (entry : MemoryEntry Scalar Json)
  | deleteLong (key : MemoryKey)

open MemoryOperation

def MemoryOperation.Answer : MemoryOperation Scalar Json → Type
  | now => Timestamp
  | newId => MemoryId
  | lock _ | unlock _ => Unit
  | readShort _ => Except EngineError (Option (MemoryEntry Scalar Json))
  | writeShort _ | deleteShort _ | writeLong _ | deleteLong _ => Except EngineError Unit
  | embedSingle _ => Except String (List Scalar)

abbrev MemoryProgram (Scalar Json Result : Type) :=
  Program (MemoryOperation Scalar Json) Answer Result

structure MemoryConfig (Scalar : Type) where
  longTermImportanceThreshold : Scalar

/-- Extract the text that a vector is made of. -/
def contentToText (render : Json → String) : MemoryContent Json → String
  | .text text => text
  | .structured value => render value
  | .code _ code => code
  | .diff _ diff => diff
  | .reference _ description => description

namespace MemoryStore

variable [LE Scalar] [DecidableLE Scalar] (config : MemoryConfig Scalar) (render : Json → String)

/-- Generate the vector of an entry that has none; without one it stays as it is. -/
def withEmbedding (entry : MemoryEntry Scalar Json) :
    MemoryProgram Scalar Json (MemoryEntry Scalar Json) :=
  match entry.metadata.embedding with
  | some _ => return entry
  | none => do
      let embedded : Except String (List Scalar) ←
        perform (embedSingle (contentToText render entry.content))
      match embedded with
      | .ok vector =>
        return { entry with metadata := { entry.metadata with embedding := some vector } }
      | .error _ => return entry

def write (request : MemoryWriteRequest Scalar Json) :
    MemoryProgram Scalar Json (Except EngineError (MemoryEntry Scalar Json)) := do
  let now : Timestamp ← perform (now : MemoryOperation Scalar Json)
  let id : MemoryId ← perform (newId : MemoryOperation Scalar Json)
  let entry := request.entry id now
  let written : Except EngineError Unit ← perform (writeShort entry)
  match written with
  | .error error => return .error error
  | .ok _ =>
    if config.longTermImportanceThreshold ≤ entry.metadata.importance then do
      let embedded ← withEmbedding render entry
      -- a failure here is logged only
      let _ ← perform (writeLong embedded)
      return .ok embedded
    else return .ok entry

/-- The version of a replay: the one that the request brings, else the time. -/
def pendingVersion (request : MemoryWriteRequest Scalar Json) : MemoryProgram Scalar Json Nat :=
  match request.version with
  | some version => return version
  | none => do
      let now : Timestamp ← perform (now : MemoryOperation Scalar Json)
      return versionFromTimestamp now

/-- Write what is not older than the stored entry. -/
def settle (request : MemoryWriteRequest Scalar Json) (stored : Option (MemoryEntry Scalar Json))
    (version : Nat) : MemoryProgram Scalar Json (Except EngineError (MemoryReplayResult Scalar Json)) :=
  match stored.filter (version < ·.version) with
  | some existing => return .ok { entry := existing, applied := false }
  | none => do
      match ← write config render { request with version := some version } with
      | .error error => return .error error
      | .ok entry => return .ok { entry := entry, applied := true }

/-- What a replay does while it holds the lock of its key. -/
def reconcile (request : MemoryWriteRequest Scalar Json) :
    MemoryProgram Scalar Json (Except EngineError (MemoryReplayResult Scalar Json)) := do
  let read : Except EngineError (Option (MemoryEntry Scalar Json)) ←
    perform (readShort request.key)
  match read with
  | .error error => return .error error
  | .ok stored => do
      let version ← pendingVersion request
      settle config render request stored version

/-- Last-writer-wins by version. -/
def replayWrite (request : MemoryWriteRequest Scalar Json) :
    MemoryProgram Scalar Json (Except EngineError (MemoryReplayResult Scalar Json)) := do
  let _ ← perform (lock (encodeKey request.key))
  let result ← reconcile config render request
  let _ ← perform (unlock (encodeKey request.key))
  return result

def delete (key : MemoryKey) : MemoryProgram Scalar Json (Except EngineError Unit) := do
  let deleted : Except EngineError Unit ← perform (deleteShort key)
  match deleted with
  | .error error => return .error error
  | .ok _ => do
      let _ ← perform (deleteLong key)
      return .ok ()

end MemoryStore

/-- Both memories, and the keys whose locks are held. -/
structure Memories (Bytes Scalar Json : Type) where
  shortTerm : ShortTermMemory Bytes Scalar Json
  longTerm : LongTermMemory Scalar Json
  locked : List String

/-- What an operation meets: the clock, a fresh id, the embedding service, and a backend that may
fail. -/
structure Surroundings (Scalar : Type) where
  now : Timestamp
  id : MemoryId
  embedding : Except String (List Scalar)
  failure : Option String

section Execute

variable [Zero Scalar] (serde : EntrySerde Bytes Scalar Json)

/-- Carry out an operation; one that fails leaves everything as it is. -/
def Memories.execute (surroundings : Surroundings Scalar) (operation : MemoryOperation Scalar Json)
    (memories : Memories Bytes Scalar Json) : operation.Answer × Memories Bytes Scalar Json :=
  match operation with
  | .now => (surroundings.now, memories)
  | .newId => (surroundings.id, memories)
  | .lock key => ((), { memories with locked := key :: memories.locked })
  | .unlock key => ((), { memories with locked := memories.locked.filter (· ≠ key) })
  | .embedSingle _ => (surroundings.embedding, memories)
  | .readShort key =>
    match surroundings.failure with
    | some detail => (.error (.memoryReadError ("TiKV read error: " ++ detail)), memories)
    | none => (memories.shortTerm.read serde key, memories)
  | .writeShort entry =>
    match surroundings.failure with
    | some detail => (.error (.memoryWriteError ("TiKV write error: " ++ detail)), memories)
    | none => (.ok (), { memories with shortTerm := memories.shortTerm.write serde entry })
  | .deleteShort key =>
    match surroundings.failure with
    | some detail => (.error (.memoryWriteError ("TiKV delete error: " ++ detail)), memories)
    | none => (.ok (), { memories with shortTerm := memories.shortTerm.delete key })
  | .writeLong entry =>
    match surroundings.failure with
    | some detail => (.error (.memoryWriteError ("Qdrant upsert error: " ++ detail)), memories)
    | none => (.ok (), { memories with longTerm := memories.longTerm.write entry })
  | .deleteLong key =>
    match surroundings.failure with
    | some detail => (.error (.memoryWriteError ("Qdrant delete error: " ++ detail)), memories)
    | none => (.ok (), { memories with longTerm := memories.longTerm.delete key })

variable {serde} {surroundings : Surroundings Scalar} {memories : Memories Bytes Scalar Json}

theorem Memories.execute_readShort (works : surroundings.failure = none) (key : MemoryKey) :
    memories.execute serde surroundings (.readShort key) =
      (memories.shortTerm.read serde key, memories) := by
  simp only [Memories.execute, works]
  rfl

theorem Memories.execute_writeShort (works : surroundings.failure = none)
    (entry : MemoryEntry Scalar Json) :
    memories.execute serde surroundings (.writeShort entry) =
      (.ok (), { memories with shortTerm := memories.shortTerm.write serde entry }) := by
  simp only [Memories.execute, works]

end Execute

end UltimateCoders.Memory
