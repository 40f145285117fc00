import UltimateCoders.Memory.MemoryKey

/-! # Memory entries and the requests that make them -/

namespace UltimateCoders.Memory

/-- Nanoseconds since the epoch. -/
abbrev Timestamp := Int

abbrev MemoryId := String

inductive MemoryContent (Json : Type) where
  | text (text : String)
  | structured (value : Json)
  | code (language code : String)
  | diff (filePath diff : String)
  | reference (uri description : String)
  deriving DecidableEq

/-- Where a memory comes from and how much it matters, with the vector it is searched by. -/
structure MemoryMetadata (Scalar : Type) where
  sourceAgent : String
  importance : Scalar
  tags : List String
  embedding : Option (List Scalar)
  deriving DecidableEq

structure MemoryEntry (Scalar Json : Type) where
  id : MemoryId
  key : MemoryKey
  content : MemoryContent Json
  metadata : MemoryMetadata Scalar
  createdAt : Timestamp
  updatedAt : Timestamp
  version : Nat
  deriving DecidableEq

/-- The version of an entry made at a time: its milliseconds, if there are any. -/
def versionFromTimestamp (at_ : Timestamp) : Nat := (at_ / 1000000).toNat

structure MemoryWriteRequest (Scalar Json : Type) where
  key : MemoryKey
  content : MemoryContent Json
  metadata : MemoryMetadata Scalar
  version : Option Nat
  deriving DecidableEq

/-- The entry that a request makes under an id at a time. -/
def MemoryWriteRequest.entry {Scalar Json : Type} (request : MemoryWriteRequest Scalar Json)
    (id : MemoryId) (now : Timestamp) : MemoryEntry Scalar Json where
  id := id
  key := request.key
  content := request.content
  metadata := request.metadata
  createdAt := now
  updatedAt := now
  version := request.version.getD (versionFromTimestamp now)

/-- A replayed write, with the entry that is now stored. -/
structure MemoryReplayResult (Scalar Json : Type) where
  entry : MemoryEntry Scalar Json
  applied : Bool
  deriving DecidableEq

inductive EngineError where
  | memoryReadError (detail : String)
  | memoryWriteError (detail : String)
  deriving DecidableEq

end UltimateCoders.Memory
