import UltimateCoders.Checkpoint.Events

/-! # The checkpoint manager

Events are appended to the stream of their task. Snapshots of tasks are taken when
they are asked for and after every so many events, and recovery replays the events
after the latest snapshot. A call is taken apart into the steps between which other
calls run.
-/

namespace UltimateCoders.Checkpoint

structure CheckpointConfig where
  snapshotInterval : Nat
  snapshotPrefix : String
  subjectPrefix : String
  deriving DecidableEq

namespace CheckpointConfig

def default : CheckpointConfig := ⟨100, "snapshot", "agent.events."⟩

variable (config : CheckpointConfig)

def subjectFor (taskId : String) : String :=
  config.subjectPrefix ++ taskId

/-- What the ids of all snapshots of a task start with. -/
def scanPrefix (taskId : String) : String :=
  config.snapshotPrefix ++ ":" ++ taskId ++ ":"

def snapshotId (taskId : String) (latestOffset : Nat) : String :=
  config.snapshotPrefix ++ ":" ++ taskId ++ ":" ++ latestOffset.repr

end CheckpointConfig

inductive Call where
  /-- An event is appended but not yet counted. -/
  | counting (event : AgentEventType)
  /-- A snapshot is to be taken. -/
  | locating (taskId : String)
  /-- The latest offset is read. -/
  | replaying (taskId : String) (latestOffset : Nat)
  /-- The events are read and reduced. -/
  | storing (snapshot : TaskSnapshot)
  /-- The snapshot is stored. -/
  | announcing (taskId : String) (latestOffset : Nat)
  deriving DecidableEq

structure CheckpointManager where
  eventStore : InMemoryEventStore
  snapshotStore : AList fun _ : String => TaskSnapshot
  eventCount : Nat
  calls : List Call

namespace CheckpointManager

def new : CheckpointManager := ⟨.new, ∅, 0, []⟩

/-- The next step of a call, and what is left of it. -/
def advance (config : CheckpointConfig) (manager : CheckpointManager) :
    Call → CheckpointManager × Option Call
  | .counting event =>
    let count := manager.eventCount + 1
    ({ manager with eventCount := count },
      if count % config.snapshotInterval = 0 then (extractTaskId event).map .locating else none)
  | .locating taskId =>
    (manager, some (.replaying taskId (manager.eventStore.latestOffset (config.subjectFor taskId))))
  | .replaying taskId latestOffset =>
    let events := (manager.eventStore.readFrom (config.subjectFor taskId) 0).filter
      fun recorded => recorded.offset ≤ latestOffset
    (manager, some (.storing (events.foldl applyRecorded ⟨taskId, "created", [], latestOffset⟩)))
  | .storing snapshot =>
    ({ manager with
      snapshotStore := manager.snapshotStore.insert
        (config.snapshotId snapshot.taskId snapshot.lastEventOffset) snapshot },
      some (.announcing snapshot.taskId snapshot.lastEventOffset))
  | .announcing taskId latestOffset =>
    ({ manager with
      eventStore := manager.eventStore.append (config.subjectFor taskId)
        (.checkpointCreated taskId (config.snapshotId taskId latestOffset) latestOffset) }, none)

/-- What happens at the manager and its event store. -/
inductive Action where
  /-- An event is appended directly to the event store. -/
  | append (subject : String) (event : AgentEventType)
  /-- An event is recorded by the manager, which appends it first. -/
  | recordEvent (subject : String) (event : AgentEventType)
  | createSnapshot (taskId : String)
  /-- A call that is under way takes its next step. -/
  | advance (index : Nat)

def act (config : CheckpointConfig) (manager : CheckpointManager) :
    Action → Option CheckpointManager
  | .append subject event =>
    some { manager with eventStore := manager.eventStore.append subject event }
  | .recordEvent subject event =>
    some { manager with
      eventStore := manager.eventStore.append subject event
      calls := manager.calls ++ [.counting event] }
  | .createSnapshot taskId => some { manager with calls := manager.calls ++ [.locating taskId] }
  | .advance index =>
    manager.calls[index]?.map fun call =>
      match manager.advance config call with
      | (after, some rest) => { after with calls := manager.calls.set index rest }
      | (after, none) => { after with calls := manager.calls.eraseIdx index }

def Steps (config : CheckpointConfig) (before : CheckpointManager) (action : Action)
    (after : CheckpointManager) : Prop :=
  before.act config action = some after

def actAll (config : CheckpointConfig) (manager : CheckpointManager) :
    List Action → Option CheckpointManager
  | [] => some manager
  | action :: rest => (manager.act config action).bind fun after => actAll config after rest

/-- The later of two snapshots; the scan starts with none at offset zero. -/
def later (pre : String) (latest : Option TaskSnapshot × Nat)
    (entry : (_ : String) × TaskSnapshot) : Option TaskSnapshot × Nat :=
  if pre.toList.isPrefixOf entry.1.toList && latest.2 ≤ entry.2.lastEventOffset then
    (some entry.2, entry.2.lastEventOffset)
  else latest

/-- Scan the snapshots, in the order in which the map happens to list them. -/
def findLatestSnapshot (config : CheckpointConfig) (order : List ((_ : String) × TaskSnapshot))
    (taskId : String) : Option TaskSnapshot :=
  (order.foldl (later (config.scanPrefix taskId)) (none, 0)).1

/-- Replay the events after the snapshot that was found. -/
def recoverFrom (config : CheckpointConfig) (manager : CheckpointManager) (taskId : String) :
    Option TaskSnapshot → TaskSnapshot
  | some snapshot =>
    let events := manager.eventStore.readFrom (config.subjectFor taskId)
      (snapshot.lastEventOffset + 1)
    { events.foldl applyRecorded snapshot with
      lastEventOffset := (events.getLast?.map RecordedEvent.offset).getD snapshot.lastEventOffset }
  | none =>
    let events := manager.eventStore.readFrom (config.subjectFor taskId) 0
    { events.foldl applyRecorded (.created taskId) with
      lastEventOffset := (events.getLast?.map RecordedEvent.offset).getD 0 }

/-- The state of a task, from its latest snapshot. -/
def recover (config : CheckpointConfig) (manager : CheckpointManager)
    (order : List ((_ : String) × TaskSnapshot)) (taskId : String) : TaskSnapshot :=
  manager.recoverFrom config taskId (findLatestSnapshot config order taskId)

end CheckpointManager

end UltimateCoders.Checkpoint
