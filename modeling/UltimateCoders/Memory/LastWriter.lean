import Mathlib.Algebra.GroupWithZero.Nat
import Mathlib.Algebra.Order.Monoid.Unbundled.WithTop
import UltimateCoders.Memory.MemoryStore

/-! # The last writer wins

Writes and replayed writes of one key meet in short-term memory. A replay compares versions
under a lock that plain writes do not take; the version that is stored never decreases as
long as no plain write is older than what it meets, and none newer than a replay comes
between its read and its write.
-/

namespace UltimateCoders.Memory

open Transition Function
open MemoryStore (pendingVersion reconcile replayWrite settle withEmbedding)
open Memories Program

variable {Bytes Scalar Json : Type}

structure MemoryWriteRequest.Makes (request : MemoryWriteRequest Scalar Json)
    (entry : MemoryEntry Scalar Json) : Prop where
  key : entry.key = request.key
  content : entry.content = request.content
  metadata : entry.metadata = request.metadata
  version : request.version = some entry.version

theorem MemoryWriteRequest.makes_entry {request : MemoryWriteRequest Scalar Json} {version : Nat}
    (explicit : request.version = some version) (id : MemoryId) (now : Timestamp) :
    request.Makes (request.entry id now) :=
  ⟨rfl, rfl, rfl, by simp [MemoryWriteRequest.entry, explicit]⟩

inductive Call (Scalar Json : Type) where
  | write (request : MemoryWriteRequest Scalar Json)
  | replay (request : MemoryWriteRequest Scalar Json)

inductive Returned (Scalar Json : Type) where
  | written (result : Except EngineError (MemoryEntry Scalar Json))
  | replayed (result : Except EngineError (MemoryReplayResult Scalar Json))

namespace Call

def request : Call Scalar Json → MemoryWriteRequest Scalar Json
  | write request | replay request => request

def program [LE Scalar] [DecidableLE Scalar] (config : MemoryConfig Scalar)
    (render : Json → String) : Call Scalar Json → MemoryProgram Scalar Json (Returned Scalar Json)
  | write request => do return .written (← MemoryStore.write config render request)
  | replay request => do return .replayed (← replayWrite config render request)

end Call

/-! ## How a call proceeds -/

inductive Stage where
  /-- A plain write before it stores its entry. -/
  | writing
  /-- A replay that waits for the lock of its key. -/
  | waiting
  | reading
  /-- It has met nothing newer. -/
  | cleared
  /-- It is through with short-term memory, well or not, and has the lock. -/
  | holding (well : Bool)
  | finished (well : Bool)
  deriving DecidableEq

structure Phase (Scalar Json : Type) where
  request : MemoryWriteRequest Scalar Json
  stage : Stage

def Call.phase : Call Scalar Json → Phase Scalar Json
  | write request => ⟨request, .writing⟩
  | replay request => ⟨request, .waiting⟩

def Phase.version (phase : Phase Scalar Json) : Nat := phase.request.version.getD 0

/-- Through with short-term memory. -/
def Phase.past (phase : Phase Scalar Json) (well : Bool) : Phase Scalar Json where
  request := phase.request
  stage := if phase.stage = .writing then .finished well else .holding well

def reconciliation : Protocol (MemoryOperation Scalar Json) MemoryOperation.Answer
    (Phase Scalar Json) where
  permits phase operation :=
    match operation with
    | .now | .newId | .embedSingle _ | .writeLong _ => True
    | .lock key => phase.stage = .waiting ∧ key = encodeKey phase.request.key
    | .unlock key => (∃ well, phase.stage = .holding well) ∧ key = encodeKey phase.request.key
    | .readShort key => phase.stage = .reading ∧ key = phase.request.key
    | .writeShort entry =>
      (phase.stage = .writing ∨ phase.stage = .cleared) ∧ phase.request.Makes entry
    | .deleteShort _ | .deleteLong _ => False
  next phase operation answer :=
    match operation, answer with
    | .lock _, _ => { phase with stage := .reading }
    | .unlock _, _ =>
      match phase.stage with
      | .holding well => { phase with stage := .finished well }
      | _ => phase
    | .readShort _, .error _ => phase.past false
    | .readShort _, .ok found =>
      if (found.filter (phase.version < ·.version)).isSome then phase.past true
      else { phase with stage := .cleared }
    | .writeShort _, .error _ => phase.past false
    | .writeShort _, .ok _ => phase.past true
    | _, _ => phase

variable {entry : MemoryEntry Scalar Json}
  {before :
      Session Bool (Memories (StoredEntry Nat Unit) Nat Unit)
        (MemoryOperation Nat Unit) MemoryOperation.Answer (Returned Nat Unit)}

section Programs

variable [LE Scalar] [DecidableLE Scalar] {config : MemoryConfig Scalar} {render : Json → String}
  {request : MemoryWriteRequest Scalar Json} {phase : Phase Scalar Json} {version : Nat}

omit [LE Scalar] [DecidableLE Scalar] in
theorem follows_withEmbedding :
    (withEmbedding render entry).Follows reconciliation (fun _ _ => True)
      (fun _ later => later = phase) phase := by
  unfold withEmbedding
  split
  · exact rfl
  · refine ⟨trivial, fun answer _ => ?_⟩
    cases answer <;> exact rfl

theorem follows_write (explicit : request.version = some version)
    (ready : phase.stage = .writing ∨ phase.stage = .cleared) (own : phase.request = request) :
    (MemoryStore.write config render request).Follows reconciliation (fun _ _ => True)
      (fun _ later => ∃ well, later = phase.past well) phase := by
  refine ⟨trivial, fun now _ => ⟨trivial, fun id _ => ⟨⟨ready, ?_⟩, fun answer _ => ?_⟩⟩⟩
  · subst own
    exact MemoryWriteRequest.makes_entry explicit id now
  · cases answer with
    | error error => exact ⟨false, rfl⟩
    | ok done =>
      change Follows _ _ _ (if _ then _ else _) _
      split
      · refine Follows.seq follows_withEmbedding ?_
        rintro embedded later rfl
        exact ⟨trivial, fun _ _ => ⟨true, rfl⟩⟩
      · exact ⟨true, rfl⟩

theorem follows_replayWrite (explicit : request.version = some version) :
    (replayWrite config render request).Follows reconciliation (fun _ _ => True)
      (fun _ later => ∃ well, later = ⟨request, .finished well⟩) ⟨request, .waiting⟩ := by
  have reconciles : (reconcile config render request).Follows reconciliation
      (fun _ _ => True) (fun _ later => ∃ well, later = ⟨request, .holding well⟩)
      ⟨request, .reading⟩ := by
    refine ⟨⟨rfl, rfl⟩, fun answer _ => ?_⟩
    cases answer with
    | error error => exact ⟨false, rfl⟩
    | ok found =>
      have own : (⟨request, .reading⟩ : Phase Scalar Json).version = version := by
        simp [Phase.version, explicit]
      have known : Follows reconciliation (fun _ _ => True)
          (fun brought later => brought = version ∧
            later = reconciliation.next ⟨request, .reading⟩ (.readShort request.key) (.ok found))
          (pendingVersion request)
          (reconciliation.next ⟨request, .reading⟩ (.readShort request.key) (.ok found)) := by
        simp only [pendingVersion, explicit]
        exact ⟨rfl, rfl⟩
      change Follows _ _ _ (pendingVersion request >>= _) _
      refine Follows.seq known ?_
      rintro brought later ⟨rfl, rfl⟩
      simp only [reconciliation, own, settle]
      cases newer : found.filter (brought < ·.version) with
      | some existing => exact ⟨true, rfl⟩
      | none =>
        have same : ({ request with version := some brought } :
            MemoryWriteRequest Scalar Json) = request := by
          rw [← explicit]
        refine Follows.seq (follows_write rfl (.inr rfl) same.symm) ?_
        rintro (_ | _) later ⟨well, rfl⟩
        · exact ⟨well, rfl⟩
        · exact ⟨well, rfl⟩
  refine ⟨⟨rfl, rfl⟩, fun _ _ => ?_⟩
  change Follows _ _ _ (reconcile config render request >>= _) _
  refine Follows.seq reconciles ?_
  rintro result later ⟨well, rfl⟩
  exact ⟨⟨⟨well, rfl⟩, rfl⟩, fun _ _ => ⟨well, rfl⟩⟩

theorem follows_program {call : Call Scalar Json} (explicit : call.request.version = some version) :
    (call.program config render).Follows reconciliation (fun _ _ => True)
      (fun _ later => ∃ well, later = ⟨call.request, .finished well⟩) call.phase := by
  cases call with
  | write request =>
    refine Follows.seq (follows_write explicit (.inl rfl) rfl) ?_
    rintro result later ⟨well, rfl⟩
    exact ⟨well, rfl⟩
  | replay request =>
    refine Follows.seq (follows_replayWrite explicit) ?_
    rintro result later ⟨well, rfl⟩
    exact ⟨well, rfl⟩

end Programs

/-! ## What the store and the stages tell of each other -/

/-- The version stored under a key; nothing is older than all versions. -/
def storedVersion (serde : EntrySerde Bytes Scalar Json) (key : MemoryKey)
    (memories : Memories Bytes Scalar Json) : WithBot Nat :=
  match memories.shortTerm.read serde key with
  | .ok (some entry) => entry.version
  | _ => ⊥

theorem storedVersion_of_read {serde : EntrySerde Bytes Scalar Json} {key : MemoryKey}
    {memories : Memories Bytes Scalar Json}
    (read : memories.shortTerm.read serde key = .ok (some entry)) :
    storedVersion serde key memories = entry.version := by
  simp only [storedVersion, read]

/-- The call has the lock of its key. -/
def Stage.Locks : Stage → Prop
  | reading | cleared | holding _ => True
  | writing | waiting | finished _ => False

/-- The call has stored its entry, or met a newer one. -/
def Stage.Through (stage : Stage) : Prop := stage = .holding true ∨ stage = .finished true

theorem Call.not_locks_phase (call : Call Scalar Json) : ¬ call.phase.stage.Locks := by
  cases call <;> exact id

theorem Call.not_through_phase (call : Call Scalar Json) : ¬ call.phase.stage.Through := by
  cases call <;> rintro (same | same) <;> cases same

variable {Index : Type}

structure Reconciled (serde : EntrySerde Bytes Scalar Json) (key : MemoryKey)
    (calls : Index → Call Scalar Json) (first : Memories Bytes Scalar Json)
    (phases : Index → Phase Scalar Json) (memories : Memories Bytes Scalar Json) : Prop where
  own : ∀ index, (phases index).request = (calls index).request
  readable : ∃ found, memories.shortTerm.read serde key = .ok found
  exclusive : ∀ index other, (phases index).stage.Locks → (phases other).stage.Locks → index = other
  held : ∀ index, (phases index).stage.Locks → encodeKey key ∈ memories.locked
  cleared : ∀ index, (phases index).stage = .cleared →
    storedVersion serde key memories ≤ (phases index).version
  through : ∀ index, (phases index).stage.Through →
    (phases index).version ≤ storedVersion serde key memories
  well : ∀ index, (phases index).stage ≠ .holding false ∧ (phases index).stage ≠ .finished false
  origin : ∀ entry, memories.shortTerm.read serde key = .ok (some entry) →
    first.shortTerm.read serde key = .ok (some entry) ∨
      ∃ index, (phases index).stage.Through ∧ (phases index).request.Makes entry

section Step

variable [DecidableEq Index] {serde : EntrySerde Bytes Scalar Json} {key : MemoryKey}
  {calls : Index → Call Scalar Json} {first memories after : Memories Bytes Scalar Json}
  {phases : Index → Phase Scalar Json} {index : Index} {later : Phase Scalar Json}

/-- What a call must see to when it goes from one stage to the next. -/
theorem Reconciled.move (reconciled : Reconciled serde key calls first phases memories)
    (request : later.request = (phases index).request)
    (readable : ∃ found, after.shortTerm.read serde key = .ok found)
    (grows : storedVersion serde key memories ≤ storedVersion serde key after)
    (alone : later.stage.Locks → ∀ other, other ≠ index → ¬ (phases other).stage.Locks)
    (held : later.stage.Locks → encodeKey key ∈ after.locked)
    (others : ∀ other, other ≠ index → (phases other).stage.Locks → encodeKey key ∈ after.locked)
    (cleared : later.stage = .cleared → storedVersion serde key after ≤ later.version)
    (bounded : ∀ other, other ≠ index → (phases other).stage = .cleared →
      storedVersion serde key after ≤ (phases other).version)
    (through : later.stage.Through → later.version ≤ storedVersion serde key after)
    (stays : (phases index).stage.Through → later.stage.Through)
    (well : later.stage ≠ .holding false ∧ later.stage ≠ .finished false)
    (origin : ∀ entry, after.shortTerm.read serde key = .ok (some entry) →
      memories.shortTerm.read serde key = .ok (some entry) ∨
        later.stage.Through ∧ later.request.Makes entry) :
    Reconciled serde key calls first (update phases index later) after := by
  have here : update phases index later index = later := update_self _ _ _
  have elsewhere {other : Index} (different : other ≠ index) :
      update phases index later other = phases other := update_of_ne different _ _
  refine ⟨fun other => ?_, readable, fun one other locks alsoLocks => ?_, fun other locks => ?_,
    fun other stage => ?_, fun other stage => ?_, fun other => ?_, fun entry read => ?_⟩
  · by_cases same : other = index
    · subst same
      rw [here, request, reconciled.own]
    · rw [elsewhere same, reconciled.own]
  · by_cases same : one = index <;> by_cases alsoSame : other = index
    · exact same.trans alsoSame.symm
    · subst same
      rw [here] at locks
      rw [elsewhere alsoSame] at alsoLocks
      exact (alone locks other alsoSame alsoLocks).elim
    · subst alsoSame
      rw [here] at alsoLocks
      rw [elsewhere same] at locks
      exact (alone alsoLocks one same locks).elim
    · rw [elsewhere same] at locks
      rw [elsewhere alsoSame] at alsoLocks
      exact reconciled.exclusive one other locks alsoLocks
  · by_cases same : other = index
    · subst same
      rw [here] at locks
      exact held locks
    · rw [elsewhere same] at locks
      exact others other same locks
  · by_cases same : other = index
    · subst same
      rw [here] at stage ⊢
      exact cleared stage
    · rw [elsewhere same] at stage ⊢
      exact bounded other same stage
  · by_cases same : other = index
    · subst same
      rw [here] at stage ⊢
      exact through stage
    · rw [elsewhere same] at stage ⊢
      exact (reconciled.through other stage).trans grows
  · by_cases same : other = index
    · subst same
      rw [here]
      exact well
    · rw [elsewhere same]
      exact reconciled.well other
  · rcases origin entry read with old | ⟨stage, makes⟩
    · rcases reconciled.origin entry old with initial | ⟨other, stage, makes⟩
      · exact .inl initial
      · refine .inr ⟨other, ?_⟩
        by_cases same : other = index
        · subst same
          rw [here, request]
          exact ⟨stays stage, makes⟩
        · rw [elsewhere same]
          exact ⟨stage, makes⟩
    · exact .inr ⟨index, by rw [here]; exact ⟨stage, makes⟩⟩

theorem Reconciled.stay (reconciled : Reconciled serde key calls first phases memories)
    (same : after.shortTerm = memories.shortTerm) (locked : after.locked = memories.locked) :
    Reconciled serde key calls first (update phases index (phases index)) after := by
  have version : storedVersion serde key after = storedVersion serde key memories := by
    simp only [storedVersion, same]
  rw [update_eq_self]
  refine ⟨reconciled.own, by rw [same]; exact reconciled.readable, reconciled.exclusive,
    by rw [locked]; exact reconciled.held, by rw [version]; exact reconciled.cleared,
    by rw [version]; exact reconciled.through, reconciled.well,
    by rw [same]; exact reconciled.origin⟩

def MemoryOperation.IsShort : MemoryOperation Scalar Json → Prop
  | readShort _ | writeShort _ | deleteShort _ => True
  | _ => False

/-- An operation of a call preserves what holds, and no version is lost. -/
def Reconciled.Keeps [Zero Scalar] (serde : EntrySerde Bytes Scalar Json) (key : MemoryKey)
    (calls : Index → Call Scalar Json) (first : Memories Bytes Scalar Json)
    (phases : Index → Phase Scalar Json) (memories : Memories Bytes Scalar Json) (index : Index)
    (surroundings : Surroundings Scalar) (operation : MemoryOperation Scalar Json) : Prop :=
  Reconciled serde key calls first
      (update phases index (reconciliation.next (phases index) operation
        (memories.execute serde surroundings operation).1))
      (memories.execute serde surroundings operation).2 ∧
    storedVersion serde key memories ≤
      storedVersion serde key (memories.execute serde surroundings operation).2

section Operations

variable (reconciled : Reconciled serde key calls first phases memories)
  (keyed : ∀ index, (calls index).request.key = key)

include reconciled

omit [DecidableEq Index] in
/-- No other call has the lock. -/
theorem Reconciled.unheld (mine : (phases index).stage.Locks) {other : Index}
    (different : other ≠ index) : ¬ (phases other).stage.Locks :=
  fun locks => different (reconciled.exclusive other index locks mine)

/-- Something newer is stored, so nothing is to be written. -/
theorem Reconciled.readNewer {existing : MemoryEntry Scalar Json}
    (readable : memories.shortTerm.read serde key = .ok (some existing))
    (reads : (phases index).stage = .reading) (less : (phases index).version < existing.version) :
    Reconciled serde key calls first (update phases index
      (reconciliation.next (phases index) (.readShort key) (.ok (some existing)))) memories := by
  have mine : (phases index).stage.Locks := by rw [reads]; trivial
  have ended : reconciliation.next (phases index) (.readShort key) (.ok (some existing)) =
      { phases index with stage := .holding true } := by
    simp only [reconciliation, Option.filter_some, less, decide_true, Option.isSome_some, ↓reduceIte,
      Phase.past, reads, reduceCtorEq]
  rw [ended]
  refine reconciled.move rfl reconciled.readable le_rfl (fun _ _ => reconciled.unheld mine)
    (fun _ => reconciled.held index mine) (fun other _ => reconciled.held other)
    (nofun) (fun other _ => reconciled.cleared other)
    (fun _ => ?_) (fun _ => .inl rfl) ?_ fun _ read => .inl read
  · rw [storedVersion_of_read readable]
    exact WithBot.coe_le_coe.mpr less.le
  · constructor <;> intro impossible <;> cases impossible

/-- Nothing newer is stored, and nothing will be as long as the call has the lock. -/
theorem Reconciled.readCleared {found : Option (MemoryEntry Scalar Json)}
    (readable : memories.shortTerm.read serde key = .ok found)
    (reads : (phases index).stage = .reading)
    (newer : found.filter ((phases index).version < ·.version) = none) :
    Reconciled serde key calls first (update phases index
      (reconciliation.next (phases index) (.readShort key) (.ok found))) memories := by
  have mine : (phases index).stage.Locks := by rw [reads]; trivial
  have ended : reconciliation.next (phases index) (.readShort key) (.ok found) =
      { phases index with stage := .cleared } := by
    simp only [reconciliation, newer, Option.isSome_none, Bool.false_eq_true, ↓reduceIte]
  rw [ended]
  refine reconciled.move rfl reconciled.readable le_rfl (fun _ _ => reconciled.unheld mine)
    (fun _ => reconciled.held index mine) (fun other _ => reconciled.held other)
    (fun _ => ?_) (fun other _ => reconciled.cleared other) ?_ ?_ ?_ fun _ read => .inl read
  · cases found with
    | none =>
      have nothing : storedVersion serde key memories = ⊥ := by
        simp only [storedVersion, readable]
      rw [nothing]
      exact bot_le
    | some entry =>
      rw [storedVersion_of_read readable]
      have old : ¬ (phases index).version < entry.version := by
        simpa using Option.filter_eq_none_iff.mp newer entry rfl
      exact WithBot.coe_le_coe.mpr (not_lt.mp old)
  · rintro (impossible | impossible) <;> cases impossible
  · rintro (impossible | impossible) <;> rw [reads] at impossible <;> cases impossible
  · constructor <;> intro impossible <;> cases impossible

variable [Zero Scalar] {surroundings : Surroundings Scalar}

theorem Reconciled.unlock {encoded : String}
    (permitted : reconciliation.permits (phases index) (.unlock encoded)) :
    Reconciled.Keeps serde key calls first phases memories index surroundings (.unlock encoded) := by
  obtain ⟨⟨well, holds⟩, rfl⟩ := permitted
  obtain rfl : well = true := by
    by_contra other
    rw [Bool.not_eq_true] at other
    exact (reconciled.well index).1 (other ▸ holds)
  have mine : (phases index).stage.Locks := by rw [holds]; trivial
  have ended : reconciliation.next (phases index)
      (.unlock (encodeKey (phases index).request.key)) () =
      { phases index with stage := .finished true } := by
    simp only [reconciliation, holds]
  refine ⟨?_, le_rfl⟩
  change Reconciled serde key calls first (update phases index
    (reconciliation.next (phases index) (.unlock (encodeKey (phases index).request.key)) ())) _
  rw [ended]
  refine reconciled.move rfl reconciled.readable le_rfl (fun locks => locks.elim)
    (fun locks => locks.elim)
    (fun other different locks => (reconciled.unheld mine different locks).elim)
    (nofun) (fun other _ => reconciled.cleared other)
    (fun _ => ?_) (fun _ => .inr rfl) ?_ fun _ read => .inl read
  · exact reconciled.through index (.inl holds)
  · constructor <;> intro impossible <;> cases impossible

include keyed

omit [DecidableEq Index] [Zero Scalar] in
theorem Reconciled.ownKey (other : Index) : (phases other).request.key = key := by
  rw [reconciled.own, keyed]

theorem Reconciled.lock {encoded : String}
    (permitted : reconciliation.permits (phases index) (.lock encoded))
    (free : encoded ∉ memories.locked) :
    Reconciled.Keeps serde key calls first phases memories index surroundings (.lock encoded) := by
  obtain ⟨waits, rfl⟩ := permitted
  rw [reconciled.ownKey keyed] at free ⊢
  have unheld (other : Index) : ¬ (phases other).stage.Locks := fun locks =>
    free (reconciled.held other locks)
  refine ⟨reconciled.move rfl reconciled.readable le_rfl (fun _ other _ => unheld other)
    (fun _ => List.mem_cons_self) (fun other _ locks => (unheld other locks).elim)
    (nofun) (fun other _ => reconciled.cleared other) ?_ ?_ ?_
    fun _ read => .inl read, le_rfl⟩
  · rintro (impossible | impossible) <;> cases impossible
  · rintro (impossible | impossible) <;> rw [waits] at impossible <;> cases impossible
  · constructor <;> intro impossible <;> cases impossible

theorem Reconciled.readShort {read : MemoryKey}
    (permitted : reconciliation.permits (phases index) (.readShort read))
    (served : surroundings.failure = none) :
    Reconciled.Keeps serde key calls first phases memories index surroundings (.readShort read) := by
  obtain ⟨reads, rfl⟩ := permitted
  obtain ⟨found, readable⟩ := reconciled.readable
  rw [reconciled.ownKey keyed, Reconciled.Keeps, execute_readShort served, readable]
  refine ⟨?_, le_rfl⟩
  cases newer : found.filter ((phases index).version < ·.version) with
  | some existing =>
    obtain ⟨rfl, less⟩ := Option.filter_eq_some_iff.mp newer
    exact reconciled.readNewer readable reads (of_decide_eq_true less)
  | none => exact reconciled.readCleared readable reads newer

theorem Reconciled.writeShort
    (permitted : reconciliation.permits (phases index) (.writeShort entry))
    (served : surroundings.failure = none)
    (newer : (phases index).stage = .writing → storedVersion serde key memories ≤ entry.version ∧
      ∀ other, (phases other).stage = .cleared → entry.version ≤ (phases other).version) :
    Reconciled.Keeps serde key calls first phases memories index surroundings (.writeShort entry) := by
  obtain ⟨ready, makes⟩ := permitted
  have sameKey : entry.key = key := makes.key.trans (reconciled.ownKey keyed index)
  have now : (memories.shortTerm.write serde entry).read serde key = .ok (some entry) := by
    rw [ShortTermMemory.read_write (by rw [sameKey]), ← sameKey, StoredEntry.toEntry_fromEntry]
  have own : (phases index).version = entry.version := by
    rw [Phase.version, makes.version, Option.getD_some]
  have version : storedVersion serde key
      { memories with shortTerm := memories.shortTerm.write serde entry } = entry.version :=
    storedVersion_of_read now
  have grows : storedVersion serde key memories ≤ entry.version := by
    rcases ready with writes | clear
    · exact (newer writes).1
    · exact own ▸ reconciled.cleared index clear
  have bounded : ∀ other, other ≠ index → (phases other).stage = .cleared →
      (entry.version : WithBot Nat) ≤ (phases other).version := by
    intro other different clear
    rcases ready with writes | alsoClear
    · exact WithBot.coe_le_coe.mpr ((newer writes).2 other clear)
    · exact (different (reconciled.exclusive other index (by rw [clear]; trivial)
        (by rw [alsoClear]; trivial))).elim
  have ended : (reconciliation.next (phases index) (.writeShort entry) (.ok ())).request =
      (phases index).request ∧
      (((phases index).stage = .writing ∧
        (reconciliation.next (phases index) (.writeShort entry) (.ok ())).stage = .finished true) ∨
      ((phases index).stage.Locks ∧
        (reconciliation.next (phases index) (.writeShort entry) (.ok ())).stage =
          .holding true)) := by
    rcases ready with writes | clear
    · exact ⟨rfl, .inl ⟨writes, by simp [reconciliation, Phase.past, writes]⟩⟩
    · exact ⟨rfl, .inr ⟨by rw [clear]; trivial, by simp [reconciliation, Phase.past, clear]⟩⟩
  rw [Reconciled.Keeps, execute_writeShort served]
  refine ⟨?_, version ▸ grows⟩
  obtain ⟨request, stages⟩ := ended
  have done : (reconciliation.next (phases index) (.writeShort entry) (.ok ())).stage.Through := by
    rcases stages with ⟨-, stage⟩ | ⟨-, stage⟩
    · exact .inr stage
    · exact .inl stage
  have mine (locks : (reconciliation.next (phases index) (.writeShort entry)
      (.ok ())).stage.Locks) : (phases index).stage.Locks := by
    rcases stages with ⟨-, stage⟩ | ⟨mine, -⟩
    · rw [stage] at locks
      exact locks.elim
    · exact mine
  refine reconciled.move request ⟨some entry, now⟩ (version ▸ grows) ?_ ?_ ?_ ?_ ?_ ?_ ?_ ?_ ?_
  · intro locks other different alsoLocks
    exact different (reconciled.exclusive other index alsoLocks (mine locks))
  · intro locks
    exact reconciled.held index (mine locks)
  · exact fun other _ => reconciled.held other
  · intro clear
    rcases done with stage | stage <;> rw [stage] at clear <;> cases clear
  · intro other different clear
    rw [version]
    exact bounded other different clear
  · intro _
    rw [version, Phase.version, request, makes.version]
    exact le_rfl
  · exact fun _ => done
  · rcases done with stage | stage <;> rw [stage] <;> simp
  · intro other read
    have same := now.symm.trans read
    simp only [Except.ok.injEq, Option.some.injEq] at same
    exact .inr ⟨done, by rw [request, ← same]; exact makes⟩

/-- What one operation of a call preserves. -/
theorem Reconciled.step {operation : MemoryOperation Scalar Json}
    (permitted : reconciliation.permits (phases index) operation)
    (free : ∀ encoded, operation = .lock encoded → encoded ∉ memories.locked)
    (served : operation.IsShort → surroundings.failure = none)
    (newer : ∀ entry, operation = .writeShort entry → (phases index).stage = .writing →
      storedVersion serde key memories ≤ entry.version ∧
        ∀ other, (phases other).stage = .cleared → entry.version ≤ (phases other).version) :
    Reconciled.Keeps serde key calls first phases memories index surroundings operation := by
  cases operation with
  | now | newId | embedSingle text => exact ⟨reconciled.stay rfl rfl, le_rfl⟩
  | writeLong entry =>
    simp only [Reconciled.Keeps, execute]
    split
    · exact ⟨reconciled.stay rfl rfl, le_rfl⟩
    · exact ⟨reconciled.stay rfl rfl, le_rfl⟩
  | deleteShort _ | deleteLong _ => exact permitted.elim
  | lock encoded => exact reconciled.lock keyed permitted (free _ rfl)
  | unlock encoded => exact reconciled.unlock permitted
  | readShort read => exact reconciled.readShort keyed permitted (served trivial)
  | writeShort entry => exact reconciled.writeShort keyed permitted (served trivial) (newer entry rfl)

end Operations

end Step

/-! ## Runs -/

section Runs

variable [DecidableEq Index] [LE Scalar] [DecidableLE Scalar]

def concurrently (config : MemoryConfig Scalar) (render : Json → String)
    (calls : Index → Call Scalar Json) (memories : Memories Bytes Scalar Json) :
    Session Index (Memories Bytes Scalar Json) (MemoryOperation Scalar Json) MemoryOperation.Answer
      (Returned Scalar Json) where
  store := memories
  calls index := (calls index).program config render
  log := []

/-- How far each call has come. -/
def progress (calls : Index → Call Scalar Json)
    (session : Session Index (Memories Bytes Scalar Json) (MemoryOperation Scalar Json)
      MemoryOperation.Answer (Returned Scalar Json)) : Index → Phase Scalar Json :=
  reconciliation.phase (fun index => (calls index).phase) session.log

/-- Locks are taken where they are free, and short-term memory answers. -/
structure Answered
    (before : Session Index (Memories Bytes Scalar Json) (MemoryOperation Scalar Json)
      MemoryOperation.Answer (Returned Scalar Json))
    (move : Index × Surroundings Scalar) : Prop where
  free : ∀ encoded, before.Asks move.1 (.lock encoded) → encoded ∉ before.store.locked
  served : ∀ operation, before.Asks move.1 operation → operation.IsShort → move.2.failure = none

/-- A plain write meets nothing newer, and comes between the read and the write of no older
replay. -/
structure Orderly (serde : EntrySerde Bytes Scalar Json) (key : MemoryKey)
    (calls : Index → Call Scalar Json)
    (before : Session Index (Memories Bytes Scalar Json) (MemoryOperation Scalar Json)
      MemoryOperation.Answer (Returned Scalar Json))
    (move : Index × Surroundings Scalar) : Prop extends Answered before move where
  newest : ∀ entry, before.Asks move.1 (.writeShort entry) →
    (progress calls before move.1).stage = .writing →
      storedVersion serde key before.store ≤ entry.version ∧
        ∀ other, (progress calls before other).stage = .cleared →
          entry.version ≤ (progress calls before other).version

variable [Zero Scalar] {serde : EntrySerde Bytes Scalar Json} {key : MemoryKey}
  {config : MemoryConfig Scalar} {render : Json → String} {calls : Index → Call Scalar Json}
  {first : Memories Bytes Scalar Json}
  {source middle target : Session Index (Memories Bytes Scalar Json) (MemoryOperation Scalar Json)
    MemoryOperation.Answer (Returned Scalar Json)}
  {moves laterMoves : List (Index × Surroundings Scalar)}

/-- Every call is on its way to its final stage. -/
abbrev Proceeding (calls : Index → Call Scalar Json)
    (session : Session Index (Memories Bytes Scalar Json) (MemoryOperation Scalar Json)
      MemoryOperation.Answer (Returned Scalar Json)) : Prop :=
  session.Underway reconciliation (fun _ _ => True) (fun _ later => ∃ well, later.stage = .finished well)
    fun index => (calls index).phase

omit [Zero Scalar] in
theorem proceeding_concurrently
    (explicit : ∀ index, ∃ version, (calls index).request.version = some version) :
    Proceeding calls (concurrently config render calls first) := by
  intro index
  obtain ⟨version, brought⟩ := explicit index
  refine (follows_program brought).weaken ?_
  rintro result later ⟨well, rfl⟩
  exact ⟨well, rfl⟩

omit [LE Scalar] [DecidableLE Scalar] in
theorem reconciled_of_run
    (keyed : ∀ index, (calls index).request.key = key)
    (run : Run (servesWhere (execute serde) (Orderly serde key calls)) source moves target)
    (proceeding : Proceeding calls source)
    (reconciled : Reconciled serde key calls first (progress calls source) source.store) :
    Reconciled serde key calls first (progress calls target) target.store ∧
      storedVersion serde key source.store ≤ storedVersion serde key target.store := by
  let holds (memories : Memories Bytes Scalar Json) (phases : Index → Phase Scalar Json)
      (_ : List (Occurrence Index (MemoryOperation Scalar Json) MemoryOperation.Answer)) : Prop :=
    Reconciled serde key calls first phases memories ∧
      storedVersion serde key source.store ≤ storedVersion serde key memories
  have initially : holds source.store (progress calls source) source.log := ⟨reconciled, le_rfl⟩
  refine Session.Underway.invariant (fun _ _ _ => trivial) ?_ run proceeding initially
  rintro before index surroundings operation resume - call orderly permitted ⟨held, grown⟩ _ _
  have asks : before.Asks index operation := ⟨resume, call⟩
  obtain ⟨kept, grows⟩ := held.step keyed permitted (fun encoded same =>
    orderly.free encoded (same ▸ asks)) (orderly.served operation asks) fun entry same =>
      orderly.newest entry (same ▸ asks)
  exact ⟨kept, grown.trans grows⟩

/-- The version that is stored has not decreased, and if all calls have finished, the stored entry
is the first one or that of a call, and none of a call is newer. -/
structure LastWriterWins (serde : EntrySerde Bytes Scalar Json) (key : MemoryKey)
    (calls : Index → Call Scalar Json) (first : Memories Bytes Scalar Json)
    (middle target : Session Index (Memories Bytes Scalar Json) (MemoryOperation Scalar Json)
      MemoryOperation.Answer (Returned Scalar Json)) : Prop where
  grows : storedVersion serde key middle.store ≤ storedVersion serde key target.store
  newest : target.Finished → target.log ≠ [] →
    ∃ entry, target.store.shortTerm.read serde key = .ok (some entry) ∧
      (first.shortTerm.read serde key = .ok (some entry) ∨
        ∃ index, (∃ result, target.calls index = .done result) ∧
          (calls index).request.Makes entry) ∧
      ∀ event ∈ target.log, ∀ version,
        (calls event.index).request.version = some version → version ≤ entry.version

/-- As long as every move is orderly, the last writer wins. -/
theorem lastWriterWins_of_run
    (keyed : ∀ index, (calls index).request.key = key)
    (explicit : ∀ index, ∃ version, (calls index).request.version = some version)
    (readable : ∃ found, first.shortTerm.read serde key = .ok found)
    (run : Run (servesWhere (execute serde) (Orderly serde key calls))
      (concurrently config render calls first) moves middle)
    (onward : Run (servesWhere (execute serde) (Orderly serde key calls))
      middle laterMoves target) :
    LastWriterWins serde key calls first middle target := by
  have begun : Reconciled serde key calls first
      (progress calls (concurrently config render calls first)) first := by
    have initial (index : Index) :
        progress calls (concurrently config render calls first) index = (calls index).phase := rfl
    refine ⟨fun index => ?_, readable, fun index _ locks => ((calls index).not_locks_phase locks).elim,
      fun index locks => ((calls index).not_locks_phase locks).elim, fun index stage => ?_,
      fun index stage => ((calls index).not_through_phase stage).elim, fun index => ?_,
      fun _ read => .inl read⟩
    · rw [initial]
      cases calls index <;> rfl
    · exact ((calls index).not_locks_phase (by rw [← initial, stage]; trivial)).elim
    · rw [initial]
      cases calls index <;> simp [Call.phase]
  have proceeding : Proceeding calls (concurrently config render calls first) :=
    proceeding_concurrently explicit
  obtain ⟨held, -⟩ := reconciled_of_run keyed run proceeding begun
  have halfway := proceeding.run (fun _ _ _ => trivial) run
  obtain ⟨last, grown⟩ := reconciled_of_run keyed onward halfway held
  refine ⟨grown, fun finished served => ?_⟩
  obtain ⟨event, member⟩ := List.exists_mem_of_ne_nil _ served
  have ended := halfway.run (fun _ _ _ => trivial) onward
  have through {event : Occurrence Index (MemoryOperation Scalar Json) MemoryOperation.Answer}
      (member : event ∈ target.log) : (progress calls target event.index).stage.Through := by
    rcases finished event.index with unserved | ⟨result, returned⟩
    · exact (unserved event member rfl).elim
    · obtain ⟨well, stage⟩ := ended.final_of_done returned
      cases well with
      | true => exact .inr stage
      | false => exact ((last.well event.index).2 stage).elim
  have newest {event : Occurrence Index (MemoryOperation Scalar Json) MemoryOperation.Answer}
      (member : event ∈ target.log) {version : Nat}
      (brought : (calls event.index).request.version = some version) :
      (version : WithBot Nat) ≤ storedVersion serde key target.store := by
    have above := last.through event.index (through member)
    rwa [Phase.version, last.own, brought, Option.getD_some] at above
  obtain ⟨found, read⟩ := last.readable
  cases found with
  | none =>
    obtain ⟨version, brought⟩ := explicit event.index
    have above := newest member brought
    simp only [storedVersion, read, le_bot_iff] at above
    exact absurd above WithBot.coe_ne_bot
  | some entry =>
    refine ⟨entry, read, ?_, fun event member version brought => ?_⟩
    · rcases last.origin entry read with old | ⟨index, done, makes⟩
      · exact .inl old
      · refine .inr ⟨index, ?_, last.own index ▸ makes⟩
        rcases finished index with unserved | returned
        · rw [progress, Protocol.phase_of_unserved _ unserved] at done
          exact ((calls index).not_through_phase done).elim
        · exact returned
    · have above := newest member brought
      rw [storedVersion_of_read read] at above
      exact WithBot.coe_le_coe.mp above

end Runs

/-! ## A plain write and a replay -/

def sampleWrite (text : String) (version : Nat) : MemoryWriteRequest Nat Unit where
  key := .global "shared"
  content := .text text
  metadata := { sourceAgent := "worker", importance := 5, tags := [], embedding := none }
  version := some version

/-- A plain write and a replay, of the given versions. -/
def sampleCalls (plain replayed : Nat) : Bool → Call Nat Unit
  | false => .write (sampleWrite "plain" plain)
  | true => .replay (sampleWrite "replayed" replayed)

def sampleMemories : Memories (StoredEntry Nat Unit) Nat Unit := ⟨.fallback [], [], []⟩

def sampleSurroundings : Surroundings Nat := ⟨0, "id", .ok [], none⟩

def sampleSession (plain replayed : Nat) :
    Session Bool (Memories (StoredEntry Nat Unit) Nat Unit) (MemoryOperation Nat Unit)
      MemoryOperation.Answer (Returned Nat Unit) :=
  concurrently ⟨7⟩ (fun _ => "") (sampleCalls plain replayed) sampleMemories

/-- Whether the next operation of a call may be served. -/
def answers (before : Session Bool (Memories (StoredEntry Nat Unit) Nat Unit)
    (MemoryOperation Nat Unit) MemoryOperation.Answer (Returned Nat Unit))
    (move : Bool × Surroundings Nat) : Bool :=
  move.2.failure.isNone &&
    match before.calls move.1 with
    | .ask (.lock encoded) _ => !before.store.locked.contains encoded
    | _ => true

theorem answered_of_answers {move : Bool × Surroundings Nat} (answered : answers before move) :
    Answered before move := by
  obtain ⟨works, unlocked⟩ := (Bool.and_eq_true _ _).mp answered
  refine ⟨?_, fun _ _ _ => Option.isNone_iff_eq_none.mp works⟩
  rintro encoded ⟨resume, call⟩
  simpa [call] using unlocked

/-- Whether a plain write that is next comes in time. -/
def ordered (calls : Bool → Call Nat Unit)
    (before : Session Bool (Memories (StoredEntry Nat Unit) Nat Unit)
      (MemoryOperation Nat Unit) MemoryOperation.Answer (Returned Nat Unit))
    (move : Bool × Surroundings Nat) : Bool :=
  answers before move &&
    match before.calls move.1 with
    | .ask (.writeShort entry) _ =>
      (progress calls before move.1).stage ≠ .writing ||
        (storedVersion plainEntrySerde (.global "shared") before.store ≤ entry.version &&
          [false, true].all fun other => (progress calls before other).stage ≠ .cleared ||
            decide (entry.version ≤ (progress calls before other).version))
    | _ => true

theorem orderly_of_ordered {calls : Bool → Call Nat Unit} {move : Bool × Surroundings Nat}
    (passed : ordered calls before move) :
    Orderly plainEntrySerde (.global "shared") calls before move := by
  obtain ⟨answered, inTime⟩ := (Bool.and_eq_true _ _).mp passed
  refine ⟨answered_of_answers answered, ?_⟩
  rintro entry ⟨resume, call⟩ writes
  simp only [call, writes] at inTime
  obtain ⟨newest, later⟩ : storedVersion plainEntrySerde (.global "shared") before.store ≤
      entry.version ∧ _ := by simpa using inTime
  refine ⟨newest, fun other cleared => ?_⟩
  cases other <;> simp_all

/-- The moves in which the calls are served in the given order. -/
def inTurn (order : List Bool) : List (Bool × Surroundings Nat) :=
  order.map fun index => (index, sampleSurroundings)

/-- A plain write and then a replay of a newer entry. -/
theorem lastWriterWins_of_run_inTurn :
    LastWriterWins plainEntrySerde (.global "shared") (sampleCalls 1 2) sampleMemories
      ((inTurn [false, false, false]).foldl (Session.serve (execute plainEntrySerde))
        (sampleSession 1 2))
      ((inTurn [true, true, true, true, true, true]).foldl
        (Session.serve (execute plainEntrySerde))
        ((inTurn [false, false, false]).foldl (Session.serve (execute plainEntrySerde))
          (sampleSession 1 2))) :=
  lastWriterWins_of_run (fun index => by cases index <;> rfl)
    (fun index => by cases index <;> exact ⟨_, rfl⟩) ⟨none, rfl⟩
    (run_servesWhere (fun _ _ => orderly_of_ordered) (by decide +kernel))
    (run_servesWhere (fun _ _ => orderly_of_ordered) (by decide +kernel))

/-- A newer plain write comes between the read and the write of a replay, and is overwritten. -/
theorem lastWriterWins_fails_between :
    ∃ middle target, Run (servesWhere (execute plainEntrySerde) Answered)
        (sampleSession 2 1) (inTurn [true, true, false, false, false]) middle ∧
      Run (servesWhere (execute plainEntrySerde) Answered) middle
        (inTurn [true, true, true, true]) target ∧
      (∀ index, ∃ result, target.calls index = .done result) ∧
      storedVersion plainEntrySerde (.global "shared") middle.store = (2 : Nat) ∧
      storedVersion plainEntrySerde (.global "shared") target.store = (1 : Nat) := by
  refine ⟨_, _, run_servesWhere (fun _ _ => answered_of_answers) (by decide +kernel),
    run_servesWhere (fun _ _ => answered_of_answers) (by decide +kernel), ?_, ?_, ?_⟩
  · intro index
    cases index <;> exact ⟨_, rfl⟩
  · rfl
  · rfl

end UltimateCoders.Memory
