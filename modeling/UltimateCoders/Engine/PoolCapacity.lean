import Mathlib.Tactic.Abel
import UltimateCoders.Engine.SandboxPool
import UltimateCoders.Transition.Protocol
import UltimateCoders.Transition.Weights

/-! # The capacity of the pool

A sandbox that is on its way from the idle ones to the active ones, or back, is in neither of
the lists that an acquirer counts, and the upkeep of the pool counts the idle ones only. The
pool stays within its capacity as long as whatever adds a sandbox finds room for it among all
that are alive. No sandbox ever comes into two hands.
-/

namespace UltimateCoders.Engine

open Transition SandboxPool PoolOperation Function

inductive PoolStage where
  | begun
  /-- It has taken a sandbox from the idle ones, and not added it to the active ones. -/
  | popped (handle : SandboxHandle)
  /-- There was no idle sandbox. -/
  | missed
  /-- It has counted the active sandboxes under their lock. -/
  | counting (active : Nat)
  /-- It has found room, and is to create a sandbox. -/
  | creating
  /-- It has found no room. -/
  | refusing
  | holding (handle : SandboxHandle)
  /-- It has taken its sandbox from the active ones, and not offered it to the idle ones. -/
  | releasing (handle : SandboxHandle)
  /-- It is to create so many idle sandboxes. -/
  | warming (missing : Nat)
  | ended
  deriving DecidableEq

structure PoolPhase where
  call : PoolCall
  stage : PoolStage

namespace PoolStage

def next (sizes : PoolSizes) : PoolStage → (operation : PoolOperation) →
    operation.Answer → PoolStage
  | begun, .popIdle, some handle => popped handle
  | begun, .popIdle, none => missed
  | begun, .lockIdle, current => warming (sizes.warmPoolSize - current)
  | popped _, .insertActive handle, _ => holding handle
  | missed, .lockActive, active => counting active
  | counting active, .countIdle, idle =>
    if active + idle < sizes.maxPoolSize then creating else refusing
  | creating, .createActive, .ok handle => holding handle
  | holding handle, .removeActive _, _ => releasing handle
  | warming (missing + 1), .createIdle, .ok _ => warming missing
  | _, _, _ => ended

/-- A call that has a sandbox on the way to the active ones. -/
def popping : PoolStage → Nat
  | popped _ => 1
  | _ => 0

/-- A call that is to create an active sandbox. -/
def reserving : PoolStage → Nat
  | creating => 1
  | _ => 0

/-- The sandbox of a call, in neither list. -/
def inTransit : PoolStage → Multiset String
  | popped handle | releasing handle => {handle.id}
  | _ => 0

/-- The sandbox that a call works with. -/
def held : PoolStage → Multiset String
  | holding handle => {handle.id}
  | _ => 0

/-- The call has this sandbox in hand. -/
def Possesses (stage : PoolStage) (id : String) : Prop :=
  id ∈ stage.held + stage.inTransit

end PoolStage

namespace PoolPhase

/-- The next step of a call. -/
def Asks (sizes : PoolSizes) (phase : PoolPhase) (operation : PoolOperation) : Prop :=
  match phase.stage with
  | .begun => operation = match phase.call with
      | .lease _ => .popIdle
      | .warmUp => .lockIdle
      | .drain => .clearIdle
  | .popped handle => operation = .insertActive { handle with status := .busy }
  | .missed => operation = .lockActive
  | .counting _ => operation = .countIdle
  | .creating => operation = .createActive
  | .refusing => operation = .unlockActive
  | .holding handle => operation = .removeActive handle.id
  | .releasing handle => operation = .keepIdle handle sizes.warmPoolSize
  | .warming 0 => operation = .unlockIdle
  | .warming (_ + 1) => operation = .createIdle
  | .ended => False

/-- A call that has leased a sandbox and does not release it has it in hand. -/
def Ends (answer : PoolAnswer) (phase : PoolPhase) : Prop :=
  ∀ handle, answer = .leased (.ok handle) → phase.stage = .holding handle ∨ phase.call = .lease true

end PoolPhase

def pooling (sizes : PoolSizes) : Protocol PoolOperation Answer PoolPhase where
  permits := PoolPhase.Asks sizes
  next phase operation answer := { phase with stage := phase.stage.next sizes operation answer }

/-- The phase in which `acquire` returns. -/
def PoolCall.EndsAcquire (call : PoolCall) (result : Except EngineError SandboxHandle)
    (phase : PoolPhase) : Prop :=
  match result with
  | .ok handle => phase = ⟨call, .holding handle⟩
  | .error _ => phase = ⟨call, .ended⟩

theorem follows_acquire (sizes : PoolSizes) (releases : Bool) :
    (acquire sizes).Follows (pooling sizes) (fun _ _ => True)
      (PoolCall.lease releases).EndsAcquire ⟨.lease releases, .begun⟩ := by
  refine ⟨rfl, fun found _ => ?_⟩
  cases found with
  | some handle => exact ⟨rfl, fun _ _ => rfl⟩
  | none =>
    refine ⟨rfl, fun active _ => ⟨rfl, fun idle _ => ?_⟩⟩
    change Program.Follows _ _ _ (if active + idle < sizes.maxPoolSize then _ else _)
      (PoolPhase.mk (.lease releases)
        (if active + idle < sizes.maxPoolSize then .creating else .refusing))
    by_cases room : active + idle < sizes.maxPoolSize
    · rw [if_pos room, if_pos room]
      refine ⟨rfl, fun created _ => ?_⟩
      cases created <;> exact rfl
    · rw [if_neg room, if_neg room]
      exact ⟨rfl, fun _ _ => rfl⟩

theorem follows_createMissing (sizes : PoolSizes) (call : PoolCall) (missing : Nat) :
    (createMissing missing).Follows (pooling sizes) (fun _ _ => True)
      (fun _ _ => True) ⟨call, .warming missing⟩ := by
  induction missing with
  | zero => exact ⟨rfl, fun _ _ => trivial⟩
  | succ missing ih =>
    refine ⟨rfl, fun created _ => ?_⟩
    cases created with
    | error error => exact trivial
    | ok handle => exact ih

theorem follows_poolCall (sizes : PoolSizes) (call : PoolCall) :
    (call.program sizes).Follows (pooling sizes) (fun _ _ => True) PoolPhase.Ends
      ⟨call, .begun⟩ := by
  cases call with
  | lease releases =>
    refine (follows_acquire sizes releases).seq fun result phase ended => ?_
    cases result with
    | error error => exact fun _ => nofun
    | ok handle =>
      obtain rfl : phase = ⟨.lease releases, .holding handle⟩ := ended
      cases releases with
      | false =>
        intro other same
        cases same
        exact .inl rfl
      | true => exact ⟨rfl, fun _ _ => ⟨rfl, fun _ _ _ _ => .inr rfl⟩⟩
  | warmUp =>
    refine ⟨rfl, fun current _ => ?_⟩
    refine (follows_createMissing sizes .warmUp (sizes.warmPoolSize - current)).seq
      fun result phase _ => ?_
    exact fun _ => nofun
  | drain => exact ⟨rfl, fun _ _ _ => nofun⟩

/-- A step of a call on the pool. -/
abbrev PoolEvent (Index : Type) := Occurrence Index PoolOperation Answer

/-- The id of the sandbox that a step has created. -/
def createdId (operation : PoolOperation) (answer : operation.Answer) : Option String :=
  match operation, answer with
  | .createActive, .ok handle | .createIdle, .ok handle => some handle.id
  | _, _ => none

/-- The ids that the factory has given so far. -/
def createdIds {Index : Type} (log : List (PoolEvent Index)) : List String :=
  log.filterMap fun event => createdId event.operation event.answer

theorem createdIds_snoc {Index : Type} {log : List (PoolEvent Index)} {event : PoolEvent Index} :
    createdIds (log ++ [event]) =
      createdIds log ++ (createdId event.operation event.answer).toList := by
  rw [createdIds, List.filterMap_append]
  cases created : createdId event.operation event.answer <;>
    simp [createdIds, created]

namespace SandboxPool

def idleIds (pool : SandboxPool) : Multiset String := pool.idle.map SandboxHandle.id

def activeIds (pool : SandboxPool) : Multiset String := pool.active.map Prod.fst

variable (idle : List SandboxHandle) (idleLocked : Bool) (active : List (String × SandboxHandle))
  (activeLocked : Bool) (handle : SandboxHandle)

theorem idleIds_cons : idleIds ⟨handle :: idle, idleLocked, active, activeLocked⟩ =
    {handle.id} + idleIds ⟨idle, idleLocked, active, activeLocked⟩ := by
  rw [Multiset.singleton_add]
  rfl

theorem activeIds_snoc (id : String) :
    activeIds ⟨idle, idleLocked, active ++ [(id, handle)], activeLocked⟩ =
      activeIds ⟨idle, idleLocked, active, activeLocked⟩ + {id} := by
  simp [activeIds, ← Multiset.coe_add]

end SandboxPool

theorem filter_ne_add_singleton {ids : List String} {id : String}
    (nodup : (ids : Multiset String).Nodup) (member : id ∈ ids) :
    ((ids.filter (· ≠ id) : List String) : Multiset String) + {id} = ids := by
  have single : (ids : Multiset String).filter (· = id) = {id} := by
    rw [Multiset.filter_eq', Multiset.count_eq_one_of_mem nodup (Multiset.mem_coe.mpr member),
      Multiset.replicate_one]
  rw [← Multiset.filter_coe, ← single, add_comm]
  exact Multiset.filter_add_not (· = id) _

section Holds

variable {Index : Type} [Fintype Index] {sizes : PoolSizes} {pool later : SandboxPool}
  {phases : Index → PoolPhase} {log : List (PoolEvent Index)} {index : Index}
  {stage : PoolStage}

/-- The idle and active sandboxes, and those on the way from the idle to the active ones. -/
def live (pool : SandboxPool) (phases : Index → PoolPhase) : Nat :=
  pool.idle.length + pool.active.length + weigh (fun phase => phase.stage.popping) phases

/-- The live sandboxes, and those that are to be created for an acquirer that has found room. -/
def taken (pool : SandboxPool) (phases : Index → PoolPhase) : Nat :=
  live pool phases + weigh (fun phase => phase.stage.reserving) phases

/-- The next step adds a sandbox, or claims the place for one, only if there is room for it among
the live ones and those that are to be created. -/
def FindsRoom (sizes : PoolSizes) (pool : SandboxPool) (phases : Index → PoolPhase)
    (index : Index) (created : Except EngineError SandboxHandle) : Prop :=
  match (phases index).stage with
  | .counting active =>
    active + pool.idle.length < sizes.maxPoolSize → taken pool phases < sizes.maxPoolSize
  | .releasing _ =>
    pool.idle.length < sizes.warmPoolSize → taken pool phases < sizes.maxPoolSize
  | .warming (_ + 1) => created.isOk → taken pool phases < sizes.maxPoolSize
  | _ => True

/-- What a call and the lists count against the capacity. -/
def PoolStage.load (stage : PoolStage) (pool : SandboxPool) : Nat :=
  pool.idle.length + pool.active.length + stage.popping + stage.reserving

/-- A count does not grow, or it grows by one, and there is room if the pool is to be bounded. -/
abbrev HasRoom (bounded : Prop) (sizes : PoolSizes) (pool : SandboxPool)
    (phases : Index → PoolPhase) (before after : Nat) : Prop :=
  after ≤ before ∨ after ≤ before + 1 ∧ (bounded → taken pool phases < sizes.maxPoolSize)

/-- The pool is within its capacity, if this is `bounded`; every active sandbox is in the hands of a
call, and no sandbox is in two places. -/
structure PoolHolds (bounded : Prop) (sizes : PoolSizes) (pool : SandboxPool)
    (phases : Index → PoolPhase) (log : List (PoolEvent Index)) : Prop where
  within : bounded → taken pool phases ≤ sizes.maxPoolSize
  held : pool.activeIds = weigh (fun phase => phase.stage.held) phases
  apart : (pool.idleIds + pool.activeIds + weigh (fun phase => phase.stage.inTransit) phases).Nodup
  known : ∀ id ∈ pool.idleIds + pool.activeIds +
    weigh (fun phase => phase.stage.inTransit) phases, id ∈ createdIds log

namespace PoolHolds

variable {bounded : Prop}

theorem initially (bounded : Prop) (sizes : PoolSizes) (calls : Index → PoolCall) :
    PoolHolds bounded sizes .new (fun index => ⟨calls index, .begun⟩) [] := by
  have popping : weigh (fun phase : PoolPhase => phase.stage.popping)
      (fun index => ⟨calls index, .begun⟩) = 0 := weigh_eq_zero fun _ => rfl
  have reserving : weigh (fun phase : PoolPhase => phase.stage.reserving)
      (fun index => ⟨calls index, .begun⟩) = 0 := weigh_eq_zero fun _ => rfl
  have held : weigh (fun phase : PoolPhase => phase.stage.held)
      (fun index => ⟨calls index, .begun⟩) = 0 := weigh_eq_zero fun _ => rfl
  have inTransit : weigh (fun phase : PoolPhase => phase.stage.inTransit)
      (fun index => ⟨calls index, .begun⟩) = 0 := weigh_eq_zero fun _ => rfl
  have nothing : new.idleIds + new.activeIds = 0 := rfl
  refine ⟨?_, held.symm, ?_, ?_⟩
  · intro _
    rw [taken, live, popping, reserving]
    exact Nat.zero_le _
  · rw [nothing, inTransit]
    exact Multiset.nodup_zero
  · rw [nothing, inTransit]
    exact fun id member => absurd member (Multiset.notMem_zero id)

variable [DecidableEq Index] {operation : PoolOperation} {answer : operation.Answer}
  {call : PoolCall} {old : PoolStage}

section

variable (holds : PoolHolds bounded sizes pool phases log) (here : phases index = ⟨call, old⟩)

include holds here

/-- A step changes what is counted by what its call had in hand before and has after, and adds
at most a sandbox with a new id. -/
theorem move
    (room : HasRoom bounded sizes pool phases (old.load pool) (stage.load later))
    (held : later.activeIds + old.held = pool.activeIds + stage.held)
    (ids :
        later.idleIds + later.activeIds + stage.inTransit ≤ pool.idleIds + pool.activeIds +
          old.inTransit + ((createdId operation answer).toList : Multiset String))
    (fresh : ∀ id, createdId operation answer = some id → id ∉ createdIds log) :
    PoolHolds bounded sizes later (update phases index ⟨call, stage⟩)
      (log ++ [⟨index, operation, answer⟩]) := by
  have popping := weigh_update (fun phase : PoolPhase => phase.stage.popping) phases index
    ⟨call, stage⟩
  have reserving := weigh_update (fun phase : PoolPhase => phase.stage.reserving) phases index
    ⟨call, stage⟩
  have holding := weigh_update (fun phase : PoolPhase => phase.stage.held) phases index
    ⟨call, stage⟩
  have moving := weigh_update (fun phase : PoolPhase => phase.stage.inTransit) phases index
    ⟨call, stage⟩
  simp only [here] at popping reserving holding moving
  have most : later.idleIds + later.activeIds +
      weigh (fun phase => phase.stage.inTransit) (update phases index ⟨call, stage⟩) ≤
      pool.idleIds + pool.activeIds + weigh (fun phase => phase.stage.inTransit) phases +
        ((createdId operation answer).toList : Multiset String) := by
    rw [← add_le_add_iff_right old.inTransit, add_assoc, moving, ← add_assoc, add_right_comm]
    refine (add_le_add_left ids _).trans (le_of_eq ?_)
    abel
  have known : ∀ id, id ∈ pool.idleIds + pool.activeIds +
      weigh (fun phase => phase.stage.inTransit) phases →
      id ∉ ((createdId operation answer).toList : Multiset String) := by
    intro id member created
    exact fresh id (Option.mem_toList.mp (Multiset.mem_coe.mp created)) (holds.known id member)
  refine ⟨?_, ?_, ?_, ?_⟩
  · intro kept
    have bound := holds.within kept
    rcases room with less | ⟨more, left⟩
    · simp only [taken, live, PoolStage.load] at popping reserving bound less ⊢
      omega
    · have left := left kept
      simp only [taken, live, PoolStage.load] at popping reserving bound more left ⊢
      omega
  · rw [← add_right_cancel_iff, held, holds.held, ← holding]
  · refine Multiset.nodup_of_le most (Multiset.nodup_add.mpr ⟨holds.apart, ?_, ?_⟩)
    · rw [Multiset.coe_nodup]
      cases createdId operation answer <;> simp
    · exact Multiset.disjoint_left.mpr (known _)
  · intro id member
    rw [createdIds_snoc, List.mem_append]
    rcases Multiset.mem_add.mp (Multiset.mem_of_le most member) with old | new
    · exact .inl (holds.known id old)
    · exact .inr (Multiset.mem_coe.mp new)

theorem carry (nothing : createdId operation answer = none)
    (room : HasRoom bounded sizes pool phases (old.load pool) (stage.load later))
    (held : later.activeIds + old.held = pool.activeIds + stage.held)
    (ids :
        later.idleIds + later.activeIds + stage.inTransit ≤
          pool.idleIds + pool.activeIds + old.inTransit) :
    PoolHolds bounded sizes later (update phases index ⟨call, stage⟩)
      (log ++ [⟨index, operation, answer⟩]) :=
  holds.move here room held (ids.trans (Multiset.le_add_right _ _)) (by simp [nothing])

theorem still (nothing : createdId operation answer = none) (idle : later.idle = pool.idle)
    (active : later.active = pool.active) (popping : stage.popping = old.popping)
    (held : stage.held = old.held) (inTransit : stage.inTransit = old.inTransit)
    (room : HasRoom bounded sizes pool phases old.reserving stage.reserving) :
    PoolHolds bounded sizes later (update phases index ⟨call, stage⟩)
      (log ++ [⟨index, operation, answer⟩]) := by
  refine holds.carry here nothing ?_ ?_ ?_
  · simp only [PoolStage.load, idle, active, popping]
    exact room.imp (fun _ => by omega) fun ⟨_, left⟩ => ⟨by omega, left⟩
  · rw [activeIds, active, held]
    rfl
  · rw [idleIds, activeIds, idle, active, inTransit]
    exact le_rfl

theorem notMem_active {id : String} (mine : id ∈ old.inTransit) :
    id ∉ pool.active.map Prod.fst := by
  have part := le_weigh (fun phase : PoolPhase => phase.stage.inTransit) phases index
  rw [here] at part
  intro member
  exact Multiset.disjoint_left.mp (Multiset.nodup_add.mp holds.apart).2.2
    (Multiset.mem_add.mpr (.inr (Multiset.mem_coe.mpr member)))
    (Multiset.mem_of_le part mine)

theorem mem_active {id : String} (mine : id ∈ old.held) : id ∈ pool.active.map Prod.fst := by
  have part := le_weigh (fun phase : PoolPhase => phase.stage.held) phases index
  rw [here, ← holds.held] at part
  exact Multiset.mem_coe.mp (Multiset.mem_of_le part mine)

end

omit [DecidableEq Index] in
theorem nodup_active (holds : PoolHolds bounded sizes pool phases log) : pool.activeIds.Nodup :=
  (Multiset.nodup_add.mp (Multiset.nodup_add.mp holds.apart).1).2.1

/-- What holds after a step of a call. -/
abbrev After (bounded : Prop) (sizes : PoolSizes) (pool : SandboxPool) (phases : Index → PoolPhase)
    (log : List (PoolEvent Index)) (index : Index) (operation : PoolOperation)
    (created : Except EngineError SandboxHandle) : Prop :=
  PoolHolds bounded sizes (operation.execute created pool).2
    (update phases index ((pooling sizes).next (phases index) operation
      (operation.execute created pool).1))
    (log ++ [⟨index, operation, (operation.execute created pool).1⟩])

section Operations

variable (holds : PoolHolds bounded sizes pool phases log) {releases : Bool}
  {handle : SandboxHandle} {created : Except EngineError SandboxHandle}

include holds

theorem popIdle (here : phases index = ⟨.lease releases, .begun⟩) :
    After bounded sizes pool phases log index .popIdle created := by
  obtain ⟨idle, idleLocked, active, activeLocked⟩ := pool
  unfold After
  rw [here]
  cases idle with
  | nil => exact holds.still here rfl rfl rfl rfl rfl rfl (.inl le_rfl)
  | cons handle rest =>
    change PoolHolds bounded sizes ⟨rest, idleLocked, active, activeLocked⟩
      (update phases index ⟨_, .popped handle⟩) _
    refine holds.carry here rfl (.inl ?_) rfl (le_of_eq ?_)
    · simp only [PoolStage.load, List.length_cons, PoolStage.popping, PoolStage.reserving]
      omega
    · simp only [idleIds_cons, activeIds, PoolStage.inTransit]
      abel

theorem clearIdle (here : phases index = ⟨.drain, .begun⟩) :
    After bounded sizes pool phases log index .clearIdle created := by
  obtain ⟨idle, idleLocked, active, activeLocked⟩ := pool
  unfold After
  rw [here]
  change PoolHolds bounded sizes ⟨[], idleLocked, active, activeLocked⟩
    (update phases index ⟨_, .ended⟩) _
  refine holds.carry here rfl (.inl ?_) rfl ?_
  · simp [PoolStage.load, PoolStage.popping, PoolStage.reserving]
  · exact add_le_add_left (add_le_add_left (Multiset.zero_le _) _) _

theorem insertActive (here : phases index = ⟨call, .popped handle⟩) :
    After bounded sizes pool phases log index (.insertActive { handle with status := .busy })
      created := by
  obtain ⟨idle, idleLocked, active, activeLocked⟩ := pool
  have absent := holds.notMem_active here (Multiset.mem_singleton_self handle.id)
  unfold After
  rw [here]
  simp only [execute, Search.overwrite_of_notMem absent]
  change PoolHolds bounded sizes _ (update phases index ⟨call, .holding _⟩) _
  refine holds.carry here rfl (.inl ?_) ?_ (le_of_eq ?_)
  · simp [PoolStage.load, PoolStage.popping, PoolStage.reserving, add_assoc]
  · simp only [activeIds_snoc, PoolStage.held, add_zero]
  · simp only [activeIds_snoc, PoolStage.inTransit, add_zero, ← add_assoc]
    rfl

theorem countIdle {counted : Nat} (here : phases index = ⟨call, .counting counted⟩)
    (finds : bounded → counted + pool.idle.length < sizes.maxPoolSize →
      taken pool phases < sizes.maxPoolSize) :
    After bounded sizes pool phases log index .countIdle created := by
  unfold After
  rw [here]
  change PoolHolds bounded sizes _ (update phases index ⟨call,
    if counted + pool.idle.length < sizes.maxPoolSize then .creating else .refusing⟩) _
  split_ifs with room
  · exact holds.still here rfl rfl rfl rfl rfl rfl (.inr ⟨le_rfl, fun kept => finds kept room⟩)
  · exact holds.still here rfl rfl rfl rfl rfl rfl (.inl le_rfl)

theorem createActive (here : phases index = ⟨call, .creating⟩)
    (fresh : ∀ handle, created = .ok handle → handle.id ∉ createdIds log) :
    After bounded sizes pool phases log index .createActive created := by
  obtain ⟨idle, idleLocked, active, activeLocked⟩ := pool
  unfold After
  rw [here]
  cases created with
  | error error => exact holds.still here rfl rfl rfl rfl rfl rfl (.inl (Nat.zero_le _))
  | ok handle =>
    have new := fresh handle rfl
    have absent : handle.id ∉ active.map Prod.fst := fun member =>
      new (holds.known _ (by simp [activeIds, member]))
    simp only [execute, Search.overwrite_of_notMem absent]
    change PoolHolds bounded sizes _ (update phases index ⟨call, .holding _⟩) _
    refine holds.move here (.inl ?_) ?_ (le_of_eq ?_) ?_
    · simp [PoolStage.load, PoolStage.popping, PoolStage.reserving, add_assoc]
    · simp only [activeIds_snoc, PoolStage.held, add_zero]
      rfl
    · simp only [activeIds_snoc, PoolStage.inTransit, add_zero, ← add_assoc]
      rfl
    · exact fun id same => Option.some.inj same ▸ new

theorem removeActive (here : phases index = ⟨call, .holding handle⟩) :
    After bounded sizes pool phases log index (.removeActive handle.id) created := by
  obtain ⟨idle, idleLocked, active, activeLocked⟩ := pool
  have mine := holds.mem_active here (Multiset.mem_singleton_self handle.id)
  have left : (activeIds
      ⟨idle, idleLocked, Search.without handle.id active, activeLocked⟩) + {handle.id} =
      activeIds ⟨idle, idleLocked, active, activeLocked⟩ := by
    rw [activeIds, Search.map_without]
    exact filter_ne_add_singleton holds.nodup_active mine
  unfold After
  rw [here]
  change PoolHolds bounded sizes ⟨idle, idleLocked, Search.without handle.id active, activeLocked⟩
    (update phases index ⟨call, .releasing handle⟩) _
  refine holds.carry here rfl (.inl ?_) ?_ (le_of_eq ?_)
  · have fewer : (Search.without handle.id active).length ≤ active.length :=
      List.length_filter_le _ _
    simpa [PoolStage.load, PoolStage.popping, PoolStage.reserving] using fewer
  · simpa [PoolStage.held] using left
  · rw [add_assoc, PoolStage.inTransit, left]
    simp [idleIds, PoolStage.inTransit]

theorem keepIdle (here : phases index = ⟨call, .releasing handle⟩)
    (finds : bounded → pool.idle.length < sizes.warmPoolSize →
      taken pool phases < sizes.maxPoolSize) :
    After bounded sizes pool phases log index (.keepIdle handle sizes.warmPoolSize) created := by
  obtain ⟨idle, idleLocked, active, activeLocked⟩ := pool
  unfold After
  rw [here]
  simp only [execute]
  change PoolHolds bounded sizes _ (update phases index ⟨call, .ended⟩) _
  split_ifs with room
  · refine holds.carry here rfl (.inr ⟨?_, fun kept => finds kept room⟩) rfl (le_of_eq ?_)
    · simp only [PoolStage.load, List.length_cons, PoolStage.popping, PoolStage.reserving]
      omega
    · simp only [idleIds_cons, activeIds, PoolStage.inTransit]
      abel
  · refine holds.carry here rfl (.inl le_rfl) rfl ?_
    simp [PoolStage.inTransit]

theorem createIdle {missing : Nat} (here : phases index = ⟨call, .warming (missing + 1)⟩)
    (finds : bounded → created.isOk → taken pool phases < sizes.maxPoolSize)
    (fresh : ∀ handle, created = .ok handle → handle.id ∉ createdIds log) :
    After bounded sizes pool phases log index .createIdle created := by
  obtain ⟨idle, idleLocked, active, activeLocked⟩ := pool
  unfold After
  rw [here]
  cases created with
  | error error => exact holds.still here rfl rfl rfl rfl rfl rfl (.inl le_rfl)
  | ok handle =>
    have new := fresh handle rfl
    change PoolHolds bounded sizes ⟨handle :: idle, idleLocked, active, activeLocked⟩
      (update phases index ⟨call, .warming missing⟩)
      (log ++ [⟨index, .createIdle, .ok handle⟩])
    refine holds.move here (.inr ⟨?_, fun kept => finds kept rfl⟩) rfl (le_of_eq ?_) ?_
    · simp only [PoolStage.load, List.length_cons, PoolStage.popping, PoolStage.reserving]
      omega
    · simp only [idleIds_cons, activeIds, PoolStage.inTransit,
        createdId, Option.toList_some, Multiset.coe_singleton]
      abel
    · exact fun id same => Option.some.inj same ▸ new

/-- A step that finds room where it needs it, if the pool is to stay within its capacity. -/
theorem step (fresh : operation.creates → ∀ handle, created = .ok handle →
      handle.id ∉ createdIds log)
    (finds : bounded → FindsRoom sizes pool phases index created)
    (asks : (phases index).Asks sizes operation) :
    After bounded sizes pool phases log index operation created := by
  obtain ⟨call, stage, here⟩ : ∃ call stage, phases index = ⟨call, stage⟩ := ⟨_, _, rfl⟩
  unfold FindsRoom at finds
  rw [here] at asks finds
  have rests {operation : PoolOperation}
      (still : PoolHolds bounded sizes (operation.execute created pool).2
        (update phases index ((pooling sizes).next ⟨call, stage⟩ operation
          (operation.execute created pool).1))
        (log ++ [⟨index, operation, (operation.execute created pool).1⟩])) :
      After bounded sizes pool phases log index operation created := by
    rwa [After, here]
  cases stage with
  | begun =>
    cases call with
    | lease releases => exact asks ▸ holds.popIdle here
    | warmUp => exact asks ▸ rests (holds.still here rfl rfl rfl rfl rfl rfl (.inl le_rfl))
    | drain => exact asks ▸ holds.clearIdle here
  | popped handle => exact asks ▸ holds.insertActive here
  | missed | refusing =>
    exact asks ▸ rests (holds.still here rfl rfl rfl rfl rfl rfl (.inl le_rfl))
  | counting counted => exact asks ▸ holds.countIdle here finds
  | creating =>
    obtain rfl : operation = .createActive := asks
    exact holds.createActive here (fresh rfl)
  | holding handle => exact asks ▸ holds.removeActive here
  | releasing handle => exact asks ▸ holds.keepIdle here finds
  | warming missing =>
    cases missing with
    | zero => exact asks ▸ rests (holds.still here rfl rfl rfl rfl rfl rfl (.inl le_rfl))
    | succ missing =>
      obtain rfl : operation = .createIdle := asks
      exact holds.createIdle here finds (fresh rfl)
  | ended => exact absurd asks id

end Operations

theorem single (holds : PoolHolds bounded sizes pool phases log) {first second : Index}
    (apart : first ≠ second) {id : String} (mine : (phases first).stage.Possesses id) :
    ¬ (phases second).stage.Possesses id := by
  have hands := add_le_weigh
    (fun phase : PoolPhase => phase.stage.held + phase.stage.inTransit) phases apart
  rw [weigh_add, ← holds.held] at hands
  have nodup : (pool.activeIds + weigh (fun phase => phase.stage.inTransit) phases).Nodup := by
    refine Multiset.nodup_of_le ?_ holds.apart
    rw [add_assoc]
    exact Multiset.le_add_left _ _
  exact Multiset.disjoint_left.mp
    (Multiset.nodup_add.mp (Multiset.nodup_of_le hands nodup)).2.2 mine

omit [DecidableEq Index] in
theorem idle_apart (holds : PoolHolds bounded sizes pool phases log) :
    ∀ id ∈ pool.idleIds, id ∉ pool.activeIds := fun _ idle active =>
  Multiset.disjoint_left.mp
    (Multiset.nodup_add.mp (Multiset.nodup_add.mp holds.apart).1).2.2 idle active

end PoolHolds

end Holds

section Run

/-- Calls that share a pool. -/
abbrev PoolSession (Index : Type) :=
  Session Index SandboxPool PoolOperation Answer PoolAnswer

variable {Index : Type} (sizes : PoolSizes) (calls : Index → PoolCall)

def poolSession : PoolSession Index where
  store := .new
  calls index := (calls index).program sizes
  log := []

/-- The next step of a call, if there is one, meets the condition. -/
def NextStep (condition : PoolOperation → Prop) : PoolProgram PoolAnswer → Prop
  | .ask operation _ => condition operation
  | .done _ => True

/-- A step in its turn: it finds the lock free that it takes, and the factory gives new ids. -/
structure Scheduled (before : PoolSession Index)
    (move : Index × Except EngineError SandboxHandle) : Prop where
  free : NextStep (fun operation => operation.Free before.store) (before.calls move.1)
  fresh : NextStep (fun operation => operation.creates → ∀ handle, move.2 = .ok handle →
    handle.id ∉ createdIds before.log) (before.calls move.1)

variable [DecidableEq Index]

def PoolSession.phases (session : PoolSession Index) : Index → PoolPhase :=
  (pooling sizes).phase (fun index => ⟨calls index, .begun⟩) session.log

variable [Fintype Index]

/-- The pool is within its capacity, no two calls have one sandbox in hand, and no sandbox is
both idle and active. -/
structure PoolKept (session : PoolSession Index) : Prop where
  within : live session.store (session.phases sizes calls) ≤ sizes.maxPoolSize
  single : ∀ first second, first ≠ second → ∀ id,
    (session.phases sizes calls first).stage.Possesses id →
      ¬ (session.phases sizes calls second).stage.Possesses id
  apart : ∀ id ∈ session.store.idleIds, id ∉ session.store.activeIds

/-- A step in its turn that finds room where it needs it. -/
def KeepsRoom (before : PoolSession Index) (move : Index × Except EngineError SandboxHandle) :
    Prop :=
  Scheduled before move ∧ FindsRoom sizes before.store (before.phases sizes calls) move.1 move.2

variable {sizes calls} {session : PoolSession Index}

variable {moves : List (Index × Except EngineError SandboxHandle)}

/-- What holds after a run whose steps are taken in their turn, and find room if the pool is to stay
within its capacity. -/
theorem poolHolds_of_run {bounded : Prop}
    {condition : PoolSession Index → Index × Except EngineError SandboxHandle → Prop}
    (careful : ∀ before move, condition before move → Scheduled before move ∧ (bounded →
      FindsRoom sizes before.store (before.phases sizes calls) move.1 move.2))
    (run : Run (servesWhere execute condition) (poolSession sizes calls) moves session) :
    PoolHolds bounded sizes session.store (session.phases sizes calls) session.log := by
  let initial : Index → PoolPhase := fun index => ⟨calls index, .begun⟩
  have underway : (poolSession sizes calls).Underway (pooling sizes) (fun _ _ => True)
      PoolPhase.Ends initial := fun index => follows_poolCall sizes (calls index)
  have initially : PoolHolds bounded sizes (poolSession sizes calls).store initial [] :=
    .initially bounded sizes calls
  refine Session.Underway.invariant (fun _ _ _ => trivial) ?_ run underway initially
  intro before index created operation resume _ call taken permitted holds _ _
  obtain ⟨scheduled, finds⟩ := careful before (index, created) taken
  refine PoolHolds.step holds ?_ finds permitted
  have fresh := scheduled.fresh
  simp only [call] at fresh
  exact fresh

/-- In no run is a sandbox shared. -/
theorem unshared_of_run
    (run : Run (servesWhere execute Scheduled) (poolSession sizes calls) moves session) :
    (∀ first second, first ≠ second → ∀ id,
      (session.phases sizes calls first).stage.Possesses id →
        ¬ (session.phases sizes calls second).stage.Possesses id) ∧
    ∀ id ∈ session.store.idleIds, id ∉ session.store.activeIds := by
  have holds : PoolHolds False sizes session.store (session.phases sizes calls) session.log :=
    poolHolds_of_run (fun _ _ scheduled => ⟨scheduled, False.elim⟩) run
  exact ⟨fun first second different id mine => holds.single different mine, holds.idle_apart⟩

/-- In every run whose steps find room where they need it, the pool stays within its capacity and
shares no sandbox. -/
theorem poolKept_of_run
    (run :
        Run (servesWhere execute (KeepsRoom sizes calls)) (poolSession sizes calls) moves session) :
    PoolKept sizes calls session := by
  have holds : PoolHolds True sizes session.store (session.phases sizes calls) session.log :=
    poolHolds_of_run (fun _ _ careful => ⟨careful.1, fun _ => careful.2⟩) run
  exact ⟨(Nat.le_add_right _ _).trans (holds.within trivial),
    fun first second different id mine => holds.single different mine, holds.idle_apart⟩

end Run

section Check

variable {count : Nat} (sizes : PoolSizes) (calls : Fin count → PoolCall)

instance (program : PoolProgram PoolAnswer) (condition : PoolOperation → Prop)
    [DecidablePred condition] : Decidable (NextStep condition program) :=
  match program with
  | .ask operation _ => inferInstanceAs (Decidable (condition operation))
  | .done _ => .isTrue trivial

instance (created : Except EngineError SandboxHandle) (log : List (PoolEvent (Fin count))) :
    Decidable (∀ handle, created = .ok handle → handle.id ∉ createdIds log) :=
  match created with
  | .ok handle => decidable_of_iff (handle.id ∉ createdIds log)
      ⟨fun absent _ same => by cases same; exact absent, fun absent => absent handle rfl⟩
  | .error _ => .isTrue fun _ => nofun

instance (before : PoolSession (Fin count))
    (move : Fin count × Except EngineError SandboxHandle) : Decidable (Scheduled before move) :=
  decidable_of_iff
    (NextStep (fun operation => operation.Free before.store) (before.calls move.1) ∧
      NextStep (fun operation => operation.creates → ∀ handle, move.2 = .ok handle →
        handle.id ∉ createdIds before.log) (before.calls move.1))
    ⟨fun ⟨free, fresh⟩ => ⟨free, fresh⟩, fun ⟨free, fresh⟩ => ⟨free, fresh⟩⟩

instance (pool : SandboxPool) (phases : Fin count → PoolPhase) (index : Fin count)
    (created : Except EngineError SandboxHandle) :
    Decidable (FindsRoom sizes pool phases index created) := by
  unfold FindsRoom
  split <;> infer_instance

instance (before : PoolSession (Fin count))
    (move : Fin count × Except EngineError SandboxHandle) :
    Decidable (KeepsRoom sizes calls before move) :=
  inferInstanceAs (Decidable (_ ∧ _))

/-- The next step is seen to be in its turn and to find room. -/
def seenToFindRoom (before : PoolSession (Fin count))
    (move : Fin count × Except EngineError SandboxHandle) : Bool :=
  decide (KeepsRoom sizes calls before move)

theorem keepsRoom_of_seen {sizes : PoolSizes} {calls : Fin count → PoolCall}
    (before : PoolSession (Fin count)) (move : Fin count × Except EngineError SandboxHandle)
    (seen : seenToFindRoom sizes calls before move = true) : KeepsRoom sizes calls before move :=
  of_decide_eq_true seen

end Check

/-- The factory gives a sandbox. -/
def sandbox (id : String) : Except EngineError SandboxHandle := .ok ⟨id, .ready, 0⟩

def noSandbox : Except EngineError SandboxHandle := .error (.sandboxError "no factory")

def poolRun {count : Nat} (sizes : PoolSizes) (calls : Fin count → PoolCall)
    (moves : List (Fin count × Except EngineError SandboxHandle)) : PoolSession (Fin count) :=
  moves.foldl (Session.serve execute) (poolSession sizes calls)

/-- A pool is warmed up, a sandbox is leased and released while another is leased, and the idle
ones are given up. -/
def poolInUse : Fin 4 → PoolCall
  | 0 => .warmUp
  | 1 => .lease true
  | 2 => .lease false
  | 3 => .drain

def movesInUse : List (Fin 4 × Except EngineError SandboxHandle) :=
  [(0, noSandbox), (0, sandbox "a"), (0, noSandbox), (1, noSandbox), (2, noSandbox),
    (2, noSandbox), (2, noSandbox), (2, sandbox "b"), (1, noSandbox), (1, noSandbox),
    (1, noSandbox), (3, noSandbox)]

theorem poolKept_inUse :
    (poolRun ⟨2, 1⟩ poolInUse movesInUse).Finished ∧
      PoolKept ⟨2, 1⟩ poolInUse (poolRun ⟨2, 1⟩ poolInUse movesInUse) := by
  refine ⟨fun index => .inr ?_,
    poolKept_of_run (run_servesWhere keepsRoom_of_seen (by decide +kernel))⟩
  match index with
  | 0 | 1 | 2 | 3 => exact ⟨_, rfl⟩

/-- A sandbox is leased, and the pool is warmed up. -/
def leasedAndWarmed : Fin 2 → PoolCall
  | 0 => .lease false
  | 1 => .warmUp

def movesLeasedAndWarmed : List (Fin 2 × Except EngineError SandboxHandle) :=
  [(0, noSandbox), (0, noSandbox), (0, noSandbox), (0, sandbox "a"),
    (1, noSandbox), (1, sandbox "b"), (1, noSandbox)]

/-- Warming up does not count the active sandboxes. -/
theorem poolKept_fails_warmUp :
    Run (servesWhere execute Scheduled) (poolSession ⟨1, 1⟩ leasedAndWarmed)
        movesLeasedAndWarmed (poolRun ⟨1, 1⟩ leasedAndWarmed movesLeasedAndWarmed) ∧
      (poolRun ⟨1, 1⟩ leasedAndWarmed movesLeasedAndWarmed).Finished ∧
      ¬ PoolKept ⟨1, 1⟩ leasedAndWarmed
        (poolRun ⟨1, 1⟩ leasedAndWarmed movesLeasedAndWarmed) := by
  refine ⟨run_servesWhere (fun before move scheduled => of_decide_eq_true scheduled)
    (by decide +kernel), fun index => .inr ?_, fun kept => ?_⟩
  · match index with
    | 0 | 1 => exact ⟨_, rfl⟩
  · exact absurd kept.within (by decide +kernel)

end UltimateCoders.Engine
