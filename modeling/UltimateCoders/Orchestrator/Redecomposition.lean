import UltimateCoders.Orchestrator.OwnNodeOnly
import UltimateCoders.Orchestrator.Reconciliation

/-! # A new plan in place of the failed subtasks

The answer of the decomposer comes into the mirror as it is, and the mirror goes to the gateway. The
gateway keeps the failed nodes that the mirror has dropped.
-/

namespace UltimateCoders.Orchestrator

open Gateway (Fits SubtaskProto TaskStore protectedNode protectedTask protoStatusToTaskStatus)
open Gateway.TaskStore (findSubtask)
open Governance (Instant)
open Relation (ReflTransGen TransGen)

theorem acyclic_add_iff {Node : Type} {arc : Node → Node → Prop} {sources targets : List Node} :
    (∀ node, ¬ TransGen (fun first second =>
        arc first second ∨ (first ∈ sources ∧ second ∈ targets)) node node) ↔
      (∀ node, ¬ TransGen arc node node) ∧
        ∀ target ∈ targets, ∀ source ∈ sources, ¬ ReflTransGen arc target source := by
  constructor
  · intro acyclic
    refine ⟨fun node cycle => acyclic node (TransGen.mono (fun _ _ => .inl) _ _ cycle), ?_⟩
    intro target isTarget source isSource chain
    exact acyclic source (TransGen.head' (.inr ⟨isSource, isTarget⟩)
      (ReflTransGen.mono (fun _ _ => .inl) _ _ chain))
  · rintro ⟨acyclic, apart⟩ node cycle
    have split {first last : Node} (chain : TransGen (fun first second =>
        arc first second ∨ (first ∈ sources ∧ second ∈ targets)) first last) :
        TransGen arc first last ∨ (∃ source ∈ sources, ReflTransGen arc first source) ∧
          ∃ target ∈ targets, ReflTransGen arc target last := by
      induction chain with
      | single one =>
        rcases one with own | ⟨isSource, isTarget⟩
        · exact .inl (.single own)
        · exact .inr ⟨⟨_, isSource, .refl⟩, ⟨_, isTarget, .refl⟩⟩
      | tail _ one ih =>
        rcases one, ih with ⟨own | ⟨isSource, isTarget⟩, old | ⟨leaves, target, isOld, enters⟩⟩
        · exact .inl (old.tail own)
        · exact .inr ⟨leaves, target, isOld, enters.tail own⟩
        · exact .inr ⟨⟨_, isSource, old.to_reflTransGen⟩, ⟨_, isTarget, .refl⟩⟩
        · exact .inr ⟨leaves, ⟨_, isTarget, .refl⟩⟩
    rcases split cycle with old | ⟨⟨source, isSource, leaves⟩, target, isTarget, enters⟩
    · exact acyclic node old
    · exact apart target isTarget source isSource (enters.trans leaves)

/-- The subtask under the id depends on the other one. -/
def Needs (subtasks : List SubtaskResult) (dep id : String) : Prop :=
  ∃ st ∈ subtasks, st.id = id ∧ dep ∈ st.dependsOn

section Redecomposed

variable (state : TaskState) (details : SubtaskDef → SubtaskDetails) (before : OwnedTask)
  (newDefs : List SubtaskDef)

/-- The subtasks that stay. -/
def OwnedTask.keptSubtasks : List SubtaskResult :=
  before.loop.subtasks.filter (·.status ≠ .failed)

/-- A new subtask as the update call sends it: it has not been dispatched yet. -/
def newProto (definition : SubtaskDef) (st : SubtaskResult) : SubtaskProto :=
  st.toProto { details definition with dispatchRetryCount := none }

/-- The subtasks that the update call after a re-decomposition sends. -/
def redecomposedProtos (after : OwnedTask) : List SubtaskProto :=
  before.keptSubtasks.map (fun st => st.toProto (state.details st.id)) ++
    List.zipWith (newProto details) newDefs (after.loop.subtasks.drop before.keptSubtasks.length)

/-- What the gateway answers to the update call after a re-decomposition. -/
def upsertAccepted (store : TaskStore) (now : Instant) (after : OwnedTask) : Bool :=
  (store.updateTask state.id (taskStatusToWire after.status)
    ((redecomposedProtos state details before newDefs after).map (·.toSubtask state.id))
    state.description (state.projectId.getD "") now).1.isOk

/-- A valid plan, of which the completed part is the old one, and which the gateway accepts. -/
structure PlanRenewed (store : TaskStore) (now : Instant) (after : OwnedTask) : Prop where
  distinct : (after.loop.subtasks.map (·.id)).Nodup
  known : ∀ st ∈ after.loop.subtasks, ∀ dep ∈ st.dependsOn, dep ∈ after.loop.subtasks.map (·.id)
  acyclic : ∀ id, ¬ TransGen (Needs after.loop.subtasks) id id
  completed : after.having .completed = before.having .completed
  accepted : upsertAccepted state details before newDefs store now after = true

/-- The dependencies that the subtasks that stay have, and the ones that the answer declares. -/
def Declares (dep id : String) : Prop :=
  Needs before.keptSubtasks dep id ∨
    ∃ definition ∈ newDefs, definition.id = id ∧ dep ∈ definition.dependsOn

/-- The gateway has the subtasks of the mirror as the mirror has them. -/
def HoldsMirror (current : Gateway.Task) : Prop :=
  ∀ st ∈ before.loop.subtasks, ∃ node, findSubtask current.subtasks st.id = some node ∧
    node.status = st.status.wired ∧ node.dispatchRetryCount = (state.details st.id).attempt

/-- The answer is a plan of its own beside the subtasks that stay and all that the gateway has. -/
structure Renewable (current : Gateway.Task) : Prop where
  distinct : (before.keptSubtasks.map (·.id) ++ newDefs.map (·.id)).Nodup
  known : ∀ dep id, Declares before newDefs dep id →
    dep ∈ before.keptSubtasks.map (·.id) ++ newDefs.map (·.id)
  acyclic : ∀ id, ¬ TransGen (Declares before newDefs) id id
  /-- No completed subtask waits for a new one. -/
  apart : ∀ id ∈ newDefs.map (·.id), ∀ old ∈ (before.having .completed).map (·.id),
    ¬ ReflTransGen (Declares before newDefs) id old
  uncontrolled : protectedTask current.status = false
  fresh : ∀ definition ∈ newDefs, ∀ node, findSubtask current.subtasks definition.id = some node →
    node.dispatchRetryCount = 0 ∧ protectedNode node.status = false

end Redecomposed

variable {state : TaskState} {details : SubtaskDef → SubtaskDetails} {before after : OwnedTask}
  {newDefs : List SubtaskDef} {platform : Platform} {store : TaskStore} {current : Gateway.Task}
  {now : Instant} {st : SubtaskResult}

section

variable (taken : before.tryRedecompose platform (some newDefs) = some after)

include taken

theorem tryRedecompose_eq : ∃ fresh : SubtaskDef → SubtaskResult,
      after.loop.subtasks = before.keptSubtasks ++ newDefs.map fresh ∧
        after.status = .inProgress ∧ ∀ definition, (fresh definition).id = definition.id ∧
          (fresh definition).status = .pending ∧ (fresh definition).dependsOn =
            (before.having .completed).map (·.id) ++ definition.dependsOn := by
  unfold OwnedTask.tryRedecompose at taken
  split_ifs at taken
  rw [Option.map_some, Option.some.injEq] at taken
  subst taken
  exact ⟨_, rfl, rfl, fun _ => ⟨rfl, rfl, rfl⟩⟩

theorem having_completed_eq : after.having .completed = before.having .completed := by
  obtain ⟨fresh, subtasks, _, made⟩ := tryRedecompose_eq taken
  have pending : (newDefs.map fresh).filter (·.status = .completed) = [] := by
    simp [List.filter_eq_nil_iff, made]
  rw [OwnedTask.having, subtasks, List.filter_append, pending, List.append_nil,
    OwnedTask.keptSubtasks, List.filter_filter, OwnedTask.having]
  refine List.filter_congr fun st _ => ?_
  cases st.status <;> rfl

theorem ids_eq : after.loop.subtasks.map (·.id) =
      before.keptSubtasks.map (·.id) ++ newDefs.map (·.id) := by
  obtain ⟨fresh, subtasks, _, made⟩ := tryRedecompose_eq taken
  simp [subtasks, Function.comp_def, made]

theorem needs_iff {dep id : String} : Needs after.loop.subtasks dep id ↔
      Declares before newDefs dep id ∨
        (dep ∈ (before.having .completed).map (·.id) ∧ id ∈ newDefs.map (·.id)) := by
  obtain ⟨fresh, subtasks, _, made⟩ := tryRedecompose_eq taken
  simp only [Needs, Declares, subtasks, List.mem_append, or_and_right, exists_or,
    List.mem_map, exists_exists_and_eq_and, made]
  constructor
  · rintro (kept | ⟨definition, member, same, completed | declared⟩)
    · exact .inl (.inl kept)
    · exact .inr ⟨completed, definition, member, same⟩
    · exact .inl (.inr ⟨definition, member, same, declared⟩)
  · rintro ((kept | ⟨definition, member, same, declared⟩) | ⟨completed, definition, member, same⟩)
    · exact .inl kept
    · exact .inr ⟨definition, member, same, .inr declared⟩
    · exact .inr ⟨definition, member, same, .inl completed⟩

theorem known_redecomposed_iff :
    (∀ st ∈ after.loop.subtasks, ∀ dep ∈ st.dependsOn, dep ∈ after.loop.subtasks.map (·.id)) ↔
      ∀ dep id, Declares before newDefs dep id →
        dep ∈ before.keptSubtasks.map (·.id) ++ newDefs.map (·.id) := by
  have listed : (∀ st ∈ after.loop.subtasks, ∀ dep ∈ st.dependsOn,
      dep ∈ after.loop.subtasks.map (·.id)) ↔
        ∀ dep id, Needs after.loop.subtasks dep id → dep ∈ after.loop.subtasks.map (·.id) :=
    ⟨fun known dep id ⟨st, member, _, needed⟩ => known st member dep needed,
      fun known st member dep needed => known dep st.id ⟨st, member, rfl, needed⟩⟩
  rw [listed, ids_eq taken]
  simp only [needs_iff taken]
  refine ⟨fun known dep id declared => known dep id (.inl declared), fun known dep id needs => ?_⟩
  rcases needs with declared | ⟨completed, _⟩
  · exact known dep id declared
  · obtain ⟨st, member, rfl⟩ := List.mem_map.mp completed
    obtain ⟨listed, ended⟩ := List.mem_filter.mp member
    refine List.mem_append_left _ (List.mem_map_of_mem (List.mem_filter.mpr ⟨listed, ?_⟩))
    simp [of_decide_eq_true ended]

end

theorem HoldsMirror.fits (holds : HoldsMirror state before current)
    (member : st ∈ before.loop.subtasks) : Fits current (state.incoming st) := by
  obtain ⟨node, found, status, attempt⟩ := holds st member
  rw [Fits, incoming_id, found]
  exact ⟨attempt, fun _ => status.trans incoming_status.symm⟩

theorem fits_new_iff {definition : SubtaskDef} (same : st.id = definition.id)
    (pending : st.status = .pending) (uncontrolled : protectedTask current.status = false) :
    Fits current ((newProto details definition st).toSubtask state.id) ↔
      ∀ node, findSubtask current.subtasks definition.id = some node →
        node.dispatchRetryCount = 0 ∧ protectedNode node.status = false := by
  have id : ((newProto details definition st).toSubtask state.id).id = definition.id := same
  have status : ((newProto details definition st).toSubtask state.id).status = .pending := by
    unfold newProto Gateway.SubtaskProto.toSubtask SubtaskResult.toProto
    rw [pending]
    rfl
  have attempt : ((newProto details definition st).toSubtask state.id).dispatchRetryCount = 0 := rfl
  rw [Fits, id, status, attempt]
  cases findSubtask current.subtasks definition.id with
  | none => simpa using uncontrolled
  | some node => cases outcome : node.status <;> simp [protectedNode, outcome]

theorem upsertAccepted_iff (taken : before.tryRedecompose platform (some newDefs) = some after)
    (found : store.tasks.lookup state.id = some current)
    (holds : HoldsMirror state before current) :
    upsertAccepted state details before newDefs store now after = true ↔
      protectedTask current.status = false ∧ ∀ definition ∈ newDefs, ∀ node,
        findSubtask current.subtasks definition.id = some node →
          node.dispatchRetryCount = 0 ∧ protectedNode node.status = false := by
  obtain ⟨fresh, subtasks, status, made⟩ := tryRedecompose_eq taken
  have protos : redecomposedProtos state details before newDefs after =
      before.keptSubtasks.map (fun st => st.toProto (state.details st.id)) ++
        newDefs.map fun definition => newProto details definition (fresh definition) := by
    rw [redecomposedProtos, subtasks, List.drop_left, List.zipWith_map_right, List.zipWith_self]
  have running : protoStatusToTaskStatus (taskStatusToWire .inProgress) = .ok .inProgress := rfl
  rw [upsertAccepted, updateTask_isOk_iff found, protos, status, running]
  simp only [Except.ok.injEq, exists_eq_left', List.map_append, List.forall_mem_append,
    List.forall_mem_map]
  have kept : ∀ st ∈ before.keptSubtasks, Fits current (state.incoming st) :=
    fun st member => holds.fits (List.mem_of_mem_filter member)
  constructor
  · rintro ⟨control, _, new⟩
    have uncontrolled : protectedTask current.status = false := by
      by_contra closed
      have same := control (by simpa using closed)
      simp [same, protectedTask] at closed
    exact ⟨uncontrolled, fun definition member =>
      (fits_new_iff (made definition).1 (made definition).2.1 uncontrolled).mp
        (new definition member)⟩
  · rintro ⟨uncontrolled, new⟩
    exact ⟨by simp [uncontrolled], kept, fun definition member =>
      (fits_new_iff (made definition).1 (made definition).2.1 uncontrolled).mpr
        (new definition member)⟩

/-- Re-decomposition renews the plan exactly if the answer is a plan of its own beside what stays
and what the gateway has. -/
theorem planRenewed_iff (taken : before.tryRedecompose platform (some newDefs) = some after)
    (found : store.tasks.lookup state.id = some current)
    (holds : HoldsMirror state before current) :
    PlanRenewed state details before newDefs store now after ↔
      Renewable before newDefs current := by
  have acyclic : (∀ id, ¬ TransGen (Needs after.loop.subtasks) id id) ↔
      (∀ id, ¬ TransGen (Declares before newDefs) id id) ∧
        ∀ id ∈ newDefs.map (·.id), ∀ old ∈ (before.having .completed).map (·.id),
          ¬ ReflTransGen (Declares before newDefs) id old := by
    rw [← acyclic_add_iff, show Needs after.loop.subtasks = _ from
      funext₂ fun dep id => propext (needs_iff taken)]
  constructor
  · rintro ⟨distinct, known, apart, _, accepted⟩
    rw [ids_eq taken] at distinct
    obtain ⟨uncontrolled, fresh⟩ := (upsertAccepted_iff taken found holds).mp accepted
    obtain ⟨own, across⟩ := acyclic.mp apart
    exact ⟨distinct, (known_redecomposed_iff taken).mp known, own, across, uncontrolled, fresh⟩
  · rintro ⟨distinct, known, own, across, uncontrolled, fresh⟩
    rw [← ids_eq taken] at distinct
    exact ⟨distinct, (known_redecomposed_iff taken).mpr known, acyclic.mpr ⟨own, across⟩,
      having_completed_eq taken, (upsertAccepted_iff taken found holds).mpr ⟨uncontrolled, fresh⟩⟩

/-- The gateway has a completed and a failed subtask. -/
def halfFailedNodes : List Gateway.Subtask :=
  [Gateway.sampleSubtask "a" .completed .preferRemote,
    Gateway.sampleSubtask "b" .failed .preferRemote]

theorem holdsMirror_halfFailed : HoldsMirror Coordination.sampleTask
    (pairInTurn .completed .failed) (Gateway.sampleTask halfFailedNodes 0) := by
  intro st member
  simp only [pairInTurn, List.mem_cons, List.not_mem_nil, or_false] at member
  rcases member with rfl | rfl <;> exact ⟨_, rfl, rfl, rfl⟩

theorem planRenewed_iff_third : ∃ after,
    (pairInTurn .completed .failed).tryRedecompose ⟨id, false, id⟩
      (some [{ id := "c", dependsOn := [], files := [] }]) = some after ∧
    PlanRenewed Coordination.sampleTask (fun _ => { description := "try again" })
      (pairInTurn .completed .failed) [{ id := "c", dependsOn := [], files := [] }]
      (Gateway.sampleStore halfFailedNodes) 1 after := by
  refine ⟨_, rfl, (planRenewed_iff rfl rfl holdsMirror_halfFailed).mpr ?_⟩
  have alone (dep id : String) : ¬ Declares (pairInTurn .completed .failed)
      [{ id := "c", dependsOn := [], files := [] }] dep id := by
    simp [Declares, Needs, OwnedTask.keptSubtasks, pairInTurn]
  refine ⟨by decide, fun dep id declared => absurd declared (alone dep id), fun id cycle => ?_,
    fun id new old completed chain => ?_, rfl, ?_⟩
  · obtain ⟨_, declared, _⟩ := TransGen.head'_iff.mp cycle
    exact alone _ _ declared
  · rcases ReflTransGen.cases_head chain with rfl | ⟨_, declared, _⟩
    · simp [OwnedTask.having, pairInTurn] at new completed
      simp [new] at completed
    · exact alone _ _ declared
  · intro definition member node found
    rw [List.mem_singleton.mp member] at found
    cases found

/-- The decomposer answers with the id of the failed subtask, and the gateway refuses; or with a
dependency on it, and the plan names a subtask that it does not have. -/
theorem planRenewed_fails_reused :
    (∃ after, (pairInTurn .completed .failed).tryRedecompose ⟨id, false, id⟩
        (some [{ id := "b", dependsOn := [], files := [] }]) = some after ∧
      ¬ PlanRenewed Coordination.sampleTask (fun _ => { description := "try again" })
        (pairInTurn .completed .failed) [{ id := "b", dependsOn := [], files := [] }]
        (Gateway.sampleStore halfFailedNodes) 1 after) ∧
    ∃ after, (pairInTurn .completed .failed).tryRedecompose ⟨id, false, id⟩
        (some [{ id := "c", dependsOn := ["b"], files := [] }]) = some after ∧
      ¬ PlanRenewed Coordination.sampleTask (fun _ => { description := "try again" })
        (pairInTurn .completed .failed) [{ id := "c", dependsOn := ["b"], files := [] }]
        (Gateway.sampleStore halfFailedNodes) 1 after := by
  have taken : (pairInTurn .completed .failed).tryRedecompose ⟨id, false, id⟩
      (some [{ id := "c", dependsOn := ["b"], files := [] }]) = some _ := rfl
  refine ⟨⟨_, rfl, fun renewed => ?_⟩, _, taken, fun renewed => ?_⟩
  · obtain ⟨_, fresh⟩ := (upsertAccepted_iff rfl rfl holdsMirror_halfFailed).mp renewed.accepted
    have reopened := (fresh _ List.mem_cons_self _ rfl).2
    exact absurd reopened (by decide)
  · have dangling := (known_redecomposed_iff taken).mp renewed.known "b" "c"
      (.inr ⟨{ id := "c", dependsOn := ["b"], files := [] },
        List.mem_singleton_self _, rfl, List.mem_singleton_self "b"⟩)
    exact absurd dangling (by decide)

end UltimateCoders.Orchestrator
