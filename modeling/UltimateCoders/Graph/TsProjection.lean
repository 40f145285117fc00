import UltimateCoders.Graph.Projection
import UltimateCoders.Search.Entries

/-! # Projection of a stored orchestrator task

The tasks that the orchestrator keeps in files have status tokens of their own and leave out what
is not set. They are projected onto the same rows as the tasks of the gateway, by a second function
that shares the rule for pending subtasks with the first.
-/

namespace UltimateCoders.Graph

open List Search

/-- The columns of a stored subtask that the rows carry. -/
structure TsSubtask where
  id : String
  status : String
  dependsOn : List String
  startedAt : Option Int
  completedAt : Option Int
  retryCount : Option Nat
  requiredCapabilities : Option (List String)
  effectClass : Option String
  deriving DecidableEq

structure TsPersistedTask where
  id : String
  status : String
  projectId : Option String
  savedAt : Option Int
  createdAt : Option Int
  subtasks : List TsSubtask
  deriving DecidableEq

/-- Milliseconds as a time, unless they are before or after all dates that can be represented. -/
def msToTs (ms : Option Int) : Option Timestamp :=
  ms.bind fun ms =>
    if -8334601228800000 ≤ ms ∧ ms ≤ 8210266876799999 then some (ms * 1000) else none

/-- The status token of the last subtask with the id. -/
def tsStatusIndex (task : TsPersistedTask) (id : String) : Option String :=
  (task.subtasks.reverse.find? fun subtask => subtask.id == id).map TsSubtask.status

/-- The node state that a stored task gives to one of its subtasks. -/
def TsPersistedTask.nodeState (task : TsPersistedTask) (subtask : TsSubtask) : String :=
  dependencyAwareState subtask.status subtask.dependsOn fun dep =>
    (tsStatusIndex task dep).any fun raw => nodeStateToken raw == "SUCCEEDED"

def projectTsNode (task : TsPersistedTask) (subtask : TsSubtask) : NodeRow where
  nodeId := subtask.id
  state := task.nodeState subtask
  dependencies := subtask.dependsOn
  requiredCapabilities := subtask.requiredCapabilities.getD []
  effectClass := subtask.effectClass.getD "requires_worker"
  nodeType := nodeTypeFor (subtask.requiredCapabilities.getD [])

def projectTsAttempt (task : TsPersistedTask) (subtask : TsSubtask) :
    Option AttemptRow × Option CompletionRow :=
  attemptAndCompletion task.id subtask.id (task.nodeState subtask) (subtask.retryCount.getD 0) none
    (msToTs subtask.startedAt) (msToTs subtask.completedAt)

/-- Project a stored task onto the rows of the graph tables. -/
def projectTsTask (task : TsPersistedTask) : GraphProjection :=
  let created := ((msToTs task.createdAt).or (msToTs task.savedAt)).getD 0
  { graphId := task.id
    projectId := task.projectId.getD ""
    status := graphStatusToken task.status
    createdAt := created
    updatedAt := (msToTs task.savedAt).getD created
    nodes := task.subtasks.map (projectTsNode task)
    attempts := task.subtasks.filterMap fun subtask => (projectTsAttempt task subtask).1
    completions := task.subtasks.filterMap fun subtask => (projectTsAttempt task subtask).2 }

/-- The stored subtask says the same as the subtask of the gateway. What is left out stands for its
default, and the status tokens are for the same state. -/
structure TsSubtask.Describes (stored : TsSubtask) (subtask : Subtask) : Prop where
  id : stored.id = subtask.id
  status : nodeStateToken stored.status = nodeStateToken subtask.status.debug
  dependsOn : stored.dependsOn = subtask.dependsOn
  requiredCapabilities : stored.requiredCapabilities.getD [] = subtask.requiredCapabilities
  effectClass : stored.effectClass.getD "requires_worker" = subtask.effectClass.asStr
  retryCount : stored.retryCount.getD 0 = subtask.retryCount

structure TsPersistedTask.Describes (stored : TsPersistedTask) (task : Task) : Prop where
  id : stored.id = task.id
  projectId : stored.projectId.getD "" = task.projectId
  status : graphStatusToken stored.status = graphStatusToken task.status.debug
  subtasks : Forall₂ TsSubtask.Describes stored.subtasks task.subtasks

/-- An attempt row without its times and its worker. -/
def AttemptRow.bare (row : AttemptRow) : AttemptRow :=
  { row with workerId := none, startedAt := none, finishedAt := none }

/-- A completion row without its time. -/
def CompletionRow.bare (row : CompletionRow) : CompletionRow := { row with committedAt := none }

open CompletionRow

/-- Two projections agree up to times and workers. -/
structure GraphProjection.Agrees (first second : GraphProjection) : Prop where
  graphId : first.graphId = second.graphId
  projectId : first.projectId = second.projectId
  status : first.status = second.status
  nodes : first.nodes = second.nodes
  attempts : first.attempts.map AttemptRow.bare = second.attempts.map AttemptRow.bare
  completions : first.completions.map bare = second.completions.map bare

/-- The node that an id refers to, the last one if there are several, has succeeded. -/
def GraphProjection.Done (projection : GraphProjection) (id : String) : Prop :=
  (projection.nodes.reverse.find? fun row => row.nodeId == id).map NodeRow.state = some "SUCCEEDED"

/-- Only nodes whose dependencies have succeeded are ready. -/
def GraphProjection.ReadyAfterDone (projection : GraphProjection) : Prop :=
  ∀ row ∈ projection.nodes, row.state = "READY" → ∀ dep ∈ row.dependencies, projection.Done dep

variable {isSatisfied : String → Bool}

theorem dependencyAwareState_of_ne {raw : String} {deps : List String}
    (other : nodeStateToken raw ≠ "READY") :
    dependencyAwareState raw deps isSatisfied = nodeStateToken raw := by
  simp [dependencyAwareState, other]

theorem satisfied_of_ready {raw : String} {deps : List String}
    (ready : dependencyAwareState raw deps isSatisfied = "READY") :
    ∀ dep ∈ deps, isSatisfied dep = true := by
  unfold dependencyAwareState at ready
  dsimp only at ready
  split_ifs at ready with other satisfied
  · exact absurd ready other
  · simpa using satisfied
  · exact absurd ready (by decide)

theorem readyAfterDone_of_shared {α : Type} {projection : GraphProjection} {subtasks : List α}
    {id raw : α → String} {node : α → NodeRow} (nodes : projection.nodes = subtasks.map node)
    (ids : ∀ subtask, (node subtask).nodeId = id subtask)
    (states : ∀ subtask, (node subtask).state =
      dependencyAwareState (raw subtask) (node subtask).dependencies isSatisfied)
    (index : ∀ dep, isSatisfied dep = true → ∃ subtask,
      (subtasks.reverse.find? fun subtask => id subtask == dep) = some subtask ∧
        nodeStateToken (raw subtask) = "SUCCEEDED") :
    projection.ReadyAfterDone := by
  intro row member ready dep depMember
  rw [nodes] at member
  obtain ⟨subtask, -, rfl⟩ := mem_map.1 member
  rw [states] at ready
  obtain ⟨last, found, token⟩ := index dep (satisfied_of_ready ready dep depMember)
  have rows : (fun row : NodeRow => row.nodeId == dep) ∘ node = fun subtask => id subtask == dep :=
    funext fun subtask => by rw [Function.comp, ids]
  rw [GraphProjection.Done, nodes, ← map_reverse, find?_map, rows, found, Option.map_some,
    Option.map_some, states, dependencyAwareState_of_ne (by rw [token]; decide), token]

theorem readyAfterDone_projectTask (task : Task) : (projectTask task).ReadyAfterDone := by
  have nodes : (projectTask task).nodes = task.subtasks.map (projectNode task) := rfl
  have states (subtask : Subtask) : (projectNode task subtask).state =
      dependencyAwareState subtask.status.debug (projectNode task subtask).dependencies fun dep =>
        subtaskStatusIndex task dep == some .completed := by
    simp only [projectNode, Task.nodeState, nodeStatusOfSubtask]
  refine readyAfterDone_of_shared nodes (projectNode_nodeId task) states ?_
  intro dep satisfied
  simp only [subtaskStatusIndex, beq_iff_eq, Option.map_eq_some_iff] at satisfied
  obtain ⟨last, found, completed⟩ := satisfied
  exact ⟨last, found, by rw [completed]; decide⟩

theorem readyAfterDone_projectTsTask (task : TsPersistedTask) :
    (projectTsTask task).ReadyAfterDone := by
  have nodes : (projectTsTask task).nodes = task.subtasks.map (projectTsNode task) := rfl
  have ids (subtask : TsSubtask) : (projectTsNode task subtask).nodeId = subtask.id := rfl
  have states (subtask : TsSubtask) : (projectTsNode task subtask).state =
      dependencyAwareState subtask.status (projectTsNode task subtask).dependencies fun dep =>
        (tsStatusIndex task dep).any fun raw => nodeStateToken raw == "SUCCEEDED" := by
    simp only [projectTsNode, TsPersistedTask.nodeState]
  refine readyAfterDone_of_shared nodes ids states ?_
  intro dep satisfied
  simp only [tsStatusIndex, Option.any_map, Option.any_eq_true] at satisfied
  obtain ⟨last, found, token⟩ := satisfied
  exact ⟨last, found, by simpa using token⟩

section Agreement

variable {stored : TsPersistedTask} {task : Task} {first : TsSubtask} {second : Subtask}

theorem completed_iff_token (status : SubtaskStatus) :
    status = .completed ↔ nodeStateToken status.debug = "SUCCEEDED" := by
  cases status <;> decide

theorem TsPersistedTask.Describes.satisfied_eq (describes : stored.Describes task) (dep : String) :
    ((tsStatusIndex stored dep).any fun raw => nodeStateToken raw == "SUCCEEDED") =
      (subtaskStatusIndex task dep == some .completed) := by
  have last : Option.Rel TsSubtask.Describes
      (stored.subtasks.reverse.find? fun subtask => subtask.id == dep)
      (task.subtasks.reverse.find? fun subtask => subtask.id == dep) :=
    find?_rel_of_forall₂ (forall₂_reverse_iff.2 describes.subtasks)
      fun first second same => by rw [same.id]
  unfold tsStatusIndex subtaskStatusIndex
  generalize (stored.subtasks.reverse.find? fun subtask => subtask.id == dep) = one at last ⊢
  generalize (task.subtasks.reverse.find? fun subtask => subtask.id == dep) = other at last ⊢
  cases last with
  | none => rfl
  | some same =>
    rw [Option.map_some, Option.map_some, Option.any_some, same.status, Bool.eq_iff_iff,
      beq_iff_eq, beq_iff_eq, Option.some.injEq]
    exact (completed_iff_token _).symm

theorem TsPersistedTask.Describes.nodeState_eq (describes : stored.Describes task)
    (same : first.Describes second) : stored.nodeState first = task.nodeState second := by
  unfold nodeState Task.nodeState nodeStatusOfSubtask dependencyAwareState
  rw [same.status, same.dependsOn, funext describes.satisfied_eq]

theorem TsPersistedTask.Describes.projectNode_eq (describes : stored.Describes task)
    (same : first.Describes second) : projectTsNode stored first = projectNode task second := by
  simp only [projectTsNode, projectNode, describes.nodeState_eq same, same.id, same.dependsOn,
    same.requiredCapabilities, same.effectClass]

theorem attemptAndCompletion_bare (graphId nodeId state : String) (retryCount : Nat)
    (worker otherWorker : Option String) (started finished otherStarted otherFinished :
      Option Timestamp) :
    (attemptAndCompletion graphId nodeId state retryCount worker started finished).1.map
          AttemptRow.bare =
        (attemptAndCompletion graphId nodeId state retryCount otherWorker otherStarted
          otherFinished).1.map AttemptRow.bare ∧
      (attemptAndCompletion graphId nodeId state retryCount worker started finished).2.map
          bare =
        (attemptAndCompletion graphId nodeId state retryCount otherWorker otherStarted
          otherFinished).2.map bare := by
  unfold attemptAndCompletion
  split_ifs <;> exact ⟨rfl, rfl⟩

theorem TsPersistedTask.Describes.projectAttempt_bare (describes : stored.Describes task)
    (same : first.Describes second) :
    (projectTsAttempt stored first).1.map AttemptRow.bare =
        (projectAttempt task second).1.map AttemptRow.bare ∧
      (projectTsAttempt stored first).2.map bare =
        (projectAttempt task second).2.map bare := by
  unfold projectTsAttempt projectAttempt
  rw [describes.nodeState_eq same, describes.id, same.id, same.retryCount]
  exact attemptAndCompletion_bare _ _ _ _ _ _ _ _ _ _

/-- **Both importers agree.** Two descriptions of one task are projected onto the same rows, up to
times and workers, and neither projection makes a node ready before its dependencies have
succeeded. -/
theorem projections_agree :
    (∀ (stored : TsPersistedTask) (task : Task), stored.Describes task →
      (projectTsTask stored).Agrees (projectTask task)) ∧
      (∀ task : Task, (projectTask task).ReadyAfterDone) ∧
      ∀ stored : TsPersistedTask, (projectTsTask stored).ReadyAfterDone := by
  refine ⟨fun stored task describes => ⟨describes.id, describes.projectId, describes.status,
    map_eq_of_forall₂ describes.subtasks fun _ _ => describes.projectNode_eq, ?_, ?_⟩,
    readyAfterDone_projectTask, readyAfterDone_projectTsTask⟩
  · simp only [projectTsTask, projectTask, map_filterMap]
    exact filterMap_eq_of_forall₂ describes.subtasks fun _ _ same =>
      (describes.projectAttempt_bare same).1
  · simp only [projectTsTask, projectTask, map_filterMap]
    exact filterMap_eq_of_forall₂ describes.subtasks fun _ _ same =>
      (describes.projectAttempt_bare same).2

end Agreement

/-- A subtask as the orchestrator stores it while the planner has set nothing else. -/
def storedSubtask (id status : String) (dependsOn : List String) : TsSubtask :=
  ⟨id, status, dependsOn, none, none, none, none, none⟩

/-- A subtask of the gateway with nothing but defaults. -/
def plainSubtask (id : String) (status : SubtaskStatus) (dependsOn : List String) : Subtask :=
  ⟨id, status, none, dependsOn, none, .requiresWorker, [], 0⟩

/-- A node that is done, one that is blocked, one that waits for the first, and one whose dependency
is unknown. -/
def storedGraph : TsPersistedTask where
  id := "g-x"
  status := "in_progress"
  projectId := some "p1"
  savedAt := some 1717171500000
  createdAt := some 1717171000000
  subtasks := [storedSubtask "n-done" "completed" [], storedSubtask "n-blocked" "pending" ["n-open"],
    storedSubtask "n-open" "pending" [], storedSubtask "n-after-done" "pending" ["n-done"],
    storedSubtask "n-dangling" "pending" ["n-missing"]]

def plainGraph : Task where
  id := "g-x"
  projectId := "p1"
  status := .inProgress
  subtasks := [plainSubtask "n-done" .completed [], plainSubtask "n-blocked" .pending ["n-open"],
    plainSubtask "n-open" .pending [], plainSubtask "n-after-done" .pending ["n-done"],
    plainSubtask "n-dangling" .pending ["n-missing"]]
  createdAt := 1717171500000000
  updatedAt := 1717171500000000

theorem projections_agree_sample : (projectTsTask storedGraph).Agrees (projectTask plainGraph) := by
  have described (id status : String) (known : SubtaskStatus) (dependsOn : List String)
      (token : nodeStateToken status = nodeStateToken known.debug) :
      (storedSubtask id status dependsOn).Describes (plainSubtask id known dependsOn) :=
    ⟨rfl, token, rfl, rfl, rfl, rfl⟩
  refine projections_agree.1 storedGraph plainGraph ⟨rfl, rfl, by decide, ?_⟩
  exact .cons (described _ _ _ _ (by decide)) (.cons (described _ _ _ _ (by decide))
    (.cons (described _ _ _ _ (by decide)) (.cons (described _ _ _ _ (by decide))
      (.cons (described _ _ _ _ (by decide)) .nil))))

example : (projectTsTask storedGraph).nodes.map NodeRow.state =
    ["SUCCEEDED", "CREATED", "READY", "READY", "CREATED"] := by decide

end UltimateCoders.Graph
