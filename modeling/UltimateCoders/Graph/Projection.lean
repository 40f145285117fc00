import UltimateCoders.Graph.Status
import UltimateCoders.Text.Split

/-! # Projection of a task onto graph rows

A task of the gateway is projected onto node, attempt and completion rows.
The fields of a task that no row carries (descriptions, file constraints,
dispatch mode, workflow steps) are not represented.
-/

namespace UltimateCoders.Graph

open NodeStatus

/-- Microseconds since the epoch. -/
abbrev Timestamp := Int

inductive TaskStatus where
  | created
  | planning
  | inProgress
  | completed
  | failed
  | paused
  deriving DecidableEq

/-- The `Debug` rendering of a task status. -/
def TaskStatus.debug : TaskStatus → String
  | created => "Created"
  | planning => "Planning"
  | inProgress => "InProgress"
  | completed => "Completed"
  | failed => "Failed"
  | paused => "Paused"

inductive SubtaskStatus where
  | pending
  | assigned
  | inProgress
  | completed
  | failed
  | conflicted
  deriving DecidableEq

open SubtaskStatus

/-- The `Debug` rendering of a subtask status. -/
def SubtaskStatus.debug : SubtaskStatus → String
  | pending => "Pending"
  | assigned => "Assigned"
  | inProgress => "InProgress"
  | completed => "Completed"
  | failed => "Failed"
  | conflicted => "Conflicted"

inductive EffectClass where
  | readOnly
  | localSafe
  | requiresWorker
  deriving DecidableEq

def EffectClass.asStr : EffectClass → String
  | readOnly => "read_only"
  | localSafe => "local_safe"
  | requiresWorker => "requires_worker"

/-- The part of a worker's result that the projection reads. -/
structure SubtaskResult where
  workerId : String
  completedAt : Timestamp
  deriving DecidableEq

structure Subtask where
  id : String
  status : SubtaskStatus
  assignedWorker : Option String
  dependsOn : List String
  result : Option SubtaskResult
  effectClass : EffectClass
  requiredCapabilities : List String
  retryCount : Nat
  deriving DecidableEq

structure Task where
  id : String
  projectId : String
  status : TaskStatus
  subtasks : List Subtask
  createdAt : Timestamp
  updatedAt : Timestamp
  deriving DecidableEq

/-- The largest value of a 32-bit signed column. -/
def i32Max : Nat := 2147483647

/-- The deterministic attempt id of (graph, node, retry). -/
def attemptId (graphId nodeId : String) (retryNo : Int) : String :=
  graphId ++ ":" ++ nodeId ++ ":" ++ toString retryNo

structure NodeRow where
  nodeId : String
  state : String
  dependencies : List String
  requiredCapabilities : List String
  effectClass : String
  nodeType : String
  deriving DecidableEq

structure AttemptRow where
  attemptId : String
  nodeId : String
  workerId : Option String
  status : String
  retryNo : Int
  startedAt : Option Timestamp
  finishedAt : Option Timestamp
  resultRef : Option String
  deriving DecidableEq

structure CompletionRow where
  nodeId : String
  winningAttemptId : String
  resultRef : Option String
  committedAt : Option Timestamp
  deriving DecidableEq

/-- A task projected onto the rows of the graph tables. -/
structure GraphProjection where
  graphId : String
  projectId : String
  status : String
  createdAt : Timestamp
  updatedAt : Timestamp
  nodes : List NodeRow
  attempts : List AttemptRow
  completions : List CompletionRow
  deriving DecidableEq

def graphStatusOfTaskStatus (status : TaskStatus) : String :=
  graphStatusToken status.debug

/-- The dependency-aware reading of a pending status: ready only when every
dependency is done. -/
def dependencyAwareState (rawStatus : String) (deps : List String)
    (isSatisfied : String → Bool) : String :=
  let state := nodeStateToken rawStatus
  if state ≠ "READY" then state
  else if deps.all isSatisfied then "READY" else "CREATED"

/-- Status of the subtask with an id. The index is filled in list order, so the
last subtask with the id counts. -/
def subtaskStatusIndex (task : Task) (id : String) : Option SubtaskStatus :=
  (task.subtasks.reverse.find? fun subtask => subtask.id == id).map Subtask.status

def nodeStatusOfSubtask (subtask : Subtask) (statuses : String → Option SubtaskStatus) : String :=
  dependencyAwareState subtask.status.debug subtask.dependsOn
    fun dep => statuses dep == some .completed

def reviewCapability : String := "review"

/-- Must the node be claimed by someone other than its producer? -/
def requiresIndependence (requiredCapabilities : List String) : Bool :=
  requiredCapabilities.any (· == reviewCapability)

def nodeTypeFor (requiredCapabilities : List String) : String :=
  if requiresIndependence requiredCapabilities then "review" else "subtask"

/-- The attempt number a retry count is stored under. -/
def retryNoOf (retryCount : Nat) : Int :=
  (min retryCount i32Max : Nat)

/-- The attempt and completion rows of one node. A node that was never
attempted has neither. -/
def attemptAndCompletion (graphId nodeId state : String) (retryCount : Nat)
    (workerId : Option String) (startedAt finishedAt : Option Timestamp) :
    Option AttemptRow × Option CompletionRow :=
  if state = ready.asStr ∨ state = created.asStr then (none, none)
  else
    let retryNo := retryNoOf retryCount
    let id := attemptId graphId nodeId retryNo
    let resultRef := graphId ++ "/" ++ nodeId
    (some {
        attemptId := id
        nodeId := nodeId
        workerId := workerId
        status := state
        retryNo := retryNo
        startedAt := startedAt
        finishedAt := finishedAt
        resultRef := some resultRef },
      if state = "SUCCEEDED" then
        some {
          nodeId := nodeId
          winningAttemptId := id
          resultRef := some resultRef
          committedAt := finishedAt }
      else none)

/-- The node state a task's snapshot gives to one of its subtasks. -/
def Task.nodeState (task : Task) (subtask : Subtask) : String :=
  nodeStatusOfSubtask subtask (subtaskStatusIndex task)

def projectNode (task : Task) (subtask : Subtask) : NodeRow where
  nodeId := subtask.id
  state := task.nodeState subtask
  dependencies := subtask.dependsOn
  requiredCapabilities := subtask.requiredCapabilities
  effectClass := subtask.effectClass.asStr
  nodeType := nodeTypeFor subtask.requiredCapabilities

@[simp] theorem projectNode_nodeId (task : Task) (subtask : Subtask) :
    (projectNode task subtask).nodeId = subtask.id := rfl

@[simp] theorem projectNode_state (task : Task) (subtask : Subtask) :
    (projectNode task subtask).state = task.nodeState subtask := by
  simp only [projectNode]

def projectAttempt (task : Task) (subtask : Subtask) : Option AttemptRow × Option CompletionRow :=
  let state := task.nodeState subtask
  let workerId := match subtask.result with
    | some result => some result.workerId
    | none => subtask.assignedWorker
  let started := match subtask.result with
    | some result => some result.completedAt
    | none => if state = "RUNNING" then some task.updatedAt else none
  let finished := subtask.result.map SubtaskResult.completedAt
  attemptAndCompletion task.id subtask.id state subtask.retryCount workerId started finished

/-- Project a live task onto the rows of the graph tables. -/
def projectTask (task : Task) : GraphProjection where
  graphId := task.id
  projectId := task.projectId
  status := graphStatusOfTaskStatus task.status
  createdAt := task.createdAt
  updatedAt := task.updatedAt
  nodes := task.subtasks.map (projectNode task)
  attempts := task.subtasks.filterMap fun subtask => (projectAttempt task subtask).1
  completions := task.subtasks.filterMap fun subtask => (projectAttempt task subtask).2

/-- A snapshot only ever names these five node states. -/
theorem Task.nodeState_cases (task : Task) (subtask : Subtask) :
    task.nodeState subtask = created.asStr ∨
      task.nodeState subtask = ready.asStr ∨
      task.nodeState subtask = running.asStr ∨
      task.nodeState subtask = succeeded.asStr ∨
      task.nodeState subtask = failed.asStr := by
  have pending : nodeStateToken pending.debug = "READY" := by decide
  have assigned : nodeStateToken assigned.debug = "RUNNING" := by decide
  have inProgress : nodeStateToken inProgress.debug = "RUNNING" := by decide
  have completed : nodeStateToken completed.debug = "SUCCEEDED" := by decide
  have failed : nodeStateToken failed.debug = "FAILED" := by decide
  have conflicted : nodeStateToken conflicted.debug = "FAILED" := by decide
  unfold Task.nodeState nodeStatusOfSubtask dependencyAwareState
  cases subtask.status with
  | pending =>
    rw [pending]
    by_cases satisfied : subtask.dependsOn.all
        (fun dep => subtaskStatusIndex task dep == some .completed) = true
    · exact .inr (.inl (by simp only [satisfied]; rfl))
    · exact .inl (by simp only [satisfied]; rfl)
  | assigned => rw [assigned]; exact .inr (.inr (.inl rfl))
  | inProgress => rw [inProgress]; exact .inr (.inr (.inl rfl))
  | completed => rw [completed]; exact .inr (.inr (.inr (.inl rfl)))
  | failed => rw [failed]; exact .inr (.inr (.inr (.inr rfl)))
  | conflicted => rw [conflicted]; exact .inr (.inr (.inr (.inr rfl)))

private theorem colon_not_mem_digits (n : Nat) : ':' ∉ n.repr.toList := by
  intro member
  have digit := Nat.isDigit_of_mem_toDigits (b := 10) (by decide) (by decide)
    (by simpa [Nat.repr] using member)
  exact absurd digit (by decide)

theorem colon_not_mem_toString (n : Int) : ':' ∉ (toString n).toList := by
  cases n with
  | ofNat n => exact colon_not_mem_digits n
  | negSucc n =>
    change ':' ∉ ("-" ++ (n + 1).repr).toList
    rw [String.toList_append, List.mem_append]
    rintro (sign | digits)
    · exact absurd sign (by decide)
    · exact colon_not_mem_digits _ digits

theorem repr_injective : Function.Injective Nat.repr := by
  intro first second same
  have lists : Nat.toDigits 10 first = Nat.toDigits 10 second := by
    simpa [Nat.repr, String.ofList_inj] using same
  rw [← Nat.ofDigitChars_toDigits (b := 10) (n := first) (by decide) (by decide), lists,
    Nat.ofDigitChars_toDigits (by decide) (by decide)]

theorem toString_injective : Function.Injective (toString : Int → String) := by
  intro first second same
  have signs : ∀ one other : Nat, one.repr ≠ "-" ++ other.repr := by
    intro one other equal
    have sign : '-' ∈ one.repr.toList := by simp [equal]
    have digit := Nat.isDigit_of_mem_toDigits (b := 10) (by decide) (by decide)
      (by simpa [Nat.repr] using sign)
    exact absurd digit (by decide)
  cases first with
  | ofNat first =>
    cases second with
    | ofNat second => rw [repr_injective same]
    | negSucc second => exact (signs first (second + 1) same).elim
  | negSucc first =>
    cases second with
    | ofNat second => exact (signs second (first + 1) same.symm).elim
    | negSucc second =>
      have digits := repr_injective ((String.append_right_inj "-").mp same)
      rw [Nat.succ.inj digits]

theorem scope_eq_of_attemptId_eq {firstGraph secondGraph first second : String}
    {firstRetry secondRetry : Int}
    (same : attemptId firstGraph first firstRetry = attemptId secondGraph second secondRetry) :
    firstGraph ++ ":" ++ first = secondGraph ++ ":" ++ second := by
  have split : ∀ (graphId nodeId : String) (retryNo : Int),
      (attemptId graphId nodeId retryNo).toList =
        (graphId ++ ":" ++ nodeId).toList ++ ':' :: (toString retryNo).toList := by
    intro graphId nodeId retryNo
    rw [attemptId, String.toList_append, String.toList_append, List.append_assoc]
    rfl
  have chars := congrArg String.toList same
  rw [split, split] at chars
  exact String.toList_inj.mp (Text.eq_of_append_cons_eq chars (colon_not_mem_toString _)
    (colon_not_mem_toString _))

theorem nodeId_eq_of_attemptId_eq {graphId first second : String} {firstRetry secondRetry : Int}
    (same : attemptId graphId first firstRetry = attemptId graphId second secondRetry) :
    first = second := by
  have chars := congrArg String.toList (scope_eq_of_attemptId_eq same)
  simp only [String.toList_append, List.append_cancel_left_eq] at chars
  exact String.toList_inj.mp chars

end UltimateCoders.Graph
