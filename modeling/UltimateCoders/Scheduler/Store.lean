import Mathlib.Algebra.Group.Int.Defs
import Mathlib.Algebra.Group.Nat.Defs
import UltimateCoders.Relational.Query
import UltimateCoders.Relational.Table
import UltimateCoders.Scheduler.ScheduledTask

/-! # Stores of scheduled tasks

Scheduled tasks and the records of their attempts are kept in memory, or in two tables of a
database of which the second refers to the first.
-/

namespace UltimateCoders.Scheduler

open Governance (Instant)
open Relational

inductive ScheduleCall where
  | saveTask (task : ScheduledTask)
  | loadTask (id : Uuid)
  | listTasks (enabledOnly : Bool)
  | updateTask (task : ScheduledTask)
  | deleteTask (id : Uuid)
  | saveExecution (history : ExecutionHistory)
  | listExecutions (taskId : Uuid) (limit : Int)

inductive ScheduleAnswer where
  | done (result : Except EngineError Unit)
  | loaded (result : Except EngineError (Option ScheduledTask))
  | tasks (result : Except EngineError (List ScheduledTask))
  | executions (result : Except EngineError (List ExecutionHistory))

/-- What a call answers if the database fails its statement. -/
def ScheduleCall.failed (error : String) : ScheduleCall → ScheduleAnswer
  | .saveTask _ => .done (.error (.connectionError ("Failed to save scheduled task: " ++ error)))
  | .loadTask _ => .loaded (.error (.connectionError ("Failed to load scheduled task: " ++ error)))
  | .listTasks _ => .tasks (.error (.connectionError ("Failed to list scheduled tasks: " ++ error)))
  | .updateTask _ => .done (.error (.connectionError ("Failed to update scheduled task: " ++ error)))
  | .deleteTask _ => .done (.error (.connectionError ("Failed to delete scheduled task: " ++ error)))
  | .saveExecution _ =>
    .done (.error (.connectionError ("Failed to save execution history: " ++ error)))
  | .listExecutions _ _ =>
    .executions (.error (.connectionError ("Failed to list execution history: " ++ error)))

def ScheduledTask.SameId (first second : ScheduledTask) : Prop := first.id = second.id

instance : DecidableRel ScheduledTask.SameId := fun first second =>
  inferInstanceAs (Decidable (first.id = second.id))

def ExecutionHistory.SameId (first second : ExecutionHistory) : Prop := first.id = second.id

instance : DecidableRel ExecutionHistory.SameId := fun first second =>
  inferInstanceAs (Decidable (first.id = second.id))

abbrev TaskTable := Table ScheduledTask ScheduledTask.SameId

namespace TaskTable

def load (tasks : TaskTable) (id : Uuid) : Option ScheduledTask :=
  tasks.rows.find? fun task => task.id == id

def change (tasks : TaskTable) (id : Uuid) (next : ScheduledTask → ScheduledTask)
    (same : ∀ task, (next task).id = task.id) : TaskTable :=
  tasks.update (fun task => if task.id = id then next task else task) (by
    intro first second
    have kept : ∀ task : ScheduledTask, (if task.id = id then next task else task).id = task.id := by
      intro task
      split
      · exact same task
      · rfl
    intro clash
    exact (kept first).symm.trans (clash.trans (kept second)))

def drop (tasks : TaskTable) (id : Uuid) : TaskTable := tasks.filter fun task => task.id != id

section Load

variable {tasks : TaskTable} {id : Uuid} {task : ScheduledTask}

theorem mem_of_load (found : tasks.load id = some task) : task ∈ tasks.rows ∧ task.id = id :=
  ⟨List.mem_of_find?_eq_some found, by simpa using List.find?_some found⟩

theorem load_eq_none_iff : tasks.load id = none ↔ ∀ stored ∈ tasks.rows, stored.id ≠ id := by
  simp [load, List.find?_eq_none]

instance : Std.Symm ScheduledTask.SameId := ⟨fun _ _ same => same.symm⟩

theorem load_of_mem (member : task ∈ tasks.rows) : tasks.load task.id = some task := by
  cases found : tasks.load task.id with
  | none => exact (load_eq_none_iff.mp found task member rfl).elim
  | some stored =>
    obtain ⟨storedMem, same⟩ := mem_of_load found
    rw [tasks.eq_of_clash storedMem member same]

theorem load_append_self (free : tasks.Free task) :
    load (tasks.append task free) task.id = some task := by
  apply load_of_mem
  rw [Table.rows_append]
  exact List.mem_append_right _ List.mem_cons_self

theorem load_change_self {next : ScheduledTask → ScheduledTask}
    {same : ∀ task, (next task).id = task.id} (found : tasks.load id = some task) :
    (tasks.change id next same).load id = some (next task) := by
  obtain ⟨member, rfl⟩ := mem_of_load found
  have changed : next task ∈ (tasks.change task.id next same).rows :=
    List.mem_map.mpr ⟨task, member, if_pos rfl⟩
  have loaded := load_of_mem changed
  rwa [same] at loaded

end Load

end TaskTable

structure InMemoryScheduleStore where
  tasks : TaskTable
  executions : List ExecutionHistory

namespace InMemoryScheduleStore

def empty : InMemoryScheduleStore := ⟨.empty, []⟩

variable (store : InMemoryScheduleStore)

def saveTask (task : ScheduledTask) : Except EngineError Unit × InMemoryScheduleStore :=
  if free : store.tasks.Free task then
    (.ok (), { store with tasks := store.tasks.append task free })
  else (.error (.taskError ("Scheduled task " ++ task.id ++ " already exists")), store)

def listTasks (enabledOnly : Bool) : List ScheduledTask :=
  store.tasks.rows.filter fun task => !enabledOnly || task.enabled

def updateTask (task : ScheduledTask) : Except EngineError Unit × InMemoryScheduleStore :=
  match store.tasks.load task.id with
  | some _ =>
    (.ok (), { store with
      tasks := store.tasks.change task.id (fun stored => { task with id := stored.id })
        fun _ => rfl })
  | none => (.error (.taskError ("Scheduled task " ++ task.id ++ " not found for update")), store)

def deleteTask (id : Uuid) : Except EngineError Unit × InMemoryScheduleStore :=
  match store.tasks.load id with
  | none => (.error (.taskError ("Scheduled task " ++ id ++ " not found for deletion")), store)
  | some _ =>
    (.ok (), {
      tasks := store.tasks.drop id
      executions := store.executions.filter fun history => history.scheduledTaskId != id })

def saveExecution (history : ExecutionHistory) : Except EngineError Unit × InMemoryScheduleStore :=
  (.ok (), { store with executions := store.executions ++ [history] })

/-- How many items `take` of a limit takes that is cast to an unsigned number. -/
def takeCount (limit : Int) : Nat := (limit % 2 ^ 64).toNat

/-- The records of a task, the last one that was saved first. -/
def listExecutions (taskId : Uuid) (limit : Int) : List ExecutionHistory :=
  ((store.executions.filter fun history => history.scheduledTaskId == taskId).reverse).take
    (takeCount limit)

def execute (call : ScheduleCall) (store : InMemoryScheduleStore) :
    ScheduleAnswer × InMemoryScheduleStore :=
  match call with
  | .saveTask task => (.done (store.saveTask task).1, (store.saveTask task).2)
  | .loadTask id => (.loaded (.ok (store.tasks.load id)), store)
  | .listTasks enabledOnly => (.tasks (.ok (store.listTasks enabledOnly)), store)
  | .updateTask task => (.done (store.updateTask task).1, (store.updateTask task).2)
  | .deleteTask taskId => (.done (store.deleteTask taskId).1, (store.deleteTask taskId).2)
  | .saveExecution history => (.done (store.saveExecution history).1, (store.saveExecution history).2)
  | .listExecutions taskId limit =>
    (.executions (.ok (store.listExecutions taskId limit)), store)

end InMemoryScheduleStore

/-- What columns make of the times that are written to them. Texts are taken to fit into a `TEXT`
column, which refuses U+0000. -/
structure Columns where
  timestamptz : Instant → Instant
  time : DayTime → DayTime

/-- The largest number of an `INTEGER`. -/
def maxInteger : Nat := 2 ^ 31 - 1

namespace Columns

/-- The row of a task, as it is read back. -/
def taskRow (columns : Columns) (task : ScheduledTask) : ScheduledTask :=
  { task with
    executeAfter := task.executeAfter.map columns.timestamptz
    nightWindowStart := columns.time task.nightWindowStart
    nightWindowEnd := columns.time task.nightWindowEnd
    lastExecution := task.lastExecution.map columns.timestamptz
    nextExecution := task.nextExecution.map columns.timestamptz
    createdAt := columns.timestamptz task.createdAt
    updatedAt := columns.timestamptz task.updatedAt
    dispatchAttempts := min task.dispatchAttempts maxInteger }

/-- The row of a record, as it is read back. -/
def executionRow (columns : Columns) (history : ExecutionHistory) : ExecutionHistory :=
  { history with
    startedAt := columns.timestamptz history.startedAt
    completedAt := history.completedAt.map columns.timestamptz
    status := parseExecutionStatus (executionStatusToStr history.status) }

end Columns

/-- The tables `scheduled_tasks` and `execution_history`; every record refers to a task. -/
structure PostgresScheduleStore where
  tasks : TaskTable
  executions : Table ExecutionHistory ExecutionHistory.SameId
  referenced : ∀ history ∈ executions.rows, ∃ task ∈ tasks.rows, task.id = history.scheduledTaskId

namespace PostgresScheduleStore

def empty : PostgresScheduleStore := ⟨.empty, .empty, nofun⟩

/-- `INSERT INTO scheduled_tasks`. -/
def saveTask (columns : Columns) (store : PostgresScheduleStore) (task : ScheduledTask) :
    Except EngineError Unit × PostgresScheduleStore :=
  if free : store.tasks.Free (columns.taskRow task) then
    (.ok (), {
      tasks := store.tasks.append (columns.taskRow task) free
      executions := store.executions
      referenced := fun history member => by
        obtain ⟨task, stored, same⟩ := store.referenced history member
        exact ⟨task, List.mem_append_left _ stored, same⟩ })
  else
    (.error (.connectionError ("Failed to save scheduled task: error returned from database: " ++
      "duplicate key value violates unique constraint \"scheduled_tasks_pkey\"")), store)

/-- `ORDER BY created_at`. -/
def CreatedBefore (first second : ScheduledTask) : Prop := first.createdAt ≤ second.createdAt

instance : DecidableRel CreatedBefore := fun first second =>
  inferInstanceAs (Decidable (first.createdAt ≤ second.createdAt))

/-- `ORDER BY started_at DESC`. -/
def StartedAfter (first second : ExecutionHistory) : Prop := second.startedAt ≤ first.startedAt

instance : DecidableRel StartedAfter := fun first second =>
  inferInstanceAs (Decidable (second.startedAt ≤ first.startedAt))

/-- `SELECT … FROM scheduled_tasks ORDER BY created_at`. -/
def listTasks (scan : Scan ScheduledTask) (store : PostgresScheduleStore) (enabledOnly : Bool) :
    List ScheduledTask :=
  orderBy scan CreatedBefore (store.tasks.rows.filter fun task => !enabledOnly || task.enabled)

/-- `UPDATE scheduled_tasks SET … WHERE id = $1`, which does not write `created_at`. -/
def updateTask (columns : Columns) (store : PostgresScheduleStore) (task : ScheduledTask) :
    Except EngineError Unit × PostgresScheduleStore :=
  match store.tasks.load task.id with
  | some _ =>
    (.ok (), {
      tasks := store.tasks.change task.id (fun stored =>
        { columns.taskRow task with id := stored.id, createdAt := stored.createdAt }) fun _ => rfl
      executions := store.executions
      referenced := fun history member => by
        obtain ⟨stored, present, same⟩ := store.referenced history member
        refine ⟨_, List.mem_map_of_mem present, ?_⟩
        simp only [apply_ite ScheduledTask.id, ite_self]
        exact same })
  | none => (.error (.taskError ("Scheduled task " ++ task.id ++ " not found for update")), store)

/-- `DELETE FROM scheduled_tasks WHERE id = $1`, with the cascade. -/
def deleteTask (store : PostgresScheduleStore) (id : Uuid) :
    Except EngineError Unit × PostgresScheduleStore :=
  match store.tasks.load id with
  | none => (.error (.taskError ("Scheduled task " ++ id ++ " not found for deletion")), store)
  | some _ =>
    (.ok (), {
      tasks := store.tasks.drop id
      executions := store.executions.filter fun history => history.scheduledTaskId != id
      referenced := fun history member => by
        obtain ⟨kept, other⟩ := List.mem_filter.mp member
        obtain ⟨task, stored, same⟩ := store.referenced history kept
        refine ⟨task, List.mem_filter.mpr ⟨stored, ?_⟩, same⟩
        rw [same]
        exact other })

/-- `INSERT INTO execution_history`. -/
def saveExecution (columns : Columns) (store : PostgresScheduleStore) (history : ExecutionHistory) :
    Except EngineError Unit × PostgresScheduleStore :=
  if free : store.executions.Free (columns.executionRow history) then
    if known : ∃ task ∈ store.tasks.rows, task.id = history.scheduledTaskId then
      (.ok (), {
        tasks := store.tasks
        executions := store.executions.append (columns.executionRow history) free
        referenced := fun other member => by
          rcases List.mem_append.mp member with stored | added
          · exact store.referenced other stored
          · rw [List.mem_singleton.mp added]
            exact known })
    else
      (.error (.connectionError ("Failed to save execution history: error returned from " ++
        "database: insert or update on table \"execution_history\" violates foreign key " ++
        "constraint \"execution_history_scheduled_task_id_fkey\"")), store)
  else
    (.error (.connectionError ("Failed to save execution history: error returned from database: " ++
      "duplicate key value violates unique constraint \"execution_history_pkey\"")), store)

/-- `SELECT … FROM execution_history … ORDER BY started_at DESC LIMIT $2`. -/
def listExecutions (scan : Scan ExecutionHistory) (store : PostgresScheduleStore) (taskId : Uuid)
    (limit : Int) : Except EngineError (List ExecutionHistory) :=
  if limit < 0 then
    .error (.connectionError ("Failed to list execution history: error returned from database: " ++
      "LIMIT must not be negative"))
  else
    .ok ((orderBy scan StartedAfter
      (store.executions.rows.filter fun history => history.scheduledTaskId == taskId)).take
        limit.toNat)

def execute (columns : Columns) (taskScan : Scan ScheduledTask)
    (executionScan : Scan ExecutionHistory) (call : ScheduleCall) (store : PostgresScheduleStore) :
    ScheduleAnswer × PostgresScheduleStore :=
  match call with
  | .saveTask task => (.done (store.saveTask columns task).1, (store.saveTask columns task).2)
  | .loadTask id => (.loaded (.ok (store.tasks.load id)), store)
  | .listTasks enabledOnly => (.tasks (.ok (store.listTasks taskScan enabledOnly)), store)
  | .updateTask task => (.done (store.updateTask columns task).1, (store.updateTask columns task).2)
  | .deleteTask taskId => (.done (store.deleteTask taskId).1, (store.deleteTask taskId).2)
  | .saveExecution history =>
    (.done (store.saveExecution columns history).1, (store.saveExecution columns history).2)
  | .listExecutions taskId limit =>
    (.executions (store.listExecutions executionScan taskId limit), store)

end PostgresScheduleStore

/-- The store that a service was given. -/
inductive ScheduleStore where
  | inMemory (store : InMemoryScheduleStore)
  | postgres (store : PostgresScheduleStore)

/-- What a database adds: its columns, and the order in which it meets rows. -/
structure Database where
  columns : Columns
  taskScan : Scan ScheduledTask
  executionScan : Scan ExecutionHistory

namespace ScheduleStore

/-- A statement of the database can fail, and changes nothing then. -/
def execute (database : Database) (statement : Except String Unit) (call : ScheduleCall) :
    ScheduleStore → ScheduleAnswer × ScheduleStore
  | inMemory store => ((store.execute call).1, .inMemory (store.execute call).2)
  | postgres store =>
    match statement with
    | .error error => (call.failed error, .postgres store)
    | .ok () =>
      let served := store.execute database.columns database.taskScan database.executionScan call
      (served.1, .postgres served.2)

/-- A call on the store is carried out. -/
def CarriesOut (statement : Except String Unit) : ScheduleStore → Prop
  | inMemory _ => True
  | postgres _ => statement = .ok ()

def load (id : Uuid) : ScheduleStore → Option ScheduledTask
  | inMemory store => store.tasks.load id
  | postgres store => store.tasks.load id

def row (database : Database) (task : ScheduledTask) : ScheduleStore → ScheduledTask
  | inMemory _ => task
  | postgres _ => database.columns.taskRow task

end ScheduleStore

end UltimateCoders.Scheduler
