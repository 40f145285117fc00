import UltimateCoders.Scheduler.Store
import UltimateCoders.Transition.History

/-! # Agreement of the stores of scheduled tasks

The store in memory keeps the order of insertion, the tables sort by times. The tables refuse
records of tasks that they do not know, keep the time at which a task was created, and hold
times as precisely as their columns do. As long as calls give no occasion for any of this, the
stores give the same answers; the first call that does can be told by one of them.
-/

namespace UltimateCoders.Scheduler

open Governance (Instant)
open Relational
open PostgresScheduleStore (CreatedBefore StartedAfter)
open ScheduleAnswer TaskTable List

variable {columns : Columns} {memory : InMemoryScheduleStore} {table : PostgresScheduleStore}
  {call : ScheduleCall} {calls : List ScheduleCall}

/-- The points in time of a task. -/
def ScheduledTask.instants (task : ScheduledTask) : List Instant :=
  task.executeAfter.toList ++ task.lastExecution.toList ++ task.nextExecution.toList ++
    [task.createdAt, task.updatedAt]

def ExecutionHistory.instants (history : ExecutionHistory) : List Instant :=
  history.startedAt :: history.completedAt.toList

def Columns.HoldTask (columns : Columns) (task : ScheduledTask) : Prop :=
  (∀ instant ∈ task.instants, columns.timestamptz instant = instant) ∧
    columns.time task.nightWindowStart = task.nightWindowStart ∧
    columns.time task.nightWindowEnd = task.nightWindowEnd

open Columns

def Columns.HoldExecution (columns : Columns) (history : ExecutionHistory) : Prop :=
  ∀ instant ∈ history.instants, columns.timestamptz instant = instant

theorem map_eq_self_iff {change : Instant → Instant} {instant : Option Instant} :
    instant.map change = instant ↔ ∀ found ∈ instant.toList, change found = found := by
  cases instant <;> simp

variable {task : ScheduledTask}

theorem Columns.taskRow_eq_iff (few : task.dispatchAttempts < 2 ^ 31) :
    columns.taskRow task = task ↔ columns.HoldTask task := by
  have attempts : min task.dispatchAttempts maxInteger = task.dispatchAttempts := by
    unfold maxInteger
    omega
  cases task
  simp only [taskRow, attempts, ScheduledTask.mk.injEq, map_eq_self_iff, true_and,
    and_true, HoldTask, ScheduledTask.instants, mem_append, mem_cons,
    not_mem_nil, or_false]
  simp only [or_imp, forall_and, forall_eq]
  tauto

theorem Columns.executionRow_eq_iff {history : ExecutionHistory} :
    columns.executionRow history = history ↔ columns.HoldExecution history := by
  cases history
  simp [executionRow, HoldExecution, ExecutionHistory.instants, map_eq_self_iff]

/-- The numbers that calls carry. -/
def ScheduleCall.InRange : ScheduleCall → Prop
  | saveTask task => task.dispatchAttempts < 2 ^ 31
  | updateTask task => task.dispatchAttempts < 2 ^ 31
  | listExecutions _ limit => -2 ^ 63 ≤ limit ∧ limit < 2 ^ 63
  | _ => True

open ScheduleCall

/-- Queries whose answers can be compared at every moment. -/
def ScheduleCall.IsQuery : ScheduleCall → Prop
  | loadTask _ => True
  | listTasks _ => True
  | listExecutions _ limit => 0 ≤ limit
  | _ => False

/-- The stores answer the same, for some order of the rows that tie. -/
def AgreeOn (columns : Columns) (call : ScheduleCall) (memory : InMemoryScheduleStore)
    (table : PostgresScheduleStore) : Prop :=
  ∃ taskScan executionScan,
    (memory.execute call).1 = (table.execute columns taskScan executionScan call).1

/-- The tables after a call; the order of rows that tie makes no difference to them. -/
def PostgresScheduleStore.after (columns : Columns) (table : PostgresScheduleStore)
    (call : ScheduleCall) : PostgresScheduleStore :=
  (table.execute columns .inserted .inserted call).2

open PostgresScheduleStore (execute)

def InMemoryScheduleStore.after (memory : InMemoryScheduleStore) (call : ScheduleCall) :
    InMemoryScheduleStore :=
  (memory.execute call).2

def memoryAfter (calls : List ScheduleCall) : InMemoryScheduleStore :=
  calls.foldl InMemoryScheduleStore.after .empty

def tableAfter (columns : Columns) (calls : List ScheduleCall) : PostgresScheduleStore :=
  calls.foldl (PostgresScheduleStore.after columns) .empty

/-- The stores give the same answers to the calls, and to every query in between. -/
def StoresAgree (columns : Columns) (calls : List ScheduleCall) : Prop :=
  (∀ earlier call, earlier ++ [call] <+: calls →
    AgreeOn columns call (memoryAfter earlier) (tableAfter columns earlier)) ∧
  ∀ earlier query, earlier <+: calls → IsQuery query → InRange query →
    AgreeOn columns query (memoryAfter earlier) (tableAfter columns earlier)

/-- The call gives no occasion to tell the stores apart. -/
def ScheduleCall.Fits (columns : Columns) (store : InMemoryScheduleStore) : ScheduleCall → Prop
  | saveTask task => columns.HoldTask task ∧ ∀ stored ∈ store.tasks.rows,
      stored.id ≠ task.id ∧ stored.createdAt ≤ task.createdAt
  | updateTask task => ∀ stored ∈ store.tasks.rows, stored.id = task.id →
      columns.HoldTask task ∧ stored.createdAt = task.createdAt
  | saveExecution history => columns.HoldExecution history ∧
      (∃ task ∈ store.tasks.rows, task.id = history.scheduledTaskId) ∧
      ∀ stored ∈ store.executions, stored.id ≠ history.id ∧
        (stored.scheduledTaskId = history.scheduledTaskId → stored.startedAt ≤ history.startedAt)
  | listExecutions _ limit => 0 ≤ limit
  | loadTask _ => True
  | listTasks _ => True
  | deleteTask _ => True

/-- The stores hold the same rows, in the order of their times. -/
structure Matches (columns : Columns) (memory : InMemoryScheduleStore)
    (table : PostgresScheduleStore) : Prop where
  tasks : memory.tasks = table.tasks
  executions : memory.executions = table.executions.rows
  held : ∀ task ∈ memory.tasks.rows, columns.timestamptz task.createdAt = task.createdAt
  created : memory.tasks.rows.Pairwise CreatedBefore
  started : memory.executions.Pairwise fun first second =>
    first.scheduledTaskId = second.scheduledTaskId → first.startedAt ≤ second.startedAt

theorem matches_empty : Matches columns .empty .empty :=
  ⟨rfl, rfl, fun _ member => (not_mem_nil member).elim, .nil, .nil⟩

instance : Std.Total CreatedBefore := ⟨fun first second => le_total first.createdAt second.createdAt⟩

instance : IsTrans ScheduledTask CreatedBefore := ⟨fun _ _ _ left right => Int.le_trans left right⟩

instance : Std.Total StartedAfter := ⟨fun first second => le_total second.startedAt first.startedAt⟩

instance : IsTrans ExecutionHistory StartedAfter :=
  ⟨fun _ _ _ left right => Int.le_trans right left⟩

theorem takeCount_eq {limit : Int} (lower : 0 ≤ limit) (upper : limit < 2 ^ 63) :
    InMemoryScheduleStore.takeCount limit = limit.toNat := by
  unfold InMemoryScheduleStore.takeCount
  rw [Int.emod_eq_of_lt lower (by omega)]

section

variable (same : Matches columns memory table)

include same

theorem Matches.listTasks_eq (enabledOnly : Bool) :
    ∃ scan, memory.listTasks enabledOnly = table.listTasks scan enabledOnly := by
  unfold InMemoryScheduleStore.listTasks PostgresScheduleStore.listTasks
  rw [← same.tasks]
  exact exists_orderBy_iff.mpr ⟨.refl _, same.created.filter _⟩

theorem Matches.listExecutions_eq (taskId : Uuid) {limit : Int} (lower : 0 ≤ limit)
    (upper : limit < 2 ^ 63) :
    ∃ scan, .ok (memory.listExecutions taskId limit) = table.listExecutions scan taskId limit := by
  have sorted : ((memory.executions.filter fun history =>
      history.scheduledTaskId == taskId).reverse).Pairwise StartedAfter := by
    rw [pairwise_reverse]
    refine (same.started.filter _).imp_of_mem ?_
    intro first second firstMem secondMem ordered
    have firstOf := (mem_filter.mp firstMem).2
    have secondOf := (mem_filter.mp secondMem).2
    exact ordered ((beq_iff_eq.mp firstOf).trans (beq_iff_eq.mp secondOf).symm)
  obtain ⟨scan, listed⟩ := exists_orderBy_iff.mpr ⟨reverse_perm _, sorted⟩
  refine ⟨scan, ?_⟩
  unfold InMemoryScheduleStore.listExecutions PostgresScheduleStore.listExecutions
  rw [if_neg (not_lt.mpr lower), takeCount_eq lower upper, listed, same.executions]

theorem Matches.agree_query (query : call.IsQuery) (inRange : call.InRange) :
    AgreeOn columns call memory table := by
  cases call with
  | loadTask id =>
    refine ⟨.inserted, .inserted, ?_⟩
    simp only [InMemoryScheduleStore.execute, execute, same.tasks]
  | listTasks enabledOnly =>
    obtain ⟨scan, listed⟩ := same.listTasks_eq enabledOnly
    refine ⟨scan, .inserted, ?_⟩
    simp only [InMemoryScheduleStore.execute, execute, listed]
  | listExecutions taskId limit =>
    obtain ⟨scan, listed⟩ := same.listExecutions_eq taskId query inRange.2
    refine ⟨.inserted, scan, ?_⟩
    simp only [InMemoryScheduleStore.execute, execute, ← listed]
  | saveTask | updateTask | deleteTask | saveExecution => exact query.elim

theorem Matches.saveTask (few : task.dispatchAttempts < 2 ^ 31)
    (fits : (saveTask task).Fits columns memory) :
    (memory.saveTask task).1 = (table.saveTask columns task).1 ∧
      Matches columns (memory.saveTask task).2 (table.saveTask columns task).2 := by
  obtain ⟨held, fresh⟩ := fits
  have row := (taskRow_eq_iff few).mpr held
  have free : memory.tasks.Free task := fun stored member => (fresh stored member).1
  have tableFree : table.tasks.Free (columns.taskRow task) := by
    rw [row, ← same.tasks]
    exact free
  rw [InMemoryScheduleStore.saveTask, dif_pos free, PostgresScheduleStore.saveTask,
    dif_pos tableFree]
  refine ⟨rfl, ?_, same.executions, ?_, ?_, same.started⟩
  · apply Table.ext
    rw [Table.rows_append, Table.rows_append, same.tasks, row]
  · intro stored member
    rcases mem_append.mp member with earlier | added
    · exact same.held stored earlier
    · rw [mem_singleton.mp added]
      exact held.1 _ (by simp [ScheduledTask.instants])
  · refine pairwise_append.mpr ⟨same.created, pairwise_singleton _ _, ?_⟩
    intro stored member added addedMem
    rw [mem_singleton.mp addedMem]
    exact (fresh stored member).2

theorem Matches.updateTask (few : task.dispatchAttempts < 2 ^ 31)
    (fits : (ScheduleCall.updateTask task).Fits columns memory) :
    (memory.updateTask task).1 = (table.updateTask columns task).1 ∧
      Matches columns (memory.updateTask task).2 (table.updateTask columns task).2 := by
  unfold InMemoryScheduleStore.updateTask PostgresScheduleStore.updateTask
  cases found : memory.tasks.load task.id with
  | none =>
    have tableFound := same.tasks ▸ found
    simp only [tableFound]
    exact ⟨trivial, same⟩
  | some stored =>
    have tableFound := same.tasks ▸ found
    simp only [tableFound]
    have created : ∀ other ∈ memory.tasks.rows,
        (if other.id = task.id then { task with id := other.id } else other).createdAt =
          other.createdAt := by
      intro other member
      split
      · rename_i own
        exact (fits other member own).2.symm
      · rfl
    refine ⟨trivial, ?_, same.executions, ?_, ?_, same.started⟩
    · apply Table.ext
      simp only [change, Table.rows_update, ← same.tasks]
      apply map_congr_left
      intro other member
      split
      · rename_i own
        obtain ⟨held, kept⟩ := fits other member own
        rw [(taskRow_eq_iff few).mpr held, kept]
      · rfl
    · intro other member
      obtain ⟨first, firstMem, rfl⟩ := mem_map.mp member
      rw [created first firstMem]
      exact same.held first firstMem
    · refine pairwise_map.mpr (same.created.imp_of_mem ?_)
      intro first second firstMem secondMem ordered
      exact (created first firstMem).le.trans (Int.le_trans ordered (created second secondMem).ge)

theorem Matches.deleteTask (id : Uuid) : (memory.deleteTask id).1 = (table.deleteTask id).1 ∧
      Matches columns (memory.deleteTask id).2 (table.deleteTask id).2 := by
  unfold InMemoryScheduleStore.deleteTask PostgresScheduleStore.deleteTask
  cases found : memory.tasks.load id with
  | none =>
    have tableFound := same.tasks ▸ found
    simp only [tableFound]
    exact ⟨trivial, same⟩
  | some stored =>
    have tableFound := same.tasks ▸ found
    simp only [tableFound]
    refine ⟨trivial, ?_, ?_, ?_, same.created.filter _, same.started.filter _⟩
    · rw [same.tasks]
    · simp only [Table.filter, same.executions]
    · exact fun task member => same.held task (mem_filter.mp member).1

theorem Matches.saveExecution {history : ExecutionHistory}
    (fits : (ScheduleCall.saveExecution history).Fits columns memory) :
    (memory.saveExecution history).1 = (table.saveExecution columns history).1 ∧
      Matches columns (memory.saveExecution history).2
        (table.saveExecution columns history).2 := by
  obtain ⟨held, known, fresh⟩ := fits
  have row := executionRow_eq_iff.mpr held
  have free : table.executions.Free (columns.executionRow history) := by
    intro stored member
    rw [row]
    rw [← same.executions] at member
    exact (fresh stored member).1
  rw [same.tasks] at known
  rw [InMemoryScheduleStore.saveExecution, PostgresScheduleStore.saveExecution, dif_pos free,
    dif_pos known]
  refine ⟨rfl, same.tasks, ?_, same.held, same.created, ?_⟩
  · rw [Table.rows_append, row, same.executions]
  · refine pairwise_append.mpr ⟨same.started, pairwise_singleton _ _, ?_⟩
    intro stored member added addedMem
    rw [mem_singleton.mp addedMem]
    exact (fresh stored member).2

/-- Stores that match still do after a call that fits, and answer it alike. -/
theorem Matches.step (inRange : call.InRange) (fits : call.Fits columns memory) :
    AgreeOn columns call memory table ∧
      Matches columns (memory.after call) (table.after columns call) := by
  cases call with
  | loadTask id | listTasks enabledOnly => exact ⟨same.agree_query trivial inRange, same⟩
  | listExecutions taskId limit => exact ⟨same.agree_query fits inRange, same⟩
  | saveTask task =>
    obtain ⟨answered, matched⟩ := same.saveTask inRange fits
    exact ⟨⟨.inserted, .inserted, congrArg done answered⟩, matched⟩
  | updateTask task =>
    obtain ⟨answered, matched⟩ := same.updateTask inRange fits
    exact ⟨⟨.inserted, .inserted, congrArg done answered⟩, matched⟩
  | deleteTask id =>
    obtain ⟨answered, matched⟩ := same.deleteTask id
    exact ⟨⟨.inserted, .inserted, congrArg done answered⟩, matched⟩
  | saveExecution history =>
    obtain ⟨answered, matched⟩ := same.saveExecution fits
    exact ⟨⟨.inserted, .inserted, congrArg done answered⟩, matched⟩

end

section Apart

theorem AgreeOn.loadTask {id : Uuid} (agree : AgreeOn columns (.loadTask id) memory table) :
    memory.tasks.load id = table.tasks.load id := by
  obtain ⟨taskScan, executionScan, same⟩ := agree
  exact Except.ok.inj (loaded.inj same)

theorem AgreeOn.listTasks {enabledOnly : Bool}
    (agree : AgreeOn columns (.listTasks enabledOnly) memory table) :
    (memory.listTasks enabledOnly).Pairwise CreatedBefore := by
  obtain ⟨taskScan, executionScan, same⟩ := agree
  rw [Except.ok.inj (tasks.inj same)]
  exact pairwise_orderBy taskScan _

theorem AgreeOn.listExecutions {taskId : Uuid} (earlier : List ExecutionHistory)
    (last : ExecutionHistory) (agree : AgreeOn columns (.listExecutions taskId 1) memory table)
    (saved : (memory.executions.filter fun history => history.scheduledTaskId == taskId) =
      earlier ++ [last]) :
    last ∈ table.executions.rows ∧ ∀ row ∈ table.executions.rows, row.scheduledTaskId = taskId →
      row.startedAt ≤ last.startedAt := by
  obtain ⟨taskScan, scan, same⟩ := agree
  have listed := executions.inj same
  rw [InMemoryScheduleStore.listExecutions, PostgresScheduleStore.listExecutions, saved,
    if_neg (by decide), takeCount_eq (by decide) (by decide), Except.ok.injEq,
    reverse_append] at listed
  have perm : (orderBy scan StartedAfter (table.executions.rows.filter fun history =>
    history.scheduledTaskId == taskId)).Perm _ := orderBy_perm scan _
  have sorted : (orderBy scan StartedAfter (table.executions.rows.filter fun history =>
    history.scheduledTaskId == taskId)).Pairwise StartedAfter := pairwise_orderBy scan _
  cases rows : orderBy scan StartedAfter (table.executions.rows.filter fun history =>
      history.scheduledTaskId == taskId) with
  | nil =>
    rw [rows] at listed
    cases listed
  | cons first rest =>
    rw [rows] at listed perm sorted
    have same : last = first := (cons.inj listed).1
    subst same
    refine ⟨(mem_filter.mp (perm.subset mem_cons_self)).1, fun row member own => ?_⟩
    have kept := perm.symm.subset (mem_filter.mpr ⟨member, beq_iff_eq.mpr own⟩)
    rcases mem_cons.mp kept with rfl | later
    · exact le_rfl
    · exact (pairwise_cons.mp sorted).1 row later

end Apart

/-- Where the stores have matched, answer a call alike, and answer queries alike after it, the
call fits. -/
theorem Matches.fits (same : Matches columns memory table) (inRange : call.InRange)
    (agree : AgreeOn columns call memory table)
    (queries : ∀ query : ScheduleCall, query.IsQuery → query.InRange →
      AgreeOn columns query (memory.after call) (table.after columns call)) :
    call.Fits columns memory := by
  cases call with
  | loadTask id | listTasks enabledOnly | deleteTask id => exact trivial
  | listExecutions taskId limit =>
    by_contra negative
    have below : limit < 0 := not_le.mp negative
    obtain ⟨taskScan, scan, answers⟩ := agree
    have listed := executions.inj answers
    rw [PostgresScheduleStore.listExecutions, if_pos below] at listed
    cases listed
  | saveTask task =>
    have free : memory.tasks.Free task := by
      by_contra taken
      obtain ⟨taskScan, scan, answers⟩ := agree
      have tableTaken : ¬ table.tasks.Free (columns.taskRow task) := same.tasks ▸ taken
      have refused := done.inj answers
      rw [InMemoryScheduleStore.saveTask, dif_neg taken, PostgresScheduleStore.saveTask,
        dif_neg tableTaken] at refused
      cases refused
    have tableFree : table.tasks.Free (columns.taskRow task) := same.tasks ▸ free
    have inMemory : (memory.after (.saveTask task)).tasks = memory.tasks.append task free := by
      simp only [InMemoryScheduleStore.after, InMemoryScheduleStore.execute,
        InMemoryScheduleStore.saveTask, dif_pos free]
    have inTable : (table.after columns (.saveTask task)).tasks =
        table.tasks.append (columns.taskRow task) tableFree := by
      simp only [PostgresScheduleStore.after, execute,
        PostgresScheduleStore.saveTask, dif_pos tableFree]
    have loaded := (queries (.loadTask task.id) trivial trivial).loadTask
    rw [inMemory, inTable, load_append_self] at loaded
    have row : task = columns.taskRow task :=
      Option.some.inj (loaded.trans (load_append_self tableFree))
    refine ⟨(taskRow_eq_iff inRange).mp row.symm, fun stored member => ⟨free stored member, ?_⟩⟩
    have ordered := (queries (.listTasks false) trivial trivial).listTasks
    rw [InMemoryScheduleStore.listTasks, inMemory] at ordered
    simp only [Bool.not_false, Bool.true_or, filter_true, Table.rows_append] at ordered
    exact (pairwise_append.mp ordered).2.2 stored member task mem_cons_self
  | updateTask task =>
    intro stored member own
    have found : memory.tasks.load task.id = some stored := own ▸ load_of_mem member
    have tableFound : table.tasks.load task.id = some stored := same.tasks ▸ found
    have loaded := (queries (.loadTask task.id) trivial trivial).loadTask
    simp only [InMemoryScheduleStore.after, InMemoryScheduleStore.execute,
      InMemoryScheduleStore.updateTask, found, PostgresScheduleStore.after,
      execute, PostgresScheduleStore.updateTask, tableFound] at loaded
    rw [load_change_self found, load_change_self tableFound, Option.some.injEq] at loaded
    have created : task.createdAt = stored.createdAt := by
      have field := congrArg ScheduledTask.createdAt loaded
      exact field
    refine ⟨(taskRow_eq_iff inRange).mp ?_, created.symm⟩
    have held : columns.timestamptz task.createdAt = stored.createdAt := by
      rw [created]
      exact same.held stored member
    calc columns.taskRow task
        = { columns.taskRow task with id := stored.id, createdAt := stored.createdAt } := by
          rw [own, ← held]
          rfl
      _ = { task with id := stored.id } := loaded.symm
      _ = task := by rw [own]
  | saveExecution history =>
    obtain ⟨taskScan, scan, answers⟩ := agree
    have accepted := done.inj answers
    rw [InMemoryScheduleStore.saveExecution, PostgresScheduleStore.saveExecution] at accepted
    split_ifs at accepted with free known
    have inMemory : (memory.after (.saveExecution history)).executions =
        memory.executions ++ [history] := rfl
    have inTable : (table.after columns (.saveExecution history)).executions.rows =
        table.executions.rows ++ [columns.executionRow history] := by
      simp only [PostgresScheduleStore.after, execute,
        PostgresScheduleStore.saveExecution, dif_pos free, dif_pos known, Table.rows_append]
    have one : (0 : Int) ≤ 1 ∧ -2 ^ 63 ≤ (1 : Int) ∧ (1 : Int) < 2 ^ 63 := by decide
    have answered := queries (.listExecutions history.scheduledTaskId 1) one.1 one.2
    obtain ⟨stored, ordered⟩ := answered.listExecutions
      (memory.executions.filter fun other => other.scheduledTaskId == history.scheduledTaskId)
      history (by
        rw [inMemory, filter_append]
        simp only [filter_cons, beq_self_eq_true, if_true, filter_nil])
    rw [inTable] at stored ordered
    have row : columns.executionRow history = history := by
      rcases mem_append.mp stored with earlier | added
      · exact (free history earlier rfl).elim
      · exact (mem_singleton.mp added).symm
    refine ⟨executionRow_eq_iff.mp row, same.tasks ▸ known, fun other member => ?_⟩
    rw [same.executions] at member
    exact ⟨free other member, ordered other (mem_append_left _ member)⟩

theorem memoryAfter_snoc (earlier : List ScheduleCall) (call : ScheduleCall) :
    memoryAfter (earlier ++ [call]) = (memoryAfter earlier).after call := by
  simp only [memoryAfter, foldl_append, foldl_cons, foldl_nil]

theorem tableAfter_snoc (earlier : List ScheduleCall) (call : ScheduleCall) :
    tableAfter columns (earlier ++ [call]) = (tableAfter columns earlier).after columns call := by
  simp only [tableAfter, foldl_append, foldl_cons, foldl_nil]

/-- Every call of the list fits the store that it meets. -/
def AllFit (columns : Columns) (calls : List ScheduleCall) : Prop :=
  ∀ earlier call, earlier ++ [call] <+: calls → Fits columns (memoryAfter earlier) call

theorem matches_of_allFit (inRange : ∀ call ∈ calls, InRange call)
    (fit : AllFit columns calls) : Matches columns (memoryAfter calls) (tableAfter columns calls) := by
  induction calls using reverseRecOn with
  | nil => exact matches_empty
  | append_singleton earlier call ih =>
    rw [memoryAfter_snoc, tableAfter_snoc]
    have before := ih (fun other member => inRange other (mem_append_left _ member))
      fun first other within => fit first other (within.trans (prefix_append _ _))
    exact (before.step (inRange call (mem_append_right _ mem_cons_self))
      (fit earlier call prefix_rfl)).2

/-- The stores give the same answers exactly as long as every call fits. -/
theorem storesAgree_iff (inRange : ∀ call ∈ calls, InRange call) :
    StoresAgree columns calls ↔ AllFit columns calls := by
  constructor
  · intro agree
    induction calls using reverseRecOn with
    | nil =>
      intro earlier call within
      simp at within
    | append_singleton earlier call ih =>
      have before : AllFit columns earlier := ih
        (fun other member => inRange other (mem_append_left _ member))
        ⟨fun first other within => agree.1 first other (within.trans (prefix_append _ _)),
          fun first query within => agree.2 first query (within.trans (prefix_append _ _))⟩
      intro first other within
      rcases Transition.snoc_prefix_snoc within with ⟨rfl, rfl⟩ | inside
      · have matched := matches_of_allFit
          (fun other member => inRange other (mem_append_left _ member)) before
        apply matched.fits (inRange _ (mem_append_right _ mem_cons_self)) (agree.1 _ _ prefix_rfl)
        intro query isQuery queryInRange
        have answers := agree.2 _ query prefix_rfl isQuery queryInRange
        rw [memoryAfter_snoc, tableAfter_snoc] at answers
        exact answers
      · exact before first other inside
  · intro fit
    have matched : ∀ earlier, earlier <+: calls →
        Matches columns (memoryAfter earlier) (tableAfter columns earlier) := by
      intro earlier within
      exact matches_of_allFit (fun call member => inRange call (within.subset member))
        fun first call inside => fit first call (inside.trans within)
    constructor
    · intro earlier call within
      have before := matched earlier ((prefix_append _ _).trans within)
      exact (before.step (inRange call (within.subset (mem_append_right _ mem_cons_self)))
        (fit earlier call within)).1
    · intro earlier query within isQuery queryInRange
      exact (matched earlier within).agree_query isQuery queryInRange

def reviewRecord (id : Uuid) (startedAt : Instant) (status : ExecutionStatus) : ExecutionHistory where
  id := id
  scheduledTaskId := reviewTask.id
  startedAt := startedAt
  completedAt := some startedAt
  status := status
  resultSummary := none
  deferredReason := none

/-- Columns that hold every time. -/
def exactColumns : Columns := ⟨id, id⟩

theorem storesAgree_iff_recorded :
    StoresAgree exactColumns
      [.saveTask reviewTask, .saveExecution (reviewRecord "e-1" 60000000000 .completed)] := by
  have inRange : ∀ call ∈ ([.saveTask reviewTask,
      .saveExecution (reviewRecord "e-1" 60000000000 .completed)] : List ScheduleCall),
      InRange call := by
    intro call member
    simp only [mem_cons, not_mem_nil, or_false] at member
    rcases member with rfl | rfl
    · exact Nat.pos_of_ne_zero (by decide)
    · exact trivial
  apply (storesAgree_iff inRange).mpr
  rintro earlier call ⟨rest, same⟩
  match earlier with
  | [] =>
    cases same
    exact ⟨⟨fun _ _ => rfl, rfl, rfl⟩, fun _ member => (not_mem_nil member).elim⟩
  | [first] =>
    cases same
    exact ⟨fun _ _ => rfl, ⟨reviewTask, mem_cons_self, rfl⟩,
      fun _ member => (not_mem_nil member).elim⟩
  | first :: second :: others =>
    have lengths := congrArg length same
    simp at lengths

/-- A run that was missed is recorded at the moment that it was due, after a later attempt. -/
def backdated : List ScheduleCall :=
  [.saveTask reviewTask, .saveExecution (reviewRecord "e-1" 90000000000 .deferred),
    .saveExecution (reviewRecord "e-2" 60000000000 .skipped)]

/-- The latest record is the one that was saved last, or the one of the later attempt. -/
theorem storesAgree_fails_backdated :
    (∀ call ∈ backdated ++ [.listExecutions reviewTask.id 1], InRange call) ∧
      ¬ StoresAgree exactColumns (backdated ++ [.listExecutions reviewTask.id 1]) := by
  constructor
  · intro call member
    simp only [backdated, cons_append, nil_append, mem_cons, not_mem_nil, or_false] at member
    rcases member with rfl | rfl | rfl | rfl
    · exact Nat.pos_of_ne_zero (by decide)
    · exact trivial
    · exact trivial
    · exact ⟨by decide, by decide⟩
  · intro agree
    have latest := (agree.1 backdated _ prefix_rfl).listExecutions
      [reviewRecord "e-1" 90000000000 .deferred] (reviewRecord "e-2" 60000000000 .skipped)
      (by decide +kernel)
    have bounded := latest.2 (reviewRecord "e-1" 90000000000 .deferred) (by decide +kernel) rfl
    exact absurd bounded (by decide)

end UltimateCoders.Scheduler
