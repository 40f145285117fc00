import Mathlib.Data.String.Basic
import UltimateCoders.Runtime.RuntimeQuery
import UltimateCoders.Search.Latest

/-! # What queries return on both databases

On PostgreSQL a prefix finds the keys that begin with it. SQLite also finds the keys that differ
from these in the case of ASCII letters, and what it finds too much may also take the places that
the limit leaves. The two agree exactly where no such key comes into reach.
-/

namespace UltimateCoders.Runtime

open ContextManifestOutbox RuntimeState QueriedRecord List

def Begins (front text : String) : Prop := front.toList <+: text.toList

/-- The text begins with the front up to the case of ASCII letters. -/
def BeginsFolded (front text : String) : Prop :=
  front.toList.map Char.toLower <+: text.toList.map Char.toLower

instance (front text : String) : Decidable (Begins front text) :=
  inferInstanceAs (Decidable (_ <+: _))

instance (front text : String) : Decidable (BeginsFolded front text) :=
  inferInstanceAs (Decidable (_ <+: _))

theorem Begins.folded {front text : String} (begins : Begins front text) :
    BeginsFolded front text :=
  IsPrefix.map Char.toLower begins

variable {Data : Type}

namespace QueryRequest

def Asks (request : QueryRequest) (row : RuntimeRow Data) : Prop :=
  request.meetsColumns row = true ∧ ∀ front ∈ request.keyPrefix, Begins front row.recordKey

/-- The row is one that the query asks for, up to the case of its key. -/
def AsksFolded (request : QueryRequest) (row : RuntimeRow Data) : Prop :=
  request.meetsColumns row = true ∧ ∀ front ∈ request.keyPrefix, BeginsFolded front row.recordKey

instance (request : QueryRequest) (row : RuntimeRow Data) : Decidable (request.Asks row) :=
  inferInstanceAs (Decidable (_ ∧ _))

instance (request : QueryRequest) (row : RuntimeRow Data) : Decidable (request.AsksFolded row) :=
  inferInstanceAs (Decidable (_ ∧ _))

/-- The first records that the query asks for, in the order of their keys. -/
def matching (table : RuntimeTable Data) (request : QueryRequest) :
    Except String (List (QueriedRecord Data)) :=
  if 1 ≤ request.limit ∧ request.limit ≤ 1000 then
    .ok ((((table.rows request.space).filter fun row => request.Asks row).take
      request.limit.toNat).map RuntimeRow.queried)
  else .error "Query limit must be between 1 and 1000"

end QueryRequest

/-- The outbox finds the records of a task and no others. -/
structure OutboxAlone (taskOf : String → String) (database : Database) (table : RuntimeTable Data)
    (taskId : String) : Prop where
  history : ∀ subtaskId limit records,
    history database table taskId subtaskId limit = .ok records →
      ∀ record ∈ records, taskOf record.key = taskId
  taskHistory : ∀ limit records,
    taskHistory database table taskId limit = .ok records →
      ∀ record ∈ records, taskOf record.key = taskId
  total : ∀ subtaskId, total database table taskId subtaskId =
    (table.rows manifestNamespace).countP fun row =>
      Begins (manifestPrefix taskId subtaskId) row.recordKey ∧ taskOf row.recordKey = taskId
  recent : ∀ recordedAt subtaskId limit beforeKey records,
    recent database table recordedAt taskId subtaskId limit beforeKey =
      .ok records → ∀ record ∈ records, taskOf record.key = taskId

/-- A query means the same on both databases, and the outbox finds the records of a task only. -/
structure QueriesAgree (table : RuntimeTable Data) (request : QueryRequest)
    (taskOf : String → String) (taskId : String) : Prop where
  query : ∀ database, query database table request = request.matching table
  alone : ∀ database, OutboxAlone taskOf database table taskId

/-- No row within the limit has a key that only differs in case from what the query asks for. -/
def CaseApart (table : RuntimeTable Data) (request : QueryRequest) : Prop :=
  1 ≤ request.limit ∧ request.limit ≤ 1000 → ∀ row ∈ table.rows request.space,
    request.AsksFolded row →
      ((table.rows request.space).countP fun other =>
        other.recordKey < row.recordKey ∧ request.AsksFolded other) < request.limit.toNat →
      ∀ front ∈ request.keyPrefix, Begins front row.recordKey

/-- The keys that begin with what those of a task or of its subtasks begin with, up to case, begin
with it exactly and were recorded for the task. -/
def TaskApart (table : RuntimeTable Data) (taskOf : String → String) (taskId : String) : Prop :=
  ∀ row ∈ table.rows manifestNamespace, ∀ subtaskId,
    BeginsFolded (manifestPrefix taskId subtaskId) row.recordKey →
      Begins (manifestPrefix taskId subtaskId) row.recordKey ∧ taskOf row.recordKey = taskId

section Lists

variable {Item : Type} {items : List Item} {wide narrow : Item → Bool}

theorem take_filter_of_forall {count : Nat} (all : ∀ item ∈ items.take count, narrow item = true) :
    (items.filter narrow).take count = items.take count := by
  induction items generalizing count with
  | nil => rfl
  | cons item items ih =>
    cases count with
    | zero => rfl
    | succ count =>
      rw [take_succ_cons] at all ⊢
      rw [filter_cons_of_pos (all item mem_cons_self), take_succ_cons,
        ih fun other member => all other (mem_cons_of_mem _ member)]

theorem countP_eq_iff (implied : ∀ item ∈ items, narrow item = true → wide item = true) :
    items.countP wide = items.countP narrow ↔
      ∀ item ∈ items, wide item = true → narrow item = true := by
  induction items with
  | nil => simp
  | cons item items ih =>
    have rest := ih fun other member => implied other (mem_cons_of_mem _ member)
    have fewer : items.countP narrow ≤ items.countP wide :=
      countP_mono_left fun other member => implied other (mem_cons_of_mem _ member)
    have own := implied item mem_cons_self
    rw [countP_cons, countP_cons, forall_mem_cons, ← rest]
    cases wideHolds : wide item with
    | false =>
      have narrowFails : narrow item = false := by
        rw [wideHolds] at own
        exact Bool.eq_false_iff.mpr fun holds => Bool.false_ne_true (own holds)
      simp [narrowFails]
    | true =>
      cases narrow item with
      | true => simp
      | false =>
        simp only [if_true, Bool.false_eq_true, if_false, forall_const, false_and,
          iff_false]
        omega

theorem take_filter_eq_iff {Key Shown : Type} [LinearOrder Key] {key : Item → Key}
    {shown : Item → Shown}
    (sorted : items.Pairwise fun first second => key first < key second)
    (apart : ∀ first ∈ items, ∀ second ∈ items, shown first = shown second → first = second)
    (implied : ∀ item ∈ items, narrow item = true → wide item = true) (count : Nat) :
    ((items.filter wide).take count).map shown = ((items.filter narrow).take count).map shown ↔
      ∀ item ∈ items, wide item = true →
        items.countP (fun other => decide (key other < key item) && wide other) < count →
          narrow item = true := by
  have both : items.filter narrow = (items.filter wide).filter narrow := by
    rw [filter_filter]
    refine filter_congr fun item member => ?_
    rw [Bool.eq_iff_iff, Bool.and_eq_true]
    exact ⟨fun holds => ⟨holds, implied item member holds⟩, And.left⟩
  have reached (item : Item) : item ∈ (items.filter wide).take count ↔
      (item ∈ items ∧ wide item = true) ∧
        items.countP (fun other => decide (key other < key item) && wide other) < count := by
    rw [Search.mem_take_iff (sorted.filter _), mem_filter, countP_filter]
  constructor
  · intro same item member holds few
    have taken := mem_map_of_mem (f := shown) ((reached item).mpr ⟨⟨member, holds⟩, few⟩)
    rw [same] at taken
    obtain ⟨other, otherTaken, otherShown⟩ := mem_map.mp taken
    obtain ⟨otherMember, otherHolds⟩ := mem_filter.mp (mem_of_mem_take otherTaken)
    rwa [← apart other otherMember item member otherShown]
  · intro all
    rw [both]
    refine congrArg (map shown) (take_filter_of_forall fun item taken => ?_).symm
    obtain ⟨⟨member, holds⟩, few⟩ := (reached item).mp taken
    exact all item member holds few

end Lists

variable {row : RuntimeRow Data}

section Queries

variable {table : RuntimeTable Data} {request : QueryRequest}

theorem meetsPattern_iff {database : Database} :
    request.meetsPattern database row = true ↔ ∀ front ∈ request.keyPrefix,
      front.toList.map database.fold <+: row.recordKey.toList.map database.fold := by
  unfold QueryRequest.meetsPattern
  cases request.keyPrefix with
  | none => simp
  | some front => simp [Text.like_prefixPattern]

theorem meetsPattern_postgres : request.meetsPattern .postgres row = true ↔
      ∀ front ∈ request.keyPrefix, Begins front row.recordKey := by
  simp only [meetsPattern_iff, Database.fold, map_id, Begins]

theorem meetsPattern_sqlite : request.meetsPattern .sqlite row = true ↔
      ∀ front ∈ request.keyPrefix, BeginsFolded front row.recordKey :=
  meetsPattern_iff

theorem query_postgres (table : RuntimeTable Data) (request : QueryRequest) :
    query .postgres table request = request.matching table := by
  have same : (fun row : RuntimeRow Data =>
      request.meetsColumns row && request.meetsPattern .postgres row) =
        fun row => decide (request.Asks row) := by
    funext row
    rw [Bool.eq_iff_iff, Bool.and_eq_true, meetsPattern_postgres, decide_eq_true_iff]
    exact Iff.rfl
  simp only [query, QueryRequest.matching, same]

theorem queried_inj_on (table : RuntimeTable Data) (space : String) :
    ∀ first ∈ table.rows space, ∀ second ∈ table.rows space,
      first.queried = second.queried → first = second := by
  have apart : ((table.rows space).map RuntimeRow.recordKey).Nodup :=
    pairwise_map.mpr ((table.ordered space).imp ne_of_lt)
  intro first firstMember second secondMember same
  have keys := congrArg key same
  rw [table.queried_key firstMember, table.queried_key secondMember] at keys
  exact inj_on_of_nodup_map apart firstMember secondMember keys

theorem query_sqlite_iff :
    query .sqlite table request = request.matching table ↔
      CaseApart table request := by
  have same : (fun row : RuntimeRow Data =>
      request.meetsColumns row && request.meetsPattern .sqlite row) =
        fun row => decide (request.AsksFolded row) := by
    funext row
    rw [Bool.eq_iff_iff, Bool.and_eq_true, meetsPattern_sqlite, decide_eq_true_iff]
    exact Iff.rfl
  have implied (row : RuntimeRow Data) (asked : decide (request.Asks row) = true) :
      decide (request.AsksFolded row) = true := by
    rw [decide_eq_true_iff] at asked ⊢
    exact ⟨asked.1, fun front found => (asked.2 front found).folded⟩
  have taken := take_filter_eq_iff (table.ordered request.space)
    (queried_inj_on table request.space) (fun row _ => implied row) request.limit.toNat
  unfold query QueryRequest.matching CaseApart
  by_cases bounded : 1 ≤ request.limit ∧ request.limit ≤ 1000
  · rw [if_pos bounded, if_pos bounded, same, Except.ok.injEq, taken]
    simp only [bounded, decide_eq_true_eq, Bool.decide_and, true_and, true_implies]
    refine forall₄_congr fun row member asked few => ?_
    exact ⟨And.right, fun begins => ⟨asked.1, begins⟩⟩
  · simp [bounded]

end Queries

section Outbox

variable {taskOf : String → String} {database : Database} {table : RuntimeTable Data}
  {taskId front : String}

/-- The row is found by a prefix. -/
def Database.Finds (database : Database) (front : String) (row : RuntimeRow Data) : Prop :=
  front.toList.map database.fold <+: row.recordKey.toList.map database.fold

instance (database : Database) (front : String) (row : RuntimeRow Data) :
    Decidable (database.Finds front row) :=
  inferInstanceAs (Decidable (_ <+: _))

theorem Database.Finds.folded (finds : database.Finds front row) :
    BeginsFolded front row.recordKey := by
  cases database with
  | sqlite => exact finds
  | postgres =>
    simp only [Database.Finds, Database.fold, map_id] at finds
    exact Begins.folded finds

theorem Begins.finds (begins : Begins front row.recordKey) : database.Finds front row :=
  IsPrefix.map database.fold begins

theorem BeginsFolded.ofAppend {second key : String} (begins : BeginsFolded (front ++ second) key) :
    BeginsFolded front key := by
  refine IsPrefix.trans ?_ begins
  rw [String.toList_append, map_append]
  exact prefix_append _ _

def found (database : Database) (table : RuntimeTable Data) (front : String) :
    List (QueriedRecord Data) :=
  ((table.rows manifestNamespace).filter fun row => database.Finds front row).map RuntimeRow.queried

theorem found_sorted : (found database table front).Pairwise fun first second =>
    first.key < second.key := by
  refine pairwise_map.mpr (((table.ordered manifestNamespace).filter _).imp_of_mem ?_)
  intro first second firstMem secondMem below
  rwa [table.queried_key (mem_filter.mp firstMem).1, table.queried_key (mem_filter.mp secondMem).1]

open ContextManifestOutbox

theorem query_request (after : String) (limit : Int) :
    query database table (request front after limit) =
      if 1 ≤ limit ∧ limit ≤ 1000 then
        .ok ((Search.itemsAfter key (found database table front) after).take limit.toNat)
      else .error "Query limit must be between 1 and 1000" := by
  have same : (fun row : RuntimeRow Data => (request front after limit).meetsColumns row &&
      (request front after limit).meetsPattern database row) =
        fun row => decide (after < row.recordKey) && decide (database.Finds front row) := by
    funext row
    rw [Bool.eq_iff_iff, Bool.and_eq_true, Bool.and_eq_true, meetsPattern_iff,
      decide_eq_true_iff, decide_eq_true_iff]
    refine and_congr ?_ ?_
    · simp [QueryRequest.meetsColumns, request]
    · simp [request, Database.Finds]
  have later : (table.rows manifestNamespace).filter (fun row =>
      decide (after < row.recordKey) && decide (database.Finds front row)) =
      (table.rows manifestNamespace).filter fun row =>
        decide (after < row.queried.key) && decide (database.Finds front row) :=
    filter_congr fun row member => by rw [table.queried_key member]
  unfold query
  rw [same]
  simp only [request, found, Search.itemsAfter, filter_map, filter_filter, map_take, later]
  rfl

theorem page_eq (after : String) : page database table front after =
    (Search.itemsAfter key (found database table front) after).take scanPage := by
  unfold page
  rw [query_request]
  rfl

theorem scan_eq (starts : front ≠ "") :
    scan database table front = found database table front := by
  have whole : Search.itemsAfter key (found database table front) "" =
      found database table front := by
    rw [Search.itemsAfter, filter_eq_self]
    intro record member
    obtain ⟨row, rowFound, rfl⟩ := mem_map.mp member
    rw [table.queried_key (mem_filter.mp rowFound).1]
    have finds := (of_decide_eq_true (mem_filter.mp rowFound).2).length_le
    rw [length_map, length_map] at finds
    have long : 0 < front.toList.length := length_pos_iff.mpr (by simpa using starts)
    rw [decide_eq_true_iff, String.lt_iff_toList_lt]
    cases chars : row.recordKey.toList with
    | nil =>
      rw [chars] at finds
      exact absurd finds (Nat.not_le_of_lt long)
    | cons head tail => exact (by simp)
  have enough : (Search.itemsAfter key (found database table front) "").length <
      (table.rows manifestNamespace).length + 1 := by
    rw [whole, found, length_map]
    exact Nat.lt_succ_of_le (length_filter_le _ _)
  rw [scan, Search.pages_eq found_sorted (by decide) page_eq enough, whole]

theorem manifestPrefix_some (taskId subtaskId : String) :
    ∃ rest, manifestPrefix taskId (some subtaskId) = manifestPrefix taskId none ++ rest := by
  unfold manifestPrefix
  by_cases missing : subtaskId = ""
  · exact ⟨"", by simp [missing]⟩
  · exact ⟨subtaskId ++ ":", by simp [missing, String.append_assoc]⟩

theorem manifestPrefix_ne_empty (taskId : String) (subtaskId : Option String) :
    manifestPrefix taskId subtaskId ≠ "" := by
  have scope : manifestPrefix taskId none ≠ "" := by simp [manifestPrefix]
  cases subtaskId with
  | none => exact scope
  | some subtaskId =>
    obtain ⟨rest, split⟩ := manifestPrefix_some taskId subtaskId
    rw [split]
    exact fun empty => scope (by simp_all)

theorem mem_found {record : QueriedRecord Data} (member : record ∈ found database table front) :
    ∃ row ∈ table.rows manifestNamespace, BeginsFolded front row.recordKey ∧
      record.key = row.recordKey := by
  obtain ⟨row, rowFound, rfl⟩ := mem_map.mp member
  obtain ⟨stored, finds⟩ := mem_filter.mp rowFound
  exact ⟨row, stored, (of_decide_eq_true finds).folded, table.queried_key stored⟩

theorem mem_found_of_query {after : String} {limit : Int} {records : List (QueriedRecord Data)}
    (returned : query database table (request front after limit) = .ok records) :
    ∀ record ∈ records, record ∈ found database table front := by
  rw [query_request] at returned
  split at returned
  · obtain rfl := Except.ok.inj returned
    exact fun record member => (mem_filter.mp (mem_of_mem_take member)).1
  · cases returned

theorem mem_scan_of_recent {recordedAt : Data → ℚ} {subtaskId : Option String} {limit : Int}
    {beforeKey : Option String} {records : List (QueriedRecord Data)}
    (returned : recent database table recordedAt taskId subtaskId limit beforeKey = .ok records) :
    ∀ record ∈ records, record ∈ scan database table (manifestPrefix taskId subtaskId) := by
  intro record member
  unfold recent at returned
  split at returned
  · cases returned
  · split at returned
    · cases returned
    · cases beforeKey with
      | none =>
        obtain rfl := Except.ok.inj returned
        exact mem_mergeSort.mp (mem_of_mem_take member)
      | some cursor =>
        simp only at returned
        split at returned
        · rename_i anchor rest dropped
          obtain rfl := Except.ok.inj returned
          have later : record ∈ anchor :: rest :=
            mem_cons_of_mem _ (mem_of_mem_take member)
          rw [← dropped] at later
          exact mem_mergeSort.mp ((dropWhile_suffix _).subset later)
        · cases returned

theorem total_eq (subtaskId : Option String) : total database table taskId subtaskId =
    (table.rows manifestNamespace).countP fun row =>
      database.Finds (manifestPrefix taskId subtaskId) row := by
  rw [total, scan_eq (manifestPrefix_ne_empty taskId subtaskId), found, length_map,
    countP_eq_length_filter]

/-- The count is the one of the task where nothing else is found. -/
theorem total_eq_iff (subtaskId : Option String) :
    (total database table taskId subtaskId = (table.rows manifestNamespace).countP fun row =>
      Begins (manifestPrefix taskId subtaskId) row.recordKey ∧ taskOf row.recordKey = taskId) ↔
      ∀ row ∈ table.rows manifestNamespace,
        database.Finds (manifestPrefix taskId subtaskId) row →
          Begins (manifestPrefix taskId subtaskId) row.recordKey ∧
            taskOf row.recordKey = taskId := by
  rw [total_eq, countP_eq_iff]
  · simp only [decide_eq_true_iff]
  · intro row _ own
    rw [decide_eq_true_iff] at own ⊢
    exact own.1.finds

theorem outboxAlone_of_apart (apart : TaskApart table taskOf taskId) (database : Database) :
    OutboxAlone taskOf database table taskId := by
  have task {record : QueriedRecord Data}
      (member : record ∈ found database table (manifestPrefix taskId none)) :
      taskOf record.key = taskId := by
    obtain ⟨row, stored, begins, same⟩ := mem_found member
    rw [same]
    exact (apart row stored none begins).2
  constructor
  case history =>
    intro subtaskId limit records returned record member
    obtain ⟨row, stored, begins, same⟩ := mem_found (mem_found_of_query returned record member)
    rw [String.append_assoc] at begins
    rw [same]
    exact (apart row stored none begins.ofAppend).2
  case taskHistory =>
    intro limit records returned record member
    exact task (mem_found_of_query returned record member)
  case total =>
    intro subtaskId
    exact (total_eq_iff subtaskId).mpr fun row stored finds =>
      apart row stored subtaskId finds.folded
  case recent =>
    intro recordedAt subtaskId limit beforeKey records returned record member
    have scanned := mem_scan_of_recent returned record member
    rw [scan_eq (manifestPrefix_ne_empty taskId subtaskId)] at scanned
    obtain ⟨row, stored, begins, same⟩ := mem_found scanned
    rw [same]
    exact (apart row stored subtaskId begins).2

end Outbox

/-- Queries mean the same on both databases exactly where no key comes into reach that differs
from what is asked for in the case of letters only, and none in the scope of the task belongs to
another. -/
theorem queriesAgree_iff (table : RuntimeTable Data) (request : QueryRequest)
    (taskOf : String → String) (taskId : String) :
    QueriesAgree table request taskOf taskId ↔
      CaseApart table request ∧ TaskApart table taskOf taskId := by
  constructor
  · intro agree
    refine ⟨query_sqlite_iff.mp (agree.query .sqlite), fun row stored subtaskId begins => ?_⟩
    exact (total_eq_iff subtaskId).mp ((agree.alone .sqlite).total subtaskId) row stored begins
  · rintro ⟨caseApart, taskApart⟩
    refine ⟨fun database => ?_, outboxAlone_of_apart taskApart⟩
    cases database with
    | sqlite => exact query_sqlite_iff.mpr caseApart
    | postgres => exact query_postgres table request

/-- A record of the task `Task`. -/
def capitalTable : RuntimeTable Unit where
  rows space := if space = manifestNamespace then
    [{ recordKey := manifestKey "Task" "s" 0, data := () }] else []
  ordered space := by split <;> simp
  plain space := by split <;> simp

/-- On SQLite the history of the task `task` shows what was recorded for the task `Task`. -/
theorem queriesAgree_fails_capital : ¬ QueriesAgree capitalTable
    (request "task:" "" 100)
    (fun key => if key = manifestKey "Task" "s" 0 then "Task" else "") "task" := by
  intro agree
  have returned : taskHistory .sqlite capitalTable "task" 100 =
      .ok [{ key := manifestKey "Task" "s" 0, data := () }] := by decide +kernel
  have own := (agree.alone .sqlite).taskHistory 100 _ returned _ mem_cons_self
  exact absurd own (by decide +kernel)

end UltimateCoders.Runtime
