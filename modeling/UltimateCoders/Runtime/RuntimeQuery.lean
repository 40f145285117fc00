import Mathlib.Algebra.Order.Ring.Rat
import UltimateCoders.Search.Pages
import UltimateCoders.Text.Like

/-! # Queries of the runtime state

One statement is put to SQLite or to PostgreSQL. It filters the records of a namespace, with a
pattern for the keys that begin with a prefix, and returns the first ones in the order of their
keys. The snapshots of context compilations are found by such prefixes.
-/

namespace UltimateCoders.Runtime

inductive Database where
  | sqlite
  | postgres
  deriving DecidableEq

/-- How `LIKE` compares characters: SQLite takes the two cases of an ASCII letter for the same. -/
def Database.fold : Database → Char → Char
  | sqlite => Char.toLower
  | postgres => id

/-- A row of `uc_runtime_records`, without its namespace, and the entry `key` of its data, if any. -/
structure RuntimeRow (Data : Type) where
  recordKey : String
  data : Data
  dataKey : Option String := none
  recordState : String := ""
  taskId : String := ""
  workspace : String := ""
  nextRetryAt : ℚ := 0
  deliveredAt : ℚ := 0

/-- The rows of each namespace in the order of their keys, of which no two are the same. Nothing that
writes a row gives its data an entry `key`. -/
structure RuntimeTable (Data : Type) where
  rows : String → List (RuntimeRow Data)
  ordered : ∀ space, (rows space).Pairwise fun first second => first.recordKey < second.recordKey
  plain : ∀ space, ∀ row ∈ rows space, row.dataKey = none

structure QueryRequest where
  space : String
  status : Option String := none
  taskId : Option String := none
  taskIdPresent : Bool := false
  after : String := ""
  limit : Int := 100
  due : Bool := false
  now : ℚ := 0
  workspace : Option String := none
  keyPrefix : Option String := none
  deliveredBefore : Option ℚ := none

structure QueriedRecord (Data : Type) where
  key : String
  data : Data
  deriving DecidableEq

variable {Data : Type}

/-- `{"key": key, **data}`: an entry `key` of the data takes the place of the key. -/
def RuntimeRow.queried (row : RuntimeRow Data) : QueriedRecord Data where
  key := row.dataKey.getD row.recordKey
  data := row.data

theorem RuntimeTable.queried_key (table : RuntimeTable Data) {space : String} {row : RuntimeRow Data}
    (member : row ∈ table.rows space) : row.queried.key = row.recordKey := by
  rw [RuntimeRow.queried, table.plain space row member, Option.getD_none]

namespace QueryRequest

/-- The conditions on the columns other than the pattern. -/
def meetsColumns (request : QueryRequest) (row : RuntimeRow Data) : Bool :=
  decide (request.after < row.recordKey) &&
    (!request.taskIdPresent || decide ("" < row.taskId)) &&
    request.status.all (· == row.recordState) &&
    request.taskId.all (· == row.taskId) &&
    request.workspace.all (· == row.workspace) &&
    (!request.due || decide (row.nextRetryAt ≤ request.now)) &&
    request.deliveredBefore.all fun moment => decide (row.deliveredAt ≤ moment)

/-- `record_key LIKE … ESCAPE '!'`. -/
def meetsPattern (database : Database) (request : QueryRequest) (row : RuntimeRow Data) : Bool :=
  request.keyPrefix.all fun front =>
    Text.like database.fold (Text.prefixPattern front.toList) row.recordKey.toList

end QueryRequest

namespace RuntimeState

def query (database : Database) (table : RuntimeTable Data) (request : QueryRequest) :
    Except String (List (QueriedRecord Data)) :=
  if 1 ≤ request.limit ∧ request.limit ≤ 1000 then
    .ok ((((table.rows request.space).filter fun row =>
      request.meetsColumns row && request.meetsPattern database row).take
        request.limit.toNat).map RuntimeRow.queried)
  else .error "Query limit must be between 1 and 1000"

end RuntimeState

def manifestNamespace : String := "context_manifest"

/-- `SCAN_PAGE`. -/
def scanPage : Nat := 1000

def manifestKey (taskId subtaskId : String) (attempt : Int) : String :=
  taskId ++ ":" ++ subtaskId ++ ":" ++ toString attempt

/-- What the keys in the scope of a task, or of a subtask, begin with. -/
def manifestPrefix (taskId : String) (subtaskId : Option String) : String :=
  match subtaskId with
  | some subtaskId => if subtaskId = "" then taskId ++ ":" else taskId ++ ":" ++ subtaskId ++ ":"
  | none => taskId ++ ":"

inductive ManifestError where
  | value (message : String)
  | cursorNotFound (cursor : String)
  deriving DecidableEq

namespace ContextManifestOutbox

variable (database : Database) (table : RuntimeTable Data)

/-- The query that the outbox makes. -/
def request (keyPrefix after : String) (limit : Int) : QueryRequest where
  space := manifestNamespace
  after := after
  limit := limit
  keyPrefix := some keyPrefix

def history (taskId subtaskId : String) (limit : Int) : Except String (List (QueriedRecord Data)) :=
  RuntimeState.query database table (request (taskId ++ ":" ++ subtaskId ++ ":") "" limit)

def taskHistory (taskId : String) (limit : Int) : Except String (List (QueriedRecord Data)) :=
  RuntimeState.query database table (request (taskId ++ ":") "" limit)

def page (keyPrefix after : String) : List (QueriedRecord Data) :=
  match RuntimeState.query database table (request keyPrefix after scanPage) with
  | .ok records => records
  | .error _ => []

/-- The walk over a prefix; there cannot be more pages than rows, and one that is not full. -/
def scan (keyPrefix : String) : List (QueriedRecord Data) :=
  Search.pages QueriedRecord.key scanPage (page database table keyPrefix)
    ((table.rows manifestNamespace).length + 1) ""

def total (taskId : String) (subtaskId : Option String) : Nat :=
  (scan database table (manifestPrefix taskId subtaskId)).length

variable (recordedAt : Data → ℚ)

/-- The newest first, and of the same time the ones with the smaller keys. -/
def newestFirst (first second : QueriedRecord Data) : Bool :=
  decide (recordedAt second.data < recordedAt first.data) ||
    (recordedAt first.data == recordedAt second.data && decide (first.key ≤ second.key))

def recent (taskId : String) (subtaskId : Option String) (limit : Int) (beforeKey : Option String) :
    Except ManifestError (List (QueriedRecord Data)) :=
  if ¬ (1 ≤ limit ∧ limit ≤ 1000) then
    .error (.value "Query limit must be between 1 and 1000")
  else if beforeKey = some "" then .error (.value "Cursor must be a non-empty key string")
  else
    let window := (scan database table (manifestPrefix taskId subtaskId)).mergeSort
      (newestFirst recordedAt)
    match beforeKey with
    | none => .ok (window.take limit.toNat)
    | some cursor =>
      match window.dropWhile fun record => record.key ≠ cursor with
      | _ :: rest => .ok (rest.take limit.toNat)
      | [] => .error (.cursorNotFound cursor)

end ContextManifestOutbox

end UltimateCoders.Runtime
