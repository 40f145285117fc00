import UltimateCoders.Graph.Tables
import UltimateCoders.Transition.Interleaving

/-! # Merge grants

The gateway authorizes a merge by a grant that is bound to the outputs of the
succeeded nodes, and consumes it when the arbiter reports the outcome. Both
calls are read-then-write without a transaction, so each is modeled as a program
of single statements. The digest of the grant key is a parameter.
-/

namespace UltimateCoders.Graph

open Relational Transition

/-- Decision on an `IssueMergeGrant` request. -/
structure MergeGrantDecision where
  granted : Bool
  mergeIdempotencyKey : String
  idempotentReplay : Bool
  error : String
  deriving DecidableEq

/-- Decision on a `ReportMergeOutcome` request. -/
structure MergeReportDecision where
  accepted : Bool
  idempotentReplay : Bool
  deriving DecidableEq

/-- Leading characters of the digest that make up the key. -/
def mergeKeyLen : Nat := 32

variable (tables : Tables)

section Key

variable (sha256Hex : String → String)

/-- The key of a graph and the output digests of its succeeded nodes. -/
def deriveMergeIdempotencyKey (graphId : String) (succeeded : List (String × String)) : String :=
  let ordered := succeeded.insertionSort fun first second => first.1 ≤ second.1
  let csv := ordered.map Prod.fst
  let pairs := ordered.map fun pair => pair.1 ++ "=" ++ pair.2
  let preimage := "merge:" ++ graphId ++ ":" ++ String.intercalate "," csv ++ ":" ++
    String.intercalate ";" pairs
  String.ofList ((sha256Hex preimage).toList.take mergeKeyLen)

/-- The succeeded nodes of a graph with the results committed for them. -/
def Tables.succeededOutputs (graphId : String) : List (String × Option String) :=
  (tables.nodes.rows.filter fun node => node.graphId = graphId ∧ node.state = "SUCCEEDED").map
    fun node => (node.nodeId, (tables.completions.rows.find? fun completion =>
      completion.nodeId = node.nodeId ∧ completion.graphId = node.graphId).bind
        NodeCompletion.resultRef)

/-- The key the graph derives in its current state. -/
def Tables.mergeKey (tables : Tables) (graphId : String) : String :=
  deriveMergeIdempotencyKey sha256Hex graphId
    ((tables.succeededOutputs graphId).map fun pair => (pair.1, sha256Hex (pair.2.getD "")))

end Key

namespace Tables

def grant? (graphId : String) : Option MergeGrant :=
  tables.grants.rows.find? fun grant => grant.graphId = graphId

def statesOf (graphId : String) : List String :=
  (tables.nodes.rows.filter fun node => node.graphId = graphId).map GraphNode.state

/-- `INSERT … ON CONFLICT (graph_id) DO UPDATE`: a fresh unconsumed grant. -/
def upsertGrant (graphId key : String) (now : Timestamp) : Tables :=
  if (tables.grant? graphId).isNone then
    { tables with
      grants := tables.grants.insertOrIgnore {
        graphId := graphId
        mergeIdempotencyKey := key
        issuedAt := now
        consumedAt := none
        outcome := none } }
  else
    { tables with
      grants := tables.grants.update
        (fun grant => if grant.graphId = graphId then
          { grant with
            mergeIdempotencyKey := key
            issuedAt := now
            consumedAt := none
            outcome := none } else grant)
        (by intro first second same; unfold MergeGrant.Clash at *; grind) }

/-- `UPDATE merge_grants … WHERE … consumed_at IS NULL`. -/
def consumeGrant (graphId key : String) (outcome : MergeOutcomeReport) (now : Timestamp) : Tables :=
  { tables with
    grants := tables.grants.update
      (fun grant => if grant.graphId = graphId ∧ grant.mergeIdempotencyKey = key ∧
          grant.consumedAt = none then
        { grant with consumedAt := some now, outcome := some outcome } else grant)
      (by intro first second same; unfold MergeGrant.Clash at *; grind) }

end Tables

/-- Where a merge call stands: the statement it runs next, or what it returned. -/
inductive MergeCall where
  /-- Issuing, before the quiescence check. -/
  | issuing (graphId : String)
  /-- Issuing, before the scan of the succeeded nodes. -/
  | quiescent (graphId : String)
  /-- Issuing, before the current grant is read. -/
  | keyed (graphId key : String)
  /-- Issuing, before the grant row is written. -/
  | upserting (graphId key : String)
  | issued (decision : MergeGrantDecision)
  /-- Reporting, before the current grant is read. -/
  | reporting (graphId key : String) (outcome : MergeOutcomeReport)
  /-- Reporting, before the grant is consumed. -/
  | consuming (graphId key : String) (outcome : MergeOutcomeReport)
  | reported (decision : MergeReportDecision)
  deriving DecidableEq

/-- What merge calls do to the outside: a grant row is written, or a report
returns, at a moment when the graph derives the key `current`. -/
inductive MergeEvent where
  | issued (graphId key : String)
  | reported (graphId key : String) (decision : MergeReportDecision) (current : String)
  deriving DecidableEq

/-- The states that count as settled for a merge. -/
def mergeTerminal : List String := ["SUCCEEDED", "FAILED", "CANCELLED"]

def MergeGrantDecision.refusal (error : String) : MergeGrantDecision where
  granted := false
  mergeIdempotencyKey := ""
  idempotentReplay := false
  error := error

def mergeAdvance (sha256Hex : String → String) (now : Timestamp) (call : MergeCall)
    (tables : Tables) : Statement Tables MergeCall MergeEvent :=
  match call with
  | .issuing graphId =>
    let states := tables.statesOf graphId
    if states.any fun state => !mergeTerminal.contains state then
      ⟨.issued (.refusal ("graph " ++ graphId ++
        " is not quiescent (non-terminal nodes present)")), tables, []⟩
    else if states.isEmpty then
      ⟨.issued (.refusal ("graph " ++ graphId ++ " not found")), tables, []⟩
    else ⟨.quiescent graphId, tables, []⟩
  | .quiescent graphId => ⟨.keyed graphId (tables.mergeKey sha256Hex graphId), tables, []⟩
  | .keyed graphId key =>
    match tables.grant? graphId with
    | some grant =>
      if grant.mergeIdempotencyKey = key then
        ⟨.issued ⟨true, key, grant.consumedAt.isSome, ""⟩, tables, []⟩
      else ⟨.upserting graphId key, tables, []⟩
    | none => ⟨.upserting graphId key, tables, []⟩
  | .upserting graphId key =>
    ⟨.issued ⟨true, key, false, ""⟩, tables.upsertGrant graphId key now, [.issued graphId key]⟩
  | .reporting graphId key outcome =>
    let current := tables.mergeKey sha256Hex graphId
    match tables.grant? graphId with
    | none => ⟨.reported ⟨false, false⟩, tables, [.reported graphId key ⟨false, false⟩ current]⟩
    | some grant =>
      if grant.mergeIdempotencyKey ≠ key then
        ⟨.reported ⟨false, false⟩, tables, [.reported graphId key ⟨false, false⟩ current]⟩
      else if grant.consumedAt.isSome then
        ⟨.reported ⟨true, true⟩, tables, [.reported graphId key ⟨true, true⟩ current]⟩
      else ⟨.consuming graphId key outcome, tables, []⟩
  | .consuming graphId key outcome =>
    -- the row count of the update is not looked at
    ⟨.reported ⟨true, false⟩, tables.consumeGrant graphId key outcome now,
      [.reported graphId key ⟨true, false⟩ (tables.mergeKey sha256Hex graphId)]⟩
  | .issued decision => ⟨.issued decision, tables, []⟩
  | .reported decision => ⟨.reported decision, tables, []⟩

end UltimateCoders.Graph
