import Mathlib.Data.String.Basic

/-! # Node states and status tokens

The nine canonical node states with their legal edges, and the token
vocabulary of the `graph_nodes.state` column. The column holds text: an
imported row may carry a token outside the nine states, and the transition
guard refuses to move such a row.
-/

namespace UltimateCoders.Graph

/-- Canonical graph-node states. -/
inductive NodeStatus where
  | created
  | ready
  | scheduled
  | running
  | waiting
  | succeeded
  | failed
  | cancelled
  | skipped
  deriving DecidableEq

namespace NodeStatus

/-- The token stored in `graph_nodes.state`. -/
def asStr : NodeStatus → String
  | created => "CREATED"
  | ready => "READY"
  | scheduled => "SCHEDULED"
  | running => "RUNNING"
  | waiting => "WAITING"
  | succeeded => "SUCCEEDED"
  | failed => "FAILED"
  | cancelled => "CANCELLED"
  | skipped => "SKIPPED"

/-- Parse an exact state token. -/
def fromToken (token : String) : Option NodeStatus :=
  match token with
  | "CREATED" => some created
  | "READY" => some ready
  | "SCHEDULED" => some scheduled
  | "RUNNING" => some running
  | "WAITING" => some waiting
  | "SUCCEEDED" => some succeeded
  | "FAILED" => some failed
  | "CANCELLED" => some cancelled
  | "SKIPPED" => some skipped
  | _ => none

/-- Terminal states have no outgoing edges. -/
def isTerminal : NodeStatus → Bool
  | succeeded | cancelled | skipped => true
  | _ => false

@[simp] theorem fromToken_asStr (status : NodeStatus) : fromToken status.asStr = some status := by
  cases status <;> rfl

theorem asStr_injective : Function.Injective asStr := by
  intro first second same
  have parsed := congrArg fromToken same
  rw [fromToken_asStr, fromToken_asStr] at parsed
  exact Option.some.inj parsed

@[simp] theorem asStr_inj {first second : NodeStatus} :
    first.asStr = second.asStr ↔ first = second :=
  asStr_injective.eq_iff

theorem asStr_of_fromToken {token : String} {status : NodeStatus}
    (parsed : fromToken token = some status) : token = status.asStr := by
  unfold fromToken at parsed
  split at parsed <;> first | cases parsed; rfl | cases parsed

end NodeStatus

/-- The complete list of legal node transitions. -/
def legalEdges : List (NodeStatus × NodeStatus) :=
  [(.created, .ready),
    (.created, .cancelled),
    (.created, .skipped),
    (.ready, .scheduled),
    (.ready, .cancelled),
    (.ready, .skipped),
    (.scheduled, .running),
    (.scheduled, .ready),
    (.scheduled, .cancelled),
    (.running, .waiting),
    (.running, .succeeded),
    (.running, .failed),
    (.running, .ready),
    (.running, .cancelled),
    (.waiting, .running),
    (.waiting, .failed),
    (.failed, .ready)]

/-- Whether `source → target` is a legal node transition. -/
def canTransition (source target : NodeStatus) : Bool :=
  legalEdges.contains (source, target)

theorem canTransition_terminal {source target : NodeStatus} (terminal : source.isTerminal = true) :
    canTransition source target = false := by
  revert terminal
  cases source <;> cases target <;> decide

/-- Whether a move between two state tokens is legal. Tokens outside the nine
states never allow a move. -/
def transitionOk (source target : String) : Bool :=
  match NodeStatus.fromToken source, NodeStatus.fromToken target with
  | some first, some second => canTransition first second
  | _, _ => false

theorem exists_edge_of_transitionOk {source target : String}
    (ok : transitionOk source target = true) :
    ∃ first second : NodeStatus, source = first.asStr ∧ target = second.asStr ∧
      canTransition first second = true := by
  unfold transitionOk at ok
  split at ok
  · rename_i first second parsedSource parsedTarget
    exact ⟨first, second, NodeStatus.asStr_of_fromToken parsedSource,
      NodeStatus.asStr_of_fromToken parsedTarget, ok⟩
  · exact (Bool.false_ne_true ok).elim

theorem exists_source_of_transitionOk {source : String} {target : NodeStatus}
    (ok : transitionOk source target.asStr = true) :
    ∃ first : NodeStatus, source = first.asStr ∧ canTransition first target = true := by
  obtain ⟨first, second, rfl, same, edge⟩ := exists_edge_of_transitionOk ok
  rw [NodeStatus.asStr_injective same]
  exact ⟨first, rfl, edge⟩

/-- May a best-effort mirror write touch a node in `prevState` when its
snapshot claims `mirrorState`? -/
def mirrorWriteAllowed (prevState mirrorState : String) : Bool :=
  prevState == mirrorState || transitionOk prevState mirrorState

/-- Normalize a status string of any legacy vocabulary into lowercase snake. -/
def normalizeStatusToken (raw : String) : String :=
  String.ofList (raw.toList.foldl push [])
where
  /-- The characters one more input character appends. -/
  push (out : List Char) (ch : Char) : List Char :=
    if ch.isUpper then (if out.isEmpty then out else out ++ ['_']) ++ [ch.toLower]
    else if ch = '-' ∨ ch = ' ' then out ++ ['_']
    else out ++ [ch.toLower]

/-- Map a task or subtask status string to a node state token. Unknown inputs
pass through in upper case. -/
def nodeStateToken (raw : String) : String :=
  match normalizeStatusToken raw with
  | "pending" | "ready" => "READY"
  | "assigned" | "in_progress" | "running" | "reviewing" => "RUNNING"
  | "completed" | "succeeded" => "SUCCEEDED"
  | "failed" => "FAILED"
  | "conflicted" => "FAILED"
  | "cancelled" | "canceled" => "CANCELLED"
  | "paused" => "PAUSED"
  | other => other.map Char.toUpper

/-- Map a task status string to an `execution_graphs.status` token. -/
def graphStatusToken (raw : String) : String :=
  match normalizeStatusToken raw with
  | "created" => "CREATED"
  | "planning" => "PLANNING"
  | other => nodeStateToken other

end UltimateCoders.Graph
