import UltimateCoders.Graph.CommitOnce

/-! # Node states move along legal edges

From arbitrary tables, each transaction of the store keeps every stored node
and moves it along one legal edge at most, two for a dispatch. The version
counts the edges, and terminal states are kept forever.
-/

namespace UltimateCoders.Graph

open Relational Transition NodeStatus

def GraphNode.Unmoved (before after : GraphNode) : Prop :=
  after.state = before.state ∧ after.version = before.version

open GraphNode

/-- One legal edge, counted in the version. -/
def GraphNode.MovedAlong (source target : NodeStatus) (before after : GraphNode) : Prop :=
  canTransition source target = true ∧ before.state = source.asStr ∧
    after.state = target.asStr ∧ after.version = before.version + 1

/-- The two legal edges of a dispatch, counted in the version. -/
def GraphNode.Dispatched (before after : GraphNode) : Prop :=
  canTransition .ready .scheduled = true ∧ canTransition .scheduled .running = true ∧
    before.state = ready.asStr ∧ after.state = running.asStr ∧
    after.version = before.version + 2

/-- Every stored node is still stored, related to what it was. -/
def Tracks (rel : GraphNode → GraphNode → Prop) (before after : Tables) : Prop :=
  ∀ row ∈ before.nodes.rows, ∃ next ∈ after.nodes.rows,
    next.graphId = row.graphId ∧ next.nodeId = row.nodeId ∧ rel row next

variable {rel : GraphNode → GraphNode → Prop}

theorem Tracks.refl (reflexive : ∀ row, rel row row) (tables : Tables) : Tracks rel tables tables :=
  fun row member => ⟨row, member, rfl, rfl, reflexive row⟩

variable {before after : Tables} {target : NodeStatus}

theorem Tracks.comp {first second whole : GraphNode → GraphNode → Prop} {middle : Tables}
    (left : Tracks first before middle) (right : Tracks second middle after)
    (compose : ∀ row next last, first row next → second next last → whole row last) :
    Tracks whole before after := by
  intro row member
  obtain ⟨next, nextMem, nextGraph, nextNode, relNext⟩ := left row member
  obtain ⟨last, lastMem, lastGraph, lastNode, relLast⟩ := right next nextMem
  exact ⟨last, lastMem, lastGraph.trans nextGraph, lastNode.trans nextNode,
    compose row next last relNext relLast⟩

theorem Tracks.mono {rel weaker : GraphNode → GraphNode → Prop} (tracks : Tracks rel before after)
    (weaken : ∀ row next, rel row next → weaker row next) : Tracks weaker before after := by
  intro row member
  obtain ⟨next, nextMem, sameGraph, sameNode, related⟩ := tracks row member
  exact ⟨next, nextMem, sameGraph, sameNode, weaken row next related⟩

theorem Tracks.of_map {rewrite : GraphNode → GraphNode}
    (rows : after.nodes.rows = before.nodes.rows.map rewrite)
    (keys : ∀ row, (rewrite row).graphId = row.graphId ∧ (rewrite row).nodeId = row.nodeId)
    (related : ∀ row ∈ before.nodes.rows, rel row (rewrite row)) : Tracks rel before after := by
  intro row member
  refine ⟨rewrite row, ?_, (keys row).1, (keys row).2, related row member⟩
  rw [rows]
  exact List.mem_map_of_mem member

theorem Tracks.of_eq (same : after.nodes = before.nodes) (reflexive : ∀ row, rel row row) :
    Tracks rel before after :=
  fun row member => ⟨row, by rw [same]; exact member, rfl, rfl, reflexive row⟩

theorem Tracks.of_moved {node : GraphNode} {edges : Nat}
    (moved : Moved before after node target edges) (unmoved : ∀ row, rel row row)
    (related : rel node (node.move target.asStr edges)) : Tracks rel before after := by
  refine .of_map moved ?_ ?_
  · intro row
    split
    · exact ⟨rfl, rfl⟩
    · exact ⟨rfl, rfl⟩
  · intro row _
    split
    · rename_i same
      rw [same]
      exact related
    · exact unmoved row

/-- At most one edge, into `target`. -/
def GraphNode.StepsTo (target : NodeStatus) (before after : GraphNode) : Prop :=
  before.Unmoved after ∨ ∃ source, before.MovedAlong source target after

theorem GraphNode.StepsTo.refl (target : NodeStatus) (row : GraphNode) : row.StepsTo target row :=
  .inl ⟨rfl, rfl⟩

theorem GraphNode.stepsTo_move {row : GraphNode}
    (legal : transitionOk row.state target.asStr = true) :
    row.StepsTo target (row.move target.asStr 1) := by
  obtain ⟨source, state, edge⟩ := exists_source_of_transitionOk legal
  exact .inr ⟨source, edge, state, rfl, rfl⟩

theorem Tracks.of_movedWhereLegal {node : GraphNode}
    (moved : MovedWhereLegal before after node target) : Tracks (StepsTo target) before after := by
  unfold MovedWhereLegal at moved
  split at moved
  · rename_i legal
    exact .of_moved moved (StepsTo.refl target) (stepsTo_move legal)
  · exact .of_eq moved (StepsTo.refl target)

def Change.Moves : Change → GraphNode → GraphNode → Prop
  | .idle => Unmoved
  | .schedule _ _ => fun before after => before.Unmoved after ∨ before.Dispatched after
  | .retry _ => StepsTo .ready
  | .fail _ _ target => StepsTo target
  | .commit _ _ _ => StepsTo .succeeded
  | .cancel _ _ => StepsTo .cancelled
  | .recompute _ => fun before after =>
    before.Unmoved after ∨ before.MovedAlong .created .ready after

theorem Change.Applies.tracks {change : Change} (applies : change.Applies before after) :
    Tracks change.Moves before after := by
  cases applies with
  | idle nodes attempts completions => exact .of_eq nodes fun _ => ⟨rfl, rfl⟩
  | schedule member ready sameGraph sameNode identity live retryNo workerEpoch free nodes attempts
      completions =>
      exact .of_moved nodes (fun _ => .inl ⟨rfl, rfl⟩) (.inr ⟨by decide, by decide, ready, rfl, rfl⟩)
  | @retry _ _ node member failed nodes attempts completions =>
    have legal : transitionOk node.state ready.asStr = true := by
      rw [failed]
      decide
    exact .of_moved nodes (StepsTo.refl .ready) (stepsTo_move legal)
  | fail member attemptMem live unfinished targets nodes attempts completions =>
    exact .of_movedWhereLegal nodes
  | commit member attemptMem live unfinished sameNode sameGraph winner free nodes attempts
      completions =>
      exact .of_movedWhereLegal nodes
  | cancel member live chosen missing nodes attempts completions =>
    exact .of_moved nodes (StepsTo.refl .cancelled) (stepsTo_move live)
  | recompute nodes attempts completions =>
    refine .of_map nodes ?_ ?_
    · intro row
      split
      · exact ⟨rfl, rfl⟩
      · exact ⟨rfl, rfl⟩
    · intro row _
      split
      · rename_i flips
        exact .inr ⟨by decide, flips.2.1, rfl, rfl⟩
      · exact .inl ⟨rfl, rfl⟩

theorem GraphNode.StepsTo.trans (loopless : canTransition target target = false)
    {first second third : GraphNode} (left : first.StepsTo target second)
    (right : second.StepsTo target third) : first.StepsTo target third := by
  rcases left with ⟨state, version⟩ | ⟨source, edge, state, reached, version⟩
  · rcases right with ⟨stateNext, versionNext⟩ | ⟨source, edge, stateNext, reached, versionNext⟩
    · exact .inl ⟨stateNext.trans state, versionNext.trans version⟩
    · exact .inr ⟨source, edge, state.symm.trans stateNext, reached,
        versionNext.trans (by rw [version])⟩
  · rcases right with ⟨stateNext, versionNext⟩ | ⟨other, otherEdge, stateNext, -, -⟩
    · exact .inr ⟨source, edge, state, stateNext.trans reached, versionNext.trans version⟩
    · have same := asStr_injective (reached.symm.trans stateNext)
      rw [← same, loopless] at otherEdge
      cases otherEdge

theorem tracks_cancellations {changes : List Change} (run : Changes before changes after)
    (cancels : ∀ change ∈ changes, ∃ node attempt, change = .cancel node attempt) :
    Tracks (StepsTo .cancelled) before after := by
  induction run with
  | nil state => exact .refl (StepsTo.refl .cancelled) state
  | cons first rest ih =>
    obtain ⟨node, attempt, rfl⟩ := cancels _ List.mem_cons_self
    exact first.tracks.comp (ih fun change member => cancels change (List.mem_cons_of_mem _ member))
      fun _ _ _ => StepsTo.trans (by decide)

/-- A transaction of the store: a lifecycle transaction at a time, or a
projection write. -/
inductive StoreTransaction where
  | lifecycle (now : Timestamp) (transaction : Transaction)
  | project (p : GraphProjection) (shadow imported : Bool)

def StoreTransaction.exec : StoreTransaction → Tables → Tables
  | lifecycle now transaction, tables => transaction.exec now tables
  | project p shadow imported, tables => (writeProjection p shadow imported tables).2

/-- What a transaction may do to a stored node: nothing in a projection write,
the two edges of a dispatch in `schedule_attempt`, one edge in any other. -/
def StoreTransaction.Follows : StoreTransaction → GraphNode → GraphNode → Prop
  | project _ _ _ => Unmoved
  | lifecycle _ (.scheduleAttempt _ _ _) => fun before after =>
    before.Unmoved after ∨ before.Dispatched after
  | lifecycle _ _ => fun before after =>
    before.Unmoved after ∨ ∃ source target, before.MovedAlong source target after

theorem GraphNode.StepsTo.along {before after : GraphNode} (steps : before.StepsTo target after) :
    before.Unmoved after ∨ ∃ source target, before.MovedAlong source target after :=
  steps.imp_right fun ⟨source, moved⟩ => ⟨source, target, moved⟩

theorem GraphNode.StepsTo.recompute {first second third : GraphNode}
    (left : first.StepsTo .succeeded second)
    (right : second.Unmoved third ∨ second.MovedAlong .created .ready third) :
    first.Unmoved third ∨ ∃ source target, first.MovedAlong source target third := by
  rcases right with ⟨state, version⟩ | ⟨edge, waiting, reached, version⟩
  · rcases left with ⟨firstState, firstVersion⟩ | ⟨source, edge, firstState, reached, firstVersion⟩
    · exact .inl ⟨state.trans firstState, version.trans firstVersion⟩
    · exact .inr ⟨source, .succeeded, edge, firstState, state.trans reached,
        version.trans firstVersion⟩
  · rcases left with ⟨firstState, firstVersion⟩ | ⟨source, -, -, succeeded, -⟩
    · exact .inr ⟨.created, .ready, edge, firstState.symm.trans waiting, reached,
        version.trans (by rw [firstVersion])⟩
    · rw [succeeded] at waiting
      exact absurd waiting (by decide)

theorem Transaction.exec_tracks (now : Timestamp) (transaction : Transaction) (before : Tables) :
    Tracks (StoreTransaction.lifecycle now transaction).Follows before
      (transaction.exec now before) := by
  have reflexive : ∀ row, (StoreTransaction.lifecycle now transaction).Follows row row := by
    intro row
    cases transaction <;> exact .inl ⟨rfl, rfl⟩
  obtain ⟨changes, effect, run⟩ := transaction.exec_changes now before
  generalize transaction.exec now before = after at run
  cases effect with
  | rollback =>
    cases run
    exact .refl reflexive before
  | idle =>
    cases run with
    | cons first rest =>
      cases rest
      refine first.tracks.mono ?_
      intro row next unmoved
      cases transaction <;> exact .inl unmoved
  | schedule found workerId attempt =>
    cases run with
    | cons first rest =>
      cases rest
      exact first.tracks
  | retry found | fail found foundAttempt maxAttempts target =>
    cases run with
    | cons first rest =>
      cases rest
      exact first.tracks.mono fun _ _ => StepsTo.along
  | commit wins resultRef completion =>
    cases run with
    | cons first rest =>
      cases rest with
      | cons second rest =>
        cases rest
        exact first.tracks.comp second.tracks fun _ _ _ => StepsTo.recompute
  | cancel graphId nodeIds changes cancels =>
    exact (tracks_cancellations run cancels).mono fun _ _ => StepsTo.along
  | recompute graphId =>
    cases run with
    | cons first rest =>
      cases rest
      exact first.tracks.mono fun _ _ moves =>
        moves.imp_right fun moved => ⟨.created, .ready, moved⟩

theorem StoreTransaction.exec_tracks (transaction : StoreTransaction) (before : Tables) :
    Tracks transaction.Follows before (transaction.exec before) := by
  cases transaction with
  | lifecycle now transaction => exact transaction.exec_tracks now before
  | project p shadow imported =>
    rw [exec]
    rcases writeProjection_spec p shadow imported before with
      ⟨failure, ran⟩ | ⟨stats, after, ran, written⟩
    · rw [ran]
      exact .refl (fun _ => ⟨rfl, rfl⟩) before
    · rw [ran]
      obtain ⟨keep, appended, rows, same, -⟩ := written.nodes
      intro row member
      refine ⟨keep row, ?_, (same row).graphId, (same row).nodeId, (same row).state,
        (same row).version⟩
      rw [rows]
      exact List.mem_append_left _ (List.mem_map_of_mem member)

def GraphNode.KeepsTerminal (before after : GraphNode) : Prop :=
  ∀ status : NodeStatus, status.isTerminal = true → before.state = status.asStr →
    after.state = status.asStr

theorem GraphNode.keepsTerminal_of_unmoved {before after : GraphNode}
    (unmoved : before.Unmoved after) : before.KeepsTerminal after :=
  fun _ _ state => unmoved.1.trans state

theorem GraphNode.keepsTerminal_of_movedAlong {source : NodeStatus} {before after : GraphNode}
    (moved : before.MovedAlong source target after) : before.KeepsTerminal after := by
  intro status terminal state
  have same := asStr_injective (moved.2.1.symm.trans state)
  have edge := moved.1
  rw [same, canTransition_terminal terminal] at edge
  cases edge

theorem StoreTransaction.Follows.keepsTerminal {transaction : StoreTransaction}
    {before after : GraphNode} (follows : transaction.Follows before after) :
    before.KeepsTerminal after := by
  have edges : (before.Unmoved after ∨ ∃ source target, before.MovedAlong source target after) →
      before.KeepsTerminal after := by
    rintro (unmoved | ⟨source, target, moved⟩)
    · exact keepsTerminal_of_unmoved unmoved
    · exact keepsTerminal_of_movedAlong moved
  cases transaction with
  | project p shadow imported => exact keepsTerminal_of_unmoved follows
  | lifecycle now transaction =>
    cases transaction with
    | scheduleAttempt graphId nodeId workerId =>
      rcases follows with unmoved | ⟨-, -, ready, -, -⟩
      · exact keepsTerminal_of_unmoved unmoved
      · intro status terminal state
        rw [asStr_injective (ready.symm.trans state).symm] at terminal
        exact absurd terminal (by decide)
    | _ => exact edges follows

/-- A write of the store: a verb at a time, or a projection write. -/
inductive StoreWrite where
  | call (now : Timestamp) (verb : Verb)
  | project (p : GraphProjection) (shadow imported : Bool)

namespace StoreWrite

def exec : StoreWrite → Tables → Tables
  | call now verb, tables => (verb.exec now tables).2
  | project p shadow imported, tables => (writeProjection p shadow imported tables).2

/-- The transactions of a write that starts from these tables. -/
def transactions : StoreWrite → Tables → List StoreTransaction
  | call now verb, tables => (verb.transactions now tables).map (.lifecycle now)
  | project p shadow imported, _ => [.project p shadow imported]

def execAll (writes : List StoreWrite) (tables : Tables) : Tables :=
  writes.foldl (fun current write => write.exec current) tables

/-- The transactions of a sequence of writes, in order. -/
def allTransactions : List StoreWrite → Tables → List StoreTransaction
  | [], _ => []
  | write :: rest, tables => write.transactions tables ++ allTransactions rest (write.exec tables)

end StoreWrite

/-- The tables after a sequence of transactions. -/
def StoreTransaction.execAll (transactions : List StoreTransaction) (tables : Tables) : Tables :=
  transactions.foldl (fun current transaction => transaction.exec current) tables

theorem StoreTransaction.execAll_append (first second : List StoreTransaction) (tables : Tables) :
    execAll (first ++ second) tables = execAll second (execAll first tables) :=
  List.foldl_append

theorem StoreWrite.exec_eq (write : StoreWrite) (tables : Tables) :
    write.exec tables = StoreTransaction.execAll (write.transactions tables) tables := by
  cases write with
  | call now verb =>
    rw [exec, verb.exec_tables, transactions, StoreTransaction.execAll, List.foldl_map]
    rfl
  | project p shadow imported => rfl

theorem StoreWrite.execAll_eq (writes : List StoreWrite) (tables : Tables) :
    execAll writes tables = StoreTransaction.execAll (allTransactions writes tables) tables := by
  induction writes generalizing tables with
  | nil => rfl
  | cons write rest ih =>
    rw [allTransactions, StoreTransaction.execAll_append, ← write.exec_eq]
    exact ih (write.exec tables)

theorem StoreTransaction.execAll_keepsTerminal (transactions : List StoreTransaction)
    (tables : Tables) :
    Tracks KeepsTerminal tables (execAll transactions tables) := by
  induction transactions generalizing tables with
  | nil => exact .refl (fun _ _ _ state => state) tables
  | cons transaction rest ih =>
    refine (transaction.exec_tracks tables).comp (ih (transaction.exec tables)) ?_
    intro row next last follows keeps status terminal state
    exact keeps status terminal (follows.keepsTerminal status terminal state)

/-- **States move along the machine only.** Whatever is written to whatever
tables, the writes are a sequence of transactions of which each moves a stored
node as it may, and a node once in a terminal state keeps it in every later
state of the tables. -/
theorem writes_follow_edges (writes : List StoreWrite) (source : Tables) :
    StoreWrite.execAll writes source =
        StoreTransaction.execAll (StoreWrite.allTransactions writes source) source ∧
      (∀ earlier transaction later,
        StoreWrite.allTransactions writes source = earlier ++ transaction :: later →
          Tracks transaction.Follows (StoreTransaction.execAll earlier source)
            (StoreTransaction.execAll (earlier ++ [transaction]) source)) ∧
      ∀ earlier later final, StoreWrite.allTransactions writes source = earlier ++ later ++ final →
        Tracks KeepsTerminal (StoreTransaction.execAll earlier source)
          (StoreTransaction.execAll (earlier ++ later) source) := by
  refine ⟨StoreWrite.execAll_eq writes source, ?_, ?_⟩
  · intro earlier transaction later _
    rw [StoreTransaction.execAll_append]
    exact transaction.exec_tracks _
  · intro earlier later final _
    rw [StoreTransaction.execAll_append]
    exact StoreTransaction.execAll_keepsTerminal later _

/-- A dispatch after an import follows the two edges it may. -/
theorem writes_follow_edges_dispatch :
    Tracks (StoreTransaction.lifecycle 1 (.scheduleAttempt "g" "a" none)).Follows
      (StoreTransaction.execAll [.project (projectTask chainTask) false true] .empty)
      (StoreTransaction.execAll [.project (projectTask chainTask) false true,
        .lifecycle 1 (.scheduleAttempt "g" "a" none)] .empty) :=
  (writes_follow_edges [.project (projectTask chainTask) false true,
    .call 1 (.scheduleAttempt "g" "a" none)] .empty).2.1
      [.project (projectTask chainTask) false true]
      (.lifecycle 1 (.scheduleAttempt "g" "a" none)) [] rfl

end UltimateCoders.Graph
