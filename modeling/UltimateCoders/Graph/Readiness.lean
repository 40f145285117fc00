import UltimateCoders.Graph.CommitOnce

/-! # Dependencies and readiness

A node leaves the created state only once its dependencies are done, and never
stays there after they are: readiness is recomputed inside every commit, and no
other change makes a dependency done.
-/

namespace UltimateCoders.Graph

open Relational Transition List

/-- The node satisfies whoever depends on it. -/
def GraphNode.Finished (node : GraphNode) : Prop :=
  node.state = NodeStatus.succeeded.asStr ∨
    node.state = NodeStatus.skipped.asStr ∧ node.isOptional = true

open GraphNode

variable {before after : Tables} {graphId : String} {change : Change} {row : GraphNode}
  (tables : Tables)

def Tables.Done (graphId dep : String) : Prop :=
  ∃ row ∈ tables.nodes.rows, row.graphId = graphId ∧ row.nodeId = dep ∧ row.Finished

open Tables

def Tables.DependenciesDone (node : GraphNode) : Prop :=
  ∀ dep ∈ node.dependencies, tables.Done node.graphId dep

/-- The states that a node reaches only with its dependencies done. -/
def NodeStatus.released : List NodeStatus := [.ready, .scheduled, .running, .failed, .succeeded]

open NodeStatus (asStr_injective cancelled)

/-- The node is in a state that it reaches only with its dependencies done. -/
def GraphNode.Released (node : GraphNode) : Prop :=
  ∃ status ∈ NodeStatus.released, node.state = status.asStr

def Tables.DependencySafe : Prop :=
  ∀ node ∈ tables.nodes.rows, node.Released → tables.DependenciesDone node

def Tables.NoLostWakeUp : Prop :=
  ∀ node ∈ tables.nodes.rows, node.state = NodeStatus.created.asStr → ¬ tables.DependenciesDone node

variable {node : GraphNode} {tables : Tables}

/-- The store's own check is that the dependencies are done. -/
theorem dependenciesSatisfied_iff (sameGraph : node.graphId = graphId) :
    dependenciesSatisfied (tables.finishedNodes graphId) node = true ↔
      tables.DependenciesDone node := by
  unfold dependenciesSatisfied DependenciesDone
  rw [all_eq_true]
  refine forall₂_congr fun dep _ => ?_
  rw [any_eq_true, sameGraph]
  constructor
  · rintro ⟨row, member, matched⟩
    rw [finishedNodes, mem_filter, decide_eq_true_eq] at member
    simp only [Bool.and_eq_true, Bool.or_eq_true, beq_iff_eq] at matched
    obtain ⟨rowMem, rowGraph, state⟩ := member
    refine ⟨row, rowMem, rowGraph, matched.1, ?_⟩
    rcases matched.2 with succeeded | optional
    · exact .inl succeeded
    · exact state.imp id fun skipped => ⟨skipped, optional⟩
  · rintro ⟨row, rowMem, rowGraph, rowNode, finished⟩
    refine ⟨row, ?_, ?_⟩
    · rw [finishedNodes, mem_filter, decide_eq_true_eq]
      exact ⟨rowMem, rowGraph, finished.imp id And.left⟩
    · simp only [Bool.and_eq_true, Bool.or_eq_true, beq_iff_eq]
      exact ⟨rowNode, finished.imp id And.right⟩

/-- Two rows of the same node: its place in the graph agrees. -/
structure GraphNode.SamePlace (first second : GraphNode) : Prop where
  graphId : first.graphId = second.graphId
  nodeId : first.nodeId = second.nodeId
  dependencies : first.dependencies = second.dependencies
  isOptional : first.isOptional = second.isOptional

theorem GraphNode.SamePlace.refl (row : GraphNode) : row.SamePlace row := ⟨rfl, rfl, rfl, rfl⟩

def Change.stateAfter (before : Tables) (row : GraphNode) : Change → String
  | .idle => row.state
  | .schedule node _ => if row = node then NodeStatus.running.asStr else row.state
  | .retry node => if row = node then NodeStatus.ready.asStr else row.state
  | .fail node _ target =>
    if row = node ∧ transitionOk row.state target.asStr = true then target.asStr else row.state
  | .commit node _ _ =>
    if row = node ∧ transitionOk row.state NodeStatus.succeeded.asStr = true then
      NodeStatus.succeeded.asStr
    else row.state
  | .cancel node _ => if row = node then cancelled.asStr else row.state
  | .recompute graphId =>
    if row.graphId = graphId ∧ row.state = NodeStatus.created.asStr ∧
        dependenciesSatisfied (before.finishedNodes graphId) row = true then
      NodeStatus.ready.asStr
    else row.state

/-- The node rows are rewritten in place to the given states. -/
def Restates (before after : Tables) (stateAfter : GraphNode → String) : Prop :=
  ∃ rewrite : GraphNode → GraphNode, after.nodes.rows = before.nodes.rows.map rewrite ∧
    ∀ row, (rewrite row).SamePlace row ∧ (rewrite row).state = stateAfter row

theorem Restates.of_moved {target : NodeStatus} {edges : Nat}
    (moved : Moved before after node target edges) :
    Restates before after fun row => if row = node then target.asStr else row.state := by
  refine ⟨_, moved, fun row => ?_⟩
  dsimp only
  split
  · exact ⟨⟨rfl, rfl, rfl, rfl⟩, rfl⟩
  · exact ⟨.refl row, rfl⟩

theorem Restates.of_eq (same : after.nodes = before.nodes) : Restates before after state :=
  ⟨id, by rw [same, map_id], fun row => ⟨.refl row, rfl⟩⟩

theorem Restates.of_movedWhereLegal {target : NodeStatus}
    (moved : MovedWhereLegal before after node target) : Restates before after fun row =>
      if row = node ∧ transitionOk row.state target.asStr = true then target.asStr
      else row.state := by
  have legalHere : ∀ row : GraphNode, (row = node ∧ transitionOk row.state target.asStr = true) ↔
      row = node ∧ transitionOk node.state target.asStr = true := by
    intro row
    constructor
    · rintro ⟨rfl, legal⟩
      exact ⟨rfl, legal⟩
    · rintro ⟨rfl, legal⟩
      exact ⟨rfl, legal⟩
  simp only [legalHere]
  unfold MovedWhereLegal at moved
  split at moved
  · rename_i legal
    simp only [legal, and_true]
    exact .of_moved moved
  · rename_i illegal
    simp only [if_neg fun both : _ ∧ _ => illegal both.2]
    exact .of_eq moved

theorem Change.Applies.restates (applies : change.Applies before after) :
    Restates before after fun row => change.stateAfter before row := by
  cases applies with
  | idle nodes attempts completions => exact .of_eq nodes
  | schedule member ready sameGraph sameNode identity live retryNo workerEpoch free nodes attempts
      completions => exact .of_moved nodes
  | retry member failed nodes attempts completions => exact .of_moved nodes
  | fail member attemptMem live unfinished targets nodes attempts completions =>
    exact .of_movedWhereLegal nodes
  | commit member attemptMem live unfinished sameNode sameGraph winner free nodes attempts
      completions => exact .of_movedWhereLegal nodes
  | cancel member live chosen missing nodes attempts completions => exact .of_moved nodes
  | recompute nodes attempts completions =>
    refine ⟨_, nodes, fun row => ?_⟩
    simp only [Change.stateAfter]
    split
    · exact ⟨⟨rfl, rfl, rfl, rfl⟩, rfl⟩
    · exact ⟨.refl row, rfl⟩

/-- The moves a change may make, as the states of the moved node. -/
inductive Change.StateMove (before : Tables) :
    Change → GraphNode → NodeStatus → NodeStatus → Prop where
  | schedule (node : GraphNode) (attempt : TaskAttempt) :
      StateMove before (.schedule node attempt) node .ready .running
  | retry (node : GraphNode) : StateMove before (.retry node) node .failed .ready
  | fail (node : GraphNode) (attempt : TaskAttempt) {source target : NodeStatus}
      (targets : target = .ready ∨ target = .failed) (edge : canTransition source target = true) :
      StateMove before (.fail node attempt target) node source target
  | commit (node : GraphNode) (attempt : TaskAttempt) (completion : NodeCompletion) :
      StateMove before (.commit node attempt completion) node .running .succeeded
  | cancel (node : GraphNode) (attempt : Option TaskAttempt) {source : NodeStatus}
      (edge : canTransition source .cancelled = true) :
      StateMove before (.cancel node attempt) node source .cancelled
  | recompute {node : GraphNode} (done : before.DependenciesDone node) :
      StateMove before (.recompute node.graphId) node .created .ready

/-- A change leaves the state of a node or moves it. -/
theorem Change.Applies.stateAfter_cases (applies : change.Applies before after) (row : GraphNode) :
    change.stateAfter before row = row.state ∨ ∃ source target,
      change.StateMove before row source target ∧ row.state = source.asStr ∧
        change.stateAfter before row = target.asStr := by
  cases applies with
  | idle nodes attempts completions => exact .inl rfl
  | @schedule _ _ node attempt member ready =>
    by_cases same : row = node
    · subst same
      exact .inr ⟨_, _, .schedule row attempt, ready, if_pos rfl⟩
    · exact .inl (if_neg same)
  | @retry _ _ node member failed =>
    by_cases same : row = node
    · subst same
      exact .inr ⟨_, _, .retry row, failed, if_pos rfl⟩
    · exact .inl (if_neg same)
  | @fail _ _ node attempt target member attemptMem live unfinished targets =>
    by_cases moves : row = node ∧ transitionOk row.state target.asStr = true
    · obtain ⟨rfl, legal⟩ := moves
      obtain ⟨source, state, edge⟩ := exists_source_of_transitionOk legal
      exact .inr ⟨source, target, .fail row attempt targets edge, state, if_pos ⟨rfl, legal⟩⟩
    · exact .inl (if_neg moves)
  | @commit _ _ node attempt completion member =>
    by_cases moves : row = node ∧ transitionOk row.state NodeStatus.succeeded.asStr = true
    · obtain ⟨rfl, legal⟩ := moves
      obtain ⟨source, state, edge⟩ := exists_source_of_transitionOk legal
      have running : source = .running := by
        revert edge
        cases source <;> decide
      subst running
      exact .inr ⟨_, _, .commit row attempt completion, state, if_pos ⟨rfl, legal⟩⟩
    · exact .inl (if_neg moves)
  | @cancel _ _ node attempt member live =>
    by_cases same : row = node
    · subst same
      obtain ⟨source, state, edge⟩ := exists_source_of_transitionOk live
      exact .inr ⟨source, _, .cancel row attempt edge, state, if_pos rfl⟩
    · exact .inl (if_neg same)
  | @recompute _ _ graphId nodes =>
    by_cases flips : row.graphId = graphId ∧ row.state = NodeStatus.created.asStr ∧
        dependenciesSatisfied (before.finishedNodes graphId) row = true
    · obtain ⟨rfl, created, satisfied⟩ := flips
      exact .inr ⟨_, _, .recompute ((dependenciesSatisfied_iff rfl).mp satisfied), created,
        if_pos ⟨rfl, created, satisfied⟩⟩
    · exact .inl (if_neg flips)

theorem Change.StateMove.ends {source target : NodeStatus}
    (move : change.StateMove before row source target) :
    source.isTerminal = false ∧ target ≠ .created ∧ target ≠ .waiting ∧ target ≠ .skipped := by
  have leaves : ∀ {target : NodeStatus}, canTransition source target = true →
      source.isTerminal = false := by
    intro target edge
    cases terminal : source.isTerminal with
    | false => rfl
    | true =>
      rw [canTransition_terminal terminal] at edge
      cases edge
  cases move with
  | schedule | retry | commit | recompute => decide
  | fail _ _ targets edge =>
    rcases targets with rfl | rfl
    · exact ⟨leaves edge, by decide⟩
    · exact ⟨leaves edge, by decide⟩
  | cancel _ _ edge => exact ⟨leaves edge, by decide⟩

section Step

variable {before after : Tables} {change : Change} (applies : change.Applies before after)

include applies

theorem Change.Applies.stateAfter_of_finished (finished : row.Finished) :
    change.stateAfter before row = row.state := by
  rcases applies.stateAfter_cases row with same | ⟨source, target, move, state, -⟩
  · exact same
  · have live := move.ends.1
    rcases finished with succeeded | ⟨skipped, -⟩
    · rw [asStr_injective (state.symm.trans succeeded)] at live
      cases live
    · rw [asStr_injective (state.symm.trans skipped)] at live
      cases live

theorem Change.Applies.done {dep : String} (done : before.Done graphId dep) :
    after.Done graphId dep := by
  obtain ⟨rewrite, rows, spec⟩ := applies.restates
  obtain ⟨row, member, sameGraph, sameNode, finished⟩ := done
  obtain ⟨place, state⟩ := spec row
  have kept : (rewrite row).state = row.state :=
    state.trans (applies.stateAfter_of_finished finished)
  refine ⟨rewrite row, ?_, place.graphId.trans sameGraph, place.nodeId.trans sameNode, ?_⟩
  · rw [rows]
    exact mem_map_of_mem member
  · unfold Finished
    rw [kept, place.isOptional]
    exact finished

theorem Change.Applies.exists_before (member : row ∈ after.nodes.rows) :
    ∃ old ∈ before.nodes.rows, row.SamePlace old ∧ row.state = change.stateAfter before old := by
  obtain ⟨rewrite, rows, spec⟩ := applies.restates
  rw [rows] at member
  obtain ⟨old, oldMem, rfl⟩ := mem_map.mp member
  exact ⟨old, oldMem, spec old⟩

theorem Change.Applies.state_of_after (member : row ∈ after.nodes.rows) {status : NodeStatus}
    (early : status = .created ∨ status = .waiting) (state : row.state = status.asStr) :
    ∃ old ∈ before.nodes.rows, row.SamePlace old ∧ old.state = status.asStr ∧
      change.stateAfter before old = old.state := by
  obtain ⟨old, oldMem, place, stateEq⟩ := applies.exists_before member
  rcases applies.stateAfter_cases old with same | ⟨source, target, move, -, moved⟩
  · exact ⟨old, oldMem, place, same.symm.trans (stateEq.symm.trans state), same⟩
  · obtain ⟨-, notCreated, notWaiting, -⟩ := move.ends
    have reached := asStr_injective (moved.symm.trans (stateEq.symm.trans state))
    rcases early with rfl | rfl
    · exact (notCreated reached).elim
    · exact (notWaiting reached).elim

end Step

/-- The attempt that a change fails belongs to the node it is failed for. -/
def Change.FailsOwned : Change → Prop
  | .fail node attempt _ => attempt.nodeId = node.nodeId
  | _ => True

/-- The attempt that a transaction fails, if any, belongs to the node it names. -/
def Transaction.FailsOwned (tables : Tables) : Transaction → Prop
  | .failAttempt graphId nodeId id _ => tables.Owns graphId nodeId id
  | _ => True

/-- The attempt that a verb is to fail, if any, belongs to the node it names. -/
def Verb.FailsOwned (tables : Tables) : Verb → Prop
  | .failAttempt graphId nodeId id _ => tables.Owns graphId nodeId id
  | _ => True

theorem Transaction.Owned.failsOwned {transaction : Transaction} (owned : transaction.Owned tables) :
    transaction.FailsOwned tables := by
  cases transaction with
  | failAttempt => exact owned
  | _ => trivial

theorem Transaction.Effect.failsOwned {transaction : Transaction} {changes : List Change}
    (effect : Transaction.Effect before transaction changes)
    (owned : transaction.FailsOwned before) : ∀ change ∈ changes, change.FailsOwned := by
  cases effect with
  | rollback => exact fun _ member => (not_mem_nil member).elim
  | idle | schedule | retry | recompute | commit => simp [Change.FailsOwned]
  | fail found foundAttempt =>
    obtain ⟨attemptMem, same⟩ := attempt?_eq_some.mp foundAttempt
    obtain ⟨-, -, sameNode⟩ := node?_eq_some.mp found
    exact forall_mem_singleton.mpr ((owned _ attemptMem same).2.trans sameNode.symm)
  | cancel _ _ _ cancels =>
    intro change member
    obtain ⟨node, attempt, rfl⟩ := cancels change member
    trivial

/-- The tables of one graph are safe, and nothing that has not been released
runs: created nodes have no running attempt and no node waits. -/
structure Guarded (graphId : String) (tables : Tables) : Prop where
  nodeGraph : ∀ node ∈ tables.nodes.rows, node.graphId = graphId
  named : tables.Named graphId
  safe : tables.DependencySafe
  unstarted : ∀ node ∈ tables.nodes.rows, node.state = NodeStatus.created.asStr →
    ¬ tables.HasRunning node.nodeId
  noWaiting : ∀ node ∈ tables.nodes.rows, node.state ≠ NodeStatus.waiting.asStr

/-- The attempts after a change have the names they had, or are new ones of the
node that is scheduled. A running one was running, or its node was ready. -/
theorem Change.Applies.attempt_cases (applies : change.Applies before after) {row : TaskAttempt}
    (member : row ∈ after.attempts.rows) : (∃ old ∈ before.attempts.rows, row.SameAttempt old ∧
      (row.status = "RUNNING" → old.status = "RUNNING")) ∨
    ∃ node, change = .schedule node row ∧ node ∈ before.nodes.rows ∧
      node.state = NodeStatus.ready.asStr ∧ row.graphId = node.graphId ∧ row.nodeId = node.nodeId ∧
      row.attemptId = attemptId node.graphId node.nodeId row.retryNo := by
  have ofRestated : ∀ {status : TaskAttempt → String}, Restated before after status →
      (∀ old, status old = "RUNNING" → old.status = "RUNNING") →
      ∃ old ∈ before.attempts.rows, row.SameAttempt old ∧
        (row.status = "RUNNING" → old.status = "RUNNING") := by
    rintro status ⟨restate, attempts, spec⟩ noStart
    rw [attempts] at member
    obtain ⟨old, oldMem, rfl⟩ := mem_map.mp member
    obtain ⟨agree, statusEq⟩ := spec old oldMem
    exact ⟨old, oldMem, agree, fun live => noStart old (statusEq.symm.trans live)⟩
  have ofEq : after.attempts = before.attempts → ∃ old ∈ before.attempts.rows,
      row.SameAttempt old ∧ (row.status = "RUNNING" → old.status = "RUNNING") :=
    fun same => ofRestated (.refl_of_eq same) fun _ live => live
  cases applies with
  | idle nodes attempts completions => exact .inl (ofRestated attempts fun _ live => live)
  | @schedule _ _ node attempt nodeMem ready sameGraph sameNode identity live retryNo workerEpoch
      free nodes attempts completions =>
      rw [attempts] at member
      rcases mem_append.mp member with old | new
      · exact .inl ⟨row, old, ⟨rfl, rfl, rfl, rfl, rfl⟩, id⟩
      · obtain rfl := mem_singleton.mp new
        exact .inr ⟨node, rfl, nodeMem, ready, sameGraph, sameNode, identity⟩
  | retry nodeMem failed nodes attempts completions => exact .inl (ofEq attempts)
  | fail nodeMem attemptMem live unfinished targets nodes attempts completions =>
    refine .inl (ofRestated attempts fun old status => ?_)
    split at status
    · exact absurd status (by decide)
    · exact status
  | commit nodeMem attemptMem live unfinished sameNode sameGraph winner free nodes attempts
      completions =>
      refine .inl (ofRestated attempts fun old status => ?_)
      split at status
      · exact absurd status (by decide)
      · exact status
  | cancel nodeMem live chosen missing nodes attempts completions =>
    refine .inl (ofRestated attempts fun old status => ?_)
    split at status
    · exact absurd status (by decide)
    · exact status
  | recompute nodes attempts completions => exact .inl (ofEq attempts)

theorem Guarded.released (guarded : Guarded graphId before) (owned : change.FailsOwned)
    (applies : change.Applies before after) (member : row ∈ before.nodes.rows)
    {status : NodeStatus} (releases : status ∈ NodeStatus.released)
    (state : change.stateAfter before row = status.asStr) : before.DependenciesDone row := by
  have fromReleased : ∀ {source : NodeStatus}, row.state = source.asStr →
      source ∈ NodeStatus.released → before.DependenciesDone row :=
    fun same listed => guarded.safe row member ⟨_, listed, same⟩
  rcases applies.stateAfter_cases row with same | ⟨source, target, move, sourceState, moved⟩
  · exact fromReleased (same.symm.trans state) releases
  · have reached : target = status := asStr_injective (moved.symm.trans state)
    subst reached
    cases move with
    | schedule | retry | commit => exact fromReleased sourceState (by decide)
    | recompute done => exact done
    | cancel => exact absurd releases (by decide)
    | fail _ attempt targets edge =>
      have started : source ≠ .created := by
        rintro rfl
        cases applies with
        | fail nodeMem attemptMem live unfinished =>
          exact guarded.unstarted row member sourceState ⟨attempt, attemptMem, owned, live⟩
      have notWaiting : source ≠ .waiting := by
        rintro rfl
        exact guarded.noWaiting row member sourceState
      refine fromReleased sourceState ?_
      revert edge started notWaiting
      rcases targets with rfl | rfl <;> cases source <;> decide

theorem Guarded.applies (guarded : Guarded graphId before) (owned : change.FailsOwned)
    (applies : change.Applies before after) : Guarded graphId after := by
  refine ⟨?_, ?_, ?_, ?_, ?_⟩
  · intro row member
    obtain ⟨old, oldMem, place, -⟩ := applies.exists_before member
    exact place.graphId.trans (guarded.nodeGraph old oldMem)
  · intro row member
    rcases applies.attempt_cases member with ⟨old, oldMem, agree, -⟩ |
      ⟨node, -, nodeMem, -, sameGraph, sameNode, name⟩
    · obtain ⟨oldGraph, oldName⟩ := guarded.named old oldMem
      rw [agree.graphId, agree.attemptId, agree.nodeId, agree.retryNo]
      exact ⟨oldGraph, oldName⟩
    · rw [sameGraph, sameNode, name, guarded.nodeGraph node nodeMem]
      exact ⟨rfl, rfl⟩
  · rintro row member ⟨status, releases, state⟩ dep depMem
    obtain ⟨old, oldMem, place, stateEq⟩ := applies.exists_before member
    rw [place.graphId]
    rw [place.dependencies] at depMem
    exact applies.done (guarded.released owned applies oldMem releases (stateEq.symm.trans state)
      dep depMem)
  · rintro row member created ⟨attempt, attemptMem, sameNode, live⟩
    obtain ⟨old, oldMem, place, oldCreated, kept⟩ :=
      applies.state_of_after member (.inl rfl) created
    rcases applies.attempt_cases attemptMem with ⟨oldAttempt, oldAttemptMem, agree, wasLive⟩ |
      ⟨node, isSchedule, nodeMem, ready, -, ofNode, -⟩
    · exact guarded.unstarted old oldMem oldCreated ⟨oldAttempt, oldAttemptMem,
        agree.nodeId.symm.trans (sameNode.trans place.nodeId), wasLive live⟩
    · have same : old = node := before.nodes.eq_of_clash oldMem nodeMem
        ⟨place.nodeId.symm.trans (sameNode.symm.trans ofNode),
          (guarded.nodeGraph old oldMem).trans (guarded.nodeGraph node nodeMem).symm⟩
      rw [same, ready] at oldCreated
      exact absurd oldCreated (by decide)
  · intro row member waiting
    obtain ⟨old, oldMem, -, oldWaiting, -⟩ :=
      applies.state_of_after member (.inr rfl) waiting
    exact guarded.noWaiting old oldMem oldWaiting

theorem Guarded.exec (guarded : Guarded graphId tables) (transaction : Transaction)
    (owned : transaction.FailsOwned tables) (now : Timestamp) :
    Guarded graphId (transaction.exec now tables) := by
  obtain ⟨changes, effect, run⟩ := transaction.exec_changes now tables
  exact run.invariant Change.FailsOwned
    (fun _ _ _ holds owned applies => holds.applies owned applies) (effect.failsOwned owned) guarded

theorem Guarded.verb (guarded : Guarded graphId tables) {verb : Verb}
    (owned : verb.FailsOwned tables) (now : Timestamp) :
    Guarded graphId (verb.exec now tables).2 := by
  have named : ∀ tables, Guarded graphId tables → tables.Named graphId :=
    fun _ holds => holds.named
  have kept : ∀ tables transaction now, Guarded graphId tables →
      Transaction.Owned tables transaction → Guarded graphId (transaction.exec now tables) :=
    fun _ transaction now holds owned => holds.exec transaction owned.failsOwned now
  by_cases whole : verb.Owned tables
  · exact Verb.preserves named kept guarded whole now
  · cases verb with
    | commitOnce graphId nodeId id resultRef =>
      -- a commit is safe under any attempt id
      rw [Verb.exec_tables]
      exact guarded.exec (.commitOnce graphId nodeId id resultRef) trivial now
    | failAttempt => exact (whole owned).elim
    | _ => exact (whole trivial).elim

/-- A verb called at a time, failing an attempt for its own node only. -/
def failsOwnedStep (before : Tables) (call : Timestamp × Verb) (after : Tables) : Prop :=
  call.2.FailsOwned before ∧ (call.2.exec call.1 before).2 = after

/-- Every run of such verbs keeps the graph guarded. -/
theorem Guarded.run {source target : Tables} {calls : List (Timestamp × Verb)}
    (run : Run failsOwnedStep source calls target) (guarded : Guarded graphId source) :
    Guarded graphId target := by
  refine run.invariant (fun _ => True) ?_ (fun _ _ => trivial) guarded
  intro before call after holds _ taken
  rw [← taken.2]
  exact holds.verb taken.1 call.1

/-- The change makes no node of the graph succeed. -/
def Change.QuietIn (change : Change) (graphId : String) : Prop :=
  ∀ before row source, change.StateMove before row source .succeeded → row.graphId ≠ graphId

theorem Change.quietIn_recompute (graphId other : String) : (Change.recompute graphId).QuietIn other :=
  fun _ _ _ move => nomatch move

theorem Change.quietIn_cancel (node : GraphNode) (attempt : Option TaskAttempt) (other : String) :
    (Change.cancel node attempt).QuietIn other :=
  fun _ _ _ move => nomatch move

section Wake

variable {before after : Tables} {change : Change} (applies : change.Applies before after)
  {graphId : String} (quiet : change.QuietIn graphId)

include applies quiet

theorem Change.Applies.done_before {dep : String} (done : after.Done graphId dep) :
    before.Done graphId dep := by
  obtain ⟨row, member, sameGraph, sameNode, finished⟩ := done
  obtain ⟨old, oldMem, place, state⟩ := applies.exists_before member
  refine ⟨old, oldMem, place.graphId.symm.trans sameGraph, place.nodeId.symm.trans sameNode, ?_⟩
  rcases applies.stateAfter_cases old with same | ⟨source, target, move, -, moved⟩
  · unfold Finished at finished ⊢
    rw [state, same, place.isOptional] at finished
    exact finished
  · rcases finished with succeeded | ⟨skipped, -⟩
    · have reached := asStr_injective (moved.symm.trans (state.symm.trans succeeded))
      subst reached
      exact (quiet before old source move (place.graphId.symm.trans sameGraph)).elim
    · have reached := asStr_injective (moved.symm.trans (state.symm.trans skipped))
      exact (move.ends.2.2.2 reached).elim

theorem Change.Applies.sleeps {old : GraphNode} (place : row.SamePlace old)
    (sameGraph : row.graphId = graphId) (asleep : ¬ before.DependenciesDone old) :
    ¬ after.DependenciesDone row := by
  intro done
  refine asleep fun dep depMem => ?_
  rw [← place.dependencies] at depMem
  rw [← place.graphId, sameGraph]
  have doneAfter := done dep depMem
  rw [sameGraph] at doneAfter
  exact applies.done_before quiet doneAfter

end Wake

theorem Tables.NoLostWakeUp.quiet (applies : change.Applies before after)
    (quiet : ∀ graphId, change.QuietIn graphId) (awake : before.NoLostWakeUp) :
    after.NoLostWakeUp := by
  intro row member created
  obtain ⟨old, oldMem, place, oldCreated, -⟩ :=
    applies.state_of_after member (.inl rfl) created
  exact applies.sleeps (quiet row.graphId) place rfl (awake old oldMem oldCreated)

theorem not_dependenciesDone_of_recompute
    (applies : (Change.recompute graphId).Applies before after) (member : row ∈ after.nodes.rows)
    (created : row.state = NodeStatus.created.asStr) (sameGraph : row.graphId = graphId) :
    ¬ after.DependenciesDone row := by
  obtain ⟨old, oldMem, place, oldCreated, kept⟩ :=
    applies.state_of_after member (.inl rfl) created
  have oldGraph : old.graphId = graphId := place.graphId.symm.trans sameGraph
  refine applies.sleeps (Change.quietIn_recompute graphId graphId) place sameGraph fun done => ?_
  have flips : (Change.recompute graphId).stateAfter before old = NodeStatus.ready.asStr :=
    if_pos ⟨oldGraph, oldCreated, (dependenciesSatisfied_iff oldGraph).mpr done⟩
  rw [kept, oldCreated] at flips
  exact absurd flips (by decide)

theorem Tables.NoLostWakeUp.commit {middle : Tables} {attempt : TaskAttempt}
    {completion : NodeCompletion}
    (commits : (Change.commit node attempt completion).Applies before middle)
    (recomputes : (Change.recompute node.graphId).Applies middle after)
    (awake : before.NoLostWakeUp) : after.NoLostWakeUp := by
  intro row member created
  by_cases sameGraph : row.graphId = node.graphId
  · exact not_dependenciesDone_of_recompute recomputes member created sameGraph
  · obtain ⟨moved, movedMem, movedPlace, movedCreated, -⟩ :=
      recomputes.state_of_after member (.inl rfl) created
    obtain ⟨old, oldMem, place, oldCreated, -⟩ :=
      commits.state_of_after movedMem (.inl rfl) movedCreated
    have quiet : (Change.commit node attempt completion).QuietIn row.graphId := by
      intro _ _ _ move
      cases move with
      | commit => exact Ne.symm sameGraph
    have asleep := commits.sleeps quiet place movedPlace.graphId.symm (awake old oldMem oldCreated)
    exact recomputes.sleeps (Change.quietIn_recompute _ _) movedPlace rfl asleep

theorem Tables.NoLostWakeUp.exec (awake : tables.NoLostWakeUp) (transaction : Transaction)
    (now : Timestamp) :
    (transaction.exec now tables).NoLostWakeUp := by
  obtain ⟨changes, effect, run⟩ := transaction.exec_changes now tables
  have ofQuiet : (∀ change ∈ changes, ∀ graphId, change.QuietIn graphId) →
      (transaction.exec now tables).NoLostWakeUp := fun quiet =>
    run.invariant (fun change => ∀ graphId, change.QuietIn graphId)
      (fun _ _ _ holds quiet applies => NoLostWakeUp.quiet applies quiet holds) quiet awake
  cases effect with
  | rollback => exact ofQuiet fun _ member => (not_mem_nil member).elim
  | idle | schedule | retry =>
    exact ofQuiet (forall_mem_singleton.mpr fun _ _ _ _ move => nomatch move)
  | fail =>
    refine ofQuiet (forall_mem_singleton.mpr fun _ _ _ _ move => ?_)
    cases move with
    | fail _ _ targets edge => exact absurd targets (by decide)
  | cancel _ _ _ cancels =>
    refine ofQuiet fun change member => ?_
    obtain ⟨node, attempt, rfl⟩ := cancels change member
    exact Change.quietIn_cancel node attempt
  | recompute graphId =>
    exact ofQuiet (forall_mem_singleton.mpr (Change.quietIn_recompute graphId))
  | @commit graphId nodeId id node attempt wins resultRef completion =>
    obtain ⟨-, rfl, -⟩ := node?_eq_some.mp wins.found
    cases run with
    | cons commits rest =>
      cases rest with
      | cons recomputes done =>
        cases done with
        | nil => exact NoLostWakeUp.commit commits recomputes awake

theorem Tables.NoLostWakeUp.verb (awake : tables.NoLostWakeUp) (verb : Verb) (now : Timestamp) :
    (verb.exec now tables).2.NoLostWakeUp := by
  rw [verb.exec_tables now tables]
  generalize verb.transactions now tables = transactions
  induction transactions generalizing tables with
  | nil => exact awake
  | cons transaction rest ih => exact ih (awake.exec transaction now)

/-- A verb called at a time, with any arguments. -/
def verbStep (before : Tables) (call : Timestamp × Verb) (after : Tables) : Prop :=
  (call.2.exec call.1 before).2 = after

/-- No subtask that waits for its dependencies shares its id with one that
runs. -/
def Task.Unstarted (task : Task) : Prop :=
  ∀ first ∈ task.subtasks, ∀ second ∈ task.subtasks, first.id = second.id →
    task.nodeState first = NodeStatus.created.asStr →
      task.nodeState second ≠ NodeStatus.running.asStr

theorem guarded_importTask {task : Task} (unstarted : task.Unstarted)
    (safe : (importTask task .empty).DependencySafe) :
    Guarded task.id (importTask task .empty) := by
  have written := written_importTask task .empty
  obtain ⟨addedAttempts, attempts, origin⟩ := written.attempts_append
  have ofTask : ∀ attempt ∈ (importTask task .empty).attempts.rows,
      ∃ subtask ∈ task.subtasks, OfferedAttempt task subtask attempt := by
    intro attempt member
    rw [attempts] at member
    exact Task.exists_of_mem_offeredAttempts (origin attempt member).1
  have nodeOfTask : ∀ node ∈ (importTask task .empty).nodes.rows, node.graphId = task.id ∧
      ∃ subtask ∈ task.subtasks, subtask.id = node.nodeId ∧
        task.nodeState subtask = node.state := by
    intro node member
    rcases written.node_cases member with ⟨old, oldMem, -⟩ | ⟨sameGraph, -, subtask⟩
    · exact (not_mem_nil oldMem).elim
    · exact ⟨sameGraph, subtask⟩
  refine ⟨fun node member => (nodeOfTask node member).1, ?_, safe, ?_, ?_⟩
  · intro attempt member
    obtain ⟨subtask, -, offered⟩ := ofTask attempt member
    rw [offered.attemptId, offered.nodeId, offered.retryNo]
    exact ⟨offered.graphId, rfl⟩
  · rintro node member created ⟨attempt, attemptMem, sameNode, live⟩
    obtain ⟨-, first, firstMem, firstId, firstState⟩ := nodeOfTask node member
    obtain ⟨second, secondMem, offered⟩ := ofTask attempt attemptMem
    refine unstarted first firstMem second secondMem ?_ (firstState.trans created)
      (offered.status.symm.trans live)
    rw [firstId, ← sameNode, offered.nodeId]
  · intro node member waiting
    obtain ⟨-, subtask, -, -, state⟩ := nodeOfTask node member
    rw [waiting] at state
    rcases task.nodeState_cases subtask with other | other | other | other | other
    all_goals
      rw [state] at other
      exact absurd other (by decide)

/-- **Dependency safety and no lost wake-up.** After an import, in every state
that verbs lead to: if the import was safe, released nodes have their
dependencies done, as long as the verbs fail attempts for their own nodes; and if
no created node had its dependencies done, none ever has. -/
theorem readiness_of_run (task : Task) :
    (task.Unstarted → (importTask task .empty).DependencySafe → ∀ calls target,
      Run failsOwnedStep (importTask task .empty) calls target → target.DependencySafe) ∧
    ((importTask task .empty).NoLostWakeUp → ∀ calls target,
      Run verbStep (importTask task .empty) calls target → target.NoLostWakeUp) := by
  constructor
  · intro unstarted safe calls target run
    exact ((guarded_importTask unstarted safe).run run).safe
  · intro awake calls target run
    refine run.invariant (fun _ => True) ?_ (fun _ _ => trivial) awake
    rintro before ⟨now, verb⟩ after holds - rfl
    exact holds.verb verb now

theorem readiness_of_run_chainTask :
    ∃ target, Run failsOwnedStep (importTask chainTask .empty)
        [(1, .scheduleAttempt "g" "a" none), (2, .commitOnce "g" "a" "g:a:0" none)] target ∧
      target.DependencySafe ∧ target.NoLostWakeUp := by
  have unstarted : chainTask.Unstarted := by
    unfold Task.Unstarted
    decide
  have safe : (importTask chainTask .empty).DependencySafe := by
    unfold DependencySafe Released DependenciesDone Done Finished
    decide
  have awake : (importTask chainTask .empty).NoLostWakeUp := by
    unfold NoLostWakeUp DependenciesDone Done Finished
    decide
  have run : Run failsOwnedStep (importTask chainTask .empty)
      [(1, .scheduleAttempt "g" "a" none), (2, .commitOnce "g" "a" "g:a:0" none)] _ :=
    .cons ⟨trivial, rfl⟩ (.cons ⟨trivial, rfl⟩ (.nil _))
  have freeRun : Run verbStep (importTask chainTask .empty)
      [(1, .scheduleAttempt "g" "a" none), (2, .commitOnce "g" "a" "g:a:0" none)] _ :=
    .cons rfl (.cons rfl (.nil _))
  obtain ⟨staysSafe, staysAwake⟩ := readiness_of_run chainTask
  exact ⟨_, run, staysSafe unstarted safe _ _ run, staysAwake awake _ _ freeRun⟩

/-- Two subtasks under one id, one waiting for a dependency and one running. -/
def startedTask : Task :=
  { chainTask with
    subtasks := [pendingSubtask "a" ["x"], { pendingSubtask "a" [] with status := .inProgress }] }

/-- Safety fails where the imported attempt of a created node is failed, and
where an attempt is failed for a node it does not belong to: both re-arm a
created node. -/
theorem readiness_fails_startedTask :
    (¬ ∀ (task : Task) (calls : List (Timestamp × Verb)) (target : Tables),
      Run lifecycleStep (importTask task .empty) calls target →
        (importTask task .empty).DependencySafe → target.DependencySafe) ∧
    ¬ ∀ (task : Task) (calls : List (Timestamp × Verb)) (target : Tables), task.Unstarted →
      Run verbStep (importTask task .empty) calls target →
        (importTask task .empty).DependencySafe → target.DependencySafe := by
  unfold DependencySafe Released DependenciesDone Done Finished
  constructor
  · intro safety
    have run : Run lifecycleStep (importTask startedTask .empty)
        [(1, .failAttempt "g" "a" "g:a:0" 3)] _ :=
      .cons ⟨by unfold Verb.Owned Owns; decide, rfl⟩ (.nil _)
    exact absurd (safety _ _ _ run (by decide)) (by decide)
  · intro safety
    have run : Run verbStep (importTask chainTask .empty)
        [(1, .scheduleAttempt "g" "a" none), (2, .failAttempt "g" "b" "g:a:0" 3)] _ :=
      .cons rfl (.cons rfl (.nil _))
    exact absurd (safety _ _ _ (by unfold Task.Unstarted; decide) run (by decide)) (by decide)

end UltimateCoders.Graph
