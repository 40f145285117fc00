import UltimateCoders.Graph.Statements

/-! # What a projection write can change

A projection write, import or mirror, keeps state and version of every stored
node, inserts node rows for new keys only, and adds attempt and completion rows
that clash with no stored one.
-/

namespace UltimateCoders.Graph

open Relational Transition List

/-- Two rows of one node that agree on everything a lifecycle verb decides on,
its dependencies aside. -/
structure GraphNode.SameNode (first second : GraphNode) : Prop where
  graphId : first.graphId = second.graphId
  nodeId : first.nodeId = second.nodeId
  state : first.state = second.state
  version : first.version = second.version
  isOptional : first.isOptional = second.isOptional

theorem GraphNode.SameNode.refl (row : GraphNode) : row.SameNode row := ⟨rfl, rfl, rfl, rfl, rfl⟩

theorem GraphNode.SameNode.trans {first second third : GraphNode} (left : first.SameNode second)
    (right : second.SameNode third) : first.SameNode third where
  graphId := left.graphId.trans right.graphId
  nodeId := left.nodeId.trans right.nodeId
  state := left.state.trans right.state
  version := left.version.trans right.version
  isOptional := left.isOptional.trans right.isOptional

structure InsertedFor (graphId : String) (offered : List NodeRow) (row : GraphNode) : Prop where
  graphId : row.graphId = graphId
  version : row.version = 1
  isOptional : row.isOptional = false
  offered : ∃ node ∈ offered, node.nodeId = row.nodeId ∧ node.state = row.state

/-- Stored node rows are kept, up to refreshed columns, and the rows appended
after them have new keys. -/
def NodesWritten (graphId : String) (offered : List NodeRow) (before after : Tables) : Prop :=
  ∃ keep appended, after.nodes.rows = before.nodes.rows.map keep ++ appended ∧
    (∀ row, (keep row).SameNode row) ∧
    ∀ row ∈ appended, InsertedFor graphId offered row ∧ before.node? graphId row.nodeId = none

theorem NodesWritten.refl (graphId : String) (offered : List NodeRow) (tables : Tables) :
    NodesWritten graphId offered tables tables :=
  ⟨id, [], by simp, fun row => .refl row, by simp⟩

variable {graphId : String} {offered : List NodeRow}

variable {before after : Tables}

theorem NodesWritten.node?_isSome (written : NodesWritten graphId offered before after)
    {key nodeId : String} (stored : (before.node? key nodeId).isSome) :
    (after.node? key nodeId).isSome := by
  obtain ⟨keep, appended, rows, same, -⟩ := written
  obtain ⟨row, found⟩ := Option.isSome_iff_exists.mp stored
  obtain ⟨member, rfl, rfl⟩ := Tables.node?_eq_some.mp found
  have kept : keep row ∈ after.nodes.rows := by
    rw [rows]
    exact mem_append_left _ (mem_map_of_mem member)
  rw [Tables.node?_eq_some.mpr ⟨kept, (same row).graphId, (same row).nodeId⟩]
  rfl

theorem NodesWritten.trans {middle : Tables} (first : NodesWritten graphId offered before middle)
    (second : NodesWritten graphId offered middle after) :
    NodesWritten graphId offered before after := by
  have survives := @first.node?_isSome
  obtain ⟨keep, appended, rows, same, inserted⟩ := first
  obtain ⟨keepNext, appendedNext, rowsNext, sameNext, insertedNext⟩ := second
  refine ⟨keepNext ∘ keep, appended.map keepNext ++ appendedNext, ?_, ?_, ?_⟩
  · rw [rowsNext, rows, map_append, map_map, append_assoc]
  · intro row
    exact (sameNext (keep row)).trans (same row)
  · intro row member
    rcases mem_append.mp member with kept | added
    · obtain ⟨stored, storedMem, rfl⟩ := mem_map.mp kept
      obtain ⟨origin, fresh⟩ := inserted stored storedMem
      have agree := sameNext stored
      obtain ⟨node, nodeMem, nodeId, state⟩ := origin.offered
      refine ⟨⟨agree.graphId.trans origin.graphId, agree.version.trans origin.version,
        agree.isOptional.trans origin.isOptional, node, nodeMem, nodeId.trans agree.nodeId.symm,
        state.trans agree.state.symm⟩, ?_⟩
      rw [agree.nodeId]
      exact fresh
    · obtain ⟨origin, fresh⟩ := insertedNext row added
      refine ⟨origin, ?_⟩
      by_contra stored
      have stillThere := survives (Option.ne_none_iff_isSome.mp stored)
      rw [fresh] at stillThere
      exact absurd stillThere (by decide)

theorem refreshNode_written (tables : Tables) (graphId : String) (node : NodeRow)
    (offered : List NodeRow) :
    NodesWritten graphId offered tables (tables.refreshNode graphId node) := by
  refine ⟨_, [], (append_nil _).symm, fun stored => ?_, by simp⟩
  split
  · exact ⟨rfl, rfl, rfl, rfl, rfl⟩
  · exact .refl stored

theorem upsertNode_spec (tables : Tables) (graphId : String) (shadow : Bool) {node : NodeRow}
    (member : node ∈ offered) :
    NodesWritten graphId offered tables (tables.upsertNode graphId shadow node) ∧
      ((tables.upsertNode graphId shadow node).node? graphId node.nodeId).isSome ∧
      (tables.upsertNode graphId shadow node).attempts = tables.attempts ∧
      (tables.upsertNode graphId shadow node).completions = tables.completions := by
  unfold Tables.upsertNode
  cases found : tables.node? graphId node.nodeId with
  | none =>
    rw [if_pos Option.isNone_none]
    have free : tables.nodes.Free (node.toNode graphId) := by
      intro stored storedMem clashes
      exact Tables.node?_eq_none.mp found stored storedMem ⟨clashes.2, clashes.1⟩
    have rows := Table.rows_insertOrIgnore_of_free free
    refine ⟨⟨id, [node.toNode graphId], ?_, fun row => .refl row, ?_⟩, ?_, rfl, rfl⟩
    · rw [map_id]
      exact rows
    · intro row rowMem
      rw [mem_singleton.mp rowMem]
      exact ⟨⟨rfl, rfl, rfl, node, member, rfl, rfl⟩, found⟩
    · have stored : node.toNode graphId ∈
          (tables.nodes.insertOrIgnore (node.toNode graphId)).rows := by
        rw [rows]
        exact mem_append_right _ mem_cons_self
      exact Tables.node?_isSome_of_mem stored rfl rfl
  | some row =>
    rw [if_neg (by simp only [Option.isNone_some, Bool.false_eq_true, not_false_eq_true])]
    have stored : (tables.node? graphId node.nodeId).isSome := by
      rw [found]
      rfl
    cases shadow with
    | false => exact ⟨.refl _ _ _, stored, rfl, rfl⟩
    | true =>
      have written := refreshNode_written tables graphId node offered
      exact ⟨written, written.node?_isSome stored, rfl, rfl⟩

/-- Writing the offered node rows keeps the stored ones and leaves every
offered key stored. -/
theorem writeNodes_run (graphId : String) (shadow : Bool) (existing : List (String × String))
    (offered all : List NodeRow) (subset : ∀ node ∈ offered, node ∈ all) (stats : BackfillStats)
    (before : Tables)
    (known : ∀ nodeId state, existing.lookup nodeId = some state →
      (before.node? graphId nodeId).isSome) :
    ∃ result after,
      (writeNodes graphId shadow existing offered stats).run before = .ok (result, after) ∧
        NodesWritten graphId all before after ∧
        (∀ node ∈ offered, (after.node? graphId node.nodeId).isSome) ∧
        after.attempts = before.attempts ∧ after.completions = before.completions := by
  induction offered generalizing stats before with
  | nil => exact ⟨stats, before, rfl, .refl _ _ _, by simp, rfl, rfl⟩
  | cons node rest ih =>
    have restSubset := fun other member => subset other (mem_cons_of_mem node member)
    have upserted := upsertNode_spec before graphId shadow (subset node mem_cons_self)
    have write : ∀ stats, ∃ result after,
        (do
          set (before.upsertNode graphId shadow node)
          writeNodes graphId shadow existing rest stats).run before = .ok (result, after) ∧
          NodesWritten graphId all before after ∧
          (∀ other ∈ node :: rest, (after.node? graphId other.nodeId).isSome) ∧
          after.attempts = before.attempts ∧ after.completions = before.completions := by
      intro stats
      obtain ⟨written, stored, attempts, completions⟩ := upserted
      obtain ⟨result, after, ran, writtenNext, storedNext, attemptsNext, completionsNext⟩ :=
        ih restSubset stats (before.upsertNode graphId shadow node)
          fun nodeId state found => written.node?_isSome (known nodeId state found)
      refine ⟨result, after, ran, written.trans writtenNext, ?_, attemptsNext.trans attempts,
        completionsNext.trans completions⟩
      intro other member
      rcases mem_cons.mp member with rfl | later
      · exact writtenNext.node?_isSome stored
      · exact storedNext other later
    unfold writeNodes
    rw [StateT.run_bind, StateT.run_get, pure_bind]
    cases found : (if shadow = true then existing.lookup node.nodeId else none) with
    | none => exact write _
    | some prevState =>
      by_cases allowed : mirrorWriteAllowed prevState node.state = true
      · simp only [allowed, Bool.not_true, Bool.false_eq_true, ↓reduceIte]
        exact write _
      · have lookup : existing.lookup node.nodeId = some prevState := by
          cases shadow with
          | false => cases found
          | true => exact found
        obtain ⟨result, after, ran, written, stored, others⟩ := ih restSubset
          { stats with mirrorRejected := stats.mirrorRejected + 1 } before known
        refine ⟨result, after, ?_, written, ?_, others⟩
        · simp only [allowed, Bool.not_false, ↓reduceIte]
          exact ran
        · intro other member
          rcases mem_cons.mp member with rfl | later
          · exact written.node?_isSome (known other.nodeId prevState lookup)
          · exact stored other later

/-- Rows of these nodes are written, or one of the nodes is missing. -/
def Inserts (write : GraphTx Nat) (before after : Tables) (graphId : String)
    (nodeIds : List String) : Prop :=
  (∃ inserted, write.run before = .ok (inserted, after)) ∨
    (∃ failure, write.run before = .error failure) ∧
      ∃ nodeId ∈ nodeIds, before.node? graphId nodeId = none

section Inserts

variable {write : GraphTx Nat} {next : Tables} {nodeId : String} {nodeIds : List String}

theorem Inserts.eq (inserts : Inserts write before after graphId nodeIds) {count : Nat}
    (ran : write.run before = .ok (count, next)) : next = after := by
  rcases inserts with ⟨inserted, wrote⟩ | ⟨⟨failure, failed⟩, -⟩
  · cases ran.symm.trans wrote
    rfl
  · cases ran.symm.trans failed

theorem Inserts.ok (inserts : Inserts write before after graphId nodeIds)
    (known : ∀ nodeId ∈ nodeIds, (before.node? graphId nodeId).isSome) :
    ∃ inserted next, write.run before = .ok (inserted, next) ∧ next = after := by
  rcases inserts with ⟨inserted, wrote⟩ | ⟨-, nodeId, member, missing⟩
  · exact ⟨inserted, after, wrote, rfl⟩
  · exact absurd missing (Option.isSome_iff_ne_none.mp (known nodeId member))

theorem Inserts.get {body : Tables → GraphTx Nat}
    (inserts : Inserts (body before) before after graphId nodeIds) :
    Inserts (get >>= body) before after graphId nodeIds := inserts

theorem Inserts.skip (inserts : Inserts write before after graphId nodeIds) :
    Inserts write before after graphId (nodeId :: nodeIds) :=
  inserts.imp_right fun ⟨failed, other, member, missing⟩ =>
    ⟨failed, other, mem_cons_of_mem _ member, missing⟩

theorem Inserts.add (inserts : Inserts write next after graphId nodeIds)
    (same : next.nodes = before.nodes) (failure : EngineError) :
    Inserts (if (before.node? graphId nodeId).isNone then throw failure
      else do
        set next
        let inserted ← write
        return inserted + 1) before after graphId (nodeId :: nodeIds) := by
  cases stored : before.node? graphId nodeId with
  | none => exact .inr ⟨⟨failure, rfl⟩, nodeId, mem_cons_self, stored⟩
  | some node =>
    rcases inserts with ⟨inserted, wrote⟩ | ⟨⟨failure, failed⟩, other, member, missing⟩
    · exact .inl ⟨inserted + 1, (Tx.run_bind_of wrote :
        (write >>= fun inserted => pure (inserted + 1)).run next = _)⟩
    · refine .inr ⟨⟨failure, ?_⟩, other, mem_cons_of_mem _ member, ?_⟩
      · exact congrArg (Except.bind · fun result => (pure (result.1 + 1) : GraphTx Nat) result.2) failed
      · rwa [Tables.node?, same] at missing

end Inserts

theorem writeAttempts_inserts (offered : List AttemptRow) (before : Tables) :
    Inserts (writeAttempts graphId offered) before { before with
      attempts := before.attempts.insertAllOrIgnore
        (offered.map fun attempt => attempt.toAttempt graphId) } graphId
      (offered.map AttemptRow.nodeId) := by
  induction offered generalizing before with
  | nil => exact .inl ⟨0, rfl⟩
  | cons attempt rest ih =>
    rw [map_cons, map_cons, Table.insertAllOrIgnore_cons]
    unfold writeAttempts
    refine Inserts.get ?_
    dsimp only
    by_cases free : before.attempts.Free (attempt.toAttempt graphId)
    · simp only [free, decide_true, Bool.not_true, Bool.false_eq_true, ↓reduceIte]
      exact Inserts.add (ih _) (by rfl) _
    · simp only [free, decide_false, Bool.not_false, ↓reduceIte]
      rw [Table.insertOrIgnore_of_not_free free]
      exact (ih before).skip

theorem writeCompletions_inserts (updatedAt : Timestamp) (offered : List CompletionRow)
    (before : Tables) :
    Inserts (writeCompletions graphId updatedAt offered) before { before with
      completions := before.completions.insertAllOrIgnore
        (offered.map fun completion => completion.toCompletion graphId updatedAt) } graphId
      (offered.map CompletionRow.nodeId) := by
  induction offered generalizing before with
  | nil => exact .inl ⟨0, rfl⟩
  | cons completion rest ih =>
    rw [map_cons, map_cons, Table.insertAllOrIgnore_cons]
    unfold writeCompletions
    refine Inserts.get ?_
    dsimp only
    by_cases free : before.completions.Free (completion.toCompletion graphId updatedAt)
    · simp only [free, decide_true, Bool.not_true, Bool.false_eq_true, ↓reduceIte]
      exact Inserts.add (ih _) (by rfl) _
    · simp only [free, decide_false, Bool.not_false, ↓reduceIte]
      rw [Table.insertOrIgnore_of_not_free free]
      exact (ih before).skip

theorem writeGraph_run (p : GraphProjection) (shadow imported : Bool) (before : Tables) :
    ∃ count after, (writeGraph p shadow imported).run before = .ok (count, after) ∧
      before.SameRows after := by
  unfold writeGraph
  rw [StateT.run_bind, StateT.run_get, pure_bind]
  cases found : before.graph? p.graphId with
  | none => exact ⟨_, _, rfl, rfl, rfl, rfl⟩
  | some row =>
    cases shadow with
    | true | false => exact ⟨_, _, rfl, rfl, rfl, rfl⟩

/-- A projection write that commits. -/
structure Written (p : GraphProjection) (before after : Tables) : Prop where
  nodes : NodesWritten p.graphId p.nodes before after
  stored : ∀ node ∈ p.nodes, (after.node? p.graphId node.nodeId).isSome
  attempts : after.attempts = before.attempts.insertAllOrIgnore
    (p.attempts.map fun attempt => attempt.toAttempt p.graphId)
  completions : after.completions = before.completions.insertAllOrIgnore
    (p.completions.map fun completion => completion.toCompletion p.graphId p.updatedAt)

theorem lookup_nodeStates {tables : Tables} {graphId nodeId state : String}
    (found : (tables.nodeStates graphId).lookup nodeId = some state) :
    (tables.node? graphId nodeId).isSome := by
  obtain ⟨earlier, later, split, -⟩ := lookup_eq_some_iff.mp found
  have member : (nodeId, state) ∈ tables.nodeStates graphId := by
    rw [split]
    exact mem_append_right _ mem_cons_self
  obtain ⟨row, rowMem, pair⟩ := mem_map.mp member
  obtain ⟨stored, sameGraph⟩ := mem_filter.mp rowMem
  cases pair
  exact Tables.node?_isSome_of_mem stored (of_decide_eq_true sameGraph) rfl

/-- A projection write rolls back or writes its rows. -/
theorem writeProjection_spec (p : GraphProjection) (shadow imported : Bool) (before : Tables) :
    (∃ failure, writeProjection p shadow imported before = (.error failure, before)) ∨
      ∃ stats after, writeProjection p shadow imported before = (.ok stats, after) ∧
        Written p before after := by
  unfold writeProjection
  cases ran : (writeProjectionTx p shadow imported).run before with
  | error failure =>
    rw [atomically_of_error ran]
    exact .inl ⟨failure, rfl⟩
  | ok pair =>
    obtain ⟨result, after⟩ := pair
    rw [atomically_of_ok ran]
    refine .inr ⟨result, after, rfl, ?_⟩
    unfold writeProjectionTx at ran
    obtain ⟨count, stamped, stamp, sameStamped⟩ := writeGraph_run p shadow imported before
    rw [Tx.run_bind_of stamp, StateT.run_bind, StateT.run_get, pure_bind] at ran
    obtain ⟨stats, placed, place, written, stored, attempts, completions⟩ := writeNodes_run
      p.graphId shadow (if shadow = true then stamped.nodeStates p.graphId else []) p.nodes p.nodes
      (fun _ member => member) { graphs := count } stamped (by
        intro nodeId state found
        cases shadow with
        | true => exact lookup_nodeStates found
        | false => cases found)
    rw [Tx.run_bind_of place] at ran
    obtain ⟨attemptCount, tried, wroteAttempts, ran⟩ := Tx.run_bind_ok ran
    obtain ⟨completionCount, last, wroteCompletions, ran⟩ := Tx.run_bind_ok ran
    have triedEq := (writeAttempts_inserts _ _).eq wroteAttempts
    have lastEq := (writeCompletions_inserts _ _ _).eq wroteCompletions
    cases ran
    subst lastEq triedEq
    refine ⟨?_, stored, ?_, ?_⟩
    · obtain ⟨keep, appended, rows, same, inserted⟩ := written
      refine ⟨keep, appended, ?_, same, fun row member => ⟨(inserted row member).1, ?_⟩⟩
      · rw [← sameStamped.nodes]
        exact rows
      · rw [← sameStamped.node?_eq]
        exact (inserted row member).2
    · rw [← sameStamped.attempts, ← attempts]
    · rw [← sameStamped.completions, ← completions]

theorem writeProjection_ok {p : GraphProjection}
    (attemptNodes : ∀ attempt ∈ p.attempts, ∃ node ∈ p.nodes, node.nodeId = attempt.nodeId)
    (completionNodes : ∀ completion ∈ p.completions,
      ∃ node ∈ p.nodes, node.nodeId = completion.nodeId)
    (shadow imported : Bool) (before : Tables) :
    ∃ stats after, writeProjection p shadow imported before = (.ok stats, after) := by
  obtain ⟨count, stamped, stamp, -⟩ := writeGraph_run p shadow imported before
  obtain ⟨stats, placed, place, -, stored, -, -⟩ := writeNodes_run p.graphId shadow
    (if shadow = true then stamped.nodeStates p.graphId else []) p.nodes p.nodes
    (fun _ member => member) { graphs := count } stamped (by
      intro nodeId state found
      cases shadow with
      | true => exact lookup_nodeStates found
      | false => cases found)
  obtain ⟨attemptCount, tried, wroteAttempts, triedEq⟩ :=
    (writeAttempts_inserts p.attempts placed).ok (by
    intro nodeId member
    obtain ⟨attempt, attemptMem, rfl⟩ := mem_map.mp member
    obtain ⟨node, nodeMem, same⟩ := attemptNodes attempt attemptMem
    rw [← same]
    exact stored node nodeMem)
  obtain ⟨completionCount, last, wroteCompletions, -⟩ :=
    (writeCompletions_inserts p.updatedAt p.completions tried).ok (by
      intro nodeId member
      obtain ⟨completion, completionMem, rfl⟩ := mem_map.mp member
      obtain ⟨node, nodeMem, same⟩ := completionNodes completion completionMem
      rw [← same, triedEq]
      exact stored node nodeMem)
  refine ⟨{ stats with attempts := attemptCount, completions := completionCount }, last,
    atomically_of_ok ?_⟩
  unfold writeProjectionTx
  rw [Tx.run_bind_of stamp, StateT.run_bind, StateT.run_get, pure_bind, Tx.run_bind_of place,
    Tx.run_bind_of wroteAttempts, Tx.run_bind_of wroteCompletions]
  rfl

end UltimateCoders.Graph
