import UltimateCoders.Graph.MergeGrant
import UltimateCoders.Graph.Readiness
import UltimateCoders.Transition.History

/-! # The merge barrier

An outcome is accepted at most once per written grant, and only while the graph
still derives the granted key, in every interleaving of merge calls and
lifecycle transactions in which a report consumes the grant that it read, and no
commit wins while a grant of its graph is outstanding.
-/

namespace UltimateCoders.Graph

open Relational Transition List

/-! ## What lifecycle transactions leave alone -/

variable (graphId nodeId : String) (sha256Hex : String → String) (now : Timestamp) {tables : Tables}

section Grants

variable {grants : Table MergeGrant MergeGrant.Clash} {graphId nodeId} {now}

abbrev KeepsGrants {α : Type} (grants : Table MergeGrant MergeGrant.Clash) (body : GraphTx α) :
    Prop :=
  Tx.Keeps (fun tables => tables.grants = grants) body

theorem bumpGraphVersion_grants : KeepsGrants grants (bumpGraphVersion graphId now) := by
  refine .get_bind fun store same => ?_
  cases store.graph? graphId with
  | none | some row => exact .bind (.modify fun _ same => same) fun _ => .pure _ _

theorem appendEvent_grants {nodeId attemptId : Option String} {graphVersion : Option Nat}
    {eventType : EventType} :
    KeepsGrants grants (appendEvent graphId nodeId attemptId graphVersion eventType) :=
  .modify fun _ same => same

theorem casNodeState_grants {expectState : String} {expectVersion : Nat} {newState : String} :
    KeepsGrants grants (casNodeState graphId nodeId expectState expectVersion newState) := by
  unfold casNodeState
  split
  · exact .throw _ _
  · exact .get_bind fun store same => .bind (.set same) fun _ => .pure _ _

theorem probeRetry_grants : KeepsGrants grants (probeRetry graphId nodeId) := by
  refine .get_bind fun store same => ?_
  split
  · exact .throw _ _
  · exact .pure _ _

theorem insertAttempt_grants {row : TaskAttempt} {context : String} :
    KeepsGrants grants (insertAttempt row context) := by
  refine .get_bind fun store same => ?_
  split
  · exact .throw _ _
  · split
    · exact .set same
    · exact .throw _ _

theorem scheduleAttemptTx_grants {workerId : Option String} :
    KeepsGrants grants (scheduleAttemptTx graphId nodeId workerId now) := by
  refine .get_bind fun store same => ?_
  cases store.node? graphId nodeId with
  | none => exact .pure _ _
  | some node =>
    simp only
    split
    · exact .pure _ _
    · refine .bind probeRetry_grants fun probe => ?_
      refine .bind bumpGraphVersion_grants fun gv => ?_
      refine .bind casNodeState_grants fun scheduled => ?_
      split
      · exact .bind (.set same) fun _ => .pure _ _
      · refine .bind appendEvent_grants fun _ => ?_
        refine .bind casNodeState_grants fun running => ?_
        split
        · exact .bind (.set same) fun _ => .pure _ _
        · refine .bind appendEvent_grants fun _ => ?_
          refine .bind insertAttempt_grants fun _ => ?_
          exact .bind appendEvent_grants fun _ => .pure _ _

theorem retryFailedNodeTx_grants :
    KeepsGrants grants (retryFailedNodeTx graphId nodeId now) := by
  refine .get_bind fun store same => ?_
  cases store.node? graphId nodeId with
  | none => exact .pure _ _
  | some node =>
    simp only
    split
    · exact .pure _ _
    · refine .bind bumpGraphVersion_grants fun gv => ?_
      refine .bind casNodeState_grants fun moved => ?_
      split
      · exact .bind (.set same) fun _ => .pure _ _
      · exact .bind appendEvent_grants fun _ => .pure _ _

theorem heartbeatAttemptTx_grants {attemptId : String} :
    KeepsGrants grants (heartbeatAttemptTx attemptId now) := by
  refine .get_bind fun store same => ?_
  cases store.attempt? attemptId with
  | none => exact .pure _ _
  | some attempt =>
    refine .bind (.set same) fun _ => ?_
    split
    · exact .bind appendEvent_grants fun _ => .pure _ _
    · exact .pure _ _

theorem flipReady_grants {finished candidates : List GraphNode} {gv : Option Nat} :
    KeepsGrants grants (flipReady graphId finished now candidates gv) := by
  induction candidates generalizing gv with
  | nil => exact .pure _ _
  | cons node rest ih =>
    unfold flipReady
    split
    · exact ih
    · refine .bind casNodeState_grants fun moved => ?_
      split
      · exact ih
      · have ensured : KeepsGrants grants (ensureGraphVersion graphId gv now) := by
          cases gv with
          | none => exact bumpGraphVersion_grants
          | some version => exact .pure _ _
        refine .bind ensured fun version => ?_
        refine .bind appendEvent_grants fun _ => ?_
        exact .bind ih fun _ => .pure _ _

theorem recomputeReadyTx_grants {gv : Option Nat} :
    KeepsGrants grants (recomputeReadyTx graphId gv now) :=
  .get_bind fun _ _ => flipReady_grants

theorem commitWinner_grants {node : GraphNode} {completion : NodeCompletion} :
    KeepsGrants grants (commitWinner node completion now) := by
  unfold commitWinner moveWhereLegal
  refine .bind (.modify fun _ same => same) fun _ => ?_
  refine .bind bumpGraphVersion_grants fun gv => ?_
  refine .bind (.modify fun _ same => same) fun _ => ?_
  refine .bind ?_ fun _ => ?_
  · split
    · exact casNodeState_grants
    · exact .pure _ _
  · refine .bind appendEvent_grants fun _ => ?_
    exact .bind recomputeReadyTx_grants fun _ => .pure _ _

theorem lateResult_grants {Answer : Type} {id : String} {answer : Answer} :
    KeepsGrants grants (do
      appendEvent graphId (some nodeId) (some id) none .lateResult
      return answer) :=
  .bind appendEvent_grants fun _ => .pure _ _

theorem commitOnceTx_grants {id : String} {resultRef : Option String} :
    KeepsGrants grants (commitOnceTx graphId nodeId id resultRef now) := by
  refine .get_bind fun store same => ?_
  simp only
  split
  · split
    · exact lateResult_grants
    · split
      · exact commitWinner_grants
      · exact lateResult_grants
  · exact lateResult_grants

theorem failAttemptTx_grants {id : String} {maxAttempts : Int} :
    KeepsGrants grants (failAttemptTx graphId nodeId id maxAttempts now) := by
  refine .get_bind fun store same => ?_
  simp only
  split
  · split
    · refine .bind (.modify fun _ same => same) fun _ => ?_
      refine .bind bumpGraphVersion_grants fun gv => ?_
      refine .bind appendEvent_grants fun _ => ?_
      split
      all_goals
        dsimp only
        split
        · refine .bind casNodeState_grants fun _ => ?_
          exact .bind appendEvent_grants fun _ => .pure _ _
        · exact .pure _ _
    · exact lateResult_grants
  · exact lateResult_grants

theorem cancelNodesTx_grants {nodeIds : List String} :
    KeepsGrants grants (cancelNodesTx graphId now nodeIds) := by
  induction nodeIds with
  | nil => exact .pure _ _
  | cons nodeId rest ih =>
    refine .get_bind fun store same => ?_
    cases store.node? graphId nodeId with
    | none => exact ih
    | some node =>
      simp only
      split
      · exact ih
      · have cancels : KeepsGrants grants (cancelLiveNode graphId nodeId node now) := by
          refine .get_bind fun tables there => ?_
          have stopped : (tables.stopRunning graphId nodeId now).grants = grants := by
            unfold Tables.stopRunning
            split
            · exact there
            · exact there
          refine .bind (.set stopped) fun _ => ?_
          refine .bind bumpGraphVersion_grants fun gv => ?_
          refine .bind casNodeState_grants fun _ => ?_
          exact appendEvent_grants
        exact .bind cancels fun _ => .bind ih fun _ => .pure _ _

end Grants

theorem Transaction.exec_grants (transaction : Transaction) (now : Timestamp) (tables : Tables) :
    (transaction.exec now tables).grants = tables.grants := by
  cases transaction with
  | scheduleAttempt graphId nodeId workerId =>
    exact scheduleAttemptTx_grants.atomically rfl
  | heartbeatAttempt attemptId => exact heartbeatAttemptTx_grants.atomically rfl
  | commitOnce graphId nodeId id resultRef =>
    exact commitOnceTx_grants.atomically rfl
  | failAttempt graphId nodeId id maxAttempts =>
    exact failAttemptTx_grants.atomically rfl
  | cancelNodes graphId nodeIds =>
    exact cancelNodesTx_grants.atomically rfl
  | retryFailedNode graphId nodeId =>
    exact retryFailedNodeTx_grants.atomically rfl
  | recomputeReady graphId => exact recomputeReadyTx_grants.atomically rfl

variable {graphId : String}

/-- A change that makes no node of the graph succeed leaves its outputs. -/
theorem Change.Applies.succeededOutputs_eq {before after : Tables} {change : Change}
    (applies : change.Applies before after) (quiet : change.QuietIn graphId) :
    after.succeededOutputs graphId = before.succeededOutputs graphId := by
  obtain ⟨rewrite, rows, spec⟩ := applies.restates
  have sameState : ∀ node : GraphNode, node.graphId = graphId →
      ((rewrite node).state = "SUCCEEDED" ↔ node.state = "SUCCEEDED") := by
    intro node sameGraph
    have state : (rewrite node).state = change.stateAfter before node := (spec node).2
    rcases applies.stateAfter_cases node with same | ⟨source, target, move, started, moved⟩
    · rw [state, same]
    · rw [state, moved, started]
      have left : source ≠ .succeeded := by
        rintro rfl
        exact absurd move.ends.1 (by decide)
      have reached : target ≠ .succeeded := by
        rintro rfl
        exact quiet before node source move sameGraph
      exact iff_of_false (fun same => reached (NodeStatus.asStr_injective same))
        (fun same => left (NodeStatus.asStr_injective same))
  have sameRef : ∀ nodeId, (after.completions.rows.find? fun completion =>
        completion.nodeId = nodeId ∧ completion.graphId = graphId) =
      before.completions.rows.find? fun completion =>
        completion.nodeId = nodeId ∧ completion.graphId = graphId := by
    intro nodeId
    cases applies with
    | @commit _ _ node attempt completion nodeMem attemptMem live unfinished ofNode ofGraph winner
        free nodes attempts completions =>
        have foreign : node.graphId ≠ graphId := quiet before _ _ (.commit node attempt completion)
        have missed : ¬ (completion.nodeId = nodeId ∧ completion.graphId = graphId) := fun hit =>
          foreign (ofGraph.symm.trans hit.2)
        rw [completions, find?_append, find?_singleton,
          if_neg (by rw [decide_eq_true_eq]; exact missed), Option.or_none]
    | idle nodes attempts completions => rw [completions]
    | schedule member ready sameGraph sameNode identity live retryNo workerEpoch free nodes attempts
        completions => rw [completions]
    | retry member failed nodes attempts completions => rw [completions]
    | fail member attemptMem live unfinished targets nodes attempts completions => rw [completions]
    | cancel member live chosen missing nodes attempts completions => rw [completions]
    | recompute nodes attempts completions => rw [completions]
  unfold Tables.succeededOutputs
  rw [rows, filter_map, map_map]
  have sameRows : (before.nodes.rows.filter ((fun node : GraphNode =>
        decide (node.graphId = graphId ∧ node.state = "SUCCEEDED")) ∘ rewrite)) =
      before.nodes.rows.filter fun node =>
        decide (node.graphId = graphId ∧ node.state = "SUCCEEDED") := by
    apply filter_congr
    intro node _
    rw [Function.comp, decide_eq_decide, (spec node).1.graphId]
    exact and_congr_right fun sameGraph => sameState node sameGraph
  rw [sameRows]
  apply map_congr_left
  intro node member
  have sameGraph := (of_decide_eq_true (mem_filter.mp member).2).1
  have place := (spec node).1
  rw [Function.comp, place.nodeId, place.graphId, sameGraph, sameRef]

def Transaction.WinsOn (transaction : Transaction) (tables : Tables) (graphId : String) : Prop :=
  ∃ nodeId id resultRef node attempt, transaction = .commitOnce graphId nodeId id resultRef ∧
    tables.CommitWins graphId nodeId id node attempt

theorem Transaction.exec_succeededOutputs {transaction : Transaction}
    (loses : ¬ transaction.WinsOn tables graphId) (now : Timestamp) :
    (transaction.exec now tables).succeededOutputs graphId = tables.succeededOutputs graphId := by
  obtain ⟨changes, effect, run⟩ := transaction.exec_changes now tables
  have quiet : ∀ change ∈ changes, change.QuietIn graphId := by
    cases effect with
    | rollback => exact fun _ member => (not_mem_nil member).elim
    | idle | schedule | retry => exact forall_mem_singleton.mpr fun _ _ _ move => nomatch move
    | fail =>
      refine forall_mem_singleton.mpr fun _ _ _ move => ?_
      cases move with
      | fail _ _ targets edge => exact absurd targets (by decide)
    | cancel _ _ _ cancels =>
      intro change member
      obtain ⟨node, attempt, rfl⟩ := cancels change member
      exact Change.quietIn_cancel node attempt graphId
    | recompute other => exact forall_mem_singleton.mpr (Change.quietIn_recompute other graphId)
    | @commit other nodeId id node attempt wins resultRef completion =>
      obtain ⟨-, sameGraph, -⟩ := Tables.node?_eq_some.mp wins.found
      refine forall_mem_cons.mpr ⟨fun _ _ _ move => ?_,
        forall_mem_singleton.mpr (Change.quietIn_recompute other graphId)⟩
      cases move with
      | commit =>
        intro ofGraph
        have same : other = graphId := sameGraph.symm.trans ofGraph
        subst same
        exact loses ⟨nodeId, id, resultRef, node, attempt, rfl, wins⟩
  have keeps : ∀ before change after,
      before.succeededOutputs graphId = tables.succeededOutputs graphId →
        Change.QuietIn change graphId → change.Applies before after →
          after.succeededOutputs graphId = tables.succeededOutputs graphId :=
    fun _ _ _ same quiet applies => (applies.succeededOutputs_eq quiet).trans same
  have start : tables.succeededOutputs graphId = tables.succeededOutputs graphId := rfl
  exact run.invariant (fun change => change.QuietIn graphId) keeps quiet start

/-! ## The law -/

/-- A report of the key was accepted, and not as a replay. -/
def MergeEvent.Accepts (graphId key : String) (event : MergeEvent) : Prop :=
  ∃ current, event = .reported graphId key ⟨true, false⟩ current

/-- Between two accepted reports of a key its grant was written again. -/
def AcceptedOnce (log : List MergeEvent) : Prop :=
  ∀ graphId key earlier first between second later,
    log = earlier ++ first :: (between ++ second :: later) →
      first.Accepts graphId key → second.Accepts graphId key → .issued graphId key ∈ between

/-- A report was accepted only while the graph derived its key. -/
def AcceptedCurrent (log : List MergeEvent) : Prop :=
  ∀ graphId key current, .reported graphId key ⟨true, false⟩ current ∈ log → current = key

/-- No grant that was not consumed has had its key accepted since it was
written. -/
def Unspent (tables : Tables) (log : List MergeEvent) : Prop :=
  ∀ grant ∈ tables.grants.rows, grant.consumedAt = none → ∀ earlier first between,
    log = earlier ++ first :: between → first.Accepts grant.graphId grant.mergeIdempotencyKey →
      .issued grant.graphId grant.mergeIdempotencyKey ∈ between

section Extend

variable {before after : Tables} {log : List MergeEvent} {event : MergeEvent}
  (once : AcceptedOnce log) (unspent : Unspent before log)
  (accepted : ∀ graphId key, event.Accepts graphId key → ∃ grant ∈ before.grants.rows,
    grant.graphId = graphId ∧ grant.mergeIdempotencyKey = key ∧ grant.consumedAt = none)
  (written : ∀ grant ∈ after.grants.rows, grant.consumedAt = none →
    (grant ∈ before.grants.rows ∧ ¬ event.Accepts grant.graphId grant.mergeIdempotencyKey) ∨
      event = .issued grant.graphId grant.mergeIdempotencyKey)

include unspent

include once accepted in
theorem AcceptedOnce.append : AcceptedOnce (log ++ [event]) := by
  intro graphId key earlier first between second later same firstAccepts secondAccepts
  rcases append_singleton_eq same with ⟨-, -, empty⟩ | ⟨between', tail, split⟩
  · exact absurd empty (by simp)
  · rcases append_singleton_eq tail.symm with ⟨rfl, rfl, -⟩ | ⟨later', -, split'⟩
    · obtain ⟨grant, member, rfl, rfl, isOpen⟩ := accepted graphId key secondAccepts
      exact unspent grant member isOpen earlier first between split firstAccepts
    · rw [split'] at split
      exact once graphId key earlier first between second later' split firstAccepts secondAccepts

include written in
theorem Unspent.append : Unspent after (log ++ [event]) := by
  intro grant member isOpen earlier first between same accepts
  rcases append_singleton_eq same with ⟨-, rfl, rfl⟩ | ⟨between', rfl, split⟩
  · rcases written grant member isOpen with ⟨-, spends⟩ | rfl
    · exact (spends accepts).elim
    · obtain ⟨current, impossible⟩ := accepts
      cases impossible
  · rcases written grant member isOpen with ⟨old, -⟩ | issued
    · exact mem_append_left _ (unspent grant old isOpen earlier first between' split accepts)
    · rw [issued]
      exact mem_append_right _ mem_cons_self

end Extend

/-! ## Statements of merge calls -/

theorem mem_upsertGrant {graphId key : String} {now : Timestamp} {grant : MergeGrant}
    (member : grant ∈ (tables.upsertGrant graphId key now).grants.rows) :
    (grant.graphId = graphId ∧ grant.mergeIdempotencyKey = key) ∨ grant ∈ tables.grants.rows := by
  unfold Tables.upsertGrant at member
  split at member
  · rcases Table.mem_of_mem_insertOrIgnore member with old | rfl
    · exact .inr old
    · exact .inl ⟨rfl, rfl⟩
  · obtain ⟨old, oldMem, rfl⟩ := mem_map.mp member
    split
    · rename_i same
      exact .inl ⟨same, rfl⟩
    · exact .inr oldMem

theorem mem_consumeGrant {graphId key : String} {outcome : MergeOutcomeReport} {now : Timestamp}
    {grant : MergeGrant}
    (member : grant ∈ (tables.consumeGrant graphId key outcome now).grants.rows)
    (isOpen : grant.consumedAt = none) :
    grant ∈ tables.grants.rows ∧ ¬ (grant.graphId = graphId ∧ grant.mergeIdempotencyKey = key) := by
  obtain ⟨old, oldMem, rfl⟩ := mem_map.mp member
  split at isOpen
  · cases isOpen
  · rename_i other
    rw [if_neg other]
    exact ⟨oldMem, fun both => other ⟨both.1, both.2, isOpen⟩⟩

theorem mergeKey_upsertGrant (tables : Tables) (graphId key : String) (now : Timestamp)
    (other : String) : (tables.upsertGrant graphId key now).mergeKey sha256Hex other =
      tables.mergeKey sha256Hex other := by
  unfold Tables.upsertGrant
  split
  · rfl
  · rfl

/-- The event neither accepts a report nor writes a grant. -/
def MergeEvent.Quiet (event : MergeEvent) : Prop :=
  ∀ graphId key, ¬ event.Accepts graphId key ∧ event ≠ .issued graphId key

theorem MergeEvent.quiet_reported {decision : MergeReportDecision} (other : decision ≠ ⟨true, false⟩)
    (graphId key current : String) : (MergeEvent.reported graphId key decision current).Quiet := by
  refine fun _ _ => ⟨?_, MergeEvent.noConfusion⟩
  rintro ⟨_, same⟩
  cases same
  exact other rfl

/-- What the statements of a merge call do: they only read, or write a fresh
grant, or consume the presented one. -/
inductive MergeEffect (sha256Hex : String → String) (now : Timestamp) (tables : Tables) :
    MergeCall → Statement Tables MergeCall MergeEvent → Prop where
  | read {call : MergeCall} {next : MergeCall} {events : List MergeEvent}
      (events_eq : events = [] ∨ ∃ event, events = [event] ∧ event.Quiet)
      (keyed : ∀ graphId key, next = .keyed graphId key → key = tables.mergeKey sha256Hex graphId)
      (upserting : ∀ graphId key, next = .upserting graphId key → call = .keyed graphId key) :
      MergeEffect sha256Hex now tables call ⟨next, tables, events⟩
  | issue (graphId key : String) :
      MergeEffect sha256Hex now tables (.upserting graphId key)
        ⟨.issued ⟨true, key, false, ""⟩, tables.upsertGrant graphId key now, [.issued graphId key]⟩
  | accept (graphId key : String) (outcome : MergeOutcomeReport) :
      MergeEffect sha256Hex now tables (.consuming graphId key outcome)
        ⟨.reported ⟨true, false⟩, tables.consumeGrant graphId key outcome now,
          [.reported graphId key ⟨true, false⟩ (tables.mergeKey sha256Hex graphId)]⟩

theorem mergeAdvance_effect (call : MergeCall) (tables : Tables) :
    MergeEffect sha256Hex now tables call (mergeAdvance sha256Hex now call tables) := by
  have refused : ∀ graphId key current,
      (MergeEvent.reported graphId key ⟨false, false⟩ current).Quiet :=
    MergeEvent.quiet_reported (by decide)
  have replayed : ∀ graphId key current,
      (MergeEvent.reported graphId key ⟨true, true⟩ current).Quiet :=
    MergeEvent.quiet_reported (by decide)
  cases call with
  | issuing graphId =>
    unfold mergeAdvance
    simp only
    split
    · exact .read (.inl rfl) nofun nofun
    · split
      · exact .read (.inl rfl) nofun nofun
      · exact .read (.inl rfl) nofun nofun
  | quiescent graphId =>
    refine .read (.inl rfl) ?_ nofun
    rintro _ _ ⟨⟩
    rfl
  | keyed graphId key =>
    have toUpsert : ∀ other derived, MergeCall.upserting graphId key = .upserting other derived →
        MergeCall.keyed graphId key = .keyed other derived := by
      rintro _ _ ⟨⟩
      rfl
    unfold mergeAdvance
    simp only
    split
    · split
      · exact .read (.inl rfl) nofun nofun
      · exact .read (.inl rfl) nofun toUpsert
    · exact .read (.inl rfl) nofun toUpsert
  | upserting graphId key => exact .issue graphId key
  | reporting graphId key outcome =>
    unfold mergeAdvance
    simp only
    split
    · exact .read (.inr ⟨_, rfl, refused _ _ _⟩) nofun nofun
    · split
      · exact .read (.inr ⟨_, rfl, refused _ _ _⟩) nofun nofun
      · split
        · exact .read (.inr ⟨_, rfl, replayed _ _ _⟩) nofun nofun
        · exact .read (.inl rfl) nofun nofun
  | consuming graphId key outcome => exact .accept graphId key outcome
  | issued decision | reported decision => exact .read (.inl rfl) nofun nofun

/-! ## Interleavings -/

/-- A graph with an open grant, or with a call about to write one. -/
def GrantPending {Index : Type} (world : World Index Tables MergeCall MergeEvent)
    (graphId : String) : Prop :=
  (∃ grant ∈ world.store.grants.rows, grant.graphId = graphId ∧ grant.consumedAt = none) ∨
    ∃ index key, world.calls index = .keyed graphId key ∨ world.calls index = .upserting graphId key

/-- A report consumes the grant that it read, and no commit wins on a graph
while a grant of it is outstanding. -/
def Undisturbed {Index : Type} (world : World Index Tables MergeCall MergeEvent) :
    Move Index Timestamp (Timestamp × Transaction) → Prop
  | .call index _ => ∀ graphId key outcome, world.calls index = .consuming graphId key outcome →
      ∃ grant ∈ world.store.grants.rows, grant.graphId = graphId ∧
        grant.mergeIdempotencyKey = key ∧ grant.consumedAt = none
  | .act (_, transaction) => ∀ graphId, GrantPending world graphId →
      ¬ transaction.WinsOn world.store graphId

/-- Open grants carry the key their graph derives, and the log obeys the law. -/
structure MergeShared (sha256Hex : String → String) (tables : Tables) (log : List MergeEvent) :
    Prop where
  once : AcceptedOnce log
  current : AcceptedCurrent log
  unspent : Unspent tables log
  bound : ∀ grant ∈ tables.grants.rows, grant.consumedAt = none →
    grant.mergeIdempotencyKey = tables.mergeKey sha256Hex grant.graphId

/-- A call that derived a key holds the one its graph still derives. -/
def MergeAsserts (sha256Hex : String → String) (call : MergeCall) (tables : Tables)
    (_ : List MergeEvent) : Prop :=
  match call with
  | .keyed graphId key => key = tables.mergeKey sha256Hex graphId
  | .upserting graphId key => key = tables.mergeKey sha256Hex graphId
  | _ => True

theorem Transaction.exec_mergeKey {transaction : Transaction}
    (loses : ¬ transaction.WinsOn tables graphId) (now : Timestamp) :
    (transaction.exec now tables).mergeKey sha256Hex graphId = tables.mergeKey sha256Hex graphId := by
  rw [Tables.mergeKey, Transaction.exec_succeededOutputs loses now, ← Tables.mergeKey]

theorem MergeEffect.mergeKey_eq {sha256Hex : String → String} {now : Timestamp} {call : MergeCall}
    {next : Statement Tables MergeCall MergeEvent}
    (effect : MergeEffect sha256Hex now tables call next) (graphId : String) :
    next.store.mergeKey sha256Hex graphId = tables.mergeKey sha256Hex graphId := by
  cases effect with
  | read | accept => rfl
  | issue other key => exact mergeKey_upsertGrant sha256Hex tables other key now graphId

section Shared

variable {sha256Hex : String → String} {now : Timestamp} {tables : Tables} {call : MergeCall}
  {next : Statement Tables MergeCall MergeEvent} {log : List MergeEvent}

/-- Every statement keeps the shared part, given what its call asserts and that
it consumes an open grant. -/
theorem MergeShared.effect (shared : MergeShared sha256Hex tables log)
    (asserted : MergeAsserts sha256Hex call tables log)
    (reads : ∀ graphId key outcome, call = .consuming graphId key outcome →
      ∃ grant ∈ tables.grants.rows, grant.graphId = graphId ∧
        grant.mergeIdempotencyKey = key ∧ grant.consumedAt = none)
    (effect : MergeEffect sha256Hex now tables call next) :
    MergeShared sha256Hex next.store (log ++ next.events) := by
  have oldCurrent : ∀ {event : MergeEvent}, (∀ graphId key, ¬ event.Accepts graphId key) →
      AcceptedCurrent (log ++ [event]) := by
    intro event other graphId key current member
    rcases mem_append.mp member with old | new
    · exact shared.current graphId key current old
    · exact (other graphId key ⟨current, (mem_singleton.mp new).symm⟩).elim
  cases effect with
  | read events keyed upserting =>
    rcases events with rfl | ⟨event, rfl, quiet⟩
    · rw [append_nil]
      exact shared
    · have other := fun graphId key => (quiet graphId key).1
      exact {
        once := shared.once.append shared.unspent fun _ _ accepts => (other _ _ accepts).elim
        current := oldCurrent other
        unspent := shared.unspent.append fun grant member _ => .inl ⟨member, other _ _⟩
        bound := shared.bound }
  | issue graphId key =>
    have other : ∀ id presented, ¬ (MergeEvent.issued graphId key).Accepts id presented := by
      rintro id presented ⟨_, impossible⟩
      cases impossible
    refine {
      once := shared.once.append shared.unspent fun _ _ accepts => (other _ _ accepts).elim
      current := oldCurrent other
      unspent := shared.unspent.append fun grant member _ => ?_
      bound := fun grant member isOpen => ?_ }
    · rcases mem_upsertGrant member with ⟨sameGraph, sameKey⟩ | old
      · rw [sameGraph, sameKey]
        exact .inr rfl
      · exact .inl ⟨old, other _ _⟩
    · rw [mergeKey_upsertGrant]
      rcases mem_upsertGrant member with ⟨sameGraph, sameKey⟩ | old
      · rw [sameGraph, sameKey]
        exact asserted
      · exact shared.bound grant old isOpen
  | accept graphId key outcome =>
    obtain ⟨grant, grantMem, ofGraph, ofKey, isOpen⟩ := reads graphId key outcome rfl
    refine {
      once := shared.once.append shared.unspent fun id presented accepts => ?_
      current := fun id presented current member => ?_
      unspent := shared.unspent.append fun other member otherOpen => .inl ?_
      bound := fun other member otherOpen =>
        shared.bound other (mem_consumeGrant member otherOpen).1 otherOpen }
    · obtain ⟨_, same⟩ := accepts
      cases same
      exact ⟨grant, grantMem, ofGraph, ofKey, isOpen⟩
    · rcases mem_append.mp member with old | new
      · exact shared.current id presented current old
      · cases mem_singleton.mp new
        have bound := shared.bound grant grantMem isOpen
        rw [ofGraph, ofKey] at bound
        exact bound.symm
    · obtain ⟨old, apart⟩ := mem_consumeGrant member otherOpen
      refine ⟨old, ?_⟩
      rintro ⟨_, same⟩
      cases same
      exact apart ⟨rfl, rfl⟩

theorem MergeAsserts.effect (asserted : MergeAsserts sha256Hex call tables log)
    (effect : MergeEffect sha256Hex now tables call next) (later : List MergeEvent) :
    MergeAsserts sha256Hex next.call next.store later := by
  cases effect with
  | @read _ reached events _ keyed upserting =>
    cases reached with
    | keyed graphId key => exact keyed graphId key rfl
    | upserting graphId key =>
      rw [upserting graphId key rfl] at asserted
      exact asserted
    | _ => trivial
  | issue | accept => trivial

theorem MergeAsserts.of_mergeKey_eq (asserted : MergeAsserts sha256Hex call tables log)
    {after : Tables} (same : ∀ graphId, (∃ key, call = .keyed graphId key ∨
      call = .upserting graphId key) →
        after.mergeKey sha256Hex graphId = tables.mergeKey sha256Hex graphId)
    (later : List MergeEvent) : MergeAsserts sha256Hex call after later := by
  cases call with
  | keyed graphId key => exact Eq.trans asserted (same graphId ⟨key, .inl rfl⟩).symm
  | upserting graphId key => exact Eq.trans asserted (same graphId ⟨key, .inr rfl⟩).symm
  | _ => trivial

end Shared

/-- A lifecycle transaction at a time, as an act on the tables. -/
def performTransaction (act : Timestamp × Transaction) (tables : Tables) : Tables :=
  act.2.exec act.1 tables

section Run

variable {Index : Type}

theorem merge_interferenceFree :
    InterferenceFree (mergeAdvance sha256Hex) performTransaction (MergeShared sha256Hex)
      (MergeAsserts sha256Hex)
      (Undisturbed : World Index Tables MergeCall MergeEvent →
        Move Index Timestamp (Timestamp × Transaction) → Prop) where
  own := by
    intro world index now holds undisturbed
    have effect := mergeAdvance_effect sha256Hex now (world.calls index) world.store
    exact ⟨holds.shared.effect (holds.asserts index) undisturbed effect,
      (holds.asserts index).effect effect _⟩
  others := by
    intro world index now other holds _ _
    have effect := mergeAdvance_effect sha256Hex now (world.calls index) world.store
    exact (holds.asserts other).of_mergeKey_eq (fun graphId _ => effect.mergeKey_eq graphId) _
  acts := by
    rintro world ⟨now, transaction⟩ holds undisturbed
    have grants := transaction.exec_grants now world.store
    refine ⟨?_, fun index => ?_⟩
    · refine {
        once := holds.shared.once
        current := holds.shared.current
        unspent := fun grant member => ?_
        bound := fun grant member isOpen => ?_ }
      · rw [performTransaction, grants] at member
        exact holds.shared.unspent grant member
      · rw [performTransaction, grants] at member
        rw [performTransaction, Transaction.exec_mergeKey sha256Hex
          (undisturbed grant.graphId (.inl ⟨grant, member, rfl, isOpen⟩)) now]
        exact holds.shared.bound grant member isOpen
    · refine (holds.asserts index).of_mergeKey_eq ?_ world.log
      rintro graphId ⟨key, stands⟩
      exact Transaction.exec_mergeKey sha256Hex
        (undisturbed graphId (.inr ⟨index, key, stands⟩)) now

/-- A call that has not run a statement yet. -/
def MergeCall.Fresh (call : MergeCall) : Prop :=
  (∃ graphId, call = .issuing graphId) ∨ ∃ graphId key outcome, call = .reporting graphId key outcome

/-- Merge calls that have not started, on tables without grants. -/
structure MergeStart (world : World Index Tables MergeCall MergeEvent) : Prop where
  grants : world.store.grants.rows = []
  calls : ∀ index, (world.calls index).Fresh
  log : world.log = []

variable [DecidableEq Index]

/-- **The merge barrier.** In every undisturbed interleaving of merge calls and
lifecycle transactions, a key is accepted at most once between two writes of its
grant, and only while the graph still derives it. -/
theorem mergeBarrier_of_undisturbed (sha256Hex : String → String)
    {source target : World Index Tables MergeCall MergeEvent}
    {moves : List (Move Index Timestamp (Timestamp × Transaction))} (start : MergeStart source)
    (run : Run (allowedMove (mergeAdvance sha256Hex) performTransaction Undisturbed) source moves
      target) :
    AcceptedOnce target.log ∧ AcceptedCurrent target.log := by
  have begins : source.Holds (MergeShared sha256Hex) (MergeAsserts sha256Hex) := by
    refine ⟨?_, fun index => ?_⟩
    · rw [start.log]
      refine {
        once := fun _ _ _ _ _ _ _ same => absurd same (by simp)
        current := fun _ _ _ member => (not_mem_nil member).elim
        unspent := fun grant member => ?_
        bound := fun grant member => ?_ }
      · rw [start.grants] at member
        exact (not_mem_nil member).elim
      · rw [start.grants] at member
        exact (not_mem_nil member).elim
    · rcases start.calls index with ⟨graphId, stands⟩ | ⟨graphId, key, outcome, stands⟩
      · rw [stands]
        trivial
      · rw [stands]
        trivial
  have ends := (merge_interferenceFree sha256Hex).run run begins
  exact ⟨ends.shared.once, ends.shared.current⟩

end Run

/-- A task whose first subtask is done and whose second one failed. -/
def settledTask : Task :=
  { chainTask with
    subtasks := [{ pendingSubtask "a" [] with status := .completed },
      { pendingSubtask "b" [] with status := .failed }] }

def cleanMerge : MergeOutcomeReport where
  status := "merged"
  mergedBranches := []
  conflictBranches := []
  pushStatus := "pushed"

/-- The digest of the texts that occur in the settled graph. -/
def settledDigest (text : String) : String :=
  if text = "g/a" then "cdd44c97bf78978ce3cbd98816c3a01ee3f700df30ba387a98db2a7654ce1cfc"
  else if text = "" then "e3b0c44298fc1c149afbf4c8996fb92427ae41e4649b934ca495991b7852b855"
  else if text = "merge:g:a:a=cdd44c97bf78978ce3cbd98816c3a01ee3f700df30ba387a98db2a7654ce1cfc" then
    "b44c899ee146c7fefba273ccf0b9e27df64d9f6dd419722c85656533e59d81c2"
  else if text = "merge:g:a,b:a=cdd44c97bf78978ce3cbd98816c3a01ee3f700df30ba387a98db2a7654ce1cfc" ++
      ";b=e3b0c44298fc1c149afbf4c8996fb92427ae41e4649b934ca495991b7852b855" then
    "d4d77613979486e09fb4f8714b0a0f4f1e98f5ecde8c0eed3e1ba4be724bff6f"
  else text

/-- The key of the settled graph, and the one after its second subtask succeeded. -/
def settledKey : String := "b44c899ee146c7fefba273ccf0b9e27d"

def settledKeyAfter : String := "d4d77613979486e09fb4f8714b0a0f4f"

/-- One call asks for a grant of the settled graph, the others report its key. -/
def settledWorld : World (Fin 3) Tables MergeCall MergeEvent where
  store := importTask settledTask .empty
  calls := fun index => if index = 0 then .issuing "g" else .reporting "g" settledKey cleanMerge
  log := []

theorem settledWorld_start : MergeStart settledWorld where
  grants := rfl
  calls := by
    intro index
    unfold settledWorld
    dsimp only
    split
    · exact .inl ⟨_, rfl⟩
    · exact .inr ⟨_, _, _, rfl⟩
  log := rfl

def grantMoves : List (Move (Fin 3) Timestamp (Timestamp × Transaction)) :=
  [.call 0 1, .call 0 1, .call 0 1, .call 0 1]

/-- In the settled world a grant and a report of it run undisturbed. -/
theorem mergeBarrier_of_undisturbed_settledWorld :
    ∃ target, Run (allowedMove (mergeAdvance settledDigest) performTransaction Undisturbed)
        settledWorld (grantMoves ++ [.call 1 2, .call 1 2]) target ∧
      target.log = [.issued "g" settledKey, .reported "g" settledKey ⟨true, false⟩ settledKey] ∧
      AcceptedOnce target.log ∧ AcceptedCurrent target.log := by
  have run : Run (allowedMove (mergeAdvance settledDigest) performTransaction Undisturbed)
      settledWorld (grantMoves ++ [.call 1 2, .call 1 2]) _ :=
    .cons ⟨nofun, rfl⟩ (.cons ⟨nofun, rfl⟩ (.cons ⟨nofun, rfl⟩ (.cons ⟨nofun, rfl⟩
      (.cons ⟨nofun, rfl⟩ (.cons ⟨by
        intro graphId key outcome stands
        have same : MergeCall.consuming "g" settledKey cleanMerge =
          .consuming graphId key outcome := stands
        cases same
        decide, rfl⟩ (.nil _))))))
  exact ⟨_, run, by decide, mergeBarrier_of_undisturbed settledDigest settledWorld_start run⟩

theorem run_foldl (source : World (Fin 3) Tables MergeCall MergeEvent)
    (moves : List (Move (Fin 3) Timestamp (Timestamp × Transaction))) :
    Run (allowedMove (mergeAdvance sha256Hex) performTransaction fun _ _ => True) source moves
      (moves.foldl (World.after (mergeAdvance sha256Hex) performTransaction) source) := by
  induction moves generalizing source with
  | nil => exact .nil source
  | cons move rest ih => exact .cons ⟨trivial, rfl⟩ (ih _)

/-- Two reports that both read the open grant are both accepted; and a report
is accepted after a failed node was retried and committed. -/
theorem mergeBarrier_fails_settledWorld :
    (¬ ∀ (sha256Hex : String → String) (source target : World (Fin 3) Tables MergeCall MergeEvent)
      (moves : List (Move (Fin 3) Timestamp (Timestamp × Transaction))), MergeStart source →
      Run (allowedMove (mergeAdvance sha256Hex) performTransaction fun _ _ => True) source moves
        target → AcceptedOnce target.log) ∧
    ¬ ∀ (sha256Hex : String → String) (source target : World (Fin 3) Tables MergeCall MergeEvent)
      (moves : List (Move (Fin 3) Timestamp (Timestamp × Transaction))), MergeStart source →
      Run (allowedMove (mergeAdvance sha256Hex) performTransaction fun _ _ => True) source moves
        target → AcceptedCurrent target.log := by
  constructor
  · intro law
    have once := law settledDigest settledWorld _
      (grantMoves ++ [.call 1 2, .call 2 2, .call 1 3, .call 2 3]) settledWorld_start
      (run_foldl settledDigest _ _)
    have log : (foldl (World.after (mergeAdvance settledDigest) performTransaction) settledWorld
        (grantMoves ++ [.call 1 2, .call 2 2, .call 1 3, .call 2 3])).log =
        [.issued "g" settledKey] ++
          .reported "g" settledKey ⟨true, false⟩ settledKey :: ([] ++
          .reported "g" settledKey ⟨true, false⟩ settledKey :: []) := by decide
    exact absurd (once _ _ _ _ _ _ _ log ⟨_, rfl⟩ ⟨_, rfl⟩) (by simp)
  · intro law
    have current := law settledDigest settledWorld _ (grantMoves ++
      [.act (2, .retryFailedNode "g" "b"), .act (3, .scheduleAttempt "g" "b" none),
        .act (4, .commitOnce "g" "b" "g:b:1" none), .call 1 5, .call 1 5])
      settledWorld_start (run_foldl settledDigest _ _)
    have stale : MergeEvent.reported "g" settledKey ⟨true, false⟩ settledKeyAfter ∈
        (foldl (World.after (mergeAdvance settledDigest) performTransaction) settledWorld
          (grantMoves ++ [.act (2, .retryFailedNode "g" "b"), .act (3, .scheduleAttempt "g" "b" none),
            .act (4, .commitOnce "g" "b" "g:b:1" none), .call 1 5, .call 1 5])).log := by
      decide +kernel
    exact absurd (current _ _ _ stale) (by decide)

end UltimateCoders.Graph
