import UltimateCoders.Graph.Readiness

/-! # How often a node is tried

A failed attempt makes its node ready again only while its retry number is below the limit that the
caller gives, and retry numbers count the attempts. So a node is tried as often as the largest limit
allows, and once more for every time it is retried by hand, in whatever order the transactions of
all callers are carried out.
-/

namespace UltimateCoders.Graph

open Relational Transition List NodeStatus Tables

def Tables.tried (tables : Tables) (graphId nodeId : String) : Nat :=
  (tables.attemptsOf graphId nodeId).length

/-- Attempts are numbered as they come, and the node is open only while there are tries left. -/
structure Spent (graphId nodeId : String) (limit : Nat) (tables : Tables) : Prop where
  numbered : (tables.attemptsOf graphId nodeId).map TaskAttempt.retryNo =
    (range (tables.tried graphId nodeId)).map Nat.cast
  newest : ∀ attempt ∈ tables.attemptsOf graphId nodeId, attempt.status = "RUNNING" →
    attempt.retryNo + 1 = tables.tried graphId nodeId
  within : tables.tried graphId nodeId ≤ limit
  «open» : ∀ node ∈ tables.nodes.rows, node.nodeId = nodeId →
    (node.state = ready.asStr ∨ node.state = created.asStr) → tables.tried graphId nodeId < limit

/-- A failure that makes its node ready again leaves a try. -/
def Change.Affordable (limit : Nat) : Change → Prop
  | .fail _ attempt target => target = .ready → attempt.retryNo + 1 < limit
  | _ => True

/-- A retry by hand grants its node one try more. -/
def Change.granted (nodeId : String) : Change → Nat
  | .retry node => if node.nodeId = nodeId then 1 else 0
  | _ => 0

variable {graphId nodeId : String} {limit : Nat} {tables before after : Tables} {change : Change}

theorem nextRetryNo_of_numbered {attempts : List TaskAttempt} {count : Nat}
    (numbered : attempts.map TaskAttempt.retryNo = (range count).map Nat.cast) :
    nextRetryNo attempts = count := by
  rw [nextRetryNo, numbered]
  cases count with
  | zero => rfl
  | succ count =>
    have largest : ((range (count + 1)).map (Nat.cast : Nat → Int)).max? = some (count : Int) := by
      rw [max?_eq_some_iff]
      refine ⟨mem_map_of_mem (mem_range.mpr (Nat.lt_succ_self count)), fun number member => ?_⟩
      obtain ⟨index, listed, rfl⟩ := mem_map.mp member
      exact Int.ofNat_le.mpr (Nat.le_of_lt_succ (mem_range.mp listed))
    simp [largest]

/-- Attempts are only restated, unless one is scheduled. -/
theorem Change.Applies.restated_or_schedule (applies : change.Applies before after) :
    (∃ status, Restated before after status ∧
      ∀ attempt, status attempt = "RUNNING" → attempt.status = "RUNNING") ∨
      ∃ node attempt, change = .schedule node attempt := by
  have running : ∀ (chosen : TaskAttempt → Prop) [DecidablePred chosen] (other : String),
      other ≠ "RUNNING" → ∀ attempt : TaskAttempt,
        (if chosen attempt then other else attempt.status) = "RUNNING" →
          attempt.status = "RUNNING" := by
    intro chosen _ other ended attempt status
    split at status
    · exact absurd status ended
    · exact status
  cases applies with
  | idle _ attempts _ => exact .inl ⟨_, attempts, fun _ => id⟩
  | @schedule _ _ node attempt => exact .inr ⟨node, attempt, rfl⟩
  | retry _ _ _ attempts _ | recompute _ attempts _ =>
    exact .inl ⟨_, .refl_of_eq attempts, fun _ => id⟩
  | fail _ _ _ _ _ _ attempts _ => exact .inl ⟨_, attempts, running _ _ (by decide)⟩
  | commit _ _ _ _ _ _ _ _ _ attempts _ => exact .inl ⟨_, attempts, running _ _ (by decide)⟩
  | cancel _ _ _ _ _ attempts _ => exact .inl ⟨_, attempts, running _ _ (by decide)⟩

theorem attemptsOf_restated {status : TaskAttempt → String} (restated : Restated before after status)
    (starts : ∀ attempt, status attempt = "RUNNING" → attempt.status = "RUNNING") :
    ∃ restate : TaskAttempt → TaskAttempt,
      after.attemptsOf graphId nodeId = (before.attemptsOf graphId nodeId).map restate ∧
        ∀ attempt ∈ before.attemptsOf graphId nodeId, (restate attempt).retryNo = attempt.retryNo ∧
          ((restate attempt).status = "RUNNING" → attempt.status = "RUNNING") := by
  obtain ⟨restate, rows, spec⟩ := restated
  refine ⟨restate, ?_, fun attempt member => ?_⟩
  · rw [attemptsOf, attemptsOf, rows, filter_map]
    congr 1
    refine filter_congr fun row member => ?_
    simp only [Function.comp_apply, (spec row member).1.graphId, (spec row member).1.nodeId]
  · obtain ⟨same, stated⟩ := spec attempt (mem_attemptsOf.mp member).1
    exact ⟨same.retryNo, fun live => starts attempt (stated.symm.trans live)⟩

section Change

variable (spent : Spent graphId nodeId limit before) (consistent : Consistent graphId before)
  (owned : change.Owned) (affordable : change.Affordable limit)
  (applies : change.Applies before after)
include spent consistent owned affordable applies

/-- A node that is open after a change was so before, was retried, or left a try when it failed. -/
theorem Spent.tried_lt {node : GraphNode} (member : node ∈ after.nodes.rows)
    (same : node.nodeId = nodeId) (isOpen : node.state = ready.asStr ∨ node.state = created.asStr) :
    before.tried graphId nodeId < limit + change.granted nodeId := by
  obtain ⟨old, oldMem, place, state⟩ := applies.exists_before member
  have oldId : old.nodeId = nodeId := place.nodeId.symm.trans same
  rcases applies.stateAfter_cases old with kept | ⟨source, target, move, was, moved⟩
  · rw [state, kept] at isOpen
    exact (spent.open old oldMem oldId isOpen).trans_le (Nat.le_add_right _ _)
  · have opened : target = .ready := by
      rw [state, moved] at isOpen
      exact isOpen.elim (asStr_injective ·) fun impossible =>
        absurd (asStr_injective impossible) move.ends.2.1
    subst opened
    cases move with
    | retry node =>
      rw [Change.granted, if_pos oldId]
      exact Nat.lt_succ_of_le spent.within
    | fail node attempt targets edge =>
      cases applies with
      | fail nodeMem attemptMem live =>
        have counted := spent.newest attempt (mem_attemptsOf.mpr
          ⟨attemptMem, consistent.attemptGraph attempt attemptMem, owned.trans oldId⟩) live
        have left := affordable rfl
        simp only [Change.granted]
        omega
    | recompute done =>
      exact (spent.open old oldMem oldId (.inr was)).trans_le (Nat.le_add_right _ _)

theorem Spent.next : Spent graphId nodeId (limit + change.granted nodeId) after := by
  rcases applies.restated_or_schedule with ⟨status, restated, starts⟩ | ⟨node, attempt, rfl⟩
  · obtain ⟨restate, rows, kept⟩ :=
      @attemptsOf_restated graphId nodeId _ _ _ restated starts
    have same : after.tried graphId nodeId = before.tried graphId nodeId := by
      rw [tried, rows, length_map, tried]
    refine ⟨?_, ?_, ?_, ?_⟩
    · rw [same, ← spent.numbered, rows, map_map]
      exact map_congr_left fun attempt member => (kept attempt member).1
    · rw [rows, same]
      intro attempt member live
      obtain ⟨old, oldMem, rfl⟩ := mem_map.mp member
      rw [(kept old oldMem).1]
      exact spent.newest old oldMem ((kept old oldMem).2 live)
    · rw [same]
      exact spent.within.trans (Nat.le_add_right _ _)
    · intro node member sameId isOpen
      rw [same]
      exact spent.tried_lt consistent owned affordable applies member sameId isOpen
  · have still := @Spent.tried_lt _ _ _ _ _ _ spent consistent owned affordable applies
    have moved := fun {row : GraphNode} (rowMem : row ∈ after.nodes.rows) =>
      applies.exists_before rowMem
    cases applies with
    | schedule member ready sameGraph sameNode identity live retryNo workerEpoch free nodes attempts =>
      have graph := consistent.nodeGraph node member
      by_cases here : node.nodeId = nodeId
      · subst here
        rw [graph, nextRetryNo_of_numbered spent.numbered] at retryNo
        have rows : after.attemptsOf graphId node.nodeId =
            before.attemptsOf graphId node.nodeId ++ [attempt] := by
          rw [attemptsOf, attempts, filter_append, attemptsOf, filter_cons_of_pos, filter_nil]
          exact decide_eq_true ⟨sameGraph.trans graph, sameNode⟩
        have one : after.tried graphId node.nodeId = before.tried graphId node.nodeId + 1 := by
          rw [tried, rows, length_append, length_singleton, tried]
        have room := spent.open node member rfl (.inl ready)
        refine ⟨?_, ?_, ?_, ?_⟩
        · rw [rows, map_append, spent.numbered, one, range_succ, map_append, map_singleton,
            map_singleton, retryNo]
        · rw [rows, one]
          intro other otherMem otherLive
          rcases mem_append.mp otherMem with old | new
          · have held := mem_attemptsOf.mp old
            have runs := consistent.running_of_attempt member held.1 held.2.2 otherLive
            rw [ready] at runs
            exact absurd runs (by decide)
          · rw [mem_singleton.mp new, retryNo]
            rfl
        · rw [one]
          exact room
        · intro row rowMem same isOpen
          obtain ⟨old, oldMem, place, state⟩ := moved rowMem
          have alone : old = node := before.nodes.eq_of_clash oldMem member
            ⟨place.nodeId.symm.trans same, (consistent.nodeGraph old oldMem).trans graph.symm⟩
          rw [state, Change.stateAfter, if_pos alone] at isOpen
          exact absurd isOpen (by decide)
      · have rows : after.attemptsOf graphId nodeId = before.attemptsOf graphId nodeId := by
          rw [attemptsOf, attempts, filter_append, attemptsOf, filter_cons_of_neg, filter_nil,
            append_nil]
          simp only [decide_eq_true_eq]
          exact fun both => here (sameNode.symm.trans both.2)
        have same : after.tried graphId nodeId = before.tried graphId nodeId := by
          rw [tried, rows, tried]
        exact ⟨by rw [rows, same]; exact spent.numbered, by rw [rows, same]; exact spent.newest,
          by rw [same]; exact spent.within, by rw [same]; exact fun _ => still⟩

end Change

/-- Failures are given this limit at most. -/
def Transaction.Allows (limit : Nat) : Transaction → Prop
  | .failAttempt _ _ _ maxAttempts => maxAttempts ≤ limit
  | _ => True

/-- The transaction retries the node by hand. -/
def Transaction.retries (graphId nodeId : String) : Transaction → Bool
  | .retryFailedNode graph node => graph = graphId ∧ node = nodeId
  | _ => false

theorem failTarget_affordable {attempt : TaskAttempt} {maxAttempts : Int}
    (within : maxAttempts ≤ limit) (positive : 0 < limit)
    (ready : failTarget attempt maxAttempts = .ready) : attempt.retryNo + 1 < limit := by
  unfold failTarget lastRetryNo at ready
  split at ready
  · omega
  · cases ready

theorem Spent.mono (spent : Spent graphId nodeId limit tables) {more : Nat} (grown : limit ≤ more) :
    Spent graphId nodeId more tables where
  numbered := spent.numbered
  newest := spent.newest
  within := spent.within.trans grown
  «open» node member same isOpen := (spent.open node member same isOpen).trans_le grown

theorem Spent.exec (spent : Spent graphId nodeId limit before)
    (consistent : Consistent graphId before) {transaction : Transaction}
    (owned : transaction.Owned before) (positive : 0 < limit) (allows : transaction.Allows limit)
    (now : Timestamp) : Spent graphId nodeId
      (limit + if transaction.retries graphId nodeId = true then 1 else 0)
      (transaction.exec now before) := by
  obtain ⟨changes, effect, run⟩ := transaction.exec_changes now before
  have each := effect.owned owned
  have plain : (∀ change ∈ changes, Change.Affordable limit change ∧ Change.granted nodeId change = 0) →
      Spent graphId nodeId limit (transaction.exec now before) := by
    intro still
    have step : ∀ source (change : Change) target,
        Consistent graphId source ∧ Spent graphId nodeId limit source →
          change.Owned ∧ change.Affordable limit ∧ change.granted nodeId = 0 →
            change.Applies source target →
              Consistent graphId target ∧ Spent graphId nodeId limit target := by
      intro source change target holds allowed applies
      have next := holds.2.next holds.1 allowed.1 allowed.2.1 applies
      rw [allowed.2.2] at next
      exact ⟨holds.1.applies allowed.1 applies, next⟩
    exact (run.invariant _ step (fun change member => ⟨each change member, still change member⟩)
      ⟨consistent, spent⟩).2
  have kept : (∀ change ∈ changes, Change.Affordable limit change ∧ Change.granted nodeId change = 0) →
      Spent graphId nodeId (limit + if transaction.retries graphId nodeId = true then 1 else 0)
        (transaction.exec now before) := fun still => (plain still).mono (Nat.le_add_right _ _)
  cases effect with
  | rollback => exact kept fun _ member => (not_mem_nil member).elim
  | idle | schedule | recompute => exact kept (forall_mem_singleton.mpr ⟨trivial, rfl⟩)
  | commit => exact kept (forall_mem_cons.mpr ⟨⟨trivial, rfl⟩, forall_mem_singleton.mpr ⟨trivial, rfl⟩⟩)
  | cancel _ _ _ cancels =>
    refine kept fun change member => ?_
    obtain ⟨node, attempt, rfl⟩ := cancels change member
    exact ⟨trivial, rfl⟩
  | @retry graph id node found =>
    obtain ⟨member, sameGraph, same⟩ := node?_eq_some.mp found
    have graphs : graph = graphId := sameGraph.symm.trans (consistent.nodeGraph node member)
    cases run with
    | cons applies rest =>
      cases rest with
      | nil =>
        have next := spent.next consistent (each _ mem_cons_self) trivial applies
        simpa [Change.granted, Transaction.retries, graphs, same] using next
  | @fail graph id attemptId node attempt found foundAttempt maxAttempts target =>
    rcases failAttemptTx_run graph id attemptId maxAttempts now before with
      ⟨after, ran, same, -⟩ | ⟨other, failing, after, otherFound, failingFound, -, ran, applies⟩
    · have next := @Spent.next _ nodeId _ _ _ .idle spent consistent trivial trivial
        (.idle_of_same same)
      simp only [Transaction.exec, atomically_of_ok ran]
      exact next.mono (Nat.le_add_right _ _)
    · obtain rfl := Option.some.inj (found.symm.trans otherFound)
      obtain rfl := Option.some.inj (foundAttempt.symm.trans failingFound)
      have own : attempt.nodeId = node.nodeId := each _ mem_cons_self
      have affordable : (Change.fail node attempt (failTarget attempt maxAttempts)).Affordable
          limit := failTarget_affordable allows positive
      have next := @Spent.next _ nodeId _ _ _ (.fail node attempt _) spent consistent own affordable
        applies
      simp only [Transaction.exec, atomically_of_ok ran]
      exact next.mono (Nat.le_add_right _ _)

/-- A transaction of any caller at some time, failing or committing an attempt for its own node. -/
def transactionStep (before : Tables) (call : Timestamp × Transaction) (after : Tables) : Prop :=
  call.2.Owned before ∧ call.2.exec call.1 before = after

theorem Transaction.Allows.mono {transaction : Transaction} {more : Nat}
    (allows : transaction.Allows limit) (grown : limit ≤ more) : transaction.Allows more := by
  cases transaction with
  | failAttempt => exact allows.trans (Int.ofNat_le.mpr grown)
  | _ => trivial

theorem Spent.run {calls : List (Timestamp × Transaction)}
    (run : Run transactionStep before calls after) (spent : Spent graphId nodeId limit before)
    (consistent : Consistent graphId before) (positive : 0 < limit)
    (allows : ∀ call ∈ calls, call.2.Allows limit) :
    Spent graphId nodeId (limit + calls.countP fun call => call.2.retries graphId nodeId) after := by
  induction run generalizing limit with
  | nil => exact spent
  | @cons source middle target call calls step rest ih =>
    obtain ⟨owned, rfl⟩ := step
    have next := spent.exec consistent owned positive (allows call mem_cons_self) call.1
    have later := ih next (consistent.exec call.2 owned call.1)
      (positive.trans_le (Nat.le_add_right _ _)) fun other member =>
        (allows other (mem_cons_of_mem _ member)).mono (Nat.le_add_right _ _)
    rw [countP_cons, add_comm (countP _ _), ← add_assoc]
    exact later

/-- However the transactions of all callers interleave after the import of a task that was not begun,
a node is tried as often as the largest limit given to a failure, but at least once, and once more
for each retry by hand. -/
theorem tried_le_of_run {task : Task} (distinct : (task.subtasks.map Subtask.id).Nodup)
    (untried : ∀ subtask ∈ task.subtasks, ¬ task.Tried subtask)
    {calls : List (Timestamp × Transaction)} {target : Tables}
    (run : Run transactionStep (importTask task .empty) calls target)
    (allows : ∀ call ∈ calls, call.2.Allows limit) (nodeId : String) :
    target.tried task.id nodeId ≤
      max limit 1 + calls.countP fun call => call.2.retries task.id nodeId := by
  have fresh : (importTask task .empty).attemptsOf task.id nodeId = [] := by
    obtain ⟨added, rows, origin⟩ := (written_importTask task .empty).attempts_append
    rw [attemptsOf, rows, filter_eq_nil_iff]
    intro attempt member
    rcases mem_append.mp member with old | new
    · exact (not_mem_nil old).elim
    · obtain ⟨row, rowMem, -⟩ := mem_map.mp (origin attempt new).1
      obtain ⟨subtask, subtaskMem, projected⟩ := mem_filterMap.mp rowMem
      rw [projectAttempt_of_not_tried (untried subtask subtaskMem)] at projected
      cases projected
  have start : Spent task.id nodeId (max limit 1) (importTask task .empty) := by
    refine ⟨?_, ?_, ?_, ?_⟩
    all_goals simp only [tried, fresh, length_nil]
    · rfl
    · exact fun _ none => (not_mem_nil none).elim
    · exact Nat.zero_le _
    · exact fun _ _ _ _ => lt_max_of_lt_right Nat.one_pos
  exact (start.run run (consistent_importTask (Task.coherent_of_nodup distinct))
    (lt_max_of_lt_right Nat.one_pos) fun call member =>
      (allows call member).mono (le_max_left _ _)).within

theorem tried_le_of_run_chainTask :
    ∃ target, Run transactionStep (importTask chainTask .empty)
        [(1, .scheduleAttempt "g" "a" none), (2, .failAttempt "g" "a" "g:a:0" 2),
          (3, .scheduleAttempt "g" "a" none)] target ∧
      target.tried "g" "a" = 2 ∧ target.tried "g" "a" ≤ max 2 1 + 0 := by
  have untried : ∀ subtask ∈ chainTask.subtasks, ¬ chainTask.Tried subtask := by
    unfold Task.Tried
    decide
  have run : Run transactionStep (importTask chainTask .empty)
      [(1, .scheduleAttempt "g" "a" none), (2, .failAttempt "g" "a" "g:a:0" 2),
        (3, .scheduleAttempt "g" "a" none)] _ :=
    .cons ⟨trivial, rfl⟩ (.cons ⟨by unfold Transaction.Owned Owns; decide, rfl⟩
      (.cons ⟨trivial, rfl⟩ (.nil _)))
  exact ⟨_, run, by decide, tried_le_of_run (by decide) untried run
    (by simp [Transaction.Allows]) "a"⟩

end UltimateCoders.Graph
