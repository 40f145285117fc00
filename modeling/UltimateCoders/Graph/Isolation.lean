import UltimateCoders.Graph.Locality
import UltimateCoders.Graph.CommitOnce

/-! # Graphs do not interfere

Verbs on graphs that are keyed apart, in any interleaving: each graph sees the
results and rows it would see if the verbs on the other graphs had not run.
-/

namespace UltimateCoders.Graph

open Relational Transition Table List

variable {layout : NodeKeys} {graphId : String}

/-- `part` are the rows of the graph. -/
structure NodeKeys.Part (layout : NodeKeys) (graphId : String) (store part : Tables) : Prop where
  part : part = store.select (· == graphId)
  keyed : layout.Keyed store

/-- What runs on the rows of one graph alone gives the same result and the same
rows of that graph, and leaves the rows of the other graphs. -/
structure Isolated {α : Type} (layout : NodeKeys) (graphId : String)
    (exec : Tables → Except EngineError α × Tables) : Prop where
  own : ∀ store part, layout.Part graphId store part →
    (exec store).1 = (exec part).1 ∧ layout.Part graphId (exec store).2 (exec part).2
  others : ∀ store part other, other ≠ graphId → layout.Part other store part →
    layout.Part other (exec store).2 part

variable {tables : Tables}

theorem select_select {graphId other : String} (different : other ≠ graphId) :
    (tables.select (· != graphId)).select (· == other) = tables.select (· == other) := by
  have implies : ∀ key : String, (key == other) = true → (key != graphId) = true := by
    intro key same
    rw [beq_iff_eq] at same
    rw [same, bne_iff_ne]
    exact different
  refine Tables.ext (ext ?_) (ext ?_) (ext ?_) (ext ?_) ?_ (ext ?_)
  all_goals exact filter_filter_of_imp fun row _ => implies _

theorem isolated_of_local {α : Type} {body : GraphTx α}
    (isLocal : ∀ frame, Local layout graphId frame body) :
    Isolated layout graphId (atomically body) where
  own := by
    intro store part ⟨isPart, keyed⟩
    obtain ⟨same, split⟩ := (isLocal _).atomically
      (⟨isPart, rfl, keyed⟩ : layout.Split graphId (store.select (· != graphId)) store part)
    exact ⟨same, split.part, split.keyed⟩
  others := by
    intro store part other different ⟨isPart, keyed⟩
    obtain ⟨-, split⟩ := (isLocal _).atomically
      (⟨rfl, rfl, keyed⟩ : layout.Split graphId (store.select (· != graphId)) store _)
    refine ⟨?_, split.keyed⟩
    rw [isPart, ← select_select different, ← split.frame, select_select different]

theorem Isolated.wrap {α : Type} {exec : Tables → Except EngineError α × Tables}
    (isolated : Isolated layout graphId exec) (into : α → VerbResult) :
    Isolated layout graphId fun tables => wrap into (exec tables) where
  own := by
    intro store part isPart
    obtain ⟨same, next⟩ := isolated.own store part isPart
    exact ⟨congrArg (Except.map into) same, next⟩
  others := isolated.others

theorem isolated_failAttempt (nodeId : String) (retryNo maxAttempts : Int) (now : Timestamp) :
    Isolated layout graphId (atomically
      (failAttemptTx graphId nodeId (attemptId graphId nodeId retryNo) maxAttempts now)) :=
  isolated_of_local fun _ => failAttemptTx_local nodeId retryNo maxAttempts now

/-- What a sweep reports of one attempt it scanned. -/
def sweepReport (attempt : TaskAttempt) (outcome : FailOutcome) : List SweptAttempt :=
  if outcome = .fenced then []
  else [{
    graphId := attempt.graphId
    nodeId := attempt.nodeId
    attemptId := attempt.attemptId
    rearmed := outcome = .rearmedToReady }]

theorem graphId_of_mem_sweepReport {attempt : TaskAttempt} {outcome : FailOutcome}
    {one : SweptAttempt} (member : one ∈ sweepReport attempt outcome) :
    one.graphId = attempt.graphId := by
  unfold sweepReport at member
  split at member
  · exact (not_mem_nil member).elim
  · rw [mem_singleton.mp member]

theorem failScanned_cons {maxAttempts : Int} {now : Timestamp} {attempt : TaskAttempt}
    {rest : List TaskAttempt} {tables after next : Tables} {outcome : FailOutcome}
    {swept : List SweptAttempt}
    (ran : (failAttemptTx attempt.graphId attempt.nodeId attempt.attemptId maxAttempts now).run
      tables = .ok (outcome, after))
    (tail : failScanned maxAttempts now rest after = (.ok swept, next)) :
    failScanned maxAttempts now (attempt :: rest) tables =
      (.ok (sweepReport attempt outcome ++ swept), next) := by
  unfold failScanned sweepReport
  simp only [atomically_of_ok ran, tail]
  split
  · rfl
  · rfl

variable {store part : Tables}

/-- A sweep over attempts of any graphs does to the rows of one graph what the
sweep over the attempts of that graph does. -/
theorem failScanned_part {scanned : List TaskAttempt}
    (named : ∀ attempt ∈ scanned, attempt.attemptId =
        attemptId attempt.graphId attempt.nodeId attempt.retryNo)
    (maxAttempts : Int) (now : Timestamp) (isPart : layout.Part graphId store part) :
    ∃ swept next partNext, failScanned maxAttempts now scanned store = (.ok swept, next) ∧
      failScanned maxAttempts now (scanned.filter fun attempt => attempt.graphId == graphId) part =
        (.ok (swept.filter fun attempt => attempt.graphId == graphId), partNext) ∧
      layout.Part graphId next partNext ∧
      ∀ one ∈ swept, ∃ attempt ∈ scanned, attempt.graphId = one.graphId := by
  induction scanned generalizing store part with
  | nil => exact ⟨[], store, part, rfl, rfl, isPart, fun _ member => (not_mem_nil member).elim⟩
  | cons attempt rest ih =>
    have name := named attempt mem_cons_self
    have restNamed := fun other member => named other (mem_cons_of_mem attempt member)
    have isolated : Isolated layout attempt.graphId (atomically (failAttemptTx attempt.graphId
        attempt.nodeId attempt.attemptId maxAttempts now)) := by
      rw [name]
      exact isolated_failAttempt attempt.nodeId attempt.retryNo maxAttempts now
    obtain ⟨outcome, after, ran, -⟩ := failAttemptTx_changes attempt.graphId attempt.nodeId
      attempt.attemptId maxAttempts now store
    have graphs : ∀ swept : List SweptAttempt,
        (∀ one ∈ swept, ∃ other ∈ rest, other.graphId = one.graphId) →
        ∀ one ∈ sweepReport attempt outcome ++ swept,
          ∃ other ∈ attempt :: rest, other.graphId = one.graphId := by
      intro swept earlier one member
      rcases mem_append.mp member with new | old
      · exact ⟨attempt, mem_cons_self, (graphId_of_mem_sweepReport new).symm⟩
      · obtain ⟨other, otherMem, same⟩ := earlier one old
        exact ⟨other, mem_cons_of_mem _ otherMem, same⟩
    by_cases own : attempt.graphId = graphId
    · have kept : (sweepReport attempt outcome).filter (fun one => one.graphId == graphId) =
          sweepReport attempt outcome := by
        rw [filter_eq_self]
        intro one member
        rw [beq_iff_eq, graphId_of_mem_sweepReport member, own]
      obtain ⟨partOutcome, partAfter, partRan, -⟩ := failAttemptTx_changes attempt.graphId
        attempt.nodeId attempt.attemptId maxAttempts now part
      obtain ⟨same, isNext⟩ := isolated.own store part (own ▸ isPart)
      rw [atomically_of_ok ran, atomically_of_ok partRan] at same isNext
      cases same
      obtain ⟨swept, next, partNext, tail, partTail, isLast, earlier⟩ :=
        ih restNamed (own ▸ isNext)
      refine ⟨_, next, partNext, failScanned_cons ran tail, ?_, isLast, graphs swept earlier⟩
      rw [filter_cons, if_pos (beq_iff_eq.mpr own), filter_append, kept]
      exact failScanned_cons partRan partTail
    · have dropped : (sweepReport attempt outcome).filter (fun one => one.graphId == graphId) =
          [] := by
        rw [filter_eq_nil_iff]
        intro one member
        rw [beq_iff_eq, graphId_of_mem_sweepReport member]
        exact own
      have isNext := isolated.others store part graphId (Ne.symm own) isPart
      rw [atomically_of_ok ran] at isNext
      obtain ⟨swept, next, partNext, tail, partTail, isLast, earlier⟩ := ih restNamed isNext
      refine ⟨_, next, partNext, failScanned_cons ran tail, ?_, isLast, graphs swept earlier⟩
      rw [filter_cons, if_neg (fun same => own (beq_iff_eq.mp same)), filter_append, dropped]
      exact partTail

theorem staleAttempts_select (store : Tables) (graphId : String) (timeout now : Timestamp) :
    (store.select (· == graphId)).staleAttempts timeout now =
      (store.staleAttempts timeout now).filter fun attempt => attempt.graphId == graphId := by
  have total : Std.Total fun first second : TaskAttempt => first.attemptId ≤ second.attemptId :=
    ⟨fun first second => le_total first.attemptId second.attemptId⟩
  have transitive : IsTrans TaskAttempt fun first second => first.attemptId ≤ second.attemptId :=
    ⟨fun _ _ _ => le_trans⟩
  unfold Tables.staleAttempts
  rw [filter_insertionSort]
  · congr 1
    change filter _ (filter _ _) = _
    rw [filter_comm]
  · intro first firstMem second secondMem le ge
    exact store.attempts.eq_of_clash (mem_filter.mp firstMem).1
      (mem_filter.mp secondMem).1 (.inl (le_antisymm le ge))

/-- The verb is one of the graph's: it names the graph, and the attempt it is
called with was formed for the node it names. -/
def Verb.On (keys : String → String → Prop) (graphId : String) : Verb → Prop
  | .scheduleAttempt graph _ _ => graph = graphId
  | .heartbeatAttempt id => ∃ nodeId retryNo, keys graphId nodeId ∧
      id = attemptId graphId nodeId retryNo
  | .commitOnce graph nodeId id _ => graph = graphId ∧ ∃ retryNo, id = attemptId graph nodeId retryNo
  | .failAttempt graph nodeId id _ => graph = graphId ∧ ∃ retryNo, id = attemptId graph nodeId retryNo
  | .timeoutSweep _ _ => False
  | .failRunningAttempts graph _ => graph = graphId
  | .cancelRunningAttempt graph _ _ => graph = graphId
  | .cancelNodes graph _ => graph = graphId
  | .retryFailedNode graph _ => graph = graphId
  | .recomputeReady graph => graph = graphId

theorem isolated_failRunningAttempts (maxAttempts : Int) (now : Timestamp) :
    Isolated layout graphId fun tables =>
      failScanned maxAttempts now (tables.runningAttempts graphId) tables := by
  have scanned : ∀ {store : Tables}, layout.Keyed store →
      ∀ attempt ∈ store.runningAttempts graphId, attempt.graphId = graphId ∧
        attempt.attemptId = attemptId attempt.graphId attempt.nodeId attempt.retryNo := by
    intro store keyed attempt member
    rw [Tables.runningAttempts, mem_insertionSort, mem_filter, decide_eq_true_eq] at member
    exact ⟨member.2.1, (keyed.attempts attempt member.1).2⟩
  constructor
  · intro store part isPart
    have ofGraph := scanned isPart.keyed
    obtain ⟨swept, next, partNext, ran, partRan, isNext, graphs⟩ :=
      failScanned_part (fun attempt member => (ofGraph attempt member).2) maxAttempts now isPart
    have split : layout.Split graphId (store.select (· != graphId)) store part :=
      ⟨isPart.part, rfl, isPart.keyed⟩
    have all : (store.runningAttempts graphId).filter (fun attempt => attempt.graphId == graphId) =
        store.runningAttempts graphId := by
      rw [filter_eq_self]
      exact fun attempt member => beq_iff_eq.mpr (ofGraph attempt member).1
    have sweptAll : swept.filter (fun one => one.graphId == graphId) = swept := by
      rw [filter_eq_self]
      intro one member
      obtain ⟨attempt, attemptMem, same⟩ := graphs one member
      rw [beq_iff_eq, ← same, (ofGraph attempt attemptMem).1]
    rw [all, sweptAll] at partRan
    rw [split.runningAttempts_eq, ran, partRan]
    exact ⟨rfl, isNext⟩
  · intro store part other different isPart
    have ofGraph := scanned isPart.keyed
    obtain ⟨swept, next, partNext, ran, partRan, isNext, -⟩ :=
      failScanned_part (fun attempt member => (ofGraph attempt member).2) maxAttempts now isPart
    have none : (store.runningAttempts graphId).filter (fun attempt => attempt.graphId == other) =
        [] := by
      rw [filter_eq_nil_iff]
      intro attempt member
      rw [beq_iff_eq, (ofGraph attempt member).1]
      exact Ne.symm different
    rw [none] at partRan
    have same : part = partNext := congrArg Prod.snd partRan
    rw [ran, same]
    exact isNext

/-- With a running attempt, the attempt-level cancel reports how it failed. -/
theorem cancelRunningAttempt_of_running {nodeId id : String}
    (running : tables.runningAttempt graphId nodeId = some id) (maxAttempts : Int)
    (now : Timestamp) :
    cancelRunningAttempt graphId nodeId maxAttempts now tables =
      ((atomically (failAttemptTx graphId nodeId id maxAttempts now) tables).1.map fun outcome =>
        if outcome = .fenced then none
        else some {
          graphId := graphId
          nodeId := nodeId
          attemptId := id
          rearmed := outcome = .rearmedToReady },
      (atomically (failAttemptTx graphId nodeId id maxAttempts now) tables).2) := by
  simp only [cancelRunningAttempt, running]
  rcases atomically (failAttemptTx graphId nodeId id maxAttempts now) tables with ⟨_ | _, _⟩
  · rfl
  · rfl

theorem isolated_cancelRunningAttempt (nodeId : String) (maxAttempts : Int) (now : Timestamp) :
    Isolated layout graphId (cancelRunningAttempt graphId nodeId maxAttempts now) := by
  have idle : ∀ {tables : Tables}, tables.runningAttempt graphId nodeId = none →
      cancelRunningAttempt graphId nodeId maxAttempts now tables = (.ok none, tables) := by
    intro tables none
    rw [cancelRunningAttempt, none]
  constructor
  · intro store part isPart
    have split : layout.Split graphId (store.select (· != graphId)) store part :=
      ⟨isPart.part, rfl, isPart.keyed⟩
    have sameRunning := split.runningAttempt_eq nodeId
    cases running : store.runningAttempt graphId nodeId with
    | none =>
      rw [idle running, idle (sameRunning.trans running)]
      exact ⟨rfl, isPart⟩
    | some id =>
      rw [cancelRunningAttempt_of_running running,
        cancelRunningAttempt_of_running (sameRunning.trans running)]
      obtain ⟨-, retryNo, rfl⟩ := runningAttempt_name isPart.keyed running
      obtain ⟨same, isNext⟩ :=
        (isolated_failAttempt nodeId retryNo maxAttempts now).own store part isPart
      rw [same]
      exact ⟨rfl, isNext⟩
  · intro store part other different isPart
    cases running : store.runningAttempt graphId nodeId with
    | none =>
      rw [idle running]
      exact isPart
    | some id =>
      rw [cancelRunningAttempt_of_running running]
      obtain ⟨-, retryNo, rfl⟩ := runningAttempt_name isPart.keyed running
      exact (isolated_failAttempt nodeId retryNo maxAttempts now).others store part other
        different isPart

theorem Verb.isolated {verb : Verb} (on : verb.On layout.keys graphId) (now : Timestamp) :
    Isolated layout graphId (verb.exec now) := by
  cases verb with
  | scheduleAttempt graph nodeId workerId =>
    obtain rfl := on
    exact (isolated_of_local fun _ => scheduleAttemptTx_local nodeId workerId now).wrap _
  | heartbeatAttempt id =>
    obtain ⟨nodeId, retryNo, key, rfl⟩ := on
    exact (isolated_of_local fun _ => heartbeatAttemptTx_local key retryNo now).wrap _
  | commitOnce graph nodeId id resultRef =>
    obtain ⟨rfl, retryNo, rfl⟩ := on
    exact (isolated_of_local fun _ => commitOnceTx_local nodeId retryNo resultRef now).wrap _
  | failAttempt graph nodeId id maxAttempts =>
    obtain ⟨rfl, retryNo, rfl⟩ := on
    exact (isolated_failAttempt nodeId retryNo maxAttempts now).wrap _
  | timeoutSweep heartbeatTimeout maxAttempts => exact on.elim
  | failRunningAttempts graph maxAttempts =>
    obtain rfl := on
    exact (isolated_failRunningAttempts maxAttempts now).wrap _
  | cancelRunningAttempt graph nodeId maxAttempts =>
    obtain rfl := on
    exact (isolated_cancelRunningAttempt nodeId maxAttempts now).wrap _
  | cancelNodes graph nodeIds =>
    obtain rfl := on
    exact (isolated_of_local fun _ => cancelNodesTx_local now nodeIds).wrap _
  | retryFailedNode graph nodeId =>
    obtain rfl := on
    exact (isolated_of_local fun _ => retryFailedNodeTx_local nodeId now).wrap _
  | recomputeReady graph =>
    obtain rfl := on
    exact (isolated_of_local fun _ => recomputeReadyTx_local none now).wrap _

/-- A verb called at a time, for one graph or, when it sweeps, for all. -/
structure Call where
  graph : Option String
  now : Timestamp
  verb : Verb

def Call.Belongs (keys : String → String → Prop) (call : Call) : Prop :=
  match call.graph with
  | some graphId => call.verb.On keys graphId
  | none => ∃ heartbeatTimeout maxAttempts, call.verb = .timeoutSweep heartbeatTimeout maxAttempts

/-- Is the call made for the graph, alone or among all? -/
def Call.concerns (call : Call) (graphId : String) : Bool :=
  call.graph == none || call.graph == some graphId

/-- What a graph sees of a result: of a sweep over all graphs, its own attempts. -/
def Call.seenBy (call : Call) (graphId : String) (result : Except EngineError VerbResult) :
    Except EngineError VerbResult :=
  match call.graph, result with
  | none, .ok (.swept attempts) =>
    .ok (.swept (attempts.filter fun attempt => attempt.graphId == graphId))
  | _, _ => result

/-- What a graph sees of one call: the result and its own rows after it. -/
structure Observation where
  call : Call
  result : Except EngineError VerbResult
  rows : Tables

/-- What a graph sees of a sequence of calls. -/
def observations (graphId : String) : List Call → Tables → List Observation
  | [], _ => []
  | call :: rest, tables =>
    let (result, next) := call.verb.exec call.now tables
    if call.concerns graphId then
      { call := call
        result := call.seenBy graphId result
        rows := next.select (· == graphId) } :: observations graphId rest next
    else observations graphId rest next

theorem NodeKeys.Part.select_eq (isPart : layout.Part graphId store part) :
    part.select (· == graphId) = store.select (· == graphId) := by
  rw [isPart.part]
  refine Tables.ext (ext ?_) (ext ?_) (ext ?_) (ext ?_) ?_ (ext ?_)
  all_goals exact filter_filter_of_imp fun _ _ same => same

theorem Call.seen_of_concerns {call : Call} (belongs : call.Belongs layout.keys)
    (concerns : call.concerns graphId = true) (isPart : layout.Part graphId store part) :
    call.seenBy graphId (call.verb.exec call.now store).1 =
        call.seenBy graphId (call.verb.exec call.now part).1 ∧
      layout.Part graphId (call.verb.exec call.now store).2 (call.verb.exec call.now part).2 := by
  obtain ⟨graph, now, verb⟩ := call
  cases graph with
  | some graph =>
    have same : graph = graphId := by simpa [Call.concerns] using concerns
    subst same
    obtain ⟨same, isNext⟩ := (Verb.isolated belongs now).own store part isPart
    exact ⟨congrArg (Call.seenBy _ graph) same, isNext⟩
  | none =>
    obtain ⟨heartbeatTimeout, maxAttempts, rfl⟩ := belongs
    have named : ∀ attempt ∈ store.staleAttempts heartbeatTimeout now,
        attempt.attemptId = attemptId attempt.graphId attempt.nodeId attempt.retryNo := by
      intro attempt member
      rw [Tables.staleAttempts, mem_insertionSort] at member
      exact (isPart.keyed.attempts attempt (mem_filter.mp member).1).2
    obtain ⟨swept, next, partNext, ran, partRan, isNext, -⟩ :=
      failScanned_part named maxAttempts now isPart
    rw [← staleAttempts_select, ← isPart.part] at partRan
    simp only [Verb.exec, wrap, ran, partRan]
    refine ⟨?_, isNext⟩
    simp only [Call.seenBy, Except.map, filter_filter, Bool.and_self]

theorem Call.part_of_not_concerns {call : Call} (belongs : call.Belongs layout.keys)
    (foreign : call.concerns graphId = false) (isPart : layout.Part graphId store part) :
    layout.Part graphId (call.verb.exec call.now store).2 part := by
  obtain ⟨graph, now, verb⟩ := call
  cases graph with
  | none => cases foreign
  | some graph =>
    have different : graphId ≠ graph := by
      rintro rfl
      simp [Call.concerns] at foreign
    exact (Verb.isolated belongs now).others store part graphId different isPart

theorem observations_part {calls : List Call} (belong : ∀ call ∈ calls, call.Belongs layout.keys)
    (isPart : layout.Part graphId store part) : observations graphId calls store =
      observations graphId (calls.filter fun call => call.concerns graphId) part := by
  induction calls generalizing store part with
  | nil => rfl
  | cons call rest ih =>
    have belongs := belong call mem_cons_self
    have restBelong := fun other member => belong other (mem_cons_of_mem call member)
    cases concerns : call.concerns graphId with
    | true =>
      obtain ⟨same, isNext⟩ := Call.seen_of_concerns belongs concerns isPart
      rw [filter_cons, if_pos concerns]
      simp only [observations, concerns, ↓reduceIte]
      rw [same, isNext.select_eq, ih restBelong isNext]
    | false =>
      rw [filter_cons, concerns, if_neg Bool.false_ne_true]
      simp only [observations, concerns, Bool.false_eq_true, ↓reduceIte]
      exact ih restBelong (Call.part_of_not_concerns belongs concerns isPart)

theorem observations_filter {source : Tables} (keyed : layout.Keyed source) {calls : List Call}
    (belong : ∀ call ∈ calls, call.Belongs layout.keys) (graphId : String) :
    observations graphId calls source =
      observations graphId (calls.filter fun call => call.concerns graphId) source := by
  have isPart : layout.Part graphId source (source.select (· == graphId)) := ⟨rfl, keyed⟩
  rw [observations_part belong isPart, observations_part ?_ isPart, filter_filter]
  · simp only [Bool.and_self]
  · intro call member
    exact belong call (mem_filter.mp member).1

def pairKeys (first second : Task) (graphId nodeId : String) : Prop :=
  (graphId = first.id ∧ ∃ subtask ∈ first.subtasks, subtask.id = nodeId) ∨
    (graphId = second.id ∧ ∃ subtask ∈ second.subtasks, subtask.id = nodeId)

/-- Two tasks without a common node id, and without a node of one that reads
like a node of the other behind its graph id. -/
def Task.Apart (first second : Task) : Prop :=
  ∀ firstNode ∈ first.subtasks, ∀ secondNode ∈ second.subtasks, firstNode.id ≠ secondNode.id ∧
    first.id ++ ":" ++ firstNode.id ≠ second.id ++ ":" ++ secondNode.id

def Task.Apart.nodeKeys {first second : Task} (apart : first.Apart second) : NodeKeys where
  keys := pairKeys first second
  apart := by
    rintro _ _ _ _ different (⟨rfl, one, oneMem, rfl⟩ | ⟨rfl, one, oneMem, rfl⟩)
      (⟨rfl, other, otherMem, rfl⟩ | ⟨rfl, other, otherMem, rfl⟩)
    · exact (different rfl).elim
    · exact apart one oneMem other otherMem
    · obtain ⟨nodes, scopes⟩ := apart other otherMem one oneMem
      exact ⟨nodes.symm, scopes.symm⟩
    · exact (different rfl).elim

theorem NodeKeys.Keyed.importTask (keyed : layout.Keyed tables) {task : Task}
    (keys : ∀ subtask ∈ task.subtasks, layout.keys task.id subtask.id) :
    layout.Keyed (importTask task tables) := by
  have written := written_importTask task tables
  obtain ⟨addedAttempts, attempts, attemptOrigin⟩ := written.attempts_append
  obtain ⟨addedCompletions, completions, completionOrigin⟩ := written.completions_append
  refine ⟨?_, ?_, ?_⟩
  · intro row member
    rcases written.node_cases member with ⟨node, nodeMem, same⟩ |
      ⟨sameGraph, -, subtask, subtaskMem, key, -⟩
    · rw [same.graphId, same.nodeId]
      exact keyed.nodes node nodeMem
    · rw [sameGraph, ← key]
      exact keys subtask subtaskMem
  · intro row member
    rw [attempts] at member
    rcases mem_append.mp member with old | new
    · exact keyed.attempts row old
    · obtain ⟨subtask, subtaskMem, offered⟩ :=
        Task.exists_of_mem_offeredAttempts (attemptOrigin row new).1
      rw [offered.graphId, offered.nodeId, offered.retryNo]
      exact ⟨keys subtask subtaskMem, offered.attemptId⟩
  · intro row member
    rw [completions] at member
    rcases mem_append.mp member with old | new
    · exact keyed.completions row old
    · obtain ⟨subtask, subtaskMem, offered⟩ :=
        Task.exists_of_mem_offeredCompletions (completionOrigin row new).1
      rw [offered.graphId, offered.nodeId]
      exact keys subtask subtaskMem

/-- **Graphs that are apart do not interfere.** After an import of both tasks
and any interleaving of verbs on them, each graph has seen the results and rows
it would have seen had no verb on the other graph run. -/
theorem isolation_of_apart {first second : Task} (apart : first.Apart second)
    {calls : List Call} (belong : ∀ call ∈ calls, call.Belongs (pairKeys first second))
    (graphId : String) :
    observations graphId calls (importTask second (importTask first .empty)) =
      observations graphId (calls.filter fun call => call.concerns graphId)
        (importTask second (importTask first .empty)) := by
  have keyed : apart.nodeKeys.Keyed .empty :=
    ⟨fun _ member => (not_mem_nil member).elim, fun _ member => (not_mem_nil member).elim,
      fun _ member => (not_mem_nil member).elim⟩
  have keyedFirst := keyed.importTask fun subtask member =>
    (.inl ⟨rfl, subtask, member, rfl⟩ : pairKeys first second first.id subtask.id)
  have keyedBoth := keyedFirst.importTask fun subtask member =>
    (.inr ⟨rfl, subtask, member, rfl⟩ : pairKeys first second second.id subtask.id)
  exact observations_filter keyedBoth belong graphId

def singleTask (id nodeId : String) : Task :=
  { chainTask with id := id, subtasks := [pendingSubtask nodeId []] }

def dispatchBoth (firstNode secondNode : String) : List Call :=
  [{ graph := some "g", now := 1, verb := .scheduleAttempt "g" firstNode none },
    { graph := some "h", now := 2, verb := .scheduleAttempt "h" secondNode none }]

theorem dispatchBoth_belong (keys : String → String → Prop) (firstNode secondNode : String) :
    ∀ call ∈ dispatchBoth firstNode secondNode, call.Belongs keys := by
  intro call member
  simp only [dispatchBoth, mem_cons, not_mem_nil, or_false] at member
  rcases member with rfl | rfl
  · exact rfl
  · exact rfl

theorem isolation_of_apart_singleTasks :
    (singleTask "g" "a").Apart (singleTask "h" "b") ∧
      observations "h" (dispatchBoth "a" "b")
          (importTask (singleTask "h" "b") (importTask (singleTask "g" "a") .empty)) =
        observations "h" ((dispatchBoth "a" "b").filter fun call => call.concerns "h")
          (importTask (singleTask "h" "b") (importTask (singleTask "g" "a") .empty)) := by
  have apart : (singleTask "g" "a").Apart (singleTask "h" "b") := by
    unfold Task.Apart
    decide
  exact ⟨apart, isolation_of_apart apart (dispatchBoth_belong _ "a" "b") "h"⟩

/-- Graphs with a common node id do interfere: the first dispatch takes the
attempt number of the node in both. -/
theorem isolation_fails_sharedNode :
    ¬ ∀ (first second : Task) (calls : List Call), first.id ≠ second.id →
      (∀ call ∈ calls, call.Belongs (pairKeys first second)) →
      observations second.id calls (importTask second (importTask first .empty)) =
        observations second.id (calls.filter fun call => call.concerns second.id)
          (importTask second (importTask first .empty)) := by
  intro isolation
  have same := isolation (singleTask "g" "a") (singleTask "h" "a") (dispatchBoth "a" "a")
    (by decide) (dispatchBoth_belong _ "a" "a")
  have results := congrArg (map Observation.result) same
  revert results
  decide

end UltimateCoders.Graph
