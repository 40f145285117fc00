import UltimateCoders.Arbiter.Push
import UltimateCoders.Transition.History
import UltimateCoders.Transition.Protocol
import UltimateCoders.Transition.Weights

/-! # Effects are executed by one worker at a time

Reports of outcomes carry no owner, and a reconciliation may hand an effect back as unknown while
another worker already executes it again. As long as this does not happen, and no lease ends early,
at most one worker is between marking the effect as in flight and reporting its outcome, and none
marks an effect that is confirmed.
-/

namespace UltimateCoders.Arbiter

open UltimateCoders.Runtime Transition ArbiterOperation EffectLedger MergeArbiter Function

inductive PublishStage where
  | starting
  | marking
  | pushing
  | reporting
  /-- It is about to read the record; `again` where it goes on if the effect is absent. -/
  | looking (again : Bool)
  /-- It has found the effect prepared, and is about to mark it. -/
  | adopting (again : Bool)
  | adopted (again : Bool)
  | beginning (again : Bool)
  | reconciling (again : Bool)
  | ended
  deriving DecidableEq

open PublishStage

variable {stage : PublishStage}

namespace PublishStage

def afterPrepare (record : EffectRecord) : PublishStage :=
  match record.status with
  | .confirmed => ended
  | .unknown | .reconciling => looking true
  | _ => marking

def afterLook (again : Bool) (record : Option EffectRecord) : PublishStage :=
  if record.map EffectRecord.status = some .prepared then adopting again
  else if record.map EffectRecord.status ≠ some .reconciling then beginning again
  else reconciling again

def afterRequest : PublishStage → EffectRequest → EffectRecord → PublishStage
  | starting, _, record => afterPrepare record
  | marking, _, _ => pushing
  | reporting, .markUnknown _, _ => looking false
  | adopting again, _, _ => adopted again
  | adopted again, _, _ | beginning again, _, _ => reconciling again
  | reconciling true, .resolveReconcile _ _, _ => marking
  | _, _, _ => ended

def next : PublishStage → (operation : ArbiterOperation) → operation.Answer → PublishStage
  | pushing, .git .push, _ => reporting
  | looking again, .get _, record => afterLook again record
  | stage, .ledger _ request, .ok record => stage.afterRequest request record
  | _, .ledger _ _, .error _ => ended
  | stage, _, _ => stage

/-- The next operation of a worker. -/
def Asks (effectId : String) (stage : PublishStage) (operation : ArbiterOperation) : Prop :=
  match stage with
  | starting => operation = .git .head ∨
      ∃ kind head, operation = .ledger effectId (.prepare kind head)
  | marking | adopting _ => ∃ owner lease, operation = .ledger effectId (.markInFlight owner lease)
  | pushing => operation = .git .push
  | reporting => operation = .ledger effectId .confirm ∨
      (∃ error, operation = .ledger effectId (.fail error)) ∨
        ∃ reason, operation = .ledger effectId (.markUnknown reason)
  | looking _ => operation = .get effectId
  | adopted _ | beginning _ => ∃ owner, operation = .ledger effectId (.beginReconcile owner)
  | reconciling _ => operation ∈ [.git .head, .git .trackingHead, .git .lsRemote] ∨
      operation = .ledger effectId .confirm ∨
        (∃ reason, operation = .ledger effectId (.resolveReconcile false reason)) ∨
          ∃ reason, operation = .ledger effectId (.markUnknown reason)
  | ended => False

/-- A worker is between its mark and its report. -/
def running : PublishStage → Nat
  | pushing | reporting | adopted _ => 1
  | _ => 0

theorem running_next_git (stage : PublishStage) (operation : GitOperation)
    (answer : operation.Answer) :
    (stage.next (.git operation) answer).running ≤ stage.running := by
  cases stage with
  | pushing => cases operation <;> exact le_rfl
  | _ => exact le_rfl

theorem running_next_get {effectId asked : String} (asks : stage.Asks effectId (.get asked))
    (record : Option EffectRecord) : (stage.next (.get asked) record).running ≤ stage.running := by
  cases stage with
  | looking again =>
    simp only [next, afterLook]
    split
    · exact le_rfl
    · split <;> exact le_rfl
  | _ => simp [Asks] at asks

theorem Asks.own {effectId asked : String} {request : EffectRequest}
    (asks : stage.Asks effectId (.ledger asked request)) : asked = effectId := by
  cases stage <;> simp [Asks] at asks <;> tauto

end PublishStage

def publishing (effectId : String) :
    Protocol ArbiterOperation Answer PublishStage where
  permits := Asks effectId
  next := next

section Follows

variable {effectId : String}

/-- The stage in which a reconciliation returns. -/
def EndsReconcile (again : Bool) (result : Except EffectError Verdict) (stage : PublishStage) :
    Prop :=
  stage = match result with
    | .ok .absent => if again then .marking else .ended
    | _ => .ended

theorem follows_ite {Result : Type} {final : Result → PublishStage → Prop} {condition : Prop}
    [Decidable condition] {first second : Program ArbiterOperation Answer Result}
    (taken : condition → first.Follows (publishing effectId) (fun _ _ => True) final stage)
    (other : ¬ condition → second.Follows (publishing effectId) (fun _ _ => True) final stage) :
    (if condition then first else second).Follows (publishing effectId) (fun _ _ => True)
      final stage := by
  by_cases holds : condition
  · rw [if_pos holds]
    exact taken holds
  · rw [if_neg holds]
    exact other holds

theorem follows_ledger {Result : Type} {final : Except EffectError Result → PublishStage → Prop}
    {request : EffectRequest} {next : EffectRecord → ArbiterProgram Result}
    (permitted : stage.Asks effectId (.ledger effectId request))
    (refused : ∀ error, final (.error error) .ended)
    (served : ∀ record, (next record).run.Follows (publishing effectId) (fun _ _ =>
      True) final (stage.next (.ledger effectId request) (.ok record))) :
    (ledger effectId request >>= next).run.Follows (publishing effectId) (fun _ _ => True)
      final stage := by
  refine ⟨permitted, fun answer _ => ?_⟩
  cases answer with
  | error error =>
    have ended : stage.next (.ledger effectId request) (.error error) = .ended := by
      cases stage <;> rfl
    change final (.error error) (stage.next (.ledger effectId request) (.error error))
    rw [ended]
    exact refused error
  | ok record => exact served record

theorem follows_askRemote (again : Bool) :
    (askRemote effectId).run.Follows (publishing effectId) (fun _ _ => True)
      (EndsReconcile again) (.reconciling again) := by
  refine ⟨.inl (by simp), fun expectedAfter _ => ⟨.inl (by simp), fun expectedBefore _ =>
    ⟨.inl (by simp), fun listed _ => ?_⟩⟩⟩
  cases listed with
  | error stderr =>
    refine follows_ledger (.inr (.inr (.inr ⟨_, rfl⟩))) (fun _ => rfl) fun record => ?_
    cases again <;> exact rfl
  | ok current =>
    refine follows_ite (fun _ => ?_) fun _ => follows_ite (fun _ => ?_) fun _ => ?_
    · refine follows_ledger (.inr (.inl rfl)) (fun _ => rfl) fun record => ?_
      cases again <;> exact rfl
    · refine follows_ledger (.inr (.inr (.inl ⟨_, rfl⟩))) (fun _ => rfl) fun record => ?_
      cases again <;> exact rfl
    · refine follows_ledger (.inr (.inr (.inr ⟨_, rfl⟩))) (fun _ => rfl) fun record => ?_
      cases again <;> exact rfl

theorem follows_reconcilePush (again : Bool) :
    (reconcilePush effectId).run.Follows (publishing effectId) (fun _ _ => True)
      (EndsReconcile again) (.looking again) := by
  refine ⟨rfl, fun record _ => ?_⟩
  have look : (publishing effectId).next (.looking again) (.get effectId) record =
    afterLook again record := rfl
  rw [look]
  refine follows_ite (fun prepared => ?_) fun prepared =>
    follows_ite (fun asked => ?_) fun asked => ?_
  · rw [afterLook, if_pos prepared]
    refine follows_ledger ⟨_, _, rfl⟩ (fun _ => rfl) fun marked => ?_
    exact follows_ledger ⟨_, rfl⟩ (fun _ => rfl) fun _ => follows_askRemote again
  · rw [afterLook, if_neg prepared, if_pos asked]
    exact follows_ledger ⟨_, rfl⟩ (fun _ => rfl) fun _ => follows_askRemote again
  · rw [afterLook, if_neg prepared, if_neg asked]
    exact follows_askRemote again

theorem follows_reconciled {Result : Type} {final : Except EffectError Result → PublishStage → Prop}
    {again : Bool} {next : Verdict → ArbiterProgram Result}
    (refused : ∀ error, final (.error error) .ended)
    (settled : ∀ verdict, verdict ≠ .absent ∨ again = false →
      (next verdict).run.Follows (publishing effectId) (fun _ _ => True) final .ended)
    (absent : again = true →
      (next .absent).run.Follows (publishing effectId) (fun _ _ => True) final .marking) :
    (reconcilePush effectId >>= next).run.Follows (publishing effectId)
      (fun _ _ => True) final (.looking again) := by
  refine Program.Follows.seq (follows_reconcilePush again) fun verdict stage ends => ?_
  cases verdict with
  | error error =>
    obtain rfl : stage = .ended := ends
    exact refused error
  | ok verdict =>
    cases verdict with
    | applied | inconclusive =>
      obtain rfl : stage = .ended := ends
      exact settled _ (.inl (by simp))
    | absent =>
      cases again with
      | false =>
        obtain rfl : stage = .ended := ends
        exact settled _ (.inr rfl)
      | true =>
        obtain rfl : stage = .marking := ends
        exact absent rfl

/-- A worker returns when it has ended. -/
def EndsPublish (_ : Except EffectError ArbitrationResult) (stage : PublishStage) : Prop :=
  stage = .ended

theorem follows_pushPrepared (result : ArbitrationResult) :
    (pushPrepared effectId result).run.Follows (publishing effectId) (fun _ _ => True)
      EndsPublish .marking := by
  refine follows_ledger ⟨_, _, rfl⟩ (fun _ => rfl) fun marked => ⟨rfl, fun pushed _ => ?_⟩
  cases pushed with
  | ok _ => exact follows_ledger (.inl rfl) (fun _ => rfl) fun _ => rfl
  | error stderr =>
    refine follows_ite (fun _ => ?_) fun _ => ?_
    · refine follows_ledger (.inr (.inr ⟨_, rfl⟩)) (fun _ => rfl) fun _ => ?_
      refine follows_reconciled (fun _ => rfl) (fun verdict _ => ?_) nofun
      cases verdict <;> exact rfl
    · exact follows_ledger (.inr (.inl ⟨_, rfl⟩)) (fun _ => rfl) fun _ => rfl

theorem follows_publish (result : ArbitrationResult) :
    (publish effectId result).run.Follows (publishing effectId) (fun _ _ => True)
      EndsPublish .starting := by
  refine ⟨.inl rfl, fun expectedAfter _ => ⟨.inr ⟨_, _, rfl⟩, fun prepared _ => ?_⟩⟩
  cases prepared with
  | error error => cases error <;> exact rfl
  | ok record =>
    obtain ⟨_, _, status, _, _, _, _, _, _, _, _⟩ := record
    cases status with
    | confirmed => exact rfl
    | prepared | inFlight | failed => exact follows_pushPrepared result
    | unknown | reconciling =>
      refine follows_reconciled (fun _ => rfl) (fun verdict final => ?_) fun _ =>
        follows_pushPrepared result
      cases verdict with
      | applied | inconclusive => exact rfl
      | absent => simp at final

end Follows

section Holds

variable {Index : Type} [Fintype Index] [DecidableEq Index] {effectId : String}

/-- How many workers may be running in view of the record. -/
def room (record : Option EffectRecord) : Nat :=
  match record.map EffectRecord.status with
  | some .inFlight | some .confirmed => 1
  | _ => 0

def LeaseLasts (now : Seconds) (record : Option EffectRecord) (operation : ArbiterOperation) :
    Prop :=
  match operation, record with
  | .ledger _ (.prepare _ _), some record => record.status = .inFlight → now < record.leaseUntil
  | _, _ => True

/-- A reconciliation that gives up does not take the effect from a worker that is running. -/
def LeavesRunning (record : Option EffectRecord) (stages : Index → PublishStage) (index : Index)
    (operation : ArbiterOperation) : Prop :=
  match operation, record with
  | .ledger _ (.markUnknown _), some record =>
    stages index ≠ .reporting → record.status = .inFlight → weigh running stages = 0
  | _, _ => True

/-- Workers run only under a record that lets them, and only one at a time. -/
def EffectHolds (record : Option EffectRecord) (stages : Index → PublishStage) : Prop :=
  weigh running stages ≤ room record

theorem room_le_one (record : Option EffectRecord) : room record ≤ 1 := by
  unfold room
  split <;> omega

variable {record : Option EffectRecord} {stages : Index → PublishStage} {index : Index}
  {stage : PublishStage} {now : Seconds} {asked : EffectRequest} {after : EffectRecord}

theorem EffectHolds.still (holds : EffectHolds record stages)
    (calm : stage.running ≤ (stages index).running) :
    EffectHolds record (update stages index stage) := by
  have moved := weigh_update running stages index stage
  unfold EffectHolds at *
  omega

theorem EffectHolds.of_idle (idle : weigh running stages = 0)
    (fits : stage.running ≤ room (some after)) :
    EffectHolds (some after) (update stages index stage) := by
  have moved := weigh_update running stages index stage
  unfold EffectHolds
  omega

theorem EffectHolds.report (holds : EffectHolds record stages)
    (reporting : (stages index).running = 1) (ends : stage.running = 0) :
    EffectHolds (some after) (update stages index stage) := by
  have moved := weigh_update running stages index stage
  have one := room_le_one record
  unfold EffectHolds at *
  omega

omit [DecidableEq Index] in
theorem EffectHolds.idle (holds : EffectHolds record stages) (closed : room record = 0) :
    weigh running stages = 0 := by
  unfold EffectHolds at holds
  omega

omit [DecidableEq Index] in
theorem room_prepare {kind head : String}
    (leased : LeaseLasts now record (.ledger effectId (.prepare kind head)))
    (served : prepare effectId kind head now record = .ok after) :
    room record ≤ room (some after) := by
  cases record with
  | none => exact Nat.zero_le _
  | some old =>
    cases status : old.status with
    | inFlight =>
      rw [prepare_of_lease kind head status (leased status)] at served
      cases served
    | confirmed =>
      simp only [prepare, status, Except.ok.injEq] at served
      rw [served]
    | prepared | failed | unknown | reconciling => simp [room, status]

/-- A request that is served leaves workers running as the new record lets them. -/
theorem EffectHolds.serve (holds : EffectHolds record stages)
    (leased : LeaseLasts now record (.ledger effectId asked))
    (leaves : LeavesRunning record stages index (.ledger effectId asked))
    (asks : (stages index).Asks effectId (.ledger effectId asked))
    (served : handle effectId asked now record = .ok after) :
    EffectHolds (some after)
      (update stages index ((stages index).afterRequest asked after)) := by
  have leads := handle_leads served
  have one := room_le_one record
  have closed (status : EffectStatus) (found : record.map EffectRecord.status = some status)
      (waits : status ≠ .inFlight ∧ status ≠ .confirmed) :
      weigh running stages = 0 := by
    refine holds.idle ?_
    rw [room, found]
    cases status <;> simp_all
  cases stage : stages index with
  | starting =>
    obtain ⟨kind, head, rfl⟩ : ∃ kind head, asked = .prepare kind head := by
      simpa [Asks, stage] using asks
    have calm :
        (starting.afterRequest (.prepare kind head) after).running = 0 := by
      simp only [afterRequest, afterPrepare]
      cases after.status <;> rfl
    exact (holds.still (by omega)).trans (room_prepare leased served)
  | marking | adopting again =>
    obtain ⟨owner, lease, rfl⟩ : ∃ owner lease, asked = .markInFlight owner lease := by
      simpa [Asks, stage] using asks
    refine .of_idle (closed _ leads.1 (by simp)) ?_
    simp [room, leads.2, afterRequest, running]
  | reporting =>
    refine holds.report (by rw [stage]; rfl) ?_
    cases asked <;> rfl
  | adopted again | beginning again =>
    obtain ⟨owner, rfl⟩ : ∃ owner, asked = .beginReconcile owner := by
      simpa [Asks, stage] using asks
    exact .of_idle (closed _ leads.1 (by simp)) (Nat.zero_le _)
  | reconciling again =>
    have calm : ((reconciling again).afterRequest asked after).running = 0 := by
      cases again <;> cases asked <;> rfl
    obtain rfl | ⟨reason, rfl⟩ | ⟨reason, rfl⟩ : asked = .confirm ∨
        (∃ reason, asked = .resolveReconcile false reason) ∨
          ∃ reason, asked = .markUnknown reason := by
      simpa [Asks, stage] using asks
    · refine (holds.still (by omega)).trans ?_
      simpa [room, leads.1] using one
    · exact .of_idle (closed _ leads.1 (by simp)) (by omega)
    · refine .of_idle ?_ (by omega)
      cases record with
      | none => simp [EffectRequest.Leads] at leads
      | some old =>
        by_cases inFlight : old.status = .inFlight
        · exact leaves (by simp [stage]) inFlight
        · refine closed old.status rfl ⟨inFlight, fun confirmed => ?_⟩
          simp [EffectRequest.Leads, confirmed] at leads
  | pushing | looking again | ended => simp [Asks, stage] at asks

end Holds

section Run

/-- What was served for a worker. -/
abbrev PublishEvent (Index : Type) := Occurrence Index ArbiterOperation Answer

/-- Workers that share a ledger. -/
abbrev PublishSession (Index : Type) :=
  Session Index Ledger ArbiterOperation Answer (Except EffectError ArbitrationResult)

/-- The state that a request has led to. -/
def answeredStatus : (operation : ArbiterOperation) → operation.Answer → Option EffectStatus
  | .ledger _ _, .ok record => some record.status
  | _, _ => none

def marksInFlight : (operation : ArbiterOperation) → operation.Answer → Prop
  | .ledger _ (.markInFlight _ _), .ok _ => True
  | _, _ => False

variable {Index : Type}

/-- The effect was confirmed at the start or by what was served since. -/
def WasConfirmed (initial : Option EffectRecord) (log : List (PublishEvent Index)) : Prop :=
  initial.map EffectRecord.status = some .confirmed ∨
    ∃ event ∈ log, answeredStatus event.operation event.answer = some .confirmed

variable (effectId : String) (start : Ledger) (results : Index → ArbitrationResult)

/-- Every worker is about to publish the effect. -/
def publishSession : PublishSession Index where
  store := start
  calls index := (publish effectId (results index)).run
  log := []

variable [DecidableEq Index]

/-- The stages that the workers have reached. -/
def publishStages (session : PublishSession Index) : Index → PublishStage :=
  (publishing effectId).phase (fun _ => .starting) session.log

/-- The effect is executed by one worker at a time, not while it is open to another attempt, and
not after it was confirmed. -/
structure ExecutedOnce (session : PublishSession Index) : Prop where
  alone : ∀ first second, (publishStages effectId session first).running = 1 →
    (publishStages effectId session second).running = 1 → first = second
  idle : ∀ record, session.store effectId = some record →
    record.status = .failed ∨ record.status = .prepared →
      ∀ index, (publishStages effectId session index).running = 0
  settled : ∀ before event, before ++ [event] <+: session.log →
    marksInFlight event.operation event.answer → ¬ WasConfirmed (start effectId) before

variable [Fintype Index]

/-- No lease is over at the next step. -/
def KeepsLease (before : PublishSession Index) (move : Index × Environment) : Prop :=
  ∀ operation resume, before.calls move.1 = .ask operation resume →
    LeaseLasts move.2.now (before.store effectId) operation

/-- Nor does the next step take the effect from a worker that is running. -/
def KeepsExecution (before : PublishSession Index) (move : Index × Environment) : Prop :=
  ∀ operation resume, before.calls move.1 = .ask operation resume →
    LeaseLasts move.2.now (before.store effectId) operation ∧
      LeavesRunning (before.store effectId) (publishStages effectId before) move.1 operation

structure PublishHolds (ledger : Ledger) (stages : Index → PublishStage)
    (log : List (PublishEvent Index)) : Prop where
  holds : EffectHolds (ledger effectId) stages
  confirmed : WasConfirmed (start effectId) log →
    (ledger effectId).map EffectRecord.status = some .confirmed
  settled : ∀ before event, before ++ [event] <+: log →
    marksInFlight event.operation event.answer → ¬ WasConfirmed (start effectId) before

variable {effectId start results} {ledger : Ledger} {stages : Index → PublishStage}
  {log : List (PublishEvent Index)}

omit [DecidableEq Index] [Fintype Index] in
theorem WasConfirmed.of_snoc {initial : Option EffectRecord} {event : PublishEvent Index}
    (confirmed : WasConfirmed initial (log ++ [event])) :
    WasConfirmed initial log ∨ answeredStatus event.operation event.answer = some .confirmed := by
  rcases confirmed with begun | ⟨earlier, member, answered⟩
  · exact .inl (.inl begun)
  · rcases List.mem_append.mp member with known | last
    · exact .inl (.inr ⟨earlier, known, answered⟩)
    · rw [List.mem_singleton.mp last] at answered
      exact .inr answered

theorem PublishHolds.quiet (held : PublishHolds effectId start ledger stages log)
    {event : PublishEvent Index} {index : Index} (calm : stage.running ≤ (stages index).running)
    (unanswered : answeredStatus event.operation event.answer = none)
    (unmarked : ¬ marksInFlight event.operation event.answer) :
    PublishHolds effectId start ledger (update stages index stage) (log ++ [event]) := by
  refine ⟨held.holds.still calm, fun confirmed => ?_, fun before other within marks => ?_⟩
  · refine held.confirmed (confirmed.of_snoc.resolve_right ?_)
    rw [unanswered]
    exact nofun
  · rcases snoc_prefix_snoc within with ⟨rfl, rfl⟩ | earlier
    · exact absurd marks unmarked
    · exact held.settled before other earlier marks

theorem PublishHolds.step (held : PublishHolds effectId start ledger stages log) {index : Index}
    {environment : Environment} {operation : ArbiterOperation}
    (leased : LeaseLasts environment.now (ledger effectId) operation)
    (leaves : LeavesRunning (ledger effectId) stages index operation)
    (asks : (stages index).Asks effectId operation) :
    let next := operation.execute environment ledger
    PublishHolds effectId start next.2
      (update stages index ((stages index).next operation next.1))
      (log ++ [⟨index, operation, next.1⟩]) := by
  cases operation with
  | git operation => exact held.quiet (running_next_git _ _ _) rfl id
  | get asked => exact held.quiet (running_next_get asks _) rfl id
  | ledger asked request =>
    obtain rfl := Asks.own asks
    simp only [execute]
    cases served : handle asked request environment.now (ledger asked) with
    | error error =>
      have ended : (stages index).next (.ledger asked request) (.error error) = .ended := by
        cases stages index <;> rfl
      refine held.quiet ?_ rfl ?_
      · rw [ended]
        exact Nat.zero_le _
      · cases request <;> exact id
    | ok record =>
      have leads := handle_leads served
      have moved : (stages index).next (.ledger asked request) (.ok record) =
          (stages index).afterRequest request record := by
        cases stages index <;> rfl
      refine ⟨?_, fun confirmed => ?_, fun before other within marks confirmed => ?_⟩
      · simp only [update_self, moved]
        exact held.holds.serve leased leaves asks served
      · simp only [update_self, Option.map_some]
        rcases confirmed.of_snoc with known | answered
        · rw [held.confirmed known] at leads
          rw [leads.of_confirmed]
        · exact answered
      · rcases snoc_prefix_snoc within with ⟨rfl, rfl⟩ | earlier
        · rw [held.confirmed confirmed] at leads
          cases request <;> simp_all [marksInFlight, EffectRequest.Leads]
        · exact held.settled before other earlier marks confirmed

/-- In every run in which no lease is over and no reconciliation takes the effect from a worker, the
effect is executed by one worker at a time, and not after it was confirmed. -/
theorem executedOnce_of_run {moves : List (Index × Environment)} {session : PublishSession Index}
    (run : Run (servesWhere execute (KeepsExecution effectId))
      (publishSession effectId start results) moves session) :
    ExecutedOnce effectId start session := by
  have underway : (publishSession effectId start results).Underway (publishing effectId)
      (fun _ _ => True) EndsPublish (fun _ => .starting) := fun index => follows_publish _
  have initially : PublishHolds effectId start start (fun _ : Index => .starting) [] := by
    refine ⟨?_, fun confirmed => ?_, fun before event within => ?_⟩
    · have nobody : weigh running (fun _ : Index => .starting) = 0 :=
        weigh_eq_zero fun _ => rfl
      rw [EffectHolds, nobody]
      exact Nat.zero_le _
    · rcases confirmed with begun | ⟨event, member, -⟩
      · exact begun
      · exact absurd member List.not_mem_nil
    · simp at within
  have held : PublishHolds effectId start session.store (publishStages effectId session)
      session.log := by
    refine Session.Underway.invariant (fun _ _ _ => trivial) ?_ run underway initially
    intro before index environment operation resume _ call careful asks held _ _
    obtain ⟨leased, leaves⟩ := careful operation resume call
    exact held.step leased leaves asks
  have one := room_le_one (session.store effectId)
  have alone := held.holds
  rw [EffectHolds] at alone
  refine ⟨fun first second runs also => ?_, fun record stored waits index => ?_, held.settled⟩
  · by_contra apart
    have both := add_le_weigh running (publishStages effectId session) apart
    omega
  · have closed : room (session.store effectId) = 0 := by
      rw [stored, room]
      rcases waits with failed | prepared
      · simp [failed]
      · simp [prepared]
    have own := le_weigh running (publishStages effectId session) index
    omega

end Run

section Check

variable {count : Nat} {effectId : String}

instance (now : Seconds) (record : Option EffectRecord) (operation : ArbiterOperation) :
    Decidable (LeaseLasts now record operation) := by
  unfold LeaseLasts
  split <;> infer_instance

instance (record : Option EffectRecord) (stages : Fin count → PublishStage) (index : Fin count)
    (operation : ArbiterOperation) : Decidable (LeavesRunning record stages index operation) := by
  unfold LeavesRunning
  split <;> infer_instance

/-- The next step is seen to keep the lease. -/
def keepsLease (effectId : String) (before : PublishSession (Fin count))
    (move : Fin count × Environment) : Bool :=
  match before.calls move.1 with
  | .done _ => true
  | .ask operation _ => decide (LeaseLasts move.2.now (before.store effectId) operation)

/-- The next step is seen to leave the effect with the worker that is running. -/
def keepsExecution (effectId : String) (before : PublishSession (Fin count))
    (move : Fin count × Environment) : Bool :=
  match before.calls move.1 with
  | .done _ => true
  | .ask operation _ => decide (LeaseLasts move.2.now (before.store effectId) operation ∧
      LeavesRunning (before.store effectId) (publishStages effectId before) move.1 operation)

theorem keepsLease_sound (before : PublishSession (Fin count)) (move : Fin count × Environment)
    (kept : keepsLease effectId before move) : KeepsLease effectId before move := by
  intro operation resume call
  simpa [keepsLease, call] using kept

theorem keepsExecution_sound (before : PublishSession (Fin count))
    (move : Fin count × Environment) (kept : keepsExecution effectId before move) :
    KeepsExecution effectId before move := by
  intro operation resume call
  simpa [keepsExecution, call] using kept

end Check

/-- Git where the local head is `b`, the remote was seen at `a`, and the two commands that reach
the remote answer as given. -/
def gitAnswers (pushed : Except String Unit) (listed : Except String Commit) :
    (operation : GitOperation) → operation.Answer
  | .head => "b"
  | .trackingHead => "a"
  | .push => pushed
  | .lsRemote => listed
  | .unmergedFiles => .ok []
  | .resolveFile _ => false
  | .fetchBase | .checkoutBase | .createBase | .resetBase | .fetchBranch _ | .merge _
  | .abortMerge | .commit => .ok ()

/-- A moment at which the remote is reached, and still at `a`. -/
def reached : Environment := ⟨0, gitAnswers (.ok ()) (.ok "a")⟩

/-- A moment at which the connection breaks. -/
def broken : Environment :=
  ⟨0, gitAnswers (.error "Connection reset by peer") (.error "Connection reset by peer")⟩

def threeWorkers : PublishSession (Fin 3) :=
  publishSession "eff" (fun _ => none) fun _ => { mergedBranches := ["uc/subtask/1"] }

def publishMoves (steps : List (Nat × Environment × Nat)) : List (Fin 3 × Environment) :=
  steps.flatMap fun step =>
    List.replicate step.2.2 (⟨step.1 % 3, Nat.mod_lt _ (by decide)⟩, step.2.1)

/-- The first push breaks, the second worker finds the commit absent and pushes it, and the first
gives its reconciliation up only after that. -/
def pushesInTurn : List (Fin 3 × Environment) :=
  publishMoves [(0, broken, 7), (1, reached, 10), (0, broken, 4), (2, reached, 2)]

/-- The first worker gives its reconciliation up while the second pushes, and the third finds the
commit absent again. -/
def pushesTogether : List (Fin 3 × Environment) :=
  publishMoves [(0, broken, 7), (1, reached, 8), (0, broken, 4), (2, reached, 9)]

theorem executedOnce_pushesInTurn :
    ExecutedOnce "eff" (fun _ => none) (pushesInTurn.foldl (Session.serve execute) threeWorkers) :=
  executedOnce_of_run (run_servesWhere keepsExecution_sound (by decide +kernel))

theorem executedOnce_fails_pushesTogether :
    Run (servesWhere execute (KeepsLease "eff")) threeWorkers pushesTogether
        (pushesTogether.foldl (Session.serve execute) threeWorkers) ∧
      ¬ ExecutedOnce "eff" (fun _ => none)
        (pushesTogether.foldl (Session.serve execute) threeWorkers) := by
  refine ⟨run_servesWhere keepsLease_sound (by decide +kernel), fun once => ?_⟩
  have apart : (1 : Fin 3) ≠ 2 := by decide
  exact apart (once.alone 1 2 (by decide +kernel) (by decide +kernel))

end UltimateCoders.Arbiter
