import UltimateCoders.Governance.ApprovalCalls

/-! # Approvals are spent once

Any number of clients request, decide, spend and close approvals, their operations interleaved
in any way. Of the calls that spend an approval one succeeds, and before it does a call of a
human other than the requester has allowed it, in time, while no call has refused it.
-/

namespace UltimateCoders.Governance

open Transition ToolApproval

universe u

variable {Index : Type u} {Value : Type} {serde : PolicySerde Value} {sha256Hex : String → String}
  {calls : Index → ApprovalCall} {start : RecordStore Value}
  {log : List (StoreEvent Index Value)} {event : StoreEvent Index Value} {index : Index}
  {key id : String} {approval before after used : ToolApproval} {now : Instant}

/-- The operation has written a document. -/
def StoreOperation.wrotePlace (operation : StoreOperation Value) (answer : operation.Answer) :
    Prop :=
  (operation.wrote answer).isSome = true

open StoreOperation

theorem returnsAfter_get {Document : Type} {returns : Except RecordError (Option (Document × Nat)) → Prop}
    (view : NamespacedStore) (codec : Codec Value Document) (key : String) :
    (view.get codec key).ReturnsAfter wrotePlace returns := by
  intro found
  refine ⟨fun wrote => absurd wrote Bool.false_ne_true, ?_⟩
  cases found with
  | error error => exact trivial
  | ok found =>
    cases found with
    | none => exact trivial
    | some record =>
      simp only [Program.bind]
      split <;> exact trivial

theorem returnsAfter_modify {Document Refusal Extra : Type} (view : NamespacedStore)
    (codec : Codec Value Document) (key : String)
    (mutate : Document → Nat → Except Refusal (Document × Extra)) (tries : Nat) :
    (view.modify codec key mutate tries).ReturnsAfter wrotePlace
      fun result => ∃ document extra, result = .written document extra := by
  induction tries with
  | zero => exact trivial
  | succ tries ih =>
    apply (returnsAfter_get view codec key).seq
    intro result
    cases result with
    | error error => exact trivial
    | ok found =>
      cases found with
      | none => exact trivial
      | some found =>
        obtain ⟨document, version⟩ := found
        dsimp only
        cases mutate document version with
        | error refusal => exact trivial
        | ok changed =>
          intro answer
          cases answer with
          | ok record => exact ⟨fun _ => ⟨_, rfl, _, _, rfl⟩, trivial⟩
          | error error =>
            refine ⟨fun wrote => absurd wrote Bool.false_ne_true, ?_⟩
            cases error with
            | conflict expected actual => exact ih
            | _ => exact trivial

theorem returnsAfter_change (codec : Codec Value ToolApproval) (id : String)
    (mutate : ToolApproval → Except ApprovalError ToolApproval) (lost : ApprovalError) :
    (ApprovalStore.change codec id mutate lost).ReturnsAfter wrotePlace
      fun result => ∃ after, result = .ok after := by
  have loop := returnsAfter_modify ApprovalStore.view codec id
    (fun approval _ => (mutate approval).map fun next => (next, ())) 3
  refine Program.ReturnsAfter.bind loop fun result => ?_
  cases result with
  | absent => exact ⟨.error (.notFound id), rfl, fun ⟨_, _, written⟩ => by cases written⟩
  | refused refusal => exact ⟨.error (.refused refusal), rfl, fun ⟨_, _, written⟩ => by cases written⟩
  | written next extra => exact ⟨.ok next, rfl, fun _ => ⟨next, rfl⟩⟩
  | contended => exact ⟨.error (.refused lost), rfl, fun ⟨_, _, written⟩ => by cases written⟩
  | failed error => exact ⟨.error (.store error), rfl, fun ⟨_, _, written⟩ => by cases written⟩

theorem approved_of_wrote [DecidableEq Index] {by_ : Principal} {note : Option String}
    {session : ApprovalSession Index Value} {moves : List (Index × Circumstance)}
    (run : Run (serves RecordStore.execute) (deciding serde sha256Hex calls start) moves session)
    (call : calls event.index = .approve id by_ note now) (logged : event ∈ session.log)
    (wrote : wrotePlace event.operation event.answer) :
    ∃ after, session.calls event.index = .done (.changed (.ok after)) := by
  have fresh : (deciding serde sha256Hex calls start).Settled wrotePlace
      (fun answer => ∃ after, answer = .changed (.ok after)) event.index := by
    refine ⟨?_, nofun⟩
    simp only [deciding, call, ApprovalCall.program, ApprovalStore.approve]
    refine Program.ReturnsAfter.bind (returnsAfter_change serde.approval id _ _) ?_
    exact fun result => ⟨_, rfl, fun ⟨after, same⟩ => ⟨after, by rw [same]⟩⟩
  obtain ⟨answer, returned, after, rfl⟩ := (fresh.run run).returned event logged rfl wrote
  exact ⟨after, returned⟩

theorem ApprovalCall.Changes.approve_of {call : ApprovalCall}
    (changes : call.Changes key before after) (allowed : after.state = .approved) :
    ∃ by_ note now, call = .approve key by_ note now ∧ before.approve by_ note now = .ok after := by
  have spent : ∀ now, before.consume now ≠ .ok after := by
    intro now consumed
    obtain ⟨-, -, rfl⟩ := consume_cases consumed
    cases allowed
  cases call with
  | approve id by_ note now =>
    obtain ⟨rfl, approved⟩ := changes
    exact ⟨by_, note, now, rfl, approved⟩
  | reject id by_ note now =>
    obtain ⟨-, -, -, -, rfl⟩ := decide_cases changes.2
    cases allowed
  | expireStale now limit =>
    obtain ⟨-, rfl⟩ := expire_cases changes
    cases allowed
  | consume | consumeApproved | authorizeTool | authorizeHumanTierTool =>
    exact (spent _ changes.2).elim
  | request | listPage | findApproved => exact changes.elim

theorem allowed_of_approvalAt (filed : ApprovalsFiled serde start)
    (clear : ∀ key, start.get approvalNamespace key = none)
    (proper : ProperLog (approvalRule serde sha256Hex calls start) start log)
    (found : approvalAt serde start log id = some approval) (allowed : approval.state = .approved) :
    ∃ earlier event before by_ note now, earlier ++ [event] <+: log ∧
      ChangesApproval serde calls start id before approval earlier event ∧
      calls event.index = .approve id by_ note now ∧
      before.approve by_ note now = .ok approval := by
  suffices all : ∀ approval, approvalAt serde start log id = some approval →
      approval.state = .approved → ∃ earlier event before by_ note now,
        earlier ++ [event] <+: log ∧
        ChangesApproval serde calls start id before approval earlier event ∧
        calls event.index = .approve id by_ note now ∧
        before.approve by_ note now = .ok approval from all approval found allowed
  refine proper.induct (motive := fun log => ∀ approval, approvalAt serde start log id = some approval →
      approval.state = .approved → ∃ earlier event before by_ note now,
        earlier ++ [event] <+: log ∧
        ChangesApproval serde calls start id before approval earlier event ∧
        calls event.index = .approve id by_ note now ∧
        before.approve by_ note now = .ok approval) ?_ ?_
  · intro approval found
    have absent : (storeAfter start ([] : List (StoreEvent Index Value))).get approvalNamespace id =
        none := clear id
    rw [approvalAt, storedApproval, absent] at found
    cases found
  · intro middle event properBefore step ih approval found allowed
    rcases approval_step filed properBefore step id with
      same | ⟨-, asked, now, ttl, -, -, created⟩ | ⟨before, after, changed⟩
    · rw [approvalAt, storedApproval, same] at found
      obtain ⟨earlier, first, before, by_, note, now, within, rest⟩ := ih approval found allowed
      exact ⟨earlier, first, before, by_, note, now, within.trans (List.prefix_append _ _), rest⟩
    · rw [created] at found
      cases found
      cases allowed
    · rw [changed.stored] at found
      cases found
      obtain ⟨by_, note, now, call, approved⟩ := changed.changes.approve_of allowed
      exact ⟨middle, event, before, by_, note, now, List.prefix_rfl, changed, call, approved⟩

/-- A call has returned an approval that it has spent. -/
inductive Spent (calls : Index → ApprovalCall) (session : ApprovalSession Index Value)
    (index : Index) : (id : String) → ToolApproval → Instant → Prop where
  | consume {id : String} {used : ToolApproval} {now : Instant} :
      calls index = .consume id now → session.calls index = .done (.changed (.ok used)) →
      Spent calls session index id used now
  | consumeApproved {tool : String} {caseId : Option String} {used : ToolApproval}
      {now : Instant} : calls index = .consumeApproved tool caseId now →
      session.calls index = .done (.spent (.ok (some used))) →
      Spent calls session index used.id used now

/-- A call of a human other than the requester has allowed what was spent, in time, and it has
written that before the approval was spent. -/
structure AllowedBefore (calls : Index → ApprovalCall) (session : ApprovalSession Index Value)
    (index : Index) (id : String) (used : ToolApproval) (approver : Index) (by_ : Principal)
    (at_ : Instant) : Prop where
  call : ∃ note, calls approver = .approve id by_ note at_
  succeeded : ∃ approved, session.calls approver = .done (.changed (.ok approved))
  human : by_.kind = .user
  other : by_ ≠ used.request.requestedBy
  early : at_ < used.expiresAt
  before : ∃ earlier allowing middle spending, earlier ++ [allowing] <+: middle ∧
    middle ++ [spending] <+: session.log ∧ allowing.index = approver ∧ spending.index = index ∧
    StoreEvent.wrote allowing = some (approvalNamespace, id) ∧
    StoreEvent.wrote spending = some (approvalNamespace, id)

/-- What spending once means for a session of clients. -/
structure SpendsOnce (serde : PolicySerde Value) (calls : Index → ApprovalCall)
    (start : RecordStore Value) (session : ApprovalSession Index Value) : Prop where
  stored : session.store = storeAfter start session.log
  once : ∀ first second id firstUsed secondUsed firstNow secondNow,
    Spent calls session first id firstUsed firstNow →
    Spent calls session second id secondUsed secondNow → first = second
  created : ∀ earlier event id approval, earlier ++ [event] <+: session.log →
    approvalAt serde start earlier id = none →
    approvalAt serde start (earlier ++ [event]) id = some approval → approval.state = .pending
  moves : ∀ earlier event id before, earlier ++ [event] <+: session.log →
    approvalAt serde start earlier id = some before →
    ∃ after, approvalAt serde start (earlier ++ [event]) id = some after ∧
      (after = before ∨ before.state.Moves after.state)
  decided : ∀ index id used now, Spent calls session index id used now →
    now < used.expiresAt ∧
    (∀ rejecter by_ note at_ rejected, calls rejecter = .reject id by_ note at_ →
      session.calls rejecter ≠ .done (.changed (.ok rejected))) ∧
    ∃ approver by_ at_, AllowedBefore calls session index id used approver by_ at_

theorem ChangesApproval.wrotePlace
    (changed : ChangesApproval serde calls start id before after log event) :
    StoreEvent.wrote event = some (approvalNamespace, id) := by
  obtain ⟨version, record, same⟩ := changed.wrote
  rw [same]
  rfl

section Run

variable {session : ApprovalSession Index Value} {moves : List (Index × Circumstance)}

theorem changes_of_spent (filed : ApprovalsFiled serde start)
    (account : session.Accounted recordService (writing (approvalRule serde sha256Hex calls start))
      start fun index answer log => (calls index).Established serde sha256Hex index answer log)
    (spent : Spent calls session index id used now) :
    ∃ earlier event before, event.index = index ∧ earlier ++ [event] <+: session.log ∧
      ChangesApproval serde calls start id before used earlier event ∧
      before.consume now = .ok used := by
  cases spent with
  | consume call returned | consumeApproved call returned =>
    have established := account.returned index _ returned
    rw [call] at established
    obtain ⟨earlier, event, before, own, within, changed⟩ :=
      Rewrote.changes established filed account.proper
    have changes := changed.changes
    rw [own, call] at changes
    exact ⟨earlier, event, before, own, within, changed, changes.2⟩

variable [DecidableEq Index]

/-- In every interleaving each approval is spent at most once, and only after a human has
allowed it. -/
theorem spendsOnce_of_run (clear : ∀ key, start.get approvalNamespace key = none)
    (run : Run (serves RecordStore.execute) (deciding serde sha256Hex calls start) moves session) :
    SpendsOnce serde calls start session := by
  have filed : ApprovalsFiled serde start := .of_clear clear
  have account := accounted_of_deciding filed run
  refine ⟨account.store_eq, ?_, ?_, ?_, ?_⟩
  · intro first second id firstUsed secondUsed firstNow secondNow firstSpent secondSpent
    obtain ⟨earlier, event, before, rfl, within, changed, consumed⟩ :=
      changes_of_spent filed account firstSpent
    obtain ⟨otherEarlier, other, otherBefore, rfl, otherWithin, otherChanged, otherConsumed⟩ :=
      changes_of_spent filed account secondSpent
    obtain ⟨-, -, rfl⟩ := consume_cases consumed
    obtain ⟨-, -, rfl⟩ := consume_cases otherConsumed
    have same := changed.end_unique filed account.proper within otherWithin otherChanged rfl rfl
    rw [same.2.1]
  · intro earlier event id approval within absent stored
    rcases approval_step filed (account.proper.of_prefix ((List.prefix_append _ _).trans within))
      (account.proper _ _ within) id with
      same | ⟨-, asked, now, ttl, -, -, created⟩ | ⟨before, after, changed⟩
    · rw [approvalAt, storedApproval, same, ← storedApproval, ← approvalAt, absent] at stored
      cases stored
    · rw [created] at stored
      cases stored
      rfl
    · rw [changed.found] at absent
      cases absent
  · intro earlier event id before within found
    rcases approval_step filed (account.proper.of_prefix ((List.prefix_append _ _).trans within))
      (account.proper _ _ within) id with same | ⟨absent, -⟩ | ⟨old, after, changed⟩
    · exact ⟨before, by rw [approvalAt, storedApproval, same]; exact found, .inl rfl⟩
    · rw [approvalAt, storedApproval, absent] at found
      cases found
    · have same := changed.found
      rw [found, Option.some.injEq] at same
      subst same
      exact ⟨after, changed.stored, .inr changed.changes.moves.1⟩
  · intro index id used now spent
    obtain ⟨middle, spending, before, rfl, within, changed, consumed⟩ :=
      changes_of_spent filed account spent
    obtain ⟨allowed, early, rfl⟩ := consume_cases consumed
    refine ⟨early, ?_, ?_⟩
    · intro rejecter by_ note at_ rejected call returned
      have established := account.returned rejecter _ returned
      rw [call] at established
      obtain ⟨earlier, refusal, pending, rfl, refused, refuses⟩ :=
        Rewrote.changes established filed account.proper
      have changes := refuses.changes
      rw [call] at changes
      obtain ⟨-, -, -, -, rfl⟩ := decide_cases changes.2
      have same := changed.end_unique filed account.proper within refused refuses rfl rfl
      cases congrArg state same.2.2
    · have properBefore := account.proper.of_prefix ((List.prefix_append _ _).trans within)
      obtain ⟨earlier, allowing, pending, by_, note, at_, sooner, allows, call, approved⟩ :=
        allowed_of_approvalAt filed clear properBefore changed.found allowed
      obtain ⟨-, inTime, human, other, same⟩ := approve_cases approved
      have logged : allowing ∈ session.log :=
        ((sooner.trans (List.prefix_append middle [spending])).trans within).subset
          (List.mem_append_right _ List.mem_cons_self)
      have wrote := allows.wrotePlace
      refine ⟨allowing.index, by_, at_, ⟨note, call⟩, ?_, human, ?_, ?_,
        earlier, allowing, middle, spending, sooner, within, rfl, rfl, wrote, changed.wrotePlace⟩
      · apply approved_of_wrote run call logged
        have placed : allowing.operation.wrote allowing.answer = some (approvalNamespace, id) :=
          wrote
        rw [wrotePlace, placed]
        rfl
      · rw [same]
        exact other
      · rw [same]
        exact inTime

end Run

/-- Documents stored as they are. -/
def plainPolicy : PolicySerde (ToolApproval ⊕ Mandate) where
  approval :=
    { encode := .inl
      decode
        | .inl approval => .ok approval
        | .inr _ => .error "missing field `request`"
      decode_encode := fun _ => rfl }
  mandate :=
    { encode := .inr
      decode
        | .inr mandate => .ok mandate
        | .inl _ => .error "missing field `grantor`"
      decode_encode := fun _ => rfl }

/-- An agent asks for leave to scale the workers. -/
def scaleRequest : ApprovalRequest where
  tool := "scale_workers"
  caseId := some "case-1"
  projectId := some "proj"
  actionDigest := some "d1"
  requestedBy := ⟨.agent, "executor"⟩
  reason := none

def scaleDigest (text : String) : String :=
  if text = "scale_workers|case-1|agent|executor|d1" then
    "62ec577079dd5e91fdc1e3d1c219ea7cbb59062aeed721645fcd6cdeadd0e93c"
  else text

/-- The permit is asked for and allowed; two calls want to spend it. -/
def scaleCalls : Nat → ApprovalCall
  | 0 => .request scaleRequest 0 none
  | 1 => .approve (approvalId scaleDigest scaleRequest) ⟨.user, "bob"⟩ (some "ok") 1
  | 2 => .consume (approvalId scaleDigest scaleRequest) 2
  | _ => .consumeApproved "scale_workers" (some "case-1") 3

def scaleMoves : List (Nat × Circumstance) :=
  [0, 1, 1, 3, 2, 2, 3].map fun index => (index, ⟨5, none⟩)

def scaleApproved : ToolApproval :=
  { ofRequest scaleDigest scaleRequest 0 none with
    state := .approved, decidedAt := some 1, decidedBy := some ⟨.user, "bob"⟩, note := some "ok" }

theorem spendsOnce_of_run_scaling :
    ∃ session : ApprovalSession Nat (ToolApproval ⊕ Mandate),
      Run (serves RecordStore.execute) (deciding plainPolicy scaleDigest scaleCalls .empty) scaleMoves
        session ∧
      Spent scaleCalls session 2 (approvalId scaleDigest scaleRequest)
        { scaleApproved with state := .used, usedAt := some 2 } 2 ∧
      session.calls 3 = .done (.spent (.ok none)) ∧
      SpendsOnce plainPolicy scaleCalls .empty session :=
  ⟨_, run_serves _ _, .consume rfl rfl, rfl, spendsOnce_of_run (fun _ => rfl) (run_serves _ _)⟩

end UltimateCoders.Governance
