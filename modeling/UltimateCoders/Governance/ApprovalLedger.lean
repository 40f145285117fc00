import UltimateCoders.Governance.Authorization

/-! # The ledger of approvals

Whatever calls are interleaved, a document is created by a request and changed by the calls
that decide, spend or close it. It keeps its request and its lifetime, and once it is refused,
closed or spent it stays as it is.
-/

namespace UltimateCoders.Governance

open Transition

universe u

variable {Index : Type u} {Value : Type}

inductive ApprovalCall where
  | request (request : ApprovalRequest) (now : Instant) (ttl : Option Int)
  | approve (id : String) (by_ : Principal) (note : Option String) (now : Instant)
  | reject (id : String) (by_ : Principal) (note : Option String) (now : Instant)
  | consume (id : String) (now : Instant)
  | consumeApproved (tool : String) (caseId : Option String) (now : Instant)
  | expireStale (now : Instant) (limit : Nat)
  | listPage (state : Option ApprovalState) (limit offset : Nat)
  | findApproved (tool : String) (caseId : Option String) (now : Instant)
  | authorizeTool (engine : PolicyEngine) (principal : Principal) (tool : String)
      (projectId caseId : Option String) (now : Instant)
  | authorizeHumanTierTool (engine : PolicyEngine) (principal : Principal) (tool : String)
      (projectId caseId : Option String) (now : Instant)

inductive ApprovalAnswer where
  | requested (result : Except ApprovalStoreError (ToolApproval × Bool))
  | changed (result : Except ApprovalStoreError ToolApproval)
  | spent (result : Except ApprovalStoreError (Option ToolApproval))
  | expired (result : Except ApprovalStoreError Nat)
  | listed (result : Except ApprovalStoreError (List ToolApproval))
  | found (result : Except ApprovalStoreError (Option ToolApproval))
  | decided (decision : PolicyDecision)

namespace ApprovalCall

variable (serde : PolicySerde Value) (sha256Hex : String → String)

def program : ApprovalCall → StoreProgram Value ApprovalAnswer
  | .request asked now ttl => do
      return .requested (← ApprovalStore.request serde.approval (.ofRequest sha256Hex asked now ttl))
  | approve id by_ note now => do
      return .changed (← ApprovalStore.approve serde.approval id by_ note now)
  | reject id by_ note now => do
      return .changed (← ApprovalStore.reject serde.approval id by_ note now)
  | consume id now => do return .changed (← ApprovalStore.consume serde.approval id now)
  | consumeApproved tool caseId now => do
      return .spent (← ApprovalStore.consumeApproved serde.approval tool caseId now)
  | expireStale now limit => do
      return .expired (← ApprovalStore.expireStale serde.approval now limit)
  | listPage state limit offset => do
      return .listed (← ApprovalStore.listPage serde.approval state limit offset)
  | findApproved tool caseId now => do
      return .found (← ApprovalStore.findApproved serde.approval tool caseId now)
  | authorizeTool engine principal tool projectId caseId now => do
      return .decided (← engine.authorizeTool serde principal tool projectId caseId now)
  | authorizeHumanTierTool engine principal tool projectId caseId now => do
      return .decided (← engine.authorizeHumanTierTool serde principal tool projectId caseId now)

/-- What a call may make of a document under a key. -/
def Changes (key : String) (before after : ToolApproval) : ApprovalCall → Prop
  | approve id by_ note now => id = key ∧ before.approve by_ note now = .ok after
  | reject id by_ note now => id = key ∧ before.reject by_ note now = .ok after
  | consume id now => id = key ∧ before.consume now = .ok after
  | consumeApproved tool caseId now =>
    before.covers tool caseId = true ∧ before.consume now = .ok after
  | expireStale now _ => before.expire now = .ok after
  | authorizeTool _ _ tool _ caseId now =>
    before.covers tool caseId = true ∧ before.consume now = .ok after
  | authorizeHumanTierTool _ _ tool _ caseId now =>
    before.covers tool caseId = true ∧ before.consume now = .ok after
  | request _ _ _ => False
  | listPage _ _ _ => False
  | findApproved _ _ _ => False

end ApprovalCall

namespace ToolApproval

variable {before after : ToolApproval} {by_ : Principal} {note : Option String} {now : Instant}

theorem decide_cases {next : ApprovalState} (decided : before.decide by_ next note now = .ok after) :
    before.state = .pending ∧ now < before.expiresAt ∧ by_.kind = .user ∧
      by_ ≠ before.request.requestedBy ∧
      after = { before with
        state := next, decidedAt := some now, decidedBy := some by_, note := note } := by
  unfold decide at decided
  split_ifs at decided with waiting late human own
  have pending : before.state = .pending := by simpa [isPending] using waiting
  cases decided
  exact ⟨pending, lt_of_not_ge late, not_not.mp human, own, rfl⟩

theorem approve_cases (approved : before.approve by_ note now = .ok after) :
    before.state = .pending ∧ now < before.expiresAt ∧ by_.kind = .user ∧
      by_ ≠ before.request.requestedBy ∧
      after = { before with
        state := .approved, decidedAt := some now, decidedBy := some by_, note := note } := by
  unfold approve at approved
  cases decided : before.decide by_ .approved note now with
  | error error =>
    rw [decided] at approved
    cases approved
  | ok next =>
    rw [decided] at approved
    cases approved
    obtain ⟨pending, early, human, other, rfl⟩ := decide_cases decided
    exact ⟨pending, early, human, other, rfl⟩

theorem consume_cases (consumed : before.consume now = .ok after) :
    before.state = .approved ∧ now < before.expiresAt ∧
      after = { before with state := .used, usedAt := some now } := by
  unfold consume at consumed
  split_ifs at consumed with spent
  have usable : before.state = .approved ∧ now < before.expiresAt := by simpa [isUsable] using spent
  cases consumed
  exact ⟨usable.1, usable.2, rfl⟩

theorem expire_cases (expired : before.expire now = .ok after) :
    before.state = .pending ∧ after = { before with state := .expired } := by
  unfold expire at expired
  split_ifs at expired with waiting early
  have pending : before.state = .pending := by simpa [isPending] using waiting
  cases expired
  exact ⟨pending, rfl⟩

end ToolApproval

def ApprovalState.isTerminal : ApprovalState → Bool
  | rejected | expired | used => true
  | pending | approved => false

/-- The ways in which a document moves on. -/
inductive ApprovalState.Moves : ApprovalState → ApprovalState → Prop where
  | approved : Moves .pending .approved
  | rejected : Moves .pending .rejected
  | expired : Moves .pending .expired
  | used : Moves .approved .used

theorem ApprovalState.Moves.not_terminal {before after : ApprovalState} (moves : before.Moves after) :
    before.isTerminal = false := by
  cases moves <;> rfl

theorem ApprovalState.Moves.not_pending {before after : ApprovalState} (moves : before.Moves after) :
    after ≠ .pending := by
  cases moves <;> exact nofun

/-- A later version of a document: request and lifetime are the same, and an end is an end. -/
structure ToolApproval.Follows (before after : ToolApproval) : Prop where
  id_eq : after.id = before.id
  request_eq : after.request = before.request
  expiresAt_eq : after.expiresAt = before.expiresAt
  ended : before.state.isTerminal = true → after = before

namespace ToolApproval.Follows

variable {first second third : ToolApproval}

theorem refl (approval : ToolApproval) : approval.Follows approval := ⟨rfl, rfl, rfl, fun _ => rfl⟩

theorem trans (left : first.Follows second) (right : second.Follows third) :
    first.Follows third where
  id_eq := right.id_eq.trans left.id_eq
  request_eq := right.request_eq.trans left.request_eq
  expiresAt_eq := right.expiresAt_eq.trans left.expiresAt_eq
  ended terminal := by
    have same := left.ended terminal
    subst same
    exact right.ended terminal

end ToolApproval.Follows

theorem ApprovalCall.Changes.moves {call : ApprovalCall} {key : String}
    {before after : ToolApproval} (changes : call.Changes key before after) :
    before.state.Moves after.state ∧ before.Follows after := by
  have spent : ∀ now, before.consume now = .ok after →
      before.state.Moves after.state ∧ before.Follows after := by
    intro now consumed
    obtain ⟨state, -, rfl⟩ := ToolApproval.consume_cases consumed
    refine ⟨by rw [state]; exact .used, rfl, rfl, rfl, fun terminal => ?_⟩
    rw [state] at terminal
    cases terminal
  cases call with
  | approve id by_ note now =>
    obtain ⟨state, -, -, -, rfl⟩ := ToolApproval.approve_cases changes.2
    refine ⟨by rw [state]; exact .approved, rfl, rfl, rfl, fun terminal => ?_⟩
    rw [state] at terminal
    cases terminal
  | reject id by_ note now =>
    obtain ⟨state, -, -, -, rfl⟩ := ToolApproval.decide_cases changes.2
    refine ⟨by rw [state]; exact .rejected, rfl, rfl, rfl, fun terminal => ?_⟩
    rw [state] at terminal
    cases terminal
  | expireStale now limit =>
    obtain ⟨state, rfl⟩ := ToolApproval.expire_cases changes
    refine ⟨by rw [state]; exact .expired, rfl, rfl, rfl, fun terminal => ?_⟩
    rw [state] at terminal
    cases terminal
  | consume | consumeApproved | authorizeTool | authorizeHumanTierTool => exact spent _ changes.2
  | request | listPage | findApproved => exact changes.elim

section Ledger

variable (serde : PolicySerde Value) (sha256Hex : String → String) (calls : Index → ApprovalCall)
  (start : RecordStore Value)

/-- Approvals are kept under their own ids. -/
def ApprovalsFiled (store : RecordStore Value) : Prop :=
  ∀ key record, store.get approvalNamespace key = some record → record.version ≠ 0 ∧
    ∀ approval, serde.approval.decode record.value = .ok approval → approval.id = key

/-- The record was stored at some moment of the log. -/
def SeenApproval (key : String) (record : Record Value) (log : List (StoreEvent Index Value)) :
    Prop :=
  ∃ earlier, earlier <+: log ∧ (storeAfter start earlier).get approvalNamespace key = some record

/-- A client creates the document of its request, or replaces one by what its call makes of it. -/
def approvalRule : WriteRule Index Value := fun index _ log space key value expected =>
  space = approvalNamespace ∧
    ((∃ asked now ttl, calls index = .request asked now ttl ∧ key = approvalId sha256Hex asked ∧
        value = serde.approval.encode (.ofRequest sha256Hex asked now ttl) ∧ expected = some 0) ∨
      ∃ record before after, SeenApproval start key record log ∧
        serde.approval.decode record.value = .ok before ∧
        (calls index).Changes key before after ∧ value = serde.approval.encode after ∧
        expected = some record.version)

def storedApproval (store : RecordStore Value) (key : String) : Option ToolApproval :=
  (store.get approvalNamespace key).bind fun record =>
    (serde.approval.decode record.value).toOption

def approvalAt (log : List (StoreEvent Index Value)) (key : String) : Option ToolApproval :=
  storedApproval serde (storeAfter start log) key

/-- The event is a write of a call that changes the approval under a key. -/
structure ChangesApproval (key : String) (before after : ToolApproval)
    (log : List (StoreEvent Index Value)) (event : StoreEvent Index Value) : Prop where
  found : approvalAt serde start log key = some before
  stored : approvalAt serde start (log ++ [event]) key = some after
  changes : (calls event.index).Changes key before after
  wrote : ∃ version record, event = ⟨event.index, .put approvalNamespace key
    (serde.approval.encode after) (some version), .ok record⟩

variable {serde sha256Hex calls start} {log later : List (StoreEvent Index Value)}
  {event : StoreEvent Index Value} {key : String} {record : Record Value}
  {approval before after : ToolApproval}

theorem ApprovalsFiled.of_clear (clear : ∀ key, start.get approvalNamespace key = none) :
    ApprovalsFiled serde start := by
  intro key record found
  rw [clear] at found
  cases found

theorem SeenApproval.mono (seen : SeenApproval start key record log) (isPrefix : log <+: later) :
    SeenApproval start key record later := by
  obtain ⟨earlier, within, found⟩ := seen
  exact ⟨earlier, within.trans isPrefix, found⟩

theorem storedApproval_of_get {store : RecordStore Value}
    (found : store.get approvalNamespace key = some record)
    (decoded : serde.approval.decode record.value = .ok approval) :
    storedApproval serde store key = some approval := by
  simp [storedApproval, found, decoded, Except.toOption]

theorem get_of_storedApproval {store : RecordStore Value}
    (found : storedApproval serde store key = some approval) :
    ∃ record, store.get approvalNamespace key = some record ∧
      serde.approval.decode record.value = .ok approval := by
  obtain ⟨record, stored, decoded⟩ := Option.bind_eq_some_iff.mp found
  refine ⟨record, stored, ?_⟩
  cases read : serde.approval.decode record.value with
  | error detail => simp [read, Except.toOption] at decoded
  | ok document =>
    simp only [read, Except.toOption, Option.some.injEq] at decoded
    rw [decoded]

section

variable (filed : ApprovalsFiled serde start)
  (proper : ProperLog (approvalRule serde sha256Hex calls start) start log)

include filed proper

theorem approval_accepted {expected : Option Nat}
    (accepted : Accepted (approvalRule serde sha256Hex calls start) start log event expected record) :
    ((storeAfter start log).get approvalNamespace record.key = none ∧
      ∃ asked now ttl, calls event.index = .request asked now ttl ∧
        record.key = approvalId sha256Hex asked ∧
        record.value = serde.approval.encode (.ofRequest sha256Hex asked now ttl)) ∨
    ∃ before after, record.value = serde.approval.encode after ∧
      ChangesApproval serde calls start record.key before after log event := by
  obtain ⟨space, ruled⟩ := accepted.ruled
  have stored := accepted.get_snoc
  have agrees := accepted.agrees
  rw [space] at stored agrees
  rcases ruled with ⟨asked, now, ttl, call, key, value, rfl⟩ |
    ⟨seen, before, after, ⟨earlier, within, found⟩, decoded, changes, value, rfl⟩
  · refine .inl ⟨?_, asked, now, ttl, call, key, value⟩
    cases present : (storeAfter start log).get approvalNamespace record.key with
    | none => rfl
    | some current =>
      have positive := version_ne_zero proper (fun record initial => (filed _ record initial).1)
        present
      rw [present] at agrees
      simp [RecordStore.casConflict, positive] at agrees
  · obtain ⟨current, present, newer⟩ := get_later proper within found
    have same : current.version = seen.version := by
      rw [← space] at present
      exact accepted.version_expected present
    rcases newer with rfl | newer
    · refine .inr ⟨before, after, value, storedApproval_of_get present decoded,
        storedApproval_of_get stored ?_, changes, current.version, record, ?_⟩
      · rw [value, serde.approval.decode_encode]
      · rw [← value, ← space]
        exact accepted.event_eq
    · omega

/-- What a proper event does to the approval under a key. -/
theorem approval_step
    (allowed : AllowsEvent (approvalRule serde sha256Hex calls start) start log event)
    (key : String) : (storeAfter start (log ++ [event])).get approvalNamespace key =
        (storeAfter start log).get approvalNamespace key ∨
      ((storeAfter start log).get approvalNamespace key = none ∧
        ∃ asked now ttl, calls event.index = .request asked now ttl ∧
          key = approvalId sha256Hex asked ∧ approvalAt serde start (log ++ [event]) key =
            some (.ofRequest sha256Hex asked now ttl)) ∨
      ∃ before after, ChangesApproval serde calls start key before after log event := by
  rcases get_cases allowed approvalNamespace key with
    same | ⟨expected, record, accepted, space, rfl, stored⟩
  · exact .inl same
  · rcases approval_accepted filed proper accepted with
      ⟨absent, asked, now, ttl, call, key, value⟩ | ⟨before, after, -, changed⟩
    · refine .inr (.inl ⟨absent, asked, now, ttl, call, key, storedApproval_of_get stored ?_⟩)
      rw [value, serde.approval.decode_encode]
    · exact .inr (.inr ⟨before, after, changed⟩)

theorem id_of_approvalAt (found : approvalAt serde start log key = some approval) :
    approval.id = key := by
  suffices all : ∀ approval, approvalAt serde start log key = some approval → approval.id = key from
    all approval found
  clear found
  refine proper.induct (motive := fun log => ∀ approval,
    approvalAt serde start log key = some approval → approval.id = key) ?_ ?_
  · intro approval found
    obtain ⟨record, stored, decoded⟩ := get_of_storedApproval found
    exact (filed key record stored).2 approval decoded
  · intro middle event before allowed ih approval found
    rcases approval_step filed before allowed key with
      same | ⟨-, asked, now, ttl, -, rfl, created⟩ | ⟨old, new, changed⟩
    · rw [approvalAt, storedApproval, same] at found
      exact ih approval found
    · rw [created] at found
      cases found
      rfl
    · rw [changed.stored] at found
      cases found
      rw [changed.changes.moves.2.id_eq]
      exact ih old changed.found

end

section

variable (filed : ApprovalsFiled serde start)
  (proper : ProperLog (approvalRule serde sha256Hex calls start) start later)
  (isPrefix : log <+: later)

include filed proper isPrefix

theorem approvalAt_later (found : approvalAt serde start log key = some before) :
    ∃ after, approvalAt serde start later key = some after ∧ before.Follows after := by
  apply proper.induct_from isPrefix ⟨before, found, .refl before⟩
  rintro middle event - properBefore allowed ⟨current, present, follows⟩
  rcases approval_step filed properBefore allowed key with
    same | ⟨absent, -⟩ | ⟨old, new, changed⟩
  · exact ⟨current, by rw [approvalAt, storedApproval, same]; exact present, follows⟩
  · simp [approvalAt, storedApproval, absent] at present
  · have same := changed.found
    rw [present, Option.some.injEq] at same
    subst same
    exact ⟨new, changed.stored, follows.trans changed.changes.moves.2⟩

theorem ChangesApproval.not_after_end (ended : approvalAt serde start log key = some approval)
    (terminal : approval.state.isTerminal = true) :
    ¬ ChangesApproval serde calls start key before after later event := by
  intro changed
  obtain ⟨current, present, follows⟩ := approvalAt_later filed proper isPrefix ended
  rw [changed.found, Option.some.injEq] at present
  subst present
  have same := follows.ended terminal
  subst same
  rw [changed.changes.moves.1.not_terminal] at terminal
  cases terminal

end

theorem ChangesApproval.end_unique {other : StoreEvent Index Value} {old new : ToolApproval}
    {first second : List (StoreEvent Index Value)} (filed : ApprovalsFiled serde start)
    (proper : ProperLog (approvalRule serde sha256Hex calls start) start log)
    (firstWithin : first ++ [event] <+: log) (secondWithin : second ++ [other] <+: log)
    (changed : ChangesApproval serde calls start key before after first event)
    (otherChanged : ChangesApproval serde calls start key old new second other)
    (terminal : after.state.isTerminal = true) (otherTerminal : new.state.isTerminal = true) :
    first = second ∧ event = other ∧ after = new := by
  rcases prefix_snoc_cases firstWithin secondWithin with sooner | later | ⟨rfl, rfl⟩
  · exact absurd otherChanged (ChangesApproval.not_after_end filed
      (proper.of_prefix ((List.prefix_append _ _).trans secondWithin)) sooner changed.stored
      terminal)
  · exact absurd changed (ChangesApproval.not_after_end filed
      (proper.of_prefix ((List.prefix_append _ _).trans firstWithin)) later otherChanged.stored
      otherTerminal)
  · have same := changed.stored
    rw [otherChanged.stored, Option.some.injEq] at same
    exact ⟨rfl, rfl, same.symm⟩

end Ledger

end UltimateCoders.Governance
