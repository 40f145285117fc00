import UltimateCoders.Governance.History
import UltimateCoders.Governance.Listing
import UltimateCoders.Governance.ProactiveGate
import UltimateCoders.Transition.Protocol

/-! # Which proposals are open

A denied proposal is recorded as well, unconditionally and under an id of the caller's choice. It
stays out of the open ones, and spares what was decided before, only if it does not claim to be open
and its id is not taken; and the number of open proposals is bounded only as far as the number that
was counted is still right when the proposal is stored.
-/

namespace UltimateCoders.Governance

open Transition RecordStore

variable {Index Value : Type} {serde : GateSerde Value} {state : ProactiveGateState}

inductive GateCall where
  | submit (proposal : ProactiveProposal) (openProposals : Nat) (now : Instant)
  | suggest (proposal : ProactiveProposal) (now : Instant)
  | decide (proposalId : String) (decision : ProposalDecision) (now : Instant)
  | markExecuted (proposalId caseId : String) (now : Instant)

inductive GateAnswer where
  | submitted (result : Except ProactiveGateError (Admission × ProactiveProposal))
  | changed (result : Except ProactiveGateError ProactiveProposal)

namespace GateCall

def proposal : GateCall → Option ProactiveProposal
  | submit proposal _ _ | suggest proposal _ => some proposal
  | decide _ _ _ | markExecuted _ _ _ => none

def target : GateCall → String
  | submit proposal _ _ | suggest proposal _ => proposal.id
  | decide proposalId _ _ | markExecuted proposalId _ _ => proposalId

def change : GateCall → ProactiveProposal → Except ProposalError ProactiveProposal
  | decide _ decision now, stored => stored.applyDecision decision now
  | markExecuted _ caseId now, stored => stored.markExecuted caseId now
  | submit _ _ _, stored | suggest _ _, stored => .error (.notActionable stored.status)

def program (serde : GateSerde Value) (state : ProactiveGateState) :
    GateCall → StoreProgram Value GateAnswer
  | submit proposal openProposals now => do
      return .submitted (← ProactiveGate.submit serde state proposal openProposals now)
  | suggest proposal now => do return .submitted (← ProactiveGate.suggest serde state proposal now)
  | decide proposalId decision now => do
      return .changed (← ProactiveGate.decide serde state proposalId decision now)
  | markExecuted proposalId caseId now => do
      return .changed (← ProactiveGate.markExecuted serde proposalId caseId now)

end GateCall

/-! ## How a call proceeds -/

inductive GateStage where
  | counting
  /-- It is about to write the audit entry of a proposal, with so many open ones. -/
  | noting (openProposals : Nat)
  | storing (openProposals : Nat)
  /-- It is about to read a proposal; so many tries are left after this one. -/
  | seeking (left : Nat)
  | writing (left : Nat) (proposal : ProactiveProposal) (version : Nat)
  /-- It is about to write the audit entry of a decision. -/
  | closing
  | ended
  deriving DecidableEq

structure GatePhase where
  call : GateCall
  stage : GateStage

namespace GatePhase

/-- After the change was written. -/
def afterWriting (phase : GatePhase) : GatePhase :=
  match phase.call with
  | .decide _ _ _ => { phase with stage := .closing }
  | _ => { phase with stage := .ended }

def retry (phase : GatePhase) : Nat → GatePhase
  | 0 => { phase with stage := .ended }
  | left + 1 => { phase with stage := .seeking left }

def afterReading (serde : GateSerde Value) (phase : GatePhase) (left : Nat)
    (record : Record Value) : GatePhase :=
  match serde.proposal.decode record.value with
  | .ok proposal =>
    match phase.call.change proposal with
    | .ok _ => { phase with stage := .writing left proposal record.version }
    | .error _ => { phase with stage := .ended }
  | .error _ => { phase with stage := .ended }

def afterCounting (serde : GateSerde Value) (phase : GatePhase) (records : List (Record Value)) :
    GatePhase :=
  match NamespacedStore.decodeAll serde.proposal records with
  | .ok listed => { phase with stage := .noting (ProactiveGate.countOpen listed) }
  | .error _ => { phase with stage := .ended }

/-- After the audit entry was written: what is denied while the gate is off is not recorded. -/
def afterNoting (state : ProactiveGateState) (phase : GatePhase) (proposal : ProactiveProposal)
    (openProposals : Nat) : GatePhase :=
  if (state.admitProposal proposal openProposals).isNone || state.mode.evaluates then
    { phase with stage := .storing openProposals }
  else { phase with stage := .ended }

end GatePhase

/-- The stage in which a call begins. -/
def GateCall.phase : GateCall → GatePhase
  | submit proposal openProposals now => ⟨.submit proposal openProposals now, .noting openProposals⟩
  | suggest proposal now => ⟨.suggest proposal now, .counting⟩
  | decide proposalId decision now => ⟨.decide proposalId decision now, .seeking 7⟩
  | markExecuted proposalId caseId now => ⟨.markExecuted proposalId caseId now, .seeking 7⟩

/-- The write of a submitted proposal: a denied one replaces whatever has its id. -/
def submission (serde : GateSerde Value) (state : ProactiveGateState) (proposal : ProactiveProposal)
    (openProposals : Nat) : StoreOperation Value :=
  match state.admitProposal proposal openProposals with
  | some _ => .put proactiveNamespace proposal.id (serde.proposal.encode (state.silence proposal))
      none
  | none => .put proactiveNamespace proposal.id (serde.proposal.encode proposal) (some 0)

def gating (serde : GateSerde Value) (state : ProactiveGateState) :
    Protocol (StoreOperation Value) StoreOperation.Answer GatePhase where
  permits phase operation :=
    match phase.stage with
    | .counting => operation = .list proactiveNamespace 1000
    | .noting _ | .closing =>
      ∃ key value, operation = .put proactiveAuditNamespace key value none
    | .storing openProposals => ∃ proposal, phase.call.proposal = some proposal ∧
        operation = submission serde state proposal openProposals
    | .seeking _ => operation = .get proactiveNamespace phase.call.target
    | .writing _ proposal version => ∃ changed, phase.call.change proposal = .ok changed ∧
        operation = .put proactiveNamespace phase.call.target (serde.proposal.encode changed)
          (some version)
    | .ended => False
  next phase operation answer :=
    match phase.stage, operation, answer with
    | .counting, .list _ _, .ok records => phase.afterCounting serde records
    | .noting openProposals, _, _ =>
      match phase.call.proposal with
      | some proposal => phase.afterNoting state proposal openProposals
      | none => { phase with stage := .ended }
    | .seeking left, .get _ _, .ok (some record) => phase.afterReading serde left record
    | .writing left _ _, .put _ _ _ _, .error (.conflict _ _) => phase.retry left
    | .writing _ _ _, .put _ _ _ _, .ok _ => phase.afterWriting
    | _, _, _ => { phase with stage := .ended }

/-! ## The protocol of every call -/

theorem silence_id (proposal : ProactiveProposal) : (state.silence proposal).id = proposal.id := by
  unfold ProactiveGateState.silence
  split <;> rfl

theorem follows_submit {proposal : ProactiveProposal} {call : GateCall}
    (submits : call.proposal = some proposal) (openProposals : Nat) (now : Instant) :
    (ProactiveGate.submit serde state proposal openProposals now).Follows (gating serde state)
      (fun _ _ => True) (fun _ later => later.stage = .ended) ⟨call, .noting openProposals⟩ := by
  refine ⟨⟨_, _, rfl⟩, fun answer _ => ?_⟩
  have next : (gating serde state).next ⟨call, .noting openProposals⟩
      (.put ProactiveGate.audit.space (ProactiveGate.auditKey now proposal.id)
        (serde.audit.encode (ProactiveGate.submitEntry state proposal
          (state.admitProposal proposal openProposals) now)) none) answer =
        GatePhase.afterNoting state ⟨call, .noting openProposals⟩ proposal openProposals := by
    simp only [gating, submits]
  rw [next]
  cases admitted : state.admitProposal proposal openProposals with
  | none =>
    simp only [GatePhase.afterNoting, admitted, Option.isNone_none, Bool.true_or, if_true]
    refine ⟨⟨proposal, submits, ?_⟩, fun answer _ => ?_⟩
    · simp only [submission, admitted]
      rfl
    · rcases answer with error | record <;> exact rfl
  | some reason =>
    simp only [GatePhase.afterNoting, admitted, Option.isNone_some, Bool.false_or]
    split
    · refine ⟨⟨proposal, submits, ?_⟩, fun answer _ => ?_⟩
      · simp only [submission, admitted, silence_id, ProactiveGate.proposals]
      · rcases answer with error | record <;> exact rfl
    · exact rfl

theorem follows_suggest (proposal : ProactiveProposal) (now : Instant) :
    (ProactiveGate.suggest serde state proposal now).Follows (gating serde state)
      (fun _ _ => True) (fun _ later => later.stage = .ended)
      ⟨.suggest proposal now, .counting⟩ := by
  refine ⟨rfl, fun answer _ => ?_⟩
  rcases answer with error | records
  · exact rfl
  · change Program.Follows _ _ _ _
      (GatePhase.afterCounting serde ⟨.suggest proposal now, .counting⟩ records)
    cases decoded : NamespacedStore.decodeAll serde.proposal records with
    | error error =>
      simp only [Program.bind, GatePhase.afterCounting, decoded]
      exact rfl
    | ok listed =>
      simp only [Program.bind, GatePhase.afterCounting, decoded]
      exact follows_submit rfl _ now

/-- How a call goes on after it has changed a proposal, or not. -/
def GatePhase.LeftBy (call : GateCall) : Modified ProactiveProposal ProposalError Unit → GatePhase →
    Prop
  | .written _ _, later => later = GatePhase.afterWriting ⟨call, .ended⟩
  | .absent, later | .refused _, later | .contended, later | .failed _, later =>
    later.stage = .ended

theorem follows_change (call : GateCall) (left : Nat) :
    (ProactiveGate.proposals.modify serde.proposal call.target (fun proposal _ =>
      (call.change proposal).map fun changed => (changed, ())) left).Follows (gating serde state)
        (fun _ _ => True)
        (GatePhase.LeftBy call)
        (GatePhase.retry ⟨call, .ended⟩ left) := by
  induction left with
  | zero => exact rfl
  | succ left ih =>
    rw [NamespacedStore.modify_succ]
    refine ⟨rfl, fun answer _ => ?_⟩
    rcases answer with error | _ | record
    · exact rfl
    · exact rfl
    · have next : (gating serde state).next (GatePhase.retry ⟨call, .ended⟩ (left + 1))
          (.get ProactiveGate.proposals.space call.target) (.ok (some record)) =
          GatePhase.afterReading serde ⟨call, .seeking left⟩ left record := rfl
      rw [next]
      cases decoded : serde.proposal.decode record.value with
      | error detail =>
        simp only [GatePhase.afterReading, decoded]
        exact rfl
      | ok proposal =>
        cases changes : call.change proposal with
        | error refusal =>
          simp only [GatePhase.afterReading, decoded, changes]
          exact rfl
        | ok changed =>
          simp only [GatePhase.afterReading, decoded, changes]
          refine ⟨⟨changed, changes, rfl⟩, fun answer _ => ?_⟩
          rcases answer with error | written
          · cases error with
            | conflict expected actual => exact ih
            | _ => exact rfl
          · exact rfl

theorem follows_gate (call : GateCall) :
    (call.program serde state).Follows (gating serde state) (fun _ _ => True)
      (fun _ later => later.stage = .ended) call.phase := by
  cases call with
  | submit proposal openProposals now =>
    refine (follows_submit rfl openProposals now).seq fun result later ended => ?_
    exact ended
  | suggest proposal now =>
    refine (follows_suggest proposal now).seq fun result later ended => ?_
    exact ended
  | decide proposalId decision now =>
    have decided : (ProactiveGate.decide serde state proposalId decision now).Follows
        (gating serde state) (fun _ _ => True) (fun _ later => later.stage = .ended)
        ⟨.decide proposalId decision now, .seeking 7⟩ := by
      refine (follows_change (.decide proposalId decision now) 8).seq fun result later ended => ?_
      cases result with
      | written proposal extra =>
        rw [show later = ⟨.decide proposalId decision now, .closing⟩ from ended]
        exact ⟨⟨_, _, rfl⟩, fun answer _ => rfl⟩
      | refused refusal => cases refusal; exact ended
      | absent | contended | failed => exact ended
    exact decided.seq fun result later ended => ended
  | markExecuted proposalId caseId now =>
    have executed : (ProactiveGate.markExecuted serde proposalId caseId now).Follows
        (gating serde state) (fun _ _ => True) (fun _ later => later.stage = .ended)
        ⟨.markExecuted proposalId caseId now, .seeking 7⟩ := by
      refine (follows_change (.markExecuted proposalId caseId now) 8).seq
        fun result later ended => ?_
      cases result with
      | written proposal extra =>
        rw [show later = ⟨.markExecuted proposalId caseId now, .ended⟩ from ended]
        exact rfl
      | refused refusal => cases refusal; exact ended
      | absent | contended | failed => exact ended
    exact executed.seq fun result later ended => ended

/-! ## Open proposals -/

variable {left version : Nat} {changed : ProactiveProposal}

section Store

def OpenProposal (serde : GateSerde Value) (store : RecordStore Value) (id : String) : Prop :=
  ∃ record proposal, store.get proactiveNamespace id = some record ∧
    serde.proposal.decode record.value = .ok proposal ∧ proposal.status.isOpen = true

/-- No more than so many proposals are open. -/
def AtMostOpen (serde : GateSerde Value) (store : RecordStore Value) (number : Nat) : Prop :=
  ∀ ids : List String, ids.Nodup → (∀ id ∈ ids, OpenProposal serde store id) → ids.length ≤ number

def ProposalStatus.isDecided : ProposalStatus → Bool
  | approved | rejected | executed => true
  | observed | proposed | expired | failed => false

variable {store after : RecordStore Value} {record : Record Value} {proposal : ProactiveProposal}
  {number : Nat} {id : String} {phase : GatePhase}

theorem OpenProposal.of_insert (space : record.space = proactiveNamespace)
    (isOpen : OpenProposal serde (store.insert record) id) :
    (id = record.key ∧ ∃ proposal, serde.proposal.decode record.value = .ok proposal ∧
      proposal.status.isOpen = true) ∨ (id ≠ record.key ∧ OpenProposal serde store id) := by
  obtain ⟨found, proposal, stored, decoded, status⟩ := isOpen
  by_cases same : id = record.key
  · have here : (store.insert record).get proactiveNamespace id = some record := by
      rw [same, ← space]
      exact get_insert_self
    rw [here, Option.some.injEq] at stored
    exact .inl ⟨same, proposal, stored ▸ decoded, status⟩
  · rw [get_insert_of_ne fun here => same here.2.symm] at stored
    exact .inr ⟨same, found, proposal, stored, decoded, status⟩

theorem AtMostOpen.of_subset (few : AtMostOpen serde store number)
    (subset : ∀ id, OpenProposal serde after id → OpenProposal serde store id) :
    AtMostOpen serde after number :=
  fun ids distinct isOpen => few ids distinct fun id member => subset id (isOpen id member)

theorem AtMostOpen.insert (few : AtMostOpen serde store number)
    (space : record.space = proactiveNamespace) :
    AtMostOpen serde (store.insert record) (number + 1) := by
  intro ids distinct isOpen
  have before : (ids.erase record.key).length ≤ number := by
    refine few _ (distinct.erase _) fun id member => ?_
    obtain ⟨other, inside⟩ := (List.Nodup.mem_erase_iff distinct).mp member
    rcases (isOpen id inside).of_insert space with ⟨same, -⟩ | ⟨-, earlier⟩
    · exact absurd same other
    · exact earlier
  have shorter := List.le_length_erase (a := record.key) (l := ids)
  omega

theorem silence_closed (claims : proposal.status.isOpen = false ∨
      proposal.status = .proposed ∧ state.mode = .observe) :
    (state.silence proposal).status.isOpen = false := by
  unfold ProactiveGateState.silence
  rcases claims with closed | ⟨proposed, observes⟩
  · split
    · rfl
    · exact closed
  · rw [if_pos]
    · rfl
    · simp [proposed, observes, ProactiveMode.allowsProposal, ProactiveMode.evaluates]

theorem GateCall.open_of_change {call : GateCall} (changes : call.change proposal = .ok changed) :
    proposal.status.isOpen = true := by
  cases call with
  | submit | suggest => cases changes
  | decide proposalId decision now =>
    change proposal.applyDecision decision now = .ok changed at changes
    unfold ProactiveProposal.applyDecision at changes
    split at changes
    · cases changes
    · rename_i proposed
      rw [not_not.mp proposed]
      rfl
  | markExecuted proposalId caseId now =>
    change proposal.markExecuted caseId now = .ok changed at changes
    unfold ProactiveProposal.markExecuted at changes
    split at changes
    · cases changes
    · rename_i approved
      rw [not_not.mp approved]
      rfl

/-- A call that is about to change a proposal has read it under a version, and the proposal is
as it was read for as long as it has that version. -/
def GatePhase.Knows (serde : GateSerde Value) (store : RecordStore Value) (phase : GatePhase) :
    Prop :=
  ∀ left proposal version, phase.stage = .writing left proposal version →
    ∃ record, store.get proactiveNamespace phase.call.target = some record ∧
      version ≤ record.version ∧
      (record.version = version → serde.proposal.decode record.value = .ok proposal)

/-- Proposals stay as they are, or get a newer version. -/
def MovesOn (store after : RecordStore Value) : Prop :=
  ∀ id record, store.get proactiveNamespace id = some record →
    ∃ newer, after.get proactiveNamespace id = some newer ∧
      (newer = record ∨ record.version < newer.version)

theorem MovesOn.of_same (same : ∀ id, after.get proactiveNamespace id =
    store.get proactiveNamespace id) : MovesOn store after :=
  fun id record found => ⟨record, (same id).trans found, .inl rfl⟩

theorem GatePhase.Knows.moveOn (knows : phase.Knows serde store) (moves : MovesOn store after) :
    phase.Knows serde after := by
  intro left proposal version stage
  obtain ⟨record, found, upTo, same⟩ := knows left proposal version stage
  obtain ⟨newer, there, rfl | later⟩ := moves _ record found
  · exact ⟨newer, there, upTo, same⟩
  · exact ⟨newer, there, by omega, fun impossible => by omega⟩

theorem GatePhase.Knows.of_stage (other : ∀ left proposal version,
    phase.stage ≠ .writing left proposal version) : phase.Knows serde store :=
  fun left proposal version stage => absurd stage (other left proposal version)

theorem GatePhase.Knows.afterReading
    (found : store.get proactiveNamespace phase.call.target = some record) :
    (phase.afterReading serde left record).Knows serde store := by
  unfold GatePhase.afterReading
  split
  · rename_i proposal decoded
    split
    · intro _ document version stage
      simp only [GateStage.writing.injEq] at stage
      obtain ⟨-, rfl, rfl⟩ := stage
      exact ⟨record, found, le_rfl, fun _ => decoded⟩
    · exact .of_stage fun _ _ _ => by simp
  · exact .of_stage fun _ _ _ => by simp

theorem GatePhase.idle_afterCounting {records : List (Record Value)} :
    (phase.afterCounting serde records).stage ≠ .writing left proposal version := by
  unfold GatePhase.afterCounting
  split <;> simp

theorem GatePhase.idle_afterNoting {noted : ProactiveProposal} {openProposals : Nat} :
    (phase.afterNoting state noted openProposals).stage ≠ .writing left proposal version := by
  unfold GatePhase.afterNoting
  split <;> simp

theorem GatePhase.idle_afterWriting :
    phase.afterWriting.stage ≠ .writing left proposal version := by
  unfold GatePhase.afterWriting
  split <;> simp

theorem GatePhase.idle_retry {tries : Nat} :
    (phase.retry tries).stage ≠ .writing left proposal version := by
  cases tries <;> simp [GatePhase.retry]

theorem auditNamespace_ne : proactiveAuditNamespace ≠ proactiveNamespace := by decide

theorem get_execute_audit {circumstance : Circumstance} {key : String} {value : Value} :
    (execute circumstance (.put proactiveAuditNamespace key value none)
      store).2.get proactiveNamespace id = store.get proactiveNamespace id := by
  obtain ⟨now, failure⟩ := circumstance
  cases failure with
  | some detail => rfl
  | none =>
    rcases store.put_cases proactiveAuditNamespace key value none now with
      ⟨error, -, refused⟩ | ⟨record, -, stored, made⟩
    · simp only [execute, refused]
    · simp only [execute, stored]
      refine get_insert_of_ne fun here => ?_
      rw [made] at here
      exact auditNamespace_ne here.1

def Versioned (store : RecordStore Value) : Prop :=
  ∀ id record, store.get proactiveNamespace id = some record → record.version ≠ 0

theorem Versioned.insert {key : String} {value : Value} {now : Instant}
    (versioned : Versioned store)
    (made : record = ⟨proactiveNamespace, key, ((store.get proactiveNamespace key).map fun stored =>
      stored.version + 1).getD 1, value, now⟩) : Versioned (store.insert record) := by
  intro id stored found
  by_cases same : id = record.key
  · have space : record.space = proactiveNamespace := by rw [made]
    rw [same, ← space, get_insert_self, Option.some.injEq] at found
    rw [← found, made]
    cases store.get proactiveNamespace key <;> simp
  · rw [get_insert_of_ne fun here => same here.2.symm] at found
    exact versioned id stored found

theorem Versioned.absent (versioned : Versioned store)
    (agrees : casConflict (some 0) (store.get proactiveNamespace id) = none) :
    store.get proactiveNamespace id = none := by
  cases found : store.get proactiveNamespace id with
  | none => rfl
  | some stored =>
    have newer := versioned id stored found
    simp [found, casConflict, newer] at agrees

theorem MovesOn.of_insert {key : String} {value : Value} {now : Instant}
    (made : record = ⟨proactiveNamespace, key, ((store.get proactiveNamespace key).map fun stored =>
      stored.version + 1).getD 1, value, now⟩) : MovesOn store (store.insert record) := by
  intro id stored found
  by_cases same : id = key
  · subst same
    refine ⟨record, ?_, .inr ?_⟩
    · have here := @get_insert_self _ store record
      rwa [made] at here ⊢
    · simp [made, found]
  · refine ⟨stored, ?_, .inl rfl⟩
    rw [get_insert_of_ne fun here => same (here.2.symm.trans (by rw [made])), found]

theorem AtMostOpen.mono {most : Nat} (few : AtMostOpen serde store number) (upTo : number ≤ most) :
    AtMostOpen serde store most :=
  fun ids distinct isOpen => (few ids distinct isOpen).trans upTo

theorem lt_of_admitted {openProposals : Nat}
    (admitted : state.admitProposal proposal openProposals = none) :
    openProposals < state.maxOpenProposals := by
  unfold ProactiveGateState.admitProposal at admitted
  split at admitted
  · cases admitted
  · split at admitted
    · cases admitted
    · split at admitted
      · cases admitted
      · omega

theorem GateCall.proposal_of_change {call : GateCall}
    (changes : call.change proposal = .ok changed) : call.proposal = none := by
  cases call with
  | submit | suggest => cases changes
  | decide | markExecuted => rfl

/-- What a submission does to the proposals of the store. -/
structure SubmitSound (serde : GateSerde Value) (state : ProactiveGateState) (phase : GatePhase)
    (store after : RecordStore Value) : Prop where
  /-- What is denied is not recorded as open. -/
  denied : ∀ proposal openProposals, phase.call.proposal = some proposal →
    phase.stage = .storing openProposals →
    (state.admitProposal proposal openProposals).isSome = true →
    ∀ record, after.get proactiveNamespace proposal.id = some record →
      store.get proactiveNamespace proposal.id = some record ∨
        ∀ stored, serde.proposal.decode record.value = .ok stored → stored.status.isOpen = false
  /-- What was approved, rejected or executed is left. -/
  spared : phase.call.proposal.isSome = true →
    ∀ id record stored, store.get proactiveNamespace id = some record →
      serde.proposal.decode record.value = .ok stored → stored.status.isDecided = true →
      after.get proactiveNamespace id = some record

theorem SubmitSound.of_same (same : ∀ id, after.get proactiveNamespace id =
    store.get proactiveNamespace id) : SubmitSound serde state phase store after :=
  ⟨fun _ _ _ _ _ _ found => .inl ((same _).symm.trans found),
    fun _ id _ _ found _ _ => (same id).trans found⟩

/-- A submission makes its write with care. What is denied does not claim to be open, unless the
gate observes and turns it into an observation, and does not have the id of a decided proposal; and
what is admitted as an open proposal was counted right. -/
structure StepsCarefully (serde : GateSerde Value) (state : ProactiveGateState)
    (store : RecordStore Value) (phase : GatePhase) (circumstance : Circumstance) : Prop where
  denied : ∀ proposal openProposals, phase.call.proposal = some proposal →
    phase.stage = .storing openProposals → circumstance.failure = none →
    (state.admitProposal proposal openProposals).isSome = true →
    (proposal.status.isOpen = false ∨ proposal.status = .proposed ∧ state.mode = .observe) ∧
      ∀ record stored, store.get proactiveNamespace proposal.id = some record →
        serde.proposal.decode record.value = .ok stored → stored.status.isDecided = false
  counted : ∀ proposal openProposals, phase.call.proposal = some proposal →
    phase.stage = .storing openProposals → circumstance.failure = none →
    state.admitProposal proposal openProposals = none → proposal.status.isOpen = true →
    store.get proactiveNamespace proposal.id = none → AtMostOpen serde store openProposals

end Store

/-! ## Every run -/

/-- Whatever a submission does in the log, it does soundly. -/
def SubmitsSound [DecidableEq Index] (serde : GateSerde Value) (state : ProactiveGateState)
    (calls : Index → GateCall) (start : RecordStore Value) (log : List (StoreEvent Index Value)) :
    Prop :=
  ∀ earlier event later, log = earlier ++ event :: later →
    SubmitSound serde state
      ((gating serde state).phase (fun index => (calls index).phase) earlier event.index)
      (storeAfter start earlier) (storeAfter start (earlier ++ [event]))

structure GateHolds [DecidableEq Index] (serde : GateSerde Value) (state : ProactiveGateState)
    (calls : Index → GateCall) (start : RecordStore Value) (phases : Index → GatePhase)
    (store : RecordStore Value) (log : List (StoreEvent Index Value)) : Prop where
  versioned : Versioned store
  few : AtMostOpen serde store state.maxOpenProposals
  knows : ∀ index, (phases index).Knows serde store
  followed : phases = (gating serde state).phase (fun index => (calls index).phase) log
  replayed : store = storeAfter start log
  sound : SubmitsSound serde state calls start log

section Step

variable [DecidableEq Index] {calls : Index → GateCall} {start store after : RecordStore Value}
  {phases : Index → GatePhase} {log : List (StoreEvent Index Value)} {index : Index}
  {event : StoreEvent Index Value} {operation : StoreOperation Value} {phase : GatePhase}
  {circumstance : Circumstance} {proposal : ProactiveProposal} {record : Record Value}

theorem SubmitsSound.snoc (sound : SubmitsSound serde state calls start log)
    (last : SubmitSound serde state
      ((gating serde state).phase (fun index => (calls index).phase) log event.index)
      (storeAfter start log) (storeAfter start (log ++ [event]))) :
    SubmitsSound serde state calls start (log ++ [event]) := by
  intro earlier served later split
  rcases append_singleton_eq split with ⟨rfl, rfl, -⟩ | ⟨before, -, within⟩
  · exact last
  · exact sound earlier served before within

/-- It holds after the operation as well. -/
def GateHolds.Serves (_ : GateHolds serde state calls start phases store log) (index : Index)
    (circumstance : Circumstance) (operation : StoreOperation Value) : Prop :=
  GateHolds serde state calls start
    (Function.update phases index ((gating serde state).next (phases index) operation
      (execute circumstance operation store).1))
    (execute circumstance operation store).2
    (log ++ [⟨index, operation, (execute circumstance operation store).1⟩])

variable (holds : GateHolds serde state calls start phases store log)

theorem GateHolds.advance (served : (execute circumstance operation store).2 = after)
    (moves : MovesOn store after) (versioned : Versioned after)
    (few : AtMostOpen serde after state.maxOpenProposals)
    (knows : ((gating serde state).next (phases index) operation
      (execute circumstance operation store).1).Knows serde after)
    (sound : SubmitSound serde state (phases index) store after) :
    holds.Serves index circumstance operation := by
  have replayed : after = storeAfter start
      (log ++ [⟨index, operation, (execute circumstance operation store).1⟩]) := by
    rw [storeAfter_snoc, ← holds.replayed, effect_execute, served]
  rw [Serves, served]
  refine ⟨versioned, few, (Function.forall_update_iff phases fun _ phase => phase.Knows serde after).mpr
    ⟨knows, fun other _ => (holds.knows other).moveOn moves⟩, ?_, replayed, holds.sound.snoc ?_⟩
  · rw [Protocol.phase_snoc, ← holds.followed]
  · rw [← holds.followed, ← holds.replayed, ← replayed]
    exact sound

theorem GateHolds.keep
    (same : ∀ id, (execute circumstance operation store).2.get proactiveNamespace id =
      store.get proactiveNamespace id)
    (knows : ((gating serde state).next (phases index) operation
      (execute circumstance operation store).1).Knows serde store) :
    holds.Serves index circumstance operation := by
  refine holds.advance rfl (.of_same same) (fun id record found => ?_) (holds.few.of_subset ?_)
    (knows.moveOn (.of_same same)) (.of_same same)
  · exact holds.versioned id record ((same id).symm.trans found)
  · rintro id ⟨record, proposal, found, stored⟩
    exact ⟨record, proposal, (same id).symm.trans found, stored⟩

theorem GateHolds.put {key : String} {expected : Option Nat}
    (isPut : operation = .put proactiveNamespace key (serde.proposal.encode proposal) expected)
    (idle : ∀ answer left proposal version,
      ((gating serde state).next (phases index) operation answer).stage ≠
        .writing left proposal version)
    (accepted : circumstance.failure = none →
      casConflict expected (store.get proactiveNamespace key) = none →
      ∀ record : Record Value, record.space = proactiveNamespace → record.key = key →
        serde.proposal.decode record.value = .ok proposal →
        AtMostOpen serde (store.insert record) state.maxOpenProposals ∧
          SubmitSound serde state (phases index) store (store.insert record)) :
    holds.Serves index circumstance operation := by
  subst isPut
  obtain ⟨now, failure⟩ := circumstance
  cases failure with
  | some detail => exact holds.keep (fun _ => rfl) (.of_stage (idle _))
  | none =>
    rcases store.put_cases proactiveNamespace key (serde.proposal.encode proposal) expected now
      with ⟨error, -, refused⟩ | ⟨record, agrees, stored, made⟩
    · have same : (execute ⟨now, none⟩ (.put proactiveNamespace key
          (serde.proposal.encode proposal) expected) store).2 = store := by
        simp only [execute, refused]
      exact holds.keep (fun _ => by rw [same]) (.of_stage (idle _))
    · have inserted : (execute ⟨now, none⟩ (.put proactiveNamespace key
          (serde.proposal.encode proposal) expected) store).2 = store.insert record := by
        simp only [execute, stored]
      obtain ⟨few, sound⟩ := accepted rfl agrees record (by rw [made]) (by rw [made]) (by
        rw [made]
        exact serde.proposal.decode_encode proposal)
      exact holds.advance inserted (.of_insert made) (holds.versioned.insert made) few
        (.of_stage (idle _)) sound

/-- A submission records its proposal. -/
theorem GateHolds.submit {openProposals : Nat}
    (careful : StepsCarefully serde state store (phases index) circumstance)
    (stage : (phases index).stage = .storing openProposals)
    (submits : (phases index).call.proposal = some proposal)
    (isWrite : operation = submission serde state proposal openProposals) :
    holds.Serves index circumstance operation := by
  have idle : ∀ answer left proposal version,
      ((gating serde state).next (phases index) operation answer).stage ≠
        .writing left proposal version := by
    intro answer left proposal version
    simp [gating, stage]
  cases admitted : state.admitProposal proposal openProposals with
  | some reason =>
    have denied : (state.admitProposal proposal openProposals).isSome = true := by
      rw [admitted]
      rfl
    simp only [submission, admitted] at isWrite
    refine holds.put isWrite idle fun works _ record space key decoded => ?_
    obtain ⟨claims, spared⟩ := careful.denied proposal openProposals submits stage works denied
    have closed : (state.silence proposal).status.isOpen = false := silence_closed claims
    refine ⟨holds.few.of_subset fun id isOpen => ?_, ?_, ?_⟩
    · rcases isOpen.of_insert space with ⟨-, other, again, claimsOpen⟩ | ⟨-, before⟩
      · rw [decoded, Except.ok.injEq] at again
        rw [← again, closed] at claimsOpen
        cases claimsOpen
      · exact before
    · intro other count sameProposal _ _ stored found
      rw [submits, Option.some.injEq] at sameProposal
      subst sameProposal
      rw [← key, ← space, get_insert_self, Option.some.injEq] at found
      subst found
      refine .inr fun document again => ?_
      rw [decoded, Except.ok.injEq] at again
      rw [← again]
      exact closed
    · intro _ id stored document found again decided
      by_cases same : id = proposal.id
      · subst same
        rw [spared stored document found again] at decided
        cases decided
      · rw [get_insert_of_ne fun here => same (here.2.symm.trans key), found]
  | none =>
    simp only [submission, admitted] at isWrite
    refine holds.put isWrite idle fun works agrees record space key decoded => ?_
    have absent : store.get proactiveNamespace proposal.id = none :=
      holds.versioned.absent agrees
    have room : openProposals < state.maxOpenProposals := lt_of_admitted admitted
    refine ⟨?_, ?_, ?_⟩
    · cases claims : proposal.status.isOpen with
      | true =>
        have counted := careful.counted proposal openProposals submits stage works admitted
          claims absent
        exact (counted.insert space).mono room
      | false =>
        refine holds.few.of_subset fun id isOpen => ?_
        rcases isOpen.of_insert space with ⟨-, other, again, claimsOpen⟩ | ⟨-, before⟩
        · rw [decoded, Except.ok.injEq] at again
          rw [← again, claims] at claimsOpen
          cases claimsOpen
        · exact before
    · intro other count sameProposal sameStage denied
      rw [submits, Option.some.injEq] at sameProposal
      rw [stage, GateStage.storing.injEq] at sameStage
      subst sameProposal sameStage
      rw [admitted] at denied
      cases denied
    · intro _ id stored document found _ _
      by_cases same : id = proposal.id
      · rw [same, absent] at found
        cases found
      · rw [get_insert_of_ne fun here => same (here.2.symm.trans key), found]

theorem GateHolds.change (stage : (phases index).stage = .writing left proposal version)
    (changes : (phases index).call.change proposal = .ok changed)
    (isWrite : operation =
        .put proactiveNamespace (phases index).call.target (serde.proposal.encode changed)
          (some version)) :
    holds.Serves index circumstance operation := by
  have unsubmitted : (phases index).call.proposal = none := GateCall.proposal_of_change changes
  refine holds.put isWrite ?_ fun _ agrees record space key decoded => ?_
  · intro answer tries other later
    subst isWrite
    rcases answer with error | written
    · cases error with
      | conflict =>
        simp only [gating, stage]
        exact GatePhase.idle_retry
      | backend | decode | encode => simp [gating, stage]
    · simp only [gating, stage]
      exact GatePhase.idle_afterWriting
  · obtain ⟨stored, found, -, same⟩ := holds.knows index left proposal version stage
    have current : stored.version = version := by
      rw [found] at agrees
      simpa [casConflict] using agrees
    have before : OpenProposal serde store record.key := by
      rw [key]
      exact ⟨stored, proposal, found, same current, GateCall.open_of_change changes⟩
    refine ⟨holds.few.of_subset fun id isOpen => ?_, ?_, ?_⟩
    · rcases isOpen.of_insert space with ⟨rfl, -⟩ | ⟨-, earlier⟩
      · exact before
      · exact earlier
    · intro other _ submits
      rw [unsubmitted] at submits
      cases submits
    · intro submits
      rw [unsubmitted] at submits
      cases submits

/-- What one operation of a call preserves. -/
theorem GateHolds.step
    (careful : StepsCarefully serde state store (phases index) circumstance)
    (permitted : (gating serde state).permits (phases index) operation) :
    holds.Serves index circumstance operation := by
  cases stage : (phases index).stage with
  | ended => simp only [gating, stage] at permitted
  | storing openProposals =>
    simp only [gating, stage] at permitted
    obtain ⟨proposal, submits, isWrite⟩ := permitted
    exact holds.submit careful stage submits isWrite
  | writing left proposal version =>
    simp only [gating, stage] at permitted
    obtain ⟨changed, changes, isWrite⟩ := permitted
    exact holds.change stage changes isWrite
  | counting =>
    simp only [gating, stage] at permitted
    subst permitted
    obtain ⟨now, failure⟩ := circumstance
    refine holds.keep (fun id => by cases failure <;> rfl) (.of_stage ?_)
    cases failure with
    | some detail =>
      intro left proposal version
      simp [execute, StoreOperation.refuse, gating, stage]
    | none =>
      simp only [execute, gating, stage]
      exact fun _ _ _ => GatePhase.idle_afterCounting
  | noting openProposals =>
    simp only [gating, stage] at permitted
    obtain ⟨key, value, rfl⟩ := permitted
    refine holds.keep (fun id => get_execute_audit) (.of_stage fun left proposal version => ?_)
    simp only [gating, stage]
    split
    · exact GatePhase.idle_afterNoting
    · simp
  | closing =>
    simp only [gating, stage] at permitted
    obtain ⟨key, value, rfl⟩ := permitted
    refine holds.keep (fun id => get_execute_audit) (.of_stage fun left proposal version => ?_)
    simp [gating, stage]
  | seeking left =>
    simp only [gating, stage] at permitted
    subst permitted
    obtain ⟨now, failure⟩ := circumstance
    refine holds.keep (fun id => by cases failure <;> rfl) ?_
    cases failure with
    | some detail =>
      refine .of_stage fun left proposal version => ?_
      simp [execute, StoreOperation.refuse, gating, stage]
    | none =>
      cases stored : store.get proactiveNamespace (phases index).call.target with
      | none =>
        refine .of_stage fun left proposal version => ?_
        simp [execute, stored, gating, stage]
      | some record =>
        simp only [execute, stored, gating, stage]
        exact .afterReading stored

end Step

section Run

abbrev GateSession (Index Value : Type) :=
  Session Index (RecordStore Value) (StoreOperation Value) StoreOperation.Answer GateAnswer

variable [DecidableEq Index] (serde : GateSerde Value) (state : ProactiveGateState)
  (calls : Index → GateCall) (start : RecordStore Value)

def gateSession : GateSession Index Value where
  store := start
  calls index := (calls index).program serde state
  log := []

/-- The next step is made with care. -/
def KeepsCareful (before : GateSession Index Value) (move : Index × Circumstance) : Prop :=
  StepsCarefully serde state before.store
    ((gating serde state).phase (fun index => (calls index).phase) before.log move.1) move.2

/-- Only what was admitted is open, and it is not too much. -/
structure OpenAsAdmitted (session : GateSession Index Value) : Prop where
  few : AtMostOpen serde session.store state.maxOpenProposals
  sound : SubmitsSound serde state calls start session.log

variable {serde state calls start}

theorem GateHolds.initially (versioned : Versioned start)
    (few : AtMostOpen serde start state.maxOpenProposals) :
    GateHolds serde state calls start (fun index => (calls index).phase) start [] := by
  refine ⟨versioned, few, fun index => .of_stage fun left proposal version => ?_, rfl, rfl,
    fun earlier event later impossible => ?_⟩
  · cases calls index <;> simp [GateCall.phase]
  · cases earlier <;> cases impossible

/-- In every run whose steps are made with care, what is denied is never recorded as open, no
submission changes a decided proposal, and no more proposals are open than may be. -/
theorem openAsAdmitted_of_run {moves : List (Index × Circumstance)}
    {session : GateSession Index Value} (versioned : Versioned start)
    (few : AtMostOpen serde start state.maxOpenProposals)
    (run : Run (servesWhere execute (KeepsCareful serde state calls))
      (gateSession serde state calls start) moves session) :
    OpenAsAdmitted serde state calls start session := by
  let initial : Index → GatePhase := fun index => (calls index).phase
  have underway : (gateSession serde state calls start).Underway (gating serde state)
      (fun _ _ => True) (fun _ later => later.stage = .ended) initial :=
    fun index => follows_gate (calls index)
  let holding (store : RecordStore Value) (phases : Index → GatePhase)
      (log : List (StoreEvent Index Value)) : Prop :=
    GateHolds serde state calls start phases store log
  have initially : holding start initial [] := .initially versioned few
  have holds : holding session.store ((gating serde state).phase initial session.log)
      session.log := by
    refine Session.Underway.invariant (fun _ _ _ => trivial) ?_ run underway initially
    intro before index circumstance operation resume _ _ careful permitted holds _ _
    exact GateHolds.step holds careful permitted
  exact ⟨holds.few, holds.sound⟩

end Run

/-! ## Counting the open proposals -/

section Count

def openKeys (serde : GateSerde Value) (store : RecordStore Value) : List String :=
  ((store.rows.filter fun record => record.space = proactiveNamespace).filter fun record =>
    match serde.proposal.decode record.value with
    | .ok proposal => proposal.status.isOpen
    | .error _ => false).map Record.key

variable {store : RecordStore Value} {number : Nat} {id : String} {phase : GatePhase}
  {circumstance : Circumstance}

theorem mem_openKeys : id ∈ openKeys serde store ↔ OpenProposal serde store id := by
  unfold openKeys OpenProposal
  rw [List.mem_map]
  apply Iff.intro
  · rintro ⟨record, listed, rfl⟩
    obtain ⟨inside, isOpen⟩ := List.mem_filter.mp listed
    obtain ⟨member, here⟩ := List.mem_filter.mp inside
    rw [decide_eq_true_eq] at here
    cases decoded : serde.proposal.decode record.value with
    | error detail => simp [decoded] at isOpen
    | ok proposal =>
      simp only [decoded] at isOpen
      exact ⟨record, proposal, here ▸ get_of_mem member, decoded, isOpen⟩
  · rintro ⟨record, proposal, found, decoded, isOpen⟩
    refine ⟨record, List.mem_filter.mpr ⟨List.mem_filter.mpr
      ⟨mem_of_get found, ?_⟩, ?_⟩, (key_of_get found).2⟩
    · simp [(key_of_get found).1]
    · simp [decoded, isOpen]

theorem nodup_openKeys : (openKeys serde store).Nodup :=
  ((List.filter_sublist).map Record.key).nodup (store.nodup_keys _)

/-- The number of open proposals is what it is counted to be. -/
theorem atMostOpen_iff : AtMostOpen serde store number ↔ (openKeys serde store).length ≤ number := by
  apply Iff.intro
  · intro few
    exact few _ nodup_openKeys fun id member => mem_openKeys.mp member
  · intro counted ids distinct isOpen
    have inside : ids ⊆ openKeys serde store := fun id member => mem_openKeys.mpr (isOpen id member)
    exact (List.subperm_of_subset distinct inside).length_le.trans counted

instance : Decidable (AtMostOpen serde store number) :=
  decidable_of_iff _ atMostOpen_iff.symm

/-- The next step is seen to be made with care. -/
def stepsCarefully (serde : GateSerde Value) (state : ProactiveGateState)
    (store : RecordStore Value) (phase : GatePhase) (circumstance : Circumstance) : Bool :=
  match phase.stage, phase.call.proposal with
  | .storing openProposals, some proposal =>
    circumstance.failure.isSome ||
      match state.admitProposal proposal openProposals with
      | some _ =>
        (!proposal.status.isOpen || proposal.status = .proposed && state.mode = .observe) &&
          (store.get proactiveNamespace proposal.id).all fun record =>
            match serde.proposal.decode record.value with
            | .ok stored => !stored.status.isDecided
            | .error _ => true
      | none => !proposal.status.isOpen || (openKeys serde store).length ≤ openProposals
  | _, _ => true

theorem stepsCarefully_sound (careful : stepsCarefully serde state store phase circumstance) :
    StepsCarefully serde state store phase circumstance := by
  refine ⟨fun proposal openProposals submits stage works denied => ?_,
    fun proposal openProposals submits stage works admitted isOpen _ => ?_⟩
  · obtain ⟨reason, reasonEq⟩ := Option.isSome_iff_exists.mp denied
    simp only [stepsCarefully, stage, submits, works, reasonEq, Option.isSome_none, Bool.false_or,
      Bool.and_eq_true, Bool.or_eq_true, Bool.not_eq_true', decide_eq_true_eq] at careful
    refine ⟨careful.1, fun record stored found decoded => ?_⟩
    have spared := careful.2
    simp only [found, Option.all_some, decoded, Bool.not_eq_true'] at spared
    exact spared
  · simp only [stepsCarefully, stage, submits, works, admitted, isOpen, Option.isSome_none,
      Bool.false_or, Bool.not_true, decide_eq_true_eq] at careful
    exact atMostOpen_iff.mpr careful

end Count

/-! ## Suggestions without evidence -/

inductive GateDocument where
  | proposal (proposal : ProactiveProposal)
  | entry (entry : ProactiveAuditEntry)

def plainGate : GateSerde GateDocument where
  proposal :=
    { encode := .proposal
      decode := fun document => match document with
        | .proposal proposal => .ok proposal
        | .entry _ => .error "not a proposal"
      decode_encode := fun _ => rfl }
  audit :=
    { encode := .entry
      decode := fun document => match document with
        | .proposal _ => .error "not an audit entry"
        | .entry entry => .ok entry
      decode_encode := fun _ => rfl }

def repair (id : String) (evidence : List String) : ProactiveProposal where
  id := id
  kind := .fixFailingCi
  title := "fix the build"
  rationale := "the last three runs failed"
  evidence := evidence
  modeAtCreation := .propose
  status := .proposed
  createdAt := 10

def oneProposal : ProactiveGateState := { mode := .propose, maxOpenProposals := 1 }

/-- A suggestion is approved and executed, while another one is denied for want of room. -/
def approvedCalls : Fin 4 → GateCall
  | 0 => .suggest (repair "proposal-1" ["run 17"]) 10
  | 1 => .suggest { repair "proposal-2" ["run 18"] with status := .observed } 20
  | 2 => .decide "proposal-1" (.approve "alice") 30
  | 3 => .markExecuted "proposal-1" "case-1" 40

def gateMoves {count : Nat} (indices : List (Fin count)) : List (Fin count × Circumstance) :=
  indices.map fun index => (index, ⟨0, none⟩)

def gateRun {count : Nat} (calls : Fin count → GateCall) (start : RecordStore GateDocument)
    (indices : List (Fin count)) : GateSession (Fin count) GateDocument :=
  (gateMoves indices).foldl (Session.serve execute) (gateSession plainGate oneProposal calls start)

theorem openAsAdmitted_approved :
    (gateRun approvedCalls .empty [0, 0, 0, 1, 1, 1, 2, 2, 2, 3, 3]).Finished ∧
      OpenAsAdmitted plainGate oneProposal approvedCalls .empty
        (gateRun approvedCalls .empty [0, 0, 0, 1, 1, 1, 2, 2, 2, 3, 3]) := by
  let check (before : GateSession (Fin 4) GateDocument) (move : Fin 4 × Circumstance) : Bool :=
    stepsCarefully plainGate oneProposal before.store
      ((gating plainGate oneProposal).phase (fun index => (approvedCalls index).phase) before.log
        move.1) move.2
  have sound : ∀ before move, check before move →
      KeepsCareful plainGate oneProposal approvedCalls before move :=
    fun before move careful => stepsCarefully_sound careful
  refine ⟨fun index => ?_, openAsAdmitted_of_run (fun id record found => ?_) (by decide)
    (run_servesWhere sound (by decide +kernel))⟩
  · match index with
    | 0 | 1 | 2 | 3 => exact .inr ⟨_, rfl⟩
  · cases found

def executedRepair : ProactiveProposal :=
  { repair "proposal-1" ["run 17"] with status := .executed, executedCaseId := some "case-1" }

def executedStore : RecordStore GateDocument :=
  insert .empty ⟨proactiveNamespace, "proposal-1", 1, .proposal executedRepair, 0⟩

/-- A suggestion without evidence has its id, and is approved. -/
def unfoundedCalls : Fin 2 → GateCall
  | 0 => .suggest (repair "proposal-1" []) 50
  | 1 => .decide "proposal-1" (.approve "alice") 60

/-- Two suggestions at one time. -/
def simultaneousCalls : Fin 2 → GateCall
  | 0 => .suggest (repair "proposal-1" ["run 17"]) 50
  | 1 => .suggest (repair "proposal-2" ["run 18"]) 50

/-- A suggestion that is denied for want of evidence replaces an executed proposal by an open one;
and two suggestions that are counted together are both open where one may be. -/
theorem openAsAdmitted_fails_unfounded :
    Run (serves execute)
      (gateSession plainGate oneProposal unfoundedCalls executedStore)
      (gateMoves [0, 0, 0]) (gateRun unfoundedCalls executedStore [0, 0, 0]) ∧
    (∃ admission proposal, (gateRun unfoundedCalls executedStore [0, 0, 0]).calls 0 =
      .done (.submitted (.ok (admission, proposal))) ∧ admission.allowed = false) ∧
    OpenProposal plainGate (gateRun unfoundedCalls executedStore [0, 0, 0]).store "proposal-1" ∧
    ¬ SubmitsSound plainGate oneProposal unfoundedCalls executedStore
      (gateRun unfoundedCalls executedStore [0, 0, 0]).log ∧
    Run (serves execute)
      (gateSession plainGate oneProposal simultaneousCalls .empty)
      (gateMoves [0, 1, 0, 1, 0, 1]) (gateRun simultaneousCalls .empty [0, 1, 0, 1, 0, 1]) ∧
    ¬ AtMostOpen plainGate (gateRun simultaneousCalls .empty [0, 1, 0, 1, 0, 1]).store
      oneProposal.maxOpenProposals := by
  refine ⟨run_serves _ _, ⟨_, _, rfl, rfl⟩, ⟨_, _, rfl, rfl, rfl⟩, fun sound => ?_,
    run_serves _ _, by decide +kernel⟩
  have spared := (sound (gateRun unfoundedCalls executedStore [0, 0]).log _ [] rfl).spared rfl
    "proposal-1" ⟨proactiveNamespace, "proposal-1", 1, .proposal executedRepair, 0⟩ executedRepair
    rfl rfl rfl
  cases spared

end UltimateCoders.Governance
