import UltimateCoders.Governance.SpentOnce

/-! # What a permit is good for

A permit opens the gate of the human tier for one call of the tool and on the case that it was
asked for. The caller need not be the one who asked: it must hold the permission for the tool
itself. Requests that differ in tool, case, requester or action have documents of their own,
as long as their texts are free of the separator.
-/

namespace UltimateCoders.Governance

open Transition

universe u

variable {Index : Type u} {Value : Type} {serde : PolicySerde Value} {sha256Hex : String → String}
  {calls : Index → ApprovalCall} {start : RecordStore Value}

structure ApprovalRequest.SameAction (first second : ApprovalRequest) : Prop where
  tool : first.tool = second.tool
  case : first.caseId = second.caseId
  requester : first.requestedBy = second.requestedBy
  digest : first.actionDigest = second.actionDigest

/-- The texts of the request are free of the separator, and an optional text is not there as
the empty one. -/
structure ApprovalRequest.Plain (request : ApprovalRequest) : Prop where
  tool : '|' ∉ request.tool.toList
  case : '|' ∉ (request.caseId.getD "").toList
  requester : '|' ∉ request.requestedBy.id.toList
  digest : '|' ∉ (request.actionDigest.getD "").toList
  case_ne : request.caseId ≠ some ""
  digest_ne : request.actionDigest ≠ some ""

/-- The hash, as far as ids keep it, tells apart the texts of two requests. -/
def ApartUnder (sha256Hex : String → String) (first second : ApprovalRequest) : Prop :=
  (sha256Hex (approvalMaterial first)).toList.take 32 =
      (sha256Hex (approvalMaterial second)).toList.take 32 →
    approvalMaterial first = approvalMaterial second

theorem PrincipalKind.asStr_free (kind : PrincipalKind) : '|' ∉ kind.asStr.toList := by
  cases kind <;> decide +kernel

theorem PrincipalKind.asStr_injective {first second : PrincipalKind}
    (same : first.asStr.toList = second.asStr.toList) : first = second := by
  cases first <;> cases second <;> first | rfl | exact absurd same (by decide +kernel)

theorem Principal.eq_of_parts {first second : Principal} (kind : first.kind = second.kind)
    (id : first.id = second.id) : first = second := by
  cases first
  cases second
  simp_all

theorem approvalMaterial_toList (request : ApprovalRequest) :
    (approvalMaterial request).toList = request.tool.toList ++ '|' ::
      ((request.caseId.getD "").toList ++ '|' :: (request.requestedBy.kind.asStr.toList ++ '|' ::
        (request.requestedBy.id.toList ++ '|' :: (request.actionDigest.getD "").toList))) := by
  simp [approvalMaterial]

theorem eq_of_getD_eq {first second : Option String} (same : first.getD "" = second.getD "")
    (firstNe : first ≠ some "") (secondNe : second ≠ some "") : first = second := by
  cases first <;> cases second <;> simp_all

theorem sameAction_of_material {first second : ApprovalRequest} (firstPlain : first.Plain)
    (secondPlain : second.Plain) (same : approvalMaterial first = approvalMaterial second) :
    first.SameAction second := by
  have lists := congrArg String.toList same
  rw [approvalMaterial_toList, approvalMaterial_toList] at lists
  obtain ⟨tool, lists⟩ := Text.eq_of_cut_eq lists firstPlain.tool secondPlain.tool
  obtain ⟨case, lists⟩ := Text.eq_of_cut_eq lists firstPlain.case secondPlain.case
  obtain ⟨kind, lists⟩ := Text.eq_of_cut_eq lists (PrincipalKind.asStr_free _)
    (PrincipalKind.asStr_free _)
  obtain ⟨id, digest⟩ := Text.eq_of_cut_eq lists firstPlain.requester secondPlain.requester
  refine ⟨String.toList_injective tool, ?_, ?_, ?_⟩
  · exact eq_of_getD_eq (String.toList_injective case) firstPlain.case_ne secondPlain.case_ne
  · exact Principal.eq_of_parts (PrincipalKind.asStr_injective kind) (String.toList_injective id)
  · exact eq_of_getD_eq (String.toList_injective digest) firstPlain.digest_ne secondPlain.digest_ne

theorem sameAction_of_id {first second : ApprovalRequest} (firstPlain : first.Plain)
    (secondPlain : second.Plain) (apart : ApartUnder sha256Hex first second)
    (same : approvalId sha256Hex first = approvalId sha256Hex second) : first.SameAction second := by
  apply sameAction_of_material firstPlain secondPlain
  apply apart
  unfold approvalId at same
  exact String.ofList_injective ((String.append_right_inj _).mp same)

/-- The call checks the use of a tool. -/
def Authorizes (call : ApprovalCall) (engine : PolicyEngine) (principal : Principal)
    (tool : String) (projectId caseId : Option String) (now : Instant) : Prop :=
  call = .authorizeTool engine principal tool projectId caseId now ∨
    call = .authorizeHumanTierTool engine principal tool projectId caseId now

/-- At this event a permit for the tool and the case was spent. -/
structure SpendsPermit (serde : PolicySerde Value) (start : RecordStore Value) (tool : String)
    (caseId : Option String) (now : Instant) (id : String) (permit : ToolApproval)
    (earlier : List (StoreEvent Index Value)) (event : StoreEvent Index Value) : Prop where
  found : approvalAt serde start earlier id = some permit
  stored : approvalAt serde start (earlier ++ [event]) id =
    some { permit with state := .used, usedAt := some now }
  allowed : permit.state = .approved
  early : now < permit.expiresAt
  tool_eq : permit.request.tool = tool
  case_eq : permit.request.caseId = caseId

/-- What permits are good for in a session of clients. -/
structure PermitsScoped (serde : PolicySerde Value) (sha256Hex : String → String)
    (calls : Index → ApprovalCall) (start : RecordStore Value)
    (session : ApprovalSession Index Value) : Prop where
  spends : ∀ index engine principal tool projectId caseId now earlier event id,
    Authorizes (calls index) engine principal tool projectId caseId now →
    earlier ++ [event] <+: session.log → event.index = index →
    StoreEvent.wrote event = some (approvalNamespace, id) →
    ∃ permit, SpendsPermit serde start tool caseId now id permit earlier event
  needed : ∀ index engine principal tool projectId caseId now,
    Authorizes (calls index) engine principal tool projectId caseId now →
    session.calls index = .done (.decided .allow) →
    engine.authorize principal (engine.tools.requirement tool).action.requiredPermission projectId
        now = .allow ∧
      (engine.needsPermit principal tool projectId now = true →
        ∃ earlier event id permit, earlier ++ [event] <+: session.log ∧ event.index = index ∧
          SpendsPermit serde start tool caseId now id permit earlier event)
  apart : ∀ first second firstAsked secondAsked firstNow secondNow firstTtl secondTtl firstFound
      secondFound firstCreated secondCreated,
    calls first = .request firstAsked firstNow firstTtl →
    calls second = .request secondAsked secondNow secondTtl →
    session.calls first = .done (.requested (.ok (firstFound, firstCreated))) →
    session.calls second = .done (.requested (.ok (secondFound, secondCreated))) →
    firstFound.id = secondFound.id → firstAsked.Plain → secondAsked.Plain →
    ApartUnder sha256Hex firstAsked secondAsked → firstAsked.SameAction secondAsked

theorem ChangesApproval.spendsPermit {engine : PolicyEngine} {principal : Principal} {tool : String}
    {projectId caseId : Option String} {now : Instant} {id : String} {before after : ToolApproval}
    {earlier : List (StoreEvent Index Value)} {event : StoreEvent Index Value}
    (changed : ChangesApproval serde calls start id before after earlier event)
    (call : Authorizes (calls event.index) engine principal tool projectId caseId now) :
    SpendsPermit serde start tool caseId now id before earlier event := by
  have changes : before.covers tool caseId = true ∧ before.consume now = .ok after := by
    have changes := changed.changes
    rcases call with call | call
    · rw [call] at changes
      exact changes
    · rw [call] at changes
      exact changes
  obtain ⟨allowed, early, rfl⟩ := ToolApproval.consume_cases changes.2
  have covers : before.request.tool = tool ∧ before.request.caseId = caseId := by
    simpa [ToolApproval.covers] using changes.1
  exact ⟨changed.found, changed.stored, allowed, early, covers.1, covers.2⟩

/-- Whatever approvals are stored and however calls are interleaved, a check of a tool spends
permits of this tool and case only, and requests of other actions have other documents. -/
theorem permitsScoped_of_run [DecidableEq Index] (filed : ApprovalsFiled serde start)
    {session : ApprovalSession Index Value} {moves : List (Index × Circumstance)}
    (run : Run (serves RecordStore.execute) (deciding serde sha256Hex calls start) moves session) :
    PermitsScoped serde sha256Hex calls start session := by
  have account := accounted_of_deciding filed run
  have permitted : ∀ {index engine principal tool projectId caseId now},
      Authorizes (calls index) engine principal tool projectId caseId now →
      session.calls index = .done (.decided .allow) →
      Permitted serde engine principal tool projectId now index session.log := by
    intro index engine principal tool projectId caseId now call returned
    have established := account.returned index _ returned
    rcases call with call | call
    · rw [call] at established
      exact established
    · rw [call] at established
      exact established
  refine ⟨?_, ?_, ?_⟩
  · rintro index engine principal tool projectId caseId now earlier event id call within rfl wrote
    have before := account.proper.of_prefix ((List.prefix_append _ _).trans within)
    obtain ⟨expected, record, accepted, -, rfl, -⟩ :=
      accepted_of_wrote (account.proper _ _ within) wrote
    rcases approval_accepted filed before accepted with
      ⟨-, asked, at_, ttl, request, -⟩ | ⟨permit, after, -, changed⟩
    · rcases call with call | call
      · rw [call] at request
        cases request
      · rw [call] at request
        cases request
    · exact ⟨permit, changed.spendsPermit call⟩
  · intro index engine principal tool projectId caseId now call returned
    have allowed := permitted call returned
    refine ⟨allowed.held, fun needed => ?_⟩
    obtain ⟨id, after, rewrote⟩ := allowed.spent needed
    obtain ⟨earlier, event, permit, rfl, within, changed⟩ := rewrote.changes filed account.proper
    exact ⟨earlier, event, id, permit, within, rfl, changed.spendsPermit call⟩
  · intro first second firstAsked secondAsked firstNow secondNow firstTtl secondTtl firstFound
      secondFound firstCreated secondCreated firstCall secondCall firstReturned secondReturned same
      firstPlain secondPlain apart
    have own := account.returned first _ firstReturned
    have otherOwn := account.returned second _ secondReturned
    rw [firstCall] at own
    rw [secondCall] at otherOwn
    exact sameAction_of_id firstPlain secondPlain apart (own.symm.trans (same.trans otherOwn))

def scaleEngine : PolicyEngine where
  snapshot := { grants := [{ principal := ⟨.user, "bob"⟩, permissions := [.workerScale] }] }
  tools := .builtin
  approvals := true

/-- What an agent has asked for and alice has allowed is used by bob, for another project. -/
def borrowCalls : Nat → ApprovalCall
  | 0 => .request scaleRequest 0 none
  | 1 => .approve (approvalId scaleDigest scaleRequest) ⟨.user, "alice"⟩ none 1
  | 2 => .authorizeHumanTierTool scaleEngine ⟨.user, "bob"⟩ "scale_workers" (some "other")
      (some "case-1") 2
  | _ => .request { scaleRequest with actionDigest := some "d2" } 0 none

def borrowSession (indices : List Nat) : ApprovalSession Nat (ToolApproval ⊕ Mandate) :=
  (indices.map fun index => (index, ⟨5, none⟩)).foldl (Session.serve RecordStore.execute)
    (deciding plainPolicy scaleDigest borrowCalls .empty)

theorem permitsScoped_of_run_borrowed :
    Authorizes (borrowCalls 2) scaleEngine ⟨.user, "bob"⟩ "scale_workers" (some "other")
      (some "case-1") 2 ∧
    (borrowSession [0, 1, 1, 2, 2, 2]).calls 2 = .done (.decided .allow) ∧
    scaleEngine.needsPermit ⟨.user, "bob"⟩ "scale_workers" (some "other") 2 = true ∧
    PermitsScoped plainPolicy scaleDigest borrowCalls .empty (borrowSession [0, 1, 1, 2, 2, 2]) :=
  ⟨.inr rfl, rfl, by decide +kernel,
    permitsScoped_of_run (.of_clear fun _ => rfl) (run_serves _ _)⟩

/-- The caller is neither the one who has asked, nor is the project the same. -/
theorem permitsScoped_fails_requester :
    Run (serves RecordStore.execute) (deciding plainPolicy scaleDigest borrowCalls .empty)
      ([0, 1, 1, 2, 2, 2].map fun index => (index, ⟨5, none⟩)) (borrowSession [0, 1, 1, 2, 2, 2]) ∧
    borrowCalls 2 = .authorizeHumanTierTool scaleEngine ⟨.user, "bob"⟩ "scale_workers"
      (some "other") (some "case-1") 2 ∧
    (borrowSession [0, 1, 1, 2, 2, 2]).calls 2 = .done (.decided .allow) ∧
    ∃ event permit, (borrowSession [0, 1, 1, 2, 2]).log ++ [event] =
        (borrowSession [0, 1, 1, 2, 2, 2]).log ∧ event.index = 2 ∧
      SpendsPermit plainPolicy .empty "scale_workers" (some "case-1") 2
        (approvalId scaleDigest scaleRequest) permit (borrowSession [0, 1, 1, 2, 2]).log event ∧
      permit.request.requestedBy ≠ ⟨.user, "bob"⟩ ∧ permit.request.projectId ≠ some "other" := by
  refine ⟨run_serves _ _, rfl, rfl, _,
    { ToolApproval.ofRequest scaleDigest scaleRequest 0 none with
      state := .approved, decidedAt := some 1, decidedBy := some ⟨.user, "alice"⟩ }, rfl, rfl,
    ⟨rfl, rfl, rfl, by decide +kernel, rfl, rfl⟩, by decide +kernel, by decide +kernel⟩

end UltimateCoders.Governance
