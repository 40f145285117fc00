import UltimateCoders.Governance.ApprovalLedger

/-! # Calls on approvals

Every call on the store of approvals creates the document of its own request or replaces a
document that it has seen by what its call makes of it. What a call answers, it has written:
an answer that names a changed approval stands for an accepted write.
-/

namespace UltimateCoders.Governance

open Transition Program ApprovalStore List

universe u

variable {Index : Type u} {Value Document : Type}

theorem Codec.encode_inj (codec : Codec Value Document) {first second : Document} :
    codec.encode first = codec.encode second ↔ first = second := by
  constructor
  · intro same
    have decoded := codec.decode_encode first
    rw [same, codec.decode_encode, Except.ok.injEq] at decoded
    exact decoded.symm
  · exact fun same => by rw [same]

/-- The call has written what it has made of the approval under a key. -/
def Rewrote (serde : PolicySerde Value) (index : Index) (key : String) (after : ToolApproval)
    (log : List (StoreEvent Index Value)) : Prop :=
  after.state ≠ .pending ∧ ∃ version,
    WasWritten index approvalNamespace key (serde.approval.encode after) (some version) log

def ListedApproval (serde : PolicySerde Value) (start : RecordStore Value)
    (entry : ToolApproval × Nat) (log : List (StoreEvent Index Value)) : Prop :=
  ∃ record, SeenApproval start entry.1.id record log ∧
    serde.approval.decode record.value = .ok entry.1 ∧ record.version = entry.2

variable {serde : PolicySerde Value} {sha256Hex : String → String} {calls : Index → ApprovalCall}
  {start : RecordStore Value} {index : Index} {log later : List (StoreEvent Index Value)}
  {key id : String} {after : ToolApproval} {entry : ToolApproval × Nat} {now : Instant}

theorem Rewrote.mono (rewrote : Rewrote serde index key after log) (isPrefix : log <+: later) :
    Rewrote serde index key after later := by
  obtain ⟨decided, version, written⟩ := rewrote
  exact ⟨decided, version, written.mono isPrefix⟩

theorem Rewrote.changes (rewrote : Rewrote serde index key after log)
    (filed : ApprovalsFiled serde start)
    (proper : ProperLog (approvalRule serde sha256Hex calls start) start log) :
    ∃ earlier event before, event.index = index ∧ earlier ++ [event] <+: log ∧
      ChangesApproval serde calls start key before after earlier event := by
  obtain ⟨decided, version, earlier, record, logged⟩ := rewrote
  have inside := (prefix_append earlier _).trans logged
  obtain ⟨accepted, -, sameKey, value, -⟩ := accepted_of_answer (proper _ _ logged)
  rcases approval_accepted filed (proper.of_prefix inside) accepted with
    ⟨-, asked, now, ttl, -, -, created⟩ | ⟨before, new, changedValue, changed⟩
  · rw [value, serde.approval.encode_inj] at created
    rw [created] at decided
    exact (decided rfl).elim
  · rw [value, serde.approval.encode_inj] at changedValue
    subst changedValue
    rw [sameKey] at changed
    exact ⟨earlier, _, before, rfl, logged, changed⟩

theorem ListedApproval.mono (listed : ListedApproval serde start entry log)
    (isPrefix : log <+: later) : ListedApproval serde start entry later := by
  obtain ⟨record, seen, decoded, version⟩ := listed
  exact ⟨record, seen.mono isPrefix, decoded, version⟩

theorem ApprovalCall.Changes.not_pending {call : ApprovalCall} {before : ToolApproval}
    (changes : call.Changes key before after) : after.state ≠ .pending :=
  changes.moves.1.not_pending

theorem heeds_approvalGet (filed : ApprovalsFiled serde start) (id : String) :
    Upholds (approvalRule serde sha256Hex calls start) start index (get serde.approval id)
      (fun result _ => ∀ approval version, result = .ok (some (approval, version)) →
        approval.id = id) log := by
  apply Heeds.seq (heeds_get view serde.approval id)
  intro result later _ proper post
  cases result with
  | error error => exact .done fun _ _ _ _ _ => nofun
  | ok found =>
    apply Heeds.done
    intro _ _ _ approval version same
    cases same
    obtain ⟨record, ⟨earlier, _, logged, stored⟩, decoded, -⟩ := post approval version rfl
    exact id_of_approvalAt filed (proper.of_prefix ((prefix_append earlier _).trans logged))
      (storedApproval_of_get stored decoded)

theorem heeds_request {asked : ApprovalRequest} {ttl : Option Int}
    (filed : ApprovalsFiled serde start) (call : calls index = .request asked now ttl) :
    Upholds (approvalRule serde sha256Hex calls start) start index
      (request serde.approval (.ofRequest sha256Hex asked now ttl))
      (fun result _ => ∀ approval created, result = .ok (approval, created) →
        approval.id = approvalId sha256Hex asked) log := by
  apply Heeds.seq (heeds_put view serde.approval fun later _ _ =>
    ⟨rfl, .inl ⟨asked, now, ttl, call, rfl, rfl, rfl⟩⟩)
  intro answer later _ _ _
  cases answer with
  | ok record =>
    apply Heeds.done
    intro _ _ _ approval created same
    cases same
    rfl
  | error error =>
    cases error with
    | conflict expected actual =>
      apply Heeds.seq (heeds_approvalGet filed _)
      intro result _ _ _ post
      cases result with
      | error error => exact .done fun _ _ _ _ _ => nofun
      | ok found =>
        cases found with
        | none => exact .done fun _ _ _ _ _ => nofun
        | some existing =>
          apply Heeds.done
          intro _ _ _ approval created same
          cases same
          exact post existing.1 existing.2 rfl
    | _ => exact .done fun _ _ _ _ _ => nofun

/-- A change replaces the approval that was read last by what the call makes of it. -/
theorem heeds_approvalChange {mutate : ToolApproval → Except ApprovalError ToolApproval}
    {lost : ApprovalError}
    (permitted : ∀ earlier before after, log <+: earlier →
      ProperLog (approvalRule serde sha256Hex calls start) start earlier →
      approvalAt serde start earlier id = some before → mutate before = .ok after →
      (calls index).Changes id before after) :
    Upholds (approvalRule serde sha256Hex calls start) start index
      (change serde.approval id mutate lost)
      (fun result later => ∀ after, result = .ok after → Rewrote serde index id after later) log := by
  have changesOf : ∀ later record before after extra, log <+: later →
      ProperLog (approvalRule serde sha256Hex calls start) start later →
      WasRead start index approvalNamespace id record log later →
      serde.approval.decode record.value = .ok before →
      (mutate before).map (fun next => (next, ())) = .ok (after, extra) →
      (calls index).Changes id before after := by
    intro later record before after extra since proper read decoded mutated
    obtain ⟨earlier, sinceEarlier, logged, found⟩ := read
    have inside := (prefix_append earlier _).trans logged
    cases changed : mutate before with
    | error error =>
      rw [changed] at mutated
      cases mutated
    | ok next =>
      rw [changed] at mutated
      cases mutated
      exact permitted earlier before after sinceEarlier (proper.of_prefix inside)
        (storedApproval_of_get found decoded) changed
  apply Heeds.seq (heeds_modify view serde.approval id _ 3 ?_)
  · intro result reached since proper post
    cases result with
    | absent | refused error | contended | failed error =>
      exact .done fun _ _ _ _ => nofun
    | written next extra =>
      obtain ⟨record, before, read, decoded, mutated, written⟩ := post next extra rfl
      apply Heeds.done
      intro later further _ after same
      cases same
      have decided := (changesOf _ _ _ _ _ since proper read decoded mutated).not_pending
      exact ⟨decided, record.version, written.mono further⟩
  · intro later record before changed since proper read decoded mutated
    have seen := read
    obtain ⟨earlier, -, logged, found⟩ := seen
    exact ⟨rfl, .inr ⟨record, before, changed.1,
      ⟨earlier, (prefix_append earlier _).trans logged, found⟩, decoded,
      changesOf later record before changed.1 changed.2 since proper read decoded mutated, rfl,
      rfl⟩⟩

theorem heeds_scan (filed : ApprovalsFiled serde start) :
    Upholds (approvalRule serde sha256Hex calls start) start index (scan serde.approval)
      (fun result later => ∀ approvals, result = .ok approvals → ∀ entry ∈ approvals,
        ListedApproval serde start entry later) log := by
  apply Heeds.seq (heeds_list view serde.approval approvalScanLimit)
  intro result reached since proper post
  cases result with
  | error error => exact .done fun _ _ _ _ => nofun
  | ok approvals =>
    obtain ⟨records, ⟨earlier, _, logged, rfl⟩, all⟩ := post approvals rfl
    have inside := (prefix_append earlier _).trans logged
    apply Heeds.done
    intro later further _ listed same entry member
    cases same
    obtain ⟨record, recordMem, decoded, version⟩ := NamespacedStore.mem_decodeAll all member
    have found := RecordStore.get_of_mem_list recordMem
    have own := id_of_approvalAt filed (proper.of_prefix inside) (storedApproval_of_get found decoded)
    refine ⟨record, ⟨earlier, inside.trans further, ?_⟩, decoded, version⟩
    rw [own]
    exact found

theorem heeds_replaceListed (listed : ListedApproval serde start entry log)
    (changes : (calls index).Changes entry.1.id entry.1 after) :
    Upholds (approvalRule serde sha256Hex calls start) start index
      (view.put serde.approval after.id after (some entry.2))
      (fun answer later => ∀ record, answer = .ok record → Rewrote serde index after.id after later)
      log := by
  have own : after.id = entry.1.id := changes.moves.2.id_eq
  apply (heeds_put view serde.approval ?_).weaken
  · intro answer later _ _ written record accepted
    exact ⟨changes.not_pending, entry.2, written record accepted⟩
  · intro later further _
    obtain ⟨record, seen, decoded, version⟩ := listed.mono further
    rw [own]
    exact ⟨rfl, .inr ⟨record, entry.1, after, seen, decoded, changes, rfl, by rw [version]⟩⟩

theorem heeds_consumeFirst (entries : List (ToolApproval × Nat))
    (listed : ∀ entry ∈ entries, ListedApproval serde start entry log)
    (permitted : ∀ entry ∈ entries, ∀ after, entry.1.consume now = .ok after →
      (calls index).Changes entry.1.id entry.1 after) :
    Upholds (approvalRule serde sha256Hex calls start) start index
      (consumeFirst serde.approval now entries)
      (fun result later => ∀ after, result = .ok (some after) →
        Rewrote serde index after.id after later) log := by
  induction entries generalizing log with
  | nil => exact .done fun _ _ _ _ => nofun
  | cons entry rest ih =>
    obtain ⟨approval, version⟩ := entry
    have restPermitted := fun other member => permitted other (mem_cons_of_mem _ member)
    unfold consumeFirst
    cases consumed : approval.consume now with
    | error error =>
      exact ih (fun other member => listed other (mem_cons_of_mem _ member)) restPermitted
    | ok used =>
      have changes := permitted _ mem_cons_self used consumed
      apply Heeds.seq (heeds_replaceListed (listed _ mem_cons_self) changes)
      intro answer later since _ written
      cases answer with
      | ok record =>
        apply Heeds.done
        intro final further _ after same
        cases same
        exact (written record rfl).mono further
      | error error =>
        cases error with
        | conflict expected actual =>
          exact ih (fun other member =>
            (listed other (mem_cons_of_mem _ member)).mono since) restPermitted
        | _ => exact .done fun _ _ _ _ => nofun

theorem heeds_expireEach (entries : List (ToolApproval × Nat)) (expired : Nat)
    (listed : ∀ entry ∈ entries, ListedApproval serde start entry log)
    (permitted : ∀ entry after, entry ∈ entries → entry.1.expire now = .ok after →
      (calls index).Changes entry.1.id entry.1 after) :
    Obeys (approvalRule serde sha256Hex calls start) start index
      (expireEach serde.approval now entries expired) log := by
  induction entries generalizing log expired with
  | nil => exact .returned
  | cons entry rest ih =>
    obtain ⟨approval, version⟩ := entry
    have restPermitted := fun other after member =>
      permitted other after (mem_cons_of_mem _ member)
    unfold expireEach
    cases closed : approval.expire now with
    | error error =>
      exact ih _ (fun other member => listed other (mem_cons_of_mem _ member)) restPermitted
    | ok next =>
      have changes := permitted _ next mem_cons_self closed
      apply Heeds.seq (heeds_replaceListed (listed _ mem_cons_self) changes)
      intro answer later since _ _
      have restListed := fun other member =>
        (listed other (mem_cons_of_mem _ member)).mono since
      cases answer with
      | ok record => exact ih _ restListed restPermitted
      | error error =>
        cases error with
        | conflict expected actual => exact ih _ restListed restPermitted
        | _ => exact .returned

theorem mem_candidates {tool : String} {caseId : Option String}
    {approvals : List (ToolApproval × Nat)}
    (member : entry ∈ candidates tool caseId now approvals) :
    entry ∈ approvals ∧ entry.1.isUsable now = true ∧ entry.1.covers tool caseId = true := by
  have kept := (mem_insertionSort _).mp member
  simpa using mem_filter.mp kept

theorem heeds_consumeApproved {tool : String} {caseId : Option String}
    (filed : ApprovalsFiled serde start) (call : calls index = .consumeApproved tool caseId now) :
    Upholds (approvalRule serde sha256Hex calls start) start index
      (consumeApproved serde.approval tool caseId now)
      (fun result later => ∀ after, result = .ok (some after) →
        Rewrote serde index after.id after later) log := by
  apply Heeds.seq (heeds_scan filed)
  intro result later _ _ post
  cases result with
  | error error => exact .done fun _ _ _ _ => nofun
  | ok approvals =>
    apply heeds_consumeFirst
    · intro entry member
      exact post approvals rfl entry (mem_candidates member).1
    · intro entry member after consumed
      rw [call]
      exact ⟨(mem_candidates member).2.2, consumed⟩

theorem heeds_expireStale {limit : Nat} (filed : ApprovalsFiled serde start)
    (call : calls index = .expireStale now limit) :
    Obeys (approvalRule serde sha256Hex calls start) start index
      (expireStale serde.approval now limit) log := by
  apply Heeds.seq (heeds_scan filed)
  intro result later _ _ post
  cases result with
  | error error => exact .returned
  | ok approvals =>
    apply heeds_expireEach
    · intro entry member
      exact post approvals rfl entry (mem_filter.mp (mem_of_mem_take member)).1
    · intro entry after _ closed
      rw [call]
      exact closed

def PermitFound (serde : PolicySerde Value) (start : RecordStore Value) (tool : String)
    (caseId : Option String) (id : String) (log : List (StoreEvent Index Value)) : Prop :=
  ∃ earlier approval, earlier <+: log ∧ approvalAt serde start earlier id = some approval ∧
    approval.covers tool caseId = true

section Authorize

variable {engine : PolicyEngine} {principal : Principal} {tool : String}
  {projectId caseId : Option String}

theorem heeds_findApproved (filed : ApprovalsFiled serde start) :
    Upholds (approvalRule serde sha256Hex calls start) start index
      (findApproved serde.approval tool caseId now)
      (fun result later => ∀ approval, result = .ok (some approval) →
        PermitFound serde start tool caseId approval.id later) log := by
  apply Heeds.seq (heeds_scan filed)
  intro result later _ _ post
  cases result with
  | error error => exact .done fun _ _ _ _ => nofun
  | ok approvals =>
    apply Heeds.done
    intro final further _ approval same
    obtain ⟨entry, first, rfl⟩ := Option.map_eq_some_iff.mp (Except.ok.inj same)
    have member := mem_of_mem_head? first
    obtain ⟨listed, -, covers⟩ := mem_candidates member
    obtain ⟨record, ⟨earlier, within, found⟩, decoded, -⟩ := post approvals rfl entry listed
    exact ⟨earlier, entry.1, within.trans further, storedApproval_of_get found decoded, covers⟩

theorem heeds_peekHumanTierPermit (filed : ApprovalsFiled serde start) :
    Upholds (approvalRule serde sha256Hex calls start) start index
      (PolicyEngine.peekHumanTierPermit serde engine principal projectId tool caseId now)
      (fun result later => match result with
        | .error decision => decision.isAllowed = false
        | .ok none => (engine.authorize principal .proactiveExecute projectId now).isAllowed = true
        | .ok (some id) => PermitFound serde start tool caseId id later) log := by
  unfold PolicyEngine.peekHumanTierPermit
  split
  · rename_i operator
    exact .done fun _ _ _ => operator
  · split
    · apply Heeds.seq (heeds_findApproved filed)
      intro result later _ _ post
      cases result with
      | error error => exact .done fun _ _ _ => rfl
      | ok found =>
        cases found with
        | none => exact .done fun _ _ _ => rfl
        | some approval =>
          apply Heeds.done
          intro final further _
          obtain ⟨earlier, found, within, rest⟩ := post approval rfl
          exact ⟨earlier, found, within.trans further, rest⟩
    · exact .done fun _ _ _ => rfl

theorem heeds_settleToolDecision {permitId : Option String} (filed : ApprovalsFiled serde start)
    (spends : ∀ key before after, before.covers tool caseId = true → before.consume now = .ok after →
      (calls index).Changes key before after)
    (found : ∀ id, permitId = some id → PermitFound serde start tool caseId id log) :
    Upholds (approvalRule serde sha256Hex calls start) start index
      (PolicyEngine.settleToolDecision serde engine permitId tool now)
      (fun decision later => decision.isAllowed = true → permitId ≠ none →
        ∃ key after, Rewrote serde index key after later) log := by
  unfold PolicyEngine.settleToolDecision
  cases permitId with
  | none => exact .done fun _ _ _ _ impossible => (impossible rfl).elim
  | some id =>
    dsimp only
    split
    · apply Heeds.seq (heeds_approvalChange ?_)
      · intro result later _ _ post
        cases result with
        | error error => exact .done fun _ _ _ => nofun
        | ok after =>
          apply Heeds.done
          intro final further _ _ _
          exact ⟨id, after, (post after rfl).mono further⟩
      · intro earlier before after since proper current consumed
        obtain ⟨first, approval, within, stored, covers⟩ := found id rfl
        obtain ⟨present, same, follows⟩ :=
          approvalAt_later filed proper (within.trans since) stored
        rw [current, Option.some.injEq] at same
        subst same
        refine spends id before after ?_ consumed
        unfold ToolApproval.covers at covers ⊢
        rw [follows.request_eq]
        exact covers
    · exact .done fun _ _ _ => nofun

theorem heeds_checkMandate (requirement : ToolPolicy) :
    Obeys (approvalRule serde sha256Hex calls start) start index
      (PolicyEngine.checkMandate serde requirement tool caseId now) log := by
  unfold PolicyEngine.checkMandate
  cases caseId with
  | none => exact .returned
  | some caseId =>
    have latest : Obeys (approvalRule serde sha256Hex calls start) start index
      (MandateStore.latestForCase serde.mandate caseId 256) log := by
      refine Heeds.ends (heeds_list MandateStore.view serde.mandate 256) fun result => ?_
      cases result <;> exact ⟨_, rfl⟩
    apply Heeds.seq latest
    intro result later _ _ _
    cases result with
    | error error => exact .returned
    | ok found =>
      cases found with
      | none | some mandate => exact .returned

/-- The tool is of the human tier, and the caller is no operator. -/
def PolicyEngine.needsPermit (engine : PolicyEngine) (principal : Principal) (tool : String)
    (projectId : Option String) (now : Instant) : Bool :=
  (engine.tools.requirement tool).humanApproval &&
    !(engine.authorize principal .proactiveExecute projectId now).isAllowed

open PolicyEngine

/-- A call that is allowed a tool holds the permission that the tool needs, and it has spent a
permit if it needed one. -/
structure Permitted (serde : PolicySerde Value) (engine : PolicyEngine) (principal : Principal)
    (tool : String) (projectId : Option String) (now : Instant) (index : Index)
    (log : List (StoreEvent Index Value)) : Prop where
  known : (engine.tools.requirement tool).known = true
  held : engine.authorize principal (engine.tools.requirement tool).action.requiredPermission
    projectId now = .allow
  spent : engine.needsPermit principal tool projectId now = true →
    ∃ key after, Rewrote serde index key after log

theorem Permitted.mono
    (permitted : Permitted serde engine principal tool projectId now index log)
    (isPrefix : log <+: later) : Permitted serde engine principal tool projectId now index later := by
  refine ⟨permitted.known, permitted.held, fun needed => ?_⟩
  obtain ⟨key, after, rewrote⟩ := permitted.spent needed
  exact ⟨key, after, rewrote.mono isPrefix⟩

theorem heeds_gate {settle : ToolPolicy → Option String → StoreProgram Value PolicyDecision}
    (filed : ApprovalsFiled serde start)
    (settles : ∀ requirement permitId later, log <+: later →
      (∀ id, permitId = some id → PermitFound serde start tool caseId id later) →
      Upholds (approvalRule serde sha256Hex calls start) start index (settle requirement permitId)
        (fun decision final => decision.isAllowed = true → permitId ≠ none →
          ∃ key after, Rewrote serde index key after final) later) :
    Upholds (approvalRule serde sha256Hex calls start) start index
      (gate serde engine principal tool projectId caseId now settle)
      (fun decision final => decision.isAllowed = true →
        Permitted serde engine principal tool projectId now index final) log := by
  unfold gate
  dsimp only
  split
  · exact .done fun _ _ _ => nofun
  · rename_i unknown
    have known : (engine.tools.requirement tool).known = true := by simpa using unknown
    split
    · exact .done fun _ _ _ => nofun
    · rename_i held
      split
      · apply Heeds.seq (heeds_peekHumanTierPermit filed)
        intro result later since _ post
        cases result with
        | error decision =>
          apply Heeds.done
          intro final _ _ allowed
          rw [post] at allowed
          cases allowed
        | ok permitId =>
          cases permitId with
          | none =>
            apply (settles _ none later since nofun).weaken
            refine fun decision final _ _ _ _ => ⟨known, held, fun needed => ?_⟩
            have operator : (engine.authorize principal .proactiveExecute projectId
              now).isAllowed = true := post
            simp [needsPermit, operator] at needed
          | some id =>
            have found : ∀ other, some id = some other →
                PermitFound serde start tool caseId other later := by
              intro other same
              cases same
              exact post
            apply (settles _ (some id) later since found).weaken
            exact fun decision final _ _ rewrote allowed =>
              ⟨known, held, fun _ => rewrote allowed nofun⟩
      · rename_i automatic
        apply (settles _ none log prefix_rfl nofun).weaken
        refine fun decision final _ _ _ _ => ⟨known, held, fun needed => ?_⟩
        simp [needsPermit, automatic] at needed

variable (filed : ApprovalsFiled serde start)
  (spends : ∀ key before after, before.covers tool caseId = true → before.consume now = .ok after →
    (calls index).Changes key before after)

include filed spends

theorem heeds_authorizeTool :
    Upholds (approvalRule serde sha256Hex calls start) start index
      (authorizeTool serde engine principal tool projectId caseId now)
      (fun decision final => decision.isAllowed = true →
        Permitted serde engine principal tool projectId now index final) log := by
  apply heeds_gate filed
  intro requirement permitId later _ found
  split
  · exact heeds_settleToolDecision filed spends found
  · apply Heeds.seq (heeds_checkMandate requirement)
    intro decision checked since _ _
    cases decision with
    | allow =>
      apply heeds_settleToolDecision filed spends
      intro id same
      obtain ⟨earlier, approval, within, rest⟩ := found id same
      exact ⟨earlier, approval, within.trans since, rest⟩
    | deny reason => exact .done fun _ _ _ => nofun

theorem heeds_authorizeHumanTierTool :
    Upholds (approvalRule serde sha256Hex calls start) start index
      (authorizeHumanTierTool serde engine principal tool projectId caseId now)
      (fun decision final => decision.isAllowed = true →
        Permitted serde engine principal tool projectId now index final) log :=
  heeds_gate filed fun _ _ _ _ found => heeds_settleToolDecision filed spends found

end Authorize

def ApprovalCall.Established (serde : PolicySerde Value) (sha256Hex : String → String)
    (index : Index) (call : ApprovalCall) (answer : ApprovalAnswer)
    (log : List (StoreEvent Index Value)) : Prop :=
  match call, answer with
  | .request asked _ _, .requested (.ok (approval, _)) => approval.id = approvalId sha256Hex asked
  | approve id _ _ _, .changed (.ok after) => Rewrote serde index id after log
  | reject id _ _ _, .changed (.ok after) => Rewrote serde index id after log
  | consume id _, .changed (.ok after) => Rewrote serde index id after log
  | consumeApproved _ _ _, .spent (.ok (some after)) => Rewrote serde index after.id after log
  | authorizeTool engine principal tool projectId _ now, .decided .allow
  | authorizeHumanTierTool engine principal tool projectId _ now, .decided .allow =>
    Permitted serde engine principal tool projectId now index log
  | _, _ => True

section Answers

variable {call : ApprovalCall}

theorem heeds_changed {program : StoreProgram Value (Except ApprovalStoreError ToolApproval)}
    (heeds : Upholds (approvalRule serde sha256Hex calls start) start index program
      (fun result later => ∀ after, result = .ok after → Rewrote serde index id after later) log)
    (failed : ∀ error later, call.Established serde sha256Hex index (.changed (.error error)) later)
    (established : ∀ after later, Rewrote serde index id after later →
      call.Established serde sha256Hex index (.changed (.ok after)) later) :
    Upholds (approvalRule serde sha256Hex calls start) start index
      (do return ApprovalAnswer.changed (← program) : StoreProgram Value ApprovalAnswer)
      (fun answer later => call.Established serde sha256Hex index answer later) log := by
  apply Heeds.seq heeds
  intro result later _ _ post
  apply Heeds.done
  intro final further _
  cases result with
  | error error => exact failed error final
  | ok after => exact established after final ((post after rfl).mono further)

theorem heeds_decided {engine : PolicyEngine} {principal : Principal} {tool : String}
    {projectId : Option String} {program : StoreProgram Value PolicyDecision}
    (heeds : Upholds (approvalRule serde sha256Hex calls start) start index program
      (fun decision later => decision.isAllowed = true →
        Permitted serde engine principal tool projectId now index later) log)
    (denied : ∀ reason later,
      call.Established serde sha256Hex index (.decided (.deny reason)) later)
    (established : ∀ later, Permitted serde engine principal tool projectId now index later →
      call.Established serde sha256Hex index (.decided .allow) later) :
    Upholds (approvalRule serde sha256Hex calls start) start index
      (do return ApprovalAnswer.decided (← program) : StoreProgram Value ApprovalAnswer)
      (fun answer later => call.Established serde sha256Hex index answer later) log := by
  apply Heeds.seq heeds
  intro decision later _ _ post
  apply Heeds.done
  intro final further _
  cases decision with
  | deny reason => exact denied reason final
  | allow => exact established final ((post rfl).mono further)

end Answers

/-- Every call keeps to the rule. -/
theorem heeds_approvalCall (filed : ApprovalsFiled serde start) (index : Index) :
    Upholds (approvalRule serde sha256Hex calls start) start index
      ((calls index).program serde sha256Hex)
      (fun answer later => (calls index).Established serde sha256Hex index answer later) log := by
  cases call : calls index with
  | request asked now ttl =>
    apply Heeds.seq (heeds_request filed call)
    intro result later _ _ post
    apply Heeds.done
    intro _ _ _
    cases result with
    | error error => exact trivial
    | ok found => exact post found.1 found.2 rfl
  | approve id by_ note now | reject id by_ note now | consume id now =>
    refine heeds_changed (heeds_approvalChange ?_) (fun _ _ => trivial) fun _ _ rewrote => rewrote
    intro _ _ _ _ _ _ changed
    rw [call]
    exact ⟨rfl, changed⟩
  | consumeApproved tool caseId now =>
    apply Heeds.seq (heeds_consumeApproved filed call)
    intro result later _ _ post
    apply Heeds.done
    intro final further _
    cases result with
    | error error => exact trivial
    | ok found =>
      cases found with
      | none => exact trivial
      | some after => exact (post after rfl).mono further
  | expireStale now limit =>
    exact Heeds.ends (heeds_expireStale filed call) fun _ => ⟨_, rfl⟩
  | listPage state limit offset =>
    have listing : Obeys (approvalRule serde sha256Hex calls start) start index
      (listPage serde.approval state limit offset) log := by
      refine Heeds.ends (heeds_scan filed) fun result => ?_
      cases result <;> exact ⟨_, rfl⟩
    apply Heeds.seq listing
    exact fun _ _ _ _ _ => .returned
  | findApproved tool caseId now =>
    exact Heeds.ends (heeds_findApproved filed) fun _ => ⟨_, rfl⟩
  | authorizeTool engine principal tool projectId caseId now =>
    refine heeds_decided (heeds_authorizeTool filed ?_) (fun _ _ => trivial)
      fun _ permitted => permitted
    intro _ _ _ covers consumed
    rw [call]
    exact ⟨covers, consumed⟩
  | authorizeHumanTierTool engine principal tool projectId caseId now =>
    refine heeds_decided (heeds_authorizeHumanTierTool filed ?_) (fun _ _ => trivial)
      fun _ permitted => permitted
    intro _ _ _ covers consumed
    rw [call]
    exact ⟨covers, consumed⟩

/-- Clients of one store of approvals, at some moment. -/
abbrev ApprovalSession (Index : Type u) (Value : Type) :=
  Session Index (RecordStore Value) (StoreOperation Value) StoreOperation.Answer ApprovalAnswer

/-- Clients that find this store, and have not begun. -/
def deciding (serde : PolicySerde Value) (sha256Hex : String → String)
    (calls : Index → ApprovalCall) (start : RecordStore Value) : ApprovalSession Index Value :=
  ⟨start, fun index => (calls index).program serde sha256Hex, []⟩

theorem accounted_of_deciding [DecidableEq Index] (filed : ApprovalsFiled serde start)
    {session : ApprovalSession Index Value} {moves : List (Index × Circumstance)}
    (run : Run (serves RecordStore.execute) (deciding serde sha256Hex calls start) moves session) :
    session.Accounted recordService (writing (approvalRule serde sha256Hex calls start)) start
      fun index answer log => (calls index).Established serde sha256Hex index answer log :=
  Session.accounted_of_run (heeds_approvalCall filed) run

end UltimateCoders.Governance
