import Mathlib.Data.Set.Finite.Lemmas
import UltimateCoders.Governance.Listing
import UltimateCoders.Governance.SpentOnce

/-! # The newest mandate of a case

A tool that needs a mandate is allowed by the mandate of its case that was issued last. It is
looked for among the first mandates of all cases in the order of their keys: a mandate that
enough others come before is not seen.
-/

namespace UltimateCoders.Governance

open Transition RecordStore PolicyEngine Program PolicySnapshot ApprovalStore List

variable {Value : Type} {serde : PolicySerde Value} {store : RecordStore Value}
  {engine : PolicyEngine} {principal : Principal} {tool caseId : String}
  {projectId : Option String} {now : Instant} {inputs : Nat → Circumstance} {mandate : Mandate}

/-- How many mandates a check looks at. -/
def mandateScanLimit : Nat := 256

def mandatesOf (serde : PolicySerde Value) (store : RecordStore Value) (caseId : String) :
    Set Mandate :=
  {mandate | ∃ record ∈ store.rows, record.space = mandateNamespace ∧
    serde.mandate.decode record.value = .ok mandate ∧ mandate.caseId = caseId}

/-- The mandates of the case that less than 256 mandates of all cases come before. -/
def firstMandatesOf (serde : PolicySerde Value) (store : RecordStore Value) (caseId : String) :
    Set Mandate :=
  {mandate | ∃ record ∈ store.rows, record.space = mandateNamespace ∧
    store.rank mandateNamespace record.key < mandateScanLimit ∧
    serde.mandate.decode record.value = .ok mandate ∧ mandate.caseId = caseId}

def IsNewest (mandates : Set Mandate) (mandate : Mandate) : Prop :=
  mandate ∈ mandates ∧ ∀ other ∈ mandates, other.issuedAt ≤ mandate.issuedAt

def MandatesReadable (serde : PolicySerde Value) (store : RecordStore Value) : Prop :=
  ∀ record ∈ store.rows, record.space = mandateNamespace →
    ∃ mandate, serde.mandate.decode record.value = .ok mandate

/-- No two mandates of the case were issued at one time. -/
def IssuedApart (serde : PolicySerde Value) (store : RecordStore Value) (caseId : String) : Prop :=
  ∀ first ∈ mandatesOf serde store caseId, ∀ second ∈ mandatesOf serde store caseId,
    first.issuedAt = second.issuedAt → first = second

theorem firstMandatesOf_subset :
    firstMandatesOf serde store caseId ⊆ mandatesOf serde store caseId :=
  fun _ ⟨record, member, here, _, rest⟩ => ⟨record, member, here, rest⟩

theorem IsNewest.eq {mandates : Set Mandate} {first second : Mandate}
    (apart : IssuedApart serde store caseId) (within : mandates ⊆ mandatesOf serde store caseId)
    (newest : IsNewest mandates first) (other : IsNewest mandates second) : first = second :=
  apart first (within newest.1) second (within other.1)
    (le_antisymm (other.2 first newest.1) (newest.2 second other.1))

theorem foldl_eq_latest (mandates : List Mandate) :
    (mandates.foldl (fun latest mandate =>
      match latest with
      | none => some mandate
      | some best => if best.issuedAt ≤ mandate.issuedAt then some mandate else some best) none) =
      Search.latest Mandate.issuedAt mandates := by
  unfold Search.latest
  congr 1
  funext latest mandate
  cases latest with
  | none | some best => rfl

theorem latestForCase_alone (readable : MandatesReadable serde store) (steady : Steady inputs)
    (caseId : String) :
    ∃ found, (MandateStore.latestForCase serde.mandate caseId mandateScanLimit).alone
        execute inputs store = (.ok found, fun step => inputs (step + 1), store) ∧
      (found = none → firstMandatesOf serde store caseId = ∅) ∧
      ∀ mandate, found = some mandate → IsNewest (firstMandatesOf serde store caseId) mandate := by
  have listed : Readable serde.mandate (store.list mandateNamespace mandateScanLimit) := by
    intro record member
    obtain ⟨stored, here, -⟩ := mem_list_iff.mp member
    exact readable record stored here
  obtain ⟨decoded, all, members⟩ := decodeAll_of_readable listed
  let own := (decoded.map Prod.fst).filter fun mandate => mandate.caseId = caseId
  have mem_own : ∀ mandate, mandate ∈ own ↔ mandate ∈ firstMandatesOf serde store caseId := by
    intro mandate
    simp only [own, mem_filter, mem_map, decide_eq_true_eq]
    apply Iff.intro
    · rintro ⟨⟨⟨document, version⟩, entry, rfl⟩, sameCase⟩
      obtain ⟨record, member, read, -⟩ := (members document version).mp entry
      obtain ⟨stored, here, early⟩ := mem_list_iff.mp member
      exact ⟨record, stored, here, early, read, sameCase⟩
    · rintro ⟨record, stored, here, early, read, sameCase⟩
      have entry := (members mandate record.version).mpr
        ⟨record, mem_list_iff.mpr ⟨stored, here, early⟩, read, rfl⟩
      exact ⟨⟨(mandate, record.version), entry, rfl⟩, sameCase⟩
  refine ⟨Search.latest Mandate.issuedAt own, ?_, ?_, ?_⟩
  · unfold MandateStore.latestForCase
    rw [alone_bind, list_alone steady]
    simp only [MandateStore.view, all]
    exact congrArg (fun found => (Except.ok found, fun step => inputs (step + 1), store))
      (foldl_eq_latest own)
  · intro nothing
    have empty := Search.latest_eq_none_iff.mp nothing
    ext mandate
    rw [← mem_own, empty]
    simp
  · intro mandate found
    refine ⟨(mem_own mandate).mp (Search.mem_of_latest found), fun other member => ?_⟩
    exact Search.le_of_latest found other ((mem_own other).mpr member)

theorem authorizeMandate_eq_allow_iff {request : MandateRequest} :
    authorizeMandate mandate request now = .allow ↔ mandate.permits request now = .allowed := by
  unfold authorizeMandate
  cases mandate.permits request now <;> simp

theorem authorizeMandate_ne_missing {request : MandateRequest} :
    authorizeMandate mandate request now ≠ .deny .mandateMissing := by
  unfold authorizeMandate
  cases mandate.permits request now with
  | allowed => simp
  | denied denial => cases denial <;> simp [mandateDenial]

theorem checkMandate_alone (readable : MandatesReadable serde store) (steady : Steady inputs)
    (requirement : ToolPolicy) (tool caseId : String) (now : Instant) :
    ∃ decision, (checkMandate serde requirement tool (some caseId) now).alone
        execute inputs store = (decision, fun step => inputs (step + 1), store) ∧
      ((firstMandatesOf serde store caseId = ∅ ∧ decision = .deny .mandateMissing) ∨
        ∃ mandate, IsNewest (firstMandatesOf serde store caseId) mandate ∧
          decision = authorizeMandate mandate
            { tool := some tool, action := some requirement.action } now) := by
  obtain ⟨found, alone, nothing, newest⟩ := latestForCase_alone readable steady caseId
  unfold checkMandate
  cases found with
  | none =>
    refine ⟨.deny .mandateMissing, ?_, .inl ⟨nothing rfl, rfl⟩⟩
    dsimp only
    rw [alone_bind]
    erw [alone]
    rfl
  | some mandate =>
    refine ⟨_, ?_, .inr ⟨mandate, newest mandate rfl, rfl⟩⟩
    dsimp only
    rw [alone_bind]
    erw [alone]
    rfl

theorem PolicySnapshot.evaluate_ne_missing {snapshot : PolicySnapshot} {permission : Permission} :
    snapshot.evaluate principal permission projectId now ≠ .deny .mandateMissing := by
  have grants : ∀ (grants : List Grant) (sawRevoked sawExpired : Bool),
      evaluateGrants permission projectId now grants sawRevoked sawExpired ≠
        .deny .mandateMissing := by
    intro grants
    induction grants with
    | nil =>
      intro sawRevoked sawExpired
      cases sawRevoked <;> cases sawExpired <;> simp [evaluateGrants]
    | cons grant rest ih =>
      intro sawRevoked sawExpired
      unfold evaluateGrants
      split_ifs
      · exact ih _ _
      · exact ih _ _
      · simp
      · exact ih _ _
  unfold evaluate
  split_ifs
  · simp
  · simp
  · exact grants _ _ _

theorem findApproved_alone (serde : PolicySerde Value) (store : RecordStore Value)
    (steady : Steady inputs) (tool : String) (caseId : Option String) (now : Instant) :
    ∃ found, (findApproved serde.approval tool caseId now).alone execute
      inputs store = (found, fun step => inputs (step + 1), store) := by
  unfold findApproved scan
  rw [alone_bind, alone_bind, list_alone steady]
  cases NamespacedStore.decodeAll serde.approval (store.list view.space approvalScanLimit) with
  | error error => exact ⟨_, rfl⟩
  | ok approvals => exact ⟨_, rfl⟩

theorem peekHumanTierPermit_alone (steady : Steady inputs) (engine : PolicyEngine)
    (principal : Principal) (projectId : Option String) (tool : String) (caseId : Option String)
    (now : Instant) :
    ∃ permit rest, (engine.peekHumanTierPermit serde principal projectId tool caseId now).alone
        execute inputs store = (permit, rest, store) ∧ Steady rest ∧
      ((engine.authorize principal .proactiveExecute projectId now).isAllowed = true →
        permit = .ok none) ∧
      ∀ decision, permit = .error decision →
        decision = .deny (.toolRequiresHumanApproval tool) := by
  unfold peekHumanTierPermit
  by_cases operator : (engine.authorize principal .proactiveExecute projectId now).isAllowed = true
  · rw [if_pos operator]
    exact ⟨_, _, rfl, steady, fun _ => rfl, nofun⟩
  · rw [if_neg operator]
    cases engine.approvals with
    | false =>
      refine ⟨_, _, rfl, steady, fun impossible => absurd impossible operator, ?_⟩
      rintro decision ⟨⟩
      rfl
    | true =>
      obtain ⟨found, alone⟩ := findApproved_alone serde store steady tool caseId now
      rw [if_pos rfl, alone_bind, alone]
      cases found with
      | error error =>
        refine ⟨_, _, rfl, steady.tail, fun impossible => absurd impossible operator, ?_⟩
        rintro decision ⟨⟩
        rfl
      | ok found =>
        cases found with
        | none =>
          refine ⟨_, _, rfl, steady.tail, fun impossible => absurd impossible operator, ?_⟩
          rintro decision ⟨⟩
          rfl
        | some approval =>
          exact ⟨_, _, rfl, steady.tail, fun impossible => absurd impossible operator, nofun⟩

theorem settleToolDecision_alone (engine : PolicyEngine) (permitId : Option String) (tool : String)
    (now : Instant) (inputs : Nat → Circumstance) (store : RecordStore Value) :
    ((engine.settleToolDecision serde permitId tool now).alone execute inputs store).1 =
        .allow ∨
      ((engine.settleToolDecision serde permitId tool now).alone execute inputs
        store).1 = .deny (.toolRequiresHumanApproval tool) := by
  unfold settleToolDecision
  cases permitId with
  | none => exact .inl rfl
  | some id =>
    cases engine.approvals with
    | false => exact .inr rfl
    | true =>
      simp only [if_true]
      rw [alone_bind]
      cases ((consume serde.approval id now).alone execute inputs store).1 with
      | ok approval => exact .inl rfl
      | error error => exact .inr rfl

inductive ToolChecked (firsts : Set Mandate) (request : MandateRequest) (now : Instant) :
    PolicyDecision → Prop where
  /-- It was denied for another reason than the want of a mandate. -/
  | elsewhere (reason : DenyReason) (other : reason ≠ .mandateMissing) :
      ToolChecked firsts request now (.deny reason)
  /-- No mandate of the case was found. -/
  | missing (nothing : firsts = ∅) : ToolChecked firsts request now (.deny .mandateMissing)
  /-- The newest of the mandates that were found permits the tool. -/
  | permitted (mandate : Mandate) (newest : IsNewest firsts mandate)
      (permits : mandate.permits request now = .allowed) : ToolChecked firsts request now .allow

/-- What the mandate of a case is asked about a tool. -/
def toolRequest (requirement : ToolPolicy) (tool : String) : MandateRequest :=
  { tool := some tool, action := some requirement.action }

theorem gate_alone (steady : Steady inputs) (engine : PolicyEngine) (principal : Principal)
    (tool : String) (projectId caseId : Option String) (now : Instant)
    (settle : ToolPolicy → Option String → StoreProgram Value PolicyDecision) :
    (∃ reason, reason ≠ .mandateMissing ∧
      ((engine.gate serde principal tool projectId caseId now settle).alone execute
        inputs store).1 = .deny reason) ∨
    ∃ permitId rest, Steady rest ∧
      (engine.gate serde principal tool projectId caseId now settle).alone execute
          inputs store =
        (settle (engine.tools.requirement tool) permitId).alone execute rest store := by
  unfold gate
  dsimp only
  cases known : (engine.tools.requirement tool).known with
  | false => exact .inl ⟨.toolNotPermitted tool, by simp, rfl⟩
  | true =>
    rw [if_neg (by simp)]
    cases held : engine.authorize principal
        (engine.tools.requirement tool).action.requiredPermission projectId now with
    | deny reason =>
      refine .inl ⟨reason, ?_, rfl⟩
      rintro rfl
      exact evaluate_ne_missing held
    | allow =>
      dsimp only
      cases (engine.tools.requirement tool).humanApproval with
      | false => exact .inr ⟨none, inputs, steady, rfl⟩
      | true =>
        obtain ⟨permit, rest, alone, steadyRest, -, denied⟩ :=
          peekHumanTierPermit_alone steady engine principal projectId tool caseId now
        rw [if_pos rfl, alone_bind, alone]
        cases permit with
        | ok permitId => exact .inr ⟨permitId, rest, steadyRest, rfl⟩
        | error decision =>
          rw [denied decision rfl]
          exact .inl ⟨_, by simp, rfl⟩

theorem gate_of_operator (engine : PolicyEngine) (principal : Principal) (tool : String)
    (projectId caseId : Option String) (now : Instant)
    (settle : ToolPolicy → Option String → StoreProgram Value PolicyDecision)
    (known : (engine.tools.requirement tool).known = true)
    (held : ∀ permission, engine.authorize principal permission projectId now = .allow) :
    engine.gate serde principal tool projectId caseId now settle =
      settle (engine.tools.requirement tool) none := by
  unfold gate peekHumanTierPermit
  simp only [known, held]
  cases (engine.tools.requirement tool).humanApproval <;> rfl

theorem authorizeTool_checked (engine : PolicyEngine) (principal : Principal) (tool : String)
    (projectId : Option String) (caseId : String) (now : Instant)
    (readable : MandatesReadable serde store) (steady : Steady inputs)
    (needsMandate : (engine.tools.requirement tool).requiresMandateScope = true) :
    ToolChecked (firstMandatesOf serde store caseId)
      (toolRequest (engine.tools.requirement tool) tool) now
      ((engine.authorizeTool serde principal tool projectId (some caseId) now).alone
        execute inputs store).1 := by
  unfold authorizeTool
  rcases gate_alone steady engine principal tool projectId (some caseId) now _ with
    ⟨reason, other, denied⟩ | ⟨permitId, rest, steadyRest, same⟩
  · rw [denied]
    exact .elsewhere reason other
  · obtain ⟨decision, alone, checked⟩ :=
      checkMandate_alone readable steadyRest (engine.tools.requirement tool) tool caseId now
    rw [same, needsMandate, if_neg (by simp), alone_bind, alone]
    rcases checked with ⟨nothing, rfl⟩ | ⟨mandate, newest, rfl⟩
    · exact .missing nothing
    · cases decided : authorizeMandate mandate (toolRequest (engine.tools.requirement tool) tool)
          now with
      | deny reason =>
        erw [decided]
        refine .elsewhere reason ?_
        rintro rfl
        exact authorizeMandate_ne_missing decided
      | allow =>
        erw [decided]
        rcases settleToolDecision_alone engine permitId tool now
          (fun step => rest (step + 1)) store with allowed | denied
        · erw [allowed]
          exact .permitted mandate newest (authorizeMandate_eq_allow_iff.mp decided)
        · erw [denied]
          exact .elsewhere _ (by simp)

theorem authorizeTool_unknown (unknown : (engine.tools.requirement tool).known = false) :
    ((engine.authorizeTool serde principal tool projectId (some caseId) now).alone
      execute inputs store).1 = .deny (.toolNotPermitted tool) := by
  unfold authorizeTool gate
  simp only [unknown]
  rfl

theorem authorizeTool_of_operator (engine : PolicyEngine) (principal : Principal) (tool : String)
    (projectId : Option String) (caseId : String) (now : Instant)
    (readable : MandatesReadable serde store) (steady : Steady inputs)
    (known : (engine.tools.requirement tool).known = true)
    (held : ∀ permission, engine.authorize principal permission projectId now = .allow)
    (needsMandate : (engine.tools.requirement tool).requiresMandateScope = true) :
    (firstMandatesOf serde store caseId = ∅ ∧
      ((engine.authorizeTool serde principal tool projectId (some caseId) now).alone
        execute inputs store).1 = .deny .mandateMissing) ∨
    ∃ mandate, IsNewest (firstMandatesOf serde store caseId) mandate ∧
      ((engine.authorizeTool serde principal tool projectId (some caseId) now).alone
        execute inputs store).1 =
          authorizeMandate mandate (toolRequest (engine.tools.requirement tool) tool) now := by
  unfold authorizeTool
  obtain ⟨decision, alone, checked⟩ :=
    checkMandate_alone readable steady (engine.tools.requirement tool) tool caseId now
  rw [gate_of_operator engine principal tool projectId (some caseId) now _ known held, needsMandate,
    if_neg (by simp), alone_bind, alone]
  rcases checked with ⟨nothing, rfl⟩ | ⟨mandate, newest, rfl⟩
  · exact .inl ⟨nothing, rfl⟩
  · refine .inr ⟨mandate, newest, ?_⟩
    unfold toolRequest
    cases authorizeMandate mandate _ now with
    | allow | deny reason => rfl

/-- However it is asked about, a tool is allowed only by the newest mandate of the case, and
denied for want of a mandate only where the case has none. -/
def DecidedByNewest (serde : PolicySerde Value) (tools : ToolPolicyTable) (tool caseId : String)
    (now : Instant) (store : RecordStore Value) : Prop :=
  ∀ snapshot approvals principal projectId inputs, Steady inputs →
    let decision := ((authorizeTool serde ⟨snapshot, tools, approvals⟩ principal tool
      projectId (some caseId) now).alone execute inputs store).1
    (decision = .allow → ∃ newest, IsNewest (mandatesOf serde store caseId) newest ∧
      newest.permits (toolRequest (tools.requirement tool) tool) now = .allowed) ∧
    (decision = .deny .mandateMissing → mandatesOf serde store caseId = ∅)

/-- The tool is not known, or the case has no mandate, or it has one among the first ones, and
the newest of those permits the tool only where the newest of all does. -/
def NewestSeen (serde : PolicySerde Value) (tools : ToolPolicyTable) (tool caseId : String)
    (now : Instant) (store : RecordStore Value) : Prop :=
  (tools.requirement tool).known = false ∨ mandatesOf serde store caseId = ∅ ∨
    ((firstMandatesOf serde store caseId).Nonempty ∧
      ∀ seen newest, IsNewest (firstMandatesOf serde store caseId) seen →
        IsNewest (mandatesOf serde store caseId) newest →
        seen.permits (toolRequest (tools.requirement tool) tool) now = .allowed →
        newest.permits (toolRequest (tools.requirement tool) tool) now = .allowed)

theorem finite_mandatesOf (serde : PolicySerde Value) (store : RecordStore Value)
    (caseId : String) : (mandatesOf serde store caseId).Finite := by
  refine (finite_toSet (store.rows.filterMap fun record =>
    (serde.mandate.decode record.value).toOption)).subset ?_
  rintro mandate ⟨record, member, -, read, -⟩
  exact mem_filterMap.mpr ⟨record, member, by rw [read]; rfl⟩

theorem exists_isNewest (some : (mandatesOf serde store caseId).Nonempty) :
    ∃ newest, IsNewest (mandatesOf serde store caseId) newest :=
  Set.exists_max_image _ Mandate.issuedAt (finite_mandatesOf serde store caseId) some

def operatorSnapshot : PolicySnapshot where
  grants := [{
    principal := ⟨.user, "operator"⟩
    permissions := [.taskSubmit, .taskRead, .taskControl, .caseCreate, .caseRead, .caseControl,
      .mandateIssue, .mandateRevoke, .triggerIngest, .workerScale, .memoryWrite, .mergeGrant,
      .attentionResolve, .proactivePropose, .proactiveExecute] }]

theorem operatorSnapshot_evaluate (permission : Permission) (now : Instant) :
    operatorSnapshot.evaluate ⟨.user, "operator"⟩ permission none now = .allow := by
  cases permission <;> rfl

/-- Tools are decided by the newest mandate of a case exactly where it is seen, or another one
that permits no more. -/
theorem decidedByNewest_iff {tools : ToolPolicyTable} (readable : MandatesReadable serde store)
    (apart : IssuedApart serde store caseId)
    (needsMandate : (tools.requirement tool).requiresMandateScope = true) :
    DecidedByNewest serde tools tool caseId now store ↔
      NewestSeen serde tools tool caseId now store := by
  apply Iff.intro
  · intro decided
    unfold NewestSeen
    cases known : (tools.requirement tool).known with
    | false => exact .inl rfl
    | true =>
      refine .inr ?_
      by_cases nothing : mandatesOf serde store caseId = ∅
      · exact .inl nothing
      · refine .inr ?_
        let engine : PolicyEngine := ⟨operatorSnapshot, tools, false⟩
        have steady : Steady fun _ => ⟨0, none⟩ := fun _ => rfl
        obtain ⟨allowed, missing⟩ :=
          decided operatorSnapshot false ⟨.user, "operator"⟩ none _ steady
        rcases authorizeTool_of_operator engine ⟨.user, "operator"⟩ tool none caseId now readable
            steady known (operatorSnapshot_evaluate · now) needsMandate with
          ⟨-, denied⟩ | ⟨mandate, first, same⟩
        · exact absurd (missing denied) nothing
        · refine ⟨⟨mandate, first.1⟩, fun seen newest seenNewest newestNewest permits => ?_⟩
          obtain rfl := first.eq apart firstMandatesOf_subset seenNewest
          obtain ⟨other, otherNewest, otherPermits⟩ :=
            allowed (same.trans (authorizeMandate_eq_allow_iff.mpr permits))
          obtain rfl := otherNewest.eq apart subset_rfl newestNewest
          exact otherPermits
  · intro seen snapshot approvals principal projectId inputs steady
    dsimp only
    have checked := authorizeTool_checked ⟨snapshot, tools, approvals⟩ principal tool projectId
      caseId now readable steady needsMandate
    refine ⟨fun allowed => ?_, fun missing => ?_⟩
    · rw [allowed] at checked
      cases checked with
      | permitted mandate first permits =>
        obtain ⟨newest, newestNewest⟩ := exists_isNewest ⟨mandate, firstMandatesOf_subset first.1⟩
        refine ⟨newest, newestNewest, ?_⟩
        rcases seen with unknown | nothing | ⟨-, permitsNewest⟩
        · exact absurd (allowed.symm.trans (authorizeTool_unknown unknown)) (by simp)
        · rw [nothing] at newestNewest
          exact absurd newestNewest.1 (Set.notMem_empty _)
        · exact permitsNewest mandate newest first newestNewest permits
    · rw [missing] at checked
      rcases seen with unknown | nothing | ⟨⟨mandate, first⟩, -⟩
      · exact absurd (missing.symm.trans (authorizeTool_unknown unknown)) (by simp)
      · exact nothing
      · cases checked with
        | elsewhere _ other => exact absurd rfl other
        | missing nothing =>
          rw [nothing] at first
          exact absurd first (Set.notMem_empty _)

def shellMandate (id caseId : String) : Mandate :=
  .new id caseId ⟨.user, "alice"⟩ .humanIssued [.tool "Bash", .action .execute] 1 0

def mandateRecord (mandate : Mandate) : Record (ToolApproval ⊕ Mandate) :=
  ⟨mandateNamespace, mandate.id, 1, .inr mandate, 0⟩

/-- The ids of mandates of another case. -/
def otherId (index : Nat) : String := String.ofList (replicate index 'a')

theorem otherId_lt (index : Nat) : otherId index < "b" := by
  rw [String.lt_iff_toList_lt, otherId, String.toList_ofList]
  cases index with
  | zero => decide
  | succ index => exact cons_lt_cons_iff.mpr (.inl (by decide))

theorem otherId_injective : Function.Injective otherId := by
  intro first second same
  have lists := congrArg (fun id => id.toList.length) same
  simpa [otherId] using lists

theorem distinct_crowded {Value : Type} {count : Nat} {others : Nat → Record Value}
    {own : Record Value} (keys : ∀ index, (others index).key = otherId index)
    (last : own.key = "b") :
    ((range count).map others ++ [own]).Pairwise fun first second =>
      ¬ (first.space = second.space ∧ first.key = second.key) := by
  refine pairwise_append.mpr ⟨pairwise_map.mpr (nodup_range.imp ?_), pairwise_singleton _ _, ?_⟩
  · rintro first second apart ⟨-, same⟩
    rw [keys, keys] at same
    exact apart (otherId_injective same)
  · intro record member other otherMem
    obtain ⟨index, -, rfl⟩ := mem_map.mp member
    rw [mem_singleton.mp otherMem]
    rintro ⟨-, same⟩
    rw [keys, last] at same
    exact (otherId_lt index).ne same

def crowdedStore : RecordStore (ToolApproval ⊕ Mandate) where
  rows :=
    ((range 256).map fun index => mandateRecord (shellMandate (otherId index) "case-2")) ++
      [mandateRecord (shellMandate "b" "case-1")]
  distinct := distinct_crowded (fun _ => rfl) rfl

theorem mem_crowdedStore {record : Record (ToolApproval ⊕ Mandate)}
    (member : record ∈ crowdedStore.rows) :
    (∃ index, record = mandateRecord (shellMandate (otherId index) "case-2")) ∨
      record = mandateRecord (shellMandate "b" "case-1") := by
  rcases mem_append.mp member with other | own
  · obtain ⟨index, -, rfl⟩ := mem_map.mp other
    exact .inl ⟨index, rfl⟩
  · exact .inr (mem_singleton.mp own)

theorem readable_crowdedStore : MandatesReadable plainPolicy crowdedStore := by
  intro record member _
  rcases mem_crowdedStore member with ⟨index, rfl⟩ | rfl
  · exact ⟨_, rfl⟩
  · exact ⟨_, rfl⟩

theorem eq_of_mem_crowdedStore {mandate : Mandate}
    (member : mandate ∈ mandatesOf plainPolicy crowdedStore "case-1") :
    mandate = shellMandate "b" "case-1" := by
  obtain ⟨record, stored, -, read, own⟩ := member
  rcases mem_crowdedStore stored with ⟨index, rfl⟩ | rfl
  · obtain rfl := Except.ok.inj read
    exact absurd (show "case-2" = "case-1" from own) (by decide)
  · exact (Except.ok.inj read).symm

theorem mem_mandatesOf_crowdedStore :
    shellMandate "b" "case-1" ∈ mandatesOf plainPolicy crowdedStore "case-1" :=
  ⟨_, mem_append_right _ mem_cons_self, rfl, rfl, rfl⟩

theorem issuedApart_crowdedStore : IssuedApart plainPolicy crowdedStore "case-1" := by
  intro first firstMem second secondMem _
  rw [eq_of_mem_crowdedStore firstMem, eq_of_mem_crowdedStore secondMem]

theorem rank_crowdedStore : crowdedStore.rank mandateNamespace "b" = 256 := by
  let own := mandateRecord (shellMandate "b" "case-1")
  have rows : crowdedStore.rows = ((range 256).map fun index =>
      mandateRecord (shellMandate (otherId index) "case-2")) ++ [own] := rfl
  have smaller : ∀ other ∈ (range 256).map fun index =>
      mandateRecord (shellMandate (otherId index) "case-2"),
      other.space = mandateNamespace ∧ other.key < own.key := by
    intro other member
    obtain ⟨index, -, rfl⟩ := mem_map.mp member
    exact ⟨rfl, otherId_lt index⟩
  have ranked := rank_of_last rows smaller
  rwa [length_map, length_range] at ranked

theorem decidedByNewest_iff_crowded :
    DecidedByNewest plainPolicy .builtin "Bash" "case-1" 0 crowdedStore ↔
      NewestSeen plainPolicy .builtin "Bash" "case-1" 0 crowdedStore :=
  decidedByNewest_iff readable_crowdedStore issuedApart_crowdedStore (by decide +kernel)

/-- The one mandate of the case is not seen behind 256 mandates of another case: the operator is
denied for want of a mandate. -/
theorem decidedByNewest_fails_crowded :
    MandatesReadable plainPolicy crowdedStore ∧ IssuedApart plainPolicy crowdedStore "case-1" ∧
    (ToolPolicyTable.builtin.requirement "Bash").requiresMandateScope = true ∧
    IsNewest (mandatesOf plainPolicy crowdedStore "case-1") (shellMandate "b" "case-1") ∧
    (shellMandate "b" "case-1").permits
      (toolRequest (ToolPolicyTable.builtin.requirement "Bash") "Bash") 0 = .allowed ∧
    ((authorizeTool plainPolicy ⟨operatorSnapshot, .builtin, false⟩
      ⟨.user, "operator"⟩ "Bash" none (some "case-1") 0).alone execute
      (fun _ => ⟨0, none⟩) crowdedStore).1 = .deny .mandateMissing ∧
    ¬ DecidedByNewest plainPolicy .builtin "Bash" "case-1" 0 crowdedStore := by
  have newest : IsNewest (mandatesOf plainPolicy crowdedStore "case-1")
      (shellMandate "b" "case-1") :=
    ⟨mem_mandatesOf_crowdedStore, fun other member => by rw [eq_of_mem_crowdedStore member]⟩
  have unseen : firstMandatesOf plainPolicy crowdedStore "case-1" = ∅ := by
    ext mandate
    simp only [Set.mem_empty_iff_false, iff_false]
    rintro ⟨record, stored, here, first, read, own⟩
    rcases mem_crowdedStore stored with ⟨index, rfl⟩ | rfl
    · obtain rfl := Except.ok.inj read
      exact absurd (show "case-2" = "case-1" from own) (by decide)
    · have early : crowdedStore.rank mandateNamespace "b" < 256 := first
      rw [rank_crowdedStore] at early
      exact lt_irrefl _ early
  have denied : ((authorizeTool plainPolicy ⟨operatorSnapshot, .builtin, false⟩
      ⟨.user, "operator"⟩ "Bash" none (some "case-1") 0).alone execute
      (fun _ => ⟨0, none⟩) crowdedStore).1 = .deny .mandateMissing := by
    have steady : Steady fun _ => ⟨0, none⟩ := fun _ => rfl
    rcases authorizeTool_of_operator ⟨operatorSnapshot, .builtin, false⟩ ⟨.user, "operator"⟩ "Bash"
      none "case-1" 0 readable_crowdedStore steady (by decide +kernel)
      (operatorSnapshot_evaluate · 0) (by decide +kernel) with ⟨-, denied⟩ | ⟨mandate, first, -⟩
    · exact denied
    · rw [unseen] at first
      exact absurd first.1 (Set.notMem_empty _)
  refine ⟨readable_crowdedStore, issuedApart_crowdedStore, by decide +kernel, newest, by rfl,
    denied, ?_⟩
  intro decided
  have missing := (decided operatorSnapshot false ⟨.user, "operator"⟩ none (fun _ => ⟨0, none⟩)
    (fun _ => rfl)).2 denied
  rw [missing] at newest
  exact absurd newest.1 (Set.notMem_empty _)

end UltimateCoders.Governance
