import UltimateCoders.Governance.SpentOnce

/-! # Asking again

A request whose id has a document finds that document, whatever has become of it. Where it has
been refused, spent or closed, or its lifetime has run out, asking again brings nothing that a
human could decide or that could be used.
-/

namespace UltimateCoders.Governance

open Transition RecordStore ToolApproval
open Program (alone perform)

universe u

variable {Index : Type u} {Value : Type} {serde : PolicySerde Value} {sha256Hex : String → String}
  {calls : Index → ApprovalCall} {start store : RecordStore Value} {approval existing : ToolApproval}
  {inputs : Nat → Circumstance} {now : Instant}

/-- The stored approval can be decided or used. -/
def OpenApproval (serde : PolicySerde Value) (store : RecordStore Value) (id : String)
    (now : Instant) : Prop :=
  ∃ approval, storedApproval serde store id = some approval ∧
    (approval.isDecidable now = true ∨ approval.isUsable now = true)

theorem ToolApproval.isOpen_iff : (approval.isDecidable now = true ∨ approval.isUsable now = true) ↔
    approval.state.isTerminal = false ∧ now < approval.expiresAt := by
  unfold isDecidable isUsable isPending
  cases approval.state <;> simp [ApprovalState.isTerminal]

theorem ToolApproval.isDecidable_ofRequest (asked : ApprovalRequest) (now : Instant)
    (ttl : Option Int) : (ofRequest sha256Hex asked now ttl).isDecidable now = true := by
  have later : now < (ofRequest sha256Hex asked now ttl).expiresAt := by
    refine Int.lt_add_of_pos_right now ?_
    cases ttl with
    | none => decide
    | some ttl => exact lt_of_lt_of_le (by decide) (le_max_left _ _)
  simpa [isDecidable] using ⟨rfl, later⟩

theorem approvalGet_alone {record : Record Value} {id : String}
    (found : store.get approvalNamespace id = some record) (inputs : Nat → Circumstance) :
    (ApprovalStore.get serde.approval id).alone execute inputs store =
      (match (inputs 0).failure, serde.approval.decode record.value with
        | some detail, _ => .error (.store (.backend detail))
        | none, .ok existing => .ok (some (existing, record.version))
        | none, .error detail => .error (.store (.decode id detail)),
        fun step => inputs (step + 1), store) := by
  rcases first : inputs 0 with ⟨now, failure⟩
  cases failure with
  | some detail =>
    simp only [ApprovalStore.get, NamespacedStore.get, bind, Program.bind, perform,
      alone, first, execute, StoreOperation.refuse]
    rfl
  | none =>
    simp only [ApprovalStore.get, NamespacedStore.get, bind, Program.bind, perform,
      alone, first, execute, ApprovalStore.view, found]
    cases serde.approval.decode record.value with
    | ok existing | error detail => rfl

theorem request_alone_found (serde : PolicySerde Value) (approval : ToolApproval)
    {record : Record Value} (inputs : Nat → Circumstance)
    (found : store.get approvalNamespace approval.id = some record) (positive : record.version ≠ 0)
    (steady : (inputs 0).failure = none) :
    (ApprovalStore.request serde.approval approval).alone execute inputs store =
      (match (inputs 1).failure, serde.approval.decode record.value with
        | some detail, _ => .error (.store (.backend detail))
        | none, .ok existing => .ok (existing, false)
        | none, .error detail => .error (.store (.decode approval.id detail)),
        fun step => inputs (step + 2), store) := by
  have conflict : store.put approvalNamespace approval.id (serde.approval.encode approval) (some 0)
      (inputs 0).now = (.error (.conflict 0 (some record.version)), store) := by
    simp [put, found, casConflict, positive]
  simp only [ApprovalStore.request, bind, Program.bind, perform, NamespacedStore.put,
    alone, execute, steady, ApprovalStore.view, conflict]
  change (ApprovalStore.get serde.approval approval.id >>= _).alone _ _ _ = _
  rw [Program.alone_bind, approvalGet_alone found]
  cases (inputs 1).failure with
  | some detail => rfl
  | none =>
    cases serde.approval.decode record.value with
    | ok existing | error detail => rfl

theorem request_alone_absent {inputs : Nat → Circumstance}
    (absent : store.get approvalNamespace approval.id = none) (steady : (inputs 0).failure = none) :
    storedApproval serde ((ApprovalStore.request serde.approval approval).alone execute
      inputs store).2.2 approval.id = some approval := by
  have created : store.put approvalNamespace approval.id (serde.approval.encode approval) (some 0)
      (inputs 0).now = (.ok ⟨approvalNamespace, approval.id, 1, serde.approval.encode approval,
        (inputs 0).now⟩, store.insert ⟨approvalNamespace, approval.id, 1,
        serde.approval.encode approval, (inputs 0).now⟩) := by
    simp [put, absent, casConflict]
  simp only [ApprovalStore.request, bind, Program.bind, perform, NamespacedStore.put,
    alone, execute, steady, ApprovalStore.view, created]
  exact storedApproval_of_get get_insert_self (serde.approval.decode_encode _)

theorem request_alone_failed {inputs : Nat → Circumstance} {detail : String}
    (failed : (inputs 0).failure = some detail) :
    ((ApprovalStore.request serde.approval approval).alone execute inputs store).1 =
      .error (.store (.backend detail)) := by
  simp only [ApprovalStore.request, bind, Program.bind, perform, NamespacedStore.put,
    alone, execute, failed, StoreOperation.refuse]
  rfl

/-- After the request was answered, its document can be decided or used. -/
def AsksAgain (serde : PolicySerde Value) (sha256Hex : String → String) (asked : ApprovalRequest)
    (now : Instant) (ttl : Option Int) (store : RecordStore Value) : Prop :=
  ∀ inputs answer,
    ((ApprovalStore.request serde.approval (.ofRequest sha256Hex asked now ttl)).alone
      execute inputs store).1 = .ok answer →
    OpenApproval serde
      ((ApprovalStore.request serde.approval (.ofRequest sha256Hex asked now ttl)).alone
        execute inputs store).2.2 (approvalId sha256Hex asked) now

/-- After any history a request that is answered can be decided or used if and only if there was
no document under its id, or one that has come to no end and is in time. -/
theorem asksAgain_iff [DecidableEq Index] (clear : ∀ key, start.get approvalNamespace key = none)
    {session : ApprovalSession Index Value} {moves : List (Index × Circumstance)}
    (run : Run (serves execute) (deciding serde sha256Hex calls start) moves session)
    (asked : ApprovalRequest) (now : Instant) (ttl : Option Int) :
    AsksAgain serde sha256Hex asked now ttl session.store ↔
      ∀ existing, storedApproval serde session.store (approvalId sha256Hex asked) = some existing →
        existing.state.isTerminal = false ∧ now < existing.expiresAt := by
  have account := accounted_of_deciding (.of_clear clear) run
  have positive : ∀ record,
      session.store.get approvalNamespace (approvalId sha256Hex asked) = some record →
      record.version ≠ 0 := by
    intro record found
    rw [account.store_eq] at found
    refine version_ne_zero account.proper (fun record initial => ?_) found
    rw [clear] at initial
    cases initial
  constructor
  · intro asks existing stored
    obtain ⟨record, found, decoded⟩ := get_of_storedApproval stored
    -- served without a failure, the request finds the document and leaves it as it is
    let steady : Nat → Circumstance := fun _ => ⟨now, none⟩
    have served : (ApprovalStore.request serde.approval (.ofRequest sha256Hex asked now ttl)).alone
        execute steady session.store =
        (.ok (existing, false), fun step => steady (step + 2), session.store) := by
      have read := request_alone_found serde (.ofRequest sha256Hex asked now ttl) steady found
        (positive record found) rfl
      rw [decoded] at read
      exact read
    have opened := asks steady (existing, false) (by rw [served])
    rw [served] at opened
    obtain ⟨current, present, isOpen⟩ := opened
    rw [stored, Option.some.injEq] at present
    subst present
    exact isOpen_iff.mp isOpen
  · intro inTime inputs answer answered
    cases failed : (inputs 0).failure with
    | some detail =>
      rw [request_alone_failed failed] at answered
      cases answered
    | none =>
      cases found : session.store.get approvalNamespace (approvalId sha256Hex asked) with
      | none =>
        exact ⟨_, request_alone_absent found failed, .inl (isDecidable_ofRequest asked now ttl)⟩
      | some record =>
        have served := request_alone_found serde (.ofRequest sha256Hex asked now ttl) inputs
          found (positive record found) failed
        rw [served] at answered ⊢
        cases late : (inputs 1).failure with
        | some detail =>
          rw [late] at answered
          cases answered
        | none =>
          cases decoded : serde.approval.decode record.value with
          | error detail =>
            rw [late, decoded] at answered
            cases answered
          | ok existing =>
            have stored := storedApproval_of_get found decoded
            exact ⟨existing, stored, isOpen_iff.mpr (inTime existing stored)⟩

/-- A permit is asked for, and a human refuses it. -/
def refusedCalls : Nat → ApprovalCall
  | 0 => .request scaleRequest 0 none
  | _ => .reject (approvalId scaleDigest scaleRequest) ⟨.user, "bob"⟩ (some "not now") 1

def refusedSession (indices : List Nat) : ApprovalSession Nat (ToolApproval ⊕ Mandate) :=
  (indices.map fun index => (index, ⟨5, none⟩)).foldl (Session.serve execute)
    (deciding plainPolicy scaleDigest refusedCalls .empty)

theorem asksAgain_iff_pending :
    AsksAgain plainPolicy scaleDigest scaleRequest 2 none (refusedSession [0]).store := by
  have history : Run (serves execute)
      (deciding plainPolicy scaleDigest refusedCalls .empty)
      ([0].map fun index => (index, ⟨5, none⟩)) (refusedSession [0]) := run_serves _ _
  apply (asksAgain_iff (fun _ => rfl) history scaleRequest 2 none).mpr
  intro existing stored
  have found : storedApproval plainPolicy (refusedSession [0]).store
      (approvalId scaleDigest scaleRequest) =
        some (.ofRequest scaleDigest scaleRequest 0 none) := rfl
  rw [found, Option.some.injEq] at stored
  subst stored
  exact ⟨rfl, by decide +kernel⟩

/-- A year after the refusal the request finds the refused document. -/
theorem asksAgain_fails_refused :
    Run (serves execute) (deciding plainPolicy scaleDigest refusedCalls .empty)
      ([0, 1, 1].map fun index => (index, ⟨5, none⟩)) (refusedSession [0, 1, 1]) ∧
    ¬ AsksAgain plainPolicy scaleDigest scaleRequest (365 * 24 * 60 * minute) none
      (refusedSession [0, 1, 1]).store := by
  refine ⟨run_serves _ _, fun asks => ?_⟩
  have found : storedApproval plainPolicy (refusedSession [0, 1, 1]).store
      (approvalId scaleDigest scaleRequest) = some { ofRequest scaleDigest scaleRequest 0
        none with
          state := .rejected, decidedAt := some 1, decidedBy := some ⟨.user, "bob"⟩,
          note := some "not now" } := rfl
  obtain ⟨current, present, isOpen⟩ := asks (fun _ => ⟨5, none⟩) _ rfl
  have same : storedApproval plainPolicy (refusedSession [0, 1, 1]).store
      (approvalId scaleDigest scaleRequest) = some current := present
  rw [found, Option.some.injEq] at same
  subst same
  exact absurd (isOpen_iff.mp isOpen).1 (by decide)

end UltimateCoders.Governance
