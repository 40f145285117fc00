import UltimateCoders.Governance.PermitScope
import UltimateCoders.Governance.Recovery

/-! # When submissions are the same

A request has a digest of its content and, if its caller sends no key, an id that is derived
from it. Both are hashes of texts that join the parts of the request with a separator. Parts
may contain the separator, and the derived id does not read the case of the request.
-/

namespace UltimateCoders.Governance

open Transition

universe u

variable {sha256Hex : String → String} {requests : Set SubmissionRequest}
  {first second request : SubmissionRequest}

/-- A request of a caller with or without a key. -/
def SubmissionRequest.new (sha256Hex : String → String) (principal : Principal)
    (projectId description : String) (submissionId : Option String) : SubmissionRequest where
  submissionId := submissionId.getD (deriveSubmissionId sha256Hex principal projectId description)
  principal := principal
  projectId := projectId
  description := description
  caseId := none

open SubmissionRequest

def SubmissionRequest.withCase (request : SubmissionRequest) (caseId : String) :
    SubmissionRequest :=
  { request with caseId := some caseId }

/-- The request has the id that is derived for a caller without a key. -/
def SubmissionRequest.Keyless (sha256Hex : String → String) (request : SubmissionRequest) : Prop :=
  request.submissionId = deriveSubmissionId sha256Hex request.principal request.projectId
    request.description

structure SubmissionRequest.SameContent (first second : SubmissionRequest) : Prop where
  project : first.projectId = second.projectId
  description : normalizeRequest first.description = normalizeRequest second.description
  case : first.caseId = second.caseId

def SubmissionRequest.taskText (request : SubmissionRequest) : String :=
  request.projectId ++ "\x00" ++ normalizeRequest request.description

/-- The text of project, description and case, if there is one. -/
def SubmissionRequest.contentText (request : SubmissionRequest) : String :=
  match request.caseId with
  | some caseId => request.taskText ++ "\x00" ++ caseId
  | none => request.taskText

def SubmissionRequest.ownerText (request : SubmissionRequest) : String :=
  request.principal.display ++ "|" ++ request.projectId

/-- The text of a derived id. -/
def SubmissionRequest.identityText (sha256Hex : String → String) (request : SubmissionRequest) :
    String :=
  request.ownerText ++ "|" ++ sha256Hex request.taskText

theorem SubmissionRequest.digest_eq (request : SubmissionRequest) :
    request.digest sha256Hex = sha256Hex request.contentText := rfl

theorem SubmissionRequest.Keyless.id_eq (keyless : request.Keyless sha256Hex) :
    request.submissionId =
      "auto-" ++ String.ofList ((sha256Hex (request.identityText sha256Hex)).toList.take 32) :=
  keyless

/-- What stands behind the description. -/
def SubmissionRequest.caseTail (request : SubmissionRequest) : List Char :=
  (request.caseId.map fun caseId => '\x00' :: caseId.toList).getD []

theorem SubmissionRequest.taskText_toList (request : SubmissionRequest) :
    request.taskText.toList = request.projectId.toList ++ '\x00' ::
      (normalizeRequest request.description).toList := by
  simp [taskText]

theorem SubmissionRequest.contentText_toList (request : SubmissionRequest) :
    request.contentText.toList = request.projectId.toList ++ '\x00' ::
      ((normalizeRequest request.description).toList ++ request.caseTail) := by
  unfold contentText caseTail
  cases request.caseId with
  | none | some caseId => simp [taskText_toList]

theorem SubmissionRequest.caseId_eq_of_caseTail_eq (same : first.caseTail = second.caseTail) :
    first.caseId = second.caseId := by
  unfold caseTail at same
  cases firstCase : first.caseId with
  | none => cases secondCase : second.caseId <;> simp_all
  | some caseId =>
    cases secondCase : second.caseId with
    | none => simp_all
    | some other =>
      rw [firstCase, secondCase] at same
      simpa [String.toList_inj] using same

theorem Principal.display_toList (principal : Principal) :
    principal.display.toList = principal.kind.asStr.toList ++ ':' :: principal.id.toList := by
  simp [display]

theorem PrincipalKind.colon_notMem_asStr (kind : PrincipalKind) : ':' ∉ kind.asStr.toList := by
  cases kind <;> decide +kernel

theorem Principal.display_injective : Function.Injective Principal.display := by
  intro first second same
  have lists := congrArg String.toList same
  rw [display_toList, display_toList] at lists
  obtain ⟨kind, id⟩ := Text.eq_of_cut_eq lists (PrincipalKind.colon_notMem_asStr _)
    (PrincipalKind.colon_notMem_asStr _)
  exact Principal.eq_of_parts (PrincipalKind.asStr_injective kind) (String.toList_injective id)

/-- The hash tells apart the texts of these requests, also as far as ids keep it, and its
digits are no separators. -/
structure TellsApart (sha256Hex : String → String) (requests : Set SubmissionRequest) : Prop where
  content : ∀ first ∈ requests, ∀ second ∈ requests,
    sha256Hex first.contentText = sha256Hex second.contentText →
      first.contentText = second.contentText
  task : ∀ first ∈ requests, ∀ second ∈ requests,
    sha256Hex first.taskText = sha256Hex second.taskText → first.taskText = second.taskText
  identity : ∀ first ∈ requests, ∀ second ∈ requests,
    (sha256Hex (first.identityText sha256Hex)).toList.take 32 =
        (sha256Hex (second.identityText sha256Hex)).toList.take 32 →
      first.identityText sha256Hex = second.identityText sha256Hex
  digits : ∀ text, '|' ∉ (sha256Hex text).toList

/-- Where the texts of two requests are the same, no separator is part of a text on one side
and a separator on the other; and who submits a task without a key submits it for one case. -/
structure Separated (sha256Hex : String → String) (requests : Set SubmissionRequest) : Prop where
  content : ∀ first ∈ requests, ∀ second ∈ requests, first.contentText = second.contentText →
    first.projectId.length = second.projectId.length ∧
      (normalizeRequest first.description).length = (normalizeRequest second.description).length
  owner : ∀ first ∈ requests, ∀ second ∈ requests, first.Keyless sha256Hex →
    second.Keyless sha256Hex → first.ownerText = second.ownerText →
    first.taskText = second.taskText → first.projectId.length = second.projectId.length
  case : ∀ first ∈ requests, ∀ second ∈ requests, first.Keyless sha256Hex →
    second.Keyless sha256Hex → first.principal = second.principal →
    first.projectId = second.projectId →
    normalizeRequest first.description = normalizeRequest second.description →
    first.caseId = second.caseId

theorem length_toList_eq {first second : String} (same : first.length = second.length) :
    first.toList.length = second.toList.length := by
  rw [String.length_toList, String.length_toList, same]

theorem SubmissionRequest.sameContent_of_text (same : first.contentText = second.contentText)
    (project : first.projectId.length = second.projectId.length)
    (description : (normalizeRequest first.description).length =
      (normalizeRequest second.description).length) : first.SameContent second := by
  have lists := congrArg String.toList same
  rw [contentText_toList, contentText_toList] at lists
  obtain ⟨projects, rest⟩ := List.append_inj lists (length_toList_eq project)
  obtain ⟨descriptions, tails⟩ :=
    List.append_inj (List.cons.inj rest).2 (length_toList_eq description)
  exact ⟨String.toList_injective projects, String.toList_injective descriptions,
    caseId_eq_of_caseTail_eq tails⟩

theorem SubmissionRequest.SameContent.text_eq (same : first.SameContent second) :
    first.contentText = second.contentText := by
  simp only [contentText, taskText, same.project, same.description, same.case]

theorem SubmissionRequest.SameContent.taskText_eq (same : first.SameContent second) :
    first.taskText = second.taskText := by
  simp only [taskText, same.project, same.description]

theorem SubmissionRequest.texts_of_identityText (apart : TellsApart sha256Hex requests)
    (firstMem : first ∈ requests) (secondMem : second ∈ requests)
    (same : first.identityText sha256Hex = second.identityText sha256Hex) :
    first.ownerText = second.ownerText ∧ first.taskText = second.taskText := by
  have lists := congrArg String.toList same
  simp only [identityText, String.toList_append] at lists
  rw [List.append_assoc, List.append_assoc] at lists
  have owners := Text.eq_of_append_cons_eq lists (apart.digits _) (apart.digits _)
  rw [owners] at lists
  have digests := (List.cons.inj (List.append_cancel_left lists)).2
  exact ⟨String.toList_injective owners,
    apart.task first firstMem second secondMem (String.toList_injective digests)⟩

theorem SubmissionRequest.identityText_eq_of_texts (owner : first.ownerText = second.ownerText)
    (task : first.taskText = second.taskText) :
    first.identityText sha256Hex = second.identityText sha256Hex := by
  simp only [identityText, owner, task]

theorem SubmissionRequest.parts_of_texts (owner : first.ownerText = second.ownerText)
    (task : first.taskText = second.taskText)
    (project : first.projectId.length = second.projectId.length) :
    first.principal = second.principal ∧ first.projectId = second.projectId ∧
      normalizeRequest first.description = normalizeRequest second.description := by
  have lists := congrArg String.toList task
  rw [taskText_toList, taskText_toList] at lists
  obtain ⟨projects, rest⟩ := List.append_inj lists (length_toList_eq project)
  have same := String.toList_injective projects
  unfold ownerText at owner
  rw [same] at owner
  exact ⟨Principal.display_injective (by simpa using owner), same,
    String.toList_injective (List.cons.inj rest).2⟩

theorem TellsApart.id_eq_iff (apart : TellsApart sha256Hex requests) (firstMem : first ∈ requests)
    (secondMem : second ∈ requests) (firstKeyless : first.Keyless sha256Hex)
    (secondKeyless : second.Keyless sha256Hex) :
    first.submissionId = second.submissionId ↔
      first.identityText sha256Hex = second.identityText sha256Hex := by
  rw [firstKeyless.id_eq, secondKeyless.id_eq, String.append_right_inj]
  apply Iff.intro
  · intro same
    exact apart.identity first firstMem second secondMem (String.ofList_injective same)
  · intro same
    rw [same]

theorem TellsApart.digest_eq_iff (apart : TellsApart sha256Hex requests)
    (firstMem : first ∈ requests) (secondMem : second ∈ requests) :
    first.digest sha256Hex = second.digest sha256Hex ↔ first.contentText = second.contentText := by
  rw [digest_eq, digest_eq]
  exact ⟨apart.content first firstMem second secondMem, congrArg sha256Hex⟩

section Conflicts

variable {Index : Type u} {Value : Type} {serde : Serde Value} {calls : Index → SubmissionCall}
  {index : Index} {log : List (StoreEvent Index Value)}

/-- Records are created with the digest of the request of their call, and keep it. -/
def digestRule (serde : Serde Value) (sha256Hex : String → String)
    (calls : Index → SubmissionCall) : WriteRule Index Value :=
  fun index store _ space key value expected => space = submissionNamespace →
    WritesRecord serde sha256Hex calls
      (fun record request => record.requestDigest = request.digest sha256Hex) index store key value
      expected

def ConflictAccounted (serde : Serde Value) (sha256Hex : String → String)
    (calls : Index → SubmissionCall) (index : Index) (answer : SubmissionAnswer)
    (log : List (StoreEvent Index Value)) : Prop :=
  ∀ request now submissionId existing requested, calls index = .submit request now →
    answer = .submitted (.ok (.conflict submissionId existing requested)) →
    ∃ creator other, CreatedBy serde sha256Hex calls creator other log ∧
      other.submissionId = request.submissionId ∧
      other.digest sha256Hex ≠ request.digest sha256Hex

theorem publishedOnce_requestDigest (record : SubmissionRecord) (now : Instant) :
    (record.publishedOnce now).requestDigest = record.requestDigest := by
  unfold SubmissionRecord.publishedOnce
  dsimp only
  split <;> rfl

theorem heeds_conflicting (index : Index) :
    Upholds (digestRule serde sha256Hex calls) .empty index ((calls index).program serde sha256Hex)
      (ConflictAccounted serde sha256Hex calls index) log := by
  cases call : calls index with
  | submit request now =>
    apply Program.Heeds.seq (heeds_submitOnce request now ?_ ?_ ?_)
    · intro result reached since proper answered
      apply Program.Heeds.done
      intro later further properLater other otherNow submissionId existing requested same conflict
      rw [call] at same
      cases same
      cases conflict
      obtain ⟨stored, record, ⟨earlier, _, logged, found⟩, decoded, different⟩ := answered
      have within := ((List.prefix_append _ _).trans logged).trans further
      obtain ⟨creator, first, kept, created, sameId, keptDecoded, digest⟩ :=
        kept_of_stored (fun _ _ => rfl) (fun _ _ _ _ _ _ ruled => ruled rfl)
          (properLater.of_prefix within) found
      rw [decoded, Except.ok.injEq] at keptDecoded
      subst keptDecoded
      exact ⟨creator, first, created.mono within, sameId, fun same =>
        different (digest.trans same)⟩
    · exact fun later _ _ _ => .inl ⟨rfl, request, now, call, rfl, rfl⟩
    · exact fun later _ _ _ impossible => absurd impossible (by decide)
    · exact fun later _ _ _ _ _ _ _ impossible => absurd impossible (by decide)
  | recover now limit =>
    apply Program.Heeds.seq (heeds_recoverUnfinished now limit ?_ ?_)
    · intro result reached since proper _
      apply Program.Heeds.done
      intro later _ _ other otherNow submissionId existing requested same
      rw [call] at same
      cases same
    · intro later stored current submissionId _ proper read decoded _
      obtain ⟨earlier, _, logged, found⟩ := id read
      have before := proper.of_prefix ((List.prefix_append _ _).trans logged)
      have positive := version_ne_zero before (fun _ initial => by cases initial) found
      refine .inr ⟨stored.version, rfl, positive, ?_⟩
      intro present presentStored version
      rw [read.current_eq proper presentStored version]
      exact ⟨current, _, decoded, rfl, fun request same =>
        (publishedOnce_requestDigest current now).trans same⟩
    · exact fun later _ _ _ _ _ _ _ _ impossible => absurd impossible (by decide)

end Conflicts

/-- Identity of submissions is identity of content: for digests, for derived ids, and in every
run of clients that submit these requests and sweep. -/
structure IdentifiesContent (sha256Hex : String → String) (requests : Set SubmissionRequest) :
    Prop where
  digest : ∀ first ∈ requests, ∀ second ∈ requests,
    first.digest sha256Hex = second.digest sha256Hex ↔ first.SameContent second
  id : ∀ first ∈ requests, ∀ second ∈ requests, first.Keyless sha256Hex →
    second.Keyless sha256Hex →
    (first.submissionId = second.submissionId ↔
      first.principal = second.principal ∧ first.digest sha256Hex = second.digest sha256Hex)
  conflict : ∀ (Index : Type) [DecidableEq Index] (Value : Type) (serde : Serde Value)
    (calls : Index → SubmissionCall) (moves : List (Index × Circumstance))
    (session : SubmissionSession Index Value),
    (∀ index request now, calls index = .submit request now → request ∈ requests) →
    Run (serves RecordStore.execute) (recovering serde sha256Hex calls) moves session →
    ∀ index request now submissionId existing requested, calls index = .submit request now →
      request.Keyless sha256Hex →
      session.calls index = .done (.submitted (.ok (.conflict submissionId existing requested))) →
      ∃ creator other, CreatedBy serde sha256Hex calls creator other session.log ∧
        other.submissionId = request.submissionId ∧ ¬ other.Keyless sha256Hex

theorem Separated.digest_iff (separated : Separated sha256Hex requests)
    (apart : TellsApart sha256Hex requests) (firstMem : first ∈ requests)
    (secondMem : second ∈ requests) :
    first.digest sha256Hex = second.digest sha256Hex ↔ first.SameContent second := by
  rw [apart.digest_eq_iff firstMem secondMem]
  apply Iff.intro
  · intro same
    obtain ⟨project, description⟩ := separated.content first firstMem second secondMem same
    exact sameContent_of_text same project description
  · exact SameContent.text_eq

theorem Separated.id_iff (separated : Separated sha256Hex requests)
    (apart : TellsApart sha256Hex requests) (firstMem : first ∈ requests)
    (secondMem : second ∈ requests) (firstKeyless : first.Keyless sha256Hex)
    (secondKeyless : second.Keyless sha256Hex) :
    first.submissionId = second.submissionId ↔
      first.principal = second.principal ∧ first.digest sha256Hex = second.digest sha256Hex := by
  rw [apart.id_eq_iff firstMem secondMem firstKeyless secondKeyless,
    separated.digest_iff apart firstMem secondMem]
  apply Iff.intro
  · intro same
    obtain ⟨owner, task⟩ := texts_of_identityText apart firstMem secondMem same
    have lengths := separated.owner first firstMem second secondMem firstKeyless secondKeyless owner
      task
    obtain ⟨principal, project, description⟩ := parts_of_texts owner task lengths
    exact ⟨principal, project, description, separated.case first firstMem second secondMem
      firstKeyless secondKeyless principal project description⟩
  · rintro ⟨principal, same⟩
    apply identityText_eq_of_texts
    · simp only [ownerText, principal, same.project]
    · exact same.taskText_eq

theorem conflict_of_id_iff {Index : Type u} [DecidableEq Index] {Value : Type}
    {serde : Serde Value} {calls : Index → SubmissionCall} {moves : List (Index × Circumstance)}
    {session : SubmissionSession Index Value} {index : Index} {now : Instant}
    {submissionId existing requested : String}
    (sameDigest : ∀ first ∈ requests, ∀ second ∈ requests, first.Keyless sha256Hex →
      second.Keyless sha256Hex → first.submissionId = second.submissionId →
      first.digest sha256Hex = second.digest sha256Hex)
    (submitted : ∀ index request now, calls index = .submit request now → request ∈ requests)
    (run : Run (serves RecordStore.execute) (recovering serde sha256Hex calls) moves session)
    (call : calls index = .submit request now) (keyless : request.Keyless sha256Hex)
    (returned : session.calls index =
      .done (.submitted (.ok (.conflict submissionId existing requested)))) :
    ∃ creator other, CreatedBy serde sha256Hex calls creator other session.log ∧
      other.submissionId = request.submissionId ∧ ¬ other.Keyless sha256Hex := by
  have account := Session.accounted_of_run heeds_conflicting run
  obtain ⟨creator, other, created, sameId, different⟩ :=
    account.returned index _ returned request now submissionId existing requested call rfl
  refine ⟨creator, other, created, sameId, fun otherKeyless => different ?_⟩
  obtain ⟨otherNow, otherCall, -⟩ := created
  exact sameDigest other (submitted creator other otherNow otherCall) request
    (submitted index request now call) otherKeyless keyless sameId

/-- Identity is identity of content exactly where the texts that are hashed keep the parts
apart, and no two cases share owner and task. -/
theorem identifiesContent_iff (apart : TellsApart sha256Hex requests) :
    IdentifiesContent sha256Hex requests ↔ Separated sha256Hex requests := by
  apply Iff.intro
  · intro identifies
    refine ⟨?_, ?_, ?_⟩
    · intro first firstMem second secondMem same
      have content := (identifies.digest first firstMem second secondMem).mp
        ((apart.digest_eq_iff firstMem secondMem).mpr same)
      rw [content.project, content.description]
      exact ⟨rfl, rfl⟩
    · intro first firstMem second secondMem firstKeyless secondKeyless owner task
      have sameId := (apart.id_eq_iff firstMem secondMem firstKeyless secondKeyless).mpr
        (identityText_eq_of_texts owner task)
      have same := (identifies.id first firstMem second secondMem firstKeyless secondKeyless).mp
        sameId
      rw [((identifies.digest first firstMem second secondMem).mp same.2).project]
    · intro first firstMem second secondMem firstKeyless secondKeyless principal project description
      have owner : first.ownerText = second.ownerText := by
        simp only [ownerText, principal, project]
      have task : first.taskText = second.taskText := by
        simp only [taskText, project, description]
      have sameId := (apart.id_eq_iff firstMem secondMem firstKeyless secondKeyless).mpr
        (identityText_eq_of_texts owner task)
      have same := (identifies.id first firstMem second secondMem firstKeyless secondKeyless).mp
        sameId
      exact ((identifies.digest first firstMem second secondMem).mp same.2).case
  · intro separated
    refine ⟨fun _ firstMem _ secondMem => separated.digest_iff apart firstMem secondMem,
      fun _ firstMem _ secondMem => separated.id_iff apart firstMem secondMem, ?_⟩
    intro Index _ Value serde calls moves session submitted run index request now submissionId
      existing requested call keyless returned
    refine conflict_of_id_iff ?_ submitted run call keyless returned
    intro first firstMem second secondMem firstKeyless secondKeyless sameId
    exact ((separated.id_iff apart firstMem secondMem firstKeyless secondKeyless).mp sameId).2

/-- The digest of the texts that occur for a task with and without a case. -/
def casedDigest (text : String) : String :=
  if text = "proj\x00fix it" then
    "0a1333cdc6d58ea2e013199d45219a9950fa26a017396167814c82e3d9e37049"
  else if text = "proj\x00fix it\x00case-1" then
    "424881ec61edf5b0376d46df9d41ac92988e5ec77997787491541613f27b8653"
  else if text = "user:alice|proj|" ++
      "0a1333cdc6d58ea2e013199d45219a9950fa26a017396167814c82e3d9e37049" then
    "f99c1030204c612e86656b31c691846ecdbf1ae993963a4d91c58351523311b9"
  else "4212593ad7621911d0e655dfb907328f1bb68e3df570df8a2d6f50d52692d830"

def caseless : SubmissionRequest := .new casedDigest ⟨.user, "alice"⟩ "proj" "fix it" none

def cased : SubmissionRequest := caseless.withCase "case-1"

theorem tellsApart_cased : TellsApart casedDigest {caseless, cased} := by
  refine ⟨?_, ?_, ?_, ?_⟩
  · rintro first (rfl | rfl) second (rfl | rfl) same
    · rfl
    · exact absurd same (by decide +kernel)
    · exact absurd same (by decide +kernel)
    · rfl
  · rintro first (rfl | rfl) second (rfl | rfl) same <;> rfl
  · rintro first (rfl | rfl) second (rfl | rfl) same <;> rfl
  · intro text
    unfold casedDigest
    split_ifs <;> decide +kernel

theorem identifiesContent_iff_cased :
    IdentifiesContent casedDigest {caseless, cased} ↔ Separated casedDigest {caseless, cased} :=
  identifiesContent_iff tellsApart_cased

/-- One client submits the task, another one submits it for a case. -/
def submitCased : Bool → SubmissionCall
  | false => .submit caseless 0
  | true => .submit cased 1

def casedSession : SubmissionSession Bool (SubmissionRecord ⊕ OutboxEntry) :=
  ([(false, ⟨1, none⟩), (false, ⟨2, none⟩), (true, ⟨3, none⟩), (true, ⟨4, none⟩)]).foldl
    (Session.serve RecordStore.execute) (recovering plainSerde casedDigest submitCased)

/-- Requests of one owner that differ in the case have one derived id and two digests, and the
second one is answered with a conflict. -/
theorem identifiesContent_fails_cased :
    TellsApart casedDigest {caseless, cased} ∧ caseless.Keyless casedDigest ∧
    cased.Keyless casedDigest ∧ caseless.submissionId = cased.submissionId ∧
    caseless.principal = cased.principal ∧
    caseless.digest casedDigest ≠ cased.digest casedDigest ∧
    Run (serves RecordStore.execute) (recovering plainSerde casedDigest submitCased)
      [(false, ⟨1, none⟩), (false, ⟨2, none⟩), (true, ⟨3, none⟩), (true, ⟨4, none⟩)]
      casedSession ∧
    casedSession.calls true = .done (.submitted (.ok (.conflict caseless.submissionId
      (caseless.digest casedDigest) (cased.digest casedDigest)))) ∧
    ¬ IdentifiesContent casedDigest {caseless, cased} := by
  have different : caseless.digest casedDigest ≠ cased.digest casedDigest := by decide +kernel
  refine ⟨tellsApart_cased, rfl, rfl, rfl, rfl, different, run_serves _ _, rfl, ?_⟩
  intro identifies
  have same := identifies.id caseless (.inl rfl) cased (.inr rfl) rfl rfl
  exact different (same.mp rfl).2

end UltimateCoders.Governance
