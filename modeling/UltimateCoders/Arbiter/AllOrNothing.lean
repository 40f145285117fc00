import UltimateCoders.Arbiter.Merging

/-! # Arbitration is all or nothing

What the arbiter calls merged, the base branch of the remote has included at some moment: the base
that was fetched and the head of every branch. Where a branch conflicts, or the remote rejects the
push, the call has not moved the base branch. The ledger keeps this across calls, as an effect is
confirmed only after the remote was seen at its commit.
-/

namespace UltimateCoders.Arbiter

open UltimateCoders.Runtime Transition MergeArbiter

section Push

variable {graph : CommitGraph Commit} {baseBranch : String} {effectIdOf : Commit → String}
  {world before : GitWorld} {head : Commit} {fetched : List (Option String × Commit)}
  {ended : Option (Except String Unit)}

/-- The program returns as said, or the ledger has refused a request. -/
abbrev Leaves {Result : Type} (graph : CommitGraph Commit) (baseBranch : String)
    (effectIdOf : Commit → String) (program : ArbiterProgram Result)
    (returned : Result → GitWorld → Prop) (world : GitWorld) : Prop :=
  Gives graph baseBranch program (Yields (WorldHolds baseBranch effectIdOf) returned) world

/-- A push that failed for good. -/
def Definite (answer : Except String Unit) : Prop :=
  ∃ stderr, answer = .error stderr ∧ ambiguousPushFailure stderr = false

/-- The call publishes a head; its push has ended in some way or not yet. -/
structure Publishing (baseBranch : String) (effectIdOf : Commit → String) (before world : GitWorld)
    (head : Commit) (fetched : List (Option String × Commit))
    (ended : Option (Except String Unit)) : Prop where
  holds : WorldHolds baseBranch effectIdOf world
  isAt : AtBase baseBranch world.clone head none
  fetched : world.history.fetched = fetched
  pushes : world.history.pushes = before.history.pushes ++ ended.toList
  published : (∀ answer ∈ ended, Definite answer) →
    world.history.published = before.history.published

/-- The remote was at the head, as far as the ledger can tell. -/
def Landed (effectIdOf : Commit → String) (head : Commit) (world : GitWorld) : Prop :=
  ∃ position ∈ world.remote.positions, effectIdOf position = effectIdOf head

theorem Landed.follows {later : GitWorld} (landed : Landed effectIdOf head world)
    (follows : Follows baseBranch world.remote later.remote) : Landed effectIdOf head later := by
  obtain ⟨position, member, same⟩ := landed
  exact ⟨position, follows.kept member, same⟩

variable {Result : Type} {returned : Result → GitWorld → Prop}

section

variable (publishing : Publishing baseBranch effectIdOf before world head fetched ended)

include publishing

theorem Publishing.look {operation : GitOperation}
    {next : operation.Answer → ArbiterProgram Result} (observes : operation.observes = true)
    (led : ∀ answer later, Publishing baseBranch effectIdOf before later head fetched ended →
      (∃ circumstance, answer = (later.git graph baseBranch circumstance operation).1) →
      Leaves graph baseBranch effectIdOf (next answer) returned later) :
    Leaves graph baseBranch effectIdOf (git operation >>= next) returned world := by
  refine ensures_git publishing.holds fun circumstance remote _ holds => ?_
  refine led _ _ ?_ ⟨circumstance, ?_⟩
  · rw [git_of_observes observes]
    exact ⟨holds, publishing.isAt, publishing.fetched, publishing.pushes, publishing.published⟩
  · rw [git_of_observes observes]

theorem Publishing.request {request : EffectRequest} {next : EffectRecord → ArbiterProgram Result}
    (proper : ∀ reason, request ≠ .resolveReconcile true reason)
    (landed : request = .confirm → Landed effectIdOf head world)
    (led : ∀ record later, Publishing baseBranch effectIdOf before later head fetched ended →
      (record.status = .confirmed → Landed effectIdOf head later) → (Landed effectIdOf head world →
      Landed effectIdOf head later) →
      Leaves graph baseBranch effectIdOf (next record) returned later) :
    Leaves graph baseBranch effectIdOf (ledger (effectIdOf head) request >>= next) returned
      world := by
  refine ensures_ledger publishing.holds proper landed (fun _ _ _ holds => holds)
    fun record remote ledger follows holds confirmed => ?_
  exact led record _ ⟨holds, publishing.isAt, publishing.fetched, publishing.pushes,
    publishing.published⟩ confirmed fun landed => landed.follows follows

theorem ensures_askRemote :
    Leaves graph baseBranch effectIdOf (askRemote (effectIdOf head)) (fun verdict later =>
      Publishing baseBranch effectIdOf before later head fetched ended ∧
        (verdict = .applied → Landed effectIdOf head later)) world := by
  refine publishing.look rfl fun expectedAfter later publishing own => ?_
  have expected : expectedAfter ≠ "" → expectedAfter = head := by
    obtain ⟨circumstance, rfl⟩ := own
    simp only [GitWorld.git, publishing.isAt.headCommit, Option.getD_some]
    split
    · simp
    · exact fun _ => rfl
  refine publishing.look rfl fun expectedBefore later publishing _ => ?_
  refine publishing.look rfl fun listed later publishing listing => ?_
  cases listed with
  | error stderr =>
    exact publishing.request (by simp) (by simp) fun _ _ publishing _ _ => ⟨publishing, by simp⟩
  | ok current =>
    obtain ⟨circumstance, listing⟩ := listing
    have known : current = (later.remote.branches baseBranch).getD "" := by
      simp only [GitWorld.git] at listing
      cases failure : circumstance.failure with
      | some stderr => simp [failure] at listing
      | none => simpa [failure] using listing
    refine ensures_ite (fun same => ?_) fun _ => ensures_ite (fun _ => ?_) fun _ => ?_
    · have landed : Landed effectIdOf head later := by
        obtain ⟨nonempty, same⟩ := same
        rw [expected nonempty] at same
        cases found : later.remote.branches baseBranch with
        | none =>
          rw [found, same] at known
          exact absurd ((expected nonempty).trans known) nonempty
        | some there =>
          rw [found, same] at known
          exact ⟨there, publishing.holds.current there found, by rw [known, Option.getD_some]⟩
      exact publishing.request (by simp) (fun _ => landed) fun _ _ publishing _ still =>
        ⟨publishing, fun _ => still landed⟩
    · exact publishing.request (by simp) (by simp) fun _ _ publishing _ _ =>
        ⟨publishing, by simp⟩
    · exact publishing.request (by simp) (by simp) fun _ _ publishing _ _ =>
        ⟨publishing, by simp⟩

theorem ensures_reconcilePush :
    Leaves graph baseBranch effectIdOf (reconcilePush (effectIdOf head)) (fun verdict later =>
      Publishing baseBranch effectIdOf before later head fetched ended ∧
        (verdict = .applied → Landed effectIdOf head later)) world := by
  refine ensures_getEffect publishing.holds fun remote _ holds record => ?_
  have here : Publishing baseBranch effectIdOf before { world with remote := remote } head fetched
      ended :=
    ⟨holds, publishing.isAt, publishing.fetched, publishing.pushes, publishing.published⟩
  refine ensures_ite (fun _ => ?_) fun _ => ensures_ite (fun _ => ?_) fun _ => ?_
  · exact here.request (by simp) (by simp) fun _ _ marked _ _ =>
      marked.request (by simp) (by simp) fun _ _ begun _ _ => ensures_askRemote begun
  · exact here.request (by simp) (by simp) fun _ _ begun _ _ => ensures_askRemote begun
  · exact ensures_askRemote here

end

/-- What a publication returns: it keeps the branches, and where it says merged, the head has
landed. -/
structure PublishReturns (baseBranch : String) (effectIdOf : Commit → String) (before : GitWorld)
    (head : Commit) (fetched : List (Option String × Commit)) (given result : ArbitrationResult)
    (later : GitWorld) : Prop where
  publishing : ∃ ended, Publishing baseBranch effectIdOf before later head fetched ended
  mergedBranches : result.mergedBranches = given.mergedBranches
  conflictBranches : result.conflictBranches = given.conflictBranches
  decided : result.status ≠ .conflict
  merged : result.status = .merged → Landed effectIdOf head later

theorem Publishing.push {next : Except String Unit → ArbiterProgram Result}
    (publishing : Publishing baseBranch effectIdOf before world head fetched none)
    (led : ∀ answer later,
      Publishing baseBranch effectIdOf before later head fetched (some answer) →
      (answer = .ok () → Landed effectIdOf head later) →
      Leaves graph baseBranch effectIdOf (next answer) returned later) :
    Leaves graph baseBranch effectIdOf (git .push >>= next) returned world := by
  refine ensures_git publishing.holds fun circumstance remote _ holds => ?_
  obtain ⟨-, isAt, fetched, pushes, published⟩ := publishing
  have moved := holds.withRemote (follows_move baseBranch remote baseBranch (some head))
  have landed : head ∈ (remote.move baseBranch baseBranch (some head)).positions := by
    simp [RemoteState.move]
  have ended (answer : Except String Unit) :
      world.history.pushes ++ [answer] = before.history.pushes ++ (some answer).toList := by
    rw [pushes]
    simp
  have own {other : Commit} (found : world.clone.branches baseBranch = some other) : other = head :=
    Option.some.inj (found.symm.trans isAt.tip)
  rcases push_cases graph baseBranch { world with remote := remote }
      circumstance with
    ⟨other, found, served⟩ | ⟨other, stderr, ambiguous, found, served⟩ | ⟨stderr, served⟩
  · obtain rfl := own found
    simp only [GitWorld.git, served]
    refine led (.ok ()) _ ⟨⟨moved.current, moved.truthful⟩,
      ⟨isAt.checkedOut, isAt.tip, isAt.merging⟩, fetched, ended _, fun definite => ?_⟩ fun _ =>
        ⟨other, landed, rfl⟩
    obtain ⟨stderr, failed, -⟩ := definite _ rfl
    cases failed
  · obtain rfl := own found
    simp only [GitWorld.git, served]
    refine led (.error stderr) _ ⟨⟨moved.current, moved.truthful⟩, isAt, fetched, ended _,
      fun definite => ?_⟩ (by simp)
    obtain ⟨again, failed, definite⟩ := definite _ rfl
    cases failed
    rw [ambiguous] at definite
    cases definite
  · simp only [GitWorld.git, served]
    exact led (.error stderr) _ ⟨⟨holds.current, holds.truthful⟩, isAt, fetched, ended _,
      fun _ => published (by simp)⟩ (by simp)

variable (given : ArbitrationResult)

section

variable (publishing : Publishing baseBranch effectIdOf before world head fetched none)

include publishing

theorem ensures_pushPlainly : Leaves graph baseBranch effectIdOf (pushPlainly given)
    (PublishReturns baseBranch effectIdOf before head fetched given) world := by
  refine publishing.push fun answer later publishing landed => ?_
  cases answer with
  | ok _ => exact ⟨⟨_, publishing⟩, rfl, rfl, by simp, fun _ => landed rfl⟩
  | error stderr => exact ⟨⟨_, publishing⟩, rfl, rfl, by simp, by simp⟩

theorem ensures_pushPrepared : Leaves graph baseBranch effectIdOf (pushPrepared (effectIdOf head) given)
    (PublishReturns baseBranch effectIdOf before head fetched given) world := by
  refine publishing.request (by simp) (by simp) fun _ later publishing _ _ => ?_
  refine publishing.push fun answer later publishing landed => ?_
  cases answer with
  | ok _ =>
    exact publishing.request (by simp) (fun _ => landed rfl) fun _ _ publishing _ still =>
      ⟨⟨_, publishing⟩, rfl, rfl, by simp, fun _ => still (landed rfl)⟩
  | error stderr =>
    refine ensures_ite (fun _ => ?_) fun _ => ?_
    · refine publishing.request (by simp) (by simp) fun _ later publishing _ _ => ?_
      refine ensures_bind (ensures_reconcilePush publishing) fun verdict last settled => ?_
      obtain ⟨publishing, landed⟩ := settled
      cases verdict with
      | applied => exact ⟨⟨_, publishing⟩, rfl, rfl, by simp, fun _ => landed rfl⟩
      | absent | inconclusive => exact ⟨⟨_, publishing⟩, rfl, rfl, by simp, by simp⟩
    · exact publishing.request (by simp) (by simp) fun _ _ publishing _ _ =>
        ⟨⟨_, publishing⟩, rfl, rfl, by simp, by simp⟩

theorem ensures_publish : Leaves graph baseBranch effectIdOf (publish (effectIdOf head) given)
    (PublishReturns baseBranch effectIdOf before head fetched given) world := by
  refine publishing.look rfl fun expectedAfter later publishing _ => ?_
  have still (remote : RemoteState) (ledger : Ledger)
      (holds : WorldHolds baseBranch effectIdOf { later with remote := remote, ledger := ledger }) :
      Publishing baseBranch effectIdOf before { later with remote := remote, ledger := ledger } head
        fetched none :=
    ⟨holds, publishing.isAt, publishing.fetched, publishing.pushes, publishing.published⟩
  refine ensures_ledger publishing.holds (by simp) (by simp) (fun error remote _ holds => ?_)
    fun record remote ledger _ holds confirmed => ?_
  · cases error with
    | busy held owner leaseUntil => exact ⟨⟨_, still _ _ holds⟩, rfl, rfl, by simp, by simp⟩
    | _ => exact holds
  · have here := still remote ledger holds
    obtain ⟨_, _, status, _, _, _, _, _, _, _, _⟩ := record
    cases status with
    | confirmed => exact ⟨⟨_, here⟩, rfl, rfl, by simp [alreadyPushed], fun _ => confirmed rfl⟩
    | prepared | inFlight | failed => exact ensures_pushPrepared given here
    | unknown | reconciling =>
      refine ensures_bind (ensures_reconcilePush here) fun verdict last settled => ?_
      obtain ⟨publishing, landed⟩ := settled
      cases verdict with
      | applied => exact ⟨⟨_, publishing⟩, rfl, rfl, by simp [alreadyPushed], fun _ => landed rfl⟩
      | inconclusive => exact ⟨⟨_, publishing⟩, rfl, rfl, by simp, by simp⟩
      | absent => exact ensures_pushPrepared given publishing

end

theorem ensures_pushBaseBranch (hasLedger : Bool) (given : ArbitrationResult)
    (publishing : Publishing baseBranch effectIdOf before world head fetched none) :
    Leaves graph baseBranch effectIdOf (pushBaseBranch hasLedger effectIdOf given)
      (PublishReturns baseBranch effectIdOf before head fetched given) world := by
  cases hasLedger with
  | false => exact ensures_pushPlainly given publishing
  | true =>
    refine publishing.look rfl fun found later publishing own => ?_
    have same : found ≠ "" → found = head := by
      obtain ⟨circumstance, rfl⟩ := own
      simp only [GitWorld.git, publishing.isAt.headCommit, Option.getD_some]
      split
      · simp
      · exact fun _ => rfl
    refine ensures_ite (fun _ => ensures_pushPlainly given publishing) fun nonempty => ?_
    rw [same nonempty]
    exact ensures_publish given publishing

end Push

section Call

variable {graph : CommitGraph Commit} {baseBranch : String} {effectIdOf : Commit → String}
  {world before : GitWorld} {refused : GitWorld → Prop}

theorem ensures_checkout (unpushed : Unpushed baseBranch effectIdOf before world) :
    Gives graph baseBranch checkout
      (Yields refused fun answer later => Unpushed baseBranch effectIdOf before later ∧
        (answer = .ok () → later.clone.head = .branch baseBranch ∧
          later.clone.tracking = world.clone.tracking ∧
            later.history.fetched = world.history.fetched)) world := by
  refine unpushed.ensures (by simp) fun answer later kept served => ?_
  obtain ⟨circumstance, remote, served⟩ := served
  cases answer with
  | ok _ =>
    obtain ⟨clone, performed, rfl⟩ := local_ok served
    refine ⟨kept, fun _ => ?_⟩
    simp only [Clone.perform] at performed
    split at performed
    · cases performed
      exact ⟨rfl, rfl, rfl⟩
    · cases performed
  | error stderr =>
    obtain rfl := local_error served
    refine kept.ensures (by simp) fun answer later created served => ?_
    obtain ⟨circumstance, remote, served⟩ := served
    refine ⟨created, ?_⟩
    rintro rfl
    obtain ⟨clone, performed, rfl⟩ := local_ok served
    simp only [Clone.perform] at performed
    split at performed
    · cases performed
      exact ⟨rfl, rfl, rfl⟩
    · cases performed

/-- What a call reports of the clone, the remote and what has happened. -/
structure Reported (graph : CommitGraph Commit) (baseBranch : String)
    (effectIdOf : Commit → String) (branches : List String) (before later : GitWorld)
    (result : ArbitrationResult) : Prop where
  merged : result.status = .merged → ∃ head, later.clone.branches baseBranch = some head ∧
    Landed effectIdOf head later ∧ MergedSoFar graph baseBranch before later branches head
  conflict : result.status = .conflict → later.history.published = before.history.published
  rejected : ∀ answer, later.history.pushes = before.history.pushes ++ [answer] →
    Definite answer → later.history.published = before.history.published
  partition : result.pushStatus ≠ .none →
    (result.mergedBranches ++ result.conflictBranches).Perm branches

theorem Unpushed.reported {branches : List String} {later : GitWorld} {result : ArbitrationResult}
    (unpushed : Unpushed baseBranch effectIdOf before later)
    (unmerged : result.status ≠ .merged)
    (sorted : result.pushStatus ≠ .none →
      (result.mergedBranches ++ result.conflictBranches).Perm branches) :
    WorldHolds baseBranch effectIdOf later ∧
      Reported graph baseBranch effectIdOf branches before later result :=
  ⟨unpushed.holds, fun merged => absurd merged unmerged, fun _ => unpushed.published,
    fun _ _ _ => unpushed.published, sorted⟩

theorem mergedSoFar_reset {clone : Clone} {base : Commit} (onBase : clone.head = .branch baseBranch)
    (reset : world.clone = { clone.moveHead base with mergeHead := none })
    (fetched : world.history.fetched = before.history.fetched ++ [(none, base)]) :
    MergedSoFar graph baseBranch before world [] base := by
  refine ⟨?_, _, fetched, ⟨base, List.mem_cons_self⟩, (by simp), fun commit member => ?_⟩
  · rw [reset]
    simp only [Clone.moveHead, onBase]
    exact ⟨rfl, Function.update_self _ _ _, rfl⟩
  · rw [List.mem_singleton.mp member]
    exact .refl base

theorem ensures_arbitrate (arbiter : MergeArbiter) (sha1Hex : String → String)
    (branches : List String)
    (holds : WorldHolds arbiter.baseBranch (arbiter.pushEffectId sha1Hex) before) :
    (arbiter.arbitrate sha1Hex branches).run.Ensures (GitWorld.execute graph arbiter.baseBranch)
      (Yields (WorldHolds arbiter.baseBranch (arbiter.pushEffectId sha1Hex)) fun result later =>
        WorldHolds arbiter.baseBranch (arbiter.pushEffectId sha1Hex) later ∧
          Reported graph arbiter.baseBranch (arbiter.pushEffectId sha1Hex) branches before later
            result) before := by
  have begun : Unpushed arbiter.baseBranch (arbiter.pushEffectId sha1Hex) before before :=
    ⟨holds, rfl, rfl⟩
  refine ensures_ite (fun _ => begun.reported (by simp) (by simp)) fun _ =>
    ensures_ite (fun _ => begun.reported (by simp) (by simp)) fun _ => ?_
  refine begun.ensures (by simp) fun answer later kept served => ?_
  obtain ⟨circumstance, remote, served⟩ := served
  simp only [GitWorld.git] at served
  rcases fetchBase_cases arbiter.baseBranch { before with remote := remote }
      circumstance.failure with ⟨base, -, fetches⟩ | ⟨stderr, failed⟩
  · rw [fetches] at served
    cases served
    refine ensures_bind (ensures_checkout kept) fun answer later checked => ?_
    obtain ⟨kept, checked⟩ := checked
    cases answer with
    | error stderr => exact kept.reported (by simp) (fun none => absurd rfl none)
    | ok _ =>
      obtain ⟨onBase, tracking, fetched⟩ := checked rfl
      refine kept.ensures (by simp) fun answer last kept served => ?_
      obtain ⟨circumstance, remote, served⟩ := served
      cases answer with
      | error stderr => exact kept.reported (by simp) (fun none => absurd rfl none)
      | ok _ =>
        obtain ⟨clone, performed, rfl⟩ := local_ok served
        simp only [Clone.perform, tracking, GitWorld.fetch, Option.map_some,
          Option.some.injEq] at performed
        subst performed
        refine ensures_bind (ensures_mergeBranches branches [] [] kept fun _ =>
          ⟨base, mergedSoFar_reset onBase rfl fetched⟩) fun sorted merged ensured => ?_
        obtain ⟨mergedBranches, conflicts⟩ := sorted
        obtain ⟨kept, sorted, soFar⟩ := ensured
        refine ensures_ite (fun _ => kept.reported (by simp) fun _ => sorted) fun none => ?_
        obtain ⟨head, soFar⟩ := soFar (not_not.mp none)
        have publishing : Publishing arbiter.baseBranch (arbiter.pushEffectId sha1Hex) before
            merged head merged.history.fetched .none :=
          ⟨kept.holds, soFar.isAt, rfl, by rw [kept.pushes]; simp, fun _ => kept.published⟩
        refine ensures_weaken (ensures_pushBaseBranch arbiter.hasLedger _ publishing)
          fun result final returns => ?_
        obtain ⟨⟨ended, publishing⟩, sameMerged, sameConflicts, decided, landed⟩ := returns
        refine ⟨publishing.holds, fun merged => ?_, fun conflict => absurd conflict decided,
          fun answer pushes definite => ?_, fun _ => ?_⟩
        · obtain ⟨fetched, same, known, heads, included⟩ := soFar.fetched
          refine ⟨head, publishing.isAt.tip, landed merged, publishing.isAt, fetched,
            publishing.fetched.trans same, known, fun branch member => heads branch ?_,
            included⟩
          rw [not_not.mp none, List.append_nil] at sorted
          exact sorted.mem_iff.mpr member
        · refine publishing.published fun other ends => ?_
          have same : ended.toList = [answer] :=
            List.append_cancel_left (publishing.pushes.symm.trans pushes)
          rw [Option.mem_def.mp ends, Option.toList_some, List.singleton_inj] at same
          rwa [same]
        · rw [sameMerged, sameConflicts]
          exact sorted
  · rw [failed] at served
    cases served
    exact kept.reported (by simp) (fun none => absurd rfl none)

end Call

section Run

variable (graph : CommitGraph Commit) (arbiter : MergeArbiter) (sha1Hex : String → String)

/-- A call: whether the arbiter has its ledger, the branches, and what is up to the environment. -/
structure ArbitrationCall where
  hasLedger : Bool
  branches : List String
  circumstances : Nat → Circumstance

/-- What a call returns, and the world after it. -/
def ArbitrationCall.outcome (call : ArbitrationCall) (before : GitWorld) :
    Except EffectError ArbitrationResult × GitWorld :=
  let served := ({ arbiter with hasLedger := call.hasLedger }.arbitrate sha1Hex
    call.branches).run.alone (GitWorld.execute graph arbiter.baseBranch) call.circumstances before
  (served.1, served.2.2)

def arbitrates (before : GitWorld) (call : ArbitrationCall) (after : GitWorld) : Prop :=
  (call.outcome graph arbiter sha1Hex before).2 = after

/-- A clone and a remote, and no effects yet. -/
def GitWorld.start (branches : String → Option Commit) (clone : Clone) : GitWorld where
  remote := { branches := branches, positions := (branches arbiter.baseBranch).toList }
  clone := clone
  ledger := fun _ => none
  history := {}

/-- What a call says is what has become of the branches: if merged, the base branch of the remote
was at a commit that includes the base and all branches as they were fetched; in a conflict or after
a definite rejection the call has not moved it; and every branch is merged or in conflict. -/
structure AllOrNothing (branches : List String) (before after : GitWorld)
    (result : ArbitrationResult) : Prop where
  merged : result.status = .merged → ∃ position ∈ after.remote.positions, ∃ fetched,
    after.history.fetched = before.history.fetched ++ fetched ∧
      (∃ base, (none, base) ∈ fetched) ∧
        (∀ branch ∈ branches, ∃ head, (some branch, head) ∈ fetched) ∧
          ∀ commit ∈ fetched, graph.Includes position commit.2
  conflict : result.status = .conflict → after.history.published = before.history.published
  rejected : result.status = .failed → result.pushStatus = .failed →
    ∀ answer, after.history.pushes = before.history.pushes ++ [answer] → Definite answer →
      after.history.published = before.history.published
  partition : result.pushStatus ≠ .none →
    (result.mergedBranches ++ result.conflictBranches).Perm branches

variable {graph arbiter sha1Hex} {before after : GitWorld}

theorem worldHolds_start (branches : String → Option Commit) (clone : Clone) :
    WorldHolds arbiter.baseBranch (arbiter.pushEffectId sha1Hex)
      (.start arbiter branches clone) := by
  refine ⟨fun head found => ?_, by simp [GitWorld.start]⟩
  simp only [GitWorld.start] at found ⊢
  rw [found]
  exact List.mem_cons_self

theorem ArbitrationCall.reported (call : ArbitrationCall)
    (holds : WorldHolds arbiter.baseBranch (arbiter.pushEffectId sha1Hex) before) :
    Yields (WorldHolds arbiter.baseBranch (arbiter.pushEffectId sha1Hex))
      (fun result later =>
        WorldHolds arbiter.baseBranch (arbiter.pushEffectId sha1Hex) later ∧
          Reported graph arbiter.baseBranch (arbiter.pushEffectId sha1Hex) call.branches before
            later result)
      (call.outcome graph arbiter sha1Hex before).1 (call.outcome graph arbiter sha1Hex before).2 :=
  (ensures_arbitrate { arbiter with hasLedger := call.hasLedger } sha1Hex call.branches
    holds).alone call.circumstances

theorem worldHolds_of_run {calls : List ArbitrationCall}
    (run : Run (arbitrates graph arbiter sha1Hex) before calls after)
    (holds : WorldHolds arbiter.baseBranch (arbiter.pushEffectId sha1Hex) before) :
    WorldHolds arbiter.baseBranch (arbiter.pushEffectId sha1Hex) after := by
  refine run.invariant (fun _ => True) ?_ (fun _ _ => trivial) holds
  rintro before call after holds - rfl
  have reported : Yields _ _ (call.outcome graph arbiter sha1Hex before).1 _ :=
    call.reported holds
  cases returned : (call.outcome graph arbiter sha1Hex before).1 with
  | error error =>
    rw [returned] at reported
    exact reported
  | ok result =>
    rw [returned] at reported
    exact reported.1

/-- In every sequence of calls, whatever commands fail and however others move the remote, every
call that returns is all or nothing, if the identities of effects tell the commits apart. -/
theorem allOrNothing_of_run {branches : String → Option Commit} {clone : Clone}
    {calls : List ArbitrationCall} {call : ArbitrationCall} {result : ArbitrationResult}
    (run : Run (arbitrates graph arbiter sha1Hex) (.start arbiter branches clone) calls before)
    (outcome : call.outcome graph arbiter sha1Hex before = (.ok result, after))
    (apart : ∀ position ∈ after.remote.positions, ∀ head,
      after.clone.branches arbiter.baseBranch = some head →
        arbiter.pushEffectId sha1Hex position = arbiter.pushEffectId sha1Hex head →
          position = head) :
    AllOrNothing graph call.branches before after result := by
  have reported : Yields _ _ (call.outcome graph arbiter sha1Hex before).1
      (call.outcome graph arbiter sha1Hex before).2 :=
    call.reported (worldHolds_of_run run (worldHolds_start branches clone))
  rw [outcome] at reported
  obtain ⟨-, merged, conflict, rejected, partition⟩ := reported
  refine ⟨fun isMerged => ?_, conflict, fun _ _ => rejected, partition⟩
  obtain ⟨head, tip, ⟨position, member, same⟩, -, fetched, known, base, heads, included⟩ :=
    merged isMerged
  obtain rfl := apart position member head tip same
  exact ⟨position, member, fetched, known, base, heads, included⟩

/-- A root, two commits on it, and their merge. -/
def diamond : CommitGraph Commit where
  parents commit :=
    if commit = "m" then ["b", "c"] else if commit = "b" ∨ commit = "c" then ["a"] else []
  depth commit := if commit = "m" then 2 else if commit = "b" ∨ commit = "c" then 1 else 0
  depth_lt child parent made := by
    split at made
    · rcases List.mem_cons.mp made with rfl | last
      · simp_all
      · simp_all
    · split at made
      · simp_all
      · cases made

def sampleArbiter : MergeArbiter :=
  { remoteUrl := "https://example.org/repo.git", hasLedger := true }

/-- A remote with a base branch and two branches of subtasks. -/
def sampleBranches (branch : String) : Option Commit :=
  if branch = "main" then some "a"
  else if branch = "uc/subtask/1" then some "b"
  else if branch = "uc/subtask/2" then some "c"
  else none

def sampleClone : Clone where
  head := .detached "a"
  branches := fun _ => none
  tracking := none
  mergeHead := none

/-- The second merge makes a commit, and the push is applied though its connection breaks. -/
def brokenPush : ArbitrationCall where
  hasLedger := true
  branches := ["uc/subtask/1", "uc/subtask/2"]
  circumstances step :=
    if step = 7 then { now := 0, made := "m" }
    else if step = 12 then { now := 0, failure := some "Connection reset by peer", applied := true }
    else { now := 0 }

/-- Reversed, a text is told apart by its end. -/
def reversed (text : String) : String := String.ofList text.toList.reverse

def sampleWorld : GitWorld := .start sampleArbiter sampleBranches sampleClone

def brokenPushResult : ArbitrationResult where
  status := .merged
  mergedBranches := ["uc/subtask/1", "uc/subtask/2"]
  pushStatus := .alreadyPushed
  effectId := some (sampleArbiter.pushEffectId reversed "m")

def afterBrokenPush : GitWorld :=
  (brokenPush.outcome diamond sampleArbiter reversed sampleWorld).2

theorem allOrNothing_brokenPush :
    (brokenPush.outcome diamond sampleArbiter reversed sampleWorld).1 = .ok brokenPushResult ∧
      AllOrNothing diamond brokenPush.branches sampleWorld afterBrokenPush brokenPushResult := by
  have returned :
      (brokenPush.outcome diamond sampleArbiter reversed sampleWorld).1 = .ok brokenPushResult := by
    decide +kernel
  refine ⟨returned, allOrNothing_of_run (.nil _) (Prod.ext returned rfl) ?_⟩
  have positions : afterBrokenPush.remote.positions = ["a", "m"] := by decide +kernel
  have tip : afterBrokenPush.clone.branches "main" = some "m" := by decide +kernel
  have distinct : sampleArbiter.pushEffectId reversed "a" ≠
      sampleArbiter.pushEffectId reversed "m" := by decide +kernel
  intro position member head found same
  rw [positions] at member
  obtain rfl : head = "m" := Option.some.inj (found.symm.trans tip)
  rcases List.mem_pair.mp member with rfl | rfl
  · exact absurd same distinct
  · rfl

end Run

end UltimateCoders.Arbiter
