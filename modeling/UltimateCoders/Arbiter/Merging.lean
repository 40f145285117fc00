import UltimateCoders.Arbiter.Arbitrate
import UltimateCoders.Transition.Ensures

/-! # Merging branch by branch

What the operations of the arbiter leave of the clone, the remote and the ledger, and what the loop
over the branches makes of them: the base branch comes to include all branches, or some of them are
in conflict, and nothing has been pushed.
-/

namespace UltimateCoders.Arbiter

open UltimateCoders.Runtime Transition MergeArbiter List Function

/-- What is known between the operations of the arbiter: the remote is at one of the positions that
it has been at, and so were the commits of the effects that are confirmed. -/
structure WorldHolds (baseBranch : String) (effectIdOf : Commit → String) (world : GitWorld) :
    Prop where
  current : ∀ head, world.remote.branches baseBranch = some head → head ∈ world.remote.positions
  truthful : ∀ head record, world.ledger (effectIdOf head) = some record →
    record.status = .confirmed →
      ∃ position ∈ world.remote.positions, effectIdOf position = effectIdOf head

section Remote

variable {baseBranch : String} {effectIdOf : Commit → String} {world : GitWorld}

/-- The positions since then, with the remote at one of them. -/
structure Follows (baseBranch : String) (before after : RemoteState) : Prop where
  kept : before.positions ⊆ after.positions
  current : (∀ head, before.branches baseBranch = some head → head ∈ before.positions) →
    ∀ head, after.branches baseBranch = some head → head ∈ after.positions

theorem Follows.trans {first second third : RemoteState} (earlier : Follows baseBranch first second)
    (later : Follows baseBranch second third) : Follows baseBranch first third :=
  ⟨Subset.trans earlier.kept later.kept, fun known => later.current (earlier.current known)⟩

variable (baseBranch) in
theorem follows_move (remote : RemoteState) (branch : String) (head : Option Commit) :
    Follows baseBranch remote (remote.move baseBranch branch head) := by
  unfold RemoteState.move
  by_cases base : branch = baseBranch
  · subst base
    rw [if_pos rfl]
    refine ⟨subset_append_left _ _, fun _ found there => ?_⟩
    simp only [update_self] at there
    simp [there]
  · rw [if_neg base]
    refine ⟨Subset.refl _, fun known found there => known found ?_⟩
    simpa only [update_of_ne (Ne.symm base)] using there

variable (baseBranch) in
theorem follows_meanwhile (world : GitWorld) (circumstance : Circumstance) :
    Follows baseBranch world.remote (world.meanwhile baseBranch circumstance).remote := by
  simp only [GitWorld.meanwhile]
  generalize circumstance.moved = moves
  generalize world.remote = remote
  induction moves generalizing remote with
  | nil => exact ⟨Subset.refl _, id⟩
  | cons move rest ih => exact (follows_move baseBranch remote move.1 move.2).trans (ih _)

theorem WorldHolds.withRemote (holds : WorldHolds baseBranch effectIdOf world)
    {remote : RemoteState} (follows : Follows baseBranch world.remote remote) :
    WorldHolds baseBranch effectIdOf { world with remote := remote } := by
  refine ⟨follows.current holds.current, fun head record found confirmed => ?_⟩
  obtain ⟨position, member, same⟩ := holds.truthful head record found confirmed
  exact ⟨position, follows.kept member, same⟩

end Remote

/-- What holds where a program returns, and where the ledger has refused a request. -/
def Yields {Result : Type} (refused : GitWorld → Prop) (returned : Result → GitWorld → Prop) :
    Except EffectError Result → GitWorld → Prop
  | .ok result, world => returned result world
  | .error _, world => refused world

/-- Whatever git and the ledger answer, the program ends as the postcondition says. -/
abbrev Gives {Result : Type} (graph : CommitGraph Commit) (baseBranch : String)
    (program : ArbiterProgram Result) (post : Except EffectError Result → GitWorld → Prop)
    (world : GitWorld) : Prop :=
  program.run.Ensures (GitWorld.execute graph baseBranch) post world

section Operations

variable {graph : CommitGraph Commit} {baseBranch : String} {effectIdOf : Commit → String}
  {world : GitWorld} {Result : Type} {post : Except EffectError Result → GitWorld → Prop}

theorem ensures_git {operation : GitOperation} {next : operation.Answer → ArbiterProgram Result}
    (holds : WorldHolds baseBranch effectIdOf world)
    (led : ∀ circumstance remote, Follows baseBranch world.remote remote →
      WorldHolds baseBranch effectIdOf { world with remote := remote } →
        let served := GitWorld.git graph baseBranch { world with remote := remote } circumstance
          operation
        Gives graph baseBranch (next served.1) post served.2) :
    Gives graph baseBranch (git operation >>= next) post world :=
  fun circumstance => led circumstance _ (follows_meanwhile baseBranch world circumstance)
    (holds.withRemote (follows_meanwhile baseBranch world circumstance))

theorem ensures_bind {Value : Type} {program : ArbiterProgram Value}
    {next : Value → ArbiterProgram Result} {refused : GitWorld → Prop}
    {returned : Value → GitWorld → Prop} {final : Result → GitWorld → Prop}
    (first : Gives graph baseBranch program (Yields refused returned) world)
    (rest : ∀ value later, returned value later →
      Gives graph baseBranch (next value) (Yields refused final) later) :
    Gives graph baseBranch (program >>= next) (Yields refused final) world := by
  refine Program.Ensures.seq first fun value later yields => ?_
  cases value with
  | error error => exact yields
  | ok value => exact rest value later yields

theorem ensures_ite {condition : Prop} [Decidable condition]
    {first second : Program ArbiterOperation ArbiterOperation.Answer (Except EffectError Result)}
    (taken : condition → first.Ensures (GitWorld.execute graph baseBranch) post world)
    (other : ¬ condition → second.Ensures (GitWorld.execute graph baseBranch) post world) :
    (if condition then first else second).Ensures (GitWorld.execute graph baseBranch) post
      world := by
  by_cases holds : condition
  · rw [if_pos holds]
    exact taken holds
  · rw [if_neg holds]
    exact other holds

theorem ensures_weaken {program : ArbiterProgram Result} {refused : GitWorld → Prop}
    {returned final : Result → GitWorld → Prop}
    (ensures : Gives graph baseBranch program (Yields refused returned) world)
    (implied : ∀ value later, returned value later → final value later) :
    Gives graph baseBranch program (Yields refused final) world := by
  refine ensures.weaken fun result later yields => ?_
  cases result with
  | error error => exact yields
  | ok value => exact implied value later yields

section

variable (holds : WorldHolds baseBranch effectIdOf world)

include holds

theorem ensures_getEffect {effectId : String} {next : Option EffectRecord → ArbiterProgram Result}
    (led : ∀ remote, Follows baseBranch world.remote remote →
      WorldHolds baseBranch effectIdOf { world with remote := remote } →
      ∀ record, Gives graph baseBranch (next record) post { world with remote := remote }) :
    Gives graph baseBranch (getEffect effectId >>= next) post world :=
  fun circumstance => led _ (follows_meanwhile baseBranch world circumstance)
    (holds.withRemote (follows_meanwhile baseBranch world circumstance)) _

theorem WorldHolds.withRecord {head : Commit} {request : EffectRequest} {now : Seconds}
    {record : EffectRecord} (proper : ∀ reason, request ≠ .resolveReconcile true reason)
    (landed : request = .confirm →
      ∃ position ∈ world.remote.positions, effectIdOf position = effectIdOf head)
    (served : EffectLedger.handle (effectIdOf head) request now (world.ledger (effectIdOf head)) =
        .ok record) :
    (record.status = .confirmed →
      ∃ position ∈ world.remote.positions, effectIdOf position = effectIdOf head) ∧
    WorldHolds baseBranch effectIdOf { world with
      ledger := update world.ledger (effectIdOf head) (some record) } := by
  have leads := EffectLedger.handle_leads served
  have confirmed (now : record.status = .confirmed) :
      ∃ position ∈ world.remote.positions, effectIdOf position = effectIdOf head := by
    rw [now] at leads
    cases request with
    | confirm => exact landed rfl
    | prepare kind expectedAfter =>
      cases found : world.ledger (effectIdOf head) with
      | none => simp [EffectRequest.Leads, found] at leads
      | some old =>
        have already : old.status = .confirmed := by
          simpa [EffectRequest.Leads, found] using leads
        exact holds.truthful head old found already
    | resolveReconcile applied reason =>
      cases applied with
      | true => exact absurd rfl (proper reason)
      | false => simp [EffectRequest.Leads] at leads
    | _ => simp [EffectRequest.Leads] at leads
  refine ⟨confirmed, holds.current, fun other stored found status => ?_⟩
  by_cases same : effectIdOf other = effectIdOf head
  · rw [same] at found ⊢
    simp only [update_self, Option.some.injEq] at found
    exact confirmed (by rw [found]; exact status)
  · simp only [update_of_ne same] at found
    exact holds.truthful other stored found status

/-- A request to the ledger, refused or served. -/
theorem ensures_ledger {head : Commit} {request : EffectRequest}
    {resume : Except EffectError EffectRecord →
      Program ArbiterOperation ArbiterOperation.Answer (Except EffectError Result)}
    (proper : ∀ reason, request ≠ .resolveReconcile true reason)
    (landed : request = .confirm →
      ∃ position ∈ world.remote.positions, effectIdOf position = effectIdOf head)
    (refused : ∀ error remote, Follows baseBranch world.remote remote →
      WorldHolds baseBranch effectIdOf { world with remote := remote } →
      (resume (.error error)).Ensures
        (GitWorld.execute graph baseBranch) post { world with remote := remote })
    (led : ∀ record remote ledger, Follows baseBranch world.remote remote →
      WorldHolds baseBranch effectIdOf { world with remote := remote, ledger := ledger } →
      (record.status = .confirmed →
      ∃ position ∈ remote.positions, effectIdOf position = effectIdOf head) →
      (resume (.ok record)).Ensures
        (GitWorld.execute graph baseBranch) post { world with remote := remote, ledger := ledger }) :
    (Program.ask (.ledger (effectIdOf head) request) resume).Ensures
      (GitWorld.execute graph baseBranch) post world := by
  intro circumstance
  have follows := follows_meanwhile baseBranch world circumstance
  have reached := holds.withRemote follows
  have landedThere (confirms : request = .confirm) :
      ∃ position ∈ (world.meanwhile baseBranch circumstance).remote.positions,
        effectIdOf position = effectIdOf head := by
    obtain ⟨position, member, same⟩ := landed confirms
    exact ⟨position, follows.kept member, same⟩
  cases served : EffectLedger.handle (effectIdOf head) request circumstance.now
      (world.ledger (effectIdOf head)) with
  | error error =>
    have answer : GitWorld.execute graph baseBranch circumstance
        (.ledger (effectIdOf head) request) world =
      (.error error, world.meanwhile baseBranch circumstance) := by
      simp only [GitWorld.execute, GitWorld.meanwhile, served]
    simp only [answer]
    exact refused error _ follows reached
  | ok record =>
    have answer : GitWorld.execute graph baseBranch circumstance
        (.ledger (effectIdOf head) request) world =
      (.ok record, { world.meanwhile baseBranch circumstance with
        ledger := update world.ledger (effectIdOf head) (some record) }) := by
      simp only [GitWorld.execute, GitWorld.meanwhile, served]
    simp only [answer]
    obtain ⟨confirmed, later⟩ := reached.withRecord proper landedThere served
    exact led record _ _ follows later confirmed

end

end Operations

variable {later : GitWorld} {operation : GitOperation}

section Clone

variable {graph : CommitGraph Commit} {baseBranch : String} {clone after : Clone}
  {head other made : Commit} {merging : Option Commit}

/-- The base branch is checked out at a commit, with a merge in progress or none. -/
structure AtBase (baseBranch : String) (clone : Clone) (head : Commit) (merging : Option Commit) :
    Prop where
  checkedOut : clone.head = .branch baseBranch
  tip : clone.branches baseBranch = some head
  merging : clone.mergeHead = merging

theorem AtBase.headCommit (isAt : AtBase baseBranch clone head merging) :
    clone.headCommit = some head := by
  simp only [Clone.headCommit, isAt.checkedOut, isAt.tip]

theorem AtBase.moveHead (isAt : AtBase baseBranch clone head merging) (commit : Commit) :
    AtBase baseBranch (clone.moveHead commit) commit merging := by
  simp only [Clone.moveHead, isAt.checkedOut]
  exact ⟨rfl, update_self _ _ _, isAt.merging⟩

theorem AtBase.merge (isAt : AtBase baseBranch clone head none)
    (merged : clone.merge graph other made = some after) :
    ∃ newer, AtBase baseBranch after newer none ∧ graph.Includes newer head ∧
      graph.Includes newer other := by
  simp only [Clone.merge, isAt.headCommit, isAt.merging, ne_eq, not_true_eq_false, if_false]
    at merged
  split at merged
  · rename_i included
    cases merged
    exact ⟨head, isAt, .refl _, included⟩
  · split at merged
    · rename_i included
      cases merged
      exact ⟨other, isAt.moveHead other, included, .refl _⟩
    · split at merged
      · rename_i parents
        cases merged
        exact ⟨made, isAt.moveHead made, .of_parent (by simp [parents]),
          .of_parent (by simp [parents])⟩
      · cases merged

theorem AtBase.commit (isAt : AtBase baseBranch clone head (some other))
    (committed : clone.commit graph made = some after) :
    ∃ newer, AtBase baseBranch after newer none ∧ graph.Includes newer head ∧
      graph.Includes newer other := by
  simp only [Clone.commit, isAt.headCommit, isAt.merging] at committed
  split at committed
  · rename_i parents
    cases committed
    have moved := isAt.moveHead made
    exact ⟨made, ⟨moved.checkedOut, moved.tip, rfl⟩, .of_parent (by simp [parents]),
      .of_parent (by simp [parents])⟩
  · cases committed

theorem AtBase.fetchBranch (isAt : AtBase baseBranch clone head merging) {branch : String}
    (apart : clone.head ≠ .branch branch) :
    AtBase baseBranch { clone with
      branches := update clone.branches branch (some other) } head merging := by
  have different : baseBranch ≠ branch := by
    rintro rfl
    exact apart isAt.checkedOut
  exact ⟨isAt.checkedOut, (update_of_ne different _ _).trans isAt.tip, isAt.merging⟩

theorem AtBase.failed (isAt : AtBase baseBranch clone head none) {branch : String}
    (fetched : clone.branches branch = some other) (circumstance : Circumstance) :
    AtBase baseBranch (clone.failed circumstance (.merge branch)) head
        (clone.failed circumstance (.merge branch)).mergeHead ∧
      ((clone.failed circumstance (.merge branch)).mergeHead = none ∨
        (clone.failed circumstance (.merge branch)).mergeHead = some other) := by
  simp only [Clone.failed]
  by_cases stops : circumstance.conflicts ∧ clone.mergeHead = none
  · rw [if_pos stops]
    exact ⟨⟨isAt.checkedOut, isAt.tip, rfl⟩, .inr fetched⟩
  · rw [if_neg stops]
    exact ⟨⟨isAt.checkedOut, isAt.tip, rfl⟩, .inl isAt.merging⟩

variable (graph baseBranch) in
theorem local_cases (world : GitWorld) (circumstance : Circumstance) (operation : GitOperation) :
    (∃ clone, world.clone.perform graph baseBranch circumstance operation = some clone ∧
      world.local graph baseBranch circumstance operation =
        (.ok (), { world with clone := clone })) ∨
    ∃ stderr, world.local graph baseBranch circumstance operation =
      (.error stderr, { world with clone := world.clone.failed circumstance operation }) := by
  unfold GitWorld.local
  split
  · rename_i clone _ performed
    exact .inl ⟨clone, performed, rfl⟩
  · exact .inr ⟨_, rfl⟩

theorem local_ok {world : GitWorld} {circumstance : Circumstance} {answer : Unit}
    (served : (.ok answer, later) = world.local graph baseBranch circumstance operation) :
    ∃ clone, world.clone.perform graph baseBranch circumstance operation = some clone ∧
      later = { world with clone := clone } := by
  rcases local_cases graph baseBranch world circumstance operation with
    ⟨clone, performed, moved⟩ | ⟨stderr, failed⟩
  · rw [moved] at served
    exact ⟨clone, performed, congrArg Prod.snd served⟩
  · rw [failed] at served
    cases served

theorem local_error {world : GitWorld} {circumstance : Circumstance} {stderr : String}
    (served : (.error stderr, later) = world.local graph baseBranch circumstance operation) :
    later = { world with clone := world.clone.failed circumstance operation } := by
  rcases local_cases graph baseBranch world circumstance operation with
    ⟨clone, performed, moved⟩ | ⟨stderr, failed⟩
  · rw [moved] at served
    cases served
  · rw [failed] at served
    exact congrArg Prod.snd served

variable (baseBranch) in
theorem fetchBase_cases (world : GitWorld) (failure : Option String) :
    (∃ commit, world.remote.branches baseBranch = some commit ∧
      world.fetchBase baseBranch failure =
        (.ok (), world.fetch { world.clone with tracking := some commit } none commit)) ∨
    ∃ stderr, world.fetchBase baseBranch failure = (.error stderr, world) := by
  unfold GitWorld.fetchBase
  split
  · rename_i commit found
    exact .inl ⟨commit, found, rfl⟩
  · exact .inr ⟨_, rfl⟩

theorem fetchBranch_cases (world : GitWorld) (branch : String) (failure : Option String) :
    (∃ commit, world.clone.head ≠ .branch branch ∧ world.fetchBranch branch failure =
      (.ok (), world.fetch { world.clone with
        branches := update world.clone.branches branch (some commit) }
          (some branch) commit)) ∨
    ∃ stderr, world.fetchBranch branch failure = (.error stderr, world) := by
  unfold GitWorld.fetchBranch
  split
  · split
    · exact .inr ⟨_, rfl⟩
    · rename_i commit _ apart
      exact .inl ⟨commit, apart, rfl⟩
  · exact .inr ⟨_, rfl⟩

variable (graph baseBranch) in
theorem push_cases (world : GitWorld) (circumstance : Circumstance) :
    (∃ head, world.clone.branches baseBranch = some head ∧
      world.push graph baseBranch circumstance =
        (.ok (), { world.pushApplied baseBranch (.ok ()) head with
          clone := { world.clone with tracking := some head } })) ∨
    (∃ head stderr, ambiguousPushFailure stderr = true ∧
      world.clone.branches baseBranch = some head ∧ world.push graph baseBranch circumstance =
        (.error stderr, world.pushApplied baseBranch (.error stderr) head)) ∨
    ∃ stderr, world.push graph baseBranch circumstance =
      (.error stderr, world.pushFailed (.error stderr)) := by
  cases found : world.clone.branches baseBranch with
  | none =>
    simp only [GitWorld.push, found]
    exact .inr (.inr ⟨_, rfl⟩)
  | some head =>
    simp only [GitWorld.push, found]
    by_cases accepted : ∀ remote ∈ world.remote.branches baseBranch, graph.Includes head remote
    · cases circumstance.failure with
      | none =>
        simp only [if_pos accepted]
        exact .inl ⟨head, rfl, rfl⟩
      | some stderr =>
        by_cases applied : circumstance.applied = true ∧ ambiguousPushFailure stderr = true
        · simp only [if_pos (And.intro accepted applied)]
          exact .inr (.inl ⟨head, stderr, applied.2, rfl, rfl⟩)
        · simp only [if_neg fun both : _ ∧ _ => applied both.2]
          exact .inr (.inr ⟨stderr, rfl⟩)
    · cases circumstance.failure with
      | none =>
        simp only [if_neg accepted]
        exact .inr (.inr ⟨_, rfl⟩)
      | some stderr =>
        simp only [if_neg fun both : _ ∧ _ => accepted both.1]
        exact .inr (.inr ⟨stderr, rfl⟩)

/-- A command that only looks. -/
def GitOperation.observes : GitOperation → Bool
  | .unmergedFiles | .resolveFile _ | .head | .trackingHead | .lsRemote => true
  | _ => false

theorem git_of_observes (observes : operation.observes = true) (world : GitWorld)
    (circumstance : Circumstance) :
    (world.git graph baseBranch circumstance operation).2 = world := by
  cases operation with
  | resolveFile path | head | trackingHead => rfl
  | unmergedFiles | lsRemote =>
    simp only [GitWorld.git]
    cases circumstance.failure <;> rfl
  | _ => cases observes

end Clone

section Merge

variable {graph : CommitGraph Commit} {baseBranch : String} {effectIdOf : Commit → String}
  {world before : GitWorld}

/-- The call has not pushed yet. -/
structure Unpushed (baseBranch : String) (effectIdOf : Commit → String)
    (before world : GitWorld) : Prop where
  holds : WorldHolds baseBranch effectIdOf world
  pushes : world.history.pushes = before.history.pushes
  published : world.history.published = before.history.published

theorem Unpushed.serve (unpushed : Unpushed baseBranch effectIdOf before world)
    (other : operation ≠ .push) (circumstance : Circumstance) :
    Unpushed baseBranch effectIdOf before
      (world.git graph baseBranch circumstance operation).2 := by
  obtain ⟨⟨current, truthful⟩, pushes, published⟩ := unpushed
  have cloned (clone : Clone) :
      Unpushed baseBranch effectIdOf before { world with clone := clone } :=
    ⟨⟨current, truthful⟩, pushes, published⟩
  have locally (operation : GitOperation) : Unpushed baseBranch effectIdOf before
      (world.local graph baseBranch circumstance operation).2 := by
    rcases local_cases graph baseBranch world circumstance operation with
      ⟨clone, -, served⟩ | ⟨stderr, served⟩ <;>
    · rw [served]
      exact cloned _
  cases operation with
  | push => exact absurd rfl other
  | fetchBase =>
    simp only [GitWorld.git]
    rcases fetchBase_cases baseBranch world circumstance.failure with
      ⟨commit, -, served⟩ | ⟨stderr, served⟩ <;>
    · rw [served]
      exact ⟨⟨current, truthful⟩, pushes, published⟩
  | fetchBranch branch =>
    simp only [GitWorld.git]
    rcases fetchBranch_cases world branch circumstance.failure with
      ⟨commit, -, served⟩ | ⟨stderr, served⟩ <;>
    · rw [served]
      exact ⟨⟨current, truthful⟩, pushes, published⟩
  | unmergedFiles | lsRemote =>
    simp only [GitWorld.git]
    split <;> exact ⟨⟨current, truthful⟩, pushes, published⟩
  | resolveFile path | head | trackingHead => exact ⟨⟨current, truthful⟩, pushes, published⟩
  | checkoutBase => exact locally .checkoutBase
  | createBase => exact locally .createBase
  | resetBase => exact locally .resetBase
  | merge branch => exact locally (.merge branch)
  | abortMerge => exact locally .abortMerge
  | commit => exact locally .commit

variable {refused : GitWorld → Prop}

theorem Unpushed.ensures {Result : Type} {post : Except EffectError Result → GitWorld → Prop}
    {next : operation.Answer → ArbiterProgram Result}
    (unpushed : Unpushed baseBranch effectIdOf before world) (other : operation ≠ .push)
    (led : ∀ answer later, Unpushed baseBranch effectIdOf before later →
      (∃ circumstance remote, (answer, later) =
        GitWorld.git graph baseBranch { world with remote := remote } circumstance operation) →
        Gives graph baseBranch (next answer) post later) :
    Gives graph baseBranch (git operation >>= next) post world := by
  refine ensures_git unpushed.holds fun circumstance remote _ holds => ?_
  have here : Unpushed baseBranch effectIdOf before { world with remote := remote } :=
    ⟨holds, unpushed.pushes, unpushed.published⟩
  exact led _ _ (here.serve other circumstance) ⟨circumstance, remote, rfl⟩

theorem ensures_abandonMerge (unpushed : Unpushed baseBranch effectIdOf before world) :
    Gives graph baseBranch abandonMerge
      (Yields refused fun _ => Unpushed baseBranch effectIdOf before) world := by
  refine unpushed.ensures nofun fun answer later aborted _ => ?_
  cases answer with
  | ok _ => exact aborted
  | error stderr => exact aborted.ensures nofun fun _ _ again _ => again

/-- Nothing but the remote has changed. -/
structure Unchanged (baseBranch : String) (effectIdOf : Commit → String)
    (before world later : GitWorld) : Prop where
  unpushed : Unpushed baseBranch effectIdOf before later
  clone : later.clone = world.clone
  fetched : later.history.fetched = world.history.fetched

theorem Unpushed.look {Result : Type} {post : Except EffectError Result → GitWorld → Prop}
    {next : operation.Answer → ArbiterProgram Result}
    (unpushed : Unpushed baseBranch effectIdOf before world)
    (observes : operation.observes = true)
    (led : ∀ answer later, Unchanged baseBranch effectIdOf before world later →
      (∃ circumstance remote, answer =
        (GitWorld.git graph baseBranch { world with remote := remote } circumstance operation).1) →
        Gives graph baseBranch (next answer) post later) :
    Gives graph baseBranch (git operation >>= next) post world := by
  refine ensures_git unpushed.holds fun circumstance remote _ holds => ?_
  refine led _ _ ?_ ⟨circumstance, remote, rfl⟩
  rw [git_of_observes observes]
  exact ⟨⟨holds, unpushed.pushes, unpushed.published⟩, rfl, rfl⟩

theorem Unchanged.trans {last : GitWorld}
    (unchanged : Unchanged baseBranch effectIdOf before world later)
    (again : Unchanged baseBranch effectIdOf before later last) :
    Unchanged baseBranch effectIdOf before world last :=
  ⟨again.unpushed, again.clone.trans unchanged.clone, again.fetched.trans unchanged.fetched⟩

theorem ensures_resolveFiles (files : List String)
    (unpushed : Unpushed baseBranch effectIdOf before world) :
    Gives graph baseBranch (resolveFiles files)
      (Yields refused fun _ => Unchanged baseBranch effectIdOf before world) world := by
  induction files generalizing world with
  | nil => exact ⟨unpushed, rfl, rfl⟩
  | cons path rest ih =>
    refine unpushed.look rfl fun resolved later unchanged _ => ?_
    cases resolved with
    | false => exact unchanged
    | true => exact ensures_weaken (ih unchanged.unpushed) fun _ _ => unchanged.trans

theorem ensures_tryResolveConflicts (unpushed : Unpushed baseBranch effectIdOf before world) :
    Gives graph baseBranch tryResolveConflicts
      (Yields refused fun _ => Unchanged baseBranch effectIdOf before world) world := by
  refine unpushed.look rfl fun listed later unchanged _ => ?_
  cases listed with
  | error stderr => exact unchanged
  | ok files =>
    cases files with
    | nil => exact unchanged
    | cons file rest =>
      exact ensures_weaken (ensures_resolveFiles (file :: rest) unchanged.unpushed)
        fun _ _ => unchanged.trans

/-- A merge has led to a newer commit, which includes the old one and the other. -/
def Merged (graph : CommitGraph Commit) (baseBranch : String) (clone : Clone)
    (head other : Commit) : Prop :=
  ∃ newer, AtBase baseBranch clone newer none ∧ graph.Includes newer head ∧
    graph.Includes newer other

theorem ensures_resolveMerge (unpushed : Unpushed baseBranch effectIdOf before world) :
    Gives graph baseBranch resolveMerge
      (Yields refused fun merged later => Unpushed baseBranch effectIdOf before later ∧
        (merged = true → later.history.fetched = world.history.fetched ∧ ∀ head other,
          AtBase baseBranch world.clone head world.clone.mergeHead →
            (world.clone.mergeHead = none ∨ world.clone.mergeHead = some other) →
              Merged graph baseBranch later.clone head other)) world := by
  have abandon (later : GitWorld) (kept : Unpushed baseBranch effectIdOf before later) :
      Gives graph baseBranch (abandonMerge >>= fun _ => pure false : ArbiterProgram Bool)
        (Yields refused fun merged later => Unpushed baseBranch effectIdOf before later ∧
          (merged = true → later.history.fetched = world.history.fetched ∧ ∀ head other,
            AtBase baseBranch world.clone head world.clone.mergeHead →
              (world.clone.mergeHead = none ∨ world.clone.mergeHead = some other) →
                Merged graph baseBranch later.clone head other)) later :=
    ensures_bind (ensures_abandonMerge kept) fun _ last abandoned => ⟨abandoned, nofun⟩
  refine unpushed.look rfl fun listed later unchanged served => ?_
  cases listed with
  | error stderr => exact abandon later unchanged.unpushed
  | ok files =>
    cases files with
    | nil => exact abandon later unchanged.unpushed
    | cons file rest =>
      obtain ⟨circumstance, remote, answered⟩ := served
      have inProgress : world.clone.mergeHead.isSome := by
        simp only [GitWorld.git] at answered
        cases failure : circumstance.failure with
        | some stderr => simp [failure] at answered
        | none =>
          by_contra idle
          simp [failure, idle] at answered
      refine ensures_bind (ensures_tryResolveConflicts unchanged.unpushed)
        fun resolved last still => ?_
      cases resolved with
      | false => exact abandon last still.unpushed
      | true =>
        refine still.unpushed.ensures nofun fun committed final kept served => ?_
        cases committed with
        | error stderr => exact abandon final kept
        | ok _ =>
          refine ⟨kept, fun _ => ?_⟩
          obtain ⟨circumstance, remote, served⟩ := served
          obtain ⟨clone, performed, rfl⟩ := local_ok served
          refine ⟨still.fetched.trans unchanged.fetched, fun head other isAt merging => ?_⟩
          simp only [Clone.perform, still.clone, unchanged.clone] at performed
          rcases merging with idle | merging
          · simp [idle] at inProgress
          · rw [merging] at isAt
            exact isAt.commit performed

theorem ensures_mergeBranch (branch : String)
    (unpushed : Unpushed baseBranch effectIdOf before world) :
    Gives graph baseBranch (mergeBranch branch)
      (Yields refused fun merged later => Unpushed baseBranch effectIdOf before later ∧
        (merged = true → ∀ head, AtBase baseBranch world.clone head none → ∃ other,
          later.history.fetched = world.history.fetched ++ [(some branch, other)] ∧
            Merged graph baseBranch later.clone head other)) world := by
  refine unpushed.ensures nofun fun fetched later kept served => ?_
  cases fetched with
  | error stderr => exact ⟨kept, nofun⟩
  | ok _ =>
    obtain ⟨circumstance, remote, served⟩ := served
    simp only [GitWorld.git] at served
    rcases fetchBranch_cases { world with remote := remote } branch circumstance.failure with
      ⟨other, apart, fetches⟩ | ⟨stderr, failed⟩
    · rw [fetches] at served
      obtain rfl := congrArg Prod.snd served
      refine kept.ensures nofun fun merges final still served => ?_
      obtain ⟨circumstance, remote, served⟩ := served
      cases merges with
      | ok _ =>
        obtain ⟨clone, performed, rfl⟩ := local_ok served
        refine ⟨still, fun _ head isAt => ⟨other, rfl, ?_⟩⟩
        simp only [Clone.perform, GitWorld.fetch, update_self, Option.bind_some]
          at performed
        exact (isAt.fetchBranch apart).merge performed
      | error stderr =>
        obtain rfl := local_error served
        refine ensures_weaken (ensures_resolveMerge still) fun merged last resolved => ?_
        refine ⟨resolved.1, fun merges head isAt => ⟨other, ?_⟩⟩
        obtain ⟨same, includes⟩ := resolved.2 merges
        have tip : ({ world.clone with
            branches := update world.clone.branches branch (some other) } :
              Clone).branches branch = some other := update_self _ _ _
        obtain ⟨there, own⟩ := (isAt.fetchBranch apart).failed tip circumstance
        exact ⟨same, includes head other there own⟩
    · rw [failed] at served
      cases served

/-- The call has merged so far: what it has fetched is included in the base branch, which is
checked out. -/
structure MergedSoFar (graph : CommitGraph Commit) (baseBranch : String) (before world : GitWorld)
    (merged : List String) (head : Commit) : Prop where
  isAt : AtBase baseBranch world.clone head none
  fetched : ∃ fetched, world.history.fetched = before.history.fetched ++ fetched ∧
    (∃ base, (none, base) ∈ fetched) ∧
      (∀ branch ∈ merged, ∃ other, (some branch, other) ∈ fetched) ∧
        ∀ commit ∈ fetched, graph.Includes head commit.2

theorem MergedSoFar.merge {merged : List String} {head other : Commit} {branch : String}
    (soFar : MergedSoFar graph baseBranch before world merged head)
    (fetched : later.history.fetched = world.history.fetched ++ [(some branch, other)])
    (merges : Merged graph baseBranch later.clone head other) :
    ∃ newer, MergedSoFar graph baseBranch before later (merged ++ [branch]) newer := by
  obtain ⟨newer, isAt, includesHead, includesOther⟩ := merges
  obtain ⟨-, earlier, same, ⟨base, known⟩, heads, included⟩ := soFar
  refine ⟨newer, isAt, earlier ++ [(some branch, other)], ?_, ⟨base, ?_⟩, ?_, ?_⟩
  · rw [fetched, same, append_assoc]
  · exact mem_append_left _ known
  · intro name member
    rcases mem_append.mp member with old | last
    · obtain ⟨commit, found⟩ := heads name old
      exact ⟨commit, mem_append_left _ found⟩
    · rw [mem_singleton.mp last]
      exact ⟨other, mem_append_right _ mem_cons_self⟩
  · intro commit member
    rcases mem_append.mp member with old | last
    · exact includesHead.trans (included commit old)
    · rw [mem_singleton.mp last]
      exact includesOther

theorem ensures_mergeBranches (branches merged conflicts : List String)
    (unpushed : Unpushed baseBranch effectIdOf before world)
    (soFar : conflicts = [] → ∃ head, MergedSoFar graph baseBranch before world merged head) :
    Gives graph baseBranch (mergeBranches branches merged conflicts)
      (Yields refused fun sorted later =>
        Unpushed baseBranch effectIdOf before later ∧
          (sorted.1 ++ sorted.2).Perm (merged ++ conflicts ++ branches) ∧
            (sorted.2 = [] →
              ∃ head, MergedSoFar graph baseBranch before later sorted.1 head)) world := by
  induction branches generalizing merged conflicts world with
  | nil =>
    refine ⟨unpushed, ?_, soFar⟩
    rw [append_nil]
  | cons branch rest ih =>
    refine ensures_bind (ensures_mergeBranch branch unpushed) fun mergedHere later served => ?_
    obtain ⟨kept, merges⟩ := served
    cases mergedHere with
    | true =>
      refine ensures_weaken (ih (merged ++ [branch]) conflicts kept fun none => ?_)
        fun sorted last ensured => ⟨ensured.1, ensured.2.1.trans ?_, ensured.2.2⟩
      · obtain ⟨head, soFar⟩ := soFar none
        obtain ⟨other, fetched, includes⟩ := merges rfl head soFar.isAt
        exact soFar.merge fetched includes
      · simp only [append_assoc, singleton_append]
        exact (perm_append_left_iff merged).mpr perm_middle.symm
    | false =>
      refine ensures_weaken (ih merged (conflicts ++ [branch]) kept (by simp))
        fun sorted last ensured => ⟨ensured.1, ensured.2.1.trans (.of_eq ?_), ensured.2.2⟩
      simp

end Merge

end UltimateCoders.Arbiter
