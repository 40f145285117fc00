import UltimateCoders.Arbiter.CommitGraph
import UltimateCoders.Arbiter.Push

/-! # Arbitration

The arbiter brings its clone to the base branch of the remote, merges the branches one by one, and
publishes the base branch if all of them were merged. Git is a graph of commits with references in
the clone and at the remote; any command may fail, and others may move the remote in between.
-/

namespace UltimateCoders.Arbiter

open UltimateCoders.Runtime Transition Function

structure MergeArbiter where
  remoteUrl : String
  baseBranch : String := "main"
  remoteName : String := "origin"
  hasLedger : Bool
  deriving DecidableEq

namespace MergeArbiter

def resolveFiles : List String → ArbiterProgram Bool
  | [] => return true
  | path :: rest => do
      if ← git (.resolveFile path) then resolveFiles rest else return false

/-- `_try_resolve_conflicts`. -/
def tryResolveConflicts : ArbiterProgram Bool := do
  match ← git .unmergedFiles with
  | .error _ => return false
  | .ok files => if files = [] then return false else resolveFiles files

def abandonMerge : ArbiterProgram Unit := do
  match ← git .abortMerge with
  | .ok _ => return ()
  | .error _ =>
    let _ ← git .resetBase
    return ()

/-- What is done where a merge has failed; whether the branch is merged nevertheless. -/
def resolveMerge : ArbiterProgram Bool := do
  match ← git .unmergedFiles with
  | .error _ | .ok [] =>
    abandonMerge
    return false
  | .ok (_ :: _) =>
    if ← tryResolveConflicts then
      match ← git .commit with
      | .ok _ => return true
      | .error _ =>
        abandonMerge
        return false
    else
      abandonMerge
      return false

/-- One turn of the loop: fetch the branch and merge it. -/
def mergeBranch (branch : String) : ArbiterProgram Bool := do
  match ← git (.fetchBranch branch) with
  | .error _ => return false
  | .ok _ =>
    match ← git (.merge branch) with
    | .ok _ => return true
    | .error _ => resolveMerge

/-- The loop; the branches that were merged and those that were not. -/
def mergeBranches : List String → List String → List String →
    ArbiterProgram (List String × List String)
  | [], merged, conflicts => return (merged, conflicts)
  | branch :: rest, merged, conflicts => do
      if ← mergeBranch branch then mergeBranches rest (merged ++ [branch]) conflicts
      else mergeBranches rest merged (conflicts ++ [branch])

/-- Check the base branch out, or create it. -/
def checkout : ArbiterProgram (Except String Unit) := do
  match ← git .checkoutBase with
  | .ok _ => return .ok ()
  | .error _ => git .createBase

/-- The identity of publishing a commit to the base branch. -/
def pushEffectId (arbiter : MergeArbiter) (sha1Hex : String → String) (head : Commit) : String :=
  stableEffectId sha1Hex "push-main" [arbiter.remoteName, arbiter.baseBranch, head]

/-- `_arbitrate_impl`. -/
def arbitrate (arbiter : MergeArbiter) (sha1Hex : String → String) (branches : List String) :
    ArbiterProgram ArbitrationResult := do
  if arbiter.remoteUrl = "" then return {}
  else if branches = [] then return {}
  else
    match ← git .fetchBase with
    | .error stderr =>
      return { status := .failed, error := "fetch base failed: " ++ shortened stderr }
    | .ok _ =>
      match ← checkout with
      | .error stderr =>
        return { status := .failed, error := "checkout base failed: " ++ shortened stderr }
      | .ok _ =>
        match ← git .resetBase with
        | .error stderr =>
          return { status := .failed, error := "reset base failed: " ++ shortened stderr }
        | .ok _ =>
          let (merged, conflicts) ← mergeBranches branches [] []
          let result : ArbitrationResult :=
            { mergedBranches := merged, conflictBranches := conflicts }
          if conflicts ≠ [] then
            return { result with status := .conflict, pushStatus := .skipped }
          else pushBaseBranch arbiter.hasLedger (arbiter.pushEffectId sha1Hex) result

end MergeArbiter

inductive HeadRef where
  | branch (name : String)
  | detached (commit : Commit)
  deriving DecidableEq

/-- The references of the clone; a merge that stopped at a conflict is still in progress. -/
structure Clone where
  head : HeadRef
  branches : String → Option Commit
  tracking : Option Commit
  mergeHead : Option Commit

namespace Clone

def headCommit (clone : Clone) : Option Commit :=
  match clone.head with
  | .branch name => clone.branches name
  | .detached commit => some commit

/-- Move the head, and with it the branch that is checked out. -/
def moveHead (clone : Clone) (commit : Commit) : Clone :=
  match clone.head with
  | .branch name => { clone with branches := update clone.branches name (some commit) }
  | .detached _ => { clone with head := .detached commit }

end Clone

/-- The branches of the remote, and the commits that its base branch has been at. -/
structure RemoteState where
  branches : String → Option Commit
  positions : List Commit

def RemoteState.move (baseBranch : String) (remote : RemoteState) (branch : String)
    (head : Option Commit) : RemoteState where
  branches := update remote.branches branch head
  positions := if branch = baseBranch then remote.positions ++ head.toList else remote.positions

/-- What the commands of the arbiter did: what was fetched for which branch, how pushes ended, and
the commits to which they have moved the base branch of the remote. -/
structure GitHistory where
  fetched : List (Option String × Commit) := []
  pushes : List (Except String Unit) := []
  published : List Commit := []

structure GitWorld where
  remote : RemoteState
  clone : Clone
  ledger : Ledger
  history : GitHistory

/-- What is up to the environment when an operation is served: the branches of the remote that
others have moved, whether the command fails, the commit that it makes, and what it reports. -/
structure Circumstance where
  now : Seconds
  moved : List (String × Option Commit) := []
  failure : Option String := none
  /-- A merge that fails stops at a conflict. -/
  conflicts : Bool := false
  /-- A push that fails has reached the remote. -/
  applied : Bool := false
  made : Commit := ""
  files : List String := []
  resolved : Bool := false

namespace GitWorld

def meanwhile (baseBranch : String) (world : GitWorld) (circumstance : Circumstance) : GitWorld :=
  { world with
    remote := circumstance.moved.foldl (fun remote move => remote.move baseBranch move.1 move.2)
      world.remote }

def fetch (world : GitWorld) (clone : Clone) (branch : Option String) (commit : Commit) :
    GitWorld :=
  { world with
    clone := clone
    history := { world.history with fetched := world.history.fetched ++ [(branch, commit)] } }

/-- A push ends that has not moved the base branch. -/
def pushFailed (world : GitWorld) (answer : Except String Unit) : GitWorld :=
  { world with history := { world.history with pushes := world.history.pushes ++ [answer] } }

def pushApplied (baseBranch : String) (world : GitWorld) (answer : Except String Unit)
    (head : Commit) : GitWorld :=
  { world with
    remote := world.remote.move baseBranch baseBranch (some head)
    history := { world.history with
      pushes := world.history.pushes ++ [answer]
      published := world.history.published ++ [head] } }

end GitWorld

section Commands

variable (graph : CommitGraph Commit) (baseBranch : String)

/-- `merge` of a commit: nothing to do, a fast forward, or a commit with both as parents. -/
def Clone.merge (clone : Clone) (commit made : Commit) : Option Clone :=
  match clone.headCommit with
  | none => none
  | some head =>
    if clone.mergeHead ≠ none then none
    else if graph.Includes head commit then some clone
    else if graph.Includes commit head then some (clone.moveHead commit)
    else if graph.parents made = [head, commit] then some (clone.moveHead made)
    else none

/-- `commit`, which ends a merge in progress. -/
def Clone.commit (clone : Clone) (made : Commit) : Option Clone :=
  match clone.headCommit, clone.mergeHead with
  | some head, some commit =>
    if graph.parents made = [head, commit] then
      some { clone.moveHead made with mergeHead := none }
    else none
  | some head, none => if graph.parents made = [head] then some (clone.moveHead made) else none
  | none, _ => none

/-- The clone after a command that changes nothing else and does not fail. -/
def Clone.perform (clone : Clone) (circumstance : Circumstance) : GitOperation → Option Clone
  | .checkoutBase =>
    if (clone.branches baseBranch).isSome then some { clone with head := .branch baseBranch }
    else none
  | .createBase =>
    match clone.branches baseBranch, clone.tracking with
    | none, some commit => some { clone with
        head := .branch baseBranch
        branches := update clone.branches baseBranch (some commit) }
    | _, _ => none
  | .resetBase => clone.tracking.map fun commit => { clone.moveHead commit with mergeHead := none }
  | .merge branch => (clone.branches branch).bind fun commit =>
    clone.merge graph commit circumstance.made
  | .abortMerge => if clone.mergeHead.isSome then some { clone with mergeHead := none } else none
  | .commit => clone.commit graph circumstance.made
  | _ => none

/-- The clone after a command that fails: a merge may have stopped at a conflict. -/
def Clone.failed (clone : Clone) (circumstance : Circumstance) : GitOperation → Clone
  | .merge branch =>
    if circumstance.conflicts ∧ clone.mergeHead = none then
      { clone with mergeHead := clone.branches branch }
    else clone
  | _ => clone

/-- A command that changes the clone only. -/
def GitWorld.local (world : GitWorld) (circumstance : Circumstance) (operation : GitOperation) :
    Except String Unit × GitWorld :=
  match circumstance.failure, world.clone.perform graph baseBranch circumstance operation with
  | none, some clone => (.ok (), { world with clone := clone })
  | failure, _ => (.error (failure.getD "fatal"),
      { world with clone := world.clone.failed circumstance operation })

/-- `fetch` of the base branch moves the tracking branch. -/
def GitWorld.fetchBase (world : GitWorld) (failure : Option String) :
    Except String Unit × GitWorld :=
  match failure, world.remote.branches baseBranch with
  | none, some commit =>
    (.ok (), world.fetch { world.clone with tracking := some commit } none commit)
  | failure, _ => (.error (failure.getD "fatal: couldn't find remote ref"), world)

/-- `fetch` of a branch into the branch of that name, unless it is checked out. -/
def GitWorld.fetchBranch (world : GitWorld) (branch : String) (failure : Option String) :
    Except String Unit × GitWorld :=
  match failure, world.remote.branches branch with
  | none, some commit =>
    if world.clone.head = .branch branch then
      (.error "fatal: refusing to fetch into branch checked out", world)
    else
      (.ok (), world.fetch { world.clone with
        branches := update world.clone.branches branch (some commit) }
          (some branch) commit)
  | failure, _ => (.error (failure.getD "fatal: couldn't find remote ref"), world)

/-- `push` of the base branch, not forced: only a head that includes the one of the remote is
accepted. Where the push fails, the remote may have accepted it unless the failure is definite. -/
def GitWorld.push (world : GitWorld) (circumstance : Circumstance) :
    Except String Unit × GitWorld :=
  match world.clone.branches baseBranch with
  | none =>
    let answer := .error "error: src refspec does not match any"
    (answer, world.pushFailed answer)
  | some head =>
    let accepted := ∀ remote ∈ world.remote.branches baseBranch, graph.Includes head remote
    match circumstance.failure with
    | some stderr =>
      if accepted ∧ circumstance.applied ∧ ambiguousPushFailure stderr then
        (.error stderr, world.pushApplied baseBranch (.error stderr) head)
      else (.error stderr, world.pushFailed (.error stderr))
    | none =>
      if accepted then
        (.ok (), { world.pushApplied baseBranch (.ok ()) head with
          clone := { world.clone with tracking := some head } })
      else
        let answer := .error "! [rejected] (non-fast-forward)"
        (answer, world.pushFailed answer)

/-- Serve a git command. -/
def GitWorld.git (world : GitWorld) (circumstance : Circumstance) :
    (operation : GitOperation) → operation.Answer × GitWorld
  | .fetchBase => world.fetchBase baseBranch circumstance.failure
  | .fetchBranch branch => world.fetchBranch branch circumstance.failure
  | .unmergedFiles => match circumstance.failure with
      | some stderr => (.error stderr, world)
      | none => (.ok (if world.clone.mergeHead.isSome then circumstance.files else []), world)
  | .resolveFile _ => (circumstance.resolved, world)
  | .push => world.push graph baseBranch circumstance
  | .head => (if circumstance.failure.isSome then "" else world.clone.headCommit.getD "", world)
  | .trackingHead =>
    (if circumstance.failure.isSome then "" else world.clone.tracking.getD "", world)
  | .lsRemote => match circumstance.failure with
      | some stderr => (.error stderr, world)
      | none => (.ok ((world.remote.branches baseBranch).getD ""), world)
  | .checkoutBase => world.local graph baseBranch circumstance .checkoutBase
  | .createBase => world.local graph baseBranch circumstance .createBase
  | .resetBase => world.local graph baseBranch circumstance .resetBase
  | .merge branch => world.local graph baseBranch circumstance (.merge branch)
  | .abortMerge => world.local graph baseBranch circumstance .abortMerge
  | .commit => world.local graph baseBranch circumstance .commit

/-- Serve an operation of the arbiter; others have moved the remote before. -/
def GitWorld.execute (circumstance : Circumstance) (operation : ArbiterOperation)
    (world : GitWorld) : operation.Answer × GitWorld :=
  let reached := world.meanwhile baseBranch circumstance
  match operation with
  | .git operation => reached.git graph baseBranch circumstance operation
  | .get effectId => (reached.ledger effectId, reached)
  | .ledger effectId request =>
    match EffectLedger.handle effectId request circumstance.now (reached.ledger effectId) with
    | .ok record => (.ok record,
        { reached with ledger := update reached.ledger effectId (some record) })
    | .error error => (.error error, reached)

end Commands

end UltimateCoders.Arbiter
