import UltimateCoders.Orchestrator.ClaimLoop
import UltimateCoders.Search.Entries

/-! # What runs side by side

The gate asks what the newcomer is graded, not what is already running: a subtask that is graded
high finds nothing else claimed, but others may join it in a later tick.
-/

namespace UltimateCoders.Orchestrator

open Transition List

/-- What the gate reads of a subtask, which nothing changes. -/
def SubtaskResult.stamp (subtask : SubtaskResult) : String × ConflictRisk :=
  (subtask.id, subtask.risk)

@[simp] theorem SubtaskResult.stamp_adopt (subtask : SubtaskResult) (sst : SubtaskSync) :
    (subtask.adopt sst).stamp = subtask.stamp := by
  unfold adopt
  dsimp only
  split <;> (try split) <;> rfl

theorem stamp_adoptAll (claimed : List String) (server : List SubtaskSync)
    (subtasks : List SubtaskResult) :
    (adoptAll claimed server subtasks).map SubtaskResult.stamp =
      subtasks.map SubtaskResult.stamp := by
  unfold adoptAll
  induction server generalizing subtasks with
  | nil => rfl
  | cons sst server ih =>
    rw [foldl_cons, ih]
    split
    · rfl
    · exact Search.map_modify_eq fun subtask => subtask.stamp_adopt sst

variable {risk : String → ConflictRisk} {ids : List String} {loop next : ClaimLoop} {batch : Batch}

/-- The medium ones that the loop over the subtasks reckons with. -/
def Batch.mediums (batch : Batch) : Nat :=
  batch.inflightMedium + (batch.selected.filter (·.risk = .medium)).length

def TickHolds (risk : String → ConflictRisk) (ids : List String) (loop : ClaimLoop) : Prop :=
  match loop.tick with
  | .idle | .adopted _ => True
  | .claiming batch => ∀ id ∈ loop.claimed, risk id = .medium → 0 < batch.mediums
  | .reporting batch => ∀ id, ids[batch.position]? = some id →
      id ∉ loop.claimed ∧ (risk id = .high → loop.claimed = []) ∧
        (∀ other ∈ loop.claimed, risk other = .medium → 0 < batch.mediums) ∧
          (risk id = .medium → batch.mediums = 0)
  | .starting batch => ∀ id, ids[batch.position]? = some id →
      id ∈ loop.claimed ∧ id ∉ loop.executing ∧ id ∉ loop.finishing ∧
        (risk id = .high → ∀ other ∈ loop.claimed, other = id) ∧
          (∀ other ∈ loop.claimed, risk other = .medium → other = id ∨ 0 < batch.mediums) ∧
            (risk id = .medium → batch.mediums = 0)

/-- What is executed or finishing is claimed, and the tick knows what is claimed. -/
structure Gated (risk : String → ConflictRisk) (ids : List String) (loop : ClaimLoop) : Prop where
  kept : loop.subtasks.map SubtaskResult.stamp = ids.map fun id => (id, risk id)
  known : ∀ id ∈ loop.claimed, id ∈ ids
  executing : ∀ id ∈ loop.executing, id ∈ loop.claimed
  finishing : ∀ id ∈ loop.finishing, id ∈ loop.claimed ∧ id ∉ loop.executing
  tick : TickHolds risk ids loop

variable {subtask : SubtaskResult}

section

variable (gated : Gated risk ids loop)

include gated

theorem Gated.risk_eq (member : subtask ∈ loop.subtasks) : subtask.risk = risk subtask.id := by
  have stamped : subtask.stamp ∈ ids.map fun id => (id, risk id) :=
    gated.kept ▸ mem_map_of_mem member
  obtain ⟨id, _, same⟩ := mem_map.mp stamped
  simp only [SubtaskResult.stamp, Prod.mk.injEq] at same
  rw [← same.1, ← same.2]

theorem Gated.at_position {position : Nat} (here : loop.subtasks[position]? = some subtask) :
    ids[position]? = some subtask.id := by
  have stamped := congrArg (·[position]?) gated.kept
  simp only [getElem?_map, here, Option.map_some] at stamped
  cases found : ids[position]? with
  | none => simp [found] at stamped
  | some id =>
    rw [found] at stamped
    simp only [SubtaskResult.stamp, Option.map_some, Option.some.injEq, Prod.mk.injEq] at stamped
    rw [stamped.1]

theorem Gated.exists_at {id : String} (member : id ∈ ids) :
    ∃ subtask ∈ loop.subtasks, subtask.id = id := by
  have stamped : (id, risk id) ∈ loop.subtasks.map SubtaskResult.stamp :=
    gated.kept ▸ mem_map_of_mem member
  obtain ⟨subtask, listed, same⟩ := mem_map.mp stamped
  exact ⟨subtask, listed, congrArg Prod.fst same⟩

theorem Gated.inflightMedium_pos {id : String} (claimed : id ∈ loop.claimed)
    (medium : risk id = .medium) : 0 < loop.inflightMedium := by
  obtain ⟨subtask, listed, sameId⟩ := gated.exists_at (gated.known id claimed)
  have present : (loop.subtasks.reverse.find? fun subtask => subtask.id = id).isSome :=
    find?_isSome.mpr ⟨subtask, mem_reverse.mpr listed, decide_eq_true sameId⟩
  obtain ⟨found, foundEq⟩ := Option.isSome_iff_exists.mp present
  have foundId : found.id = id := by simpa using find?_some foundEq
  have graded := gated.risk_eq (mem_reverse.mp (mem_of_find?_eq_some foundEq))
  have stored : found.conflictRisk = some .medium := by
    rw [foundId, medium, SubtaskResult.risk] at graded
    cases stored : found.conflictRisk with
    | none => rw [stored] at graded; cases graded
    | some risk => rw [stored] at graded; exact congrArg some graded
  refine length_pos_iff.mpr (ne_nil_of_mem (mem_filter.mpr ⟨claimed, ?_⟩))
  rw [foundEq, Option.bind_some, stored]
  exact decide_eq_true rfl

end

theorem admitted_high (high : subtask.risk = .high)
    (admitted : subtask.admitted loop.claimed batch.inflightMedium batch.selected) :
    loop.claimed = [] := by
  simp only [SubtaskResult.admitted, high, Bool.and_eq_true, List.isEmpty_iff] at admitted
  exact admitted.1

theorem admitted_medium (medium : subtask.risk = .medium)
    (admitted : subtask.admitted loop.claimed batch.inflightMedium batch.selected) :
    batch.mediums = 0 := by
  simp only [SubtaskResult.admitted, medium, decide_eq_true_eq] at admitted
  exact admitted

theorem not_mem_of_claimable {server : List SubtaskSync}
    (claimable : subtask.claimable loop.claimed server) : subtask.id ∉ loop.claimed := by
  simp only [SubtaskResult.claimable, Bool.and_eq_true, decide_eq_true_eq] at claimable
  exact claimable.1.1.1.2

section

variable (gated : Gated risk ids loop)

include gated

theorem Gated.setStatus (position : Nat) (status : LocalStatus) {tick : Tick}
    (holds : TickHolds risk ids { loop with tick }) :
    Gated risk ids { loop.setStatus position status with tick } where
  kept := by
    refine Eq.trans ?_ gated.kept
    exact Search.map_modify_eq fun _ => rfl
  known := gated.known
  executing := gated.executing
  finishing := gated.finishing
  tick := by
    cases tick <;> exact holds

theorem Gated.withTick {tick : Tick} (holds : TickHolds risk ids { loop with tick }) :
    Gated risk ids { loop with tick } where
  kept := gated.kept
  known := gated.known
  executing := gated.executing
  finishing := gated.finishing
  tick := holds

theorem Gated.scan (here : loop.tick = .claiming batch) : Gated risk ids (loop.scan batch) := by
  have counted : ∀ id ∈ loop.claimed, risk id = .medium → 0 < batch.mediums := by
    have holds := gated.tick
    rwa [TickHolds, here] at holds
  unfold ClaimLoop.scan
  split
  · exact gated.withTick trivial
  · rename_i subtask found
    split
    · exact gated.withTick trivial
    · split
      · rename_i ready
        rw [Bool.and_eq_true] at ready
        refine gated.setStatus _ _ fun id at_position => ?_
        rw [gated.at_position found, Option.some.injEq] at at_position
        have graded := gated.risk_eq (mem_of_getElem? found)
        rw [at_position] at graded
        exact ⟨at_position ▸ not_mem_of_claimable ready.1,
          fun high => admitted_high (graded.trans high) ready.2, counted,
          fun medium => admitted_medium (graded.trans medium) ready.2⟩
      · exact gated.withTick counted

theorem Gated.accepted (here : loop.tick = .reporting batch)
    (found : loop.subtasks[batch.position]? = some subtask) : Gated risk ids { loop with
      claimed := loop.claimed.insert subtask.id
      tick := .starting batch } := by
  have position := gated.at_position found
  have holds := gated.tick
  rw [TickHolds, here] at holds
  obtain ⟨fresh, alone, counted, first⟩ := holds _ position
  refine ⟨gated.kept, fun id claimed => ?_, fun id executing => ?_, fun id finishing => ?_,
    fun id at_position => ?_⟩
  · rcases mem_insert_iff.mp claimed with rfl | claimed
    · exact mem_of_getElem? position
    · exact gated.known id claimed
  · exact mem_insert_of_mem (gated.executing id executing)
  · exact ⟨mem_insert_of_mem (gated.finishing id finishing).1, (gated.finishing id finishing).2⟩
  · rw [position, Option.some.injEq] at at_position
    subst at_position
    refine ⟨mem_insert_self, fun executing => fresh (gated.executing _ executing),
      fun finishing => fresh (gated.finishing _ finishing).1, fun high other claimed => ?_,
      fun other claimed medium => ?_, first⟩
    · rw [alone high] at claimed
      simpa using claimed
    · rcases mem_insert_iff.mp claimed with same | claimed
      · exact .inl same
      · exact .inr (counted other claimed medium)

theorem Gated.started (here : loop.tick = .starting batch)
    (found : loop.subtasks[batch.position]? = some subtask) : Gated risk ids { loop with
      executing := loop.executing ++ [subtask.id]
      tick := if subtask.risk = .high then .idle
        else .claiming { batch.next with selected := batch.selected ++ [subtask] } } := by
  have holds := gated.tick
  rw [TickHolds, here] at holds
  obtain ⟨claimed, _, settled, _, counted, _⟩ := holds _ (gated.at_position found)
  have graded := gated.risk_eq (mem_of_getElem? found)
  refine ⟨gated.kept, gated.known, fun id executing => ?_, fun id finishing => ?_, ?_⟩
  · rcases mem_append.mp executing with before | last
    · exact gated.executing id before
    · rwa [mem_singleton.mp last]
  · refine ⟨(gated.finishing id finishing).1, fun executing => ?_⟩
    rcases mem_append.mp executing with before | last
    · exact (gated.finishing id finishing).2 before
    · rw [mem_singleton.mp last] at finishing
      exact settled finishing
  · split
    · exact trivial
    · intro id known medium
      have more : ({ batch.next with selected := batch.selected ++ [subtask] } : Batch).mediums =
          batch.mediums + ([subtask].filter (·.risk = .medium)).length := by
        simp only [Batch.mediums, Batch.next, filter_append, length_append]
        omega
      rw [more]
      rcases counted id known medium with rfl | before
      · simp [graded, medium]
      · omega

end

theorem TickHolds.mono (holds : TickHolds risk ids loop) {changed : ClaimLoop}
    (sameTick : changed.tick = loop.tick)
    (claimed : ∀ id ∈ changed.claimed, id ∈ loop.claimed)
    (still : ∀ id ∈ loop.claimed, id ∉ loop.finishing → id ∈ changed.claimed)
    (executing : ∀ id ∈ changed.executing, id ∈ loop.executing)
    (finishing : ∀ id ∈ changed.finishing, id ∈ loop.finishing ∨ id ∈ loop.executing) :
    TickHolds risk ids changed := by
  unfold TickHolds at holds ⊢
  rw [sameTick]
  cases here : loop.tick with
  | idle | adopted server => trivial
  | claiming batch =>
    rw [here] at holds
    exact fun id member => holds id (claimed id member)
  | reporting batch =>
    rw [here] at holds
    intro id position
    obtain ⟨fresh, alone, counted, first⟩ := holds id position
    refine ⟨fun member => fresh (claimed id member), fun high => ?_,
      fun other member => counted other (claimed other member), first⟩
    refine eq_nil_iff_forall_not_mem.mpr fun other member => ?_
    have none := claimed other member
    rw [alone high] at none
    cases none
  | starting batch =>
    rw [here] at holds
    intro id position
    obtain ⟨own, notYet, unsettled, alone, counted, first⟩ := holds id position
    refine ⟨still id own unsettled, fun member => notYet (executing id member),
      fun member => (finishing id member).elim unsettled notYet,
      fun high other member => alone high other (claimed other member),
      fun other member => counted other (claimed other member), first⟩

theorem Gated.step (gated : Gated risk ids loop) {move : ClaimLoop.Move}
    (moved : loop.step move = some next) : Gated risk ids next := by
  cases move with
  | reconcile server =>
    simp only [ClaimLoop.step] at moved
    split at moved <;> cases moved
    exact ⟨(stamp_adoptAll _ _ _).trans gated.kept, gated.known, gated.executing,
      gated.finishing, trivial⟩
  | gate =>
    simp only [ClaimLoop.step] at moved
    split at moved
    · split at moved <;> cases moved
      · exact gated.withTick trivial
      · exact gated.withTick fun id claimed medium => gated.inflightMedium_pos claimed medium
    · cases moved
  | scan =>
    simp only [ClaimLoop.step] at moved
    split at moved
    · rename_i here
      cases moved
      exact gated.scan here
    · cases moved
  | reported accepted =>
    simp only [ClaimLoop.step] at moved
    split at moved
    · rename_i batch here
      obtain ⟨subtask, found, rfl⟩ := Option.map_eq_some_iff.mp moved
      split
      · exact gated.accepted here found
      · have holds := gated.tick
        rw [TickHolds, here] at holds
        exact gated.setStatus _ _ (holds _ (gated.at_position found)).2.2.1
    · cases moved
  | start =>
    simp only [ClaimLoop.step] at moved
    split at moved
    · rename_i batch here
      obtain ⟨subtask, found, rfl⟩ := Option.map_eq_some_iff.mp moved
      exact gated.started here found
    · cases moved
  | outcome id status result error =>
    simp only [ClaimLoop.step] at moved
    split at moved <;> cases moved
    rename_i running
    refine ⟨?_, gated.known, fun other member => ?_, fun other member => ?_,
      gated.tick.mono rfl (fun _ claimed => claimed) (fun _ claimed _ => claimed)
        (fun other member => (mem_filter.mp member).1) fun other member => ?_⟩
    · refine Eq.trans ?_ gated.kept
      exact Search.map_modify_eq fun _ => rfl
    · exact gated.executing other (mem_filter.mp member).1
    · rcases mem_append.mp member with before | last
      · refine ⟨(gated.finishing other before).1, fun running => ?_⟩
        exact (gated.finishing other before).2 (mem_filter.mp running).1
      · rw [mem_singleton.mp last]
        exact ⟨gated.executing id running, by simp⟩
    · rcases mem_append.mp member with before | last
      · exact .inl before
      · exact .inr (mem_singleton.mp last ▸ running)
  | unclaim id =>
    simp only [ClaimLoop.step] at moved
    split at moved <;> cases moved
    rename_i finished
    refine ⟨gated.kept, fun other member => gated.known other (mem_filter.mp member).1,
      fun other member => ?_, fun other member => ?_, gated.tick.mono rfl
        (fun other member => (mem_filter.mp member).1) (fun other claimed unsettled => ?_)
        (fun _ executing => executing) fun other member => .inl (mem_filter.mp member).1⟩
    · refine mem_filter.mpr ⟨gated.executing other member, decide_eq_true fun same => ?_⟩
      exact (gated.finishing id finished).2 (same ▸ member)
    · obtain ⟨before, different⟩ := mem_filter.mp member
      exact ⟨mem_filter.mpr ⟨(gated.finishing other before).1, different⟩,
        (gated.finishing other before).2⟩
    · refine mem_filter.mpr ⟨claimed, decide_eq_true fun same => ?_⟩
      exact unsettled (same ▸ finished)

/-- The subtask that the next move starts. -/
def ClaimLoop.beingStarted (loop : ClaimLoop) : Option String :=
  match loop.tick with
  | .starting batch => (loop.subtasks[batch.position]?).map SubtaskResult.id
  | _ => none

open ClaimLoop (Move)

/-- Nothing that is not graded high itself joins what is graded high. -/
def Joins (risk : String → ConflictRisk) (loop : ClaimLoop) (move : Move) : Prop :=
  move = .start → ∀ id ∈ loop.beingStarted, risk id ≠ .high →
    ∀ other ∈ loop.executing, risk other ≠ .high

/-- What is graded high is alone, and of what is graded medium there is one. -/
def Apart (risk : String → ConflictRisk) (executing : List String) : Prop :=
  ∀ one ∈ executing, ∀ other ∈ executing, one ≠ other →
    risk one ≠ .high ∧ (risk one = .medium → risk other ≠ .medium)

theorem Apart.mono {executing fewer : List String} (apart : Apart risk executing)
    (still : ∀ id ∈ fewer, id ∈ executing) : Apart risk fewer :=
  fun one oneMem other otherMem => apart one (still one oneMem) other (still other otherMem)

/-- Only a start adds to what is executed. -/
theorem executing_of_step {move : Move} (moved : loop.step move = some next)
    (other : move ≠ .start) : ∀ id ∈ next.executing, id ∈ loop.executing := by
  intro id member
  cases move with
  | start => exact absurd rfl other
  | scan =>
    simp only [ClaimLoop.step] at moved
    split at moved <;> cases moved
    unfold ClaimLoop.scan at member
    split at member
    · exact member
    · split at member
      · exact member
      · split at member <;> exact member
  | outcome finished status result error =>
    simp only [ClaimLoop.step] at moved
    split at moved <;> cases moved
    exact (mem_filter.mp member).1
  | reconcile server | unclaim finished =>
    simp only [ClaimLoop.step] at moved
    split at moved <;> cases moved
    exact member
  | gate =>
    simp only [ClaimLoop.step] at moved
    split at moved
    · split at moved <;> cases moved <;> exact member
    · cases moved
  | reported accepted =>
    simp only [ClaimLoop.step] at moved
    split at moved
    · obtain ⟨subtask, _, rfl⟩ := Option.map_eq_some_iff.mp moved
      split at member <;> exact member
    · cases moved

theorem Gated.apart_start (gated : Gated risk ids loop) (here : loop.tick = .starting batch)
    (found : loop.subtasks[batch.position]? = some subtask) (apart : Apart risk loop.executing) :
    Apart risk (loop.executing ++ [subtask.id]) ↔
      (risk subtask.id ≠ .high → ∀ other ∈ loop.executing, risk other ≠ .high) := by
  have holds := gated.tick
  rw [TickHolds, here] at holds
  obtain ⟨_, fresh, _, alone, counted, first⟩ := holds _ (gated.at_position found)
  have differs {other : String} (member : other ∈ loop.executing) : other ≠ subtask.id :=
    fun same => fresh (same ▸ member)
  constructor
  · intro together _ other member
    exact (together other (mem_append_left _ member) subtask.id
      (mem_append_right _ mem_cons_self) (differs member)).1
  · intro joins one oneMem other otherMem different
    have lone : risk subtask.id = .high → ∀ other, other ∉ loop.executing :=
      fun high other member => differs member (alone high other (gated.executing other member))
    have single : risk subtask.id = .medium → ∀ other ∈ loop.executing, risk other ≠ .medium := by
      intro medium other member second
      rcases counted other (gated.executing other member) second with same | some
      · exact differs member same
      · rw [first medium] at some
        exact absurd some (lt_irrefl 0)
    rcases mem_append.mp oneMem with oneMem | oneLast
    · rcases mem_append.mp otherMem with otherMem | otherLast
      · exact apart one oneMem other otherMem different
      · rw [mem_singleton.mp otherLast]
        refine ⟨joins (fun high => lone high one oneMem) one oneMem, fun medium second => ?_⟩
        exact single second one oneMem medium
    · rw [mem_singleton.mp oneLast] at different ⊢
      rcases mem_append.mp otherMem with otherMem | otherLast
      · exact ⟨fun high => lone high other otherMem, fun medium => single medium other otherMem⟩
      · exact absurd (mem_singleton.mp otherLast).symm different

theorem Gated.apart_step (gated : Gated risk ids loop) {move : Move}
    (moved : loop.step move = some next) (apart : Apart risk loop.executing) :
    Apart risk next.executing ↔ Joins risk loop move := by
  by_cases starts : move = .start
  · subst starts
    simp only [ClaimLoop.step] at moved
    split at moved
    · rename_i batch here
      obtain ⟨subtask, found, rfl⟩ := Option.map_eq_some_iff.mp moved
      rw [gated.apart_start here found apart]
      simp [Joins, ClaimLoop.beingStarted, here, found]
    · cases moved
  · exact ⟨fun _ start => absurd start starts, fun _ => apart.mono (executing_of_step moved starts)⟩

/-- The subtasks are apart in every state of a run exactly if nothing joins what is graded high. -/
theorem Gated.apart_run {moves : List Move} {target : ClaimLoop}
    (gated : Gated risk ids loop) (apart : Apart risk loop.executing)
    (ran : runAll ClaimLoop.step loop moves = some target) :
    (∀ front rest reached, moves = front ++ rest →
      runAll ClaimLoop.step loop front = some reached → Apart risk reached.executing) ↔
    (∀ front move rest reached, moves = front ++ move :: rest →
      runAll ClaimLoop.step loop front = some reached → Joins risk reached move) := by
  induction moves generalizing loop with
  | nil =>
    refine ⟨fun _ front move rest _ cut => ?_, fun _ front rest reached cut run => ?_⟩
    · cases front <;> cases cut
    · obtain ⟨rfl, rfl⟩ := append_eq_nil_iff.mp cut.symm
      cases run
      exact apart
  | cons move moves ih =>
    obtain ⟨next, moved, ran⟩ := Option.bind_eq_some_iff.mp ran
    have onward (front : List Move) :
        runAll ClaimLoop.step loop (move :: front) = runAll ClaimLoop.step next front := by
      rw [runAll, moved, Option.bind_some]
    have here := gated.apart_step moved apart
    constructor
    · intro always front other rest reached cut run
      have nextApart := always [move] moves next rfl (onward [])
      cases front with
      | nil =>
        cases cut
        cases run
        exact here.mp nextApart
      | cons first front =>
        obtain ⟨rfl, cutRest⟩ := cons.inj cut
        rw [onward] at run
        refine (ih (gated.step moved) nextApart ran).mp ?_ front other rest reached cutRest run
        intro front rest reached cut run
        exact always (move :: front) rest reached (congrArg _ cut) ((onward front).trans run)
    · intro joins front rest reached cut run
      cases front with
      | nil =>
        cases run
        exact apart
      | cons first front =>
        obtain ⟨rfl, cutRest⟩ := cons.inj cut
        rw [onward] at run
        have nextApart := here.mpr (joins [] move moves loop rfl rfl)
        refine (ih (gated.step moved) nextApart ran).mpr ?_ front rest reached cutRest run
        intro front other rest reached cut run
        exact joins (move :: front) other rest reached (congrArg _ cut) ((onward front).trans run)

variable {platform : Platform} {defs : List SubtaskDef} {maxConcurrency : Nat}

/-- The grade that the decomposition has given. -/
def gradeIn (platform : Platform) (defs : List SubtaskDef) (id : String) : ConflictRisk :=
  (riskOf (classifyConflicts platform defs) id).getD .low

/-- No two subtasks that are executed fight over files. -/
def Peaceful (platform : Platform) (defs : List SubtaskDef) (executing : List String) : Prop :=
  ∀ one ∈ defs, ∀ other ∈ defs, one.id ∈ executing → other.id ∈ executing → one.id ≠ other.id →
    gradeIn platform defs one.id ≠ .high ∧
      (gradeIn platform defs one.id = .medium → gradeIn platform defs other.id ≠ .medium) ∧
      fileOverlapRatio platform one.files other.files < 2 / 5

theorem gated_start :
    Gated (gradeIn platform defs) (defs.map SubtaskDef.id) (.start platform defs maxConcurrency) := by
  refine ⟨?_, by simp [ClaimLoop.start], by simp [ClaimLoop.start], by simp [ClaimLoop.start],
    trivial⟩
  simp [ClaimLoop.start, SubtaskResult.stamp, SubtaskResult.risk, gradeIn, Function.comp_def]

theorem peaceful_iff_apart (unique : (defs.map SubtaskDef.id).Nodup) {executing : List String}
    (known : ∀ id ∈ executing, id ∈ defs.map SubtaskDef.id) :
    Peaceful platform defs executing ↔ Apart (gradeIn platform defs) executing := by
  constructor
  · intro peaceful one oneMem other otherMem different
    obtain ⟨oneDef, oneListed, rfl⟩ := mem_map.mp (known one oneMem)
    obtain ⟨otherDef, otherListed, rfl⟩ := mem_map.mp (known other otherMem)
    obtain ⟨high, medium, _⟩ :=
      peaceful oneDef oneListed otherDef otherListed oneMem otherMem different
    exact ⟨high, medium⟩
  · intro apart one oneListed other otherListed oneMem otherMem different
    obtain ⟨high, medium⟩ := apart one.id oneMem other.id otherMem different
    refine ⟨high, medium, ?_⟩
    have otherHigh := (apart other.id otherMem one.id oneMem different.symm).1
    have graded {definition : SubtaskDef} (listed : definition ∈ defs) :
        gradeIn platform defs definition.id = gradeOf (worstOverlap platform defs definition) := by
      rw [gradeIn, riskOf_classifyConflicts unique listed, Option.getD_some]
    cases oneGrade : gradeIn platform defs one.id with
    | low => exact overlap_lt_of_low otherListed different.symm ((graded oneListed).symm.trans oneGrade)
    | high => exact absurd oneGrade high
    | medium =>
      rw [fileOverlapRatio_comm]
      cases otherGrade : gradeIn platform defs other.id with
      | low =>
        exact overlap_lt_of_low oneListed different ((graded otherListed).symm.trans otherGrade)
      | medium => exact absurd otherGrade (medium oneGrade)
      | high => exact absurd otherGrade otherHigh

theorem Gated.run {moves : List Move} (gated : Gated risk ids loop)
    (ran : runAll ClaimLoop.step loop moves = some next) : Gated risk ids next := by
  induction moves generalizing loop with
  | nil =>
    cases ran
    exact gated
  | cons move moves ih =>
    obtain ⟨middle, moved, ran⟩ := Option.bind_eq_some_iff.mp ran
    exact ih (gated.step moved) ran

/-- Subtasks that run side by side do not fight over files, in whatever order they are claimed and
end, exactly if nothing that is graded lower ever joins what is graded high. -/
theorem localParallel_iff (unique : (defs.map SubtaskDef.id).Nodup) {moves : List Move}
    {target : ClaimLoop}
    (ran : runAll ClaimLoop.step (.start platform defs maxConcurrency) moves = some target) :
    (∀ front rest reached, moves = front ++ rest →
      runAll ClaimLoop.step (.start platform defs maxConcurrency) front = some reached →
        Peaceful platform defs reached.executing) ↔
    (∀ front move rest reached, moves = front ++ move :: rest →
      runAll ClaimLoop.step (.start platform defs maxConcurrency) front = some reached →
        Joins (gradeIn platform defs) reached move) := by
  have started : Gated (gradeIn platform defs) _ (.start platform defs maxConcurrency) := gated_start
  rw [← started.apart_run (by simp [Apart, ClaimLoop.start]) ran]
  refine forall_congr' fun front => forall_congr' fun rest => forall_congr' fun reached =>
    imp_congr_right fun _ => imp_congr_right fun run => ?_
  have gated := started.run run
  exact peaceful_iff_apart unique fun id member => gated.known id (gated.executing id member)

/-- A system on which paths are as they are given. -/
def plainPaths : Platform where
  normalize path := path
  foldsCase := false
  toLowerCase name := name

/-- Two subtasks share their files, a third one touches one of them. -/
def threeDefs : List SubtaskDef :=
  [⟨"h", [], ["a.ts", "b.ts"], none⟩, ⟨"k", [], ["a.ts", "b.ts"], none⟩,
    ⟨"m", [], ["a.ts", "c.ts"], none⟩]

def allPending : List SubtaskSync :=
  [⟨"h", .pending, ""⟩, ⟨"k", .pending, ""⟩, ⟨"m", .pending, ""⟩]

/-- A tick in which one subtask is claimed and started after the given number of others. -/
def claimingTick (others : Nat) : List Move :=
  [.reconcile allPending, .gate] ++ replicate others .scan ++ [.scan, .reported true, .start]

/-- Two subtasks touch one file, a third one touches none of theirs. -/
def sideBySide : List SubtaskDef :=
  [⟨"h", [], ["a.ts", "b.ts"], none⟩, ⟨"k", [], ["a.ts", "c.ts"], none⟩, ⟨"m", [], ["d.ts"], none⟩]

/-- The first subtask runs, the second one has to wait, and the third one joins the first. -/
theorem localParallel_iff_sample :
    ∃ reached, runAll ClaimLoop.step (.start plainPaths sideBySide 3)
        (claimingTick 0 ++ [.scan, .scan, .reported true, .start]) = some reached ∧
      reached.executing = ["h", "m"] ∧ gradeIn plainPaths sideBySide "h" = .medium ∧
      Peaceful plainPaths sideBySide reached.executing := by
  have unique : (sideBySide.map SubtaskDef.id).Nodup := by decide
  have joined : (runAll ClaimLoop.step (.start plainPaths sideBySide 3)
      (claimingTick 0 ++ [.scan, .scan, .reported true, .start])).map ClaimLoop.executing =
        some ["h", "m"] := by
    decide +kernel
  obtain ⟨target, ran, executing⟩ := Option.map_eq_some_iff.mp joined
  refine ⟨target, ran, executing, by decide +kernel,
    (localParallel_iff unique ran).mpr ?_ _ [] target (append_nil _).symm ran⟩
  -- none of them is graded high
  intro front move rest reached _ run _ id _ _ other member
  have grades : ∀ id ∈ sideBySide.map SubtaskDef.id, gradeIn plainPaths sideBySide id ≠ .high := by
    decide +kernel
  have gated := gated_start.run run
  exact grades other (gated.known other (gated.executing other member))

/-- In the next tick one that is graded medium joins the one that is graded high, and they touch
the same file. -/
theorem localParallel_fails :
    ∃ reached,
      runAll ClaimLoop.step (.start plainPaths threeDefs 3) (claimingTick 0 ++ claimingTick 2) =
        some reached ∧
      reached.executing = ["h", "m"] ∧
      gradeIn plainPaths threeDefs "h" = .high ∧
      gradeIn plainPaths threeDefs "m" = .medium ∧
      fileOverlapRatio plainPaths ["a.ts", "b.ts"] ["a.ts", "c.ts"] = 1 / 2 ∧
      ¬Peaceful plainPaths threeDefs reached.executing := by
  have both : (runAll ClaimLoop.step (.start plainPaths threeDefs 3)
      (claimingTick 0 ++ claimingTick 2)).map ClaimLoop.executing = some ["h", "m"] := by
    decide +kernel
  have high : gradeIn plainPaths threeDefs "h" = .high := by decide +kernel
  obtain ⟨reached, ran, executing⟩ := Option.map_eq_some_iff.mp both
  refine ⟨reached, ran, executing, high, by decide +kernel, by decide +kernel, fun peaceful => ?_⟩
  rw [executing] at peaceful
  exact (peaceful ⟨"h", [], ["a.ts", "b.ts"], none⟩ (by decide)
    ⟨"m", [], ["a.ts", "c.ts"], none⟩ (by decide) (by decide) (by decide) (by decide)).1 high

end UltimateCoders.Orchestrator
