import UltimateCoders.Orchestrator.ConflictGrade
import UltimateCoders.Scheduler.ExecutionOrder

/-! # Validation of plans

A plan is accepted if its ids differ, its dependencies are known and no chain of them closes. The
waves of an accepted plan are the layers in which the gateway executes the same subtasks.
-/

namespace UltimateCoders.Orchestrator

open Search List Function

/-- A subtask with all that a split of it goes by. -/
structure PlannedSubtask extends SubtaskDef where
  description : String
  requiredCapabilities : Option (List String) := none
  parentSubtaskId : Option String := none
  decompositionDepth : Option Int := none
  maxDecompositionDepth : Option Int := none
  complexity : Option String := none
  agentConfig : Option String := none
  deriving DecidableEq

inductive DagError where
  | duplicateId (id : String)
  | unknownDependency (id dep : String)
  | circular (ids : List String)
  | deadlock
  deriving DecidableEq

/-- The maps from ids to the numbers of dependencies, and to the sets of dependents. -/
structure DependencyMaps where
  inDegree : String → Int := fun _ => 0
  dependents : String → List String := fun _ => []

def DependencyMaps.add (maps : DependencyMaps) (subtask : PlannedSubtask) : DependencyMaps where
  inDegree := update maps.inDegree subtask.id subtask.dependsOn.dedup.length
  dependents := subtask.dependsOn.dedup.foldl (fun dependents dep =>
    if subtask.id ∈ dependents dep then dependents
    else update dependents dep (dependents dep ++ [subtask.id])) maps.dependents

def indexPlan (subtasks : List PlannedSubtask) : DependencyMaps :=
  subtasks.foldl DependencyMaps.add {}

/-- One dependency of a subtask less, which puts it into the queue if it was the last one. -/
def countDown (state : (String → Int) × List String) (id : String) :
    (String → Int) × List String :=
  (update state.1 id (state.1 id - 1),
    if state.1 id - 1 = 0 then state.2 ++ [id] else state.2)

/-- Works the queue off; `none` when the fuel runs out. -/
def drain (dependents : String → List String) :
    Nat → (String → Int) × List String → Nat → Option (Nat × (String → Int))
  | _, (inDegree, []), processed => some (processed, inDegree)
  | 0, (_, _ :: _), _ => none
  | fuel + 1, (inDegree, id :: queue), processed =>
    drain dependents fuel ((dependents id).foldl countDown (inDegree, queue)) (processed + 1)

/-- The ids that stay with dependencies, if not as many are processed as there are subtasks. -/
def detectCycles (subtasks : List PlannedSubtask) : Option (Option (List String)) :=
  let maps := indexPlan subtasks
  let keys := (subtasks.map (·.id)).dedup
  (drain maps.dependents keys.length
    (maps.inDegree, keys.filter fun id => maps.inDegree id = 0) 0).map fun drained =>
      if drained.1 < subtasks.length then
        some ((subtasks.filter fun subtask => 0 < drained.2 subtask.id).map (·.id))
      else none

/-- The subtasks that are neither processed nor wait. -/
def nextWave (subtasks : List PlannedSubtask) (inDegree : String → Int) (processed : List String) :
    List PlannedSubtask :=
  subtasks.filter fun subtask => subtask.id ∉ processed ∧ inDegree subtask.id = 0

/-- One dependency less for every dependent of the ids. -/
def countDownAll (dependents : String → List String) (ids : List String)
    (inDegree : String → Int) : String → Int :=
  ((ids.flatMap dependents).foldl countDown (inDegree, [])).1

/-- The waves from one on, of subtasks with different ids; `none` when the fuel runs out. -/
def buildWaves (subtasks : List PlannedSubtask) (dependents : String → List String) :
    Nat → (String → Int) → List String → Option (Except DagError (List (List PlannedSubtask)))
  | fuel, inDegree, processed =>
    if subtasks.length ≤ processed.length then some (.ok [])
    else
      let wave := nextWave subtasks inDegree processed
      if wave = [] then some (.error .deadlock)
      else
        match fuel with
        | 0 => none
        | fuel + 1 =>
          let ids := wave.map (·.id)
          (buildWaves subtasks dependents fuel (countDownAll dependents ids inDegree)
            (processed ++ ids)).map (Except.map (wave :: ·))

def firstDuplicate : List String → List String → Option String
  | _, [] => none
  | ids, id :: rest => if id ∈ ids then some id else firstDuplicate (id :: ids) rest

/-- The first dependency on an id that no subtask has. -/
def firstUnknown (ids : List String) (subtasks : List PlannedSubtask) : Option (String × String) :=
  subtasks.findSome? fun subtask =>
    (subtask.dependsOn.find? fun dep => dep ∉ ids).map fun dep => (subtask.id, dep)

/-- The waves of a plan; `none` if a loop does not end. -/
def buildDAG (subtasks : List PlannedSubtask) :
    Option (Except DagError (List (List PlannedSubtask))) :=
  let ids := subtasks.map (·.id)
  match firstDuplicate [] ids, firstUnknown ids subtasks with
  | some id, _ => some (.error (.duplicateId id))
  | none, some (id, dep) => some (.error (.unknownDependency id dep))
  | none, none =>
    (detectCycles subtasks).bind fun
      | some cycles => some (.error (.circular cycles))
      | none =>
        let maps := indexPlan subtasks
        buildWaves subtasks maps.dependents subtasks.length maps.inDegree []

variable {subtasks : List PlannedSubtask} {id dep : String}

/-- A subtask under the id declares the dependency. -/
def DependsOn (subtasks : List PlannedSubtask) (dep id : String) : Prop :=
  ∃ subtask ∈ subtasks, subtask.id = id ∧ dep ∈ subtask.dependsOn

/-- Every dependency once, from the one that is needed to the one that needs it. -/
def planArcs (subtasks : List PlannedSubtask) : List (String × String) :=
  subtasks.flatMap fun subtask => subtask.dependsOn.dedup.map fun dep => (dep, subtask.id)

theorem planArcs_iff : Arc (planArcs subtasks) dep id ↔ DependsOn subtasks dep id := by
  simp only [Arc, planArcs, mem_flatMap, mem_map, mem_dedup, Prod.mk.injEq, DependsOn]
  constructor
  · rintro ⟨subtask, member, _, declared, rfl, rfl⟩
    exact ⟨subtask, member, rfl, declared⟩
  · rintro ⟨subtask, member, rfl, declared⟩
    exact ⟨subtask, member, dep, declared, rfl, rfl⟩

theorem planArcs_snoc (subtask : PlannedSubtask) : planArcs (subtasks ++ [subtask]) =
    planArcs subtasks ++ subtask.dependsOn.dedup.map fun dep => (dep, subtask.id) := by
  simp [planArcs]

theorem indexPlan_snoc (subtask : PlannedSubtask) :
    indexPlan (subtasks ++ [subtask]) = (indexPlan subtasks).add subtask := by
  simp [indexPlan]

theorem foldl_dependents {own : String} {deps : List String} (once : deps.Nodup)
    {dependents : String → List String} (fresh : ∀ dep ∈ deps, own ∉ dependents dep)
    (node : String) :
    deps.foldl (fun dependents dep => if own ∈ dependents dep then dependents
        else update dependents dep (dependents dep ++ [own])) dependents node =
      dependents node ++ if node ∈ deps then [own] else [] := by
  induction deps generalizing dependents with
  | nil => simp
  | cons dep rest ih =>
    obtain ⟨absent, once⟩ := nodup_cons.mp once
    obtain ⟨free, others⟩ := forall_mem_cons.mp fresh
    rw [foldl_cons, if_neg free, ih once fun other member => by
      rw [update_of_ne (ne_of_mem_of_not_mem member absent)]
      exact others other member]
    by_cases same : node = dep
    · subst same
      simp [absent]
    · simp [same]

theorem indexPlan_counts (distinct : (subtasks.map (·.id)).Nodup) :
    (∀ id, (indexPlan subtasks).inDegree id = pending (planArcs subtasks) [] id) ∧
      ∀ id, (indexPlan subtasks).dependents id = arcsFrom (planArcs subtasks) id := by
  induction subtasks using reverseRecOn with
  | nil => simp [indexPlan, planArcs, pending, arcsFrom]
  | append_singleton before last ih =>
    rw [map_append, nodup_append'] at distinct
    obtain ⟨counts, successors⟩ := ih distinct.1
    have absent (dep : String) : ¬ Arc (planArcs before) dep last.id := by
      rw [planArcs_iff]
      rintro ⟨subtask, member, same, _⟩
      exact distinct.2.2 (mem_map_of_mem member) (by simp [same])
    rw [indexPlan_snoc, planArcs_snoc]
    constructor
    · intro id
      by_cases own : id = last.id
      · subst own
        have zero : pending (planArcs before) [] last.id = 0 :=
          pending_eq_zero_iff.mpr fun other arc => absurd arc (absent other)
        rw [pending] at zero ⊢
        rw [countP_append, zero]
        simp [DependencyMaps.add, countP_map, comp_def]
      · simp [DependencyMaps.add, own, counts, pending, countP_append, countP_map,
          comp_def, Ne.symm own]
    · intro dep
      have fresh : ∀ dep ∈ last.dependsOn.dedup, last.id ∉ (indexPlan before).dependents dep := by
        intro dep _ member
        rw [successors, mem_arcsFrom] at member
        exact absent dep member
      dsimp only [DependencyMaps.add]
      rw [foldl_dependents (nodup_dedup _) fresh, successors]
      have once : (last.dependsOn.dedup.filter fun other => other = dep) =
          if dep ∈ last.dependsOn.dedup then [dep] else [] := by
        rw [filter_eq, count_dedup]
        split <;> simp_all
      simp only [arcsFrom, filter_append, map_append, filter_map, map_map, comp_def, once]
      split <;> rfl

theorem foldl_countDown (hits : List String) (inDegree : String → Int) (queue : List String) :
    ∃ fresh, (hits.foldl countDown (inDegree, queue)).2 = queue ++ fresh ∧ fresh.Nodup ∧
      (∀ id, id ∈ fresh ↔ 0 < inDegree id ∧ inDegree id ≤ hits.count id) ∧
      ∀ id, (hits.foldl countDown (inDegree, queue)).1 id = inDegree id - hits.count id := by
  induction hits using reverseRecOn with
  | nil =>
    refine ⟨[], by simp, nodup_nil, fun id => ?_, by simp⟩
    simp
  | append_singleton before last ih =>
    obtain ⟨fresh, queued, once, members, counts⟩ := ih
    have step : (before ++ [last]).foldl countDown (inDegree, queue) =
        countDown (before.foldl countDown (inDegree, queue)) last := by simp
    have left (id : String) : (countDown (before.foldl countDown (inDegree, queue)) last).1 id =
        inDegree id - (before ++ [last]).count id := by
      by_cases own : id = last
      · subst own
        simp [countDown, counts]
        omega
      · simp [countDown, counts, own, Ne.symm own]
    have waits := members last
    rw [step, countDown, queued]
    by_cases reached : (before.foldl countDown (inDegree, queue)).1 last - 1 = 0
    · refine ⟨fresh ++ [last], by simp [reached], ?_, fun id => ?_, left⟩
      · rw [nodup_append_comm]
        refine nodup_cons.mpr ⟨fun member => ?_, once⟩
        have := waits.mp member
        rw [counts] at reached
        omega
      · rw [counts] at reached
        rw [mem_append, members, mem_singleton, count_append]
        by_cases own : id = last
        · subst own
          simp
          omega
        · simp [own, Ne.symm own]
    · refine ⟨fresh, by simp [reached], once, fun id => ?_, left⟩
      rw [counts] at reached
      rw [members, count_append]
      by_cases own : id = last
      · subst own
        simp
        omega
      · simp [Ne.symm own]

/-- What holds between two turns of the queue: who is processed or in the queue has come there once,
counted down to nothing, and is on no cycle. -/
structure Draining (subtasks : List PlannedSubtask) (processed : List String)
    (state : (String → Int) × List String) : Prop where
  once : (processed ++ state.2).Nodup
  inside : ∀ id ∈ processed ++ state.2, id ∈ subtasks.map (·.id)
  reached : ∀ id ∈ subtasks.map (·.id), id ∈ processed ++ state.2 ↔ state.1 id = 0
  counts : ∀ id, state.1 id = pending (planArcs subtasks) processed id
  apart : ∀ id ∈ processed, ¬ Relation.TransGen (DependsOn subtasks) id id

theorem not_cycle_of_pending {processed : List String}
    (apart : ∀ id ∈ processed, ¬ Relation.TransGen (DependsOn subtasks) id id)
    (none : pending (planArcs subtasks) processed id = 0) :
    ¬ Relation.TransGen (DependsOn subtasks) id id := by
  intro cycle
  obtain ⟨dep, chain, last⟩ := Relation.TransGen.tail'_iff.mp cycle
  exact apart dep (pending_eq_zero_iff.mp none dep (planArcs_iff.mpr last))
    (Relation.TransGen.head' last chain)

theorem mem_of_planArcs (arc : Arc (planArcs subtasks) dep id) : id ∈ subtasks.map (·.id) := by
  obtain ⟨subtask, member, same, _⟩ := planArcs_iff.mp arc
  exact same ▸ mem_map_of_mem (f := (·.id)) member

variable {processed queue : List String} {inDegree : String → Int}

theorem Draining.next (draining : Draining subtasks processed (inDegree, id :: queue)) :
    Draining subtasks (processed ++ [id])
      ((arcsFrom (planArcs subtasks) id).foldl countDown (inDegree, queue)) := by
  obtain ⟨fresh, queued, freshOnce, members, counts⟩ :=
    foldl_countDown (arcsFrom (planArcs subtasks) id) inDegree queue
  obtain ⟨once, inside, reached, counted, apart⟩ := draining
  dsimp only at once inside reached counted
  have flat : processed ++ [id] ++ (queue ++ fresh) = processed ++ id :: queue ++ fresh := by simp
  have known (other : String) (member : other ∈ fresh) : other ∈ subtasks.map (·.id) := by
    have counted := (members other).mp member
    have hit : 0 < (arcsFrom (planArcs subtasks) id).count other := by omega
    exact mem_of_planArcs (mem_arcsFrom.mp (count_pos_iff.mp hit))
  have left (other : String) := @pending_snoc _ _ (planArcs subtasks) processed other id
    fun member => disjoint_left.mp (disjoint_of_nodup_append once) member mem_cons_self
  refine ⟨?_, fun other member => ?_, fun other listed => ?_, fun other => ?_, fun other member => ?_⟩
  · rw [queued, flat, nodup_append']
    refine ⟨once, freshOnce, fun other old new => ?_⟩
    have := (reached other (known other new)).mp old
    have := (members other).mp new
    omega
  · rw [queued, flat, mem_append] at member
    exact member.elim (inside other) (known other)
  · have := left other
    have := counted other
    rw [queued, flat, mem_append, reached other listed, members, counts]
    omega
  · have := left other
    rw [counts, counted]
    omega
  · rcases mem_append.mp member with earlier | last
    · exact apart other earlier
    · rw [mem_singleton.mp last]
      have gone := (reached id (inside id (by simp))).mp (by simp)
      rw [counted] at gone
      exact not_cycle_of_pending apart (by omega)

/-- With enough fuel the queue is worked off. -/
theorem Draining.run {fuel : Nat} {state : (String → Int) × List String}
    (draining : Draining subtasks processed state)
    (enough : subtasks.length ≤ fuel + processed.length) :
    ∃ all left, drain (arcsFrom (planArcs subtasks)) fuel state processed.length =
      some (all.length, left) ∧ Draining subtasks all (left, []) := by
  induction fuel generalizing processed state with
  | zero =>
    obtain ⟨inDegree, queue⟩ := state
    cases queue with
    | nil => exact ⟨processed, inDegree, rfl, draining⟩
    | cons id queue =>
      have long := (draining.once.subperm draining.inside).length_le
      simp only [length_append, length_cons, length_map] at long
      omega
  | succ fuel ih =>
    obtain ⟨inDegree, queue⟩ := state
    cases queue with
    | nil => exact ⟨processed, inDegree, rfl, draining⟩
    | cons id queue =>
      obtain ⟨all, left, drained, rest⟩ := ih draining.next (by simp; omega)
      rw [length_append, length_singleton] at drained
      exact ⟨all, left, drained, rest⟩

section Distinct

variable (distinct : (subtasks.map (·.id)).Nodup)

include distinct

theorem exists_drained : ∃ all : List String, all.Nodup ∧ all ⊆ subtasks.map (·.id) ∧
    (∀ id ∈ all, ¬ Relation.TransGen (DependsOn subtasks) id id) ∧
    (∀ id ∈ subtasks.map (·.id), id ∉ all → ∃ dep, DependsOn subtasks dep id ∧ dep ∉ all) ∧
    detectCycles subtasks = some (if all.length < subtasks.length then
      some ((subtasks.map (·.id)).filter (· ∉ all)) else none) := by
  obtain ⟨degrees, successors⟩ := indexPlan_counts distinct
  have start : Draining subtasks [] ((indexPlan subtasks).inDegree,
      (subtasks.map (·.id)).filter fun id => (indexPlan subtasks).inDegree id = 0) := by
    refine ⟨distinct.filter _, fun id => mem_of_mem_filter, fun id known => ?_, degrees, by simp⟩
    simp [known]
  obtain ⟨all, left, drained, once, inside, reached, counts, apart⟩ :=
    start.run (show _ ≤ subtasks.length + 0 from le_rfl)
  simp only [append_nil] at once inside reached counts
  refine ⟨all, once, inside, apart, fun id known absent => ?_, ?_⟩
  · by_contra none
    push Not at none
    rw [reached id known, counts, Int.natCast_eq_zero, pending_eq_zero_iff] at absent
    exact absent fun dep arc => none dep (planArcs_iff.mp arc)
  · have same : (subtasks.filter fun subtask => 0 < left subtask.id) =
        subtasks.filter ((fun id => decide (id ∉ all)) ∘ fun subtask => subtask.id) := by
      refine filter_congr fun subtask member => ?_
      rw [comp_apply, decide_eq_decide, reached _ (mem_map_of_mem member), counts]
      omega
    rw [length_nil] at drained
    rw [detectCycles, distinct.dedup, length_map, funext successors, drained, Option.map_some,
      same, filter_map]

theorem mem_of_detectCycles {reported : List String} {id : String}
    (found : detectCycles subtasks = some (some reported))
    (cycle : Relation.TransGen (DependsOn subtasks) id id) : id ∈ reported := by
  obtain ⟨all, _, _, apart, _, result⟩ := exists_drained distinct
  obtain ⟨_, _, subtask, member, same, _⟩ := Relation.TransGen.tail'_iff.mp cycle
  rw [result, Option.some.injEq, Option.ite_none_right_eq_some] at found
  rw [← Option.some.inj found.2]
  have known : id ∈ subtasks.map (·.id) := same ▸ mem_map_of_mem member
  exact mem_filter.mpr ⟨known, decide_eq_true fun listed => apart id listed cycle⟩

theorem detectCycles_eq_none_iff
    (known : ∀ dep id, DependsOn subtasks dep id → dep ∈ subtasks.map (·.id)) :
    detectCycles subtasks = some none ↔ ∀ id, ¬ Relation.TransGen (DependsOn subtasks) id id := by
  obtain ⟨all, once, inside, apart, waits, result⟩ := exists_drained distinct
  have long : (subtasks.map (·.id)).length = subtasks.length := length_map _
  rw [result, Option.some.injEq]
  constructor
  · intro none id cycle
    rw [ite_eq_right_iff, imp_iff_not (by simp), not_lt, ← long] at none
    obtain ⟨_, _, subtask, member, same, _⟩ := Relation.TransGen.tail'_iff.mp cycle
    have known : id ∈ subtasks.map (·.id) := same ▸ mem_map_of_mem member
    exact apart id (((once.subperm inside).perm_of_length_le none).mem_iff.mpr known) cycle
  · intro acyclic
    rw [if_neg]
    intro short
    have left : (subtasks.map (·.id)).filter (· ∉ all) ≠ [] := by
      intro none
      rw [filter_eq_nil_iff] at none
      have all_ := (distinct.subperm fun id listed => by simpa using none id listed).length_le
      omega
    obtain ⟨id, _, cycle⟩ := exists_cycle left fun id member => by
      obtain ⟨listed, absent⟩ := mem_filter.mp member
      obtain ⟨dep, depends, out⟩ := waits id listed (of_decide_eq_true absent)
      exact ⟨dep, mem_filter.mpr ⟨known dep id depends, decide_eq_true out⟩, depends⟩
    exact acyclic id cycle

abbrev waveIds (waves : List (List PlannedSubtask)) : List (List String) :=
  waves.map fun wave => wave.map (·.id)

/-- What holds between two waves. -/
structure Waving (subtasks : List PlannedSubtask) (done : List (List PlannedSubtask))
    (inDegree : String → Int) (processed : List String) : Prop where
  sorting : Sorting (subtasks.map (·.id)) (planArcs subtasks) (waveIds done)
    (pending (planArcs subtasks) (waveIds done).flatten)
    (scan (subtasks.map (·.id)) (planArcs subtasks) (waveIds done).flatten)
  counts : ∀ id, inDegree id = pending (planArcs subtasks) (waveIds done).flatten id
  same : processed.Perm (waveIds done).flatten

variable {done : List (List PlannedSubtask)}

omit distinct in
theorem Waving.wave (waving : Waving subtasks done inDegree processed) :
    Sorting (subtasks.map (·.id)) (planArcs subtasks) (waveIds done)
      (pending (planArcs subtasks) (waveIds done).flatten)
      ((nextWave subtasks inDegree processed).map (·.id)) := by
  have ids : (nextWave subtasks inDegree processed).map (·.id) =
      scan (subtasks.map (·.id)) (planArcs subtasks) (waveIds done).flatten := by
    rw [scan, filter_map, nextWave]
    refine congrArg _ (filter_congr fun subtask _ => ?_)
    rw [comp_apply, decide_eq_decide, waving.same.mem_iff, waving.counts,
      Int.natCast_eq_zero]
  rw [ids]
  exact waving.sorting

omit distinct in
theorem Waving.finished (waving : Waving subtasks done inDegree processed)
    (full : subtasks.length ≤ processed.length) :
    Sorted (subtasks.map (·.id)) (planArcs subtasks) (waveIds done) ∧
      subtasks.length ≤ (waveIds done).flatten.length := by
  have queue := waving.wave
  have room := queue.room
  have long := waving.same.length_eq
  simp only [length_map] at room
  have none : nextWave subtasks inDegree processed = [] :=
    eq_nil_of_length_eq_zero (by omega)
  rw [none] at queue
  exact ⟨queue.sorted, by omega⟩

theorem Waving.next (waving : Waving subtasks done inDegree processed) :
    Waving subtasks (done ++ [nextWave subtasks inDegree processed])
      (countDownAll (indexPlan subtasks).dependents
        ((nextWave subtasks inDegree processed).map (·.id)) inDegree)
      (processed ++ (nextWave subtasks inDegree processed).map (·.id)) := by
  have queue := waving.wave
  generalize nextWave subtasks inDegree processed = wave at queue
  have snoc : waveIds (done ++ [wave]) = waveIds done ++ [wave.map (·.id)] := by simp
  have flat : (waveIds done ++ [wave.map (·.id)]).flatten =
      (waveIds done).flatten ++ wave.map (·.id) := by simp
  have once := queue.layered.once
  rw [flat, nodup_append'] at once
  obtain ⟨_, waveOnce, apart⟩ := once
  refine ⟨?_, fun id => ?_, ?_⟩
  · rw [snoc]
    exact queue.rescan distinct fun _ _ => mem_of_planArcs
  · have split := @pending_append _ _ (planArcs subtasks) (waveIds done).flatten _ id
      (fun other member taken => disjoint_left.mp apart taken member) waveOnce
    obtain ⟨_, _, _, _, counts⟩ := foldl_countDown
      ((wave.map (·.id)).flatMap (indexPlan subtasks).dependents) inDegree []
    rw [countDownAll, counts, waving.counts, snoc, flat, funext (indexPlan_counts distinct).2]
    omega
  · rw [snoc, flat]
    exact waving.same.append_right _

variable (known : ∀ dep id, DependsOn subtasks dep id → dep ∈ subtasks.map (·.id))
  (acyclic : ∀ id, ¬ Relation.TransGen (DependsOn subtasks) id id)

include known acyclic

theorem Waving.le_of_nil (waving : Waving subtasks done inDegree processed)
    (none : nextWave subtasks inDegree processed = []) : subtasks.length ≤ processed.length := by
  have queue := waving.wave
  rw [none] at queue
  have all := (queue.sorted.length_eq_iff distinct fun first second arc =>
    ⟨known _ _ (planArcs_iff.mp arc), mem_of_planArcs arc⟩).mpr fun id cycle =>
      acyclic id (cycle.lift (fun id => id) fun _ _ => planArcs_iff.mp)
  rw [length_map] at all
  rw [waving.same.length_eq, all]

theorem Waving.exists_waves {fuel : Nat} (waving : Waving subtasks done inDegree processed)
    (enough : subtasks.length ≤ fuel + processed.length) :
    ∃ rest, buildWaves subtasks (indexPlan subtasks).dependents fuel inDegree processed =
        some (.ok rest) ∧ (∀ wave ∈ rest, wave ≠ [] ∧ wave ⊆ subtasks) ∧
      Sorted (subtasks.map (·.id)) (planArcs subtasks) (waveIds (done ++ rest)) ∧
      subtasks.length ≤ (waveIds (done ++ rest)).flatten.length := by
  induction fuel generalizing done inDegree processed with
  | zero =>
    have full : subtasks.length ≤ processed.length := by omega
    refine ⟨[], by rw [buildWaves, if_pos full], by simp, ?_⟩
    rw [append_nil]
    exact waving.finished full
  | succ fuel ih =>
    rw [buildWaves]
    by_cases full : subtasks.length ≤ processed.length
    · refine ⟨[], by rw [if_pos full], by simp, ?_⟩
      rw [append_nil]
      exact waving.finished full
    · have left : nextWave subtasks inDegree processed ≠ [] := fun none =>
        full (waving.le_of_nil distinct known acyclic none)
      have positive := length_pos_iff.mpr left
      have next := waving.next distinct
      have grown := next.same.length_eq
      have flat : (waveIds (done ++ [nextWave subtasks inDegree processed])).flatten.length =
          processed.length + (nextWave subtasks inDegree processed).length := by
        simp [waving.same.length_eq]
      obtain ⟨rest, built, inside, sorted⟩ := ih next (by omega)
      rw [append_assoc] at sorted
      refine ⟨_ :: rest, ?_, forall_mem_cons.mpr ⟨⟨left, filter_sublist.subset⟩, inside⟩, sorted⟩
      rw [if_neg full, if_neg left]
      dsimp only
      rw [built]
      rfl

end Distinct

/-- A plan that is as it should be: different ids, known dependencies, and no chain that closes. -/
structure WellFormed (subtasks : List PlannedSubtask) : Prop where
  distinct : (subtasks.map (·.id)).Nodup
  known : ∀ subtask ∈ subtasks, ∀ dep ∈ subtask.dependsOn, dep ∈ subtasks.map (·.id)
  acyclic : ∀ id, ¬ Relation.TransGen (DependsOn subtasks) id id

theorem firstDuplicate_eq_none_iff {before ids : List String} : firstDuplicate before ids = none ↔
    ids.Nodup ∧ ∀ id ∈ ids, id ∉ before := by
  induction ids generalizing before with
  | nil => simp [firstDuplicate]
  | cons id rest ih =>
    rw [firstDuplicate]
    split
    · simp [*]
    · rw [ih, nodup_cons, forall_mem_cons]
      grind

theorem firstUnknown_eq_none_iff {ids : List String} : firstUnknown ids subtasks = none ↔
    ∀ subtask ∈ subtasks, ∀ dep ∈ subtask.dependsOn, dep ∈ ids := by
  simp [firstUnknown]

theorem known_iff : (∀ subtask ∈ subtasks, ∀ dep ∈ subtask.dependsOn, dep ∈ subtasks.map (·.id)) ↔
    ∀ dep id, DependsOn subtasks dep id → dep ∈ subtasks.map (·.id) := by
  constructor
  · rintro known dep id ⟨subtask, member, _, declared⟩
    exact known subtask member dep declared
  · intro known subtask member dep declared
    exact known dep subtask.id ⟨subtask, member, rfl, declared⟩

theorem WellFormed.waves (formed : WellFormed subtasks) :
    ∃ waves, buildDAG subtasks = some (.ok waves) ∧ waves.flatten.Perm subtasks ∧
      (∀ wave ∈ waves, wave ≠ []) ∧ Layered (DependsOn subtasks) (waveIds waves) := by
  obtain ⟨distinct, known, acyclic⟩ := formed
  have unduplicated : firstDuplicate [] (subtasks.map (·.id)) = none :=
    firstDuplicate_eq_none_iff.mpr ⟨distinct, by simp⟩
  have allKnown := firstUnknown_eq_none_iff.mpr known
  rw [known_iff] at known
  have cycleless := (detectCycles_eq_none_iff distinct known).mpr acyclic
  have start : Waving subtasks [] (indexPlan subtasks).inDegree [] := by
    refine ⟨?_, (indexPlan_counts distinct).1, .nil⟩
    simpa [scan] using @sorting_start _ _ _ (planArcs subtasks) distinct
  obtain ⟨waves, built, inside, sorted, long⟩ :=
    start.exists_waves distinct known acyclic (show _ ≤ subtasks.length + 0 by omega)
  rw [nil_append] at sorted long
  have once := sorted.layered.once
  rw [← map_flatten] at once long
  rw [length_map] at long
  have sub : waves.flatten ⊆ subtasks := by
    intro subtask member
    obtain ⟨wave, listed, within⟩ := mem_flatten.mp member
    exact (inside wave listed).2 within
  refine ⟨waves, ?_, ((Nodup.of_map _ once).subperm sub).perm_of_length_le long,
    fun wave listed => (inside wave listed).1, ?_⟩
  · simp only [buildDAG, unduplicated, allKnown, cycleless, Option.bind_some, built]
  · have same : Arc (planArcs subtasks) = DependsOn subtasks :=
      funext fun dep => funext fun id => propext planArcs_iff
    exact same ▸ sorted.layered

theorem wellFormed_of_buildDAG {waves : List (List PlannedSubtask)}
    (accepted : buildDAG subtasks = some (.ok waves)) : WellFormed subtasks := by
  unfold buildDAG at accepted
  dsimp only at accepted
  split at accepted
  · cases accepted
  · cases accepted
  · rename_i unduplicated known
    have distinct := (firstDuplicate_eq_none_iff.mp unduplicated).1
    have known := firstUnknown_eq_none_iff.mp known
    obtain ⟨cycles, detected, built⟩ := Option.bind_eq_some_iff.mp accepted
    split at built
    · cases built
    · exact ⟨distinct, known, (detectCycles_eq_none_iff distinct (known_iff.mp known)).mp detected⟩

theorem exists_buildDAG (subtasks : List PlannedSubtask) :
    ∃ outcome, buildDAG subtasks = some outcome := by
  by_cases formed : WellFormed subtasks
  · obtain ⟨waves, built, _⟩ := formed.waves
    exact ⟨_, built⟩
  · unfold buildDAG
    dsimp only
    split
    · exact ⟨_, rfl⟩
    · exact ⟨_, rfl⟩
    · rename_i unduplicated known
      have distinct := (firstDuplicate_eq_none_iff.mp unduplicated).1
      have known := firstUnknown_eq_none_iff.mp known
      obtain ⟨all, _, _, _, _, detected⟩ := exists_drained distinct
      rw [detected, Option.bind_some]
      split
      · exact ⟨_, rfl⟩
      · rename_i none
        rw [none] at detected
        exact absurd ⟨distinct, known,
          (detectCycles_eq_none_iff distinct (known_iff.mp known)).mp detected⟩ formed

theorem length_le_of_standsAt {first second : List (List String)}
    (filled : ∀ layer ∈ first, layer ≠ [])
    (stands : ∀ level id, StandsAt first level id → StandsAt second level id) :
    first.length ≤ second.length := by
  by_contra fewer
  have last := getElem?_eq_getElem (show second.length < first.length by omega)
  obtain ⟨id, member⟩ := exists_mem_of_ne_nil _ (filled _ (mem_of_getElem? last))
  exact absurd (stands _ id ⟨_, last, member⟩).lt (lt_irrefl _)

/-- The gateway puts the same subtasks into the same layers. -/
theorem exists_resolveExecutionOrder {waves : List (List PlannedSubtask)}
    {rust : List Gateway.Subtask} (accepted : buildDAG subtasks = some (.ok waves))
    (alike : rust.map (fun subtask => (subtask.id, subtask.dependsOn)) =
      subtasks.map fun subtask => (subtask.id, subtask.dependsOn)) :
    ∃ layers, Scheduler.resolveExecutionOrder rust = some (.ok layers) ∧
      layers.length = waves.length ∧
      ∀ level id, StandsAt (waveIds waves) level id ↔ StandsAt layers level id := by
  have formed := wellFormed_of_buildDAG accepted
  have ids : rust.map Gateway.Subtask.id = subtasks.map (·.id) := by
    simpa [comp_def] using congrArg (map Prod.fst) alike
  have depends (dep id : String) : Scheduler.DependsOn rust dep id ↔ DependsOn subtasks dep id := by
    have pairs : (∃ subtask ∈ rust, subtask.id = id ∧ dep ∈ subtask.dependsOn) ↔
        DependsOn subtasks dep id := by
      have mapped := congrArg (fun pairs => ∃ pair ∈ pairs, pair.1 = id ∧ dep ∈ pair.2) alike
      simpa only [mem_map, exists_exists_and_eq_and, eq_iff_iff, DependsOn] using mapped
    rw [Scheduler.DependsOn, pairs, ids]
    exact and_iff_right_of_imp (known_iff.mp formed.known dep id)
  have relation : Scheduler.DependsOn rust = DependsOn subtasks :=
    funext fun dep => funext fun id => propext (depends dep id)
  have distinct : (rust.map Gateway.Subtask.id).Nodup := ids ▸ formed.distinct
  obtain ⟨_, resolves, layered⟩ := Scheduler.resolveExecutionOrder_iff distinct
  rw [relation] at resolves layered
  obtain ⟨layers, resolved⟩ := resolves.mpr formed.acyclic
  obtain ⟨all, layersLayered, levels⟩ := layered layers resolved
  obtain ⟨same, built, whole, filled, wavesLayered⟩ := formed.waves
  rw [accepted, Option.some.injEq, Except.ok.injEq] at built
  subst built
  have both (id : String) : id ∈ (waveIds waves).flatten ↔ id ∈ layers.flatten := by
    rw [← map_flatten, (whole.map _).mem_iff, all.mem_iff, ids]
  have stands (level : Nat) (id : String) :
      StandsAt (waveIds waves) level id ↔ StandsAt layers level id := by
    constructor
    · intro here
      obtain ⟨other, there⟩ :=
        mem_flatten_iff.mp ((both id).mp (mem_flatten_iff.mpr ⟨level, here⟩))
      exact (wavesLayered.isGreatest here).unique (levels other id there) ▸ there
    · intro there
      obtain ⟨other, here⟩ :=
        mem_flatten_iff.mp ((both id).mpr (mem_flatten_iff.mpr ⟨level, there⟩))
      exact (wavesLayered.isGreatest here).unique (levels level id there) ▸ here
  refine ⟨layers, resolved, le_antisymm ?_ ?_, stands⟩
  · have longer := length_le_of_standsAt
      (fun layer listed => Scheduler.resolveExecutionOrder_ne_nil distinct resolved listed)
      fun level id => (stands level id).mpr
    rwa [length_map] at longer
  · have longer : (waveIds waves).length ≤ layers.length := by
      refine length_le_of_standsAt (fun layer listed => ?_) fun level id => (stands level id).mp
      obtain ⟨wave, member, rfl⟩ := mem_map.mp listed
      simpa using filled wave member
    rwa [length_map] at longer

/-- A plan is accepted exactly if it is well formed. Each subtask then stands in the wave that its
longest chain of dependencies tells, and in the same layer of the gateway; of a plan with different
ids all cycles are reported. -/
theorem buildDAG_spec (subtasks : List PlannedSubtask) :
    (∃ outcome, buildDAG subtasks = some outcome) ∧
    ((∃ waves, buildDAG subtasks = some (.ok waves)) ↔ WellFormed subtasks) ∧
    (∀ waves, buildDAG subtasks = some (.ok waves) →
      waves.flatten.Perm subtasks ∧
      (∀ level id, StandsAt (waveIds waves) level id →
        IsGreatest {length | ChainTo (DependsOn subtasks) length id} level) ∧
      ∀ rust : List Gateway.Subtask,
        rust.map (fun subtask => (subtask.id, subtask.dependsOn)) =
          subtasks.map (fun subtask => (subtask.id, subtask.dependsOn)) →
        ∃ layers, Scheduler.resolveExecutionOrder rust = some (.ok layers) ∧
          layers.length = waves.length ∧
          ∀ level id, StandsAt (waveIds waves) level id ↔ StandsAt layers level id) ∧
    ((subtasks.map (·.id)).Nodup → ∀ reported, detectCycles subtasks = some (some reported) →
      ∀ id, Relation.TransGen (DependsOn subtasks) id id → id ∈ reported) := by
  refine ⟨exists_buildDAG subtasks, ⟨fun ⟨waves, accepted⟩ => wellFormed_of_buildDAG accepted,
    fun formed => ?_⟩, fun waves accepted => ?_,
    fun distinct reported found id cycle => mem_of_detectCycles distinct found cycle⟩
  · obtain ⟨waves, built, _⟩ := formed.waves
    exact ⟨waves, built⟩
  · obtain ⟨same, built, whole, _, layered⟩ := (wellFormed_of_buildDAG accepted).waves
    rw [accepted, Option.some.injEq, Except.ok.injEq] at built
    subst built
    exact ⟨whole, fun level id here => layered.isGreatest here,
      fun rust alike => exists_resolveExecutionOrder accepted alike⟩

/-- A subtask of which only ids are of interest. -/
def bareSubtask (id : String) (dependsOn : List String) : PlannedSubtask :=
  { id, dependsOn, files := [], description := "" }

/-- One id stands twice: with a dependency that closes a chain, and without. -/
def repeatedId : List PlannedSubtask :=
  [bareSubtask "A" ["B"], bareSubtask "A" [], bareSubtask "B" ["A"], bareSubtask "C" ["C"]]

theorem detectCycles_fails_repeatedId :
    ¬ ∀ subtasks reported, detectCycles subtasks = some (some reported) →
      ∀ id, Relation.TransGen (DependsOn subtasks) id id → id ∈ reported := by
  intro reports
  have found : detectCycles repeatedId = some (some ["C"]) := by decide +kernel
  have there : DependsOn repeatedId "B" "A" := ⟨bareSubtask "A" ["B"], by simp [repeatedId], rfl,
    mem_singleton.mpr rfl⟩
  have back : DependsOn repeatedId "A" "B" := ⟨bareSubtask "B" ["A"], by simp [repeatedId], rfl,
    mem_singleton.mpr rfl⟩
  have member := reports repeatedId ["C"] found "A" (.tail (.single back) there)
  simp at member

end UltimateCoders.Orchestrator
