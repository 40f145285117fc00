import Mathlib.Algebra.GroupWithZero.Nat
import UltimateCoders.Gateway.Task
import UltimateCoders.Scheduler.ScheduledTask
import UltimateCoders.Search.Layering

/-! # The order in which subtasks are executed

Subtasks are put into layers by counting down, for each of them, the dependencies that are not yet
placed. Dependencies on unknown subtasks are not counted; repeated ones are counted as often.
-/

namespace UltimateCoders.Scheduler

open Function
open Gateway (Subtask)
open Search List

/-- The position of the last subtask under the id. -/
def idToIdx (subtasks : List Subtask) (id : String) : Option Nat :=
  (subtasks.zipIdx.reverse.find? fun entry => entry.1.id = id).map Prod.snd

/-- How many known dependencies each subtask has, and which subtasks depend on it. -/
structure DependencyIndex where
  inDegree : Nat → Nat := fun _ => 0
  adj : Nat → List Nat := fun _ => []

open DependencyIndex

def DependencyIndex.add (index : DependencyIndex) (arc : Nat × Nat) : DependencyIndex where
  inDegree := update index.inDegree arc.2 (index.inDegree arc.2 + 1)
  adj := update index.adj arc.1 (index.adj arc.1 ++ [arc.2])

/-- One pass over the subtasks and their dependencies. -/
def indexDependencies (subtasks : List Subtask) : DependencyIndex :=
  subtasks.zipIdx.foldl (fun index entry =>
    entry.1.dependsOn.foldl (fun index dep =>
      match idToIdx subtasks dep with
      | some depIdx => index.add (depIdx, entry.2)
      | none => index) index) {}

/-- Layers of ids; `none` if the loop does not end within as many rounds as there are subtasks. -/
def resolveExecutionOrder (subtasks : List Subtask) :
    Option (Except EngineError (List (List String))) :=
  if subtasks = [] then some (.ok [])
  else
    let index := indexDependencies subtasks
    let queue := (range subtasks.length).filter fun i => index.inDegree i = 0
    (layersFrom index.adj subtasks.length index.inDegree queue).map fun layers =>
      if (layers.map length).sum ≠ subtasks.length then
        .error (.taskError "circular dependency detected in subtasks")
      else
        .ok (layers.map fun layer => layer.filterMap fun i => (subtasks[i]?).map Subtask.id)

section Arcs

variable {subtasks : List Subtask} {id : String} {first second : Nat}

/-- The dependencies between positions, in the order in which they are counted. -/
def dependencyArcs (subtasks : List Subtask) : List (Nat × Nat) :=
  subtasks.zipIdx.flatMap fun entry =>
    entry.1.dependsOn.filterMap fun dep => (idToIdx subtasks dep).map fun depIdx => (depIdx, entry.2)

theorem foldl_add (arcs : List (Nat × Nat)) (index : DependencyIndex) :
    (∀ node, (arcs.foldl add index).inDegree node = index.inDegree node + pending arcs [] node) ∧
    ∀ node, (arcs.foldl add index).adj node =
      index.adj node ++ arcsFrom arcs node := by
  induction arcs generalizing index with
  | nil => simp [pending, arcsFrom]
  | cons arc rest ih =>
    obtain ⟨inDegree, adj⟩ := ih (index.add arc)
    refine ⟨fun node => ?_, fun node => ?_⟩
    · rw [foldl_cons, inDegree, pending_cons, add]
      by_cases own : arc.2 = node
      · subst own
        simp
        omega
      · simp [own, update_of_ne (Ne.symm own)]
    · rw [foldl_cons, adj, arcsFrom_cons, add]
      by_cases own : arc.1 = node
      · subst own
        simp
      · simp [own, update_of_ne (Ne.symm own)]

theorem indexDependencies_eq :
    indexDependencies subtasks = (dependencyArcs subtasks).foldl add {} := by
  rw [indexDependencies, dependencyArcs, foldl_flatMap]
  refine congrArg (fun step => subtasks.zipIdx.foldl step ({} : DependencyIndex)) ?_
  funext index entry
  induction entry.1.dependsOn generalizing index with
  | nil => rfl
  | cons dep rest ih =>
    rw [foldl_cons, ih, filterMap_cons]
    cases idToIdx subtasks dep <;> rfl

def idAt (subtasks : List Subtask) (position : Nat) : String :=
  ((subtasks[position]?).map Subtask.id).getD ""

variable (distinct : (subtasks.map Subtask.id).Nodup)

include distinct

/-- The index finds the position of a known id. -/
theorem idToIdx_eq_some_iff {position : Nat} : idToIdx subtasks id = some position ↔
    (subtasks[position]?).map Subtask.id = some id := by
  have listed {entry : Subtask × Nat} : entry ∈ subtasks.zipIdx.reverse ↔
      subtasks[entry.2]? = some entry.1 := by
    rw [mem_reverse, mem_zipIdx_iff_getElem?]
  have found {entry : Subtask × Nat}
      (first : (subtasks.zipIdx.reverse.find? fun entry => entry.1.id = id) = some entry) :
      (subtasks[entry.2]?).map Subtask.id = some id := by
    have named := find?_some first
    rw [listed.mp (mem_of_find?_eq_some first), Option.map_some, of_decide_eq_true named]
  constructor
  · intro index
    obtain ⟨entry, first, rfl⟩ := Option.map_eq_some_iff.mp index
    exact found first
  · intro here
    obtain ⟨subtask, at_, rfl⟩ := Option.map_eq_some_iff.mp here
    have some : (subtasks.zipIdx.reverse.find? fun entry => entry.1.id = subtask.id).isSome :=
      find?_isSome.mpr ⟨(subtask, position), listed.mpr at_, decide_eq_true rfl⟩
    obtain ⟨entry, first⟩ := Option.isSome_iff_exists.mp some
    have same : entry.2 = position := by
      have one := found first
      rw [← getElem?_map] at one here
      have below := (List.getElem?_eq_some_iff.mp here).1
      exact ((getElem?_inj below distinct).mp (here.trans one.symm)).symm
    rw [idToIdx, first, Option.map_some, same]

theorem arc_iff : Arc (dependencyArcs subtasks) first second ↔
    ∃ subtask, subtasks[second]? = some subtask ∧
      ∃ dep ∈ subtask.dependsOn, (subtasks[first]?).map Subtask.id = some dep := by
  simp only [Arc, dependencyArcs, mem_flatMap, mem_filterMap, Option.map_eq_some_iff,
    Prod.mk.injEq, idToIdx_eq_some_iff distinct, mem_zipIdx_iff_getElem?]
  constructor
  · rintro ⟨entry, here, dep, listed, position, index, rfl, rfl⟩
    exact ⟨entry.1, here, dep, listed, index⟩
  · rintro ⟨subtask, here, dep, listed, index⟩
    exact ⟨(subtask, second), here, dep, listed, first, index, rfl, rfl⟩

omit distinct in
theorem idAt_of_getElem? {subtask : Subtask} {position : Nat}
    (here : subtasks[position]? = some subtask) : idAt subtasks position = subtask.id := by
  rw [idAt, here]
  rfl

/-- A subtask depends on another one that is known. -/
def DependsOn (subtasks : List Subtask) (dep id : String) : Prop :=
  dep ∈ subtasks.map Subtask.id ∧ ∃ subtask ∈ subtasks, subtask.id = id ∧ dep ∈ subtask.dependsOn

theorem idAt_inj {below : first < subtasks.length} {within : second < subtasks.length}
    (same : idAt subtasks first = idAt subtasks second) : first = second := by
  rw [idAt_of_getElem? (getElem?_eq_getElem below),
    idAt_of_getElem? (getElem?_eq_getElem within)] at same
  refine (getElem?_inj (by simpa using below) distinct).mp ?_
  rw [getElem?_map, getElem?_map, getElem?_eq_getElem below,
    getElem?_eq_getElem within, Option.map_some, Option.map_some, same]

theorem arc_below (arc : Arc (dependencyArcs subtasks) first second) :
    first < subtasks.length ∧ second < subtasks.length := by
  obtain ⟨subtask, here, dep, _, index⟩ := (arc_iff distinct).mp arc
  obtain ⟨other, there, _⟩ := Option.map_eq_some_iff.mp index
  exact ⟨(List.getElem?_eq_some_iff.mp there).1, (List.getElem?_eq_some_iff.mp here).1⟩

theorem dependsOn_of_arc (arc : Arc (dependencyArcs subtasks) first second) :
    DependsOn subtasks (idAt subtasks first) (idAt subtasks second) := by
  obtain ⟨subtask, here, dep, listed, index⟩ := (arc_iff distinct).mp arc
  obtain ⟨other, there, rfl⟩ := Option.map_eq_some_iff.mp index
  rw [idAt_of_getElem? here, idAt_of_getElem? there]
  exact ⟨mem_map_of_mem (mem_of_getElem? there), subtask, mem_of_getElem? here, rfl, listed⟩

theorem arc_of_dependsOn {dep : String} (depends : DependsOn subtasks dep id) :
    ∃ first second, idAt subtasks first = dep ∧ idAt subtasks second = id ∧
      Arc (dependencyArcs subtasks) first second := by
  obtain ⟨known, subtask, member, rfl, listed⟩ := depends
  obtain ⟨other, otherMem, rfl⟩ := mem_map.mp known
  obtain ⟨first, there⟩ := mem_iff_getElem?.mp otherMem
  obtain ⟨second, here⟩ := mem_iff_getElem?.mp member
  refine ⟨first, second, idAt_of_getElem? there, idAt_of_getElem? here, ?_⟩
  exact (arc_iff distinct).mpr ⟨subtask, here, other.id, listed, by rw [there]; rfl⟩

theorem acyclic_iff : (∀ node, ¬ Relation.TransGen (Arc (dependencyArcs subtasks)) node node) ↔
    ∀ id, ¬ Relation.TransGen (DependsOn subtasks) id id := by
  constructor
  · intro acyclic id cycle
    obtain ⟨other, first, _⟩ := Relation.TransGen.head'_iff.mp cycle
    let position : String → Nat := fun id => (idToIdx subtasks id).getD 0
    have at_ {place : Nat} (below : place < subtasks.length) :
        position (idAt subtasks place) = place := by
      have here := getElem?_eq_getElem below
      have found : idToIdx subtasks (idAt subtasks place) = some place := by
        rw [idToIdx_eq_some_iff distinct, idAt_of_getElem? here, here]
        rfl
      simp only [position, found, Option.getD_some]
    refine acyclic (position id) (cycle.lift position fun dep id depends => ?_)
    obtain ⟨first, second, rfl, rfl, arc⟩ := arc_of_dependsOn distinct depends
    obtain ⟨below, within⟩ := arc_below distinct arc
    change Arc _ (position (idAt subtasks first)) (position (idAt subtasks second))
    rwa [at_ below, at_ within]
  · intro acyclic node cycle
    exact acyclic (idAt subtasks node)
      (cycle.lift (idAt subtasks) fun first second arc => dependsOn_of_arc distinct arc)

theorem layered_ids {layers : List (List Nat)}
    (layered : Layered (Arc (dependencyArcs subtasks)) layers)
    (inside : ∀ position ∈ layers.flatten, position < subtasks.length) :
    Layered (DependsOn subtasks) (layers.map fun layer => layer.map (idAt subtasks)) := by
  refine layered.map (fun one oneMem other otherMem same => ?_) fun node member earlier => ?_
  · exact @idAt_inj _ _ _ distinct (inside one oneMem) (inside other otherMem) same
  · constructor
    · intro depends
      obtain ⟨first, second, rfl, same, arc⟩ := arc_of_dependsOn distinct depends
      have here := @idAt_inj _ _ _ distinct (arc_below distinct arc).2 (inside node member) same
      exact ⟨first, here ▸ arc, rfl⟩
    · rintro ⟨other, arc, rfl⟩
      exact dependsOn_of_arc distinct arc

theorem exists_sorted_layers :
    ∃ layers, layersFrom (indexDependencies subtasks).adj subtasks.length
        (indexDependencies subtasks).inDegree
        ((range subtasks.length).filter fun i => (indexDependencies subtasks).inDegree i = 0) =
        some layers ∧
      Sorted (range subtasks.length) (dependencyArcs subtasks) layers := by
  obtain ⟨inDegree, adj⟩ := foldl_add (dependencyArcs subtasks) {}
  rw [← indexDependencies_eq] at inDegree adj
  have degrees : (indexDependencies subtasks).inDegree = pending (dependencyArcs subtasks) [] := by
    funext node
    rw [inDegree, Nat.zero_add]
  have successors : (indexDependencies subtasks).adj = arcsFrom (dependencyArcs subtasks) := by
    funext node
    rw [adj, nil_append]
  rw [degrees, successors]
  have start := @sorting_start _ _ _ (dependencyArcs subtasks) (nodup_range (n := subtasks.length))
  have closed (first second : Nat) (arc : Arc (dependencyArcs subtasks) first second) :
      second ∈ range subtasks.length := mem_range.mpr (arc_below distinct arc).2
  obtain ⟨layers, taken, sorted⟩ := start.exists_sorted closed
    (show _ ≤ subtasks.length + 0 by rw [length_range, Nat.add_zero])
  exact ⟨layers, taken, sorted⟩

theorem exists_resolved :
    ∃ layers, Sorted (range subtasks.length) (dependencyArcs subtasks) layers ∧
      (∀ layer ∈ layers, layer ≠ []) ∧
      resolveExecutionOrder subtasks = some
        (if (layers.map length).sum ≠ subtasks.length then
          .error (.taskError "circular dependency detected in subtasks")
        else .ok (layers.map fun layer => layer.map (idAt subtasks))) := by
  obtain ⟨layers, taken, sorted⟩ := exists_sorted_layers distinct
  refine ⟨layers, sorted, fun layer listed => ne_nil_of_layersFrom taken listed, ?_⟩
  have named : layers.map (fun layer => layer.filterMap fun i => (subtasks[i]?).map Subtask.id) =
      layers.map fun layer => layer.map (idAt subtasks) := by
    refine map_congr_left fun layer listed => ?_
    rw [← filterMap_eq_map]
    refine filterMap_congr fun i member => ?_
    have below := mem_range.mp (sorted.inside i (mem_flatten.mpr ⟨layer, listed, member⟩))
    rw [comp_apply, idAt_of_getElem? (getElem?_eq_getElem below),
      getElem?_eq_getElem below]
    rfl
  unfold resolveExecutionOrder
  split
  · rename_i none
    subst none
    cases taken
    rfl
  · simp only [taken, Option.map_some, named]

theorem resolveExecutionOrder_ne_nil {layers : List (List String)} {layer : List String}
    (ok : resolveExecutionOrder subtasks = some (.ok layers)) (listed : layer ∈ layers) :
    layer ≠ [] := by
  obtain ⟨positions, _, some, result⟩ := exists_resolved distinct
  rw [result, Option.some.injEq] at ok
  split at ok
  · cases ok
  · cases ok
    obtain ⟨first, member, rfl⟩ := mem_map.mp listed
    simpa using some first member

/-- Subtasks are put into layers exactly if no chain of known dependencies closes. Then each stands
in one layer: the one that the longest chain to it tells. -/
theorem resolveExecutionOrder_iff :
    (∃ outcome, resolveExecutionOrder subtasks = some outcome) ∧
    ((∃ layers, resolveExecutionOrder subtasks = some (.ok layers)) ↔
      ∀ id, ¬ Relation.TransGen (DependsOn subtasks) id id) ∧
    ∀ layers, resolveExecutionOrder subtasks = some (.ok layers) →
      layers.flatten.Perm (subtasks.map Subtask.id) ∧ Layered (DependsOn subtasks) layers ∧
        ∀ level id, StandsAt layers level id →
          IsGreatest {length | ChainTo (DependsOn subtasks) length id} level := by
  obtain ⟨layers, sorted, _, result⟩ := exists_resolved distinct
  have closed (first second : Nat) (arc : Arc (dependencyArcs subtasks) first second) :
      first ∈ range subtasks.length ∧ second ∈ range subtasks.length :=
    ⟨mem_range.mpr (arc_below distinct arc).1, mem_range.mpr (arc_below distinct arc).2⟩
  have complete := sorted.length_eq_iff nodup_range closed
  rw [acyclic_iff distinct, length_range, length_flatten] at complete
  have inside (position : Nat) (member : position ∈ layers.flatten) : position < subtasks.length :=
    mem_range.mp (sorted.inside position member)
  have whole : (range subtasks.length).map (idAt subtasks) = subtasks.map Subtask.id := by
    refine ext_getElem (by simp) fun i below within => ?_
    have inRange : i < subtasks.length := by simpa using within
    simp [idAt, inRange]
  refine ⟨⟨_, result⟩, ?_, fun found ok => ?_⟩
  · rw [← complete, result]
    by_cases all : (layers.map length).sum = subtasks.length
    · simp [all]
    · simp [all]
  · rw [result, Option.some.injEq] at ok
    split at ok
    · cases ok
    · rename_i all
      cases ok
      have layered := layered_ids distinct sorted.layered inside
      refine ⟨?_, layered, fun level id here => layered.isGreatest here⟩
      have sub := sorted.layered.once.subperm sorted.inside
      have long : (range subtasks.length).length ≤ layers.flatten.length := by
        rw [length_range, length_flatten, not_not.mp all]
      rw [← map_flatten, ← whole]
      exact (sub.perm_of_length_le long).map _

end Arcs

/-- Subtasks of which only ids and dependencies are of interest. -/
def plainSubtask (id : String) (dependsOn : List String) : Subtask where
  id := id
  parentId := "T1"
  description := id
  status := .pending
  assignedWorker := none
  dependsOn := dependsOn
  fileConstraints := []
  expectedOutput := ""
  result := none
  dispatchMode := .preferRemote
  effectClass := .requiresWorker
  dispatchRetryCount := 0
  requiredCapabilities := []
  agentConfigJson := none
  steps := []
  retryCount := 0

/-- One subtask depends on another one twice, and on one that is not there. -/
def repeatedDependency : List Subtask :=
  [plainSubtask "A" [], plainSubtask "B" ["A", "A", "X"]]

theorem resolveExecutionOrder_iff_sample :
    resolveExecutionOrder repeatedDependency = some (.ok [["A"], ["B"]]) ∧
      ∀ id, ¬ Relation.TransGen (DependsOn repeatedDependency) id id := by
  have ordered : resolveExecutionOrder repeatedDependency = some (.ok [["A"], ["B"]]) := by
    decide +kernel
  exact ⟨ordered, (resolveExecutionOrder_iff (by decide)).2.1.mp ⟨_, ordered⟩⟩

end UltimateCoders.Scheduler
