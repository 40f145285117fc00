import UltimateCoders.Graph.Tables
import UltimateCoders.Search.BreadthFirst

/-! # Downstream closures

Cancelling a node also cancels what depends on it. The closure of some roots is computed from the
dependency column of a graph, breadth first, over a hash map that is passed through once for every
node that is popped. The map has an order that nothing is known of.
-/

namespace UltimateCoders.Graph

open Search

/-- The nodes of a graph and what they depend on. -/
abbrev DependencyTable := List (String × List String)

def Tables.dependencyTable (tables : Tables) (graphId : String) : DependencyTable :=
  (tables.nodes.rows.filter fun row => row.graphId = graphId).map fun row =>
    (row.nodeId, row.dependencies)

/-- One pass over the map for a node that was popped: whoever was not seen and depends on it joins
the queue. -/
def pushDependents (entries : DependencyTable) (id : String) (frontier : Frontier String) :
    Frontier String :=
  entries.foldl (fun frontier entry =>
    if entry.1 ∉ frontier.seen ∧ id ∈ entry.2 then frontier.push entry.1 else frontier) frontier

/-- The loop over the queue; the map is passed through in some order at every turn. -/
def closureLoop (order : Nat → DependencyTable) :
    Nat → Nat → Frontier String → Option (List String)
  | _, _, ⟨_, []⟩ => some []
  | 0, _, ⟨_, _ :: _⟩ => none
  | fuel + 1, turn, ⟨seen, id :: queue⟩ =>
    (closureLoop order fuel (turn + 1) (pushDependents (order turn) id ⟨seen, queue⟩)).map (id :: ·)

/-- Roots that are nodes come first; `none` if the loop does not end within as many turns as there
are nodes. -/
def downstreamClosure (deps : DependencyTable) (order : Nat → DependencyTable)
    (roots : List String) : Option (List String) :=
  closureLoop order deps.length 0
    (roots.foldl (fun frontier root =>
      if root ∈ deps.map Prod.fst then frontier.push root else frontier) {})

variable {deps : DependencyTable} {order : Nat → DependencyTable} {roots : List String}

def DependedOn (deps : DependencyTable) (id dependent : String) : Prop :=
  ∃ entry ∈ deps, entry.1 = dependent ∧ id ∈ entry.2

/-- The dependents that one pass over the map offers. -/
def dependents (entries : DependencyTable) (id : String) : List String :=
  (entries.filter fun entry => id ∈ entry.2).map Prod.fst

theorem mem_dependents {entries : DependencyTable} {id dependent : String} :
    dependent ∈ dependents entries id ↔ DependedOn entries id dependent := by
  simp only [dependents, List.mem_map, List.mem_filter, decide_eq_true_eq, DependedOn]
  constructor
  · rintro ⟨entry, ⟨listed, depends⟩, named⟩
    exact ⟨entry, listed, named, depends⟩
  · rintro ⟨entry, listed, named, depends⟩
    exact ⟨entry, ⟨listed, depends⟩, named⟩

theorem pushDependents_eq (entries : DependencyTable) (id : String) (frontier : Frontier String) :
    pushDependents entries id frontier = (dependents entries id).foldl Frontier.push frontier := by
  unfold pushDependents dependents
  induction entries generalizing frontier with
  | nil => rfl
  | cons entry rest ih =>
    rw [List.foldl_cons, ih, List.filter_cons]
    by_cases depends : id ∈ entry.2
    · by_cases seen : entry.1 ∈ frontier.seen
      · have same : frontier.push entry.1 = frontier := if_pos seen
        simp [depends, seen, same]
      · simp [depends, seen]
    · simp [depends]

theorem closureLoop_eq (fuel turn : Nat) (frontier : Frontier String) :
    closureLoop order fuel turn frontier =
      breadthFirst (fun turn id => dependents (order turn) id) fuel turn frontier := by
  obtain ⟨seen, queue⟩ := frontier
  induction fuel generalizing turn seen queue with
  | zero => cases queue <;> rfl
  | succ fuel ih =>
    cases queue with
    | nil => rfl
    | cons id queue =>
      rw [closureLoop, breadthFirst, ih, pushDependents_eq]

theorem foldl_roots (frontier : Frontier String) :
    roots.foldl (fun frontier root =>
      if root ∈ deps.map Prod.fst then frontier.push root else frontier) frontier =
      (roots.filter (· ∈ deps.map Prod.fst)).foldl Frontier.push frontier := by
  induction roots generalizing frontier with
  | nil => rfl
  | cons root rest ih =>
    rw [List.foldl_cons, ih, List.filter_cons]
    by_cases known : root ∈ deps.map Prod.fst
    · simp [known]
    · simp [known]

/-- The closure has the nodes that depend on an existing root over any number of steps, each once,
whatever the order of the map. -/
theorem downstreamClosure_spec (shuffled : ∀ turn, (order turn).Perm deps) (roots : List String) :
    ∃ closure, downstreamClosure deps order roots = some closure ∧ closure.Nodup ∧
      ∀ id, id ∈ closure ↔ ∃ root ∈ roots, root ∈ deps.map Prod.fst ∧
        Relation.ReflTransGen (DependedOn deps) root id := by
  have offers : Offers (DependedOn deps) fun turn id => dependents (order turn) id := by
    intro turn id other
    rw [mem_dependents]
    unfold DependedOn
    simp only [(shuffled turn).mem_iff]
  have within (id other : String) (step : DependedOn deps id other) : other ∈ deps.map Prod.fst := by
    obtain ⟨entry, listed, rfl, _⟩ := step
    exact List.mem_map_of_mem listed
  have start : Exploring (DependedOn deps) (deps.map Prod.fst)
      (roots.filter (· ∈ deps.map Prod.fst)) [] _ :=
    exploring_start _ fun root member => of_decide_eq_true (List.mem_filter.mp member).2
  obtain ⟨closure, found, once, members⟩ := start.exists_closure offers within
    (show _ ≤ deps.length + 0 by rw [List.length_map, Nat.add_zero])
  refine ⟨closure, ?_, once, fun id => (members id).trans ?_⟩
  · rw [downstreamClosure, foldl_roots, closureLoop_eq]
    exact found
  · simp only [List.mem_filter, decide_eq_true_eq, and_assoc]

/-- A cycle, a self-reference and an unknown id. -/
theorem downstreamClosure_spec_sample :
    ∃ closure, downstreamClosure [("a", ["b", "a"]), ("b", ["a", "x"]), ("c", [])]
        (fun _ => [("a", ["b", "a"]), ("b", ["a", "x"]), ("c", [])].reverse) ["x", "a"] =
          some closure ∧ closure.Nodup ∧
      ∀ id, id ∈ closure ↔ ∃ root ∈ ["x", "a"],
        root ∈ [("a", ["b", "a"]), ("b", ["a", "x"]), ("c", [])].map Prod.fst ∧
          Relation.ReflTransGen
            (DependedOn [("a", ["b", "a"]), ("b", ["a", "x"]), ("c", [])]) root id :=
  downstreamClosure_spec (fun _ => List.reverse_perm _) ["x", "a"]

end UltimateCoders.Graph
