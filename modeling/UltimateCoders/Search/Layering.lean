import Mathlib.Data.Fintype.Order

/-! # Layers of a graph

Nodes are taken off a graph layer by layer: a node is ready once all arcs that lead to it come from
nodes that are taken. Arcs that are listed several times are counted as often. A node stands in
the layer that the longest chain to it tells, and all nodes are taken exactly if no chain closes.
-/

namespace Search

open List

universe u v

section Layers

variable {Node : Type u} {before : Node → Node → Prop} {layers : List (List Node)}
  {first node other : Node} {length level : Nat}

/-- A chain of so many steps ends in the node. -/
inductive ChainTo (before : Node → Node → Prop) : Nat → Node → Prop where
  | start (node : Node) : ChainTo before 0 node
  | step {length : Nat} {first node : Node} :
      ChainTo before length first → before first node → ChainTo before (length + 1) node

def StandsAt (layers : List (List Node)) (level : Nat) (node : Node) : Prop :=
  ∃ layer, layers[level]? = some layer ∧ node ∈ layer

/-- Every node stands once, behind all that come before it, and right behind one of them unless it
stands in the first layer. -/
structure Layered (before : Node → Node → Prop) (layers : List (List Node)) : Prop where
  earlier : ∀ level node, StandsAt layers level node → ∀ other, before other node →
    ∃ lower < level, StandsAt layers lower other
  adjacent : ∀ level node, StandsAt layers (level + 1) node →
    ∃ other, before other node ∧ StandsAt layers level other
  once : layers.flatten.Nodup

theorem mem_flatten_iff : node ∈ layers.flatten ↔ ∃ level, StandsAt layers level node := by
  rw [mem_flatten]
  constructor
  · rintro ⟨layer, listed, member⟩
    obtain ⟨level, here⟩ := mem_iff_getElem?.mp listed
    exact ⟨level, layer, here, member⟩
  · rintro ⟨level, layer, here, member⟩
    exact ⟨layer, mem_of_getElem? here, member⟩

theorem StandsAt.lt (here : StandsAt layers level node) : level < layers.length := by
  obtain ⟨layer, found, _⟩ := here
  exact (List.getElem?_eq_some_iff.mp found).1

theorem standsAt_snoc {last : List Node} : StandsAt (layers ++ [last]) level node ↔
    StandsAt layers level node ∨ (level = layers.length ∧ node ∈ last) := by
  unfold StandsAt
  rcases lt_trichotomy level layers.length with below | same | above
  · simp [getElem?_append_left below, below.ne]
  · subst same
    simp
  · have past : (layers ++ [last]).length ≤ level := by
      rw [length_append, length_singleton]
      exact above
    rw [getElem?_eq_none past, getElem?_eq_none above.le]
    simp [above.ne']

/-- In layers without repetition a node stands in one layer. -/
theorem StandsAt.unique (once : layers.flatten.Nodup) {second : Nat}
    (here : StandsAt layers level node) (there : StandsAt layers second node) : level = second := by
  induction layers generalizing level second with
  | nil =>
    obtain ⟨_, none, _⟩ := here
    cases none
  | cons layer rest ih =>
    rw [flatten_cons, nodup_append'] at once
    obtain ⟨_, restOnce, apart⟩ := once
    have later {level : Nat} (stands : StandsAt (layer :: rest) (level + 1) node) :
        StandsAt rest level node := stands
    have head (stands : StandsAt (layer :: rest) 0 node) : node ∈ layer := by
      obtain ⟨_, same, member⟩ := stands
      cases same
      exact member
    cases level with
    | zero =>
      cases second with
      | zero => rfl
      | succ second =>
        exact absurd (mem_flatten_iff.mpr ⟨second, later there⟩)
          (disjoint_left.mp apart (head here))
    | succ level =>
      cases second with
      | zero =>
        exact absurd (mem_flatten_iff.mpr ⟨level, later here⟩) (disjoint_left.mp apart (head there))
      | succ second => rw [ih restOnce (later here) (later there)]

section

variable (layered : Layered before layers)

include layered

/-- The level of a node is the length of the longest chain to it. -/
theorem Layered.isGreatest (here : StandsAt layers level node) :
    IsGreatest {length | ChainTo before length node} level := by
  constructor
  · change ChainTo before level node
    induction level generalizing node with
    | zero => exact .start node
    | succ level ih =>
      obtain ⟨other, step, stands⟩ := layered.adjacent level node here
      exact .step (ih stands) step
  · intro length chain
    induction chain generalizing level with
    | start node => exact Nat.zero_le level
    | step chain step ih =>
      obtain ⟨lower, below, stands⟩ := layered.earlier level _ here _ step
      exact (Nat.succ_le_succ (ih stands)).trans below

/-- Layers of other names for the nodes. -/
theorem Layered.map {Name : Type v} {named : Name → Name → Prop} {name : Node → Name}
    (distinct : ∀ one ∈ layers.flatten, ∀ other ∈ layers.flatten, name one = name other →
      one = other)
    (steps : ∀ node ∈ layers.flatten, ∀ earlier, named earlier (name node) ↔
      ∃ other, before other node ∧ name other = earlier) :
    Layered named (layers.map fun layer => layer.map name) := by
  have stands {level : Nat} {given : Name} :
      StandsAt (layers.map fun layer => layer.map name) level given ↔
        ∃ node, StandsAt layers level node ∧ name node = given := by
    simp only [StandsAt, getElem?_map, Option.map_eq_some_iff]
    constructor
    · rintro ⟨_, ⟨layer, found, rfl⟩, member⟩
      obtain ⟨node, listed, rfl⟩ := mem_map.mp member
      exact ⟨node, ⟨layer, found, listed⟩, rfl⟩
    · rintro ⟨node, ⟨layer, found, listed⟩, rfl⟩
      exact ⟨_, ⟨layer, found, rfl⟩, mem_map_of_mem listed⟩
  refine ⟨fun level given here earlier step => ?_, fun level given here => ?_, ?_⟩
  · obtain ⟨node, standing, rfl⟩ := stands.mp here
    have known := mem_flatten_iff.mpr ⟨level, standing⟩
    obtain ⟨other, arc, rfl⟩ := (steps node known earlier).mp step
    obtain ⟨lower, below, lowerStands⟩ := layered.earlier level node standing other arc
    exact ⟨lower, below, stands.mpr ⟨other, lowerStands, rfl⟩⟩
  · obtain ⟨node, standing, rfl⟩ := stands.mp here
    obtain ⟨other, step, lowerStands⟩ := layered.adjacent level node standing
    have known := mem_flatten_iff.mpr ⟨level + 1, standing⟩
    exact ⟨name other, (steps node known _).mpr ⟨other, step, rfl⟩,
      stands.mpr ⟨other, lowerStands, rfl⟩⟩
  · rw [← map_flatten]
    exact layered.once.map_on distinct

/-- Along chains the level grows. -/
theorem Layered.lower_of_transGen (chain : Relation.TransGen before first node)
    (here : StandsAt layers level node) : ∃ lower < level, StandsAt layers lower first := by
  induction chain generalizing level with
  | single step => exact layered.earlier level _ here _ step
  | tail _ step ih =>
    obtain ⟨lower, below, stands⟩ := layered.earlier level _ here _ step
    obtain ⟨lowest, lowestBelow, standing⟩ := ih stands
    exact ⟨lowest, lowestBelow.trans below, standing⟩

theorem Layered.acyclic (here : StandsAt layers level node) :
    ¬ Relation.TransGen before node node := by
  intro cycle
  obtain ⟨lower, below, stands⟩ := layered.lower_of_transGen cycle here
  exact absurd (stands.unique layered.once here) below.ne

end

/-- Finitely many nodes each of which has one of them before it hold a cycle. -/
theorem exists_cycle {stuck : List Node} (some : stuck ≠ [])
    (stays : ∀ node ∈ stuck, ∃ other ∈ stuck, before other node) :
    ∃ node ∈ stuck, Relation.TransGen before node node := by
  by_contra none
  push Not at none
  let Stuck := {node // node ∈ stuck}
  have finite : Finite Stuck := finite_toSet stuck
  let follows : Stuck → Stuck → Prop := fun first second =>
    Relation.TransGen before first.1 second.1
  have irreflexive : Std.Irrefl follows := ⟨fun node => none node.1 node.2⟩
  have transitive : IsTrans Stuck follows := ⟨fun _ _ _ one two => one.trans two⟩
  obtain ⟨start, member⟩ := exists_mem_of_ne_nil stuck some
  obtain ⟨least, _, minimal⟩ :=
    (Finite.wellFounded_of_trans_of_irrefl follows).has_min Set.univ ⟨⟨start, member⟩, trivial⟩
  obtain ⟨other, otherMem, step⟩ := stays least.1 least.2
  exact minimal ⟨other, otherMem⟩ trivial (.single step)

end Layers

section Taking

variable {Node : Type u} [DecidableEq Node] {node : Node}

/-- How many arcs still lead to each node, and the nodes that have become ready. -/
structure Countdown (Node : Type u) where
  inDegree : Node → Nat
  ready : List Node := []

open Countdown

/-- One arc to the node is gone. -/
def Countdown.decrement (state : Countdown Node) (node : Node) : Countdown Node where
  inDegree := Function.update state.inDegree node (state.inDegree node - 1)
  ready := if state.inDegree node - 1 = 0 then state.ready ++ [node] else state.ready

variable {state : Countdown Node} {hit : Node}

theorem inDegree_decrement_self :
    (state.decrement node).inDegree node = state.inDegree node - 1 :=
  Function.update_self _ _ _

theorem inDegree_decrement_ne (apart : node ≠ hit) :
    (state.decrement hit).inDegree node = state.inDegree node :=
  Function.update_of_ne apart _ _

/-- The arcs to the nodes are there to be counted down. -/
def Countable (inDegree : Node → Nat) (hits : List Node) : Prop :=
  ∀ node, hits.count node ≤ inDegree node

/-- No count falls below zero, and who has become ready are the nodes whose last arc is gone. -/
theorem foldl_decrement {hits : List Node}
    (countable : Countable state.inDegree hits) :
    ∃ fresh, (hits.foldl decrement state).ready = state.ready ++ fresh ∧
      fresh.Nodup ∧ (∀ node, node ∈ fresh ↔ node ∈ hits ∧ state.inDegree node = hits.count node) ∧
      ∀ node, (hits.foldl decrement state).inDegree node =
        state.inDegree node - hits.count node := by
  induction hits generalizing state with
  | nil => exact ⟨[], by simp⟩
  | cons hit rest ih =>
    have some : rest.count hit + 1 ≤ state.inDegree hit := by
      simpa using countable hit
    have others : Countable (state.decrement hit).inDegree rest := by
      intro node
      by_cases own : node = hit
      · subst own
        rw [inDegree_decrement_self]
        omega
      · have bound := countable node
        rw [count_cons_of_ne (Ne.symm own)] at bound
        rwa [inDegree_decrement_ne own]
    obtain ⟨fresh, ready, once, members, counts⟩ := ih others
    have inDegrees (node : Node) : ((hit :: rest).foldl decrement state).inDegree node =
        state.inDegree node - (hit :: rest).count node := by
      rw [foldl_cons, counts]
      by_cases own : node = hit
      · subst own
        rw [inDegree_decrement_self, count_cons_self]
        omega
      · rw [inDegree_decrement_ne own, count_cons_of_ne (Ne.symm own)]
    have member (node : Node) : node ∈ fresh ↔
        node ∈ rest ∧ (state.decrement hit).inDegree node = rest.count node := members node
    by_cases last : state.inDegree hit - 1 = 0
    · have gone : hit ∉ rest := count_eq_zero.mp (by omega)
      refine ⟨hit :: fresh, ?_, ?_, fun node => ?_, inDegrees⟩
      · rw [foldl_cons, ready, decrement, if_pos last, append_assoc]
        rfl
      · exact nodup_cons.mpr ⟨fun here => gone ((member hit).mp here).1, once⟩
      · by_cases own : node = hit
        · subst own
          simp only [mem_cons, true_or, count_cons_self, true_and, true_iff]
          omega
        · rw [mem_cons, mem_cons, member, count_cons_of_ne (Ne.symm own), inDegree_decrement_ne own]
          simp [own]
    · refine ⟨fresh, ?_, once, fun node => ?_, inDegrees⟩
      · rw [foldl_cons, ready, decrement, if_neg last]
      · by_cases own : node = hit
        · subst own
          rw [member, inDegree_decrement_self, count_cons_self, mem_cons]
          constructor
          · rintro ⟨_, counted⟩
            exact ⟨.inl rfl, by omega⟩
          · rintro ⟨_, counted⟩
            exact ⟨count_pos_iff.mp (by omega), by omega⟩
        · rw [member, mem_cons, count_cons_of_ne (Ne.symm own), inDegree_decrement_ne own]
          simp [own]

/-- The nodes of a layer are taken: their arcs are gone. -/
def nextRound (successors : Node → List Node) (inDegree : Node → Nat) (layer : List Node) :
    Countdown Node :=
  layer.foldl (fun state node => (successors node).foldl decrement state) { inDegree }

/-- The layers from one on; `none` when the fuel runs out. -/
def layersFrom (successors : Node → List Node) :
    Nat → (Node → Nat) → List Node → Option (List (List Node))
  | _, _, [] => some []
  | 0, _, _ :: _ => none
  | fuel + 1, inDegree, node :: rest =>
    let next := nextRound successors inDegree (node :: rest)
    (layersFrom successors fuel next.inDegree next.ready).map ((node :: rest) :: ·)

theorem ne_nil_of_layersFrom {successors : Node → List Node} {fuel : Nat} {inDegree : Node → Nat}
    {queue layer : List Node} {layers : List (List Node)}
    (taken : layersFrom successors fuel inDegree queue = some layers) (listed : layer ∈ layers) :
    layer ≠ [] := by
  induction fuel generalizing inDegree queue layers with
  | zero =>
    cases queue <;> cases taken
    cases listed
  | succ fuel ih =>
    cases queue with
    | nil =>
      cases taken
      cases listed
    | cons first rest =>
      obtain ⟨others, later, rfl⟩ := Option.map_eq_some_iff.mp taken
      rcases mem_cons.mp listed with rfl | other
      · exact cons_ne_nil _ _
      · exact ih later other

theorem nextRound_eq (successors : Node → List Node) (inDegree : Node → Nat) (layer : List Node) :
    nextRound successors inDegree layer =
      (layer.flatMap successors).foldl decrement { inDegree } := by
  rw [nextRound, foldl_flatMap]

end Taking

section Sorting

variable {Node : Type u} [DecidableEq Node] (nodes : List Node) (arcs : List (Node × Node))

def Arc (first second : Node) : Prop := (first, second) ∈ arcs

/-- The nodes that arcs lead to from a node, as often as there are arcs. -/
def arcsFrom (node : Node) : List Node := (arcs.filter fun arc => arc.1 = node).map Prod.snd

/-- How many arcs lead to a node from nodes that are not taken. -/
def pending (taken : List Node) (node : Node) : Nat :=
  arcs.countP fun arc => arc.2 = node && arc.1 ∉ taken

variable {nodes arcs} {taken layer : List Node} {node : Node}

theorem pending_cons (arc : Node × Node) (arcs : List (Node × Node)) (node : Node) :
    pending (arc :: arcs) [] node = pending arcs [] node + if arc.2 = node then 1 else 0 := by
  simp [pending, countP_cons]

theorem arcsFrom_cons (arc : Node × Node) (arcs : List (Node × Node)) (node : Node) :
    arcsFrom (arc :: arcs) node =
      if arc.1 = node then arc.2 :: arcsFrom arcs node else arcsFrom arcs node := by
  by_cases own : arc.1 = node
  · simp [own, arcsFrom]
  · simp [own, arcsFrom]

theorem pending_eq_zero_iff :
    pending arcs taken node = 0 ↔ ∀ other, Arc arcs other node → other ∈ taken := by
  rw [pending, countP_eq_zero]
  constructor
  · intro none other arc
    by_contra open_
    exact none (other, node) arc (by simpa using open_)
  · rintro all ⟨other, target⟩ listed counted
    simp only [Bool.and_eq_true, decide_eq_true_eq] at counted
    exact counted.2 (all other (counted.1 ▸ listed))

theorem pending_snoc {first : Node} (apart : first ∉ taken) :
    (arcsFrom arcs first).count node + pending arcs (taken ++ [first]) node =
      pending arcs taken node := by
  induction arcs with
  | nil => rfl
  | cons arc rest ih =>
    obtain ⟨source, target⟩ := arc
    simp only [arcsFrom, pending, filter_cons, countP_cons] at ih ⊢
    rw [← ih]
    by_cases same : target = node
    · subst same
      by_cases own : source = first
      · subst own
        simp [apart]
        omega
      · by_cases listed : source ∈ taken
        · simp [own, listed]
        · simp [own, listed]
          omega
    · by_cases own : source = first
      · subst own
        simp [same]
      · simp [same, own]

/-- Taking a layer counts down the arcs from its nodes. -/
theorem pending_append (apart : ∀ node ∈ layer, node ∉ taken) (once : layer.Nodup) :
    (layer.flatMap (arcsFrom arcs)).count node + pending arcs (taken ++ layer) node =
      pending arcs taken node := by
  induction layer generalizing taken with
  | nil => simp
  | cons first rest ih =>
    obtain ⟨absent, once⟩ := nodup_cons.mp once
    obtain ⟨free, others⟩ := forall_mem_cons.mp apart
    have later : ∀ node ∈ rest, node ∉ taken ++ [first] := by
      intro node member listed
      rcases mem_append.mp listed with earlier | same
      · exact others node member earlier
      · exact absent (mem_singleton.mp same ▸ member)
    have step := ih later once
    have single := @pending_snoc _ _ arcs taken node first free
    rw [append_assoc, singleton_append] at step
    rw [flatMap_cons, count_append]
    omega

/-- What holds between two rounds: the layers so far and the one to be taken next, and how many
arcs are left. -/
structure Sorting (nodes : List Node) (arcs : List (Node × Node)) (done : List (List Node))
    (inDegree : Node → Nat) (queue : List Node) : Prop where
  layered : Layered (Arc arcs) (done ++ [queue])
  inside : ∀ node ∈ (done ++ [queue]).flatten, node ∈ nodes
  counts : ∀ node, inDegree node = pending arcs done.flatten node
  queued : ∀ node ∈ nodes, node ∈ queue ↔ node ∉ done.flatten ∧ inDegree node = 0

/-- What holds in the end: who is not taken waits for one that is not taken. -/
structure Sorted (nodes : List Node) (arcs : List (Node × Node)) (layers : List (List Node)) :
    Prop where
  layered : Layered (Arc arcs) layers
  inside : ∀ node ∈ layers.flatten, node ∈ nodes
  stuck : ∀ node ∈ nodes, node ∉ layers.flatten →
    ∃ other, Arc arcs other node ∧ other ∉ layers.flatten

variable {done : List (List Node)} {inDegree : Node → Nat} {queue : List Node}

theorem mem_arcsFrom {first : Node} : node ∈ arcsFrom arcs first ↔ Arc arcs first node := by
  simp only [arcsFrom, mem_map, mem_filter, decide_eq_true_eq, Arc, Prod.exists,
    exists_eq_right, exists_eq_right]

/-- Whoever is taken has no arcs left to it. -/
theorem Sorting.pending_of_done (sorting : Sorting nodes arcs done inDegree queue)
    (taken : node ∈ done.flatten) : inDegree node = 0 := by
  rw [sorting.counts, pending_eq_zero_iff]
  intro other arc
  obtain ⟨level, here⟩ := mem_flatten_iff.mp taken
  obtain ⟨lower, below, stands⟩ :=
    sorting.layered.earlier level node (standsAt_snoc.mpr (.inl here)) other arc
  rcases standsAt_snoc.mp stands with earlier | ⟨same, _⟩
  · exact mem_flatten_iff.mpr ⟨lower, earlier⟩
  · have := here.lt
    omega

/-- A round goes on to the next layer. -/
theorem Sorting.next (sorting : Sorting nodes arcs done inDegree queue)
    (closed : ∀ first second, Arc arcs first second → second ∈ nodes) :
    Sorting nodes arcs (done ++ [queue]) (nextRound (arcsFrom arcs) inDegree queue).inDegree
      (nextRound (arcsFrom arcs) inDegree queue).ready := by
  have flat : (done ++ [queue]).flatten = done.flatten ++ queue := by simp
  have once := sorting.layered.once
  rw [flat, nodup_append'] at once
  obtain ⟨_, queueOnce, apart⟩ := once
  have counted (node : Node) : (queue.flatMap (arcsFrom arcs)).count node +
      pending arcs (done.flatten ++ queue) node = inDegree node := by
    rw [sorting.counts]
    exact pending_append (fun node member taken => disjoint_left.mp apart taken member) queueOnce
  have countable : Countable inDegree (queue.flatMap (arcsFrom arcs)) := fun node => by
    have := counted node
    omega
  obtain ⟨fresh, ready, freshOnce, members, counts⟩ :=
    @foldl_decrement _ _ { inDegree } (queue.flatMap (arcsFrom arcs)) countable
  rw [← nextRound_eq] at ready counts
  have left (node : Node) : (nextRound (arcsFrom arcs) inDegree queue).inDegree node =
      pending arcs (done ++ [queue]).flatten node := by
    have := counted node
    rw [counts, flat]
    dsimp only
    omega
  have reached (node : Node) (member : node ∈ fresh) : ∃ first ∈ queue, Arc arcs first node := by
    obtain ⟨first, listed, arc⟩ := mem_flatMap.mp ((members node).mp member).1
    exact ⟨first, listed, mem_arcsFrom.mp arc⟩
  have inNodes (node : Node) (member : node ∈ fresh) : node ∈ nodes := by
    obtain ⟨first, _, arc⟩ := reached node member
    exact closed first node arc
  have queued (node : Node) (known : node ∈ nodes) : node ∈ fresh ↔
      node ∉ (done ++ [queue]).flatten ∧
        (nextRound (arcsFrom arcs) inDegree queue).inDegree node = 0 := by
    have total := counted node
    rw [members, counts, flat, mem_append, not_or]
    have waits := sorting.queued node known
    constructor
    · rintro ⟨hit, last⟩
      have some : 0 < (queue.flatMap (arcsFrom arcs)).count node := count_pos_iff.mpr hit
      dsimp only at last
      refine ⟨⟨fun taken => ?_, fun here => ?_⟩, by dsimp only; omega⟩
      · have := sorting.pending_of_done taken
        omega
      · have := (waits.mp here).2
        omega
    · rintro ⟨⟨free, later⟩, zero⟩
      have some : inDegree node ≠ 0 := fun none => later (waits.mpr ⟨free, none⟩)
      dsimp only at zero
      exact ⟨count_pos_iff.mp (by omega), by dsimp only; omega⟩
  have disjoint : Disjoint (done ++ [queue]).flatten fresh := by
    intro node taken member
    exact ((queued node (inNodes node member)).mp member).1 taken
  rw [ready]
  refine ⟨⟨fun level node stands other arc => ?_, fun level node stands => ?_, ?_⟩,
    fun node member => ?_, left, queued⟩
  · rcases standsAt_snoc.mp stands with old | ⟨rfl, member⟩
    · obtain ⟨lower, below, earlier⟩ := sorting.layered.earlier level node old other arc
      exact ⟨lower, below, standsAt_snoc.mpr (.inl earlier)⟩
    · have zero := ((queued node (inNodes node member)).mp member).2
      rw [left, pending_eq_zero_iff] at zero
      obtain ⟨lower, earlier⟩ := mem_flatten_iff.mp (zero other arc)
      exact ⟨lower, earlier.lt, standsAt_snoc.mpr (.inl earlier)⟩
  · rcases standsAt_snoc.mp stands with old | ⟨last, member⟩
    · obtain ⟨other, arc, earlier⟩ := sorting.layered.adjacent level node old
      exact ⟨other, arc, standsAt_snoc.mpr (.inl earlier)⟩
    · obtain ⟨first, listed, arc⟩ := reached node member
      have here : level = done.length := by simpa using last
      exact ⟨first, arc, standsAt_snoc.mpr (.inl (standsAt_snoc.mpr (.inr ⟨here, listed⟩)))⟩
  · rw [flatten_append, flatten_singleton, nodup_append']
    exact ⟨sorting.layered.once, freshOnce, disjoint⟩
  · rw [flatten_append, flatten_singleton, mem_append] at member
    exact member.elim (sorting.inside node) (inNodes node)

theorem Sorting.sorted (sorting : Sorting nodes arcs done inDegree []) :
    Sorted nodes arcs done := by
  have stands {level : Nat} {node : Node} :
      StandsAt (done ++ [[]]) level node ↔ StandsAt done level node := by
    rw [standsAt_snoc]
    simp
  have flat : (done ++ [[]]).flatten = done.flatten := by simp
  have layered := sorting.layered
  refine ⟨⟨fun level node here other arc => ?_, fun level node here => ?_, flat ▸ layered.once⟩,
    fun node member => sorting.inside node (flat.symm ▸ member), fun node known free => ?_⟩
  · obtain ⟨lower, below, earlier⟩ := layered.earlier level node (stands.mpr here) other arc
    exact ⟨lower, below, stands.mp earlier⟩
  · obtain ⟨other, arc, earlier⟩ := layered.adjacent level node (stands.mpr here)
    exact ⟨other, arc, stands.mp earlier⟩
  · by_contra none
    push Not at none
    have zero : inDegree node = 0 := by
      rw [sorting.counts, pending_eq_zero_iff]
      exact none
    exact not_mem_nil ((sorting.queued node known).mpr ⟨free, zero⟩)

theorem Sorting.room (sorting : Sorting nodes arcs done inDegree queue) :
    done.flatten.length + queue.length ≤ nodes.length := by
  have long := (sorting.layered.once.subperm sorting.inside).length_le
  rwa [flatten_append, flatten_singleton, length_append] at long

/-- With enough fuel the rounds end, and all layers are sorted. -/
theorem Sorting.exists_sorted {fuel : Nat} (sorting : Sorting nodes arcs done inDegree queue)
    (closed : ∀ first second, Arc arcs first second → second ∈ nodes)
    (enough : nodes.length ≤ fuel + done.flatten.length) :
    ∃ rest, layersFrom (arcsFrom arcs) fuel inDegree queue = some rest ∧
      Sorted nodes arcs (done ++ rest) := by
  induction fuel generalizing done inDegree queue with
  | zero =>
    cases queue with
    | nil => exact ⟨[], rfl, by rw [append_nil]; exact sorting.sorted⟩
    | cons first rest =>
      have room := sorting.room
      rw [length_cons] at room
      omega
  | succ fuel ih =>
    cases queue with
    | nil => exact ⟨[], rfl, by rw [append_nil]; exact sorting.sorted⟩
    | cons first rest =>
      have next := sorting.next closed
      have flat : (done ++ [first :: rest]).flatten.length =
          done.flatten.length + (first :: rest).length := by simp
      obtain ⟨others, taken, sorted⟩ := ih next (by rw [flat, length_cons]; omega)
      refine ⟨(first :: rest) :: others, ?_, by simpa using sorted⟩
      rw [layersFrom, taken]
      rfl

/-- The nodes without arcs to them, before anything is taken. -/
theorem sorting_start (distinct : nodes.Nodup) :
    Sorting nodes arcs [] (pending arcs []) (nodes.filter fun node => pending arcs [] node = 0) := by
  refine ⟨⟨fun level node stands other arc => ?_, fun level node stands => ?_, ?_⟩,
    fun node member => ?_, fun node => rfl, fun node known => ?_⟩
  · obtain ⟨_, same, member⟩ := stands
    cases level with
    | zero =>
      cases same
      have zero := of_decide_eq_true (mem_filter.mp member).2
      cases pending_eq_zero_iff.mp zero other arc
    | succ level => cases same
  · obtain ⟨_, none, _⟩ := stands
    cases none
  · simpa using distinct.filter _
  · rw [nil_append, flatten_singleton] at member
    exact mem_of_mem_filter member
  · simp [known]

/-- The order within the layer that is taken next does not matter. -/
theorem Sorting.perm {other : List Node} (sorting : Sorting nodes arcs done inDegree queue)
    (same : queue.Perm other) : Sorting nodes arcs done inDegree other := by
  have stands {level : Nat} {node : Node} :
      StandsAt (done ++ [other]) level node ↔ StandsAt (done ++ [queue]) level node := by
    rw [standsAt_snoc, standsAt_snoc, same.mem_iff]
  have flat : (done ++ [queue]).flatten.Perm (done ++ [other]).flatten := by
    simpa using same.append_left done.flatten
  have layered := sorting.layered
  refine ⟨⟨fun level node here earlier arc => ?_, fun level node here => ?_,
    flat.nodup_iff.mp layered.once⟩, fun node member => sorting.inside node (flat.mem_iff.mpr member),
    sorting.counts, fun node known => same.mem_iff.symm.trans (sorting.queued node known)⟩
  · obtain ⟨lower, below, there⟩ := layered.earlier level node (stands.mp here) earlier arc
    exact ⟨lower, below, stands.mpr there⟩
  · obtain ⟨earlier, arc, there⟩ := layered.adjacent level node (stands.mp here)
    exact ⟨earlier, arc, stands.mpr there⟩

/-- The nodes that are not taken and wait for none that is not taken, in the order of all nodes. -/
def scan (nodes : List Node) (arcs : List (Node × Node)) (taken : List Node) : List Node :=
  nodes.filter fun node => node ∉ taken ∧ pending arcs taken node = 0

/-- A round may also look for the next layer among all nodes. -/
theorem Sorting.rescan (distinct : nodes.Nodup) (sorting : Sorting nodes arcs done inDegree queue)
    (closed : ∀ first second, Arc arcs first second → second ∈ nodes) :
    Sorting nodes arcs (done ++ [queue]) (pending arcs (done ++ [queue]).flatten)
      (scan nodes arcs (done ++ [queue]).flatten) := by
  have next := sorting.next closed
  rw [funext next.counts] at next
  refine next.perm ((perm_ext_iff_of_nodup ?_ (distinct.filter _)).mpr fun node => ?_)
  · have once := next.layered.once
    rw [flatten_append, flatten_singleton] at once
    exact once.of_append_right
  · simp only [mem_filter, decide_eq_true_eq]
    constructor
    · intro member
      have known := next.inside node (by simp [member])
      exact ⟨known, (next.queued node known).mp member⟩
    · intro ⟨known, free⟩
      exact (next.queued node known).mpr free

variable {layers : List (List Node)}

/-- All nodes are taken exactly if no chain closes. -/
theorem Sorted.length_eq_iff (sorted : Sorted nodes arcs layers) (distinct : nodes.Nodup)
    (closed : ∀ first second, Arc arcs first second → first ∈ nodes ∧ second ∈ nodes) :
    layers.flatten.length = nodes.length ↔ ∀ node, ¬ Relation.TransGen (Arc arcs) node node := by
  have sub := sorted.layered.once.subperm sorted.inside
  constructor
  · intro long node cycle
    have all := sub.perm_of_length_le long.ge
    obtain ⟨first, arc, _⟩ := Relation.TransGen.head'_iff.mp cycle
    have known : node ∈ nodes := (closed _ _ arc).1
    obtain ⟨level, here⟩ := mem_flatten_iff.mp (all.mem_iff.mpr known)
    exact sorted.layered.acyclic here cycle
  · intro acyclic
    have all : ∀ node ∈ nodes, node ∈ layers.flatten := by
      by_contra some
      push Not at some
      obtain ⟨first, known, free⟩ := some
      have left : nodes.filter (· ∉ layers.flatten) ≠ [] :=
        ne_nil_of_mem (mem_filter.mpr ⟨known, decide_eq_true free⟩)
      obtain ⟨node, _, cycle⟩ := exists_cycle left fun node member => by
        obtain ⟨listed, waits⟩ := mem_filter.mp member
        obtain ⟨other, arc, free⟩ := sorted.stuck node listed (of_decide_eq_true waits)
        exact ⟨other, mem_filter.mpr ⟨(closed _ _ arc).1, decide_eq_true free⟩, arc⟩
      exact acyclic node cycle
    exact le_antisymm sub.length_le (distinct.subperm all).length_le

end Sorting

end Search
