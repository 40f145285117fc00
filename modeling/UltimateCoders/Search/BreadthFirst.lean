import Mathlib.Data.List.Nodup
import Mathlib.Data.List.Perm.Subperm

/-! # Breadth-first closure

Nodes are popped from a queue, and those that follow one of them join the queue unless they were
seen. The order in which followers are offered may be another one at every turn. In a finite space
the queue runs empty, and the popped nodes are those that can be reached, each once.
-/

namespace Search

open List

universe u

variable {Node : Type u} [DecidableEq Node]

/-- The nodes that were seen and those of them that wait. -/
structure Frontier (Node : Type u) where
  seen : List Node := []
  queue : List Node := []

def Frontier.push (frontier : Frontier Node) (node : Node) : Frontier Node :=
  if node ∈ frontier.seen then frontier
  else ⟨node :: frontier.seen, frontier.queue ++ [node]⟩

/-- Pop the queue until it is empty; `none` when the fuel runs out. The turns are counted. -/
def breadthFirst (offered : Nat → Node → List Node) :
    Nat → Nat → Frontier Node → Option (List Node)
  | _, _, ⟨_, []⟩ => some []
  | 0, _, ⟨_, _ :: _⟩ => none
  | fuel + 1, turn, ⟨seen, node :: queue⟩ =>
    (breadthFirst offered fuel (turn + 1)
      ((offered turn node).foldl Frontier.push ⟨seen, queue⟩)).map (node :: ·)

variable {frontier : Frontier Node} {nodes : List Node} {node : Node}

/-- Pushing nodes adds those that were not seen, each once, to the queue and to the seen ones. -/
theorem foldl_push (offers : List Node) (frontier : Frontier Node) :
    ∃ fresh, (offers.foldl Frontier.push frontier).queue = frontier.queue ++ fresh ∧
      (∀ node, node ∈ (offers.foldl Frontier.push frontier).seen ↔
        node ∈ frontier.seen ∨ node ∈ offers) ∧
      fresh.Nodup ∧ ∀ node, node ∈ fresh ↔ node ∈ offers ∧ node ∉ frontier.seen := by
  induction offers generalizing frontier with
  | nil => exact ⟨[], by simp⟩
  | cons offer rest ih =>
    obtain ⟨fresh, queue, seen, once, members⟩ := ih (frontier.push offer)
    rw [foldl_cons, queue]
    by_cases old : offer ∈ frontier.seen
    · have same : frontier.push offer = frontier := if_pos old
      rw [same] at seen members ⊢
      refine ⟨fresh, rfl, fun node => ?_, once, fun node => ?_⟩
      · rw [seen, mem_cons]
        constructor
        · exact Or.imp_right Or.inr
        · rintro (seen | rfl | offered)
          · exact .inl seen
          · exact .inl old
          · exact .inr offered
      · rw [members, mem_cons]
        constructor
        · exact And.imp_left Or.inr
        · rintro ⟨rfl | offered, free⟩
          · exact absurd old free
          · exact ⟨offered, free⟩
    · have grown : frontier.push offer = ⟨offer :: frontier.seen, frontier.queue ++ [offer]⟩ :=
        if_neg old
      rw [grown] at seen members ⊢
      simp only [mem_cons, not_or] at seen members ⊢
      refine ⟨offer :: fresh, by simp, fun node => ?_, ?_, fun node => ?_⟩
      · rw [seen]
        tauto
      · exact nodup_cons.mpr ⟨fun member => ((members offer).mp member).2.1 rfl, once⟩
      · rw [mem_cons, members]
        constructor
        · rintro (rfl | ⟨offered, _, free⟩)
          · exact ⟨.inl rfl, old⟩
          · exact ⟨.inr offered, free⟩
        · rintro ⟨rfl | offered, free⟩
          · exact .inl rfl
          · by_cases own : node = offer
            · exact .inl own
            · exact .inr ⟨offered, own, free⟩

/-- What holds between two turns: what was popped and what waits are the seen nodes, each once;
they can be reached, and who follows a popped node was seen. -/
structure Exploring (follows : Node → Node → Prop) (space roots popped : List Node)
    (frontier : Frontier Node) : Prop where
  once : (popped ++ frontier.queue).Nodup
  seen : ∀ node, node ∈ frontier.seen ↔ node ∈ popped ++ frontier.queue
  inside : ∀ node ∈ frontier.seen, node ∈ space
  reached : ∀ node ∈ frontier.seen, ∃ root ∈ roots, Relation.ReflTransGen follows root node
  rooted : ∀ root ∈ roots, root ∈ frontier.seen
  closed : ∀ node ∈ popped, ∀ other, follows node other → other ∈ frontier.seen

/-- The offers at every turn are those that follow, in some order. -/
def Offers (follows : Node → Node → Prop) (offered : Nat → Node → List Node) : Prop :=
  ∀ turn node other, other ∈ offered turn node ↔ follows node other

variable {follows : Node → Node → Prop} {offered : Nat → Node → List Node}
  {space roots popped queue seen : List Node}

theorem Exploring.turn (exploring : Exploring follows space roots popped ⟨seen, node :: queue⟩)
    (offers : Offers follows offered) (within : ∀ first other, follows first other → other ∈ space)
    (turn : Nat) :
    Exploring follows space roots (popped ++ [node])
      ((offered turn node).foldl Frontier.push ⟨seen, queue⟩) := by
  obtain ⟨fresh, queueEq, seenIff, freshOnce, members⟩ :=
    foldl_push (offered turn node) ⟨seen, queue⟩
  have known (other : Node) : other ∈ seen ↔ other ∈ popped ++ node :: queue := exploring.seen other
  have whole : popped ++ [node] ++ (queue ++ fresh) = (popped ++ node :: queue) ++ fresh := by simp
  refine ⟨?_, fun other => ?_, fun other member => ?_, fun other member => ?_, fun root member => ?_,
    fun first member other step => ?_⟩
  · rw [queueEq, whole, nodup_append']
    refine ⟨exploring.once, freshOnce, fun other old new => ?_⟩
    exact ((members other).mp new).2 ((known other).mpr old)
  · rw [seenIff, queueEq, whole, mem_append, ← known, members]
    constructor
    · rintro (old | offer)
      · exact .inl old
      · by_cases old : other ∈ seen
        · exact .inl old
        · exact .inr ⟨offer, old⟩
    · exact Or.imp_right And.left
  · rcases (seenIff other).mp member with old | offer
    · exact exploring.inside other old
    · exact within node other ((offers turn node other).mp offer)
  · rcases (seenIff other).mp member with old | offer
    · exact exploring.reached other old
    · have here : node ∈ seen := (known node).mpr (by simp)
      obtain ⟨root, listed, path⟩ := exploring.reached node here
      exact ⟨root, listed, path.tail ((offers turn node other).mp offer)⟩
  · exact (seenIff root).mpr (.inl (exploring.rooted root member))
  · rw [seenIff]
    rcases mem_append.mp member with before | this
    · exact .inl (exploring.closed first before other step)
    · rw [mem_singleton.mp this] at step
      exact .inr ((offers turn node other).mpr step)

omit [DecidableEq Node] in
/-- With an empty queue the popped nodes are those that can be reached. -/
theorem Exploring.mem_popped_iff (exploring : Exploring follows space roots popped ⟨seen, []⟩) :
    node ∈ popped ↔ ∃ root ∈ roots, Relation.ReflTransGen follows root node := by
  have all (other : Node) : other ∈ seen ↔ other ∈ popped := by
    rw [exploring.seen other, append_nil]
  constructor
  · intro member
    exact exploring.reached node ((all node).mpr member)
  · rintro ⟨root, listed, path⟩
    induction path with
    | refl => exact (all root).mp (exploring.rooted root listed)
    | tail _ step ih => exact (all _).mp (exploring.closed _ ih _ step)

omit [DecidableEq Node] in
theorem Exploring.room (exploring : Exploring follows space roots popped frontier) :
    popped.length + frontier.queue.length ≤ space.length := by
  have inside : popped ++ frontier.queue ⊆ space := fun node member =>
    exploring.inside node ((exploring.seen node).mpr member)
  rw [← length_append]
  exact (exploring.once.subperm inside).length_le

/-- The queue runs empty, and the popped nodes are those that can be reached. -/
theorem Exploring.exists_closure {fuel turn : Nat}
    (exploring : Exploring follows space roots popped frontier) (offers : Offers follows offered)
    (within : ∀ first other, follows first other → other ∈ space)
    (enough : space.length ≤ fuel + popped.length) :
    ∃ closure, breadthFirst offered fuel turn frontier = some closure ∧
      (popped ++ closure).Nodup ∧
        ∀ node, node ∈ popped ++ closure ↔
          ∃ root ∈ roots, Relation.ReflTransGen follows root node := by
  obtain ⟨seen, queue⟩ := frontier
  induction fuel generalizing turn popped seen queue with
  | zero =>
    cases queue with
    | nil =>
      refine ⟨[], by rw [breadthFirst], exploring.once, fun node => ?_⟩
      rw [append_nil]
      exact exploring.mem_popped_iff
    | cons node queue =>
      have room := exploring.room
      rw [length_cons] at room
      omega
  | succ fuel ih =>
    cases queue with
    | nil =>
      refine ⟨[], by rw [breadthFirst], exploring.once, fun node => ?_⟩
      rw [append_nil]
      exact exploring.mem_popped_iff
    | cons node queue =>
      have next := exploring.turn offers within turn
      have fewer : space.length ≤ fuel + (popped ++ [node]).length := by
        rw [length_append, length_singleton]
        omega
      obtain ⟨closure, found, once, members⟩ := @ih (popped ++ [node]) (turn + 1) fewer _ _ next
      refine ⟨node :: closure, by rw [breadthFirst, found]; rfl, ?_, fun other => ?_⟩
      · simpa using once
      · rw [← members other]
        simp

/-- The roots are pushed first. -/
theorem exploring_start (roots : List Node) (inside : ∀ root ∈ roots, root ∈ space) :
    Exploring follows space roots [] (roots.foldl Frontier.push {}) := by
  obtain ⟨fresh, queue, seen, once, members⟩ := foldl_push roots {}
  rw [nil_append] at queue
  have all (node : Node) : node ∈ (roots.foldl Frontier.push {}).seen ↔ node ∈ roots := by
    rw [seen]
    simp
  refine ⟨?_, fun node => ?_, fun node member => inside node ((all node).mp member),
    fun node member => ⟨node, (all node).mp member, .refl⟩, fun root => (all root).mpr, ?_⟩
  · rw [nil_append, queue]
    exact once
  · rw [all, nil_append, queue, members]
    simp
  · intro node member
    cases member

end Search
