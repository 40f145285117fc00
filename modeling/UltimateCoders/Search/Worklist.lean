import Mathlib.Data.Finset.Card

/-! # Worklist search

A depth-first search with an explicit stack and a list of seen nodes. On a
finite space that is closed under successors it terminates, and it succeeds
exactly when a goal can be reached.
-/

namespace Search

open List

universe u

variable {Node : Type u} [DecidableEq Node] (goal : Node → Bool) (next : Node → List Node)

/-- Pop a node; skip it when it was seen, stop when it is a goal, else push its
successors that were not seen. `none` when the fuel runs out. -/
def worklist : Nat → List Node → List Node → Option Bool
  | _, _, [] => some false
  | 0, _, _ :: _ => none
  | fuel + 1, seen, node :: stack =>
    if node ∈ seen then worklist fuel seen stack
    else if goal node then some true
    else worklist fuel (node :: seen)
      ((next node).filter (fun successor => successor ∉ node :: seen) ++ stack)

/-- A node can be reached along successors. -/
def Reaches (start node : Node) : Prop :=
  Relation.ReflTransGen (fun first second => second ∈ next first) start node

/-- What was seen is no goal, and its successors were seen or are still on the
stack. -/
def Explored (seen stack : List Node) : Prop :=
  ∀ node ∈ seen, goal node = false ∧ ∀ successor ∈ next node, successor ∈ seen ∨ successor ∈ stack

variable {goal next} {start : Node} {fuel : Nat} {seen stack : List Node}

/-- Success means that a goal can be reached. -/
theorem exists_goal_of_worklist (reaches : ∀ node ∈ stack, Reaches next start node)
    (found : worklist goal next fuel seen stack = some true) :
    ∃ node, Reaches next start node ∧ goal node = true := by
  induction fuel generalizing seen stack with
  | zero =>
    cases stack with
    | nil | cons node rest => cases found
  | succ fuel ih =>
    cases stack with
    | nil => cases found
    | cons node rest =>
      have here := reaches node mem_cons_self
      have later := fun other member => reaches other (mem_cons_of_mem node member)
      unfold worklist at found
      split at found
      · exact ih later found
      · split at found
        · rename_i isGoal
          exact ⟨node, here, isGoal⟩
        · refine ih (fun other member => ?_) found
          rcases mem_append.mp member with pushed | old
          · exact here.tail (mem_filter.mp pushed).1
          · exact later other old

omit [DecidableEq Node] in
/-- Taking a seen node off the stack, or marking a node and pushing its unseen
successors, keeps everything explored. -/
theorem Explored.pop {node : Node} (explored : Explored goal next seen (node :: stack))
    (marked : node ∈ seen) : Explored goal next seen stack := by
  intro other member
  obtain ⟨noGoal, successors⟩ := explored other member
  refine ⟨noGoal, fun successor isNext => ?_⟩
  rcases successors successor isNext with old | pushed
  · exact .inl old
  · rcases mem_cons.mp pushed with rfl | rest
    · exact .inl marked
    · exact .inr rest

theorem Explored.mark {node : Node} (explored : Explored goal next seen (node :: stack))
    (noGoal : goal node = false) :
    Explored goal next (node :: seen)
      ((next node).filter (fun successor => successor ∉ node :: seen) ++ stack) := by
  intro other member
  rcases mem_cons.mp member with rfl | old
  · refine ⟨noGoal, fun successor isNext => ?_⟩
    by_cases was : successor ∈ other :: seen
    · exact .inl was
    · exact .inr (mem_append_left _ (mem_filter.mpr ⟨isNext, decide_eq_true was⟩))
  · obtain ⟨otherNoGoal, successors⟩ := explored other old
    refine ⟨otherNoGoal, fun successor isNext => ?_⟩
    rcases successors successor isNext with was | pushed
    · exact .inl (mem_cons_of_mem _ was)
    · rcases mem_cons.mp pushed with rfl | rest
      · exact .inl mem_cons_self
      · exact .inr (mem_append_right _ rest)

/-- Failure means that no goal can be reached. -/
theorem no_goal_of_worklist (explored : Explored goal next seen stack)
    (covered : start ∈ seen ∨ start ∈ stack)
    (failed : worklist goal next fuel seen stack = some false) {node : Node}
    (reached : Reaches next start node) : goal node = false := by
  induction fuel generalizing seen stack with
  | zero =>
    cases stack with
    | nil => exact closed explored (covered.resolve_right not_mem_nil) reached
    | cons top rest => cases failed
  | succ fuel ih =>
    cases stack with
    | nil => exact closed explored (covered.resolve_right not_mem_nil) reached
    | cons top rest =>
      unfold worklist at failed
      split at failed
      · rename_i marked
        refine ih (explored.pop marked) ?_ failed
        rcases covered with was | pushed
        · exact .inl was
        · rcases mem_cons.mp pushed with rfl | below
          · exact .inl marked
          · exact .inr below
      · split at failed
        · cases failed
        · rename_i noGoal
          refine ih (explored.mark (Bool.eq_false_iff.mpr noGoal)) ?_ failed
          rcases covered with was | pushed
          · exact .inl (mem_cons_of_mem _ was)
          · rcases mem_cons.mp pushed with rfl | below
            · exact .inl mem_cons_self
            · exact .inr (mem_append_right _ below)
where
  /-- With an empty stack, what was seen is closed under successors. -/
  closed {seen : List Node} (explored : Explored goal next seen []) (begun : start ∈ seen)
      {node : Node} (reached : Reaches next start node) : goal node = false := by
    have inSeen : node ∈ seen := by
      induction reached with
      | refl => exact begun
      | tail _ step ih => exact ((explored _ ih).2 _ step).resolve_right not_mem_nil
    exact (explored node inSeen).1

/-- On a finite space with bounded branching the fuel can be chosen up front. -/
theorem worklist_isSome {space : Finset Node} {degree : Nat}
    (closed : ∀ node ∈ space, ∀ successor ∈ next node, successor ∈ space)
    (bounded : ∀ node, (next node).length ≤ degree) (inside : ∀ node ∈ stack, node ∈ space)
    (enough : stack.length + degree * (space \ seen.toFinset).card ≤ fuel) :
    (worklist goal next fuel seen stack).isSome := by
  induction fuel generalizing seen stack with
  | zero =>
    cases stack with
    | nil => rfl
    | cons node rest =>
      rw [length_cons] at enough
      omega
  | succ fuel ih =>
    cases stack with
    | nil => rfl
    | cons node rest =>
      have here := inside node mem_cons_self
      have below := fun other member => inside other (mem_cons_of_mem node member)
      rw [length_cons] at enough
      unfold worklist
      split
      · exact ih below (by omega)
      · rename_i unseen
        split
        · rfl
        · refine ih (fun other member => ?_) ?_
          · rcases mem_append.mp member with pushed | old
            · exact closed node here other (mem_filter.mp pushed).1
            · exact below other old
          · have pushes : ((next node).filter fun successor =>
                successor ∉ node :: seen).length ≤ degree :=
              (length_filter_le _ _).trans (bounded node)
            have fewer : (space \ (node :: seen).toFinset).card + 1 =
                (space \ seen.toFinset).card := by
              rw [toFinset_cons, Finset.sdiff_insert]
              refine Finset.card_erase_add_one (Finset.mem_sdiff.mpr ⟨here, ?_⟩)
              rw [mem_toFinset]
              exact unseen
            rw [length_append]
            rw [← fewer, Nat.mul_add] at enough
            omega

/-- **Search is correct.** With enough fuel the search from a node succeeds
exactly when it reaches a goal. -/
theorem worklist_eq_some_true_iff {space : Finset Node} {degree : Nat} (begun : start ∈ space)
    (closed : ∀ node ∈ space, ∀ successor ∈ next node, successor ∈ space)
    (bounded : ∀ node, (next node).length ≤ degree) (enough : 1 + degree * space.card ≤ fuel) :
    worklist goal next fuel [] [start] = some true ↔
      ∃ node, Reaches next start node ∧ goal node = true := by
  constructor
  · intro found
    refine exists_goal_of_worklist (fun node member => ?_) found
    rw [mem_singleton.mp member]
    exact .refl
  · rintro ⟨node, reached, isGoal⟩
    have ends : (worklist goal next fuel [] [start]).isSome := by
      refine worklist_isSome closed bounded (fun other member => ?_) (by simpa using enough)
      rw [mem_singleton.mp member]
      exact begun
    obtain ⟨result, ran⟩ := Option.isSome_iff_exists.mp ends
    cases result with
    | true => exact ran
    | false =>
      have explored : Explored goal next [] [start] := fun _ member =>
        (not_mem_nil member).elim
      rw [no_goal_of_worklist explored (.inr mem_cons_self) ran reached] at isGoal
      cases isGoal

end Search
