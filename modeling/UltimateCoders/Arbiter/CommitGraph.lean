import Mathlib.Logic.Relation
import Mathlib.Data.List.Basic

/-! # Commit graphs

A commit names its parents once and for all, so the graph does not change while commands run: they
only move references in it. What a commit includes is found by following parents, and every commit
has a depth that bounds the search.
-/

namespace UltimateCoders.Arbiter

universe u

/-- The parents of every commit, and how far a commit is from the roots at most. -/
structure CommitGraph (Commit : Type u) where
  parents : Commit → List Commit
  depth : Commit → Nat
  depth_lt : ∀ child parent, parent ∈ parents child → depth parent < depth child

namespace CommitGraph

variable {Commit : Type u} (graph : CommitGraph Commit)

/-- The older commit is the newer one or one that it was made from. -/
def Includes (newer older : Commit) : Prop :=
  Relation.ReflTransGen (fun child parent => parent ∈ graph.parents child) newer older

variable {graph} {first second third : Commit}

theorem Includes.refl (commit : Commit) : graph.Includes commit commit :=
  Relation.ReflTransGen.refl

theorem Includes.trans (newer : graph.Includes first second) (older : graph.Includes second third) :
    graph.Includes first third :=
  Relation.ReflTransGen.trans newer older

theorem Includes.of_parent (parent : second ∈ graph.parents first) : graph.Includes first second :=
  Relation.ReflTransGen.single parent

theorem includes_iff : graph.Includes first second ↔
    second = first ∨ ∃ parent ∈ graph.parents first, graph.Includes parent second := by
  refine ⟨fun included => ?_, ?_⟩
  · rcases Relation.ReflTransGen.cases_head included with same | ⟨parent, made, rest⟩
    · exact .inl same.symm
    · exact .inr ⟨parent, made, rest⟩
  · rintro (rfl | ⟨parent, made, rest⟩)
    · exact .refl _
    · exact (Includes.of_parent made).trans rest

variable (graph)

/-- The commits that are found in so many steps. -/
def ancestorsWithin : Nat → Commit → List Commit
  | 0, commit => [commit]
  | steps + 1, commit => commit :: (graph.parents commit).flatMap (ancestorsWithin steps)

def ancestors (commit : Commit) : List Commit :=
  graph.ancestorsWithin (graph.depth commit) commit

variable {graph}

theorem mem_ancestorsWithin {steps : Nat} {newer older : Commit}
    (deep : graph.depth newer ≤ steps) :
    older ∈ graph.ancestorsWithin steps newer ↔ graph.Includes newer older := by
  induction steps generalizing newer with
  | zero =>
    rw [includes_iff, ancestorsWithin, List.mem_singleton]
    refine ⟨.inl, fun included => included.resolve_right ?_⟩
    rintro ⟨parent, made, -⟩
    have lower := graph.depth_lt newer parent made
    omega
  | succ steps ih =>
    rw [includes_iff, ancestorsWithin, List.mem_cons, List.mem_flatMap]
    refine or_congr_right (exists_congr fun parent => and_congr_right fun made => ih ?_)
    have lower := graph.depth_lt newer parent made
    omega

theorem mem_ancestors {newer older : Commit} :
    older ∈ graph.ancestors newer ↔ graph.Includes newer older :=
  mem_ancestorsWithin (Nat.le_refl _)

instance [DecidableEq Commit] (newer older : Commit) : Decidable (graph.Includes newer older) :=
  decidable_of_iff _ mem_ancestors

end CommitGraph

end UltimateCoders.Arbiter
