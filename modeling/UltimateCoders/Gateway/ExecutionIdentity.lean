import UltimateCoders.Gateway.Dispatch

/-! # Identities of executions

An attempt is stored under its graph, its node and its number, joined by `:`, and the stream
recognises duplicates by a hash of the same text. Ids may have the separator in them, so a node
can take over the end of another graph's id.
-/

namespace UltimateCoders.Gateway

structure Execution where
  graphId : String
  nodeId : String
  attempt : Int
  deriving DecidableEq

namespace Execution

variable {sha256Hex : String → String} {first second : Execution}

def attemptId (execution : Execution) : String :=
  Graph.attemptId execution.graphId execution.nodeId execution.attempt

/-- The key of the envelope that is made for a dispatch. -/
def idempotencyKey (sha256Hex : String → String) (execution : Execution) : String :=
  deriveIdempotencyKey sha256Hex execution.graphId execution.nodeId (toString execution.attempt)

/-- The graph of the second has the beginning of the first's node at its end. -/
def Shifted (first second : Execution) : Prop :=
  first.attempt = second.attempt ∧ ∃ moved,
    second.graphId = first.graphId ++ ":" ++ moved ∧ first.nodeId = moved ++ ":" ++ second.nodeId

theorem Shifted.scope (shifted : Shifted first second) :
    first.graphId ++ ":" ++ first.nodeId = second.graphId ++ ":" ++ second.nodeId := by
  obtain ⟨-, moved, graph, node⟩ := shifted
  simp only [graph, node, String.append_assoc]

theorem Shifted.attemptId_eq (shifted : Shifted first second) :
    first.attemptId = second.attemptId := by
  rw [attemptId, attemptId, Graph.attemptId, Graph.attemptId, shifted.scope, shifted.1]

theorem Shifted.ne (shifted : Shifted first second) : first ≠ second := by
  obtain ⟨-, moved, graph, -⟩ := shifted
  intro same
  have lengths := congrArg String.length graph
  rw [same, String.length_append, String.length_append] at lengths
  have separator : ":".length = 1 := rfl
  omega

private theorem toList_joined (before after : String) :
    (before ++ ":" ++ after).toList = before.toList ++ ':' :: after.toList := by
  rw [String.toList_append, String.toList_append, List.append_assoc]
  rfl

theorem eq_or_shifted {between : List Char} (attempts : first.attempt = second.attempt)
    (graph : second.graphId.toList = first.graphId.toList ++ between)
    (node : ':' :: first.nodeId.toList = between ++ ':' :: second.nodeId.toList) :
    first = second ∨ Shifted first second := by
  cases between with
  | nil =>
    left
    cases first
    cases second
    simp_all [String.toList_inj]
  | cons separator moved =>
    obtain ⟨rfl, tail⟩ := List.cons.inj node
    refine .inr ⟨attempts, String.ofList moved, ?_, ?_⟩
    · rw [← String.toList_inj, toList_joined, String.toList_ofList, graph]
    · rw [← String.toList_inj, toList_joined, String.toList_ofList]
      exact tail

theorem attemptId_eq_iff : first.attemptId = second.attemptId ↔
    first = second ∨ Shifted first second ∨ Shifted second first := by
  constructor
  · intro same
    have scope := Graph.scope_eq_of_attemptId_eq same
    have attempts : first.attempt = second.attempt := by
      apply Graph.toString_injective
      rwa [attemptId, attemptId, Graph.attemptId, Graph.attemptId, scope,
        String.append_right_inj] at same
    have chars := congrArg String.toList scope
    rw [toList_joined, toList_joined] at chars
    rcases List.append_eq_append_iff.mp chars with ⟨between, graph, node⟩ | ⟨between, graph, node⟩
    · rcases eq_or_shifted attempts graph node with same | shifted
      · exact .inl same
      · exact .inr (.inl shifted)
    · rcases eq_or_shifted attempts.symm graph node with same | shifted
      · exact .inl same.symm
      · exact .inr (.inr shifted)
  · rintro (rfl | shifted | shifted)
    · rfl
    · exact shifted.attemptId_eq
    · exact shifted.attemptId_eq.symm

/-- The hash, as far as keys keep it, tells the texts of two executions apart. -/
def HashApart (sha256Hex : String → String) (first second : Execution) : Prop :=
  (sha256Hex first.attemptId).toList.take 32 = (sha256Hex second.attemptId).toList.take 32 →
    first.attemptId = second.attemptId

theorem idempotencyKey_eq_iff (apart : HashApart sha256Hex first second) :
    first.idempotencyKey sha256Hex = second.idempotencyKey sha256Hex ↔
      first.attemptId = second.attemptId := by
  constructor
  · exact fun same => apart (String.ofList_injective same)
  · intro same
    change String.ofList ((sha256Hex first.attemptId).toList.take 32) =
      String.ofList ((sha256Hex second.attemptId).toList.take 32)
    rw [same]

/-- The identities tell two executions apart exactly if no part of an id can be moved over. -/
theorem identities_injective_iff (apart : HashApart sha256Hex first second) :
    ((first.attemptId = second.attemptId → first = second) ↔
      ¬Shifted first second ∧ ¬Shifted second first) ∧
    ((first.idempotencyKey sha256Hex = second.idempotencyKey sha256Hex → first = second) ↔
      ¬Shifted first second ∧ ¬Shifted second first) := by
  have ids : (first.attemptId = second.attemptId → first = second) ↔
      ¬Shifted first second ∧ ¬Shifted second first := by
    rw [attemptId_eq_iff]
    constructor
    · exact fun injective => ⟨fun shifted => shifted.ne (injective (.inr (.inl shifted))),
        fun shifted => shifted.ne (injective (.inr (.inr shifted))).symm⟩
    · rintro ⟨unshifted, unshiftedBack⟩ (same | shifted | shifted)
      · exact same
      · exact (unshifted shifted).elim
      · exact (unshiftedBack shifted).elim
  rw [idempotencyKey_eq_iff apart]
  exact ⟨ids, ids⟩

/-- The SHA-256 digests of two texts. -/
def sampleDigest (text : String) : String :=
  if text = "g-1:n-1:0" then
    "394e2a22ec4c60361079d90a62b8a9b75a96e8f9ecd6768580cd0a894f16fb03"
  else if text = "g-1:n-2:0" then
    "4a4f75923224a13aeeca196b284c7e99c5592be4141c4880ae247eb7897b99ec"
  else ""

theorem identities_injective_iff_sample :
    (attemptId ⟨"g-1", "n-1", 0⟩ = attemptId ⟨"g-1", "n-2", 0⟩ →
        Execution.mk "g-1" "n-1" 0 = ⟨"g-1", "n-2", 0⟩) ↔
      ¬Shifted ⟨"g-1", "n-1", 0⟩ ⟨"g-1", "n-2", 0⟩ ∧ ¬Shifted ⟨"g-1", "n-2", 0⟩ ⟨"g-1", "n-1", 0⟩ :=
  (@identities_injective_iff sampleDigest _ _ (by
    intro same
    exact absurd same (by decide +kernel))).1

/-- A colon may be in the id of the graph or in that of the node. -/
theorem identities_not_injective : ¬ ∀ first second : Execution,
    (first.attemptId = second.attemptId → first = second) ∧
    ∀ sha256Hex, HashApart sha256Hex first second →
      first.idempotencyKey sha256Hex = second.idempotencyKey sha256Hex → first = second := by
  intro injective
  have same := (injective ⟨"a:b", "c", 0⟩ ⟨"a", "b:c", 0⟩).1 (by decide +kernel)
  exact absurd same (by decide)

end Execution

end UltimateCoders.Gateway
