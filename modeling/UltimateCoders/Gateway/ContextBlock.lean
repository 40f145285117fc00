import UltimateCoders.Search.Packing
import UltimateCoders.Text.Json
import Mathlib.Data.List.Sort
import Mathlib.Data.String.Basic

/-! # The context of a dispatched subtask

A subtask is sent with what its dependencies have committed. The entries are put in the
order of their node ids and packed as long as the serialized block keeps below a limit.
-/

namespace UltimateCoders.Gateway

open Search Text List

def contextBlockMaxBytes : Nat := 8 * 1024

/-- What a dependency has committed. -/
structure ContextEntry where
  nodeId : String
  success : Bool
  summary : String
  deriving DecidableEq

structure ContextBlock where
  entries : List ContextEntry
  truncated : Bool
  deriving DecidableEq

def ContextEntry.toJson (entry : ContextEntry) : String :=
  jsonObject [("node_id", jsonString entry.nodeId), ("success", jsonBool entry.success),
    ("summary", jsonString entry.summary)]

namespace ContextBlock

variable (entries : List ContextEntry) (block : ContextBlock)

def toJson : String :=
  jsonObject [("entries", jsonArray (block.entries.map ContextEntry.toJson)),
    ("truncated", jsonBool block.truncated)]

/-- The number of bytes of the serialized block. -/
def size : Nat := block.toJson.utf8ByteSize

/-- Add entries to a block as long as it keeps below the limit. -/
def fill (block : ContextBlock) : List ContextEntry → ContextBlock
  | [] => block
  | entry :: rest =>
    let probe : ContextBlock := { entries := block.entries ++ [entry], truncated := false }
    if probe.size > contextBlockMaxBytes then { block with truncated := true }
    else fill { block with entries := probe.entries } rest

def sortEntries (entries : List ContextEntry) : List ContextEntry :=
  entries.mergeSort fun first second => first.nodeId ≤ second.nodeId

/-- The block that is sent with a subtask, none if there is nothing to say. -/
def compose (entries : List ContextEntry) : Option ContextBlock :=
  if entries = [] then none
  else some (fill { entries := [], truncated := false } (sortEntries entries))

/-- The block of these entries is below the limit. -/
def fitsBudget (entries : List ContextEntry) : Bool :=
  size { entries := entries, truncated := false } ≤ contextBlockMaxBytes

theorem size_eq : block.size = ("\x7b" ++ jsonString "entries" ++ ":").utf8ByteSize +
      (jsonArray (block.entries.map ContextEntry.toJson)).utf8ByteSize +
      ("," ++ jsonString "truncated" ++ ":" ++ "\x7d").utf8ByteSize +
      (jsonBool block.truncated).utf8ByteSize := by
  simp only [size, toJson, jsonObject, map_cons, map_nil, String.intercalate_cons_cons,
    String.intercalate_singleton, String.utf8ByteSize_append]
  omega

theorem size_concat_le (entry : ContextEntry) (truncated : Bool) :
    size ⟨entries, truncated⟩ ≤ size ⟨entries ++ [entry], truncated⟩ := by
  have longer := utf8ByteSize_jsonArray_concat_le (entries.map ContextEntry.toJson) entry.toJson
  simp only [size_eq, map_append, map_cons, map_nil]
  omega

theorem size_truncated_le (truncated : Bool) :
    size ⟨entries, truncated⟩ ≤ size ⟨entries, false⟩ := by
  have shorter := utf8ByteSize_jsonBool_true_lt
  cases truncated <;> simp only [size_eq]
  · exact le_rfl
  · omega

theorem fitsShorter_fitsBudget : FitsShorter fitsBudget := by
  intro kept entry fitting
  simp only [fitsBudget, decide_eq_true_eq] at fitting ⊢
  exact (size_concat_le kept entry false).trans fitting

theorem fitsBudget_nil : fitsBudget [] = true := by
  decide +kernel

theorem fill_eq_pack (kept : List ContextEntry) : fill ⟨kept, false⟩ entries =
      ⟨(pack fitsBudget kept entries).1, (pack fitsBudget kept entries).2⟩ := by
  induction entries generalizing kept with
  | nil => rfl
  | cons entry rest ih =>
    unfold fill pack
    by_cases full : size ⟨kept ++ [entry], false⟩ > contextBlockMaxBytes
    · rw [if_pos full, if_neg (by simpa [fitsBudget] using full)]
    · rw [if_neg full, if_pos (by simpa [fitsBudget] using full)]
      exact ih _

theorem sortEntries_perm : (sortEntries entries).Perm entries :=
  mergeSort_perm entries _

theorem pairwise_sortEntries :
    (sortEntries entries).Pairwise fun first second => first.nodeId ≤ second.nodeId := by
  have sorted := @pairwise_mergeSort _ (fun first second : ContextEntry =>
    decide (first.nodeId ≤ second.nodeId)) (by simpa using fun a b c => le_trans)
    (by simpa using fun a b => le_total _ _) entries
  simpa [sortEntries] using sorted

theorem sortEntries_eq_of_perm {entries others : List ContextEntry}
    (distinct : (entries.map ContextEntry.nodeId).Nodup) (same : others.Perm entries) :
    sortEntries others = sortEntries entries := by
  refine Perm.eq_of_pairwise ?_ (pairwise_sortEntries others) (pairwise_sortEntries entries)
    ((sortEntries_perm others).trans (same.trans (sortEntries_perm entries).symm))
  intro first second memberFirst memberSecond below above
  refine inj_on_of_nodup_map distinct ?_ ?_ (le_antisymm below above)
  · exact same.mem_iff.mp ((sortEntries_perm others).mem_iff.mp memberFirst)
  · exact (sortEntries_perm entries).mem_iff.mp memberSecond

theorem packed_compose {entries : List ContextEntry} {block : ContextBlock}
    (composed : compose entries = some block) :
    Packed fitsBudget (sortEntries entries) block.entries block.truncated := by
  rw [compose] at composed
  split_ifs at composed
  rw [Option.some.injEq, fill_eq_pack] at composed
  rw [← composed]
  exact packed_pack fitsShorter_fitsBudget (sortEntries entries) fitsBudget_nil

theorem ne_iff_dropped {entries kept : List ContextEntry}
    (distinct : (entries.map ContextEntry.nodeId).Nodup) (front : kept <+: sortEntries entries) :
    kept ≠ sortEntries entries ↔ ∃ entry ∈ entries, entry ∉ kept := by
  have nodup : (sortEntries entries).Nodup :=
    (sortEntries_perm entries).nodup_iff.mpr (Nodup.of_map _ distinct)
  constructor
  · obtain ⟨rest, all⟩ := front
    intro shorter
    cases rest with
    | nil => exact absurd (by simpa using all) shorter
    | cons entry rest =>
      refine ⟨entry, (sortEntries_perm entries).mem_iff.mp (by simp [← all]), fun taken => ?_⟩
      rw [← all] at nodup
      exact (disjoint_of_nodup_append nodup) taken mem_cons_self
  · rintro ⟨entry, member, dropped⟩ same
    exact dropped (same ▸ (sortEntries_perm entries).mem_iff.mpr member)

/-- A block is composed of all entries, in the order of their nodes, that fit from the first on.
It keeps below the limit, says whether an entry is left out, and does not depend on the order
in which the entries come. -/
theorem compose_packs (distinct : (entries.map ContextEntry.nodeId).Nodup) :
    (compose entries = none ↔ entries = []) ∧
    (∀ block, compose entries = some block →
      (∃ sorted : List ContextEntry, sorted.Perm entries ∧
        sorted.Pairwise (fun first second => first.nodeId < second.nodeId) ∧
        block.entries <+: sorted ∧ size ⟨block.entries, false⟩ ≤ contextBlockMaxBytes ∧
        ∀ other, other <+: sorted → size ⟨other, false⟩ ≤ contextBlockMaxBytes →
          other <+: block.entries) ∧
      block.size ≤ contextBlockMaxBytes ∧
      (block.truncated = true ↔ ∃ entry ∈ entries, entry ∉ block.entries)) ∧
    ∀ others : List ContextEntry, others.Perm entries → compose others = compose entries := by
  refine ⟨by simp [compose], fun block composed => ?_, fun others same => ?_⟩
  · have packed := packed_compose composed
    have room : size ⟨block.entries, false⟩ ≤ contextBlockMaxBytes := of_decide_eq_true packed.room
    have strict : (sortEntries entries).Pairwise fun first second => first.nodeId < second.nodeId :=
      (pairwise_sortEntries entries).imp₂ (fun _ _ => lt_of_le_of_ne) (pairwise_map.mp
        (((sortEntries_perm entries).map ContextEntry.nodeId).nodup_iff.mpr distinct))
    refine ⟨⟨sortEntries entries, sortEntries_perm entries, strict, packed.front, room,
      fun other front fitting => packed.longest other front (decide_eq_true fitting)⟩,
      (size_truncated_le block.entries block.truncated).trans room, ?_⟩
    rw [packed.dropped_iff, ne_iff_dropped distinct packed.front]
  · have sorted := sortEntries_eq_of_perm distinct same
    simp only [compose, sorted, ← length_eq_zero_iff, same.length_eq]

/-- Two entries come in either order. -/
theorem compose_packs_pair :
    (compose [⟨"n-2", true, "second"⟩, ⟨"n-1", true, "first"⟩]).isSome = true ∧
      compose [⟨"n-1", true, "first"⟩, ⟨"n-2", true, "second"⟩] =
        compose [⟨"n-2", true, "second"⟩, ⟨"n-1", true, "first"⟩] :=
  ⟨rfl, (compose_packs [⟨"n-2", true, "second"⟩, ⟨"n-1", true, "first"⟩] (by decide)).2.2 _
    (Perm.swap _ _ _)⟩

end ContextBlock

end UltimateCoders.Gateway
