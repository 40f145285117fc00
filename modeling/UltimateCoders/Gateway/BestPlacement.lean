import Mathlib.Algebra.Order.Field.Rat
import Mathlib.Data.List.Nodup
import UltimateCoders.Gateway.Placement

/-! # The best placement

The candidates come out of a hash map, and the place is the first least one. It does not depend on
the order of the map because the comparison is a strict total order on the candidates that the
policy admits, though not on all of them: loads are compared as fractions by multiplying crosswise.
-/

namespace UltimateCoders.Gateway

open List

section Least

universe u

variable {Item : Type u}

/-- A comparison orders the entries of a list strictly and totally. -/
structure StrictlyOrders (order : Item → Item → Ordering) (items : List Item) : Prop where
  swapped : ∀ first ∈ items, ∀ second ∈ items, order second first = (order first second).swap
  trans : ∀ first ∈ items, ∀ second ∈ items, ∀ third ∈ items,
    order first second = .lt → order second third = .lt → order first third = .lt
  distinguishes : ∀ first ∈ items, ∀ second ∈ items, order first second = .eq → first = second

/-- An entry that comes before all others. -/
def LeastOf (order : Item → Item → Ordering) (items : List Item) (best : Item) : Prop :=
  best ∈ items ∧ ∀ other ∈ items, other ≠ best → order best other = .lt

variable {order : Item → Item → Ordering} {items others : List Item} {best : Item}

theorem StrictlyOrders.of_subset (strict : StrictlyOrders order items)
    (subset : ∀ item ∈ others, item ∈ items) : StrictlyOrders order others where
  swapped first firstMem second secondMem :=
    strict.swapped first (subset first firstMem) second (subset second secondMem)
  trans first firstMem second secondMem third thirdMem :=
    strict.trans first (subset first firstMem) second (subset second secondMem) third
      (subset third thirdMem)
  distinguishes first firstMem second secondMem :=
    strict.distinguishes first (subset first firstMem) second (subset second secondMem)

theorem StrictlyOrders.irrefl (strict : StrictlyOrders order items) {item : Item}
    (member : item ∈ items) : order item item ≠ .lt := by
  intro less
  have swapped := strict.swapped item member item member
  rw [less] at swapped
  cases swapped

theorem StrictlyOrders.least_unique (strict : StrictlyOrders order items) {again : Item}
    (least : LeastOf order items best) (least' : LeastOf order items again) : best = again := by
  by_contra different
  have before := least.2 again least'.1 (Ne.symm different)
  have after := least'.2 best least.1 different
  exact strict.irrefl least.1 (strict.trans best least.1 again least'.1 best least.1 before after)

theorem StrictlyOrders.least_concat (strict : StrictlyOrders order (items ++ [best]))
    {first : Item} (least : LeastOf order items first) :
    LeastOf order (items ++ [best]) (if order first best = .gt then best else first) := by
  have firstMem : first ∈ items ++ [best] := mem_append_left _ least.1
  have bestMem : best ∈ items ++ [best] := mem_append_right _ mem_cons_self
  split
  case isTrue greater =>
    have less : order best first = .lt := by
      rw [strict.swapped first firstMem best bestMem, greater]
      rfl
    refine ⟨bestMem, fun other member different => ?_⟩
    rcases mem_append.1 member with seen | last
    · by_cases same : other = first
      · rw [same]
        exact less
      · exact strict.trans best bestMem first firstMem other member less (least.2 other seen same)
    · exact absurd (mem_singleton.1 last) different
  case isFalse kept =>
    refine ⟨firstMem, fun other member different => ?_⟩
    rcases mem_append.1 member with seen | last
    · exact least.2 other seen different
    · rw [mem_singleton.1 last] at different ⊢
      cases outcome : order first best with
      | lt => rfl
      | eq => exact absurd (strict.distinguishes first firstMem best bestMem outcome).symm different
      | gt => exact absurd outcome kept

theorem StrictlyOrders.leastOf_minBy (strict : StrictlyOrders order items)
    (found : minBy order items = some best) : LeastOf order items best := by
  have searched : ∀ (rest seen : List Item) (first : Item), LeastOf order seen first →
      StrictlyOrders order (seen ++ rest) →
        LeastOf order (seen ++ rest)
          (rest.foldl (fun best next => if order best next = .gt then next else best) first) := by
    intro rest
    induction rest with
    | nil =>
      intro seen first least _
      rwa [append_nil]
    | cons next rest ih =>
      intro seen first least strict
      rw [append_cons] at strict ⊢
      exact ih (seen ++ [next]) _ ((strict.of_subset fun item member =>
        mem_append_left _ member).least_concat least) strict
  cases items with
  | nil => cases found
  | cons first rest =>
    cases found
    refine searched rest [first] first ⟨mem_cons_self, fun other member different => ?_⟩ strict
    exact absurd (mem_singleton.1 member) different

theorem StrictlyOrders.minBy_perm (strict : StrictlyOrders order items)
    (same : items.Perm others) : minBy order others = minBy order items := by
  cases found : minBy order items with
  | none =>
    rw [minBy_eq_none] at found
    subst found
    rw [minBy_eq_none]
    exact same.symm.eq_nil
  | some best =>
    have least := strict.leastOf_minBy found
    have reordered : StrictlyOrders order others := strict.of_subset fun item => same.mem_iff.2
    cases again : minBy order others with
    | none =>
      rw [minBy_eq_none.1 again] at same
      rw [same.eq_nil] at least
      cases least.1
    | some other =>
      have least' := reordered.leastOf_minBy again
      rw [strict.least_unique least
        ⟨same.mem_iff.2 least'.1, fun item member => least'.2 item (same.mem_iff.1 member)⟩]

end Least

section Placements

variable {hostFromMetadata : String → Option String} {candidates others : List PlacementCandidate}
  {fileConstraints siblingHosts : List String} {policy : PlacementPolicy}
  {first second : PlacementCandidate × Placement} {placement : Placement}

/-- The candidates that pass the filter, with their scores. -/
def scored (hostFromMetadata : String → Option String) (candidates : List PlacementCandidate)
    (fileConstraints siblingHosts : List String) (policy : PlacementPolicy) :
    List (PlacementCandidate × Placement) :=
  candidates.filterMap (score hostFromMetadata fileConstraints siblingHosts policy)

theorem mem_scored : first ∈ scored hostFromMetadata candidates fileConstraints siblingHosts policy ↔
    first.1 ∈ candidates ∧
      score hostFromMetadata fileConstraints siblingHosts policy first.1 = some first := by
  constructor
  · intro member
    obtain ⟨candidate, listed, found⟩ := mem_filterMap.1 member
    have same : candidate = first.1 := by
      unfold score at found
      dsimp only at found
      split_ifs at found
      cases found
      rfl
    rw [← same]
    exact ⟨listed, found⟩
  · rintro ⟨listed, found⟩
    exact mem_filterMap.2 ⟨first.1, listed, found⟩

theorem workerId_of_mem_scored
    (member : first ∈ scored hostFromMetadata candidates fileConstraints siblingHosts policy) :
    first.2.workerId = first.1.workerId := by
  obtain ⟨-, found⟩ := mem_scored.1 member
  unfold score at found
  dsimp only at found
  split_ifs at found
  rw [← Option.some.inj found]

theorem capacity_pos_of_mem_scored
    (member : first ∈ scored hostFromMetadata candidates fileConstraints siblingHosts .capacity) :
    0 < first.1.maxCapacity.toNat := by
  obtain ⟨-, found⟩ := mem_scored.1 member
  have admitted : Admits fileConstraints .capacity first.1 := by
    by_contra refused
    rw [score_eq_none.2 refused] at found
    cases found
  have room := UInt32.lt_iff_toNat_lt.1 admitted.2
  omega

/-- The load of a worker as a fraction of its capacity. -/
def loadFraction (candidate : PlacementCandidate) : ℚ :=
  candidate.currentLoad.toNat / candidate.maxCapacity.toNat

theorem compare_crosswise {one other : PlacementCandidate} (room : 0 < one.maxCapacity.toNat)
    (otherRoom : 0 < other.maxCapacity.toNat) :
    compare (one.currentLoad.toNat * other.maxCapacity.toNat)
        (other.currentLoad.toNat * one.maxCapacity.toNat) =
      compare (loadFraction one) (loadFraction other) := by
  have less : loadFraction one < loadFraction other ↔
      one.currentLoad.toNat * other.maxCapacity.toNat <
        other.currentLoad.toNat * one.maxCapacity.toNat := by
    rw [loadFraction, loadFraction, div_lt_div_iff₀ (by exact_mod_cast room)
      (by exact_mod_cast otherRoom)]
    exact_mod_cast Iff.rfl
  have greater : loadFraction other < loadFraction one ↔
      other.currentLoad.toNat * one.maxCapacity.toNat <
        one.currentLoad.toNat * other.maxCapacity.toNat := by
    rw [loadFraction, loadFraction, div_lt_div_iff₀ (by exact_mod_cast otherRoom)
      (by exact_mod_cast room)]
    exact_mod_cast Iff.rfl
  rcases lt_trichotomy (loadFraction one) (loadFraction other) with before | same | after
  · rw [compare_lt_iff_lt.2 before, compare_lt_iff_lt.2 (less.1 before)]
  · rw [compare_eq_iff_eq.2 same, compare_eq_iff_eq]
    have notLess := less.not.1 same.not_lt
    have notGreater := greater.not.1 same.symm.not_lt
    omega
  · rw [compare_gt_iff_gt.2 after, compare_gt_iff_gt.2 (greater.1 after)]

/-- The comparison as one of keys: the load comes first or second, and as a fraction or as whole
percents. -/
def compareKeys (policy : PlacementPolicy) :
    PlacementCandidate × Placement → PlacementCandidate × Placement → Ordering :=
  let files := fun first second : PlacementCandidate × Placement =>
    compareOn (fun entry => entry.2.affinityHits) second first
  let near := fun first second : PlacementCandidate × Placement =>
    compareOn (fun entry => entry.2.sameHost) second first
  let id := compareOn fun entry : PlacementCandidate × Placement => entry.2.workerId
  match policy with
  | .capacity =>
    compareLex (compareLex (compareLex (compareOn fun entry => loadFraction entry.1) files) near) id
  | .affinity =>
    compareLex (compareLex (compareLex files (compareOn fun entry => entry.2.loadPercent)) near) id

instance (policy : PlacementPolicy) : Std.TransCmp (compareKeys policy) := by
  unfold compareKeys
  cases policy <;> infer_instance

theorem comparePlacements_eq
    (member : first ∈ scored hostFromMetadata candidates fileConstraints siblingHosts policy)
    (other : second ∈ scored hostFromMetadata candidates fileConstraints siblingHosts policy) :
    comparePlacements policy first second = compareKeys policy first second := by
  cases policy with
  | affinity => rfl
  | capacity =>
    have fractions := compare_crosswise (capacity_pos_of_mem_scored member)
      (capacity_pos_of_mem_scored other)
    simp only [comparePlacements, fractions]
    rfl

theorem workerId_of_compareKeys (equal : compareKeys policy first second = .eq) :
    first.2.workerId = second.2.workerId := by
  cases policy with
  | affinity | capacity =>
    simp only [compareKeys, compareLex, Ordering.then_eq_eq] at equal
    exact compare_eq_iff_eq.1 equal.2

theorem strictlyOrders_scored (distinct : (candidates.map PlacementCandidate.workerId).Nodup) :
    StrictlyOrders (comparePlacements policy)
      (scored hostFromMetadata candidates fileConstraints siblingHosts policy) where
  swapped first firstMem second secondMem := by
    rw [comparePlacements_eq firstMem secondMem, comparePlacements_eq secondMem firstMem]
    exact Std.OrientedCmp.eq_swap
  trans first firstMem second secondMem third thirdMem before after := by
    rw [comparePlacements_eq firstMem secondMem] at before
    rw [comparePlacements_eq secondMem thirdMem] at after
    rw [comparePlacements_eq firstMem thirdMem]
    exact Std.TransCmp.lt_trans before after
  distinguishes first firstMem second secondMem equal := by
    rw [comparePlacements_eq firstMem secondMem] at equal
    have ids := workerId_of_compareKeys equal
    rw [workerId_of_mem_scored firstMem, workerId_of_mem_scored secondMem] at ids
    obtain ⟨listed, found⟩ := mem_scored.1 firstMem
    obtain ⟨otherListed, otherFound⟩ := mem_scored.1 secondMem
    rw [inj_on_of_nodup_map distinct listed otherListed ids, otherFound] at found
    exact (Option.some.inj found).symm

/-- **The best placement.** Where workers differ by their ids, the comparison is a strict total order
on those that the policy admits, the place is the least of them, none exactly if there is none, and
it is the same for every order of the candidates; no product passes the bound of 64 bits. -/
theorem placeWithPolicy_least (hostFromMetadata : String → Option String)
    (candidates : List PlacementCandidate) (fileConstraints siblingHosts : List String)
    (policy : PlacementPolicy)
    (distinct : (candidates.map PlacementCandidate.workerId).Nodup) :
    StrictlyOrders (comparePlacements policy)
        (scored hostFromMetadata candidates fileConstraints siblingHosts policy) ∧
      (placeWithPolicy hostFromMetadata candidates fileConstraints siblingHosts policy = none ↔
        ∀ candidate ∈ candidates, ¬ Admits fileConstraints policy candidate) ∧
      (∀ placement,
        placeWithPolicy hostFromMetadata candidates fileConstraints siblingHosts policy =
            some placement ↔
          ∃ best, best.2 = placement ∧ LeastOf (comparePlacements policy)
            (scored hostFromMetadata candidates fileConstraints siblingHosts policy) best) ∧
      (∀ others : List PlacementCandidate, candidates.Perm others →
        placeWithPolicy hostFromMetadata others fileConstraints siblingHosts policy =
          placeWithPolicy hostFromMetadata candidates fileConstraints siblingHosts policy) ∧
      ∀ first second : PlacementCandidate,
        first.currentLoad.toNat * second.maxCapacity.toNat < 2 ^ 64 ∧
          first.currentLoad.toNat * 100 < 2 ^ 64 := by
  have strict : StrictlyOrders (comparePlacements policy)
      (scored hostFromMetadata candidates fileConstraints siblingHosts policy) :=
    strictlyOrders_scored distinct
  refine ⟨strict, ?_, fun placement => ?_, fun others same => ?_, fun first second => ⟨?_, ?_⟩⟩
  · rw [← not_iff_not, ← ne_eq, ← Option.isSome_iff_ne_none, placeWithPolicy_isSome]
    simp only [not_forall, not_not, exists_prop]
  · rw [placeWithPolicy, Option.map_eq_some_iff]
    constructor
    · rintro ⟨best, found, rfl⟩
      exact ⟨best, rfl, strict.leastOf_minBy found⟩
    · rintro ⟨best, rfl, least⟩
      cases found : minBy (comparePlacements policy)
          (scored hostFromMetadata candidates fileConstraints siblingHosts policy) with
      | none =>
        rw [minBy_eq_none] at found
        rw [found] at least
        cases least.1
      | some other =>
        exact ⟨other, found, by rw [strict.least_unique (strict.leastOf_minBy found) least]⟩
  · rw [placeWithPolicy, placeWithPolicy]
    exact congrArg (Option.map Prod.snd) (strict.minBy_perm (same.filterMap _))
  · have load := first.currentLoad.toNat_lt
    have capacity := second.maxCapacity.toNat_lt
    calc first.currentLoad.toNat * second.maxCapacity.toNat
        ≤ (2 ^ 32 - 1) * (2 ^ 32 - 1) := Nat.mul_le_mul (by omega) (by omega)
      _ < 2 ^ 64 := by decide
  · have load := first.currentLoad.toNat_lt
    omega

/-- Two idle workers and one that knows the file. -/
def sampleCandidates : List PlacementCandidate :=
  [⟨"w1", "", [], 0, 4⟩, ⟨"w2", "", ["src/a.rs"], 3, 4⟩, ⟨"w3", "", [], 0, 8⟩]

theorem placeWithPolicy_least_sample :
    placeWithPolicy (fun _ => none) sampleCandidates.reverse ["./src/a.rs"] [] .capacity =
      placeWithPolicy (fun _ => none) sampleCandidates ["./src/a.rs"] [] .capacity :=
  (placeWithPolicy_least (fun _ => none) sampleCandidates ["./src/a.rs"] [] .capacity
    (by decide)).2.2.2.1 _ sampleCandidates.reverse_perm.symm

end Placements

end UltimateCoders.Gateway
