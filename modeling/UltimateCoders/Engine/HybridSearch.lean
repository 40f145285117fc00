import Mathlib.Data.List.AList
import Mathlib.Data.List.Dedup
import Mathlib.Data.List.Sort
import Mathlib.Tactic.Linarith
import Mathlib.Tactic.Ring

/-! # Merging what several searches found

Items of one place are merged in the order in which they come: the score grows with every
one, the wider range and the first symbol are kept. Nothing is lost; but the score weighs
the first two items most, so it depends on the order of three or more that differ.
-/

namespace UltimateCoders.Engine

open List

inductive SearchMode where
  | text
  | semantic
  | ast
  | hybrid
  deriving DecidableEq

structure SearchResultItem where
  repoId : String
  filePath : String
  startLine : Nat
  endLine : Nat
  contentSnippet : String
  matchType : SearchMode
  score : ℚ
  symbolName : Option String
  symbolKind : Option String
  parentSymbol : Option String
  deriving DecidableEq

def SearchResultItem.key (item : SearchResultItem) : String × String × Nat :=
  (item.repoId, item.filePath, item.startLine)

/-- An item together with another one of its place. -/
def SearchResultItem.combine (existing item : SearchResultItem) : SearchResultItem :=
  let scored := { existing with score := (existing.score + item.score) * (6 / 5) }
  let enriched :=
    if item.symbolName.isSome && existing.symbolName.isNone then
      { scored with
        symbolName := item.symbolName
        symbolKind := item.symbolKind
        parentSymbol := item.parentSymbol }
    else scored
  let widened := if item.endLine > existing.endLine then { enriched with endLine := item.endLine }
    else enriched
  if existing.matchType ≠ item.matchType then { widened with matchType := .hybrid } else widened

abbrev MergedItems := AList fun _ : String × String × Nat => SearchResultItem

def mergeItem (merged : MergedItems) (item : SearchResultItem) : MergedItems :=
  match merged.lookup item.key with
  | some existing => merged.insert item.key (existing.combine item)
  | none => merged.insert item.key item

/-- The merged items, the best first. The order in which a map yields its values is arbitrary. -/
def mergeResults (arrange : List SearchResultItem → List SearchResultItem)
    (items : List SearchResultItem) (maxResults : Nat) : List SearchResultItem :=
  let merged := items.foldl mergeItem ∅
  let values := arrange (merged.entries.map Sigma.snd)
  (values.mergeSort fun first second => second.score ≤ first.score).take maxResults

section Boost

universe u

variable {Item : Type u} {value : Item → ℚ} {items : List Item}

/-- The sum of the values, raised by a fifth with each one after the first. -/
def boosted (value : Item → ℚ) : List Item → ℚ
  | [] => 0
  | first :: rest => rest.foldl (fun total item => (total + value item) * (6 / 5)) (value first)

theorem boosted_concat (some_ : items ≠ []) (item : Item) :
    boosted value (items ++ [item]) = (boosted value items + value item) * (6 / 5) := by
  obtain ⟨first, rest, rfl⟩ := exists_cons_of_ne_nil some_
  simp only [boosted, cons_append, foldl_append, foldl_cons, foldl_nil]

theorem foldl_boost_injective (rest : List Item) :
    Function.Injective fun total : ℚ =>
      rest.foldl (fun total item => (total + value item) * (6 / 5)) total := by
  induction rest with
  | nil => exact fun _ _ same => same
  | cons item rest ih =>
    intro first second same
    have next := ih same
    linarith

theorem boosted_swap_ne {first second third : Item} {rest : List Item}
    (differ : value second ≠ value third) :
    boosted value (first :: second :: third :: rest) ≠
      boosted value (first :: third :: second :: rest) := by
  intro same
  have totals := foldl_boost_injective rest same
  apply differ
  linarith

theorem boosted_eq_of_length_two (first second : Item) :
    boosted value [first, second] = boosted value [second, first] := by
  simp only [boosted, foldl_cons, foldl_nil]
  ring

theorem perm_pair {first second : Item} {others : List Item} (perm : others.Perm [first, second]) :
    others = [first, second] ∨ others = [second, first] := by
  obtain ⟨head, tail, rfl⟩ := length_eq_two.mp perm.length_eq
  rcases mem_cons.mp (perm.mem_iff.mp mem_cons_self) with rfl | last
  · rw [perm_singleton.mp (perm_cons _ |>.mp perm)]
    exact .inl rfl
  · obtain rfl := mem_singleton.mp last
    rw [perm_singleton.mp (perm_cons _ |>.mp (perm.trans (Perm.swap _ _ [])))]
    exact .inr rfl

theorem boosted_eq_of_map_eq {others : List Item} (same : others.map value = items.map value) :
    boosted value others = boosted value items := by
  have mapped : ∀ list : List Item, boosted value list = boosted id (list.map value) := by
    intro list
    cases list <;> simp [boosted, foldl_map]
  rw [mapped, mapped, same]

theorem map_eq_of_perm_of_const {others : List Item} (perm : others.Perm items)
    (same : ∀ first ∈ items, ∀ second ∈ items, value first = value second) :
    others.map value = items.map value := by
  cases items with
  | nil => rw [perm.eq_nil]
  | cons head tail =>
    have const : ∀ list : List Item, list.Perm (head :: tail) →
        list.map value = replicate (tail.length + 1) (value head) := by
      intro list perm
      rw [eq_replicate_iff, length_map, perm.length_eq, length_cons]
      refine ⟨rfl, fun total member => ?_⟩
      obtain ⟨item, inside, rfl⟩ := mem_map.mp member
      exact same item (perm.mem_iff.mp inside) head mem_cons_self
    rw [const others perm, const _ (Perm.refl _)]

theorem exists_perm_of_differ (many : 3 ≤ items.length) {first second : Item}
    (firstMem : first ∈ items) (secondMem : second ∈ items) (differ : value first ≠ value second) :
    ∃ head rest, items.Perm (head :: first :: second :: rest) := by
  obtain ⟨before, after, split⟩ := append_of_mem firstMem
  have front : items.Perm (first :: (before ++ after)) := split ▸ perm_middle
  have within : second ∈ before ++ after := by
    rcases mem_cons.mp (front.mem_iff.mp secondMem) with same | within
    · exact absurd (congrArg value same.symm) differ
    · exact within
  obtain ⟨left, right, others⟩ := append_of_mem within
  have next : (before ++ after).Perm (second :: (left ++ right)) := by
    rw [others]
    exact perm_middle
  have both := front.trans (next.cons first)
  cases rest : left ++ right with
  | nil =>
    rw [rest] at both
    exact absurd both.length_eq (by simp only [length_cons, length_nil]; omega)
  | cons head rest' =>
    rw [rest] at both
    exact ⟨head, rest', both.trans
      (((Perm.swap head second rest').cons first).trans (Perm.swap head first _))⟩

theorem boosted_perm_iff :
    (∀ others, others.Perm items → boosted value others = boosted value items) ↔
      (3 ≤ items.length → ∀ first ∈ items, ∀ second ∈ items, value first = value second) := by
  constructor
  · intro steady many first firstMem second secondMem
    by_contra differ
    obtain ⟨head, rest, perm⟩ := exists_perm_of_differ many firstMem secondMem differ
    have swapped : items.Perm (head :: second :: first :: rest) :=
      perm.trans ((Perm.swap second first rest).cons head)
    exact boosted_swap_ne differ ((steady _ perm.symm).trans (steady _ swapped.symm).symm)
  · intro same others perm
    by_cases many : 3 ≤ items.length
    · exact boosted_eq_of_map_eq (map_eq_of_perm_of_const perm (same many))
    · rcases items with _ | ⟨first, _ | ⟨second, _ | ⟨third, rest⟩⟩⟩
      · rw [perm.eq_nil]
      · rw [perm_singleton.mp perm]
      · rcases perm_pair perm with rfl | rfl
        · rfl
        · exact boosted_eq_of_length_two second first
      · simp at many

end Boost

def itemsAt (items : List SearchResultItem) (key : String × String × Nat) :
    List SearchResultItem :=
  items.filter fun item => item.key = key

/-- What the items of one place make together. -/
def combineAll : List SearchResultItem → Option SearchResultItem
  | [] => none
  | first :: rest => some (rest.foldl SearchResultItem.combine first)

section Combine

variable {existing item : SearchResultItem}

@[simp]
theorem key_combine : (existing.combine item).key = existing.key := by
  unfold SearchResultItem.combine
  split_ifs <;> rfl

@[simp]
theorem score_combine :
    (existing.combine item).score = (existing.score + item.score) * (6 / 5) := by
  unfold SearchResultItem.combine
  split_ifs <;> rfl

@[simp]
theorem endLine_combine :
    (existing.combine item).endLine = max existing.endLine item.endLine := by
  unfold SearchResultItem.combine
  split_ifs <;> dsimp only <;> omega

def SearchResultItem.symbol (item : SearchResultItem) :
    Option String × Option String × Option String :=
  (item.symbolName, item.symbolKind, item.parentSymbol)

@[simp]
theorem symbol_combine :
    (existing.combine item).symbol =
      if item.symbolName.isSome && existing.symbolName.isNone then item.symbol
      else existing.symbol := by
  unfold SearchResultItem.combine
  split_ifs <;> rfl

@[simp]
theorem isSome_symbolName_combine :
    (existing.combine item).symbolName.isSome =
      (existing.symbolName.isSome || item.symbolName.isSome) := by
  unfold SearchResultItem.combine
  cases existing.symbolName <;> cases item.symbolName <;> split_ifs <;> simp_all

end Combine

/-- What merged items keep of the items they are made of. -/
structure Keeps (items : List SearchResultItem) (merged : SearchResultItem) : Prop where
  key : ∀ item ∈ items, item.key = merged.key
  endLine : IsGreatest {line | ∃ item ∈ items, item.endLine = line} merged.endLine
  symbol : (∃ item ∈ items, item.symbolName.isSome = true) → merged.symbolName.isSome = true
  sameSymbol : ∃ item ∈ items, item.symbol = merged.symbol
  score : merged.score = boosted SearchResultItem.score items

theorem Keeps.concat {items : List SearchResultItem} {merged item : SearchResultItem}
    (keeps : Keeps items merged) (own : item.key = merged.key) :
    Keeps (items ++ [item]) (merged.combine item) := by
  obtain ⟨origin, fromOrigin, originSymbol⟩ := keeps.sameSymbol
  refine ⟨fun other member => ?_, ⟨?_, ?_⟩, ?_, ?_, ?_⟩
  · rw [key_combine]
    rcases mem_append.mp member with earlier | last
    · exact keeps.key other earlier
    · rw [mem_singleton.mp last, own]
  · obtain ⟨widest, member, same⟩ := keeps.endLine.1
    rw [endLine_combine]
    rcases le_total merged.endLine item.endLine with wider | narrower
    · exact ⟨item, mem_append_right _ (mem_singleton_self _), (max_eq_right wider).symm⟩
    · exact ⟨widest, mem_append_left _ member, same.trans (max_eq_left narrower).symm⟩
  · rintro line ⟨other, member, rfl⟩
    rw [endLine_combine]
    rcases mem_append.mp member with earlier | last
    · exact le_max_of_le_left (keeps.endLine.2 ⟨other, earlier, rfl⟩)
    · rw [mem_singleton.mp last]
      exact le_max_right _ _
  · rintro ⟨other, member, named⟩
    rw [isSome_symbolName_combine, Bool.or_eq_true]
    rcases mem_append.mp member with earlier | last
    · exact .inl (keeps.symbol ⟨other, earlier, named⟩)
    · exact .inr (mem_singleton.mp last ▸ named)
  · rw [symbol_combine]
    split_ifs
    · exact ⟨item, mem_append_right _ (mem_singleton_self _), rfl⟩
    · exact ⟨origin, mem_append_left _ fromOrigin, originSymbol⟩
  · rw [score_combine, boosted_concat (ne_nil_of_mem fromOrigin), keeps.score]

theorem keeps_foldl (rest : List SearchResultItem) {items : List SearchResultItem}
    {merged : SearchResultItem} (keeps : Keeps items merged)
    (own : ∀ item ∈ rest, item.key = merged.key) :
    Keeps (items ++ rest) (rest.foldl SearchResultItem.combine merged) := by
  induction rest generalizing items merged with
  | nil => simpa using keeps
  | cons item rest ih =>
    have next := ih (keeps.concat (own item mem_cons_self)) fun other member => by
      rw [key_combine]
      exact own other (mem_cons_of_mem _ member)
    simpa using next

theorem lookup_mergeItems (items : List SearchResultItem) (merged : MergedItems)
    (key : String × String × Nat) :
    (items.foldl mergeItem merged).lookup key =
      combineAll ((merged.lookup key).toList ++ itemsAt items key) := by
  induction items generalizing merged with
  | nil => cases found : merged.lookup key <;> simp [combineAll, itemsAt, found]
  | cons item rest ih =>
    rw [foldl_cons, ih]
    by_cases own : item.key = key
    · subst own
      cases found : merged.lookup item.key <;>
        simp [mergeItem, found, combineAll, itemsAt]
    · have kept : (mergeItem merged item).lookup key = merged.lookup key := by
        unfold mergeItem
        cases merged.lookup item.key <;> exact AList.lookup_insert_ne (Ne.symm own)
      rw [kept, itemsAt, itemsAt, filter_cons_of_neg (by simpa using own)]

section Results

variable {arrange : List SearchResultItem → List SearchResultItem}
  {items others : List SearchResultItem} {merged : SearchResultItem} {maxResults : Nat}

theorem keeps_combineAll (own : ∀ first ∈ items, ∀ second ∈ items, first.key = second.key)
    (combined : combineAll items = some merged) : Keeps items merged := by
  cases items with
  | nil => cases combined
  | cons first rest =>
    obtain rfl := Option.some.inj combined
    have single : Keeps [first] first :=
      ⟨by simp, by simp [isGreatest_singleton], by simp, by simp, rfl⟩
    exact keeps_foldl rest single fun item member =>
      own item (mem_cons_of_mem _ member) first mem_cons_self

theorem keeps_itemsAt {key : String × String × Nat}
    (combined : combineAll (itemsAt items key) = some merged) :
    Keeps (itemsAt items key) merged ∧ merged.key = key := by
  have own : ∀ item ∈ itemsAt items key, item.key = key := by
    intro item member
    simpa using (mem_filter.mp member).2
  have keeps := keeps_combineAll (fun first firstMem second secondMem =>
    (own first firstMem).trans (own second secondMem).symm) combined
  obtain ⟨origin, member, -⟩ := keeps.sameSymbol
  exact ⟨keeps, (keeps.key origin member).symm.trans (own origin member)⟩

def mergedValues (items : List SearchResultItem) : List SearchResultItem :=
  (items.foldl mergeItem ∅).entries.map Sigma.snd

theorem lookup_merged {key : String × String × Nat} :
    (items.foldl mergeItem ∅).lookup key = combineAll (itemsAt items key) := by
  rw [lookup_mergeItems, AList.lookup_empty]
  rfl

theorem key_of_entry {entry : (_ : String × String × Nat) × SearchResultItem}
    (member : entry ∈ (items.foldl mergeItem ∅).entries) : entry.2.key = entry.1 := by
  have found := AList.mem_lookup_iff.mpr member
  rw [lookup_merged] at found
  exact (keeps_itemsAt found).2

theorem mem_mergedValues :
    merged ∈ mergedValues items ↔ combineAll (itemsAt items merged.key) = some merged := by
  rw [← lookup_merged, ← Option.mem_def, AList.mem_lookup_iff]
  constructor
  · intro member
    obtain ⟨entry, inside, rfl⟩ := mem_map.mp member
    rw [key_of_entry inside]
    exact inside
  · exact fun member => mem_map.mpr ⟨_, member, rfl⟩

theorem nodup_keys_mergedValues (items : List SearchResultItem) :
    ((mergedValues items).map SearchResultItem.key).Nodup := by
  have keys : (mergedValues items).map SearchResultItem.key =
      (items.foldl mergeItem ∅).entries.map Sigma.fst := by
    rw [mergedValues, map_map]
    exact map_congr_left fun entry member => key_of_entry member
  rw [keys]
  exact (items.foldl mergeItem ∅).nodupKeys

theorem exists_mergedValue_iff {key : String × String × Nat} :
    (∃ merged ∈ mergedValues items, merged.key = key) ↔ itemsAt items key ≠ [] := by
  constructor
  · rintro ⟨merged, member, rfl⟩ nothing
    rw [mem_mergedValues, nothing] at member
    cases member
  · intro some_
    obtain ⟨first, rest, there⟩ := exists_cons_of_ne_nil some_
    have combined : combineAll (itemsAt items key) = some (rest.foldl SearchResultItem.combine first) :=
      congrArg combineAll there
    have own := (keeps_itemsAt combined).2
    exact ⟨_, mem_mergedValues.mpr (own.symm ▸ combined), own⟩

theorem itemsAt_ne_nil_iff {key : String × String × Nat} :
    itemsAt items key ≠ [] ↔ key ∈ items.map SearchResultItem.key := by
  simp [itemsAt, filter_eq_nil_iff]

theorem keys_mergedValues {key : String × String × Nat} :
    key ∈ (mergedValues items).map SearchResultItem.key ↔ key ∈ items.map SearchResultItem.key := by
  rw [mem_map, exists_mergedValue_iff, itemsAt_ne_nil_iff]

theorem mergeResults_perm (arranges : ∀ values, (arrange values).Perm values)
    (room : (items.map SearchResultItem.key).dedup.length ≤ maxResults) :
    (mergeResults arrange items maxResults).Perm (mergedValues items) := by
  have sorted := (mergeSort_perm (arrange (mergedValues items))
    fun first second => second.score ≤ first.score).trans (arranges _)
  have few : (mergedValues items).length ≤ (items.map SearchResultItem.key).dedup.length := by
    rw [← length_map SearchResultItem.key]
    exact (subperm_of_subset (nodup_keys_mergedValues items) fun key member =>
      mem_dedup.mpr (keys_mergedValues.mp member)).length_le
  unfold mergeResults
  dsimp only
  rw [← mergedValues, take_of_length_le (by rw [sorted.length_eq]; exact few.trans room)]
  exact sorted

theorem pairwise_mergeResults :
    (mergeResults arrange items maxResults).Pairwise fun first second =>
      second.score ≤ first.score := by
  have sorted := @pairwise_mergeSort _ (fun first second : SearchResultItem =>
    decide (second.score ≤ first.score)) (by simpa using fun a b c ab bc => le_trans bc ab)
    (by simpa using fun a b => le_total _ _) (arrange (mergedValues items))
  simp only [decide_eq_true_eq] at sorted
  exact sorted.sublist (take_sublist _ _)

def SearchResultItem.scored (item : SearchResultItem) : (String × String × Nat) × ℚ :=
  (item.key, item.score)

section

variable (arranges : ∀ values, (arrange values).Perm values)
  (room : (items.map SearchResultItem.key).dedup.length ≤ maxResults)

include arranges room

theorem mem_scored {place : (String × String × Nat) × ℚ} :
    place ∈ (mergeResults arrange items maxResults).map SearchResultItem.scored ↔
      itemsAt items place.1 ≠ [] ∧
        place.2 = boosted SearchResultItem.score (itemsAt items place.1) := by
  rw [((mergeResults_perm arranges room).map SearchResultItem.scored).mem_iff, mem_map,
    ← exists_mergedValue_iff]
  constructor
  · rintro ⟨merged, member, rfl⟩
    exact ⟨⟨merged, member, rfl⟩, (keeps_itemsAt (mem_mergedValues.mp member)).1.score⟩
  · rintro ⟨⟨merged, member, own⟩, score⟩
    refine ⟨merged, member, Prod.ext own ?_⟩
    rw [score, ← own]
    exact (keeps_itemsAt (mem_mergedValues.mp member)).1.score

theorem nodup_keys_mergeResults :
    ((mergeResults arrange items maxResults).map SearchResultItem.key).Nodup :=
  ((mergeResults_perm arranges room).map SearchResultItem.key).nodup_iff.mpr
    (nodup_keys_mergedValues items)

theorem keeps_mergeResults (member : merged ∈ mergeResults arrange items maxResults) :
    Keeps (itemsAt items merged.key) merged :=
  (keeps_itemsAt (mem_mergedValues.mp ((mergeResults_perm arranges room).mem_iff.mp member))).1

end

theorem exists_perm_itemsAt {key : String × String × Nat} {own : List SearchResultItem}
    (perm : own.Perm (itemsAt items key)) :
    (own ++ items.filter fun item => ¬ item.key = key).Perm items ∧
      itemsAt (own ++ items.filter fun item => ¬ item.key = key) key = own := by
  constructor
  · refine (perm.append_right _).trans ?_
    have parts := filter_append_perm (fun item : SearchResultItem => decide (item.key = key)) items
    simpa [itemsAt] using parts
  · have inside : ∀ item ∈ own, decide (item.key = key) = true := fun item member =>
      (mem_filter.mp (perm.mem_iff.mp member)).2
    rw [itemsAt, filter_append, filter_eq_self.mpr inside, filter_filter]
    simp

theorem boosted_steady_iff :
    (∀ others : List SearchResultItem, others.Perm items → ∀ key,
      boosted SearchResultItem.score (itemsAt others key) =
        boosted SearchResultItem.score (itemsAt items key)) ↔
    ∀ key, 3 ≤ (itemsAt items key).length → ∀ first ∈ itemsAt items key,
      ∀ second ∈ itemsAt items key, first.score = second.score := by
  simp only [← boosted_perm_iff]
  constructor
  · intro steady key own perm
    obtain ⟨reordered, same⟩ := exists_perm_itemsAt perm
    rw [← steady _ reordered key, same]
  · exact fun steady others perm key => steady key _ (perm.filter _)

theorem nodup_scored (distinct : (items.map SearchResultItem.key).Nodup) :
    (items.map SearchResultItem.scored).Nodup := by
  refine Nodup.of_map Prod.fst ?_
  rwa [map_map]

theorem scored_eq_of_perm {first second : List SearchResultItem}
    (firstSorted : first.Pairwise fun earlier later => later.score ≤ earlier.score)
    (secondSorted : second.Pairwise fun earlier later => later.score ≤ earlier.score)
    (apart : (second.map SearchResultItem.score).Nodup)
    (perm : (first.map SearchResultItem.scored).Perm (second.map SearchResultItem.scored)) :
    first.map SearchResultItem.scored = second.map SearchResultItem.scored := by
  refine @Perm.eq_of_pairwise _ (fun earlier later => later.2 ≤ earlier.2) _ _ ?_
    (pairwise_map.mpr firstSorted) (pairwise_map.mpr secondSorted) perm
  intro place other placeMem otherMem above below
  have scores : ((second.map SearchResultItem.scored).map Prod.snd).Nodup := by
    rwa [map_map]
  exact inj_on_of_nodup_map scores (perm.mem_iff.mp placeMem) otherMem (le_antisymm below above)

/-- Every place is returned once, with its widest range and a symbol if there is one, the best
scores first. Another order of the items returns the same places; it returns them with the same
scores and in the same order exactly if no place has three or more items of different scores. -/
theorem mergeResults_spec (arrange : List SearchResultItem → List SearchResultItem)
    (arranges : ∀ values, (arrange values).Perm values) (items : List SearchResultItem)
    (maxResults : Nat) (room : (items.map SearchResultItem.key).dedup.length ≤ maxResults)
    (apart : ((mergeResults arrange items maxResults).map SearchResultItem.score).Nodup) :
    ((mergeResults arrange items maxResults).map SearchResultItem.key).Nodup ∧
    (∀ key, key ∈ (mergeResults arrange items maxResults).map SearchResultItem.key ↔
      key ∈ items.map SearchResultItem.key) ∧
    (∀ merged ∈ mergeResults arrange items maxResults,
      IsGreatest {line | ∃ item ∈ itemsAt items merged.key, item.endLine = line} merged.endLine ∧
      ((∃ item ∈ itemsAt items merged.key, item.symbolName.isSome = true) →
        merged.symbolName.isSome = true ∧
          ∃ item ∈ itemsAt items merged.key, item.symbol = merged.symbol)) ∧
    (mergeResults arrange items maxResults).Pairwise
      (fun first second => second.score ≤ first.score) ∧
    (∀ others : List SearchResultItem, others.Perm items → ∀ arrange',
      (∀ values, (arrange' values : List SearchResultItem).Perm values) → ∀ key,
        key ∈ (mergeResults arrange' others maxResults).map SearchResultItem.key ↔
          key ∈ (mergeResults arrange items maxResults).map SearchResultItem.key) ∧
    ((∀ others : List SearchResultItem, others.Perm items → ∀ arrange',
      (∀ values, (arrange' values : List SearchResultItem).Perm values) →
        (mergeResults arrange' others maxResults).map SearchResultItem.scored =
          (mergeResults arrange items maxResults).map SearchResultItem.scored) ↔
      ∀ key, 3 ≤ (itemsAt items key).length → ∀ first ∈ itemsAt items key,
        ∀ second ∈ itemsAt items key, first.score = second.score) := by
  have roomAgain {others : List SearchResultItem} (perm : others.Perm items) :
      (others.map SearchResultItem.key).dedup.length ≤ maxResults := by
    rwa [((perm.map SearchResultItem.key).dedup).length_eq]
  refine ⟨nodup_keys_mergeResults arranges room, fun key => ?_, fun merged member => ?_,
    pairwise_mergeResults, fun others perm arrange' arranges' key => ?_, ?_⟩
  · rw [((mergeResults_perm arranges room).map _).mem_iff, keys_mergedValues]
  · have keeps := keeps_mergeResults arranges room member
    exact ⟨keeps.endLine, fun named => ⟨keeps.symbol named, keeps.sameSymbol⟩⟩
  · rw [((mergeResults_perm arranges room).map _).mem_iff, keys_mergedValues,
      ((mergeResults_perm arranges' (roomAgain perm)).map _).mem_iff, keys_mergedValues,
      (perm.map _).mem_iff]
  · rw [← boosted_steady_iff]
    constructor
    · intro steady others perm key
      by_cases nothing : itemsAt others key = []
      · have placed : (itemsAt others key).Perm (itemsAt items key) := perm.filter _
        rw [nothing] at placed ⊢
        rw [placed.symm.eq_nil]
      · have there : (key, boosted SearchResultItem.score (itemsAt others key)) ∈
            (mergeResults arrange others maxResults).map SearchResultItem.scored :=
          (mem_scored arranges (roomAgain perm)).mpr ⟨nothing, rfl⟩
        rw [steady others perm arrange arranges] at there
        exact ((mem_scored arranges room).mp there).2
    · intro steady others perm arrange' arranges'
      refine scored_eq_of_perm pairwise_mergeResults pairwise_mergeResults apart ?_
      refine (perm_ext_iff_of_nodup ?_ ?_).mpr fun place => ?_
      · exact nodup_scored (nodup_keys_mergeResults arranges' (roomAgain perm))
      · exact nodup_scored (nodup_keys_mergeResults arranges room)
      · rw [mem_scored arranges' (roomAgain perm), mem_scored arranges room, steady others perm,
          itemsAt_ne_nil_iff, itemsAt_ne_nil_iff, (perm.map _).mem_iff]

end Results

/-- What a search found in one place. -/
def sampleItem (matchType : SearchMode) (score : ℚ) (symbolName : Option String) :
    SearchResultItem where
  repoId := "r1"
  filePath := "main.rs"
  startLine := 10
  endLine := 15
  contentSnippet := "fn foo()"
  matchType := matchType
  score := score
  symbolName := symbolName
  symbolKind := none
  parentSymbol := none

theorem mergeResults_spec_pair :
    (mergeResults id [sampleItem .ast 1 (some "foo"), sampleItem .text (4 / 5) none] 10).map
        SearchResultItem.scored =
      (mergeResults id [sampleItem .text (4 / 5) none, sampleItem .ast 1 (some "foo")] 10).map
        SearchResultItem.scored := by
  refine (mergeResults_spec id Perm.refl
    [sampleItem .text (4 / 5) none, sampleItem .ast 1 (some "foo")] 10 (by decide)
    (by decide +kernel)).2.2.2.2.2.mpr (fun key many => ?_) _ (Perm.swap _ _ []) id Perm.refl
  have few : (itemsAt [sampleItem .text (4 / 5) none, sampleItem .ast 1 (some "foo")] key).length ≤ 2 :=
    length_filter_le _ _
  omega

/-- Three items of one place get another score in another order. -/
theorem mergeResults_fails_three :
    let found := [sampleItem .text (4 / 5) none, sampleItem .ast 1 (some "foo"),
      sampleItem .semantic (9 / 10) none]
    let others := [sampleItem .ast 1 (some "foo"), sampleItem .semantic (9 / 10) none,
      sampleItem .text (4 / 5) none]
    others.Perm found ∧ ((mergeResults id found 10).map SearchResultItem.score).Nodup ∧
      (mergeResults id found 10).map SearchResultItem.score = [459 / 125] ∧
      (mergeResults id others 10).map SearchResultItem.score = [462 / 125] := by
  refine ⟨perm_append_singleton _ [sampleItem .ast 1 (some "foo"),
    sampleItem .semantic (9 / 10) none], ?_, ?_, ?_⟩ <;> decide +kernel

end UltimateCoders.Engine
