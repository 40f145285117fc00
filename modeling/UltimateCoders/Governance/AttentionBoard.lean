import UltimateCoders.Governance.CaseStore
import UltimateCoders.Search.Latest

/-! # Raising attention items

An item says what a case waits for. Raising one closes the newest open item of its case
first, and then stores the item under its id, over the one that may be there.
-/

namespace UltimateCoders.Governance

open Transition

namespace AttentionBoard

variable {Value : Type} (codec : Codec Value AttentionItem)

/-- The newest open item of a case among listed ones. -/
def newestOpen (caseId : String) (listed : List (AttentionItem × Nat)) : Option AttentionItem :=
  latest ((listed.map Prod.fst).filter fun item => item.caseId = caseId && item.isOpen)

/-- The item that a new one of the case is put in the place of. -/
def superseded (item : AttentionItem) (found : Option AttentionItem) : Option String :=
  (found.filter fun current => current.id ≠ item.id).map AttentionItem.id

/-- What is noted on an item that another one was put in the place of. -/
def supersededBy (item : AttentionItem) : AttentionResolution :=
  .automatic ("superseded by " ++ item.id)

/-- Close the item before, whatever comes of it. -/
def closePrevious (item : AttentionItem) (previous : Option String) (now : Instant) :
    StoreProgram Value Unit := do
  match previous with
  | none => return ()
  | some previous =>
    let _ ← resolve codec previous (supersededBy item) now
    return ()

/-- Store an item under its id, over one that is there; of that one the beginning is kept. -/
def storeItem (item : AttentionItem) :
    StoreProgram Value (Except AttentionBoardError AttentionItem) := do
  match ← view.put codec item.id item (some 0) with
  | .ok _ => return .ok item
  | .error (.conflict _ _) =>
    match ← view.get codec item.id with
    | .error error => return .error (.store error)
    | .ok none => return .error (.store (.conflict 0 none))
    | .ok (some (current, version)) =>
      let existing := { item with since := current.since }
      match ← view.put codec existing.id existing (some version) with
      | .ok _ => return .ok existing
      | .error error => return .error (.store error)
  | .error other => return .error (.store other)

/-- Raise an item in the place of the open one of its case. -/
def raise (item : AttentionItem) (now : Instant) :
    StoreProgram Value (Except AttentionBoardError (AttentionItem × Option String)) := do
  match ← openForCase codec item.caseId with
  | .error error => return .error error
  | .ok found =>
    let previous := superseded item found
    closePrevious codec item previous now
    match ← storeItem codec item with
    | .error error => return .error error
    | .ok stored => return .ok (stored, previous)

theorem latest_eq : latest = Search.latest AttentionItem.since := by
  unfold latest Search.latest
  congr 1
  funext best item
  cases best <;> rfl

variable {caseId : String} {listed : List (AttentionItem × Nat)} {item : AttentionItem}

/-- There is a newest open item if there is any. -/
theorem newestOpen_eq_none_iff :
    newestOpen caseId listed = none ↔
      ∀ entry ∈ listed, entry.1.caseId = caseId → entry.1.isOpen = false := by
  rw [newestOpen, latest_eq, Search.latest_eq_none_iff, List.filter_eq_nil_iff]
  simp

theorem mem_of_newestOpen (found : newestOpen caseId listed = some item) :
    (∃ version, (item, version) ∈ listed) ∧ item.caseId = caseId ∧ item.isOpen = true := by
  rw [newestOpen, latest_eq] at found
  have member := Search.mem_of_latest found
  simp only [List.mem_filter, List.mem_map, Bool.and_eq_true, decide_eq_true_eq] at member
  obtain ⟨⟨⟨_, version⟩, listed, rfl⟩, here⟩ := member
  exact ⟨⟨version, listed⟩, here⟩

theorem superseded_of_ne {found : AttentionItem} (different : found.id ≠ item.id) :
    superseded item (some found) = some found.id := by
  simp [superseded, Option.filter, different]

end AttentionBoard

theorem AttentionItem.isOpen_resolve (item : AttentionItem) (resolution : AttentionResolution)
    (now : Instant) : (item.resolve resolution now).isOpen = false := by
  unfold resolve isOpen
  split
  · rename_i resolved
    simpa using resolved
  · rfl

theorem AttentionItem.id_resolve (item : AttentionItem) (resolution : AttentionResolution)
    (now : Instant) : (item.resolve resolution now).id = item.id := by
  unfold resolve
  split <;> rfl

end UltimateCoders.Governance
