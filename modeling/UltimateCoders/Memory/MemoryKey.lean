import UltimateCoders.Text.Split
import Mathlib.Data.Set.Basic
import Mathlib.Data.String.Basic

/-! # Keys of the memory store

A memory belongs to a task, to a project or to no scope. Its key is encoded for the
store by writing the parts one after another with a colon between them, and decoded
by cutting at the first colons.
-/

namespace UltimateCoders.Memory

open Text List

/-- A key of a memory, within a task, within a project or for all of them. -/
inductive MemoryKey where
  | task (taskId key : String)
  | project (projectId key : String)
  | global (key : String)
  deriving DecidableEq

def encodeKey : MemoryKey → String
  | .task taskId inner => "memory:task:" ++ taskId ++ ":" ++ inner
  | .project projectId inner => "memory:project:" ++ projectId ++ ":" ++ inner
  | .global inner => "memory:global:" ++ inner

def decodeKey (encoded : String) : Option MemoryKey :=
  match (splitn ':' 4 encoded.toList).map String.ofList with
  | [first, kind, scopeId, inner] =>
    if first ≠ "memory" then none
    else if kind = "task" then some (.task scopeId inner)
    else if kind = "project" then some (.project scopeId inner)
    else none
  | [first, kind, inner] =>
    if first ≠ "memory" then none
    else if kind = "global" then some (.global inner)
    else none
  | _ => none

/-- What the encoded keys of a scope begin with. -/
def scopePrefix : MemoryKey → String
  | .task taskId _ => "memory:task:" ++ taskId ++ ":"
  | .project projectId _ => "memory:project:" ++ projectId ++ ":"
  | .global _ => "memory:global:"

namespace MemoryKey

/-- The part of a key that its scope does not fix. -/
def inner : MemoryKey → String
  | task _ inner | project _ inner | global inner => inner

/-- Two keys of one task, of one project, or of none. -/
def SameScope : MemoryKey → MemoryKey → Prop
  | task first _, task second _ => first = second
  | project first _, project second _ => first = second
  | global _, global _ => True
  | _, _ => False

instance : DecidableRel SameScope := fun first second =>
  match first, second with
  | task first _, task second _ => inferInstanceAs (Decidable (first = second))
  | project first _, project second _ => inferInstanceAs (Decidable (first = second))
  | global _, global _ => inferInstanceAs (Decidable True)
  | task _ _, project _ _ | task _ _, global _ | project _ _, task _ _ | project _ _, global _
  | global _, task _ _ | global _, project _ _ => inferInstanceAs (Decidable False)

/-- The key can be cut where it was put together: no colon in the id of its task or
project, and none in a key without a scope. -/
def Separable : MemoryKey → Prop
  | task scopeId _ | project scopeId _ => ':' ∉ scopeId.toList
  | global innerKey => ':' ∉ innerKey.toList

instance : DecidablePred Separable := fun key =>
  match key with
  | task scopeId _ | project scopeId _ => inferInstanceAs (Decidable (':' ∉ scopeId.toList))
  | global innerKey => inferInstanceAs (Decidable (':' ∉ innerKey.toList))

end MemoryKey

open MemoryKey

theorem encodeKey_eq (key : MemoryKey) : encodeKey key = scopePrefix key ++ key.inner := by
  cases key <;> rfl

theorem SameScope.scopePrefix_eq {first second : MemoryKey} (same : first.SameScope second) :
    scopePrefix first = scopePrefix second := by
  cases first <;> cases second <;> simp only [MemoryKey.SameScope] at same
  case task.task => exact congrArg ("memory:task:" ++ · ++ ":") same
  case project.project => exact congrArg ("memory:project:" ++ · ++ ":") same
  case global.global => rfl

theorem toList_scopePrefix (key : MemoryKey) : (scopePrefix key).toList =
    "memory".toList ++ ':' :: match key with
    | .task taskId _ => "task".toList ++ ':' :: (taskId.toList ++ [':'])
    | .project projectId _ => "project".toList ++ ':' :: (projectId.toList ++ [':'])
    | .global _ => "global".toList ++ [':'] := by
  cases key with
  | task taskId innerKey =>
    change ("memory:task:" ++ taskId ++ ":").toList = _
    rw [String.toList_append, String.toList_append, append_assoc]
    rfl
  | project projectId innerKey =>
    change ("memory:project:" ++ projectId ++ ":").toList = _
    rw [String.toList_append, String.toList_append, append_assoc]
    rfl
  | «global» innerKey =>
    change "memory:global:".toList = "memory".toList ++ ':' :: ("global".toList ++ [':'])
    decide

theorem toList_encodeKey (key : MemoryKey) : (encodeKey key).toList =
    "memory".toList ++ ':' :: match key with
    | .task taskId innerKey => "task".toList ++ ':' :: (taskId.toList ++ ':' :: innerKey.toList)
    | .project projectId innerKey =>
      "project".toList ++ ':' :: (projectId.toList ++ ':' :: innerKey.toList)
    | .global innerKey => "global".toList ++ ':' :: innerKey.toList := by
  rw [encodeKey_eq, String.toList_append, toList_scopePrefix]
  cases key <;> simp only [MemoryKey.inner, append_assoc, cons_append, nil_append]

theorem fixed_free : ':' ∉ "memory".toList ∧ ':' ∉ "task".toList ∧ ':' ∉ "project".toList ∧
    ':' ∉ "global".toList := by
  decide

theorem decodeKey_encodeKey {key : MemoryKey} (separable : key.Separable) :
    decodeKey (encodeKey key) = some key := by
  obtain ⟨memory, task, project, whole⟩ := fixed_free
  unfold decodeKey
  rw [toList_encodeKey]
  cases key with
  | task taskId innerKey =>
    have free : ':' ∉ taskId.toList := separable
    simp only [splitn_append_cons memory, splitn_append_cons task,
      splitn_append_cons free, zero_add, splitn_one, map_cons, map_nil,
      String.ofList_toList]
    rfl
  | project projectId innerKey =>
    have free : ':' ∉ projectId.toList := separable
    simp only [splitn_append_cons memory, splitn_append_cons project,
      splitn_append_cons free, zero_add, splitn_one, map_cons, map_nil,
      String.ofList_toList]
    rfl
  | «global» innerKey =>
    have free : ':' ∉ innerKey.toList := separable
    simp only [splitn_append_cons memory, splitn_append_cons whole,
      splitn_of_free free, map_cons, map_nil, String.ofList_toList]
    rfl

theorem eq_encodeKey_of_decodeKey {encoded : String} {key : MemoryKey}
    (decoded : decodeKey encoded = some key) : encoded = encodeKey key ∧ key.Separable := by
  unfold decodeKey at decoded
  rcases splitn_cases ':' 2 encoded.toList with
    ⟨-, parts⟩ | ⟨first, rest, whole, -, parts⟩
  · simp [parts] at decoded
  rcases splitn_cases ':' 1 rest with
    ⟨-, others⟩ | ⟨kind, within, rfl, -, others⟩
  · simp [parts, others] at decoded
  rcases splitn_cases ':' 0 within with
    ⟨free, last⟩ | ⟨scopeId, innerKey, rfl, free, last⟩
  · simp only [parts, others, last, map_cons, map_nil, ne_eq, ite_not,
      Option.ite_none_right_eq_some, Option.some.injEq, ← String.toList_inj,
      String.toList_ofList] at decoded
    obtain ⟨rfl, rfl, rfl⟩ := decoded
    refine ⟨?_, by simpa [MemoryKey.Separable] using free⟩
    rw [← String.toList_inj, whole, toList_encodeKey]
    simp only [String.toList_ofList]
  · simp only [parts, others, last, zero_add, splitn_one, map_cons, map_nil, ne_eq,
      ite_not, Option.ite_none_right_eq_some, ← String.toList_inj, String.toList_ofList] at decoded
    obtain ⟨rfl, decoded⟩ := decoded
    split at decoded
    · rename_i task
      subst task
      obtain rfl := Option.some.inj decoded
      refine ⟨?_, by simpa [MemoryKey.Separable] using free⟩
      rw [← String.toList_inj, whole, toList_encodeKey]
      simp only [String.toList_ofList]
    · rw [Option.ite_none_right_eq_some] at decoded
      obtain ⟨rfl, decoded⟩ := decoded
      obtain rfl := Option.some.inj decoded
      refine ⟨?_, by simpa [MemoryKey.Separable] using free⟩
      rw [← String.toList_inj, whole, toList_encodeKey]
      simp only [String.toList_ofList]

theorem encodeKey_injOn : Set.InjOn encodeKey { key | key.Separable } := by
  intro first separable second other same
  rw [← Option.some_inj, ← decodeKey_encodeKey separable, same, decodeKey_encodeKey other]

/-- An encoded key continues the beginning of a scope if the key is of that scope. -/
theorem scopePrefix_prefix_iff {first second : MemoryKey} (firstSeparable : first.Separable)
    (secondSeparable : second.Separable) :
    (scopePrefix first).toList <+: (encodeKey second).toList ↔ second.SameScope first := by
  obtain ⟨memory, task, project, whole⟩ := fixed_free
  constructor
  · rintro ⟨rest, joined⟩
    rw [toList_scopePrefix, toList_encodeKey, append_assoc, cons_append] at joined
    have kinds := (eq_of_cut_eq joined memory memory).2
    cases first <;> cases second <;> simp only [append_assoc, cons_append] at kinds
    case task.task firstId _ secondId _ =>
      have ids := (eq_of_cut_eq kinds task task).2
      exact String.toList_inj.mp (eq_of_cut_eq ids firstSeparable secondSeparable).1.symm
    case project.project firstId _ secondId _ =>
      have ids := (eq_of_cut_eq kinds project project).2
      exact String.toList_inj.mp (eq_of_cut_eq ids firstSeparable secondSeparable).1.symm
    case global.global => trivial
    case task.project => exact absurd (eq_of_cut_eq kinds task project).1 (by decide)
    case task.global => exact absurd (eq_of_cut_eq kinds task whole).1 (by decide)
    case project.task => exact absurd (eq_of_cut_eq kinds project task).1 (by decide)
    case project.global => exact absurd (eq_of_cut_eq kinds project whole).1 (by decide)
    case global.task => exact absurd (eq_of_cut_eq kinds whole task).1 (by decide)
    case global.project => exact absurd (eq_of_cut_eq kinds whole project).1 (by decide)
  · intro same
    rw [encodeKey_eq, SameScope.scopePrefix_eq same, String.toList_append]
    exact prefix_append _ _

end UltimateCoders.Memory
