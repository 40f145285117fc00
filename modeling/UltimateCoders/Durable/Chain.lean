import Mathlib.Data.List.Basic
import Mathlib.Data.Nat.PSub

/-! # Writes chained through a shared tail

Every write waits for the one that was the tail when it was enqueued, and becomes
the tail itself. Whoever waits for a write is told of its error, and, depending on
the policy of the chain, of errors before it.
-/

namespace Durable

open List

universe u

/-- How a write ended. One that failed may have taken effect all the same. -/
inductive Outcome where
  | ok
  | failed (error : String) (applied : Bool)
  deriving DecidableEq

def Outcome.error : Outcome → Option String
  | ok => none
  | failed error _ => some error

def Outcome.applied : Outcome → Bool
  | ok => true
  | failed _ applied => applied

/-- What is told of a write, from what was told of the one before and its own error. -/
abbrev Policy := Option String → Option String → Option String

/-- Errors of earlier writes are swallowed. -/
def swallow : Policy := fun _ own => own

/-- The first error stays. -/
def latch : Policy := fun earlier own => earlier.or own

structure Write (Payload : Type u) where
  payload : Payload
  previous : Option Nat
  /-- How the write ended, and what is told of it. -/
  ended : Option (Outcome × Option String) := none

def Write.effect {Payload : Type u} (write : Write Payload) : Option Payload :=
  match write.ended with
  | some (outcome, _) => if outcome.applied then some write.payload else none
  | none => none

structure Chain (Payload : Type u) where
  writes : List (Write Payload) := []
  tail : Option Nat := none
  /-- The writes that have ended, in that order. -/
  performed : List Nat := []
  /-- What has taken effect, in that order. -/
  applied : List Payload := []

namespace Chain

variable {Payload : Type u}

def payloads (chain : Chain Payload) : List Payload := chain.writes.map Write.payload

/-- Let a write wait for the tail. -/
def enqueue (chain : Chain Payload) (payload : Payload) : Chain Payload :=
  { chain with
    writes := chain.writes ++ [{ payload := payload, previous := chain.tail }]
    tail := some chain.writes.length }

/-- What is told of a write once it has ended. Nothing is wrong if there is none. -/
def awaited (chain : Chain Payload) : Option Nat → Option (Option String)
  | none => some none
  | some number => (chain.writes[number]?.bind Write.ended).map Prod.snd

def outcome (chain : Chain Payload) (number : Nat) : Option Outcome :=
  (chain.writes[number]?.bind Write.ended).map Prod.fst

/-- A write whose turn it is ends. -/
def perform (policy : Policy) (chain : Chain Payload) (number : Nat) (outcome : Outcome) :
    Option (Chain Payload) :=
  match chain.writes[number]? with
  | none => none
  | some write =>
    match write.ended, chain.awaited write.previous with
    | none, some earlier =>
      some { chain with
        writes := chain.writes.set number
          { write with ended := some (outcome, policy earlier outcome.error) }
        performed := chain.performed ++ [number]
        applied := if outcome.applied then chain.applied ++ [write.payload] else chain.applied }
    | _, _ => none

def drain (policy : Policy) (outcomes : Nat → Outcome) (chain : Chain Payload) : Chain Payload :=
  (range chain.writes.length).foldl (fun chain number =>
    (chain.perform policy number (outcomes number)).getD chain) chain

/-- Writes end in the order in which they were enqueued. -/
structure Serial (policy : Policy) (chain : Chain Payload) : Prop where
  tail : chain.tail = chain.writes.length.ppred
  previous : ∀ (number : Nat) (write : Write Payload), chain.writes[number]? = some write →
    write.previous = number.ppred
  performed : chain.performed = range chain.performed.length
  bounded : chain.performed.length ≤ chain.writes.length
  ended : ∀ (number : Nat) (write : Write Payload), chain.writes[number]? = some write →
    (write.ended.isSome ↔ number < chain.performed.length)
  told : ∀ (number : Nat) (write : Write Payload) (outcome : Outcome) (told : Option String),
    chain.writes[number]? = some write → write.ended = some (outcome, told) →
    ∃ earlier, chain.awaited number.ppred = some earlier ∧ told = policy earlier outcome.error
  applied : chain.applied = chain.writes.filterMap Write.effect

variable {policy : Policy} {chain after : Chain Payload} {number : Nat} {payload : Payload}
  {result : Outcome} {write : Write Payload}

/-- A chain without writes is serial. -/
theorem serial_empty : Serial policy ({} : Chain Payload) := by
  constructor <;> simp

@[simp] theorem payloads_enqueue : (chain.enqueue payload).payloads = chain.payloads ++ [payload] := by
  simp [payloads, enqueue]

@[simp] theorem payloads_foldl_enqueue (added : List Payload) :
    (added.foldl enqueue chain).payloads = chain.payloads ++ added := by
  induction added generalizing chain with
  | nil => simp
  | cons payload rest ih => simp [ih]

theorem length_payloads : chain.payloads.length = chain.writes.length := length_map ..

variable {barrier : Option Nat} {told : Option String}

/-- What is told of a write does not depend on later ones. -/
theorem awaited_append {added : Write Payload}
    (below : ∀ number, barrier = some number → number < chain.writes.length) :
    ({ chain with writes := chain.writes ++ [added] } : Chain Payload).awaited barrier =
      chain.awaited barrier := by
  cases barrier with
  | none => rfl
  | some number => simp [awaited, getElem?_append_left (below number rfl)]

theorem getElem?_enqueue (found : (chain.enqueue payload).writes[number]? = some write) :
    chain.writes[number]? = some write ∨
      number = chain.writes.length ∧ write = { payload := payload, previous := chain.tail } := by
  simp only [enqueue, getElem?_append] at found
  split at found
  · exact .inl found
  · rw [getElem?_singleton] at found
    split at found
    · exact .inr ⟨by omega, (Option.some.inj found).symm⟩
    · cases found

theorem lt_of_ppred {number earlier : Nat} (before : number.ppred = some earlier) :
    earlier < number := by
  have := Nat.ppred_eq_some.mp before
  omega

section

variable (serial : Serial policy chain)

include serial

/-- Enqueuing keeps a chain serial. -/
theorem Serial.enqueue (payload : Payload) : Serial policy (chain.enqueue payload) where
  tail := by simp [Chain.enqueue]
  previous := by
    intro number write found
    rcases getElem?_enqueue found with old | ⟨rfl, rfl⟩
    · exact serial.previous number write old
    · exact serial.tail
  performed := serial.performed
  bounded := by
    have := serial.bounded
    simp only [Chain.enqueue, length_append]
    omega
  ended := by
    intro number write found
    rcases getElem?_enqueue found with old | ⟨rfl, rfl⟩
    · exact serial.ended number write old
    · simpa [Chain.enqueue] using serial.bounded
  told := by
    intro number write outcome told found ended
    rcases getElem?_enqueue found with old | ⟨rfl, rfl⟩
    · have inside : number < chain.writes.length := (List.getElem?_eq_some_iff.mp old).1
      obtain ⟨earlier, awaited, same⟩ := serial.told number write outcome told old ended
      refine ⟨earlier, ?_, same⟩
      rw [← awaited]
      exact awaited_append fun before is => Nat.lt_trans (lt_of_ppred is) inside
    · cases ended
  applied := by simp [Chain.enqueue, serial.applied, Write.effect]

theorem Serial.foldl_enqueue (added : List Payload) :
    Serial policy (added.foldl Chain.enqueue chain) := by
  induction added generalizing chain with
  | nil => exact serial
  | cons payload rest ih => exact ih (serial.enqueue payload)

/-- Something is told of a write once it has been performed. -/
theorem Serial.awaited_isSome (inside : number < chain.writes.length) :
    (chain.awaited (some number)).isSome ↔ number < chain.performed.length := by
  have found : chain.writes[number]? = some chain.writes[number] := getElem?_eq_getElem inside
  simp [awaited, found, ← serial.ended number _ found]

/-- Only the next write can end, and then it is told of by the policy. -/
theorem Serial.perform_cases (step : chain.perform policy number result = some after) :
    number = chain.performed.length ∧ ∃ write earlier, chain.writes[number]? = some write ∧
      chain.awaited number.ppred = some earlier ∧
      after = { chain with
        writes := chain.writes.set number {
          payload := write.payload
          previous := number.ppred
          ended := some (result, policy earlier result.error) }
        performed := chain.performed ++ [number]
        applied := if result.applied then chain.applied ++ [write.payload] else chain.applied } := by
  unfold perform at step
  split at step
  · cases step
  · rename_i write found
    rw [serial.previous number write found] at step
    split at step
    · rename_i earlier open_ awaited
      refine ⟨?_, write, earlier, found, awaited, (Option.some.inj step).symm⟩
      have notEnded : ¬ number < chain.performed.length := by
        rw [← serial.ended number write found, open_]
        simp
      have reached : number ≤ chain.performed.length := by
        cases number with
        | zero => exact Nat.zero_le _
        | succ before =>
          have inside : before < chain.writes.length :=
            Nat.lt_trans (Nat.lt_succ_self before) (List.getElem?_eq_some_iff.mp found).1
          exact (serial.awaited_isSome inside).mp (Option.isSome_iff_exists.mpr ⟨earlier, awaited⟩)
      omega
    · cases step

/-- The next write can end. -/
theorem Serial.perform_next (inside : chain.performed.length < chain.writes.length)
    (result : Outcome) :
    ∃ after, chain.perform policy chain.performed.length result = some after := by
  have found := getElem?_eq_getElem inside
  have notEnded : chain.writes[chain.performed.length].ended = none := by
    have := serial.ended _ _ found
    simpa using this
  have told : ∃ earlier, chain.awaited chain.performed.length.ppred = some earlier := by
    cases count : chain.performed.length with
    | zero => exact ⟨none, rfl⟩
    | succ before =>
      exact Option.isSome_iff_exists.mp ((serial.awaited_isSome (by omega)).mpr (by omega))
  obtain ⟨earlier, awaited⟩ := told
  unfold perform
  rw [found]
  simp only [notEnded, serial.previous _ _ found, awaited]
  exact ⟨_, rfl⟩

end

theorem awaited_set {ended : Write Payload} (apart : barrier ≠ some number) :
    ({ chain with writes := chain.writes.set number ended } : Chain Payload).awaited barrier =
      chain.awaited barrier := by
  cases barrier with
  | none => rfl
  | some other =>
    have : number ≠ other := fun same => apart (by rw [same])
    simp [awaited, getElem?_set_ne this]

/-- A write whose turn has not come has no effect. -/
theorem Serial.effect_eq_none (serial : Serial policy chain)
    (member : write ∈ chain.writes.drop chain.performed.length) : write.effect = none := by
  obtain ⟨position, found⟩ := getElem?_of_mem member
  rw [getElem?_drop] at found
  have waits : write.ended = none := by
    rw [← Option.not_isSome_iff_eq_none, serial.ended _ _ found]
    omega
  simp [Write.effect, waits]

theorem getElem?_set_cases {writes : List (Write Payload)} {ended found : Write Payload}
    {other : Nat} (at_ : (writes.set number ended)[other]? = some found) :
    other = number ∧ found = ended ∨ other ≠ number ∧ writes[other]? = some found := by
  rw [getElem?_set] at at_
  split at at_
  · split at at_
    · exact .inl ⟨by omega, (Option.some.inj at_).symm⟩
    · cases at_
  · exact .inr ⟨by omega, at_⟩

/-- Ending a write keeps a chain serial. -/
theorem Serial.perform (serial : Serial policy chain)
    (step : chain.perform policy number result = some after) : Serial policy after := by
  obtain ⟨isNext, write, earlier, found, awaited, rfl⟩ := serial.perform_cases step
  have inside : number < chain.writes.length := (List.getElem?_eq_some_iff.mp found).1
  constructor
  case tail => simpa using serial.tail
  case previous =>
    intro other held at_
    rcases getElem?_set_cases at_ with ⟨rfl, rfl⟩ | ⟨-, old⟩
    · rfl
    · exact serial.previous other held old
  case performed =>
    have := serial.performed
    simp only [length_append, length_singleton, range_succ]
    rw [← this, isNext]
  case bounded =>
    simp only [length_append, length_singleton, length_set]
    omega
  case ended =>
    intro other held at_
    simp only [length_append, length_singleton]
    rcases getElem?_set_cases at_ with ⟨rfl, rfl⟩ | ⟨apart, old⟩
    · simp only [Option.isSome_some, true_iff]
      omega
    · rw [serial.ended other held old]
      omega
  case told =>
    intro other held outcome told at_ ended
    rcases getElem?_set_cases at_ with ⟨rfl, rfl⟩ | ⟨apart, old⟩
    · obtain ⟨rfl, rfl⟩ := Prod.mk.inj (Option.some.inj ended)
      refine ⟨earlier, ?_, rfl⟩
      rw [← awaited]
      exact awaited_set fun same => Nat.lt_irrefl _ (lt_of_ppred same)
    · obtain ⟨before, told', same⟩ := serial.told other held outcome told old ended
      refine ⟨before, ?_, same⟩
      rw [← told']
      refine awaited_set fun is => ?_
      have := lt_of_ppred is
      have := (serial.ended other held old).mp (by rw [ended]; rfl)
      omega
  case applied =>
    have parts := drop_eq_getElem_cons inside
    rw [(List.getElem?_eq_some_iff.mp found).2] at parts
    have waiting : ∀ other ∈ write :: chain.writes.drop (number + 1), other.effect = none := by
      rw [← parts, isNext]
      exact fun other member => serial.effect_eq_none member
    have done : chain.applied = (chain.writes.take number).filterMap Write.effect := by
      have rest : (chain.writes.drop number).filterMap Write.effect = [] := by
        rw [parts, filterMap_eq_nil_iff]
        exact waiting
      rw [serial.applied, ← take_append_drop number chain.writes, filterMap_append,
        take_append_drop, rest, append_nil]
    have rest : (chain.writes.drop (number + 1)).filterMap Write.effect = [] :=
      filterMap_eq_nil_iff.mpr fun other member => waiting other (mem_cons_of_mem _ member)
    simp only [set_eq_take_append_cons_drop, inside, ↓reduceIte, filterMap_append,
      filterMap_cons, rest, ← done, Write.effect]
    split <;> simp

/-- Ending a write leaves the payloads. -/
theorem payloads_perform (step : chain.perform policy number result = some after) :
    after.payloads = chain.payloads := by
  unfold perform at step
  split at step
  · cases step
  · rename_i write found
    split at step
    · rw [← Option.some.inj step]
      have inside := (List.getElem?_eq_some_iff.mp found).1
      have same := (List.getElem?_eq_some_iff.mp found).2
      simp only [payloads, map_set]
      rw [← same, ← getElem_map Write.payload (h := by simpa using inside),
        set_getElem_self]
    · cases step

/-- What is told of a write that has ended follows the policy. -/
theorem Serial.awaited_of_outcome (serial : Serial policy chain)
    (ended : chain.outcome number = some result) :
    ∃ earlier, chain.awaited number.ppred = some earlier ∧
      chain.awaited (some number) = some (policy earlier result.error) := by
  simp only [outcome, Option.map_eq_some_iff, Option.bind_eq_some_iff] at ended
  obtain ⟨⟨outcome, told⟩, ⟨write, found, ended⟩, rfl⟩ := ended
  obtain ⟨earlier, awaited, same⟩ := serial.told number write outcome told found ended
  exact ⟨earlier, awaited, by simp [Chain.awaited, found, ended, same]⟩

theorem awaited_of_outcome_none (waits : chain.outcome number = none) :
    chain.awaited (some number) = none := by
  simpa [outcome, awaited] using waits

/-- Where errors are swallowed, a write is told of by its own. -/
theorem Serial.awaited_swallow (serial : Serial swallow chain) :
    chain.awaited (some number) = (chain.outcome number).map Outcome.error := by
  cases ended : chain.outcome number with
  | none => exact awaited_of_outcome_none ended
  | some result =>
    obtain ⟨earlier, -, told⟩ := serial.awaited_of_outcome ended
    exact told

theorem Serial.outcome_isSome (serial : Serial policy chain) (inside : number < chain.writes.length) :
    (chain.outcome number).isSome ↔ number < chain.performed.length := by
  rw [← serial.awaited_isSome inside, outcome, awaited, Option.isSome_map, Option.isSome_map]

/-- Where the first error stays, nothing is wrong if no write has failed so far. -/
theorem Serial.awaited_latch_iff (serial : Serial latch chain) :
    chain.awaited (some number) = some none ↔
      ∀ earlier ≤ number, (chain.outcome earlier).map Outcome.error = some none := by
  induction number with
  | zero =>
    cases ended : chain.outcome 0 with
    | none => simp [awaited_of_outcome_none ended, ended]
    | some result =>
      obtain ⟨earlier, first, told⟩ := serial.awaited_of_outcome ended
      cases first
      simp [told, ended, latch]
  | succ number ih =>
    cases ended : chain.outcome (number + 1) with
    | none =>
      rw [awaited_of_outcome_none ended]
      refine ⟨nofun, fun all => ?_⟩
      have := all (number + 1) le_rfl
      simp [ended] at this
    | some result =>
      obtain ⟨earlier, before, told⟩ := serial.awaited_of_outcome ended
      rw [Nat.ppred_succ] at before
      simp only [Nat.le_succ_iff, or_imp, forall_and, forall_eq]
      rw [← ih, before, told, ended]
      simp [latch, Option.or_eq_none_iff]

/-- Enqueuing changes no outcome. -/
theorem outcome_enqueue (chain : Chain Payload) (payload : Payload) (number : Nat) :
    (chain.enqueue payload).outcome number = chain.outcome number := by
  rcases Nat.lt_trichotomy number chain.writes.length with below | last | above
  · simp [outcome, enqueue, getElem?_append_left below]
  · simp [outcome, enqueue, last]
  · have beyond : chain.writes[number]? = none := getElem?_eq_none (by omega)
    have beyond' : (chain.enqueue payload).writes[number]? = none :=
      getElem?_eq_none (by simp [enqueue]; omega)
    simp [outcome, beyond, beyond']

theorem outcome_foldl_enqueue (chain : Chain Payload) (added : List Payload) (number : Nat) :
    (added.foldl enqueue chain).outcome number = chain.outcome number := by
  induction added generalizing chain with
  | nil => rfl
  | cons payload rest ih => rw [foldl_cons, ih, outcome_enqueue]

/-- What has been told stays when a write is enqueued. -/
theorem awaited_enqueue (known : chain.awaited barrier = some told) (payload : Payload) :
    (chain.enqueue payload).awaited barrier = some told := by
  rw [← known]
  refine awaited_append fun number is => ?_
  subst is
  by_contra outside
  rw [awaited, getElem?_eq_none (by omega)] at known
  cases known

theorem awaited_foldl_enqueue (known : chain.awaited barrier = some told) (added : List Payload) :
    (added.foldl Chain.enqueue chain).awaited barrier = some told := by
  induction added generalizing chain with
  | nil => exact known
  | cons payload rest ih => exact ih (awaited_enqueue known payload)

/-- What has been told stays when a write ends. -/
theorem Serial.awaited_perform (serial : Serial policy chain)
    (known : chain.awaited barrier = some told)
    (step : chain.perform policy number result = some after) :
    after.awaited barrier = some told := by
  obtain ⟨isNext, write, earlier, found, -, rfl⟩ := serial.perform_cases step
  rw [← known]
  refine awaited_set fun same => ?_
  have inside : number < chain.writes.length := (List.getElem?_eq_some_iff.mp found).1
  rw [same] at known
  have := (serial.awaited_isSome inside).mp (Option.isSome_iff_exists.mpr ⟨told, known⟩)
  omega

/-- A write that ends changes its own outcome only. -/
theorem Serial.outcome_perform (serial : Serial policy chain)
    (step : chain.perform policy number result = some after) (other : Nat) :
    after.outcome other = if other = number then some result else chain.outcome other := by
  obtain ⟨-, write, earlier, found, -, rfl⟩ := serial.perform_cases step
  have inside : number < chain.writes.length := (List.getElem?_eq_some_iff.mp found).1
  by_cases same : other = number
  · simp [outcome, same, inside]
  · simp [outcome, same, getElem?_set_ne (Ne.symm same)]

/-- The first writes of a chain have ended, those that had not before with given outcomes. -/
structure Drained (policy : Policy) (outcomes : Nat → Outcome) (chain : Chain Payload) (count : Nat)
    (after : Chain Payload) : Prop where
  serial : Serial policy after
  payloads : after.payloads = chain.payloads
  tail : after.tail = chain.tail
  reached : count ≤ after.performed.length
  outcome : ∀ number, after.outcome number =
    (chain.outcome number).or (if number < count then some (outcomes number) else none)

/-- Writes that end one after the other drain the chain. -/
theorem Serial.drained_foldl (serial : Serial policy chain) (outcomes : Nat → Outcome) {count : Nat}
    (inside : count ≤ chain.writes.length) :
    Drained policy outcomes chain count ((range count).foldl (fun chain number =>
      (chain.perform policy number (outcomes number)).getD chain) chain) := by
  induction count with
  | zero => exact ⟨serial, rfl, rfl, Nat.zero_le _, by simp⟩
  | succ count ih =>
    have drained := ih (by omega)
    rw [range_succ, foldl_append, foldl_cons, foldl_nil]
    generalize (range count).foldl (fun chain number =>
      (chain.perform policy number (outcomes number)).getD chain) chain = before at drained ⊢
    have length : before.writes.length = chain.writes.length := by
      rw [← length_payloads, drained.payloads, length_payloads]
    have ended : (before.outcome count).isSome ↔ count < before.performed.length :=
      drained.serial.outcome_isSome (by omega)
    rw [drained.outcome count, if_neg (Nat.lt_irrefl count), Option.or_none] at ended
    rcases Nat.lt_or_eq_of_le drained.reached with past | next
    · -- the write had ended before
      have refused : before.perform policy count (outcomes count) = none := by
        rw [Option.eq_none_iff_forall_ne_some]
        intro after step
        have := (drained.serial.perform_cases step).1
        omega
      rw [refused, Option.getD_none]
      refine ⟨drained.serial, drained.payloads, drained.tail, past, fun number => ?_⟩
      rw [drained.outcome number]
      by_cases same : number = count
      · obtain ⟨result, held⟩ := Option.isSome_iff_exists.mp (ended.mpr past)
        simp [same, held]
      · simp [show number < count + 1 ↔ number < count by omega]
    · obtain ⟨after, step⟩ := drained.serial.perform_next (by omega) (outcomes count)
      rw [← next] at step
      rw [step, Option.getD_some]
      have waits : chain.outcome count = none := by
        rw [← Option.not_isSome_iff_eq_none, ended]
        omega
      refine ⟨drained.serial.perform step, ?_, ?_, ?_, fun number => ?_⟩
      · rw [payloads_perform step, drained.payloads]
      · obtain ⟨-, write, earlier, -, -, rfl⟩ := drained.serial.perform_cases step
        exact drained.tail
      · obtain ⟨-, write, earlier, -, -, rfl⟩ := drained.serial.perform_cases step
        simp only [length_append, length_singleton]
        omega
      · rw [drained.serial.outcome_perform step, drained.outcome number]
        by_cases same : number = count
        · simp [same, waits]
        · simp [same, show number < count + 1 ↔ number < count by omega]

theorem Serial.drained (serial : Serial policy chain) (outcomes : Nat → Outcome) :
    Drained policy outcomes chain chain.writes.length (chain.drain policy outcomes) :=
  serial.drained_foldl outcomes le_rfl

theorem Drained.length {outcomes : Nat → Outcome} {count : Nat}
    (drained : Drained policy outcomes chain count after) :
    after.writes.length = chain.writes.length := by
  rw [← length_payloads, drained.payloads, length_payloads]

/-- A drained write has the outcome it had, or the one it was given. -/
theorem Drained.outcome_of_lt {outcomes : Nat → Outcome} {count : Nat}
    (drained : Drained policy outcomes chain count after) (inside : number < count) :
    after.outcome number = some ((chain.outcome number).getD (outcomes number)) := by
  rw [drained.outcome number, if_pos inside]
  cases chain.outcome number <;> rfl

/-- Where errors are swallowed, a drained chain tells of its last write. -/
theorem Serial.drain_swallow (serial : Serial swallow chain) (outcomes : Nat → Outcome) :
    ((chain.drain swallow outcomes).awaited (chain.drain swallow outcomes).tail).join = none ↔
      ∀ last, chain.writes.length = last + 1 →
        ((chain.outcome last).getD (outcomes last)).error = none := by
  have drained := serial.drained outcomes
  rw [drained.serial.tail, drained.length]
  cases count : chain.writes.length with
  | zero => simp [awaited]
  | succ last =>
    rw [Nat.ppred_succ, drained.serial.awaited_swallow, drained.outcome_of_lt (by omega)]
    simp

/-- Where the first error stays, a drained chain tells of every write. -/
theorem Serial.drain_latch (serial : Serial latch chain) (outcomes : Nat → Outcome) :
    ((chain.drain latch outcomes).awaited (chain.drain latch outcomes).tail).join = none ↔
      ∀ number < chain.writes.length,
        ((chain.outcome number).getD (outcomes number)).error = none := by
  have drained := serial.drained outcomes
  rw [drained.serial.tail, drained.length]
  cases count : chain.writes.length with
  | zero => simp [awaited]
  | succ last =>
    have past : ((chain.drain latch outcomes).awaited (some last)).isSome :=
      (drained.serial.awaited_isSome (by rw [drained.length]; omega)).mpr
        (lt_of_lt_of_le (by omega) drained.reached)
    obtain ⟨told, known⟩ := Option.isSome_iff_exists.mp past
    have fine : ((chain.drain latch outcomes).awaited (some last)).join = none ↔
        (chain.drain latch outcomes).awaited (some last) = some none := by
      simp [known]
    rw [Nat.ppred_succ, fine, drained.serial.awaited_latch_iff]
    refine forall_congr' fun number => ?_
    rw [Nat.lt_succ_iff]
    refine imp_congr_right fun inside => ?_
    rw [drained.outcome_of_lt (by omega)]
    simp

end Chain

end Durable
