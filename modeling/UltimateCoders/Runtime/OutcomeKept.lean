import UltimateCoders.Runtime.Outbox
import UltimateCoders.Transition.History

/-! # Outcomes are superseded by later attempts only

A record that was compacted has lost the number of its attempt, so any attempt replaces it. As
long as only later attempts are stored over tombstones, no attempt is ever replaced by an earlier
one, and what was delivered is not delivered again. A claim delivers nothing but the outcome it
was taken on.
-/

namespace UltimateCoders.Runtime

open OutboxCall List

variable {Event Update : Type}

structure Outcome (Event Update : Type) where
  attempt : Nat
  fingerprint : String
  event : Event
  update : Update
  deriving DecidableEq

def carried (record : Stored Event Update) : Option (Outcome Event Update) := do
  let record ← record
  return ⟨← record.attempt, ← record.fingerprint, ← record.event, ← record.update⟩

def isDelivered (record : Stored Event Update) : Bool :=
  match record with
  | some record => record.delivered
  | none => false

def tokenOf (record : Stored Event Update) : Option String := record.bind OutcomeRecord.token

/-- A token that the record accepts, and that has not expired. -/
def Live (record : Stored Event Update) (token : String) (now : Seconds) : Prop :=
  ∃ found claim, record = some found ∧ found.deliveryClaim = some claim ∧ claim.token = token ∧
    now < claim.expiresAt

def IsTombstone (record : Stored Event Update) : Prop :=
  ∃ deliveredAt, record = some { delivered := true, tombstone := true, deliveredAt := deliveredAt }

theorem carried_eq_some {record : Stored Event Update} {outcome : Outcome Event Update} :
    carried record = some outcome ↔ ∃ found, record = some found ∧
      found.attempt = some outcome.attempt ∧ found.fingerprint = some outcome.fingerprint ∧
      found.event = some outcome.event ∧ found.update = some outcome.update := by
  cases record with
  | none => simp [carried]
  | some found =>
    obtain ⟨attempt, fingerprint, event, update⟩ := outcome
    simp only [carried, Option.bind_eq_bind, Option.bind_some, Option.bind_eq_some_iff,
      Option.pure_def, Option.some.injEq, Outcome.mk.injEq]
    constructor
    · rintro ⟨_, first, _, second, _, third, _, fourth, rfl, rfl, rfl, rfl⟩
      exact ⟨found, rfl, first, second, third, fourth⟩
    · rintro ⟨_, rfl, first, second, third, fourth⟩
      exact ⟨_, first, _, second, _, third, _, fourth, rfl, rfl, rfl, rfl⟩

section Step

variable {record : Stored Event Update} {outcome : Outcome Event Update}

/-- A record with an outcome is superseded by a later attempt, keeps its outcome, or becomes a
tombstone. -/
theorem perform_carried (carries : carried record = some outcome)
    (call : OutboxCall Event Update) :
    (∃ attempt fingerprint event update, call = .store attempt fingerprint event update ∧
      outcome.attempt < attempt ∧
      carried (call.perform record) = some ⟨attempt, fingerprint, event, update⟩) ∨
    (carried (call.perform record) = some outcome ∧
      (isDelivered record → isDelivered (call.perform record))) ∨
    IsTombstone (call.perform record) := by
  obtain ⟨found, rfl, attempt, fingerprint, event, update⟩ := carried_eq_some.mp carries
  have stored : found.storedAttempt = outcome.attempt := by
    rw [OutcomeRecord.storedAttempt, attempt]
  cases call with
  | store newer newFingerprint newEvent newUpdate =>
    by_cases later : outcome.attempt < newer
    · left
      refine ⟨newer, newFingerprint, newEvent, newUpdate, rfl, later, ?_⟩
      have notBelow : ¬ (newer : Int) < found.storedAttempt := by omega
      have notSame : ¬ (newer : Int) = found.storedAttempt := by omega
      simp only [perform, OutcomeOutbox.store, if_neg notBelow, if_neg notSame]
      rfl
    · right; left
      have kept : OutcomeOutbox.store newer newFingerprint newEvent newUpdate (some found) =
          found := by
        simp only [OutcomeOutbox.store]
        split
        · rfl
        · rw [if_pos (by omega)]
      simp only [perform, kept]
      exact ⟨carries, id⟩
  | claim token now ttl =>
    right; left
    simp only [perform, OutcomeOutbox.claimed]
    split
    · exact ⟨carries, id⟩
    · exact ⟨carries, id⟩
  | renew token now later ttl =>
    right; left
    simp only [perform, OutcomeOutbox.renew]
    split
    · rename_i renewed same
      split at same
      · cases same
        exact ⟨carries, id⟩
      · cases same
    · exact ⟨carries, id⟩
  | finish token delivered now later =>
    right; left
    simp only [perform, OutcomeOutbox.finish]
    split
    · cases delivered with
      | true => exact ⟨carries, fun _ => rfl⟩
      | false => exact ⟨carries, id⟩
    · exact ⟨carries, id⟩
  | compact olderThan =>
    right
    simp only [perform, RuntimeState.compact]
    split
    · exact .inr ⟨_, rfl⟩
    · exact .inl ⟨carries, id⟩

theorem perform_tombstone (tombstone : IsTombstone record) (call : OutboxCall Event Update) :
    (∃ attempt fingerprint event update, call = .store attempt fingerprint event update ∧
      carried (call.perform record) = some ⟨attempt, fingerprint, event, update⟩) ∨
    IsTombstone (call.perform record) := by
  obtain ⟨deliveredAt, rfl⟩ := tombstone
  cases call with
  | store attempt fingerprint event update =>
    left
    refine ⟨attempt, fingerprint, event, update, rfl, ?_⟩
    have newest : ¬ (attempt : Int) < -1 ∧ ¬ (attempt : Int) = -1 := by omega
    simp only [perform, OutcomeOutbox.store, OutcomeRecord.storedAttempt, newest,
      if_false]
    rfl
  | claim token now ttl =>
    right
    simp only [perform, OutcomeOutbox.claimed, true_or, if_true]
    exact ⟨deliveredAt, rfl⟩
  | renew token now later ttl | finish token delivered now later => exact .inr ⟨deliveredAt, rfl⟩
  | compact olderThan =>
    right
    simp only [perform, RuntimeState.compact]
    split <;> exact ⟨deliveredAt, rfl⟩

/-- Only a claim puts a token on a record, and only another outcome or the end of the claim takes
it away; so the token of a record with an outcome stays, is new, or is gone. -/
theorem tokenOf_perform (call : OutboxCall Event Update) {token : String}
    (here : tokenOf (call.perform record) = some token) :
    (∃ now ttl, call = .claim token now ttl ∧
        (OutcomeOutbox.claim token now ttl record).isSome ∧
        carried (call.perform record) = carried record) ∨
      tokenOf record = some token ∧ carried (call.perform record) = carried record := by
  cases record with
  | none =>
    cases call <;> simp [perform, OutcomeOutbox.store, OutcomeOutbox.claimed,
      OutcomeOutbox.renew, OutcomeOutbox.finish, RuntimeState.compact, tokenOf,
      OutcomeRecord.token] at here
  | some found =>
    cases call with
    | store attempt fingerprint event update =>
      right
      simp only [perform, OutcomeOutbox.store] at here ⊢
      split at here
      · rename_i below
        rw [if_pos below]
        exact ⟨here, rfl⟩
      · rename_i notBelow
        rw [if_neg notBelow]
        split at here
        · rename_i same
          rw [if_pos same]
          exact ⟨here, rfl⟩
        · simp [tokenOf, OutcomeRecord.token] at here
    | claim other now ttl =>
      simp only [perform, OutcomeOutbox.claimed] at here ⊢
      split at here
      · rename_i held
        rw [if_pos held]
        exact .inr ⟨here, rfl⟩
      · rename_i open_
        left
        obtain rfl : other = token := Option.some.inj here
        refine ⟨now, ttl, rfl, ?_, ?_⟩
        · simp only [OutcomeOutbox.claim, OutcomeOutbox.claimed, if_neg open_,
            OutcomeRecord.token, Option.map_some, if_true, Option.isSome_some]
        · rw [if_neg open_]
          rfl
    | renew other now later ttl =>
      right
      simp only [perform, OutcomeOutbox.renew] at here ⊢
      by_cases own : found.token = some other
      · simp only [if_pos own] at here ⊢
        obtain rfl : other = token := Option.some.inj here
        exact ⟨own, rfl⟩
      · simp only [if_neg own] at here ⊢
        exact ⟨here, trivial⟩
    | finish other delivered now later =>
      right
      simp only [perform, OutcomeOutbox.finish] at here ⊢
      split at here
      · cases delivered <;> cases here
      · rename_i foreign
        rw [if_neg foreign]
        exact ⟨here, rfl⟩
    | compact olderThan =>
      right
      simp only [perform, RuntimeState.compact] at here ⊢
      split at here
      · cases here
      · rename_i young
        rw [if_neg young]
        exact ⟨here, rfl⟩

end Step

def Granted (calls : List (OutboxCall Event Update)) (token : String)
    (outcome : Outcome Event Update) : Prop :=
  ∃ earlier now ttl later, calls = earlier ++ .claim token now ttl :: later ∧
    (OutcomeOutbox.claim token now ttl (recordAfter earlier)).isSome ∧
    carried (recordAfter earlier) = some outcome

def claimTokens (calls : List (OutboxCall Event Update)) : List String :=
  calls.filterMap fun call =>
    match call with
    | .claim token _ _ => some token
    | _ => none

/-- The record carries the newest outcome, what was delivered is pending again only for a later
attempt, a claim delivers the outcome it was taken on, and one is granted only where no other is
unexpired. -/
structure OutboxKept (calls : List (OutboxCall Event Update)) : Prop where
  newest : ∀ earlier later, calls = earlier ++ later → ∀ old,
    carried (recordAfter earlier) = some old → ∀ outcome,
      carried (recordAfter calls) = some outcome → old.attempt < outcome.attempt ∨ outcome = old
  delivered : ∀ earlier later, calls = earlier ++ later → ∀ old,
    carried (recordAfter earlier) = some old → isDelivered (recordAfter earlier) →
      isDelivered (recordAfter calls) = false →
      ∃ attempt fingerprint event update, .store attempt fingerprint event update ∈ later ∧
        old.attempt < attempt
  ownClaim : ∀ earlier token now later, calls = earlier ++ [.finish token true now later] →
    isDelivered (recordAfter earlier) = false → isDelivered (recordAfter calls) →
      (∃ outcome, Granted earlier token outcome) ∧
        ∀ outcome, Granted earlier token outcome → carried (recordAfter calls) = some outcome
  oneClaim : ∀ earlier token now ttl, calls = earlier ++ [.claim token now ttl] →
    (OutcomeOutbox.claim token now ttl (recordAfter earlier)).isSome →
      ∀ other, ¬ Live (recordAfter earlier) other now
  single : ∀ first second now, Live (recordAfter calls) first now →
    Live (recordAfter calls) second now → first = second

def StoresAbove (calls : List (OutboxCall Event Update)) : Prop :=
  ∀ earlier attempt fingerprint event update later,
    calls = earlier ++ .store attempt fingerprint event update :: later →
    IsTombstone (recordAfter earlier) →
      ∀ first rest, earlier = first ++ rest → ∀ old, carried (recordAfter first) = some old →
        old.attempt < attempt

section Runs

variable {calls : List (OutboxCall Event Update)} {call : OutboxCall Event Update} {token : String}
  {old outcome : Outcome Event Update}

theorem recordAfter_cases (calls : List (OutboxCall Event Update)) :
    recordAfter calls = none ∨ IsTombstone (recordAfter calls) ∨
      ∃ outcome, carried (recordAfter calls) = some outcome := by
  induction calls using reverseRecOn with
  | nil => exact .inl rfl
  | append_singleton calls call ih =>
    rw [recordAfter_snoc]
    rcases ih with none | tombstone | ⟨outcome, carries⟩
    · rw [none]
      cases call with
      | store attempt fingerprint event update => exact .inr (.inr ⟨_, rfl⟩)
      | claim | renew | finish | compact => exact .inl rfl
    · rcases perform_tombstone tombstone call with ⟨_, _, _, _, -, carries⟩ | still
      · exact .inr (.inr ⟨_, carries⟩)
      · exact .inr (.inl still)
    · rcases perform_carried carries call with
        ⟨_, _, _, _, -, -, newer⟩ | ⟨same, -⟩ | tombstone
      · exact .inr (.inr ⟨_, newer⟩)
      · exact .inr (.inr ⟨_, same⟩)
      · exact .inr (.inl tombstone)

theorem isDelivered_tombstone {record : Stored Event Update} (tombstone : IsTombstone record) :
    isDelivered record ∧ carried record = none := by
  obtain ⟨_, rfl⟩ := tombstone
  exact ⟨rfl, rfl⟩

theorem carried_since (above : StoresAbove calls) :
    ∀ earlier later, calls = earlier ++ later → carried (recordAfter earlier) = some old →
      (∃ outcome, carried (recordAfter calls) = some outcome ∧
        ((∃ attempt fingerprint event update, .store attempt fingerprint event update ∈ later ∧
            old.attempt < attempt ∧ outcome.attempt = attempt) ∨
          outcome = old ∧ (isDelivered (recordAfter earlier) → isDelivered (recordAfter calls)))) ∨
      IsTombstone (recordAfter calls) := by
  induction calls using reverseRecOn with
  | nil =>
    intro earlier later same carries
    obtain ⟨rfl, rfl⟩ := append_eq_nil_iff.mp same.symm
    exact .inl ⟨old, carries, .inr ⟨rfl, id⟩⟩
  | append_singleton calls call ih =>
    intro earlier later same carries
    rcases eq_nil_or_concat later with rfl | ⟨middle, last, rfl⟩
    · rw [same, append_nil]
      exact .inl ⟨old, carries, .inr ⟨rfl, id⟩⟩
    · rw [concat_eq_append, ← append_assoc] at same
      rw [concat_eq_append]
      obtain ⟨rfl, here⟩ := append_inj' same rfl
      obtain rfl : call = last := by simpa using here
      have before : StoresAbove (earlier ++ middle) :=
        fun first attempt fingerprint event update rest split =>
          above first attempt fingerprint event update (rest ++ [call]) (by simp [split])
      rw [recordAfter_snoc]
      rcases ih before earlier middle rfl carries with ⟨outcome, now, told⟩ | tombstone
      · rcases perform_carried now call with
          ⟨attempt, fingerprint, event, update, rfl, later, newer⟩ | ⟨kept, delivered⟩ | tombstone
        · refine .inl ⟨_, newer, .inl ⟨attempt, fingerprint, event, update, by simp, ?_, rfl⟩⟩
          rcases told with ⟨_, _, _, _, -, above, rfl⟩ | ⟨rfl, -⟩
          · exact above.trans later
          · exact later
        · refine .inl ⟨outcome, kept, told.imp ?_ ?_⟩
          · rintro ⟨attempt, fingerprint, event, update, member, above⟩
            exact ⟨attempt, fingerprint, event, update, mem_append_left _ member, above⟩
          · exact fun both => ⟨both.1, fun was => delivered (both.2 was)⟩
        · exact .inr tombstone
      · rcases perform_tombstone tombstone call with
          ⟨attempt, fingerprint, event, update, rfl, stored⟩ | still
        · refine .inl ⟨_, stored, .inl ⟨attempt, fingerprint, event, update, by simp, ?_, rfl⟩⟩
          exact above (earlier ++ middle) attempt fingerprint event update [] rfl tombstone
            earlier middle rfl old carries
        · exact .inr still

theorem claimTokens_snoc : claimTokens (calls ++ [call]) = claimTokens calls ++
    (match call with | .claim token _ _ => [token] | _ => []) := by
  rw [claimTokens, filterMap_append]
  cases call <;> rfl

theorem granted_snoc_iff : Granted (calls ++ [call]) token outcome ↔
    Granted calls token outcome ∨ ∃ now ttl, call = .claim token now ttl ∧
      (OutcomeOutbox.claim token now ttl (recordAfter calls)).isSome ∧
      carried (recordAfter calls) = some outcome := by
  constructor
  · rintro ⟨earlier, now, ttl, later, same, granted, carries⟩
    rcases Transition.append_singleton_eq same with ⟨rfl, here, -⟩ | ⟨middle, -, rfl⟩
    · exact .inr ⟨now, ttl, here.symm, granted, carries⟩
    · exact .inl ⟨earlier, now, ttl, middle, rfl, granted, carries⟩
  · rintro (⟨earlier, now, ttl, later, rfl, granted, carries⟩ | ⟨now, ttl, rfl, granted, carries⟩)
    · exact ⟨earlier, now, ttl, later ++ [call], by simp, granted, carries⟩
    · exact ⟨calls, now, ttl, [], rfl, granted, carries⟩

theorem Granted.mem_claimTokens (granted : Granted calls token outcome) :
    token ∈ claimTokens calls := by
  obtain ⟨earlier, now, ttl, later, rfl, -, -⟩ := granted
  exact mem_filterMap.mpr ⟨.claim token now ttl, by simp, rfl⟩

theorem granted_of_tokenOf (distinct : (claimTokens calls).Nodup)
    (here : tokenOf (recordAfter calls) = some token) :
    (∃ outcome, Granted calls token outcome) ∧
      ∀ outcome, Granted calls token outcome → carried (recordAfter calls) = some outcome := by
  induction calls using reverseRecOn with
  | nil => cases here
  | append_singleton calls call ih =>
    rw [recordAfter_snoc] at here ⊢
    rw [claimTokens_snoc] at distinct
    rcases tokenOf_perform call here with ⟨now, ttl, rfl, granted, same⟩ | ⟨had, same⟩
    · have absent : token ∉ claimTokens calls := fun member =>
        (nodup_append.mp distinct).2.2 token member token (by simp) rfl
      have carries : ∃ outcome, carried (recordAfter calls) = some outcome := by
        rcases recordAfter_cases calls with none | ⟨_, tombstone⟩ | carries
        · rw [none] at granted
          cases granted
        · rw [tombstone] at granted
          simp [OutcomeOutbox.claim, OutcomeOutbox.claimed, OutcomeRecord.token] at granted
        · exact carries
      obtain ⟨outcome, carries⟩ := carries
      refine ⟨⟨outcome, granted_snoc_iff.mpr (.inr ⟨now, ttl, rfl, granted, carries⟩)⟩, ?_⟩
      intro other taken
      rw [same]
      rcases granted_snoc_iff.mp taken with old | ⟨_, _, -, -, now⟩
      · exact absurd old.mem_claimTokens absent
      · exact now
    · have told := ih (nodup_append.mp distinct).1 had
      obtain ⟨outcome, granted⟩ := told.1
      refine ⟨⟨outcome, granted_snoc_iff.mpr (.inl granted)⟩, ?_⟩
      intro other taken
      rw [same]
      rcases granted_snoc_iff.mp taken with old | ⟨now, ttl, rfl, -, -⟩
      · exact told.2 other old
      · exact absurd granted.mem_claimTokens fun member =>
          (nodup_append.mp distinct).2.2 token member token (by simp) rfl

theorem tokenOf_of_finish {record : Stored Event Update} {now later : Seconds}
    (pending : isDelivered record = false)
    (delivered : isDelivered (perform record (.finish token true now later)) = true) :
    tokenOf record = some token ∧
      carried (perform record (.finish token true now later)) = carried record := by
  cases record with
  | none => cases delivered
  | some found =>
    by_cases own : found.token = some token
    · refine ⟨own, ?_⟩
      simp only [perform, OutcomeOutbox.finish, if_pos own, if_true]
      rfl
    · simp only [perform, OutcomeOutbox.finish, if_neg own, pending] at delivered
      cases delivered

theorem not_live_of_granted {record : Stored Event Update} {now ttl : Seconds}
    (new : tokenOf record ≠ some token)
    (granted : (OutcomeOutbox.claim token now ttl record).isSome) (other : String) :
    ¬ Live record other now := by
  rintro ⟨found, claim, rfl, holds, rfl, unexpired⟩
  have expires : found.claimExpiresAt = claim.expiresAt := by
    rw [OutcomeRecord.claimExpiresAt, holds]
  have refused : OutcomeOutbox.claimed token now ttl (some found) = some found :=
    if_pos (.inr (.inr (by rwa [expires])))
  simp only [OutcomeOutbox.claim, refused] at granted
  split at granted
  · rename_i same
    exact new same
  · cases granted

/-- As long as only later attempts are stored over tombstones, outcomes are superseded by later
attempts only and delivered once, each under the claim that was taken on it. -/
theorem outboxKept_of_storesAbove (distinct : (claimTokens calls).Nodup)
    (above : StoresAbove calls) : OutboxKept calls where
  newest earlier later same old carries outcome now := by
    rcases carried_since above earlier later same carries with ⟨found, here, told⟩ | tombstone
    · obtain rfl : found = outcome := Option.some.inj (here.symm.trans now)
      rcases told with ⟨_, _, _, _, -, later, rfl⟩ | ⟨rfl, -⟩
      · exact .inl later
      · exact .inr rfl
    · rw [(isDelivered_tombstone tombstone).2] at now
      cases now
  delivered earlier later same old carries was pending := by
    rcases carried_since above earlier later same carries with ⟨found, -, told⟩ | tombstone
    · rcases told with ⟨attempt, fingerprint, event, update, member, later, -⟩ | ⟨-, kept⟩
      · exact ⟨attempt, fingerprint, event, update, member, later⟩
      · rw [kept was] at pending
        cases pending
    · rw [(isDelivered_tombstone tombstone).1] at pending
      cases pending
  ownClaim earlier token now later same pending delivered := by
    subst same
    rw [recordAfter_snoc] at delivered ⊢
    obtain ⟨here, kept⟩ := tokenOf_of_finish pending delivered
    rw [claimTokens_snoc] at distinct
    obtain ⟨some, own⟩ := granted_of_tokenOf (nodup_append.mp distinct).1 here
    exact ⟨some, fun outcome granted => kept.trans (own outcome granted)⟩
  oneClaim earlier token now ttl same granted := by
    subst same
    rw [claimTokens_snoc] at distinct
    refine not_live_of_granted (fun here => ?_) granted
    obtain ⟨outcome, taken⟩ :=
      (granted_of_tokenOf (nodup_append.mp distinct).1 here).1
    exact (nodup_append.mp distinct).2.2 token taken.mem_claimTokens token (by simp) rfl
  single first second now := by
    rintro ⟨found, claim, here, holds, rfl, -⟩ ⟨other, claimed, there, held, rfl, -⟩
    rw [here, Option.some.injEq] at there
    subst there
    rw [holds, Option.some.injEq] at held
    rw [held]

end Runs

def carriedAttempt (record : Stored Event Update) : List Nat :=
  (carried record).toList.map Outcome.attempt

/-- Stores over tombstones are seen to be of later attempts than those carried so far. -/
def staysAbove (record : Stored Event Update) (attempts : List Nat) :
    List (OutboxCall Event Update) → Bool
  | [] => true
  | call :: rest =>
    (match call with
      | .store attempt _ _ _ =>
        !record.any OutcomeRecord.tombstone || attempts.all (· < attempt)
      | _ => true) &&
    staysAbove (call.perform record) (attempts ++ carriedAttempt (call.perform record)) rest

theorem above_of_staysAbove {calls : List (OutboxCall Event Update)}
    (done : List (OutboxCall Event Update)) {attempts : List Nat}
    (known : ∀ first rest, done = first ++ rest → ∀ old : Outcome Event Update,
      carried (recordAfter first) = some old → old.attempt ∈ attempts)
    (passed : staysAbove (recordAfter done) attempts calls) :
    ∀ middle attempt fingerprint event update later,
      calls = middle ++ .store attempt fingerprint event update :: later →
      IsTombstone (recordAfter (done ++ middle)) →
        ∀ first rest, done ++ middle = first ++ rest → ∀ old : Outcome Event Update,
          carried (recordAfter first) = some old → old.attempt < attempt := by
  induction calls generalizing done attempts with
  | nil =>
    intro middle attempt fingerprint event update later same
    cases middle <;> cases same
  | cons call rest ih =>
    intro middle attempt fingerprint event update later same tombstone first others split old
      carries
    obtain ⟨here, onward⟩ := (Bool.and_eq_true _ _).mp passed
    cases middle with
    | nil =>
      obtain ⟨rfl, -⟩ := cons.inj same
      rw [append_nil] at tombstone split
      obtain ⟨_, buried⟩ := tombstone
      have all : ∀ one ∈ attempts, one < attempt := by simpa [buried] using here
      exact all _ (known first others split old carries)
    | cons head middle =>
      rw [cons_append, cons.injEq] at same
      obtain ⟨rfl, same⟩ := same
      rw [← recordAfter_snoc] at onward
      refine ih (done ++ [call]) ?_ onward middle attempt fingerprint event update later same
        (by simpa using tombstone) first others (by simpa using split) old carries
      intro first others split old carries
      rcases eq_nil_or_concat others with rfl | ⟨others, last, rfl⟩
      · rw [append_nil] at split
        subst split
        rw [carriedAttempt, carries]
        exact mem_append_right _ (mem_singleton_self _)
      · rw [concat_eq_append, ← append_assoc] at split
        exact mem_append_left _ (known first others (append_inj' split rfl).1 old carries)

theorem storesAbove_of_staysAbove {calls : List (OutboxCall Event Update)}
    (passed : staysAbove none [] calls) : StoresAbove calls := by
  intro earlier attempt fingerprint event update later same tombstone first rest split
  refine above_of_staysAbove [] ?_ passed earlier attempt fingerprint event update later same
    tombstone first rest split
  intro first rest split old carries
  obtain ⟨rfl, -⟩ := append_eq_nil_iff.mp split.symm
  cases carries

/-- An attempt fails to be delivered, is superseded, and its deliverer comes back late; the newer
one is delivered and compacted, and a third one follows. -/
def superseded : List (OutboxCall String String) :=
  [.store 1 "f1" "failed" "u1", .claim "t1" 10 120, .store 2 "f2" "done" "u2",
    .finish "t1" true 20 20, .claim "t2" 30 120, .renew "t2" 40 40 120, .finish "t2" true 50 50,
    .store 1 "f1" "failed" "u1", .compact 100, .store 3 "f3" "redone" "u3"]

theorem outboxKept_superseded : OutboxKept superseded :=
  outboxKept_of_storesAbove (by decide) (storesAbove_of_staysAbove (by decide +kernel))

/-- The third attempt is delivered and compacted, and the first one finishes late. -/
def finishedLate : List (OutboxCall String String) :=
  [.store 3 "f3" "done" "u3", .claim "t3" 10 120, .finish "t3" true 20 20, .compact 100]

/-- Over the tombstone the first attempt is stored and pending. -/
theorem outboxKept_fails_finishedLate :
    ¬ OutboxKept (finishedLate ++ [.store 1 "f1" "failed" "u1"]) := by
  intro kept
  obtain ⟨attempt, fingerprint, event, update, member, later⟩ :=
    kept.delivered (finishedLate.take 3) [.compact 100, .store 1 "f1" "failed" "u1"] rfl
      ⟨3, "f3", "done", "u3"⟩ (by decide +kernel) (by decide +kernel) (by decide +kernel)
  simp only [mem_cons, not_mem_nil, or_false, reduceCtorEq, false_or, store.injEq] at member
  exact absurd later (by simp [member.1])

end UltimateCoders.Runtime
