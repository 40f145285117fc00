import Mathlib.Data.Int.Basic
import UltimateCoders.Graph.Projection
import UltimateCoders.Scheduler.FiringLock

/-! # When only one gateway fires

The key of a lock has the second at which a gateway asks, not the instant that it asks for. One
gateway fires, and no lease suppresses anything else, exactly if the gateways read the same second
for what is the same and different seconds for what is not.
-/

namespace UltimateCoders.Scheduler

open Function
open Governance (Instant)
open Gateways (run)
open LockRequest List

private theorem digits_injective {one other : Nat} (same : one.repr = other.repr) : one = other := by
  have digits : Nat.toDigits 10 one = Nat.toDigits 10 other := by
    simpa [Nat.repr] using congrArg String.toList same
  rw [← @Nat.ofDigitChars_ten_toDigits one, digits, Nat.ofDigitChars_ten_toDigits]

private theorem minus_not_mem_digits (n : Nat) : '-' ∉ n.repr.toList := by
  intro member
  have digit := Nat.isDigit_of_mem_toDigits (b := 10) (by decide) (by decide)
    (by simpa [Nat.repr] using member)
  exact absurd digit (by decide)

theorem int_toString_injective {one other : Int} (same : toString one = toString other) :
    one = other := by
  have signed (n : Nat) : (toString (Int.negSucc n)).toList = '-' :: (n + 1).repr.toList := by
    change ("-" ++ (n + 1).repr).toList = _
    rw [String.toList_append]
    rfl
  have free (n m : Nat) : toString (Int.ofNat n) ≠ toString (Int.negSucc m) := fun clash =>
    minus_not_mem_digits n (by
      change '-' ∈ (toString (Int.ofNat n)).toList
      rw [clash, signed]
      exact mem_cons_self)
  cases one with
  | ofNat one =>
    cases other with
    | ofNat other => exact congrArg Int.ofNat (digits_injective same)
    | negSucc other => exact (free one other same).elim
  | negSucc one =>
    cases other with
    | ofNat other => exact (free other one same.symm).elim
    | negSucc other =>
      have chars := congrArg String.toList same
      rw [signed, signed, cons.injEq] at chars
      have := digits_injective (String.toList_inj.mp chars.2)
      exact congrArg Int.negSucc (by omega)

theorem eq_of_numbered_eq {one other : String} {n m : Int}
    (same : one ++ ":" ++ toString n = other ++ ":" ++ toString m) : one = other ∧ n = m := by
  have cut (front : String) (n : Int) : (front ++ ":" ++ toString n).toList =
      front.toList ++ ':' :: (toString n).toList := by
    rw [String.toList_append, String.toList_append, append_assoc]
    rfl
  have chars := congrArg String.toList same
  rw [cut, cut] at chars
  have fronts := Text.eq_of_append_cons_eq chars (Graph.colon_not_mem_toString n)
    (Graph.colon_not_mem_toString m)
  rw [fronts, append_cancel_left_eq, cons.injEq] at chars
  exact ⟨String.toList_inj.mp fronts, int_toString_injective (String.toList_inj.mp chars.2)⟩

variable {one other third : LockRequest}

theorem lockKey_eq_iff : one.lockKey = other.lockKey ↔
    one.SameSubject other ∧ timestamp one.now = timestamp other.now := by
  obtain ⟨gateway, purpose, now⟩ := one
  obtain ⟨otherGateway, otherPurpose, otherNow⟩ := other
  have apart (taskId : Uuid) (eventType : WindowEventType) :
      "scheduler:" ++ taskId ≠ "window:" ++ eventType.eventName := by
    intro clash
    have chars := congrArg (fun text => text.toList.head?) clash
    simp at chars
  cases purpose with
  | firing taskId due =>
    cases otherPurpose with
    | firing otherId otherDue =>
      simp only [lockKey, SameSubject]
      constructor
      · intro same
        obtain ⟨tasks, seconds⟩ := eq_of_numbered_eq same
        exact ⟨(String.append_right_inj _).mp tasks, seconds⟩
      · intro ⟨tasks, seconds⟩
        rw [tasks, seconds]
    | transition otherType =>
      simp only [lockKey, SameSubject, false_and, iff_false]
      exact fun same => apart taskId otherType (eq_of_numbered_eq same).1
  | transition eventType =>
    cases otherPurpose with
    | firing otherId otherDue =>
      simp only [lockKey, SameSubject, false_and, iff_false]
      exact fun same => apart otherId eventType (eq_of_numbered_eq same).1.symm
    | transition otherType =>
      simp only [lockKey, SameSubject]
      constructor
      · intro same
        obtain ⟨events, seconds⟩ := eq_of_numbered_eq same
        refine ⟨?_, seconds⟩
        cases eventType <;> cases otherType <;> revert events <;> decide
      · intro ⟨events, seconds⟩
        rw [events, seconds]

variable {isWithinWindow : Instant → Bool}

theorem SameStretch.symm {one other : Instant} (same : SameStretch isWithinWindow one other) :
    SameStretch isWithinWindow other one := by
  intro now after before
  rw [min_comm] at after
  rw [max_comm] at before
  rw [same now after before, same other (min_le_right _ _) (le_max_right _ _)]

private theorem within_second {one other third now : Int} (after : min one third ≤ now)
    (before : now ≤ max one third) (outside : ¬(min one other ≤ now ∧ now ≤ max one other)) :
    min other third ≤ now ∧ now ≤ max other third := by
  omega

theorem SameStretch.trans {one other third : Instant}
    (first : SameStretch isWithinWindow one other)
    (second : SameStretch isWithinWindow other third) :
    SameStretch isWithinWindow one third := by
  intro now after before
  have middle := first other (min_le_right _ _) (le_max_right _ _)
  by_cases inside : min one other ≤ now ∧ now ≤ max one other
  · exact first now inside.1 inside.2
  · have beyond : min other third ≤ now ∧ now ≤ max other third :=
      within_second after before inside
    rw [second now beyond.1 beyond.2, middle]

namespace LockRequest

@[refl] theorem SameSubject.refl (request : LockRequest) : request.SameSubject request := by
  obtain ⟨_, purpose, _⟩ := request
  cases purpose <;> rfl

theorem SameSubject.symm (same : one.SameSubject other) : other.SameSubject one := by
  obtain ⟨_, purpose, _⟩ := one
  obtain ⟨_, otherPurpose, _⟩ := other
  cases purpose <;> cases otherPurpose <;> simp_all [SameSubject]

theorem SameSubject.trans (first : one.SameSubject other) (second : other.SameSubject third) :
    one.SameSubject third := by
  obtain ⟨_, purpose, _⟩ := one
  obtain ⟨_, otherPurpose, _⟩ := other
  obtain ⟨_, thirdPurpose, _⟩ := third
  cases purpose <;> cases otherPurpose <;> cases thirdPurpose <;> simp_all [SameSubject]

@[refl] theorem SameInstant.refl (request : LockRequest) :
    request.SameInstant isWithinWindow request := by
  refine ⟨.refl _, ?_⟩
  obtain ⟨_, purpose, now⟩ := request
  cases purpose with
  | firing taskId due => rfl
  | transition eventType =>
    intro moment after before
    rw [min_self] at after
    rw [max_self] at before
    rw [le_antisymm before after]

theorem SameInstant.symm (same : one.SameInstant isWithinWindow other) :
    other.SameInstant isWithinWindow one := by
  refine ⟨same.1.symm, ?_⟩
  obtain ⟨subject, instant⟩ := same
  obtain ⟨_, purpose, _⟩ := one
  obtain ⟨_, otherPurpose, _⟩ := other
  cases purpose <;> cases otherPurpose
  · exact Eq.symm instant
  · exact subject.elim
  · exact subject.elim
  · exact SameStretch.symm instant

theorem SameInstant.trans (first : one.SameInstant isWithinWindow other)
    (second : other.SameInstant isWithinWindow third) :
    one.SameInstant isWithinWindow third := by
  refine ⟨first.1.trans second.1, ?_⟩
  obtain ⟨subject, instant⟩ := first
  obtain ⟨otherSubject, otherInstant⟩ := second
  obtain ⟨_, purpose, _⟩ := one
  obtain ⟨_, otherPurpose, _⟩ := other
  obtain ⟨_, thirdPurpose, _⟩ := third
  cases purpose <;> cases otherPurpose <;> cases thirdPurpose
  all_goals try exact subject.elim
  all_goals try exact otherSubject.elim
  · exact Eq.trans instant otherInstant
  · exact SameStretch.trans instant otherInstant

theorem now_lt_of_same_second (same : timestamp one.now = timestamp other.now) :
    one.now < other.now + other.ttl := by
  have lasts : second ≤ other.ttl := by
    unfold ttl
    split <;> decide
  have remain := Int.emod_lt_of_pos one.now (show 0 < second by decide)
  rw [timestamp, timestamp] at same
  calc one.now = second * (one.now / second) + one.now % second :=
        (Int.mul_ediv_add_emod _ _).symm
    _ < second * (other.now / second) + second := by rw [same]; exact Int.add_lt_add_left remain _
    _ ≤ other.now + other.ttl := by
        refine Int.add_le_add (Int.mul_ediv_self_le (by decide)) lasts

end LockRequest

/-- Every lease is held for what has been done with it, one for every key that was asked for. -/
structure Leased (provider : LockProvider) (outcomes : List LockOutcome) : Prop where
  taken : ∀ lock ∈ provider.held, ∃ holder ∈ outcomes, holder.acquired ∧
    lock = (holder.request.lockKey, holder.request.now + holder.request.ttl)
  held : ∀ holder ∈ outcomes, holder.acquired →
    (holder.request.lockKey, holder.request.now + holder.request.ttl) ∈ provider.held
  first : outcomes.Pairwise fun one other => other.acquired →
    one.request.lockKey ≠ other.request.lockKey
  owned : ∀ outcome ∈ outcomes, ∃ holder ∈ outcomes, holder.acquired ∧
    holder.request.lockKey = outcome.request.lockKey

theorem Gateways.guarded_cases (gateways : Gateways) (request : LockRequest) :
    ((∃ lock ∈ gateways.lockProvider.held, lock.1 = request.lockKey ∧ request.now < lock.2) ∧
      gateways.guarded request =
        { gateways with outcomes := gateways.outcomes ++ [⟨request, false⟩] }) ∨
    ((∀ lock ∈ gateways.lockProvider.held, lock.1 = request.lockKey → ¬request.now < lock.2) ∧
      gateways.guarded request =
        { gateways with
          lockProvider :=
            ⟨(request.lockKey, request.now + request.ttl) :: gateways.lockProvider.held⟩
          outcomes := gateways.outcomes ++ [⟨request, true⟩] }) := by
  by_cases busy : ∃ lock ∈ gateways.lockProvider.held,
      lock.1 = request.lockKey ∧ request.now < lock.2
  · exact .inl ⟨busy, by simp [guarded, LockProvider.tryAcquire, busy]⟩
  · refine .inr ⟨fun lock member sameKey live => busy ⟨lock, member, sameKey, live⟩, ?_⟩
    simp [guarded, LockProvider.tryAcquire, busy]

variable {gateways : Gateways}

theorem Leased.guarded (leased : Leased gateways.lockProvider gateways.outcomes)
    (request : LockRequest) :
    Leased (gateways.guarded request).lockProvider (gateways.guarded request).outcomes := by
  rcases gateways.guarded_cases request with ⟨⟨lock, member, sameKey, _⟩, now⟩ | ⟨free, now⟩
  · rw [now]
    obtain ⟨holder, earlier, acquired, rfl⟩ := leased.taken lock member
    refine ⟨fun lock member => ?_, fun holder member acquired => ?_, ?_, fun outcome member => ?_⟩
    · obtain ⟨holder, earlier, known⟩ := leased.taken lock member
      exact ⟨holder, mem_append_left _ earlier, known⟩
    · rcases mem_append.mp member with earlier | last
      · exact leased.held holder earlier acquired
      · rw [mem_singleton.mp last] at acquired
        cases acquired
    · refine pairwise_append.mpr ⟨leased.first, pairwise_singleton _ _,
        fun one _ other last acquired => ?_⟩
      rw [mem_singleton.mp last] at acquired
      cases acquired
    · rcases mem_append.mp member with before | last
      · obtain ⟨owner, found, known⟩ := leased.owned outcome before
        exact ⟨owner, mem_append_left _ found, known⟩
      · rw [mem_singleton.mp last]
        exact ⟨holder, mem_append_left _ earlier, acquired, sameKey⟩
  · rw [now]
    refine ⟨fun lock member => ?_, fun holder member acquired => ?_, ?_, fun outcome member => ?_⟩
    · rcases mem_cons.mp member with rfl | before
      · exact ⟨_, mem_append_right _ mem_cons_self, rfl, rfl⟩
      · obtain ⟨holder, earlier, known⟩ := leased.taken lock before
        exact ⟨holder, mem_append_left _ earlier, known⟩
    · rcases mem_append.mp member with earlier | last
      · exact mem_cons_of_mem _ (leased.held holder earlier acquired)
      · rw [mem_singleton.mp last]
        exact mem_cons_self
    · refine pairwise_append.mpr ⟨leased.first, pairwise_singleton _ _,
        fun one earlier other last _ sameKey => ?_⟩
      rw [mem_singleton.mp last] at sameKey
      -- Whoever asked for the key before has left a lease of it or has found one.
      obtain ⟨holder, found, acquired, ownKey⟩ := leased.owned one earlier
      have sameSecond := (lockKey_eq_iff.mp (ownKey.trans sameKey)).2
      exact free _ (leased.held holder found acquired) (ownKey.trans sameKey)
        (now_lt_of_same_second sameSecond.symm)
    · rcases mem_append.mp member with before | last
      · obtain ⟨owner, found, known⟩ := leased.owned outcome before
        exact ⟨owner, mem_append_left _ found, known⟩
      · rw [mem_singleton.mp last]
        exact ⟨_, mem_append_right _ mem_cons_self, rfl, rfl⟩

theorem Leased.step (leased : Leased gateways.lockProvider gateways.outcomes) (moment : Moment) :
    Leased (gateways.step isWithinWindow moment).lockProvider
      (gateways.step isWithinWindow moment).outcomes := by
  unfold Gateways.step
  split
  · exact leased.guarded _
  · exact leased.guarded _
  · unfold Gateways.poll
    dsimp only
    split
    · exact leased
    · exact leased.guarded _

theorem leased_run (startedAt : Nat → Instant) (moments : List Moment) :
    Leased (run isWithinWindow startedAt moments).lockProvider
      (run isWithinWindow startedAt moments).outcomes := by
  have start : Leased (Gateways.start isWithinWindow startedAt).lockProvider
      (Gateways.start isWithinWindow startedAt).outcomes := ⟨by simp [Gateways.start],
    by simp [Gateways.start], Pairwise.nil, by simp [Gateways.start]⟩
  unfold run
  generalize Gateways.start isWithinWindow startedAt = gateways at start ⊢
  induction moments generalizing gateways with
  | nil => exact start
  | cons moment moments ih => exact ih _ (start.step moment)

theorem Gateways.guarded_requests (gateways : Gateways) (request : LockRequest) :
    (gateways.guarded request).outcomes.map LockOutcome.request =
      gateways.outcomes.map LockOutcome.request ++ [request] := by
  simp [guarded]

theorem requests_foldl {lastLook : Nat → Instant} (moments : List Moment)
    (seen : ∀ gateway, gateways.lastInside gateway = isWithinWindow (lastLook gateway)) :
    (moments.foldl (Gateways.step isWithinWindow) gateways).outcomes.map LockOutcome.request =
      gateways.outcomes.map LockOutcome.request ++
        lockRequests isWithinWindow lastLook moments := by
  induction moments generalizing gateways lastLook with
  | nil => simp [lockRequests]
  | cons moment moments ih =>
    obtain ⟨gateway, callback, now⟩ := moment
    rw [foldl_cons]
    cases callback with
    | cron taskId due =>
      have looked (other : Nat) :
          (gateways.step isWithinWindow ⟨gateway, .cron taskId due, now⟩).lastInside other =
            isWithinWindow (lastLook other) := seen other
      rw [ih looked]
      simp [Gateways.step, Gateways.cronCallback, Gateways.guarded_requests, lockRequests]
    | oneShot taskId due =>
      have looked (other : Nat) :
          (gateways.step isWithinWindow ⟨gateway, .oneShot taskId due, now⟩).lastInside other =
            isWithinWindow (lastLook other) := seen other
      rw [ih looked]
      simp [Gateways.step, Gateways.oneShotCallback, Gateways.guarded_requests, lockRequests]
    | poll =>
      have looked (other : Nat) :
          (gateways.step isWithinWindow ⟨gateway, .poll, now⟩).lastInside other =
            isWithinWindow (update lastLook gateway now other) := by
        simp only [Gateways.step, Gateways.poll, update_apply]
        split <;> split <;> simp_all
      rw [ih looked]
      simp only [Gateways.step, Gateways.poll, lockRequests, seen]
      split
      · rfl
      · simp [Gateways.guarded_requests]

theorem requests_run (startedAt : Nat → Instant) (moments : List Moment) :
    (run isWithinWindow startedAt moments).outcomes.map LockOutcome.request =
      lockRequests isWithinWindow startedAt moments :=
  requests_foldl moments fun _ => rfl

variable {lastLook startedAt : Nat → Instant} {moments : List Moment} {request : LockRequest}

def Moment.Fires (moment : Moment) (taskId : Uuid) (due : Instant) : Prop :=
  moment.callback = .cron taskId due ∨ moment.callback = .oneShot taskId due

theorem fires_of_mem_lockRequests {taskId : Uuid} {due : Instant}
    (asked : request ∈ lockRequests isWithinWindow lastLook moments)
    (purpose : request.purpose = .firing taskId due) :
    ∃ moment ∈ moments, moment.gateway = request.gateway ∧ moment.Fires taskId due := by
  induction moments generalizing lastLook with
  | nil => cases asked
  | cons moment moments ih =>
    obtain ⟨gateway, callback, now⟩ := moment
    have later {look : Nat → Instant} (asked : request ∈ lockRequests isWithinWindow look moments) :
        ∃ moment ∈ (⟨gateway, callback, now⟩ : Moment) :: moments,
          moment.gateway = request.gateway ∧ moment.Fires taskId due := by
      obtain ⟨moment, member, fires⟩ := ih asked
      exact ⟨moment, mem_cons_of_mem _ member, fires⟩
    cases callback with
    | cron firedId firedDue =>
      rcases mem_cons.mp asked with rfl | asked
      · cases purpose
        exact ⟨_, mem_cons_self, rfl, .inl rfl⟩
      · exact later asked
    | oneShot firedId firedDue =>
      rcases mem_cons.mp asked with rfl | asked
      · cases purpose
        exact ⟨_, mem_cons_self, rfl, .inr rfl⟩
      · exact later asked
    | poll =>
      simp only [lockRequests] at asked
      split at asked
      · exact later asked
      · rcases mem_cons.mp asked with rfl | asked
        · cases purpose
        · exact later asked

theorem look_le (gateway : Nat) {now : Instant} (before : ∀ moment ∈ moments, now ≤ moment.now)
    (after : ∀ moment ∈ moments, lastLook moment.gateway ≤ moment.now) :
    ∀ moment ∈ moments, update lastLook gateway now moment.gateway ≤ moment.now := by
  intro moment member
  rw [update_apply]
  split
  · exact before moment member
  · exact after moment member

theorem turned_of_mem_lockRequests {eventType : WindowEventType}
    (ordered : moments.Pairwise fun one other => one.now ≤ other.now)
    (after : ∀ moment ∈ moments, lastLook moment.gateway ≤ moment.now)
    (asked : request ∈ lockRequests isWithinWindow lastLook moments)
    (purpose : request.purpose = .transition eventType) :
    ∃ look, lastLook request.gateway ≤ look ∧ look ≤ request.now ∧
      isWithinWindow look ≠ isWithinWindow request.now := by
  induction moments generalizing lastLook with
  | nil => cases asked
  | cons moment moments ih =>
    obtain ⟨gateway, callback, now⟩ := moment
    obtain ⟨before, sequel⟩ := pairwise_cons.mp ordered
    obtain ⟨here, upcoming⟩ := forall_mem_cons.mp after
    cases callback with
    | cron taskId due | oneShot taskId due =>
      rcases mem_cons.mp asked with rfl | asked
      · cases purpose
      · exact ih sequel upcoming asked
    | poll =>
      have forward (other : Nat) : lastLook other ≤ update lastLook gateway now other := by
        rw [update_apply]
        split
        · rename_i same
          exact same ▸ here
        · exact le_rfl
      have lookAfter := look_le gateway before upcoming
      have later (asked : request ∈ lockRequests isWithinWindow
          (update lastLook gateway now) moments) :
          ∃ look, lastLook request.gateway ≤ look ∧ look ≤ request.now ∧
            isWithinWindow look ≠ isWithinWindow request.now := by
        obtain ⟨look, since, rest⟩ := ih sequel lookAfter asked
        exact ⟨look, (forward _).trans since, rest⟩
      simp only [lockRequests] at asked
      split at asked
      · exact later asked
      · rename_i turned
        rcases mem_cons.mp asked with rfl | asked
        · exact ⟨lastLook gateway, le_rfl, here, Ne.symm turned⟩
        · exact later asked

/-- No gateway asks twice for one instant. -/
theorem lockRequests_pairwise
    (ordered : moments.Pairwise fun one other => one.now ≤ other.now)
    (after : ∀ moment ∈ moments, lastLook moment.gateway ≤ moment.now)
    (once : moments.Pairwise fun one other => ∀ taskId due, one.Fires taskId due →
      other.Fires taskId due → one.gateway ≠ other.gateway) :
    (lockRequests isWithinWindow lastLook moments).Pairwise fun one other =>
      one.SameInstant isWithinWindow other → one.gateway ≠ other.gateway := by
  induction moments generalizing lastLook with
  | nil => exact Pairwise.nil
  | cons moment moments ih =>
    obtain ⟨gateway, callback, now⟩ := moment
    obtain ⟨before, sequel⟩ := pairwise_cons.mp ordered
    obtain ⟨here, upcoming⟩ := forall_mem_cons.mp after
    obtain ⟨first, onceLater⟩ := pairwise_cons.mp once
    have fired (taskId : Uuid) (due : Instant)
        (fires : (⟨gateway, callback, now⟩ : Moment).Fires taskId due) :
        (⟨gateway, .firing taskId due, now⟩ :: lockRequests isWithinWindow lastLook moments).Pairwise
          fun one other => one.SameInstant isWithinWindow other → one.gateway ≠ other.gateway := by
      refine pairwise_cons.mpr ⟨fun later asked same => ?_, ih sequel upcoming onceLater⟩
      obtain ⟨gateway, purpose, now⟩ := later
      cases purpose with
      | firing laterId laterDue =>
        obtain ⟨rfl, rfl⟩ := same
        obtain ⟨other, member, sameGateway, otherFires⟩ := fires_of_mem_lockRequests asked rfl
        exact sameGateway ▸ first other member taskId due fires otherFires
      | transition eventType => exact same.1.elim
    cases callback with
    | cron taskId due => exact fired taskId due (.inl rfl)
    | oneShot taskId due => exact fired taskId due (.inr rfl)
    | poll =>
      have lookAfter := look_le gateway before upcoming
      have rest := ih sequel lookAfter onceLater
      simp only [lockRequests]
      split
      · exact rest
      · refine pairwise_cons.mpr ⟨fun later asked same sameGateway => ?_, rest⟩
        obtain ⟨laterGateway, purpose, laterNow⟩ := later
        cases purpose with
        | firing laterId laterDue => exact same.1
        | transition eventType =>
          obtain ⟨look, since, upTo, turned⟩ :=
            turned_of_mem_lockRequests sequel lookAfter asked rfl
          obtain rfl : gateway = laterGateway := sameGateway
          rw [update_self] at since
          have stretch : SameStretch isWithinWindow now laterNow := same.2
          refine turned ((stretch look ?_ ?_).trans (stretch laterNow ?_ ?_).symm)
          · exact (min_le_left _ _).trans since
          · exact upTo.trans (le_max_right _ _)
          · exact min_le_right _ _
          · exact le_max_right _ _

theorem related_of_pairwise {Item : Type*} {related : Item → Item → Prop} {items : List Item}
    {one other : Item} (pairs : items.Pairwise related) (here : one ∈ items) (there : other ∈ items)
    (different : one ≠ other) : related one other ∨ related other one := by
  have symmetric : Std.Symm fun one other => related one other ∨ related other one :=
    ⟨fun _ _ => Or.symm⟩
  exact (pairs.imp fun forth => .inl forth : items.Pairwise fun one other =>
    related one other ∨ related other one).forall here there different

section Outcomes

variable {outcomes : List LockOutcome} {provider : LockProvider}

theorem Leased.eq_of_lockKey_eq (leased : Leased provider outcomes) {one other : LockOutcome}
    (here : one ∈ outcomes) (there : other ∈ outcomes) (oneHas : one.acquired)
    (otherHas : other.acquired) (sameKey : one.request.lockKey = other.request.lockKey) :
    one = other := by
  by_contra different
  rcases related_of_pairwise leased.first here there different with first | first
  · exact first otherHas sameKey
  · exact first oneHas sameKey.symm

theorem Leased.exists_holder (leased : Leased provider outcomes)
    (own : OwnLeasesOnly isWithinWindow outcomes) {outcome : LockOutcome}
    (member : outcome ∈ outcomes) :
    ∃ holder ∈ outcomes, holder.acquired ∧ holder.request.lockKey = outcome.request.lockKey ∧
      holder.request.SameInstant isWithinWindow outcome.request := by
  obtain ⟨holder, found, acquired, sameKey⟩ := leased.owned outcome member
  refine ⟨holder, found, acquired, sameKey, ?_⟩
  by_cases itself : outcome.acquired
  · rw [leased.eq_of_lockKey_eq found member acquired itself sameKey]
  · have different : holder ≠ outcome := fun same => itself (same ▸ acquired)
    rcases related_of_pairwise (leased.first.and own) found member different with
      ⟨_, before⟩ | ⟨behind, _⟩
    · exact before acquired itself sameKey
        (now_lt_of_same_second (lockKey_eq_iff.mp sameKey).2.symm)
    · exact (behind acquired sameKey.symm).elim

theorem Leased.exclusive_iff (leased : Leased provider outcomes)
    (once : outcomes.Pairwise fun one other =>
      one.request.SameInstant isWithinWindow other.request →
        one.request.gateway ≠ other.request.gateway) :
    (OneGatewayEach isWithinWindow outcomes ∧ OwnLeasesOnly isWithinWindow outcomes) ↔
      ClocksAgree isWithinWindow (outcomes.map LockOutcome.request) := by
  constructor
  · intro ⟨each, own⟩ one oneAsked other otherAsked subject
    obtain ⟨one, oneMem, rfl⟩ := mem_map.mp oneAsked
    obtain ⟨other, otherMem, rfl⟩ := mem_map.mp otherAsked
    obtain ⟨oneHolder, oneFound, oneHas, oneKey, oneSame⟩ := leased.exists_holder own oneMem
    obtain ⟨otherHolder, otherFound, otherHas, otherKey, otherSame⟩ :=
      leased.exists_holder own otherMem
    constructor
    · intro same
      have holders := (oneSame.trans same).trans otherSame.symm
      have sameGateway := each _ oneFound _ otherFound oneHas otherHas holders
      have equal : oneHolder = otherHolder := by
        by_contra different
        rcases related_of_pairwise once oneFound otherFound different with apart | apart
        · exact apart holders sameGateway
        · exact apart holders.symm sameGateway.symm
      rw [equal] at oneKey
      exact (lockKey_eq_iff.mp (oneKey.symm.trans otherKey)).2
    · intro sameSecond
      have sameKey := lockKey_eq_iff.mpr ⟨subject, sameSecond⟩
      have equal := leased.eq_of_lockKey_eq oneFound otherFound oneHas otherHas
        ((oneKey.trans sameKey).trans otherKey.symm)
      rw [equal] at oneSame
      exact oneSame.symm.trans otherSame
  · intro agree
    have sameInstant {one other : LockOutcome} (oneMem : one ∈ outcomes)
        (otherMem : other ∈ outcomes) (subject : one.request.SameSubject other.request) :=
      agree _ (mem_map_of_mem oneMem) _ (mem_map_of_mem otherMem) subject
    refine ⟨fun one oneMem other otherMem oneHas otherHas same => ?_, ?_⟩
    · have sameSecond := (sameInstant oneMem otherMem same.1).mp same
      rw [leased.eq_of_lockKey_eq oneMem otherMem oneHas otherHas
        (lockKey_eq_iff.mpr ⟨same.1, sameSecond⟩)]
    · refine leased.first.imp_of_mem fun holderMem skippedMem _ _ _ sameKey _ => ?_
      obtain ⟨subject, sameSecond⟩ := lockKey_eq_iff.mp sameKey
      exact (sameInstant holderMem skippedMem subject).mpr sameSecond

end Outcomes

/-- However many gateways there are and however late they run, for every due instant of a job and
every turn of the window one gateway at most goes on, and no lease suppresses anything but what it
was taken for, exactly if the gateways read one second for one instant and for no other. -/
theorem oneGatewayFires_iff (scheduled : Scheduled startedAt moments) :
    (OneGatewayEach isWithinWindow (run isWithinWindow startedAt moments).outcomes ∧
      OwnLeasesOnly isWithinWindow (run isWithinWindow startedAt moments).outcomes) ↔
      ClocksAgree isWithinWindow (lockRequests isWithinWindow startedAt moments) := by
  have asked := @requests_run isWithinWindow startedAt moments
  have once := @lockRequests_pairwise isWithinWindow _ _ scheduled.inOrder scheduled.started
    scheduled.once
  rw [← asked] at once ⊢
  exact (leased_run startedAt moments).exclusive_iff (pairwise_map.mp once)

/-- Two gateways run one tick within one second. -/
theorem oneGatewayFires_iff_sample :
    OneGatewayEach (fun _ => false) (run (fun _ => false) (fun _ => 0)
      [⟨0, .cron "job" (60 * second), 60 * second + 1⟩,
        ⟨1, .cron "job" (60 * second), 60 * second + 2⟩]).outcomes ∧
    OwnLeasesOnly (fun _ => false) (run (fun _ => false) (fun _ => 0)
      [⟨0, .cron "job" (60 * second), 60 * second + 1⟩,
        ⟨1, .cron "job" (60 * second), 60 * second + 2⟩]).outcomes := by
  have scheduled : Scheduled (fun _ => 0) [⟨0, .cron "job" (60 * second), 60 * second + 1⟩,
      ⟨1, .cron "job" (60 * second), 60 * second + 2⟩] :=
    ⟨by simp, by simp [second], by simp⟩
  refine (oneGatewayFires_iff scheduled).mpr ?_
  have sameSecond : timestamp (60 * second + 1) = timestamp (60 * second + 2) := by decide
  simp [lockRequests, ClocksAgree, SameInstant, SameSubject, sameSecond]

def opensLater (now : Instant) : Bool := decide (100 * second ≤ now)

/-- One gateway runs the tick on time, the other one a second later. -/
def staggeredTicks : List Moment :=
  [⟨0, .cron "job" (60 * second), 60 * second⟩, ⟨1, .cron "job" (60 * second), 61 * second⟩]

/-- Two gateways poll the window on time, ten seconds apart. -/
def staggeredPolls : List Moment :=
  [⟨0, .poll, 120 * second⟩, ⟨1, .poll, 130 * second⟩]

/-- The tick of one gateway is late by a second, that of the next one is not. -/
def hurriedTicks : List Moment :=
  [⟨0, .cron "job" (60 * second), 61 * second⟩, ⟨1, .cron "job" (61 * second), 61 * second⟩]

/-- A tick or a turn of the window that two gateways see in different seconds is handled by both,
and of two ticks that are seen in one second one is dropped. -/
theorem oneGatewayFires_fails :
    (∀ moments ∈ [staggeredTicks, staggeredPolls, hurriedTicks], Scheduled (fun _ => 0) moments ∧
      ∀ request ∈ lockRequests opensLater (fun _ => 0) moments, Prompt opensLater request) ∧
    ¬OneGatewayEach opensLater (run opensLater (fun _ => 0) staggeredTicks).outcomes ∧
    ¬OneGatewayEach opensLater (run opensLater (fun _ => 0) staggeredPolls).outcomes ∧
    ¬OwnLeasesOnly opensLater (run opensLater (fun _ => 0) hurriedTicks).outcomes := by
  have ticks : (run opensLater (fun _ => 0) staggeredTicks).outcomes =
      [⟨⟨0, .firing "job" (60 * second), 60 * second⟩, true⟩,
        ⟨⟨1, .firing "job" (60 * second), 61 * second⟩, true⟩] := by decide +kernel
  have polls : (run opensLater (fun _ => 0) staggeredPolls).outcomes =
      [⟨⟨0, .transition .opened, 120 * second⟩, true⟩,
        ⟨⟨1, .transition .opened, 130 * second⟩, true⟩] := by decide +kernel
  have dropped : (run opensLater (fun _ => 0) hurriedTicks).outcomes =
      [⟨⟨0, .firing "job" (60 * second), 61 * second⟩, true⟩,
        ⟨⟨1, .firing "job" (61 * second), 61 * second⟩, false⟩] := by decide +kernel
  have stretch {now : Instant} (late : 100 * second ≤ now) :
      SameStretch opensLater (100 * second) now := by
    intro moment after _
    rw [min_eq_left late] at after
    exact (decide_eq_true after).trans (decide_eq_true le_rfl).symm
  refine ⟨?_, fun each => ?_, fun each => ?_, fun own => ?_⟩
  · simp only [forall_mem_cons, ← requests_run, ticks, polls, dropped, map_cons, map_nil]
    refine ⟨⟨⟨by decide, by decide, by simp [staggeredTicks]⟩, ?_, ?_, by simp⟩,
      ⟨⟨by decide, by decide, by simp [staggeredPolls]⟩, ?_, ?_, by simp⟩,
      ⟨⟨by decide, by decide, by simp [hurriedTicks, second]⟩, ?_, ?_, by simp⟩, by simp⟩
    · exact ⟨le_rfl, by decide⟩
    · exact ⟨by decide, by decide⟩
    · exact ⟨100 * second, by decide, by decide, by decide, stretch (by decide)⟩
    · exact ⟨100 * second, by decide, by decide, by decide, stretch (by decide)⟩
    · exact ⟨by decide, by decide⟩
    · exact ⟨le_rfl, by decide⟩
  · rw [ticks] at each
    exact absurd (each _ mem_cons_self _ (mem_cons_of_mem _ mem_cons_self) rfl rfl
      ⟨rfl, rfl⟩) (by decide)
  · rw [polls] at each
    have same : SameStretch opensLater (120 * second) (130 * second) :=
      (stretch (by decide)).symm.trans (stretch (by decide))
    exact absurd (each _ mem_cons_self _ (mem_cons_of_mem _ mem_cons_self) rfl rfl
      ⟨rfl, same⟩) (by decide)
  · rw [dropped] at own
    have same := (pairwise_cons.mp own).1 _ mem_cons_self rfl Bool.false_ne_true
      (by decide +kernel) (by decide)
    exact absurd same.2 (by decide)

end UltimateCoders.Scheduler
