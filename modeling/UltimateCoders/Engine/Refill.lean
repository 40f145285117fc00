import UltimateCoders.Engine.RateLimiter

/-! # Buckets that are refilled

A bucket is refilled from what has passed on the clock since it was refilled last, in one section
under its locks; what a caller takes or gives back is a section of its own. However the sections
of the callers interleave, no more is taken between two moments than a full bucket and what was
refilled in between, up to what was given back.
-/

namespace UltimateCoders.Engine

open TokenBucket

/-- A bucket with the moment of its last refill, in seconds. -/
structure TimedBucket where
  bucket : TokenBucket
  lastRefill : ℚ

/-- What is done under the locks of a bucket. -/
inductive BucketSection where
  /-- `refill`, with what the clock reads. -/
  | refill (now : ℚ)
  /-- `try_consume`, once it has refilled. -/
  | take (amount : ℚ)
  | refund (amount : ℚ)

namespace TimedBucket

/-- A full bucket of a minute's amount. -/
def perMinute (amount opened : ℚ) : TimedBucket := ⟨.perMinute amount, opened⟩

variable (timed : TimedBucket)

def Grants (amount : ℚ) : Prop := amount ≤ timed.bucket.tokens

instance (timed : TimedBucket) (amount : ℚ) : Decidable (timed.Grants amount) :=
  inferInstanceAs (Decidable (_ ≤ _))

def after : BucketSection → TimedBucket
  -- a duration is never negative
  | .refill now => ⟨timed.bucket.refill (max (now - timed.lastRefill) 0), now⟩
  | .take amount =>
    if timed.Grants amount then
      { timed with bucket := { timed.bucket with tokens := timed.bucket.tokens - amount } }
    else timed
  | .refund amount => { timed with bucket := timed.bucket.refund amount }

def taken : BucketSection → ℚ
  | .take amount => if timed.Grants amount then amount else 0
  | .refill _ | .refund _ => 0

def afterAll (sections : List BucketSection) : TimedBucket :=
  sections.foldl after timed

/-- What is taken from the bucket in these sections. -/
def takenIn : TimedBucket → List BucketSection → ℚ
  | _, [] => 0
  | timed, head :: rest => timed.taken head + (timed.after head).takenIn rest

/-- The clock does not go back, and amounts are not negative. -/
def Admits : BucketSection → Prop
  | .refill now => timed.lastRefill ≤ now
  | .take amount | .refund amount => 0 ≤ amount

instance (timed : TimedBucket) : (part : BucketSection) → Decidable (timed.Admits part)
  | .refill now => inferInstanceAs (Decidable (timed.lastRefill ≤ now))
  | .take amount | .refund amount => inferInstanceAs (Decidable (0 ≤ amount))

def AdmitsAll : TimedBucket → List BucketSection → Prop
  | _, [] => True
  | timed, head :: rest => timed.Admits head ∧ (timed.after head).AdmitsAll rest

end TimedBucket

def BucketSection.refunded : BucketSection → ℚ
  | .refund amount => amount
  | .refill _ | .take _ => 0

def refundedIn (sections : List BucketSection) : ℚ := (sections.map BucketSection.refunded).sum

open TimedBucket

/-- What is in the bucket is between nothing and what fits in. -/
structure TimedBucket.Sound (capacity rate : ℚ) (timed : TimedBucket) : Prop where
  capacity_eq : timed.bucket.capacity = capacity
  rate_eq : timed.bucket.refillRate = rate
  nonneg : 0 ≤ timed.bucket.tokens
  room : timed.bucket.tokens ≤ capacity

variable {capacity rate amount opened : ℚ} {timed : TimedBucket} {part : BucketSection}
  {before sections : List BucketSection}

theorem sound_perMinute (positive : 0 ≤ amount) :
    (TimedBucket.perMinute amount opened).Sound amount (amount / 60) :=
  ⟨rfl, rfl, positive, le_rfl⟩

section Sound

theorem TimedBucket.taken_nonneg (admits : timed.Admits part) : 0 ≤ timed.taken part := by
  cases part with
  | refill | refund => exact le_rfl
  | take amount =>
    rw [taken]
    split
    · exact admits
    · exact le_rfl

/-- The clock does not go back. -/
theorem lastRefill_le_afterAll (admits : timed.AdmitsAll sections) :
    timed.lastRefill ≤ (timed.afterAll sections).lastRefill := by
  induction sections generalizing timed with
  | nil => exact le_rfl
  | cons head rest ih =>
    refine le_trans ?_ (ih admits.2)
    cases head with
    | refill now => exact admits.1
    | refund => exact le_rfl
    | take amount =>
      simp only [TimedBucket.after]
      split <;> exact le_rfl

variable (sound : timed.Sound capacity rate)
include sound

/-- Nothing is taken that was not there before, or refilled, or given back. -/
theorem TimedBucket.Sound.tokens_after (admits : timed.Admits part) :
    (timed.after part).bucket.tokens + timed.taken part ≤
      timed.bucket.tokens + rate * ((timed.after part).lastRefill - timed.lastRefill) +
        part.refunded := by
  cases part with
  | refill now =>
    have elapsed : max (now - timed.lastRefill) 0 = now - timed.lastRefill :=
      max_eq_left (sub_nonneg.mpr admits)
    simp only [TimedBucket.after, TokenBucket.refill, taken, BucketSection.refunded, elapsed,
      sound.rate_eq]
    linarith [min_le_left (timed.bucket.tokens + (now - timed.lastRefill) * rate)
      timed.bucket.capacity]
  | take amount =>
    simp only [TimedBucket.after, taken, BucketSection.refunded]
    split <;> simp
  | refund amount =>
    simp only [TimedBucket.after, TokenBucket.refund, taken, BucketSection.refunded]
    linarith [min_le_left (timed.bucket.tokens + amount) timed.bucket.capacity]

variable (steady : 0 ≤ rate)
include steady

theorem TimedBucket.Sound.after (admits : timed.Admits part) :
    (timed.after part).Sound capacity rate := by
  obtain ⟨sameCapacity, sameRate, nonneg, room⟩ := sound
  cases part with
  | refill now =>
    have gained : 0 ≤ max (now - timed.lastRefill) 0 * rate := mul_nonneg (le_max_right _ _) steady
    refine ⟨sameCapacity, sameRate, ?_, ?_⟩ <;>
      simp only [TimedBucket.after, TokenBucket.refill, sameCapacity, sameRate]
    · exact le_min (by linarith) (by linarith)
    · exact min_le_right _ _
  | take amount =>
    simp only [TimedBucket.after]
    split
    · rename_i grants
      exact ⟨sameCapacity, sameRate, sub_nonneg.mpr grants, (sub_le_self _ admits).trans room⟩
    · exact ⟨sameCapacity, sameRate, nonneg, room⟩
  | refund amount =>
    have returned : 0 ≤ amount := admits
    refine ⟨sameCapacity, sameRate, ?_, ?_⟩ <;>
      simp only [TimedBucket.after, TokenBucket.refund, sameCapacity]
    · exact le_min (by linarith) (by linarith)
    · exact min_le_right _ _

theorem TimedBucket.Sound.afterAll (admits : timed.AdmitsAll sections) :
    (timed.afterAll sections).Sound capacity rate := by
  induction sections generalizing timed with
  | nil => exact sound
  | cons head rest ih => exact ih (sound.after steady admits.1) admits.2

theorem TimedBucket.Sound.tokens_afterAll (admits : timed.AdmitsAll sections) :
    (timed.afterAll sections).bucket.tokens + timed.takenIn sections ≤
      timed.bucket.tokens + rate * ((timed.afterAll sections).lastRefill - timed.lastRefill) +
        refundedIn sections := by
  induction sections generalizing timed with
  | nil => simp [TimedBucket.afterAll, takenIn, refundedIn]
  | cons head rest ih =>
    have first := sound.tokens_after admits.1
    have later := ih (sound.after steady admits.1) admits.2
    simp only [TimedBucket.afterAll, List.foldl_cons, takenIn, refundedIn, List.map_cons,
      List.sum_cons] at later ⊢
    linarith

omit steady in
/-- Of what was there and what the time has brought, nothing is lost but what does not fit in. -/
theorem TimedBucket.Sound.le_tokens_after (admits : timed.Admits part) :
    min capacity
        (timed.bucket.tokens + rate * ((timed.after part).lastRefill - timed.lastRefill)) ≤
      (timed.after part).bucket.tokens + timed.taken part := by
  cases part with
  | refill now =>
    have elapsed : max (now - timed.lastRefill) 0 = now - timed.lastRefill :=
      max_eq_left (sub_nonneg.mpr admits)
    simp only [TimedBucket.after, TokenBucket.refill, taken, elapsed, sound.rate_eq,
      sound.capacity_eq, add_zero, mul_comm rate]
    exact (min_comm _ _).le
  | take amount =>
    simp only [TimedBucket.after, taken]
    split <;> simp
  | refund amount =>
    have returned : 0 ≤ amount := admits
    simp only [TimedBucket.after, TokenBucket.refund, taken, sound.capacity_eq, sub_self, mul_zero,
      add_zero]
    exact le_min ((min_le_right _ _).trans (le_add_of_nonneg_right returned)) (min_le_left _ _)

theorem TimedBucket.Sound.le_tokens_afterAll (admits : timed.AdmitsAll sections) :
    min capacity
        (timed.bucket.tokens + rate * ((timed.afterAll sections).lastRefill - timed.lastRefill)) ≤
      (timed.afterAll sections).bucket.tokens + timed.takenIn sections := by
  induction sections generalizing timed with
  | nil => simp [TimedBucket.afterAll, takenIn]
  | cons head rest ih =>
    have first := sound.le_tokens_after admits.1
    have later := ih (sound.after steady admits.1) admits.2
    have taken : 0 ≤ timed.taken head := timed.taken_nonneg admits.1
    have elapsed : 0 ≤ rate * (((timed.after head).afterAll rest).lastRefill -
        (timed.after head).lastRefill) :=
      mul_nonneg steady (sub_nonneg.mpr (lastRefill_le_afterAll admits.2))
    simp only [TimedBucket.afterAll, List.foldl_cons, takenIn] at later elapsed ⊢
    rcases min_le_iff.mp first with full | short
    · rcases min_le_iff.mp later with fuller | shorter
      · exact min_le_iff.mpr (.inl (by linarith))
      · exact min_le_iff.mpr (.inl (by linarith))
    · rcases min_le_iff.mp later with fuller | shorter
      · exact min_le_iff.mpr (.inl (by linarith))
      · exact min_le_iff.mpr (.inr (by linarith))

end Sound

theorem admitsAll_append {later : List BucketSection} :
    timed.AdmitsAll (sections ++ later) ↔
      timed.AdmitsAll sections ∧ (timed.afterAll sections).AdmitsAll later := by
  induction sections generalizing timed with
  | nil => simp [AdmitsAll, TimedBucket.afterAll]
  | cons head rest ih => simp [AdmitsAll, TimedBucket.afterAll, ih, and_assoc]

section Reached

variable {start last : TimedBucket} (positive : 0 ≤ amount)
  (reached : (perMinute amount opened).afterAll before = start)
include positive reached

/-- In every stretch of every interleaving, no more is taken than a minute's amount, what the time
between the last refill before it and the last one in it brings, and what is given back in it. -/
theorem takenIn_le (ends : start.afterAll sections = last)
    (admits : (perMinute amount opened).AdmitsAll (before ++ sections)) :
    start.takenIn sections ≤
      amount + amount / 60 * (last.lastRefill - start.lastRefill) + refundedIn sections := by
  subst reached ends
  obtain ⟨earlier, within⟩ := admitsAll_append.mp admits
  have steady : 0 ≤ amount / 60 := by linarith
  have sound := (@sound_perMinute amount opened positive).afterAll steady earlier
  have kept := sound.tokens_afterAll steady within
  have left := (sound.afterAll steady within).nonneg
  linarith [sound.room]

/-- A refused caller that waits as long as it is told gets what it asks for, whatever is refilled and
given back meanwhile, if nothing is taken and it fits into the bucket; otherwise it never gets it. -/
theorem granted_after_wait (admits : (perMinute amount opened).AdmitsAll before) {asked : ℚ}
    (refused : ¬ start.Grants asked) {seconds : Nat}
    (told : (start.bucket.waitTime asked).1 = some seconds) :
    (asked ≤ amount → ∀ sections, start.AdmitsAll sections → start.takenIn sections = 0 →
      start.lastRefill + (seconds + 1) ≤ (start.afterAll sections).lastRefill →
        (start.afterAll sections).Grants asked) ∧
      (amount < asked → ∀ sections, start.AdmitsAll sections →
        ¬ (start.afterAll sections).Grants asked) := by
  subst reached
  have steady : 0 ≤ amount / 60 := by linarith
  have sound := (@sound_perMinute amount opened positive).afterAll steady admits
  generalize (perMinute amount opened).afterAll before = start at sound refused told
  refine ⟨fun fits sections within untaken waited => ?_, fun large sections within => ?_⟩
  · have short : start.bucket.tokens < asked := not_le.mp refused
    have rate : 0 < amount / 60 := by linarith [sound.nonneg]
    have still := refill_zero (sound.room.trans_eq sound.capacity_eq.symm)
    simp only [waitTime, still, if_neg (not_le.mpr short), sound.rate_eq, if_pos rate] at told
    split at told
    · cases told
      have enough := Nat.lt_floor_add_one ((asked - start.bucket.tokens) / (amount / 60))
      rw [div_lt_iff₀ rate] at enough
      have gained := mul_le_mul_of_nonneg_left (le_sub_iff_add_le'.mpr waited) steady
      have refilled := sound.le_tokens_afterAll steady within
      rw [untaken, add_zero] at refilled
      exact (le_min fits (by linarith)).trans refilled
    · cases told
  · exact not_le.mpr ((sound.afterAll steady within).room.trans_lt large)

end Reached

theorem takenIn_le_twoCallers :
    (perMinute 60 0).takenIn [.take 60, .take 30, .refill 30, .take 30] ≤
      60 + 60 / 60 * (((perMinute 60 0).afterAll
        [.take 60, .take 30, .refill 30, .take 30]).lastRefill - (perMinute 60 0).lastRefill) +
        refundedIn [.take 60, .take 30, .refill 30, .take 30] :=
  @takenIn_le 60 0 [] _ _ _ (by decide +kernel) rfl rfl
    ⟨by decide +kernel, by decide +kernel, by decide +kernel, by decide +kernel, trivial⟩

/-- The bucket is emptied; another caller refills it, is refused and gives something back before the
first one is granted. -/
theorem granted_after_wait_emptied :
    ¬ ((perMinute 60 0).afterAll [.take 60]).Grants 30 ∧
      (((perMinute 60 0).afterAll [.take 60]).afterAll
        [.refill 10, .take 40, .refund 5, .refill 31]).Grants 30 := by
  have refused : ¬ ((perMinute 60 0).afterAll [.take 60]).Grants 30 := by decide +kernel
  exact ⟨refused, (@granted_after_wait 60 0 [.take 60] _ (by decide +kernel) rfl
    ⟨by decide +kernel, trivial⟩ 30 refused 30 (by decide +kernel)).1 (by decide +kernel) _
      ⟨by decide +kernel, by decide +kernel, by decide +kernel, by decide +kernel, trivial⟩
      (by decide +kernel) (by decide +kernel)⟩

end UltimateCoders.Engine
