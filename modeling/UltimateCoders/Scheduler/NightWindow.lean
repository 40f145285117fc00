import Mathlib.Algebra.Order.Group.Int

/-! # The night window

Work is deferred to a window that opens every day at one time and closes at another, the next
morning when the closing time is the earlier one. What is computed about it is compared with the
moments at which it is open.
-/

namespace UltimateCoders.Scheduler

/-- A time of the day: the second, and the nanoseconds of it, which pass one thousand million
within a leap second. -/
structure NaiveTime where
  secs : Nat
  frac : Nat
  secs_lt : secs < 86400
  frac_lt : frac < 2000000000
  deriving DecidableEq

/-- How far into the day the time is, in nanoseconds of which a second has room for two thousand
million. -/
def NaiveTime.ticks (time : NaiveTime) : Nat := time.secs * 2000000000 + time.frac

theorem NaiveTime.ticks_injective : Function.Injective NaiveTime.ticks := by
  rintro ⟨secs, frac, secs_lt, frac_lt⟩ ⟨secs', frac', secs_lt', frac_lt'⟩ same
  simp only [ticks] at same
  simp only [mk.injEq]
  omega

instance : LinearOrder NaiveTime := LinearOrder.lift' NaiveTime.ticks NaiveTime.ticks_injective

theorem NaiveTime.lt_iff_ticks {first second : NaiveTime} :
    first < second ↔ first.ticks < second.ticks :=
  Iff.rfl

theorem NaiveTime.ticks_lt (time : NaiveTime) : time.ticks < 172800000000000 := by
  have secs := time.secs_lt
  have frac := time.frac_lt
  simp only [ticks]
  omega

/-- A date, counted in days, and a time of that day. -/
structure NaiveDateTime where
  date : Int
  time : NaiveTime
  deriving DecidableEq

/-- A moment: the seconds since the epoch, and the nanoseconds of the last of them. -/
structure DateTime where
  secs : Int
  frac : Nat
  frac_lt : frac < 2000000000
  deriving DecidableEq

open DateTime

def DateTime.ticks (moment : DateTime) : Int := moment.secs * 2000000000 + moment.frac

theorem DateTime.ticks_injective : Function.Injective ticks := by
  rintro ⟨secs, frac, frac_lt⟩ ⟨secs', frac', frac_lt'⟩ same
  simp only [ticks] at same
  simp only [mk.injEq]
  omega

instance : LinearOrder DateTime := LinearOrder.lift' ticks ticks_injective

theorem DateTime.lt_iff_ticks {first second : DateTime} :
    first < second ↔ first.ticks < second.ticks :=
  Iff.rfl

theorem DateTime.le_iff_ticks {first second : DateTime} :
    first ≤ second ↔ first.ticks ≤ second.ticks :=
  Iff.rfl

/-- The moments that clocks show at a local date and time. -/
inductive LocalResult (α : Type) where
  | none
  | single (value : α)
  | ambiguous (first last : α)

variable (window : NightWindow) {α : Type}

def LocalResult.earliest : LocalResult α → Option α
  | .none => Option.none
  | .single value => some value
  | .ambiguous first _ => some first

def LocalResult.latest : LocalResult α → Option α
  | .none => Option.none
  | .single value => some value
  | .ambiguous _ last => some last

def LocalResult.map {β : Type} (f : α → β) : LocalResult α → LocalResult β
  | .none => .none
  | .single value => .single (f value)
  | .ambiguous first last => .ambiguous (f first) (f last)

/-- A time zone: how many seconds its clocks are ahead at a moment, and at a local date and time. -/
structure Tz where
  offsetFromUtc : DateTime → Int
  offsetFromLocal : NaiveDateTime → LocalResult Int

/-- Clocks that are always ahead by the same. -/
def Tz.ConstantOffset (tz : Tz) (offset : Int) : Prop :=
  (∀ moment, tz.offsetFromUtc moment = offset) ∧ ∀ naive, tz.offsetFromLocal naive = .single offset

/-- What the clocks of a zone show. -/
def DateTime.naiveLocal (now : DateTime) (tz : Tz) : NaiveDateTime where
  date := (now.secs + tz.offsetFromUtc now) / 86400
  time := {
    secs := ((now.secs + tz.offsetFromUtc now) % 86400).toNat
    frac := now.frac
    secs_lt := by omega
    frac_lt := now.frac_lt }

def DateTime.dateNaive (now : DateTime) (tz : Tz) : Int := (now.naiveLocal tz).date

def DateTime.time (now : DateTime) (tz : Tz) : NaiveTime := (now.naiveLocal tz).time

/-- The moment at which clocks that are ahead by an offset show the date and time. -/
def NaiveDateTime.minus (naive : NaiveDateTime) (offset : Int) : DateTime where
  secs := naive.date * 86400 + naive.time.secs - offset
  frac := naive.time.frac
  frac_lt := naive.time.frac_lt

def NaiveDateTime.andLocalTimezone (naive : NaiveDateTime) (tz : Tz) : LocalResult DateTime :=
  (tz.offsetFromLocal naive).map naive.minus

structure NightWindowConfig where
  start : NaiveTime
  finish : NaiveTime
  timezone : String

inductive NightWindowError where
  | invalidTimezone (timezone : String)
  | ambiguousTime (text : String)

/-- The time at which the window opens, the time at which it closes, and the zone of both. -/
structure NightWindow where
  start : NaiveTime
  finish : NaiveTime
  tz : Tz

open NightWindow

/-- The names of time zones are read by `parse`. -/
def NightWindow.fromConfig (parse : String → Option Tz) (config : NightWindowConfig) :
    Except NightWindowError NightWindow :=
  match parse config.timezone with
  | some tz => .ok ⟨config.start, config.finish, tz⟩
  | none => .error (.invalidTimezone config.timezone)

namespace NightWindow

def crossesMidnight : Bool := decide (window.finish < window.start)

/-- Moments are read in the window's zone, into which every caller converts them. -/
def isWithinWindow (now : DateTime) : Bool :=
  let time := now.time window.tz
  if window.crossesMidnight then
    ¬ time < window.start ∨ time < window.finish
  else
    ¬ time < window.start ∧ time < window.finish

def todayWindowStart (now : DateTime) : DateTime :=
  (NaiveDateTime.andLocalTimezone ⟨now.dateNaive window.tz, window.start⟩ window.tz).earliest.getD
    now

def tomorrowWindowStart (now : DateTime) : DateTime :=
  (NaiveDateTime.andLocalTimezone
    ⟨now.dateNaive window.tz + 1, window.start⟩ window.tz).earliest.getD now

def nextWindowStart (now : DateTime) : DateTime :=
  let todayStart := window.todayWindowStart now
  if now < todayStart then todayStart else window.tomorrowWindowStart now

/-- The end of the window that starts on the date of `windowStart`. -/
def currentWindowEnd (windowStart : DateTime) : DateTime :=
  let endDate :=
    if window.crossesMidnight then windowStart.dateNaive window.tz + 1
    else windowStart.dateNaive window.tz
  (NaiveDateTime.andLocalTimezone ⟨endDate, window.finish⟩ window.tz).latest.getD windowStart

def nextWindowEnd (now : DateTime) : DateTime :=
  if window.isWithinWindow now then window.currentWindowEnd now
  else window.currentWindowEnd (window.nextWindowStart now)

end NightWindow

/-- Something holds from a moment up to another one, at which it ceases. -/
def HoldsUntil [Preorder α] (holds : α → Prop) (since ceasing : α) : Prop :=
  since < ceasing ∧ ¬ holds ceasing ∧ ∀ moment, since ≤ moment → moment < ceasing → holds moment

theorem HoldsUntil.unique [LinearOrder α] {holds : α → Prop} {since first second : α}
    (once : HoldsUntil holds since first) (again : HoldsUntil holds since second) :
    first = second := by
  rcases lt_trichotomy first second with earlier | same | later
  · exact absurd (again.2.2 first once.1.le earlier) once.2.1
  · exact same
  · exact absurd (once.2.2 second again.1.le later) again.2.1

/-- The next opening is the first moment at which the window is open again, and the next end is the
moment at which it closes after that, or now if it is open. -/
structure NightWindow.ConsistentAt (window : NightWindow) (now : DateTime) : Prop where
  start_after : now < window.nextWindowStart now
  start_within : window.isWithinWindow (window.nextWindowStart now) = true
  closed_between : ∃ closing,
    (if window.isWithinWindow now then
      HoldsUntil (fun moment => window.isWithinWindow moment = true) now closing
    else closing = now) ∧
    ∀ moment, closing < moment → moment < window.nextWindowStart now →
      window.isWithinWindow moment = false
  end_first : HoldsUntil (fun moment => window.isWithinWindow moment = true)
    (if window.isWithinWindow now then now else window.nextWindowStart now)
    (window.nextWindowEnd now)

section ConstantOffset

variable {tz : Tz} {offset : Int} {naive : NaiveDateTime} {now : DateTime}

theorem ticks_minus :
    (naive.minus offset).ticks =
      naive.date * 172800000000000 + naive.time.ticks - offset * 2000000000 := by
  simp only [ticks, NaiveTime.ticks, NaiveDateTime.minus]
  omega

section

variable (constant : tz.ConstantOffset offset)

include constant

theorem Tz.ConstantOffset.ticks_eq :
    now.ticks = now.dateNaive tz * 172800000000000 + (now.time tz).ticks - offset * 2000000000 := by
  simp only [ticks, NaiveTime.ticks, dateNaive, time, naiveLocal, constant.1]
  omega

theorem Tz.ConstantOffset.naiveLocal_minus : (naive.minus offset).naiveLocal tz = naive := by
  obtain ⟨date, secs, frac, secs_lt, frac_lt⟩ := naive
  simp only [naiveLocal, NaiveDateTime.minus, constant.1, NaiveDateTime.mk.injEq,
    NaiveTime.mk.injEq, and_true]
  omega

theorem Tz.ConstantOffset.time_minus : (naive.minus offset).time tz = naive.time := by
  rw [time, constant.naiveLocal_minus]

theorem Tz.ConstantOffset.dateNaive_minus : (naive.minus offset).dateNaive tz = naive.date := by
  rw [dateNaive, constant.naiveLocal_minus]

theorem Tz.ConstantOffset.andLocalTimezone :
    naive.andLocalTimezone tz = .single (naive.minus offset) := by
  simp [NaiveDateTime.andLocalTimezone, constant.2, LocalResult.map]

end

end ConstantOffset

namespace NightWindow

section ConstantOffset

variable {window : NightWindow} {offset : Int} {now moment : DateTime} {naive : NaiveDateTime}
  {time : NaiveTime}

def OpenAt (window : NightWindow) (time : NaiveTime) : Prop :=
  window.finish.ticks < window.start.ticks ∧
      (window.start.ticks ≤ time.ticks ∨ time.ticks < window.finish.ticks) ∨
    window.start.ticks ≤ window.finish.ticks ∧
      window.start.ticks ≤ time.ticks ∧ time.ticks < window.finish.ticks

theorem crossesMidnight_iff :
    window.crossesMidnight = true ↔ window.finish.ticks < window.start.ticks := by
  simp [crossesMidnight, NaiveTime.lt_iff_ticks]

theorem isWithinWindow_iff :
    window.isWithinWindow now = true ↔ window.OpenAt (now.time window.tz) := by
  by_cases crosses : window.finish.ticks < window.start.ticks
  · have := crossesMidnight_iff.2 crosses
    simp only [isWithinWindow, this, OpenAt, if_true, decide_eq_true_eq, NaiveTime.lt_iff_ticks]
    omega
  · have : window.crossesMidnight = false := by
      rw [← Bool.not_eq_true, crossesMidnight_iff]
      exact crosses
    simp only [isWithinWindow, this, OpenAt, Bool.false_eq_true, if_false, decide_eq_true_eq,
      NaiveTime.lt_iff_ticks]
    omega

variable (constant : window.tz.ConstantOffset offset)
include constant

theorem isWithinWindow_minus :
    window.isWithinWindow (naive.minus offset) = true ↔ window.OpenAt naive.time := by
  rw [isWithinWindow_iff, constant.time_minus]

theorem nextWindowStart_eq :
    window.nextWindowStart now =
      NaiveDateTime.minus
        ⟨if (now.time window.tz).ticks < window.start.ticks then now.dateNaive window.tz
          else now.dateNaive window.tz + 1, window.start⟩ offset := by
  have today : now < NaiveDateTime.minus ⟨now.dateNaive window.tz, window.start⟩ offset ↔
      (now.time window.tz).ticks < window.start.ticks := by
    rw [lt_iff_ticks, ticks_minus, constant.ticks_eq]
    dsimp only
    omega
  simp only [nextWindowStart, todayWindowStart, tomorrowWindowStart, constant.andLocalTimezone,
    LocalResult.earliest, Option.getD_some, today]
  split <;> rfl

theorem currentWindowEnd_eq :
    window.currentWindowEnd now =
      NaiveDateTime.minus
        ⟨if window.finish.ticks < window.start.ticks then now.dateNaive window.tz + 1
          else now.dateNaive window.tz, window.finish⟩ offset := by
  simp only [currentWindowEnd, constant.andLocalTimezone, LocalResult.latest, Option.getD_some,
    crossesMidnight_iff]

theorem holdsUntil_finish {date : Int} (now : DateTime)
    (within : window.isWithinWindow now = true)
    (dated : date =
      if window.finish.ticks < window.start.ticks ∧
          window.start.ticks ≤ (now.time window.tz).ticks then
        now.dateNaive window.tz + 1
      else now.dateNaive window.tz) :
    HoldsUntil (fun moment => window.isWithinWindow moment = true) now
      (NaiveDateTime.minus ⟨date, window.finish⟩ offset) := by
  have start := window.start.ticks_lt
  have finish := window.finish.ticks_lt
  have time := (now.time window.tz).ticks_lt
  rw [isWithinWindow_iff, OpenAt] at within
  have ticks : now.ticks = now.dateNaive window.tz * 172800000000000 +
      (now.time window.tz).ticks - offset * 2000000000 := constant.ticks_eq
  refine ⟨?_, ?_, fun moment since before => ?_⟩
  · rw [lt_iff_ticks, ticks_minus, ticks]
    dsimp only
    split at dated <;> omega
  · dsimp only
    rw [isWithinWindow_minus constant, OpenAt]
    dsimp only
    omega
  · dsimp only
    have other := (moment.time window.tz).ticks_lt
    rw [le_iff_ticks, ticks, constant.ticks_eq] at since
    rw [lt_iff_ticks, ticks_minus, constant.ticks_eq] at before
    dsimp only at before
    rw [isWithinWindow_iff, OpenAt]
    split at dated <;> omega

theorem closed_before_nextWindowStart {closing : DateTime}
    (closed : if window.isWithinWindow now then
        HoldsUntil (fun moment => window.isWithinWindow moment = true) now closing
      else closing = now)
    (after : closing < moment) (before : moment < window.nextWindowStart now) :
    window.isWithinWindow moment = false := by
  have start := window.start.ticks_lt
  have finish := window.finish.ticks_lt
  have time := (now.time window.tz).ticks_lt
  have other := (moment.time window.tz).ticks_lt
  rw [nextWindowStart_eq constant, lt_iff_ticks, ticks_minus, constant.ticks_eq] at before
  dsimp only at before
  rw [Bool.eq_false_iff, ne_eq, isWithinWindow_iff, OpenAt]
  split at closed
  case isTrue within =>
    have ends := holdsUntil_finish constant now within rfl
    rw [closed.unique ends, lt_iff_ticks, ticks_minus, constant.ticks_eq] at after
    dsimp only at after
    rw [isWithinWindow_iff, OpenAt] at within
    split at after <;> split at before <;> omega
  case isFalse outside =>
    rw [closed, lt_iff_ticks, constant.ticks_eq, constant.ticks_eq] at after
    rw [isWithinWindow_iff, OpenAt] at outside
    split at before <;> omega

theorem nextWindowEnd_outside (differ : window.start.ticks ≠ window.finish.ticks)
    (outside : window.isWithinWindow now = false) :
    HoldsUntil (fun moment => window.isWithinWindow moment = true) (window.nextWindowStart now)
      (window.nextWindowEnd now) := by
  have opens : window.isWithinWindow (window.nextWindowStart now) = true := by
    rw [nextWindowStart_eq constant, isWithinWindow_minus constant, OpenAt]
    dsimp only
    omega
  simp only [nextWindowEnd, outside, Bool.false_eq_true, if_false]
  rw [currentWindowEnd_eq constant]
  refine holdsUntil_finish constant _ opens ?_
  rw [nextWindowStart_eq constant, constant.time_minus, constant.dateNaive_minus]
  simp

theorem nextWindowEnd_within_iff (within : window.isWithinWindow now = true) :
    HoldsUntil (fun moment => window.isWithinWindow moment = true) now (window.nextWindowEnd now) ↔
      ¬ (window.crossesMidnight = true ∧ now.time window.tz < window.finish) := by
  have ends := holdsUntil_finish constant now within rfl
  have opened := isWithinWindow_iff.1 within
  rw [OpenAt] at opened
  rw [crossesMidnight_iff, NaiveTime.lt_iff_ticks]
  simp only [nextWindowEnd, within, if_true]
  rw [currentWindowEnd_eq constant]
  constructor
  · rintro computed ⟨crosses, early⟩
    have same := congrArg ticks (computed.unique ends)
    simp only [ticks_minus] at same
    split at same <;> split at same <;> omega
  · intro later
    convert ends using 4
    omega

/-- What is computed at a moment is consistent with the times at which the window is open if and
only if these times differ and the moment is not one after the midnight that the window crosses. -/
theorem consistentAt_iff :
    window.ConsistentAt now ↔
      window.start ≠ window.finish ∧
        ¬ (window.crossesMidnight = true ∧ now.time window.tz < window.finish) := by
  rw [← NaiveTime.ticks_injective.ne_iff]
  constructor
  · intro consistent
    have differ : window.start.ticks ≠ window.finish.ticks := by
      have opens := consistent.start_within
      rw [nextWindowStart_eq constant, isWithinWindow_minus constant, OpenAt] at opens
      dsimp only at opens
      omega
    refine ⟨differ, fun early => ?_⟩
    have within : window.isWithinWindow now = true := by
      obtain ⟨crosses, before⟩ := early
      rw [crossesMidnight_iff] at crosses
      rw [NaiveTime.lt_iff_ticks] at before
      exact isWithinWindow_iff.2 (.inl ⟨crosses, .inr before⟩)
    have ends := consistent.end_first
    rw [if_pos within] at ends
    exact (nextWindowEnd_within_iff constant within).1 ends early
  · rintro ⟨differ, later⟩
    refine ⟨?_, ?_, ?_, ?_⟩
    · have start := window.start.ticks_lt
      have time := (now.time window.tz).ticks_lt
      rw [nextWindowStart_eq constant, lt_iff_ticks, ticks_minus, constant.ticks_eq]
      dsimp only
      split <;> omega
    · rw [nextWindowStart_eq constant, isWithinWindow_minus constant, OpenAt]
      dsimp only
      omega
    · by_cases within : window.isWithinWindow now = true
      · have ends := holdsUntil_finish constant now within rfl
        refine ⟨_, by rw [if_pos within]; exact ends, fun moment after before => ?_⟩
        exact closed_before_nextWindowStart constant (by rw [if_pos within]; exact ends) after
          before
      · refine ⟨now, by rw [if_neg within], fun moment after before => ?_⟩
        exact closed_before_nextWindowStart constant (by rw [if_neg within]) after before
    · by_cases within : window.isWithinWindow now = true
      · rw [if_pos within]
        exact (nextWindowEnd_within_iff constant within).2 later
      · rw [if_neg within]
        exact nextWindowEnd_outside constant differ (by simpa using within)

end ConstantOffset

end NightWindow

/-- Clocks that show the moments as they are counted. -/
def utc : Tz := ⟨fun _ => 0, fun _ => .single 0⟩

/-- From ten in the evening to six in the morning. -/
def sampleNight : NightWindow :=
  ⟨⟨79200, 0, by decide, by decide⟩, ⟨21600, 0, by decide, by decide⟩, utc⟩

/-- The fifteenth of January, so many hours after midnight. -/
def sampleHour (hours : Nat) : DateTime := ⟨1705276800 + hours * 3600, 0, by decide⟩

/-- At eleven in the evening what is computed agrees with the window. -/
theorem consistentAt_iff_evening : sampleNight.ConsistentAt (sampleHour 23) :=
  (@consistentAt_iff sampleNight 0 (sampleHour 23)
    ⟨fun _ => rfl, fun _ => rfl⟩).2 ⟨by decide, by decide⟩

/-- At three in the morning the window is said to end a day after it closes. -/
theorem not_consistentAt_morning :
    ∃ parse config window,
      fromConfig parse config = .ok window ∧ window.tz.ConstantOffset 0 ∧
        ¬ window.ConsistentAt (sampleHour 3) := by
  refine ⟨fun _ => some utc, ⟨sampleNight.start, sampleNight.finish, "UTC"⟩, sampleNight, rfl,
    ⟨fun _ => rfl, fun _ => rfl⟩, fun consistent => ?_⟩
  have closed : sampleNight.isWithinWindow (sampleHour 6) = true :=
    consistent.end_first.2.2 (sampleHour 6) (by decide) (by decide)
  exact absurd closed (by decide)

end UltimateCoders.Scheduler
