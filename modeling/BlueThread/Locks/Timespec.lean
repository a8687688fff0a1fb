/-
Deadlines as `timespec` values.

`to_timespec` splits a count of nanoseconds with `duration_cast`, which truncates
toward zero. The split is exact and keeps the order of the deadlines over all of
`int64_t`. But before the epoch of the clock the remainder is negative, unless it
is zero, and `pthread_cond_timedwait` refuses a negative `tv_nsec`.
-/

import BlueThread.Locks.FailedWaits

namespace BlueThread.Locks

structure Timespec where
  tvSec : Int64
  tvNsec : Int64

def nanosPerSecond : Int64 := 1000000000

/-- `std::chrono::duration_cast<std::chrono::seconds>`: integer division in
`int64_t`. -/
def durationCastSeconds (nanoseconds : Int64) : Int64 := nanoseconds / nanosPerSecond

/-- `to_timespec` of the time point this many nanoseconds after the epoch. -/
def toTimespec (timePoint : Int64) : Timespec :=
  let epoch := timePoint
  let seconds := durationCastSeconds epoch
  -- the difference is taken in the common type, which counts nanoseconds
  let nanoseconds := epoch - seconds * nanosPerSecond
  { tvSec := seconds, tvNsec := nanoseconds }

namespace Timespec

/-- `tv_nsec` is in the range that POSIX asks for. -/
def Valid (ts : Timespec) : Prop := 0 ≤ ts.tvNsec.toInt ∧ ts.tvNsec.toInt < 1000000000

def Before (left right : Timespec) : Prop :=
  left.tvSec.toInt < right.tvSec.toInt ∨
    left.tvSec.toInt = right.tvSec.toInt ∧ left.tvNsec.toInt < right.tvNsec.toInt

instance (ts : Timespec) : Decidable ts.Valid := inferInstanceAs (Decidable (_ ∧ _))

end Timespec

def einval : Int := 22

/-- `pthread_cond_timedwait`: a `tv_nsec` out of range is `EINVAL` at once.
Otherwise the wait ends in its own way. -/
def pthreadCondTimedwait (ts : Timespec) (ending : Int) : Int :=
  if ts.Valid then ending else einval

/-- How `_wait_until` is left for a deadline. -/
def waitUntilExit (absTime : Int64) (ending : Int) : WaitExit :=
  WaitForm.waitUntil.exit (pthreadCondTimedwait (toTimespec absTime) ending)

section Split

variable (timePoint : Int64)

theorem tvSec_toInt : (toTimespec timePoint).tvSec.toInt = timePoint.toInt.tdiv 1000000000 := by
  change (timePoint / nanosPerSecond).toInt = _
  have notMinusOne : nanosPerSecond ≠ -1 := by decide
  rw [Int64.toInt_div_of_ne_right timePoint nanosPerSecond notMinusOne]
  rfl

theorem tvNsec_toInt : (toTimespec timePoint).tvNsec.toInt = timePoint.toInt.tmod 1000000000 := by
  have seconds := tvSec_toInt timePoint
  change (timePoint - (toTimespec timePoint).tvSec * nanosPerSecond).toInt = _
  have unit : nanosPerSecond.toInt = 1000000000 := by decide
  -- the remainder is small, so neither operation wraps in the end
  rw [Int64.toInt_sub, Int64.toInt_mul, seconds, unit, Int.sub_bmod_bmod]
  have split := Int.tmod_add_mul_tdiv timePoint.toInt 1000000000
  have remainder : timePoint.toInt - timePoint.toInt.tdiv 1000000000 * 1000000000 =
      timePoint.toInt.tmod 1000000000 := by
    omega
  have lower := Int.lt_tmod_of_pos timePoint.toInt (show (0 : Int) < 1000000000 by decide)
  have upper := Int.tmod_lt_of_pos timePoint.toInt (show (0 : Int) < 1000000000 by decide)
  rw [remainder]
  apply Int.bmod_eq_of_le <;> omega

theorem toTimespec_exact :
    (toTimespec timePoint).tvSec.toInt * 1000000000 + (toTimespec timePoint).tvNsec.toInt =
      timePoint.toInt := by
  rw [tvSec_toInt, tvNsec_toInt]
  exact Int.tdiv_mul_add_tmod timePoint.toInt 1000000000

theorem tvNsec_bounds :
    -1000000000 < (toTimespec timePoint).tvNsec.toInt ∧
      (toTimespec timePoint).tvNsec.toInt < 1000000000 := by
  rw [tvNsec_toInt]
  constructor
  · exact Int.lt_tmod_of_pos timePoint.toInt (by decide)
  · exact Int.tmod_lt_of_pos timePoint.toInt (by decide)

theorem tvNsec_nonneg (after : 0 ≤ timePoint.toInt) :
    0 ≤ (toTimespec timePoint).tvNsec.toInt := by
  rw [tvNsec_toInt]
  exact Int.tmod_nonneg 1000000000 after

theorem tvNsec_nonpos (before : timePoint.toInt ≤ 0) :
    (toTimespec timePoint).tvNsec.toInt ≤ 0 := by
  have flipped := Int.tmod_nonneg 1000000000 (show 0 ≤ -timePoint.toInt by omega)
  rw [Int.neg_tmod] at flipped
  rw [tvNsec_toInt]
  omega

theorem toTimespec_valid_iff :
    (toTimespec timePoint).Valid ↔
      0 ≤ timePoint.toInt ∨ (1000000000 : Int) ∣ timePoint.toInt := by
  constructor
  · intro valid
    by_cases after : 0 ≤ timePoint.toInt
    · exact Or.inl after
    · right
      -- a remainder that is neither negative nor positive
      have nonpos := tvNsec_nonpos timePoint (by omega)
      have zero : (toTimespec timePoint).tvNsec.toInt = 0 := by
        have nonneg := valid.1
        omega
      rw [tvNsec_toInt] at zero
      exact Int.dvd_of_tmod_eq_zero zero
  · intro condition
    refine ⟨?_, (tvNsec_bounds timePoint).2⟩
    cases condition with
    | inl after => exact tvNsec_nonneg timePoint after
    | inr multiple =>
        rw [tvNsec_toInt, Int.tmod_eq_zero_of_dvd multiple]

end Split

theorem toTimespec_before_iff (first second : Int64) :
    (toTimespec first).Before (toTimespec second) ↔ first.toInt < second.toInt := by
  have firstExact := toTimespec_exact first
  have firstBounds := tvNsec_bounds first
  have firstNonneg := tvNsec_nonneg first
  have firstNonpos := tvNsec_nonpos first
  have secondExact := toTimespec_exact second
  have secondBounds := tvNsec_bounds second
  have secondNonneg := tvNsec_nonneg second
  have secondNonpos := tvNsec_nonpos second
  rw [Timespec.Before]
  generalize (toTimespec first).tvSec.toInt = firstSec at *
  generalize (toTimespec first).tvNsec.toInt = firstNsec at *
  generalize (toTimespec second).tvSec.toInt = secondSec at *
  generalize (toTimespec second).tvNsec.toInt = secondNsec at *
  constructor
  · intro before
    cases before with
    | inl seconds => omega
    | inr nanoseconds => omega
  · intro earlier
    omega

/-- What is expected of a deadline: a valid `timespec` of exactly its count, one
that no wait throws `EINVAL` for, and one that comes before another exactly if the
time point does. -/
structure SoundDeadline (timePoint : Int64) : Prop where
  valid : (toTimespec timePoint).Valid
  exactly : (toTimespec timePoint).tvSec.toInt * 1000000000 +
    (toTimespec timePoint).tvNsec.toInt = timePoint.toInt
  accepted : ∀ ending, ending ≠ einval → waitUntilExit timePoint ending ≠ .threw einval
  ordered : ∀ other, ((toTimespec timePoint).Before (toTimespec other) ↔ timePoint < other) ∧
    ((toTimespec other).Before (toTimespec timePoint) ↔ other < timePoint)

theorem waitUntilExit_accepted {timePoint : Int64} (valid : (toTimespec timePoint).Valid)
    {ending : Int} (other : ending ≠ einval) :
    waitUntilExit timePoint ending ≠ .threw einval := by
  intro threw
  rw [waitUntilExit, pthreadCondTimedwait, if_pos valid, WaitForm.exit] at threw
  by_cases woken : ending = 0
  · rw [if_pos woken] at threw
    cases threw
  · rw [if_neg woken] at threw
    by_cases late : ending = etimedout
    · rw [if_pos late] at threw
      cases threw
    · rw [if_neg late, WaitExit.threw.injEq] at threw
      exact other threw

/-- A deadline is sound exactly if it is not before the epoch, or a whole number of
seconds before it. -/
theorem soundDeadline_iff (timePoint : Int64) :
    SoundDeadline timePoint ↔ 0 ≤ timePoint.toInt ∨ (1000000000 : Int) ∣ timePoint.toInt := by
  constructor
  · intro sound
    exact (toTimespec_valid_iff timePoint).mp sound.valid
  · intro condition
    have valid := (toTimespec_valid_iff timePoint).mpr condition
    exact
      { valid := valid
        exactly := toTimespec_exact timePoint
        accepted := fun _ending other => waitUntilExit_accepted valid other
        ordered := fun other => by
          rw [Int64.lt_iff_toInt_lt, Int64.lt_iff_toInt_lt]
          exact ⟨toTimespec_before_iff timePoint other, toTimespec_before_iff other timePoint⟩ }

/-- One nanosecond before the epoch: `tv_nsec` is negative, and the wait throws
instead of timing out. -/
theorem soundDeadline_before_epoch :
    (toTimespec (-1)).tvNsec.toInt = -1 ∧
      waitUntilExit (-1) etimedout = .threw einval ∧ ¬ SoundDeadline (-1) := by
  have negative : (toTimespec (-1)).tvNsec.toInt = -1 := by decide +kernel
  refine ⟨negative, by decide +kernel, ?_⟩
  intro sound
  have nonneg := sound.valid.1
  omega

end BlueThread.Locks
