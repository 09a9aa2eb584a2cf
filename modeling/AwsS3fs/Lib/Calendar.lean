/-
**Dates and times of day.**

A day is a number, counted from the first of January 1970, and a date of the Gregorian calendar is
a year, a month and a day.  This module has both ways between them, and the same for seconds and
times of day.  Months are counted from `0`, as `struct tm` does it.  A time zone is what the clocks
are ahead at every moment, with a way back from what the clocks show.

Main definitions:

* `Calendar.yearStart`, `Calendar.monthStart` — the first day of a year and of a month;
* `Calendar.dateOfDay`, `Calendar.dayOfDate` — from days to dates and back;
* `Calendar.Time.ofSeconds`, `Calendar.Time.seconds` — from seconds to times and back;
* `Calendar.Zone` — a time zone.

Main results:

* `Calendar.yearOfDay_spec` — the year of a day;
* `Calendar.dateOfDay_spec` — **a day is found again from its date**;
* `Calendar.Time.seconds_ofSeconds` — **a second is found again from its time**.
-/

import Mathlib.Algebra.Order.Group.Unbundled.Int
import Mathlib.Tactic.SplitIfs

set_option relaxedAutoImplicit false
set_option autoImplicit false

namespace Calendar

/-! ### Years -/

/-- The years with a 29th of February. -/
def leap (y : ℤ) : Bool := y % 4 = 0 ∧ (y % 100 ≠ 0 ∨ y % 400 = 0)

/-- The first day of a year. -/
def yearStart (y : ℤ) : ℤ :=
  365 * (y - 1970) + (y - 1) / 4 - (y - 1) / 100 + (y - 1) / 400 - 477

/-- The year of a day: a guess from the mean length of a year, or the year before or after it. -/
def yearOfDay (n : ℤ) : ℤ :=
  let guess := 1970 + 400 * n / 146097
  if n < yearStart guess then guess - 1
  else if yearStart (guess + 1) ≤ n then guess + 1
  else guess

theorem yearStart_succ (y : ℤ) :
    yearStart (y + 1) = yearStart y + if leap y then 366 else 365 := by
  simp only [yearStart, leap, decide_eq_true_eq]
  split <;> omega

theorem yearStart_le {y z : ℤ} (h : y ≤ z) : yearStart y ≤ yearStart z := by
  simp only [yearStart]
  omega

theorem yearStart_lt {y z : ℤ} (h : y < z) : yearStart y + 365 ≤ yearStart z := by
  simp only [yearStart]
  omega

theorem yearOfDay_spec (n : ℤ) :
    yearStart (yearOfDay n) ≤ n ∧ n < yearStart (yearOfDay n + 1) := by
  simp only [yearOfDay]
  split
  · rename_i h
    rw [sub_add_cancel]
    refine ⟨?_, h⟩
    simp only [yearStart]
    omega
  · split
    · rename_i h
      refine ⟨h, ?_⟩
      simp only [yearStart]
      omega
    · omega

/-! ### Months -/

/-- The first day of a month in the year. -/
def monthStart (leap : Bool) (m : ℕ) : ℕ :=
  [0, 31, 59, 90, 120, 151, 181, 212, 243, 273, 304, 334].getD m 365 +
    if leap && 2 ≤ m then 1 else 0

/-- The month of a day in the year. -/
def monthOfDay (leap : Bool) (d : ℕ) : ℕ := (List.range 12).countP (monthStart leap · ≤ d) - 1

theorem monthStart_le : ∀ (leap : Bool) (m : ℕ), m < 12 → monthStart leap m ≤ 335 := by decide

theorem monthOfDay_spec : ∀ (leap : Bool) (d : ℕ), d < (if leap then 366 else 365) →
    monthOfDay leap d < 12 ∧ monthStart leap (monthOfDay leap d) ≤ d ∧
      d < monthStart leap (monthOfDay leap d) + 31 := by
  decide +kernel

/-! ### Dates -/

/-- A date.  Months are counted from `0` and days from `1`. -/
structure Date where
  year : ℤ
  month : ℕ
  day : ℕ
  deriving DecidableEq

def dateOfDay (n : ℤ) : Date :=
  let y := yearOfDay n
  let d := (n - yearStart y).toNat
  let m := monthOfDay (leap y) d
  ⟨y, m, d - monthStart (leap y) m + 1⟩

/-- The day of a date, and of a day beyond the end of the month. -/
def dayOfDate (date : Date) : ℤ :=
  yearStart date.year + monthStart (leap date.year) date.month + date.day - 1

theorem dateOfDay_spec (n : ℤ) :
    (dateOfDay n).month < 12 ∧ 1 ≤ (dateOfDay n).day ∧ (dateOfDay n).day ≤ 31 ∧
      dayOfDate (dateOfDay n) = n := by
  obtain ⟨hle, hlt⟩ := yearOfDay_spec n
  rw [yearStart_succ] at hlt
  obtain ⟨hmonth, hstart, hend⟩ := monthOfDay_spec (leap (yearOfDay n))
    (n - yearStart (yearOfDay n)).toNat (by split at hlt <;> rename_i h <;> simp [h] <;> omega)
  refine ⟨hmonth, ?_, ?_, ?_⟩
  · simp only [dateOfDay]
    omega
  · simp only [dateOfDay]
    omega
  · simp only [dateOfDay, dayOfDate]
    omega

/-- Days are counted from a Thursday, and weekdays from Sunday. -/
def weekday (n : ℤ) : ℕ := ((n + 4) % 7).toNat

/-! ### Times -/

/-- A date and a time of day. -/
structure Time where
  date : Date
  hour : ℕ
  minute : ℕ
  second : ℕ
  deriving DecidableEq

namespace Time

def ofSeconds (s : ℤ) : Time where
  date := dateOfDay (s / 86400)
  hour := (s % 86400 / 3600).toNat
  minute := (s % 3600 / 60).toNat
  second := (s % 60).toNat

def seconds (t : Time) : ℤ := 86400 * dayOfDate t.date + 3600 * t.hour + 60 * t.minute + t.second

/-- **A second is found again from its time.** -/
theorem seconds_ofSeconds (s : ℤ) : (ofSeconds s).seconds = s := by
  have hday := (dateOfDay_spec (s / 86400)).2.2.2
  simp only [seconds, ofSeconds, hday]
  omega

theorem ofSeconds_spec (s : ℤ) :
    (ofSeconds s).hour < 24 ∧ (ofSeconds s).minute < 60 ∧ (ofSeconds s).second < 60 := by
  simp only [ofSeconds]
  omega

/-- A time lies before a later year, or not long after its beginning if the day is not one of the
month. -/
theorem seconds_lt {t : Time} {y : ℤ} (hyear : t.date.year < y) (hmonth : t.date.month < 12)
    (hday : t.date.day ≤ 99) (hhour : t.hour < 24) (hminute : t.minute < 60)
    (hsecond : t.second < 60) : t.seconds < 86400 * (yearStart y + 100) := by
  have hstart := yearStart_lt hyear
  have hmonth := monthStart_le (leap t.date.year) t.date.month hmonth
  simp only [seconds, dayOfDate]
  omega

/-- A time does not lie before the beginning of its year. -/
theorem le_seconds {t : Time} {y : ℤ} (hyear : y ≤ t.date.year) (hday : 1 ≤ t.date.day) :
    86400 * yearStart y ≤ t.seconds := by
  have hstart := yearStart_le hyear
  simp only [seconds, dayOfDate]
  omega

end Time

/-! ### Time zones -/

/-- A time zone: how far the clocks are ahead at every moment, in seconds, and the moment that is
taken for what the clocks show.  Where they show the same twice it is one of the two. -/
structure Zone where
  offset : ℤ → ℤ
  toInstant : ℤ → ℤ
  offset_bound : ∀ t, |offset t| < 2 ^ 31
  toInstant_bound : ∀ l, |toInstant l - l| < 2 ^ 31
  toInstant_spec : ∀ t, toInstant (t + offset t) + offset (toInstant (t + offset t)) = t + offset t

/-- What the clocks show. -/
def Zone.clock (zone : Zone) (t : ℤ) : ℤ := t + zone.offset t

/-- The moment of a time that the clocks show is as far from it as they are ahead then. -/
theorem Zone.sub_toInstant {zone : Zone} {l : ℤ} (hshown : ∃ t, zone.clock t = l) :
    l - zone.toInstant l = zone.offset (zone.toInstant l) := by
  obtain ⟨t, rfl⟩ := hshown
  have hspec := zone.toInstant_spec t
  rw [Zone.clock]
  omega

/-- A time zone that never changes its clocks. -/
def Zone.fixed (ahead : ℤ) (h : |ahead| < 2 ^ 31) : Zone where
  offset _ := ahead
  toInstant l := l - ahead
  offset_bound _ := h
  toInstant_bound l := by rwa [sub_sub_cancel_left, abs_neg]
  toInstant_spec t := by omega

end Calendar
