/-
**Dates in headers of S3.**

S3 writes the date of an object in a header in the form `Tue, 19 Jun 2012 10:04:06 GMT`.
`GetHeaderTime` (`s3if.c`) reads it, takes it for a local time, and adds the offset of the time zone
at the start of the program, which need not be the offset at that date.

Main definitions:

* `AwsS3fs.httpDate` — the date that S3 writes for a moment;
* `AwsS3fs.summertime` — a time zone that puts the clocks forward once.

Main results:

* `AwsS3fs.decodeTime_httpDate` — the text is read correctly;
* `AwsS3fs.getHeaderTime_httpDate_iff` — **exactly when the moment is found again**;
* `AwsS3fs.getHeaderTime_httpDate_of_shown` — the offset that is needed is the one in force when the
  clocks show the date.
-/

import AwsS3fs.FileMetadata

set_option relaxedAutoImplicit false
set_option autoImplicit false

namespace AwsS3fs

open CLib Calendar

/-! ### Dates of S3 -/

/-- The names of the weekdays, from Sunday on. -/
def dayNames : List Bytes :=
  [ascii "Sun", ascii "Mon", ascii "Tue", ascii "Wed", ascii "Thu", ascii "Fri", ascii "Sat"]

/-- **The date that S3 writes** for a moment. -/
def httpDate (t : ℤ) : Bytes :=
  let tm := Time.ofSeconds t
  dayNames.getD (weekday (dayOfDate tm.date)) [] ++ (ascii ", " ++ (formatTwo tm.date.day ++
    32 :: (monthNames.getD tm.date.month [] ++ 32 :: (formatInt tm.date.year ++
      32 :: formatClock tm))))

example : httpDate 1340100246 = ascii "Tue, 19 Jun 2012 10:04:06 GMT" := by decide +kernel

theorem dayNames_spec (i : ℕ) : ∀ ch ∈ dayNames.getD i [], isdigit ch = false := by
  intro ch hch
  have hmem : ∀ name ∈ dayNames, ∀ ch ∈ name, isdigit ch = false := by decide +kernel
  rw [List.getD_eq_getElem?_getD] at hch
  cases hi : dayNames[i]? with
  | none =>
      rw [hi] at hch
      cases hch
  | some name =>
      rw [hi] at hch
      exact hmem name (List.mem_of_getElem? hi) ch hch

/-- From 1970 on the year is one that can be read. -/
theorem year_ofSeconds {t : ℤ} (ht : 0 ≤ t) : 1900 ≤ (Time.ofSeconds t).date.year := by
  have hclock : (Zone.fixed 0 (by decide)).clock t = t := Int.add_zero t
  rw [← hclock]
  exact year_of_clock ht

/-- **The text is read correctly.** -/
theorem decodeTime_httpDate {t : ℤ} (ht : 0 ≤ t) (hyear : (Time.ofSeconds t).date.year ≤ 9999) :
    decodeTime (httpDate t) = .ok (Time.ofSeconds t) := by
  have hold := year_ofSeconds ht
  obtain ⟨hmonth, -, hday, -⟩ : (Time.ofSeconds t).date.month < 12 ∧ _ ∧
      (Time.ofSeconds t).date.day ≤ 31 ∧ _ := dateOfDay_spec (t / 86400)
  obtain ⟨hhour, hminute, hsecond⟩ := Time.ofSeconds_spec t
  obtain ⟨year, hy⟩ := Int.eq_ofNat_of_zero_le (by omega : 0 ≤ (Time.ofSeconds t).date.year)
  obtain ⟨htwo, hdays, hvalue⟩ :=
    formatTwo_spec (Time.ofSeconds t).date.day (by omega)
  have hnone : formatTwo (Time.ofSeconds t).date.day ≠ [] := by
    rw [← List.length_pos_iff, htwo]
    exact Nat.two_pos
  have hlength : (formatInt year).length = 4 := length_formatInt (by omega) (by omega)
  have hdigits : ∀ d ∈ formatInt (year : ℤ), isdigit d = true := fun d => isdigit_of_mem_formatInt
  have hdecode : decodeYear (formatInt year ++ 32 :: formatClock (Time.ofSeconds t)) =
      .ok year := by
    rw [decodeYear, takeDigits_append _ hdigits hlength, decimalValue_formatInt]
    exact if_neg (by omega)
  simp only [httpDate, hy]
  rw [decodeTime_date _ (dayNames_spec _) hdays hnone htwo.le hmonth hdigits
    (formatInt_ne_nil year), hdecode, List.drop_left' hlength, hvalue]
  simp only [bind, Except.bind, decodeClock_formatClock hhour hminute hsecond, pure, Except.pure]
  rw [← hy]

/-! ### The local time -/

/-- What is stored: the moment at which the clocks show the date, and the offset at the start. -/
theorem getHeaderTime_httpDate (ctx : StatContext) {t : ℤ} (ht : 0 ≤ t)
    (hyear : (Time.ofSeconds t).date.year ≤ 9999) :
    getHeaderTime ctx (httpDate t) =
      .ok (ctx.zone.toInstant t + ctx.zone.offset ctx.start) := by
  rw [getHeaderTime, decodeTime_httpDate ht hyear]
  simp only [bind, Except.bind, Time.seconds_ofSeconds, pure, Except.pure]

/-- **Exactly when the moment is found again**: when the offset at the start is the difference
between the date and the moment at which the clocks show it. -/
theorem getHeaderTime_httpDate_iff (ctx : StatContext) {t : ℤ} (ht : 0 ≤ t)
    (hyear : (Time.ofSeconds t).date.year ≤ 9999) :
    getHeaderTime ctx (httpDate t) = .ok t ↔
      ctx.zone.offset ctx.start = t - ctx.zone.toInstant t := by
  rw [getHeaderTime_httpDate ctx ht hyear, Except.ok.injEq]
  omega

/-- The offset that is needed is the one in force when the clocks show the date, if they do. -/
theorem getHeaderTime_httpDate_of_shown (ctx : StatContext) {t : ℤ} (ht : 0 ≤ t)
    (hyear : (Time.ofSeconds t).date.year ≤ 9999) (hshown : ∃ s, ctx.zone.clock s = t) :
    getHeaderTime ctx (httpDate t) = .ok t ↔
      ctx.zone.offset ctx.start = ctx.zone.offset (ctx.zone.toInstant t) := by
  rw [getHeaderTime_httpDate ctx ht hyear, Except.ok.injEq, ← Zone.sub_toInstant hshown]
  omega

/-- Where the clocks are never changed, every moment is found again. -/
theorem getHeaderTime_httpDate_fixed {ctx : StatContext} {ahead : ℤ} {h : |ahead| < 2 ^ 31}
    (hzone : ctx.zone = .fixed ahead h) {t : ℤ} (ht : 0 ≤ t)
    (hyear : (Time.ofSeconds t).date.year ≤ 9999) : getHeaderTime ctx (httpDate t) = .ok t := by
  rw [getHeaderTime_httpDate ctx ht hyear, hzone]
  exact congrArg Except.ok (sub_add_cancel t ahead)

/-- A time zone without an offset, until the clocks are put forward by an hour. -/
def summertime : Zone where
  offset t := if 1332637200 ≤ t then 3600 else 0
  toInstant l := if 1332640800 ≤ l then l - 3600 else l
  offset_bound t := by
    split
    · decide
    · decide
  toInstant_bound l := by
    split
    · rw [sub_sub_cancel_left, abs_neg]
      decide
    · rw [sub_self]
      decide
  toInstant_spec t := by
    by_cases h : 1332637200 ≤ t
    · simp only [if_pos h, if_pos (by omega : (1332640800 : ℤ) ≤ t + 3600)]
      rw [if_pos (by omega)]
      omega
    · simp only [if_neg h, if_neg (by omega : ¬ (1332640800 : ℤ) ≤ t + 0)]
      rw [if_neg (by omega)]
      omega

/-- A program that is started in June reads a date in June. -/
theorem getHeaderTime_httpDate_june :
    (getHeaderTime (june summertime) (httpDate 1340100246) = .ok 1340100246 ↔
      summertime.offset 1340100246 = 1340100246 - summertime.toInstant 1340100246) ∧
      summertime.offset 1340100246 = 1340100246 - summertime.toInstant 1340100246 :=
  ⟨getHeaderTime_httpDate_iff (june summertime) (by decide) (by decide +kernel), by decide⟩

/-- **A program that is started in winter** takes dates in summer for an hour too early. -/
theorem not_getHeaderTime_httpDate_winter :
    ¬ ∀ (ctx : StatContext) (t : ℤ), 0 ≤ t → (Time.ofSeconds t).date.year ≤ 9999 →
      getHeaderTime ctx (httpDate t) = .ok t := by
  intro h
  have hwinter := h { june summertime with start := 1326000000 } 1340100246 (by decide)
    (by decide +kernel)
  rw [getHeaderTime_httpDate _ (by decide) (by decide +kernel), Except.ok.injEq] at hwinter
  revert hwinter
  decide

end AwsS3fs
