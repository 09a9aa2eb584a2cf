/-
**The parts of a date.**

Whether `GetHeaderTime` (`s3if.c`) stays inside the string depends on what is in it: a date, and
digits behind it that are a time of day or the beginning of one.

Main definitions:

* `AwsS3fs.DateParts`, `AwsS3fs.DateParts.Valid` — the parts of a text that are a date;
* `AwsS3fs.ReadInside` — a date is read inside its string.

Main results:

* `AwsS3fs.decodeDate_eq_ok_iff` — what is decoded are the parts of a date;
* `AwsS3fs.readInside_iff` — **exactly when a date is read inside its string**.
-/

import AwsS3fs.DateReads

set_option relaxedAutoImplicit false
set_option autoImplicit false

namespace AwsS3fs

open CLib Calendar

/-! ### The parts of a date -/

/-- The parts of a text that are a date, each from where it begins to where the next one does. -/
structure DateParts where
  front : Bytes
  day : Bytes
  month : Bytes
  middle : Bytes
  year : Bytes
  behind : Bytes
  clock : Bytes

namespace DateParts

variable (d : DateParts)

/-- The text from what is behind the year on. -/
def fromBehind : Bytes := d.behind ++ d.clock

/-- The text from the year on. -/
def fromYear : Bytes := d.year ++ d.fromBehind

/-- The text from what is behind the month on. -/
def fromMiddle : Bytes := d.middle ++ d.fromYear

/-- The text from the month on. -/
def fromMonth : Bytes := d.month ++ d.fromMiddle

/-- The text from the day on. -/
def fromDay : Bytes := d.day ++ d.fromMonth

/-- The text that has these parts. -/
def text : Bytes := d.front ++ d.fromDay

/-- The first three letters of the month. -/
def monthName : Bytes := (d.month.take 3).map tolower

/-- **The parts are a date**: a day, a month with its name, and a year of four digits, with whatever
is neither a digit nor a letter where it matters between them, and then digits again. -/
structure Valid : Prop where
  front : ∀ ch ∈ d.front, isdigit ch = false
  dayDigit : ∃ ch ∈ d.day.head?, isdigit ch = true
  day : ∀ ch ∈ d.day, isalpha ch = false
  month : ∀ ch ∈ d.month, isalpha ch = true
  monthLength : 3 ≤ d.month.length
  monthName : d.monthName ∈ months
  middle : ∀ ch ∈ d.middle, isdigit ch = false
  middleLetter : ∀ ch ∈ d.middle.head?, isalpha ch = false
  yearLength : d.year.length = 4
  year : ∀ ch ∈ d.year, isdigit ch = true
  yearValue : 1900 ≤ decimalValue d.year
  behind : ∀ ch ∈ d.behind, isdigit ch = false
  clock : ∃ ch ∈ d.clock.head?, isdigit ch = true

/-- The date. -/
def date : Date where
  year := decimalValue d.year
  month := months.idxOf d.monthName
  day := decimalValue ((d.day.take 2).takeWhile isdigit)

/-- The time, if the digits behind the date are a valid time of day. -/
def time : Time where
  date := d.date
  hour := decimalValue (d.clock.take 2)
  minute := decimalValue ((d.clock.drop 3).take 2)
  second := decimalValue ((d.clock.drop 6).take 2)

end DateParts

section Parts

variable {s : Bytes}

theorem findChar_eq_ok_iff {p : UInt8 → Bool} {rest : Bytes} :
    findChar p s = .ok rest ↔
      ∃ a, s = a ++ rest ∧ (∀ ch ∈ a, p ch = false) ∧ ∃ c ∈ rest.head?, p c = true := by
  constructor
  · intro h
    rcases findChar_cases p s with ⟨-, hnone⟩ | ⟨a, c, t, rfl, ha, hc, hfind⟩
    · rw [hnone] at h
      cases h
    · rw [hfind, Except.ok.injEq] at h
      exact ⟨a, by rw [h], ha, c, by rw [← h]; rfl, hc⟩
  · rintro ⟨a, rfl, ha, c, hhead, hc⟩
    obtain ⟨t, rfl⟩ := List.head?_eq_some_iff.1 hhead
    exact findChar_append t ha hc

/-- Each name stands for its index. -/
theorem findIdx?_months : ∀ name ∈ months,
    months.findIdx? (· = name) = some (months.idxOf name) := by
  decide +kernel

theorem decodeMonth_eq_ok_iff {month : ℕ} :
    decodeMonth s = .ok month ↔
      3 ≤ (s.takeWhile isalpha).length ∧ (s.take 3).map tolower ∈ months ∧
        month = months.idxOf ((s.take 3).map tolower) := by
  rw [decodeMonth]
  by_cases hshort : (s.takeWhile isalpha).length < 3
  · rw [if_pos hshort]
    exact iff_of_false (fun h => by cases h) fun h => absurd hshort (Nat.not_lt.2 h.1)
  · rw [if_neg hshort]
    by_cases hname : (s.take 3).map tolower ∈ months
    · rw [findIdx?_months _ hname, Except.ok.injEq]
      exact ⟨fun h => ⟨Nat.not_lt.1 hshort, hname, h.symm⟩, fun h => h.2.2.symm⟩
    · have hnone : months.findIdx? (· = (s.take 3).map tolower) = none := by
        rw [List.findIdx?_eq_none_iff]
        intro name hmem
        exact decide_eq_false fun heq => hname (heq ▸ hmem)
      rw [hnone]
      exact iff_of_false (fun h => by cases h) fun h => hname h.2.1

theorem decodeYear_eq_ok_iff {year : ℕ} :
    decodeYear s = .ok year ↔
      ((s.take 4).length = 4 ∧ (s.take 4).all isdigit = true ∧ 1900 ≤ decimalValue (s.take 4)) ∧
        year = decimalValue (s.take 4) := by
  rw [decodeYear, takeDigits]
  by_cases hdigits : (s.take 4).length = 4 ∧ (s.take 4).all isdigit = true
  · rw [if_pos hdigits, Runs.ok_bind]
    by_cases hearly : decimalValue (s.take 4) < 1900
    · rw [if_pos hearly]
      exact iff_of_false (fun h => by cases h) fun h => absurd hearly (Nat.not_lt.2 h.1.2.2)
    · rw [if_neg hearly, Except.ok.injEq]
      exact ⟨fun h => ⟨⟨hdigits.1, hdigits.2, Nat.not_lt.1 hearly⟩, h.symm⟩, fun h => h.2.symm⟩
  · rw [if_neg hdigits]
    exact iff_of_false (fun h => by cases h) fun h => hdigits ⟨h.1.1, h.1.2.1⟩

/-- A letter is no digit. -/
theorem isdigit_of_isalpha {ch : UInt8} (h : isalpha ch = true) : isdigit ch = false := by
  by_contra hdigit
  rw [isalpha_of_isdigit (Bool.not_eq_false _ ▸ hdigit)] at h
  exact Bool.false_ne_true h

/-- The day ends where the letters begin. -/
theorem takeWhile_take_day {day rest : Bytes} (hday : day ≠ [])
    (hrest : ∃ ch ∈ rest.head?, isalpha ch = true) :
    ((day ++ rest).take 2).takeWhile isdigit = (day.take 2).takeWhile isdigit := by
  obtain ⟨ch, hch, halpha⟩ := hrest
  obtain ⟨rest, rfl⟩ := List.head?_eq_some_iff.1 hch
  match day with
  | [c] =>
      by_cases hc : isdigit c = true
      · simp [hc, isdigit_of_isalpha halpha]
      · simp [hc]
  | c :: c' :: day => rfl

/-- The letters of the month end where its text does. -/
theorem takeWhile_month {month rest : Bytes} (hmonth : ∀ ch ∈ month, isalpha ch = true)
    (hrest : ∃ ch ∈ rest.head?, isalpha ch = false) :
    (month ++ rest).takeWhile isalpha = month ∧ (month ++ rest).dropWhile isalpha = rest := by
  obtain ⟨ch, hch, halpha⟩ := hrest
  obtain ⟨rest, rfl⟩ := List.head?_eq_some_iff.1 hch
  have hnot : ¬ isalpha ch = true := by
    rw [halpha]
    exact Bool.false_ne_true
  rw [List.takeWhile_append_of_pos hmonth, List.dropWhile_append_of_pos hmonth,
    List.takeWhile_cons_of_neg hnot, List.dropWhile_cons_of_neg hnot]
  exact ⟨List.append_nil _, rfl⟩

/-- A text that is not empty begins with one of its characters. -/
theorem exists_head_of_forall {p : UInt8 → Bool} (hs : s ≠ []) (h : ∀ ch ∈ s, p ch = true) :
    ∃ ch ∈ s.head?, p ch = true := by
  obtain ⟨ch, s, rfl⟩ := List.exists_cons_of_ne_nil hs
  exact ⟨ch, rfl, h ch List.mem_cons_self⟩

namespace DateParts.Valid

variable {d : DateParts} (h : d.Valid)
include h

theorem day_ne_nil : d.day ≠ [] := by
  rintro hnil
  obtain ⟨c, hc, -⟩ := h.dayDigit
  rw [hnil] at hc
  cases hc

theorem monthHead : ∃ ch ∈ d.fromMonth.head?, isalpha ch = true := by
  have hne : d.month ≠ [] := List.ne_nil_of_length_pos (by have := h.monthLength; omega)
  obtain ⟨ch, hch, halpha⟩ := exists_head_of_forall hne h.month
  exact ⟨ch, List.mem_head?_append_of_mem_head? hch, halpha⟩

theorem yearHead : ∃ ch ∈ d.fromYear.head?, isdigit ch = true := by
  have hne : d.year ≠ [] := List.ne_nil_of_length_pos (by have := h.yearLength; omega)
  obtain ⟨ch, hch, hdigit⟩ := exists_head_of_forall hne h.year
  exact ⟨ch, List.mem_head?_append_of_mem_head? hch, hdigit⟩

/-- There is no letter right behind the month. -/
theorem middleHead : ∃ ch ∈ d.fromMiddle.head?, isalpha ch = false := by
  cases hmiddle : d.middle with
  | nil =>
      obtain ⟨ch, hch, hdigit⟩ := h.yearHead
      exact ⟨ch, by rwa [fromMiddle, hmiddle], isalpha_of_isdigit hdigit⟩
  | cons ch middle =>
      exact ⟨ch, by rw [fromMiddle, hmiddle]; rfl, h.middleLetter ch (by rw [hmiddle]; rfl)⟩

theorem decodeMonth_fromMonth : decodeMonth d.fromMonth = .ok (months.idxOf d.monthName) := by
  have hthree : d.fromMonth.take 3 = d.month.take 3 := List.take_append_of_le_length h.monthLength
  rw [decodeMonth_eq_ok_iff, hthree, fromMonth, (takeWhile_month h.month h.middleHead).1]
  exact ⟨h.monthLength, h.monthName, rfl⟩

theorem decodeYear_fromYear : decodeYear d.fromYear = .ok (decimalValue d.year) := by
  have hfour : d.fromYear.take 4 = d.year := by rw [fromYear, ← h.yearLength, List.take_left]
  rw [decodeYear_eq_ok_iff, hfour, List.all_eq_true]
  exact ⟨⟨h.yearLength, h.year, h.yearValue⟩, rfl⟩

/-- The parts of a date are decoded. -/
theorem decodeDate_text : decodeDate d.text = .ok (d.date, d.clock) := by
  obtain ⟨c, hc, hdigit⟩ := h.dayDigit
  have hday : findChar isdigit d.text = .ok d.fromDay :=
    findChar_eq_ok_iff.2
      ⟨d.front, rfl, h.front, c, List.mem_head?_append_of_mem_head? hc, hdigit⟩
  have hletters : findChar isalpha d.fromDay = .ok d.fromMonth :=
    findChar_eq_ok_iff.2 ⟨d.day, rfl, h.day, h.monthHead⟩
  have hdrop : d.fromMonth.dropWhile isalpha = d.fromMiddle :=
    (takeWhile_month h.month h.middleHead).2
  have hdigits : findChar isdigit d.fromMiddle = .ok d.fromYear :=
    findChar_eq_ok_iff.2 ⟨d.middle, rfl, h.middle, h.yearHead⟩
  have hbehind : d.fromYear.drop 4 = d.fromBehind := by
    rw [fromYear, ← h.yearLength, List.drop_left]
  have hclock : findChar isdigit d.fromBehind = .ok d.clock :=
    findChar_eq_ok_iff.2 ⟨d.behind, rfl, h.behind, h.clock⟩
  have hvalue : (d.fromDay.take 2).takeWhile isdigit = (d.day.take 2).takeWhile isdigit :=
    takeWhile_take_day h.day_ne_nil h.monthHead
  rw [decodeDate, hday]
  simp only [bind, Except.bind, hletters, h.decodeMonth_fromMonth, hdrop, hdigits,
    h.decodeYear_fromYear, hbehind, hclock, hvalue]
  rfl

end DateParts.Valid

/-- What is decoded has the parts of a date. -/
theorem exists_dateParts {date : Date} {clock : Bytes} (h : decodeDate s = .ok (date, clock)) :
    ∃ d : DateParts, d.Valid ∧ d.text = s ∧ d.date = date ∧ d.clock = clock := by
  obtain ⟨s₁, hday, h⟩ := Runs.bind_eq_ok_iff.1 h
  obtain ⟨s₂, hletters, h⟩ := Runs.bind_eq_ok_iff.1 h
  obtain ⟨month, hmonth, h⟩ := Runs.bind_eq_ok_iff.1 h
  obtain ⟨s₃, hdigits, h⟩ := Runs.bind_eq_ok_iff.1 h
  obtain ⟨year, hyear, h⟩ := Runs.bind_eq_ok_iff.1 h
  obtain ⟨s₄, hclock, h⟩ := Runs.bind_eq_ok_iff.1 h
  obtain ⟨rfl, rfl⟩ : _ = date ∧ s₄ = clock := by simpa [pure, Except.pure] using h
  obtain ⟨front, rfl, hfront, c, hc, hdigit⟩ := findChar_eq_ok_iff.1 hday
  obtain ⟨day, rfl, hday, l, hl, halpha⟩ := findChar_eq_ok_iff.1 hletters
  obtain ⟨hlength, hname, rfl⟩ := decodeMonth_eq_ok_iff.1 hmonth
  obtain ⟨middle, hmiddle, hnodigit, -⟩ := findChar_eq_ok_iff.1 hdigits
  obtain ⟨⟨hfour, hall, hvalue⟩, rfl⟩ := decodeYear_eq_ok_iff.1 hyear
  obtain ⟨behind, hbehind, hnone, hhead⟩ := findChar_eq_ok_iff.1 hclock
  have hne : day ≠ [] := by
    rintro rfl
    obtain rfl := Option.mem_unique hc hl
    rw [isalpha_of_isdigit hdigit] at halpha
    exact Bool.false_ne_true halpha
  have hthree : (s₂.takeWhile isalpha).take 3 = s₂.take 3 := by
    conv_rhs => rw [← List.takeWhile_append_dropWhile (p := isalpha) (l := s₂)]
    exact (List.take_append_of_le_length hlength).symm
  have hmiddleLetter : ∀ ch ∈ middle.head?, isalpha ch = false := by
    intro ch hch
    exact not_of_mem_head?_dropWhile (hmiddle ▸ List.mem_head?_append_of_mem_head? hch)
  have hdayDigit : ∃ ch ∈ day.head?, isdigit ch = true := by
    obtain ⟨d, day, rfl⟩ := List.exists_cons_of_ne_nil hne
    exact ⟨c, hc, hdigit⟩
  refine ⟨⟨front, day, s₂.takeWhile isalpha, middle, s₃.take 4, behind, s₄⟩, ?_, ?_, ?_, rfl⟩
  · exact
      { front := hfront
        dayDigit := hdayDigit
        day := hday
        month := fun ch hch => List.mem_takeWhile_imp hch
        monthLength := hlength
        monthName := by rwa [DateParts.monthName, hthree]
        middle := hnodigit
        middleLetter := hmiddleLetter
        yearLength := hfour
        year := List.all_eq_true.1 hall
        yearValue := hvalue
        behind := hnone
        clock := hhead }
  · rw [DateParts.text, DateParts.fromDay, DateParts.fromMonth, DateParts.fromMiddle,
      DateParts.fromYear, DateParts.fromBehind]
    dsimp only
    rw [← hbehind, List.take_append_drop, ← hmiddle, List.takeWhile_append_dropWhile]
  · rw [DateParts.date, DateParts.monthName, hthree]
    dsimp only
    rw [takeWhile_take_day hne ⟨l, hl, halpha⟩]

/-- **The parts of a date**: what is decoded is a date and digits behind it. -/
theorem decodeDate_eq_ok_iff {date : Date} {clock : Bytes} :
    decodeDate s = .ok (date, clock) ↔
      ∃ d : DateParts, d.Valid ∧ d.text = s ∧ d.date = date ∧ d.clock = clock := by
  constructor
  · exact exists_dateParts
  · rintro ⟨d, hvalid, rfl, rfl, rfl⟩
    exact hvalid.decodeDate_text

/-- What is decoded is the time of a date with a valid time of day. -/
theorem exists_time {tm : Time} (h : decodeTime s = .ok tm) :
    ∃ d : DateParts, d.Valid ∧ d.text = s ∧ TwoDigits 24 d.clock ∧ TwoDigits 60 (d.clock.drop 3) ∧
      TwoDigits 60 (d.clock.drop 6) ∧ d.time = tm := by
  rw [decodeTime_eq_bind] at h
  obtain ⟨⟨date, clock⟩, hdate, h⟩ := Runs.bind_eq_ok_iff.1 h
  obtain ⟨⟨hour, minute, second⟩, hclock, h⟩ := Runs.bind_eq_ok_iff.1 h
  obtain ⟨hour', hhour, hclock⟩ := Runs.bind_eq_ok_iff.1 hclock
  obtain ⟨minute', hminute, hclock⟩ := Runs.bind_eq_ok_iff.1 hclock
  obtain ⟨second', hsecond, hclock⟩ := Runs.bind_eq_ok_iff.1 hclock
  obtain ⟨rfl, rfl, rfl⟩ : hour' = hour ∧ minute' = minute ∧ second' = second := by
    simpa [pure, Except.pure] using hclock
  obtain ⟨htwo, rfl⟩ := getDoubleDigit_eq_ok_iff.1 hhour
  obtain ⟨htwoMinute, rfl⟩ := getDoubleDigit_eq_ok_iff.1 hminute
  obtain ⟨htwoSecond, rfl⟩ := getDoubleDigit_eq_ok_iff.1 hsecond
  obtain ⟨d, hvalid, htext, rfl, rfl⟩ := exists_dateParts hdate
  exact ⟨d, hvalid, htext, htwo, htwoMinute, htwoSecond, Except.ok.inj h⟩

end Parts

/-! ### Exactly when a date is read inside -/

/-- **A date is read inside its string**: no character behind the terminator is read, and what is
returned is a negative error, or the time that is in the string. -/
def ReadInside (string : CString) : Prop :=
  readTime string ≠ .error .outside ∧
  ((∃ e, e < 0 ∧ readTime string = .error (.returned e)) ∨
    ∃ d : DateParts, d.Valid ∧ d.text = string.bytes ∧ TwoDigits 24 d.clock ∧
      TwoDigits 60 (d.clock.drop 3) ∧ TwoDigits 60 (d.clock.drop 6) ∧ readTime string = .ok d.time)

/-- What is as it should be is inside. -/
theorem readInside_of_follows {string : CString}
    (h : Follows (· = ·) (readTime string) (decodeTime string.bytes)) : ReadInside string := by
  refine ⟨h.ne_outside, ?_⟩
  cases hdecode : decodeTime string.bytes with
  | error e => exact .inl ⟨e, negativeErrors_decodeTime string.bytes e hdecode, h.eq_error hdecode⟩
  | ok tm =>
      obtain ⟨d, hvalid, htext, hhour, hminute, hsecond, rfl⟩ := exists_time hdecode
      exact .inr ⟨d, hvalid, htext, hhour, hminute, hsecond, h.eq_ok hdecode⟩

/-- **Exactly when a date is read inside its string**: if the digits behind its date, should it have
one, do not end where a separator is skipped. -/
theorem readInside_iff (string : CString) :
    ReadInside string ↔
      ∀ d : DateParts, d.Valid → d.text = string.bytes → ClockComplete d.clock := by
  constructor
  · intro h d hvalid htext
    by_contra hnot
    exact h.1 (readTime_outside (htext ▸ hvalid.decodeDate_text) hnot)
  · refine fun h => readInside_of_follows (readTime_follows fun date clock hdecode => ?_)
    obtain ⟨d, hvalid, htext, -, rfl⟩ := exists_dateParts hdecode
    exact h d hvalid htext

/-- Behind an hour at the end of the string the terminator is skipped. -/
theorem not_readInside_hour : ¬ ReadInside ⟨ascii "1 Jan 1970 10", by decide⟩ := by
  intro h
  have hdecode : decodeDate (ascii "1 Jan 1970 10") = .ok (⟨1970, 0, 1⟩, ascii "10") := by
    decide +kernel
  exact h.1 (readTime_outside hdecode (by decide))

end AwsS3fs
