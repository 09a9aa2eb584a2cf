/-
**Reading a date.**

`GetHeaderTime` (`s3if.c`) goes over a header with an index.  Its loops stop at the terminator, but
between hours, minutes and seconds the index advances over a separator that need not be there, and
two characters are read before either is tested.

Main definitions:

* `AwsS3fs.readDate`, `AwsS3fs.readClock`, `AwsS3fs.readTime` — `GetHeaderTime`, with every
  character that it reads;
* `AwsS3fs.ClockComplete` — the time of day does not end where a separator is skipped.

Main results:

* `AwsS3fs.readDate_follows` — the date is read inside the string;
* `AwsS3fs.readTime_follows`, `AwsS3fs.readTime_outside` — **the time of day is read inside if it is
  complete**, and not otherwise;
* `AwsS3fs.negativeErrors_decodeTime` — a date that cannot be read is a negative error.
-/

import AwsS3fs.FileMetadata
import AwsS3fs.Lib.Runs
import AwsS3fs.Lib.Strings

set_option relaxedAutoImplicit false
set_option autoImplicit false

namespace AwsS3fs

open CLib Calendar

/-! ### The scanner -/

/-- A program that returns an error, unless it leaves its memory. -/
abbrev Reading := Except (Stop ℤ)

/-- The value of a digit. -/
def digitValue (ch : UInt8) : ℕ := ch.toNat - 48

section Scanner

variable (string : CString)

/-- `string[ idx ]`. -/
def readAt (idx : ℕ) : Reading UInt8 := inside (load string.memory idx)

/-- `DECODE_TIME_FIND_ALPHA` and `DECODE_TIME_FIND_DIGIT`. -/
def findAt (p : UInt8 → Bool) (idx : ℕ) : Reading ℕ := do
  let idx ← inside (string.scanFrom (fun ch => ch != 0 && !p ch) idx)
  let character ← readAt string idx
  if character = 0 then .error (.returned eilseq) else return idx

/-- `DECODE_TIME_GET_DOUBLEDIGIT`. -/
def readDoubleDigit (idx max : ℕ) : Reading ℕ := do
  let ch ← readAt string idx
  let chNext ← readAt string (idx + 1)
  if !isdigit ch || !isdigit chNext then .error (.returned eilseq)
  else
    let value := digitValue ch * 10 + digitValue chNext
    if max ≤ value then .error (.returned erange) else return value

/-- The day of the month. -/
def readDay (idx : ℕ) : Reading ℕ := do
  let ch ← readAt string idx
  let chNext ← readAt string (idx + 1)
  return if isdigit chNext then digitValue ch * 10 + digitValue chNext else digitValue ch

/-- `strncasecmp` is `0` for a name and as many characters of the string.  It reads up to the first
difference. -/
def sameLetters : ℕ → Bytes → Reading Bool
  | _, [] => .ok true
  | idx, letter :: name => do
      let ch ← readAt string idx
      if tolower ch = tolower letter then sameLetters (idx + 1) name else return false

/-- The loop over the names of the months. -/
def findMonth (strBegin : ℕ) : ℕ → List Bytes → Reading ℕ
  | _, [] => .error (.returned erange)
  | val, name :: names => do
      if ← sameLetters string strBegin name then return val else findMonth strBegin (val + 1) names

/-- The month, and where its letters end. -/
def readMonth (strBegin : ℕ) : Reading (ℕ × ℕ) := do
  let idx ← inside (string.scanFrom (fun ch => tolower ch != 0 && isalpha (tolower ch)) strBegin)
  if idx - strBegin < 3 then .error (.returned eilseq)
  else
    let month ← findMonth string strBegin 0 months
    return (month, idx)

/-- The loop over the digits of the year behind the first. -/
def readDigits : ℕ → ℕ → ℕ → Reading ℕ
  | 0, _, val => .ok val
  | i + 1, idx, val => do
      let ch ← readAt string (idx + 1)
      if isdigit ch then readDigits i (idx + 1) (val * 10 + digitValue ch)
      else .error (.returned eilseq)

/-- The year. -/
def readYear (idx : ℕ) : Reading ℕ := do
  let ch ← readAt string idx
  let val ← readDigits string 3 idx (digitValue ch)
  if val < 1900 then .error (.returned erange) else return val

/-- The first part of `GetHeaderTime`: the date, and where the hour begins. -/
def readDate : Reading (Date × ℕ) := do
  let idx ← findAt string isdigit 0
  let day ← readDay string idx
  let strBegin ← findAt string isalpha idx
  let month ← readMonth string strBegin
  let idx ← findAt string isdigit month.2
  let year ← readYear string idx
  let idx ← findAt string isdigit (idx + 4)
  return (⟨year, month.1, day⟩, idx)

/-- The second part: hours, minutes and seconds. -/
def readClock (idx : ℕ) : Reading (ℕ × ℕ × ℕ) := do
  let hour ← readDoubleDigit string idx 24
  let minute ← readDoubleDigit string (idx + 3) 60
  let second ← readDoubleDigit string (idx + 6) 60
  return (hour, minute, second)

/-- `GetHeaderTime`, up to the call of `mktime`. -/
def readTime : Reading Time := do
  let date ← readDate string
  let clock ← readClock string date.2
  return ⟨date.1, clock.1, clock.2.1, clock.2.2⟩

end Scanner

/-! ### What the scanner follows -/

section Follows

variable {string : CString} {idx : ℕ} {s : Bytes}

theorem readAt_add (h : string.At idx s) (k : ℕ) :
    readAt string (idx + k) = inside (s ++ [0])[k]? := by
  rw [readAt, h.load]

theorem readAt_zero (h : string.At idx s) : readAt string idx = inside (s ++ [0])[0]? :=
  readAt_add h 0

/-- A text without a character that is looked for, or the text from the first such character on. -/
theorem findChar_cases (p : UInt8 → Bool) (s : Bytes) :
    ((∀ ch ∈ s, p ch = false) ∧ findChar p s = .error eilseq) ∨
      ∃ a c t, s = a ++ c :: t ∧ (∀ ch ∈ a, p ch = false) ∧ p c = true ∧
        findChar p s = .ok (c :: t) := by
  by_cases h : ∀ ch ∈ s, p ch = false
  · refine .inl ⟨h, ?_⟩
    have hdrop : s.dropWhile (!p ·) = [] :=
      List.dropWhile_eq_nil_iff.2 fun ch hch => by rw [h ch hch]; rfl
    rw [findChar, hdrop]
  · simp only [not_forall, Bool.not_eq_false] at h
    obtain ⟨x, hx, hp⟩ := h
    obtain ⟨a, c, t, rfl, ha, hc⟩ := exists_split (p := (!p ·)) hx (by rw [hp]; rfl)
    have hfront : ∀ ch ∈ a, p ch = false := fun ch hch => by simpa using ha ch hch
    have hchar : p c = true := by simpa using hc
    exact .inr ⟨a, c, t, rfl, hfront, hchar, findChar_append t hfront hchar⟩

/-- An index stands for the rest of a text that begins with a character of a kind. -/
def BeginsAt (string : CString) (p : UInt8 → Bool) (idx : ℕ) (s : Bytes) : Prop :=
  string.At idx s ∧ ∃ c t, s = c :: t ∧ p c = true

/-- The searching loops stay inside. -/
theorem findAt_follows (p : UInt8 → Bool) (h : string.At idx s) :
    Follows (BeginsAt string p) (findAt string p idx) (findChar p s) := by
  have hnoNul : ∀ ch ∈ s, ch ≠ 0 := fun ch hch heq => h.noNul (heq ▸ hch)
  rcases findChar_cases p s with ⟨hnone, hfind⟩ | ⟨a, c, t, rfl, ha, hc, hfind⟩
  · have hscan : string.scanFrom (fun ch => ch != 0 && !p ch) idx = some (idx + s.length) := by
      refine CString.At.scanFrom (s := []) (by rwa [List.append_nil]) (fun ch hch => ?_) ?_
      · rw [hnone ch hch, bne_iff_ne.2 (hnoNul ch hch)]
        rfl
      · rintro ch ⟨⟩
        rfl
    rw [hfind, findAt, hscan]
    have hread : readAt string (idx + s.length) = .ok 0 := by
      rw [readAt_add h, List.getElem?_append_right (Nat.le_refl _), Nat.sub_self]
      rfl
    simp only [inside, bind, Except.bind, hread]
    rfl
  · have hscan : string.scanFrom (fun ch => ch != 0 && !p ch) idx = some (idx + a.length) := by
      refine h.scanFrom (fun ch hch => ?_) ?_
      · rw [ha ch hch, bne_iff_ne.2 (hnoNul ch (List.mem_append_left _ hch))]
        rfl
      · rintro ch ⟨⟩
        rw [hc, Bool.not_true, Bool.and_false]
    have hread : readAt string (idx + a.length) = .ok c := by
      rw [readAt_zero h.add]
      rfl
    have hne : c ≠ 0 := hnoNul c (by simp)
    rw [hfind, findAt, hscan]
    simp only [inside, bind, Except.bind, hread, if_neg hne]
    exact follows_ok ⟨h.add, c, t, rfl, hc⟩

theorem isdigit_zero : isdigit 0 = false := rfl

/-- The day is read inside. -/
theorem readDay_eq {c : UInt8} {t : Bytes} (h : string.At idx (c :: t)) (hc : isdigit c = true) :
    readDay string idx = .ok (decimalValue (((c :: t).take 2).takeWhile isdigit)) := by
  have hch : readAt string idx = .ok c := readAt_zero h
  have hnext : readAt string (idx + 1) = .ok (t.headD 0) := by
    rw [readAt_add h]
    cases t <;> rfl
  rw [readDay, hch, hnext]
  cases t with
  | nil => simp [bind, Except.bind, pure, Except.pure, isdigit_zero, hc, decimalValue, digitValue]
  | cons d t =>
      by_cases hd : isdigit d = true
      · simp [bind, Except.bind, pure, Except.pure, hc, hd, decimalValue, digitValue]
      · simp [bind, Except.bind, pure, Except.pure, hc, hd, decimalValue, digitValue]

/-- A name is compared inside, if there are as many characters. -/
theorem sameLetters_eq {name : Bytes} (h : string.At idx s) (hlength : name.length ≤ s.length) :
    sameLetters string idx name =
      .ok (decide ((s.take name.length).map tolower = name.map tolower)) := by
  induction name generalizing idx s with
  | nil => simp [sameLetters]
  | cons letter name ih =>
      cases s with
      | nil => simp at hlength
      | cons ch s =>
          have hch : readAt string idx = .ok ch := readAt_zero h
          have hrest : string.At (idx + 1) s := h.add (a := [ch])
          rw [sameLetters, hch]
          simp only [bind, Except.bind]
          by_cases hsame : tolower ch = tolower letter
          · rw [if_pos hsame, ih hrest (by simpa using hlength)]
            simp [hsame]
          · rw [if_neg hsame]
            simp [hsame, pure, Except.pure]

/-- The names of the months are compared one by one. -/
theorem findMonth_eq {strBegin : ℕ} (h : string.At strBegin s) (hlength : 3 ≤ s.length) (val : ℕ)
    {names : List Bytes} (hnames : ∀ name ∈ names, name.length = 3 ∧ name.map tolower = name) :
    findMonth string strBegin val names =
      match names.findIdx? (· = (s.take 3).map tolower) with
      | none => .error (.returned erange)
      | some month => .ok (val + month) := by
  induction names generalizing val with
  | nil => rfl
  | cons name names ih =>
      obtain ⟨hthree, hlower⟩ := hnames name List.mem_cons_self
      have hsame : sameLetters string strBegin name = _ := sameLetters_eq h (by omega)
      rw [hthree, hlower] at hsame
      rw [findMonth, hsame, List.findIdx?_cons]
      simp only [bind, Except.bind, decide_eq_true_eq]
      by_cases heq : (s.take 3).map tolower = name
      · simp [heq, pure, Except.pure]
      · rw [if_neg heq, if_neg (Ne.symm heq), ih (val + 1) fun n hn => hnames n (by simp [hn])]
        cases names.findIdx? (· = (s.take 3).map tolower) with
        | none => rfl
        | some month => simp [Nat.add_comm, Nat.add_left_comm]

theorem months_spec : ∀ name ∈ months, name.length = 3 ∧ name.map tolower = name := by
  decide +kernel

theorem isalpha_tolower (ch : UInt8) : (tolower ch != 0 && isalpha (tolower ch)) = isalpha ch := by
  have htable : ∀ n < 256, (tolower (UInt8.ofNat n) != 0 && isalpha (tolower (UInt8.ofNat n))) =
      isalpha (UInt8.ofNat n) := by
    decide +kernel
  simpa using htable ch.toNat ch.toNat_lt

/-- The month is read inside. -/
theorem readMonth_follows (h : string.At idx s) :
    Follows (fun found month => found.1 = month ∧ string.At found.2 (s.dropWhile isalpha))
      (readMonth string idx) (decodeMonth s) := by
  have hat : string.At idx (s.takeWhile isalpha ++ s.dropWhile isalpha) := by
    rwa [List.takeWhile_append_dropWhile]
  have hscan : string.scanFrom (fun ch => tolower ch != 0 && isalpha (tolower ch)) idx =
      some (idx + (s.takeWhile isalpha).length) := by
    simp only [isalpha_tolower]
    refine hat.scanFrom (fun ch hch => List.mem_takeWhile_imp hch) fun ch hch => ?_
    cases hrest : s.dropWhile isalpha with
    | nil =>
        rw [hrest] at hch
        obtain rfl : 0 = ch := by simpa using hch
        rfl
    | cons c t =>
        rw [hrest] at hch
        obtain rfl : c = ch := by simpa using hch
        exact not_of_dropWhile_eq_cons hrest
  rw [readMonth, hscan, decodeMonth]
  simp only [inside, bind, Except.bind, Nat.add_sub_cancel_left]
  by_cases hshort : (s.takeWhile isalpha).length < 3
  · rw [if_pos hshort, if_pos hshort]
    rfl
  · have hlength : 3 ≤ s.length := by
      have hle := (List.takeWhile_prefix isalpha (l := s)).length_le
      omega
    rw [if_neg hshort, if_neg hshort, findMonth_eq h hlength 0 months_spec]
    cases months.findIdx? (· = (s.take 3).map tolower) with
    | none => rfl
    | some month => exact follows_ok ⟨Nat.zero_add month, hat.add⟩

/-- The digits of the year behind the first, up to one that is none. -/
theorem readDigits_eq {c : UInt8} {t : Bytes} (h : string.At idx (c :: t)) (i val : ℕ) :
    readDigits string i idx val =
      if (t.take i).length = i ∧ (t.take i).all isdigit then
        .ok ((t.take i).foldl (fun v ch => v * 10 + digitValue ch) val)
      else .error (.returned eilseq) := by
  induction i generalizing idx c t val with
  | zero => simp [readDigits]
  | succ i ih =>
      have hrest : string.At (idx + 1) t := h.add (a := [c])
      rw [readDigits, readAt_zero hrest]
      cases t with
      | nil => rfl
      | cons d t =>
          simp only [List.cons_append, List.getElem?_cons_zero, inside, bind, Except.bind,
            List.take_succ_cons, List.length_cons, List.all_cons, List.foldl_cons,
            Nat.add_right_cancel_iff, Bool.and_eq_true]
          by_cases hd : isdigit d = true
          · rw [if_pos hd, ih hrest]
            simp only [hd, true_and]
          · rw [if_neg hd, if_neg fun hall => hd hall.2.1]

/-- The year is read inside. -/
theorem readYear_follows {c : UInt8} {t : Bytes} (h : string.At idx (c :: t))
    (hc : isdigit c = true) :
    Follows (fun year year' => year = year' ∧ string.At (idx + 4) ((c :: t).drop 4))
      (readYear string idx) (decodeYear (c :: t)) := by
  have hch : readAt string idx = .ok c := readAt_zero h
  rw [readYear, hch, decodeYear, takeDigits]
  simp only [bind, Except.bind, readDigits_eq h, List.take_succ_cons, List.length_cons,
    List.all_cons, Nat.reduceEqDiff, Bool.and_eq_true, hc, true_and]
  by_cases hdigits : (t.take 3).length = 3 ∧ (t.take 3).all isdigit = true
  · have hvalue : (t.take 3).foldl (fun v ch => v * 10 + digitValue ch) (digitValue c) =
        decimalValue (c :: t.take 3) := by
      rw [decimalValue, List.foldl_cons, Nat.zero_mul, Nat.zero_add]
      rfl
    have hat : string.At (idx + 4) ((c :: t).drop 4) := by
      have hadd := CString.At.add (a := (c :: t).take 4) (s := (c :: t).drop 4)
        (by rwa [List.take_append_drop])
      rwa [List.take_succ_cons, List.length_cons, hdigits.1] at hadd
    rw [if_pos hdigits, if_pos hdigits, hvalue]
    by_cases hearly : decimalValue (c :: t.take 3) < 1900
    · simp only [if_pos hearly]
      rfl
    · simp only [if_neg hearly]
      exact follows_ok ⟨rfl, hat⟩
  · rw [if_neg hdigits, if_neg hdigits]
    rfl

/-- The first part of `decodeTime`: the date, and the text from the hour on. -/
def decodeDate (string : Bytes) : Except ℤ (Date × Bytes) := do
  let s ← findChar isdigit string
  let day := decimalValue ((s.take 2).takeWhile isdigit)
  let s ← findChar isalpha s
  let month ← decodeMonth s
  let s ← findChar isdigit (s.dropWhile isalpha)
  let year ← decodeYear s
  let s ← findChar isdigit (s.drop 4)
  return (⟨year, month, day⟩, s)

/-- **The date is read inside.** -/
theorem readDate_follows (string : CString) :
    Follows (fun date date' => date.1 = date'.1 ∧ BeginsAt string isdigit date.2 date'.2)
      (readDate string) (decodeDate string.bytes) := by
  rw [readDate, decodeDate]
  refine (findAt_follows isdigit string.at_zero).bind ?_
  rintro idx s ⟨hat, c, t, rfl, hc⟩
  rw [readDay_eq hat hc]
  refine (findAt_follows isalpha hat).bind ?_
  rintro strBegin s ⟨hat, -⟩
  refine (readMonth_follows hat).bind ?_
  rintro found month ⟨rfl, hat⟩
  refine (findAt_follows isdigit hat).bind ?_
  rintro idx s ⟨hat, d, u, rfl, hd⟩
  refine (readYear_follows hat hd).bind ?_
  rintro year year' ⟨rfl, hat⟩
  refine (findAt_follows isdigit hat).bind ?_
  exact fun idx s hbegins => follows_ok ⟨rfl, hbegins⟩

/-! ### The time of day -/

/-- A text begins with a number of two digits that is less than `max`. -/
def TwoDigits (max : ℕ) (s : Bytes) : Prop :=
  (s.take 2).length = 2 ∧ (s.take 2).all isdigit = true ∧ decimalValue (s.take 2) < max

instance (max : ℕ) (s : Bytes) : Decidable (TwoDigits max s) :=
  inferInstanceAs (Decidable (_ ∧ _ ∧ _))

/-- **The time of day does not end where a separator is skipped**: a valid hour has two characters
behind it, and a valid minute has two more. -/
def ClockComplete (clock : Bytes) : Prop :=
  TwoDigits 24 clock → 4 ≤ clock.length ∧ (TwoDigits 60 (clock.drop 3) → 7 ≤ clock.length)

instance (clock : Bytes) : Decidable (ClockComplete clock) :=
  inferInstanceAs (Decidable (_ → _ ∧ (_ → _)))

/-- The second part of `decodeTime`. -/
def decodeHours (clock : Bytes) : Except ℤ (ℕ × ℕ × ℕ) := do
  let hour ← getDoubleDigit 24 clock
  let minute ← getDoubleDigit 60 (clock.drop 3)
  let second ← getDoubleDigit 60 (clock.drop 6)
  return (hour, minute, second)

theorem getDoubleDigit_eq_ok_iff {max v : ℕ} :
    getDoubleDigit max s = .ok v ↔ TwoDigits max s ∧ v = decimalValue (s.take 2) := by
  rw [getDoubleDigit, takeDigits, TwoDigits]
  by_cases hdigits : (s.take 2).length = 2 ∧ (s.take 2).all isdigit = true
  · rw [if_pos hdigits, Runs.ok_bind]
    by_cases hlarge : max ≤ decimalValue (s.take 2)
    · rw [if_pos hlarge]
      exact iff_of_false (fun h => by cases h) fun h => absurd h.1.2.2 (Nat.not_lt.2 hlarge)
    · rw [if_neg hlarge, Except.ok.injEq]
      exact ⟨fun h => ⟨⟨hdigits.1, hdigits.2, Nat.not_le.1 hlarge⟩, h.symm⟩, fun h => h.2.symm⟩
  · rw [if_neg hdigits]
    exact iff_of_false (fun h => by cases h) fun h => hdigits ⟨h.1.1, h.1.2.1⟩

/-- A number of two digits is read inside, if it does not begin at the terminator. -/
theorem readDoubleDigit_follows (h : string.At idx s) (hs : s ≠ []) (max : ℕ) :
    Follows (· = ·) (readDoubleDigit string idx max) (getDoubleDigit max s) := by
  obtain ⟨c, t, rfl⟩ := List.exists_cons_of_ne_nil hs
  have hch : readAt string idx = .ok c := readAt_zero h
  have hnext : readAt string (idx + 1) = .ok (t.headD 0) := by
    rw [readAt_add h]
    cases t <;> rfl
  rw [readDoubleDigit, hch, hnext, getDoubleDigit, takeDigits]
  simp only [bind, Except.bind]
  cases t with
  | nil => simp [isdigit_zero, Follows]
  | cons d t =>
      have hvalue : digitValue c * 10 + digitValue d = decimalValue [c, d] := by
        simp [decimalValue, digitValue]
      by_cases hdigits : isdigit c = true ∧ isdigit d = true
      · by_cases hlarge : max ≤ decimalValue [c, d]
        · simp [hdigits, hvalue, hlarge, Follows]
        · simp [hdigits, hvalue, hlarge, Follows, pure, Except.pure]
      · have hnot : (!isdigit c || !isdigit d) = true := by
          rw [← Bool.not_and, Bool.not_eq_true', Bool.eq_false_iff, ne_eq, Bool.and_eq_true]
          exact hdigits
        rw [List.headD_cons, if_pos hnot]
        simp [hdigits, Follows]

/-- Behind the terminator nothing can be read. -/
theorem readAt_outside (h : string.At idx s) {k : ℕ} (hk : s.length < k) :
    readAt string (idx + k) = .error .outside := by
  rw [readAt_add h, List.getElem?_eq_none (by rw [List.length_append]; exact hk)]
  rfl

/-- The second character is read even if the first one is the terminator. -/
theorem readDoubleDigit_outside (h : string.At idx s) {k : ℕ} (hk : s.length ≤ k) (max : ℕ) :
    readDoubleDigit string (idx + k) max = .error .outside := by
  rw [readDoubleDigit, Nat.add_assoc, readAt_outside h (Nat.lt_succ_of_le hk), readAt]
  cases load string.memory ((idx + k : ℕ) : ℤ) <;> rfl

/-- An index moves over as many characters as there are. -/
theorem at_drop (h : string.At idx s) {k : ℕ} (hk : k ≤ s.length) :
    string.At (idx + k) (s.drop k) := by
  have hadd := CString.At.add (a := s.take k) (s := s.drop k) (by rwa [List.take_append_drop])
  rwa [List.length_take_of_le hk] at hadd

/-- A time of day that is complete is read inside. -/
theorem readClock_follows (h : string.At idx s) (hs : s ≠ []) (hcomplete : ClockComplete s) :
    Follows (· = ·) (readClock string idx) (decodeHours s) := by
  refine (readDoubleDigit_follows h hs 24).bind_of_ok ?_
  rintro hour _ hhour rfl
  obtain ⟨hfour, hseven⟩ := hcomplete (getDoubleDigit_eq_ok_iff.1 hhour).1
  have hdrop : ∀ {k}, k < s.length → s.drop k ≠ [] := fun hk hnil =>
    absurd (List.drop_eq_nil_iff.1 hnil) (Nat.not_le.2 hk)
  have hatMinute := at_drop h (Nat.le_of_succ_le hfour)
  refine (readDoubleDigit_follows hatMinute (hdrop hfour) 60).bind_of_ok ?_
  rintro minute _ hminute rfl
  have hsix := hseven (getDoubleDigit_eq_ok_iff.1 hminute).1
  have hatSecond := at_drop h (Nat.le_of_succ_le hsix)
  refine (readDoubleDigit_follows hatSecond (hdrop hsix) 60).bind ?_
  rintro second _ rfl
  exact follows_ok rfl

/-- A time of day that is not complete leads out of the string. -/
theorem readClock_outside (h : string.At idx s) (hs : s ≠ []) (hnot : ¬ ClockComplete s) :
    readClock string idx = .error .outside := by
  rw [ClockComplete, Classical.not_imp] at hnot
  obtain ⟨htwo, hshort⟩ := hnot
  have hhour := (readDoubleDigit_follows h hs 24).eq_ok (getDoubleDigit_eq_ok_iff.2 ⟨htwo, rfl⟩)
  rw [readClock, hhour]
  by_cases hfour : 4 ≤ s.length
  · -- the minute is read inside, but not the second
    obtain ⟨hminute, hsix⟩ := Classical.not_imp.1 fun hseven => hshort ⟨hfour, hseven⟩
    have hdrop : s.drop 3 ≠ [] := fun hnil => absurd (List.drop_eq_nil_iff.1 hnil) (by omega)
    have hread := (readDoubleDigit_follows (at_drop h (by omega)) hdrop 60).eq_ok
      (getDoubleDigit_eq_ok_iff.2 ⟨hminute, rfl⟩)
    simp only [bind, Except.bind, hread, readDoubleDigit_outside h (show s.length ≤ 6 by omega)]
  · simp only [bind, Except.bind, readDoubleDigit_outside h (show s.length ≤ 3 by omega)]

end Follows

/-! ### The whole date -/

/-- The time of day is read behind the date. -/
theorem decodeTime_eq_bind (string : Bytes) :
    decodeTime string = do
      let date ← decodeDate string
      let clock ← decodeHours date.2
      return ⟨date.1, clock.1, clock.2.1, clock.2.2⟩ := by
  simp only [decodeTime, decodeDate, decodeClock, decodeHours, bind_assoc, pure_bind]

section Whole

variable {string : CString}

/-- **A date that is complete is read inside**, and as it should be. -/
theorem readTime_follows
    (hcomplete : ∀ date clock, decodeDate string.bytes = .ok (date, clock) → ClockComplete clock) :
    Follows (· = ·) (readTime string) (decodeTime string.bytes) := by
  rw [decodeTime_eq_bind]
  refine (readDate_follows string).bind_of_ok ?_
  rintro ⟨date, idx⟩ ⟨date', clock⟩ hdecode ⟨rfl, hat, c, t, rfl, -⟩
  refine (readClock_follows hat (List.cons_ne_nil c t) (hcomplete _ _ hdecode)).bind ?_
  rintro clock _ rfl
  exact follows_ok rfl

/-- A date that is not complete leads out of the string. -/
theorem readTime_outside {date : Date} {clock : Bytes}
    (hdecode : decodeDate string.bytes = .ok (date, clock)) (hnot : ¬ ClockComplete clock) :
    readTime string = .error .outside := by
  have hfollows := readDate_follows string
  rw [hdecode] at hfollows
  obtain ⟨⟨date', idx⟩, hread, -, hat, c, t, rfl, -⟩ := hfollows
  have hclock := readClock_outside hat (List.cons_ne_nil c t) hnot
  rw [readTime, hread]
  simp only [bind, Except.bind]
  rw [show readClock string idx = _ from hclock]

end Whole

/-! ### Errors -/

section Errors

variable {α β : Type}

/-- Every error is negative. -/
def NegativeErrors (x : Except ℤ α) : Prop := ∀ e, x = .error e → e < 0

theorem NegativeErrors.bind {x : Except ℤ α} {f : α → Except ℤ β} (hx : NegativeErrors x)
    (hf : ∀ a, NegativeErrors (f a)) : NegativeErrors (x >>= f) := by
  cases x with
  | error e => exact fun e' he => hx e' (congrArg Except.error (Except.error.inj he))
  | ok a => exact hf a

theorem negativeErrors_ok (a : α) : NegativeErrors (.ok a) := fun _ h => by cases h

theorem negativeErrors_eilseq : NegativeErrors (.error eilseq : Except ℤ α) := by
  rintro e ⟨⟩
  decide

theorem negativeErrors_erange : NegativeErrors (.error erange : Except ℤ α) := by
  rintro e ⟨⟩
  decide

theorem NegativeErrors.ite {p : Prop} [Decidable p] {x y : Except ℤ α} (hx : NegativeErrors x)
    (hy : NegativeErrors y) : NegativeErrors (if p then x else y) := by
  split
  · exact hx
  · exact hy

theorem negativeErrors_findChar (p : UInt8 → Bool) (s : Bytes) : NegativeErrors (findChar p s) := by
  rw [findChar]
  split
  · exact negativeErrors_eilseq
  · exact negativeErrors_ok _

theorem negativeErrors_takeDigits (count : ℕ) (s : Bytes) : NegativeErrors (takeDigits count s) :=
  (negativeErrors_ok _).ite negativeErrors_eilseq

theorem negativeErrors_getDoubleDigit (max : ℕ) (s : Bytes) :
    NegativeErrors (getDoubleDigit max s) :=
  (negativeErrors_takeDigits 2 s).bind fun _ => negativeErrors_erange.ite (negativeErrors_ok _)

theorem negativeErrors_decodeMonth (s : Bytes) : NegativeErrors (decodeMonth s) := by
  refine negativeErrors_eilseq.ite ?_
  split
  · exact negativeErrors_erange
  · exact negativeErrors_ok _

theorem negativeErrors_decodeYear (s : Bytes) : NegativeErrors (decodeYear s) :=
  (negativeErrors_takeDigits 4 s).bind fun _ => negativeErrors_erange.ite (negativeErrors_ok _)

theorem negativeErrors_decodeDate (string : Bytes) : NegativeErrors (decodeDate string) := by
  refine (negativeErrors_findChar isdigit string).bind fun s => ?_
  refine (negativeErrors_findChar isalpha s).bind fun s => ?_
  refine (negativeErrors_decodeMonth s).bind fun _ => ?_
  refine (negativeErrors_findChar isdigit _).bind fun s => ?_
  refine (negativeErrors_decodeYear s).bind fun _ => ?_
  exact (negativeErrors_findChar isdigit _).bind fun _ => negativeErrors_ok _

theorem negativeErrors_decodeHours (clock : Bytes) : NegativeErrors (decodeHours clock) :=
  (negativeErrors_getDoubleDigit 24 clock).bind fun _ =>
    (negativeErrors_getDoubleDigit 60 _).bind fun _ =>
      (negativeErrors_getDoubleDigit 60 _).bind fun _ => negativeErrors_ok _

/-- **A date that cannot be read is a negative error.** -/
theorem negativeErrors_decodeTime (string : Bytes) : NegativeErrors (decodeTime string) := by
  rw [decodeTime_eq_bind]
  exact (negativeErrors_decodeDate string).bind fun _ =>
    (negativeErrors_decodeHours _).bind fun _ => negativeErrors_ok _

end Errors

end AwsS3fs
