/-
**File information in the headers of an object.**

The storage knows nothing about owners, permissions and access times.  `CreateHeadersFromFileInfo`
(`s3if.c`) writes them into headers that are stored along with an object, and `S3GetFileStat` reads
them from the headers that come back, through `GetHeaderInt` and `GetHeaderTime`.  Times are written
as the local clocks show them, with the letters `GMT` behind, and read with `mktime`, which takes
them for local time again; the offset from the start of the program is added to the result.

Main definitions:

* `AwsS3fs.createHeadersFromFileInfo` — the headers that are written;
* `AwsS3fs.decodeTime`, `AwsS3fs.getHeaderTime`, `AwsS3fs.getHeaderInt`, `AwsS3fs.s3GetFileStat` —
  the way back;
* `AwsS3fs.MetadataRoundTrips` — the information is the same after it has been written and read;
* `AwsS3fs.Kept` — the information that survives.

Main results:

* `AwsS3fs.decodeTime_formatTime` — a time with a year of four digits is read as it was written;
* `AwsS3fs.s3GetFileStat_spec` — what is read from the headers that were written;
* `AwsS3fs.metadataRoundTrips_iff` — **when file information round-trips**.
-/

import AwsS3fs.Lib.Bytes
import AwsS3fs.Lib.Calendar
import AwsS3fs.Lib.Runs

set_option relaxedAutoImplicit false
set_option autoImplicit false

namespace AwsS3fs

open CLib Calendar Runs

/-! ### File information -/

/-- `struct S3FileInfo`, with times as numbers of seconds. -/
structure S3FileInfo where
  uid : UInt32
  gid : UInt32
  permissions : UInt32
  fileType : UInt8
  exeUid : Bool
  exeGid : Bool
  sticky : Bool
  size : ℤ
  atime : ℤ
  mtime : ℤ
  ctime : ℤ
  deriving DecidableEq

/-! ### Writing the headers -/

/-- `localtime_r`, which fails if the year does not fit into an `int`. -/
def localtime (zone : Zone) (t : ℤ) : Option Time :=
  let tm := Time.ofSeconds (zone.clock t)
  if -2 ^ 31 ≤ tm.date.year - 1900 ∧ tm.date.year - 1900 < 2 ^ 31 then some tm else none

/-- `wdays`. -/
def wdays : List Bytes :=
  [ascii "Mon", ascii "Tue", ascii "Wed", ascii "Thu", ascii "Fri", ascii "Sat", ascii "Sun"]

/-- `months` of `CreateHeadersFromFileInfo`. -/
def monthNames : List Bytes :=
  [ascii "Jan", ascii "Feb", ascii "Mar", ascii "Apr", ascii "May", ascii "Jun",
    ascii "Jul", ascii "Aug", ascii "Sep", ascii "Oct", ascii "Nov", ascii "Dec"]

/-- `%02d`. -/
def formatTwo (n : ℕ) : Bytes := List.replicate (2 - (formatInt n).length) 48 ++ formatInt n

/-- The time of day in a header. -/
def formatClock (tm : Time) : Bytes :=
  formatTwo tm.hour ++ 58 :: (formatTwo tm.minute ++ 58 :: (formatTwo tm.second ++ ascii " GMT"))

/-- The value of a header for a time. -/
def formatTime (tm : Time) : Bytes :=
  wdays.getD (weekday (dayOfDate tm.date)) [] ++ (ascii ", " ++ (formatInt tm.date.day ++
    32 :: (monthNames.getD tm.date.month [] ++ 32 :: (formatInt tm.date.year ++
      32 :: formatClock tm))))

/-- A number of 32 bits with `%d`. -/
def formatWord (n : UInt32) : Bytes := formatInt n.toInt32.toInt

/-- The header for the type of a file, if there is one. -/
def contentType (fileType : UInt8) : List (Bytes × Bytes) :=
  if fileType = 100 then [(ascii "Content-Type", ascii "application/x-directory")]
  else if fileType = 108 then [(ascii "Content-Type", ascii "application/x-symlink")]
  else []

/-- The set-user-id, set-group-id and sticky bits. -/
def modex (fi : S3FileInfo) : UInt32 :=
  (if fi.exeUid then 2048 else 0) ||| (if fi.exeGid then 1024 else 0) |||
    (if fi.sticky then 512 else 0)

/-- `CreateHeadersFromFileInfo`, as pairs of a key and a value, which are written with a colon
between them.  Without a local time for the access there is nothing to write; without one for the
modification the structure is left as it was. -/
def createHeadersFromFileInfo (zone : Zone) (fi : S3FileInfo) : Option (List (Bytes × Bytes)) := do
  let atm ← localtime zone fi.atime
  let mtm := (localtime zone fi.mtime).getD atm
  return [(ascii "x-amz-meta-atime", formatTime atm), (ascii "Last-Modified", formatTime mtm)] ++
    contentType fi.fileType ++
    [(ascii "x-amz-meta-uid", formatWord fi.uid), (ascii "x-amz-meta-gid", formatWord fi.gid),
      (ascii "x-amz-meta-mode", formatWord fi.permissions),
      (ascii "x-amz-meta-modex", formatWord (modex fi))]

/-! ### Reading a time -/

/-- `-EILSEQ`. -/
def eilseq : ℤ := -84

/-- `-ERANGE`. -/
def erange : ℤ := -34

/-- `DECODE_TIME_FIND_ALPHA` and `DECODE_TIME_FIND_DIGIT`. -/
def findChar (p : UInt8 → Bool) (s : Bytes) : Except ℤ Bytes :=
  match s.dropWhile (!p ·) with
  | [] => .error eilseq
  | c :: t => .ok (c :: t)

/-- The number in the next digits. -/
def takeDigits (count : ℕ) (s : Bytes) : Except ℤ ℕ :=
  if (s.take count).length = count ∧ (s.take count).all isdigit then
    .ok (decimalValue (s.take count))
  else .error eilseq

/-- `DECODE_TIME_GET_DOUBLEDIGIT`. -/
def getDoubleDigit (max : ℕ) (s : Bytes) : Except ℤ ℕ := do
  let value ← takeDigits 2 s
  if max ≤ value then .error erange else .ok value

/-- `months` of `GetHeaderTime`. -/
def months : List Bytes :=
  [ascii "jan", ascii "feb", ascii "mar", ascii "apr", ascii "may", ascii "jun",
    ascii "jul", ascii "aug", ascii "sep", ascii "oct", ascii "nov", ascii "dec"]

/-- The month in `GetHeaderTime`. -/
def decodeMonth (s : Bytes) : Except ℤ ℕ :=
  if (s.takeWhile isalpha).length < 3 then .error eilseq
  else
    match months.findIdx? (· = (s.take 3).map tolower) with
    | none => .error erange
    | some month => .ok month

/-- The year in `GetHeaderTime`. -/
def decodeYear (s : Bytes) : Except ℤ ℕ := do
  let year ← takeDigits 4 s
  if year < 1900 then .error erange else .ok year

/-- The time of day in `GetHeaderTime`. -/
def decodeClock (s : Bytes) : Except ℤ (ℕ × ℕ × ℕ) := do
  let s ← findChar isdigit s
  let hour ← getDoubleDigit 24 s
  let minute ← getDoubleDigit 60 (s.drop 3)
  let second ← getDoubleDigit 60 (s.drop 6)
  return (hour, minute, second)

/-- `GetHeaderTime`, up to the call of `mktime`. -/
def decodeTime (string : Bytes) : Except ℤ Time := do
  let s ← findChar isdigit string
  let day := decimalValue ((s.take 2).takeWhile isdigit)
  let s ← findChar isalpha s
  let month ← decodeMonth s
  let s ← findChar isdigit (s.dropWhile isalpha)
  let year ← decodeYear s
  let clock ← decodeClock (s.drop 4)
  return ⟨⟨year, month, day⟩, clock.1, clock.2.1, clock.2.2⟩

/-! ### Reading the headers -/

/-- What `S3GetFileStat` finds around it: the time zone and the moment of the start of the program,
`errno`, what its variable for numbers happens to hold, and the user. -/
structure StatContext where
  zone : Zone
  start : ℤ
  errno : ℤ
  unset : ℤ
  getuid : UInt32
  getgid : UInt32

/-- `GetHeaderTime`; `localTimezone` is the offset at the start of the program. -/
def getHeaderTime (ctx : StatContext) (string : Bytes) : Except ℤ ℤ := do
  let tm ← decodeTime string
  return ctx.zone.toInstant tm.seconds + ctx.zone.offset ctx.start

/-- `GetHeaderInt`: the value afterwards, unless the status is not `0`.  A text that is not a number
leaves the value as it was. -/
def getHeaderInt (ctx : StatContext) (string : Bytes) (value : ℤ) : Except ℤ ℤ :=
  match string.dropWhile isspace with
  | [] => if ctx.errno = 0 then .ok value else .error (-ctx.errno)
  | c :: t =>
      if isdigit c || (c == 45 || c == 43) && t.head?.any isdigit then .ok (strtoll string)
      else .ok value

/-- The headers that `S3GetFileStat` reads. -/
inductive HeaderField
  | uid
  | gid
  | mode
  | contentType
  | contentLength
  | atime
  | ctime
  | mtime
  | lastModified
  deriving DecidableEq, Repr

/-- Their keys, in the order of the comparisons. -/
def headerKeys : List (Bytes × HeaderField) :=
  [(ascii "x-amz-meta-uid", .uid), (ascii "x-amz-meta-gid", .gid), (ascii "x-amz-meta-mode", .mode),
    (ascii "Content-Type", .contentType), (ascii "Content-Length", .contentLength),
    (ascii "x-amz-meta-atime", .atime), (ascii "x-amz-meta-ctime", .ctime),
    (ascii "x-amz-meta-mtime", .mtime), (ascii "Last-Modified", .lastModified)]

def headerField (key : Bytes) : Option HeaderField :=
  (headerKeys.find? (·.1 = key)).map (·.2)

/-- The file information and the variable for numbers in the loop of `S3GetFileStat`. -/
structure StatBuffer where
  info : S3FileInfo
  tempValue : ℤ

namespace StatBuffer

variable (ctx : StatContext) (b : StatBuffer)

/-- A header with a number. -/
def setInt (string : Bytes) (set : ℤ → S3FileInfo) : Except ℤ StatBuffer := do
  let value ← getHeaderInt ctx string b.tempValue
  return ⟨set value, value⟩

/-- A header with a time. -/
def setTime (string : Bytes) (set : ℤ → S3FileInfo) : Except ℤ StatBuffer := do
  let value ← getHeaderTime ctx string
  return { b with info := set value }

/-- The header for the permissions. -/
def setMode (info : S3FileInfo) (mode : UInt32) : S3FileInfo :=
  { info with
    permissions := mode &&& 511
    exeUid := mode &&& 2048 != 0
    exeGid := mode &&& 1024 != 0
    sticky := mode &&& 512 != 0 }

/-- The header for the type of the file. -/
def setType (info : S3FileInfo) (value : Bytes) : S3FileInfo :=
  if value.take 23 = ascii "application/x-directory" then { info with fileType := 100 }
  else if value.take 21 = ascii "application/x-symlink" then { info with fileType := 108 }
  else info

/-- One header in the loop of `S3GetFileStat`. -/
def decodeHeader (header : Bytes × Bytes) : Except ℤ StatBuffer :=
  match headerField header.1 with
  | none => .ok b
  | some .uid => b.setInt ctx header.2 fun value => { b.info with uid := .ofInt value }
  | some .gid => b.setInt ctx header.2 fun value => { b.info with gid := .ofInt value }
  | some .mode => b.setInt ctx header.2 fun value => setMode b.info (.ofInt value)
  | some .contentType => .ok { b with info := setType b.info header.2 }
  | some .contentLength => b.setInt ctx header.2 fun value => { b.info with size := value }
  | some .atime => b.setTime ctx header.2 fun value => { b.info with atime := value }
  | some .ctime => b.setTime ctx header.2 fun value => { b.info with ctime := value }
  | some .mtime =>
      if b.info.mtime ≠ 0 then b.setTime ctx header.2 fun value => { b.info with mtime := value }
      else .ok b
  | some .lastModified => b.setTime ctx header.2 fun value => { b.info with mtime := value }

end StatBuffer

/-- The file information before the loop of `S3GetFileStat`.  A slash at the end of the name
indicates a directory. -/
def defaultInfo (ctx : StatContext) (filename : Bytes) : S3FileInfo where
  uid := ctx.getuid
  gid := ctx.getgid
  permissions := if filename.getLast? = some 47 then 493 else 420
  fileType := if filename.getLast? = some 47 then 100 else 102
  exeUid := false
  exeGid := false
  sticky := false
  size := 0
  atime := 0
  mtime := 0
  ctime := 0

/-- `S3GetFileStat`, with the headers that come back. -/
def s3GetFileStat (ctx : StatContext) (filename : Bytes) (response : List (Bytes × Bytes)) :
    Except ℤ S3FileInfo := do
  let b ← response.foldlM (StatBuffer.decodeHeader ctx) ⟨defaultInfo ctx filename, ctx.unset⟩
  return b.info

/-! ### Round trips -/

/-- The information that is to survive. -/
structure SameMetadata (fi fi' : S3FileInfo) : Prop where
  fileType : fi'.fileType = fi.fileType
  permissions : fi'.permissions = fi.permissions
  uid : fi'.uid = fi.uid
  gid : fi'.gid = fi.gid
  exeUid : fi'.exeUid = fi.exeUid
  exeGid : fi'.exeGid = fi.exeGid
  sticky : fi'.sticky = fi.sticky
  atime : fi'.atime = fi.atime

/-- The headers that are stored with an object: user metadata and the content type. -/
def stored (key : Bytes) : Bool :=
  key.take 11 = ascii "x-amz-meta-" || key = ascii "Content-Type"

/-- A header that can be read and says nothing about the information. -/
def Neutral (ctx : StatContext) (header : Bytes × Bytes) : Prop :=
  ∀ b : StatBuffer, ∃ b', b.decodeHeader ctx header = .ok b' ∧ SameMetadata b.info b'.info

/-- The headers that come back are those that were stored, in any order and with others that say
nothing about the information. -/
structure Returned (ctx : StatContext) (headers response : List (Bytes × Bytes)) : Prop where
  stored : ∀ h ∈ headers, stored h.1 = true → h ∈ response
  others : ∀ h ∈ response, h ∈ headers ∧ AwsS3fs.stored h.1 = true ∨ Neutral ctx h

/-- **The information is the same after it has been written and read**, whatever the storage adds
to it. -/
def MetadataRoundTrips (ctx : StatContext) (filename : Bytes) (fi : S3FileInfo) : Prop :=
  ∃ headers, createHeadersFromFileInfo ctx.zone fi = some headers ∧
    ∀ response, Returned ctx headers response →
      ∃ fi', s3GetFileStat ctx filename response = .ok fi' ∧ SameMetadata fi fi'

/-- **The information that survives.**  The moment that `mktime` takes for the local time of the
access is the access itself, unless the clocks show this time twice. -/
structure Kept (ctx : StatContext) (filename : Bytes) (fi : S3FileInfo) : Prop where
  exeUid : fi.exeUid = false
  exeGid : fi.exeGid = false
  sticky : fi.sticky = false
  filename : fi.fileType = 102 → filename.getLast? ≠ some 47
  year : (Time.ofSeconds (ctx.zone.clock fi.atime)).date.year ≤ 9999
  offset : ctx.zone.offset ctx.start =
    ctx.zone.offset (ctx.zone.toInstant (ctx.zone.clock fi.atime)) - ctx.zone.offset fi.atime

/-! ### Times are read as they were written -/

theorem findChar_append {p : UInt8 → Bool} {a : Bytes} {c : UInt8} (r : Bytes)
    (ha : ∀ ch ∈ a, p ch = false) (hc : p c = true) : findChar p (a ++ c :: r) = .ok (c :: r) := by
  have hdrop : (a ++ c :: r).dropWhile (!p ·) = c :: r := by
    rw [List.dropWhile_append_of_pos fun ch hch => by rw [ha ch hch]; rfl,
      List.dropWhile_cons_of_neg (by rw [hc]; exact Bool.false_ne_true)]
  rw [findChar, hdrop]

theorem takeDigits_append {ds : Bytes} (r : Bytes) (hds : ∀ d ∈ ds, isdigit d = true) {count : ℕ}
    (hcount : ds.length = count) : takeDigits count (ds ++ r) = .ok (decimalValue ds) := by
  have htake : (ds ++ r).take count = ds := by rw [← hcount, List.take_left]
  rw [takeDigits, htake, if_pos ⟨hcount, List.all_eq_true.2 hds⟩]

theorem formatTwo_spec : ∀ n < 100, (formatTwo n).length = 2 ∧
    (∀ d ∈ formatTwo n, isdigit d = true) ∧ decimalValue (formatTwo n) = n := by
  decide +kernel

theorem getDoubleDigit_formatTwo {n max : ℕ} (h : n < max) (hmax : max ≤ 100) (r : Bytes) :
    getDoubleDigit max (formatTwo n ++ r) = .ok n := by
  obtain ⟨hlength, hdigits, hvalue⟩ := formatTwo_spec n (h.trans_le hmax)
  rw [getDoubleDigit, takeDigits_append r hdigits hlength, hvalue]
  exact if_neg (not_le.2 h)

/-- The time of day is read after anything that is not a digit. -/
theorem decodeClock_formatClock {tm : Time} (hhour : tm.hour < 24) (hminute : tm.minute < 60)
    (hsecond : tm.second < 60) :
    decodeClock (32 :: formatClock tm) = .ok (tm.hour, tm.minute, tm.second) := by
  obtain ⟨hlength, hdigits, -⟩ := formatTwo_spec tm.hour (by omega)
  obtain ⟨hlengthMinute, -, -⟩ := formatTwo_spec tm.minute (by omega)
  obtain ⟨d, t, hd⟩ := List.exists_cons_of_length_eq_add_one hlength
  have hfind : findChar isdigit (32 :: formatClock tm) = .ok (formatClock tm) := by
    rw [formatClock, hd]
    exact findChar_append (a := [32]) _ (by decide +kernel) (hdigits d (by simp [hd]))
  have hdropThree : (formatClock tm).drop 3 =
      formatTwo tm.minute ++ 58 :: (formatTwo tm.second ++ ascii " GMT") := by
    rw [formatClock, List.drop_append, List.drop_of_length_le (by omega), hlength]
    rfl
  have hdropSix : (formatClock tm).drop 6 = formatTwo tm.second ++ ascii " GMT" := by
    rw [show 6 = 3 + 3 from rfl, ← List.drop_drop, hdropThree, List.drop_append,
      List.drop_of_length_le (by omega), hlengthMinute]
    rfl
  have hdecodeHour : getDoubleDigit 24 (formatClock tm) = .ok tm.hour :=
    getDoubleDigit_formatTwo hhour (by omega) _
  have hdecodeMinute := getDoubleDigit_formatTwo hminute (by omega)
    (58 :: (formatTwo tm.second ++ ascii " GMT"))
  have hdecodeSecond := getDoubleDigit_formatTwo hsecond (by omega) (ascii " GMT")
  simp only [decodeClock, hfind, bind, Except.bind, hdropThree, hdropSix, hdecodeHour,
    hdecodeMinute, hdecodeSecond, pure, Except.pure]

theorem isalpha_of_isdigit {ch : UInt8} (h : isdigit ch = true) : isalpha ch = false := by
  simp only [isdigit, Bool.and_eq_true, decide_eq_true_eq, UInt8.le_iff_toNat_le] at h
  simp only [isalpha, Bool.or_eq_false_iff, Bool.and_eq_false_imp, decide_eq_true_eq,
    decide_eq_false_iff_not, UInt8.le_iff_toNat_le, UInt8.reduceToNat] at h ⊢
  omega

/-- A number of one or two digits, before a blank. -/
theorem takeWhile_take_append {ds : Bytes} (r : Bytes) (hds : ∀ d ∈ ds, isdigit d = true)
    {count : ℕ} (hlength : ds.length ≤ count) :
    ((ds ++ 32 :: r).take count).takeWhile isdigit = ds := by
  rw [List.take_append, List.take_of_length_le hlength, List.takeWhile_append_of_pos hds]
  cases count - ds.length with
  | zero => exact List.append_nil ds
  | succ k => exact List.append_nil ds

theorem wdays_spec : ∀ i, ∀ ch ∈ wdays.getD i [], isdigit ch = false := by
  intro i ch hch
  have hmem : ∀ w ∈ wdays, ∀ ch ∈ w, isdigit ch = false := by decide +kernel
  rw [List.getD_eq_getElem?_getD] at hch
  cases hi : wdays[i]? with
  | none =>
      rw [hi] at hch
      cases hch
  | some w =>
      rw [hi] at hch
      exact hmem w (List.mem_of_getElem? hi) ch hch

theorem monthNames_spec : ∀ month < 12, (monthNames.getD month []).length = 3 ∧
    (∀ ch ∈ monthNames.getD month [], isalpha ch = true) ∧
    months.findIdx? (· = (monthNames.getD month []).map tolower) = some month := by
  decide +kernel

theorem decodeMonth_monthNames {month : ℕ} (hmonth : month < 12) (r : Bytes) :
    decodeMonth (monthNames.getD month [] ++ 32 :: r) = .ok month := by
  obtain ⟨hlength, halpha, hfind⟩ := monthNames_spec month hmonth
  have htakeWhile : (monthNames.getD month [] ++ 32 :: r).takeWhile isalpha =
      monthNames.getD month [] := by
    rw [List.takeWhile_append_of_pos halpha]
    exact List.append_nil _
  have htake : (monthNames.getD month [] ++ 32 :: r).take 3 = monthNames.getD month [] := by
    rw [← hlength, List.take_left]
  rw [decodeMonth, htakeWhile, htake, hfind, if_neg (by omega)]

/-- The weekday, the day and the month of a time are read, up to the year. -/
theorem decodeTime_date {w dd ds : Bytes} {month : ℕ} (r : Bytes)
    (hw : ∀ ch ∈ w, isdigit ch = false) (hdd : ∀ d ∈ dd, isdigit d = true) (hday : dd ≠ [])
    (htwo : dd.length ≤ 2) (hmonth : month < 12) (hds : ∀ d ∈ ds, isdigit d = true)
    (hne : ds ≠ []) :
    decodeTime (w ++ (ascii ", " ++ (dd ++
        32 :: (monthNames.getD month [] ++ 32 :: (ds ++ r))))) =
      (do
        let year ← decodeYear (ds ++ r)
        let clock ← decodeClock ((ds ++ r).drop 4)
        return ⟨⟨year, month, decimalValue dd⟩, clock.1, clock.2.1, clock.2.2⟩) := by
  obtain ⟨hlength, halpha, -⟩ := monthNames_spec month hmonth
  obtain ⟨d, t, hd⟩ := List.exists_cons_of_ne_nil hday
  obtain ⟨m, u, hm⟩ := List.exists_cons_of_length_eq_add_one hlength
  obtain ⟨y, v, hy⟩ := List.exists_cons_of_ne_nil hne
  have hfindDay : findChar isdigit (w ++ (ascii ", " ++ (dd ++
      32 :: (monthNames.getD month [] ++ 32 :: (ds ++ r))))) =
      .ok (dd ++ 32 :: (monthNames.getD month [] ++ 32 :: (ds ++ r))) := by
    rw [← List.append_assoc, hd]
    refine findChar_append _ (fun ch hch => ?_) (hdd d (by simp [hd]))
    rcases List.mem_append.1 hch with hch | hch
    · exact hw ch hch
    · exact (by decide +kernel : ∀ ch ∈ ascii ", ", isdigit ch = false) ch hch
  have hvalue := takeWhile_take_append (monthNames.getD month [] ++ 32 :: (ds ++ r)) hdd htwo
  have hfindMonth : findChar isalpha (dd ++
      32 :: (monthNames.getD month [] ++ 32 :: (ds ++ r))) =
      .ok (monthNames.getD month [] ++ 32 :: (ds ++ r)) := by
    rw [List.append_cons, hm]
    refine findChar_append _ (fun ch hch => ?_) (halpha m (hm ▸ List.mem_cons_self))
    rcases List.mem_append.1 hch with hch | hch
    · exact isalpha_of_isdigit (hdd ch hch)
    · exact (by decide +kernel : ∀ ch ∈ [32], isalpha ch = false) ch hch
  have hfindYear : findChar isdigit ((monthNames.getD month [] ++ 32 :: (ds ++ r)).dropWhile
      isalpha) = .ok (ds ++ r) := by
    rw [List.dropWhile_append_of_pos halpha, hy]
    exact findChar_append (a := [32]) _ (by decide +kernel) (hds y (by simp [hy]))
  simp only [decodeTime, hfindDay, bind, Except.bind, hvalue, hfindMonth,
    decodeMonth_monthNames hmonth, hfindYear, pure, Except.pure]

/-- A day with as many digits as it has. -/
theorem decodeTime_formatInt {w ds : Bytes} {day month : ℕ} (r : Bytes)
    (hw : ∀ ch ∈ w, isdigit ch = false) (hday : day < 100) (hmonth : month < 12)
    (hds : ∀ d ∈ ds, isdigit d = true) (hne : ds ≠ []) :
    decodeTime (w ++ (ascii ", " ++ (formatInt day ++
        32 :: (monthNames.getD month [] ++ 32 :: (ds ++ r))))) =
      (do
        let year ← decodeYear (ds ++ r)
        let clock ← decodeClock ((ds ++ r).drop 4)
        return ⟨⟨year, month, day⟩, clock.1, clock.2.1, clock.2.2⟩) := by
  rw [decodeTime_date r hw (fun d => isdigit_of_mem_formatInt) (formatInt_ne_nil day)
    (length_formatInt_le (by omega : 0 < 2) hday) hmonth hds hne, decimalValue_formatInt]

/-- **A time with a year of four digits is read as it was written.** -/
theorem decodeTime_formatTime {tm : Time} (hyear : 1900 ≤ tm.date.year)
    (hyear' : tm.date.year ≤ 9999) (hmonth : tm.date.month < 12) (hday : tm.date.day < 100)
    (hhour : tm.hour < 24) (hminute : tm.minute < 60) (hsecond : tm.second < 60) :
    decodeTime (formatTime tm) = .ok tm := by
  obtain ⟨year, hy⟩ := Int.eq_ofNat_of_zero_le (by omega : 0 ≤ tm.date.year)
  have hlength : (formatInt year).length = 4 := length_formatInt (by omega) (by omega)
  have hdigits : ∀ d ∈ formatInt (year : ℤ), isdigit d = true := fun d => isdigit_of_mem_formatInt
  have hdecode : decodeYear (formatInt year ++ 32 :: formatClock tm) = .ok year := by
    rw [decodeYear, takeDigits_append _ hdigits hlength, decimalValue_formatInt]
    exact if_neg (by omega)
  rw [formatTime, hy, decodeTime_formatInt _ (wdays_spec _) hday hmonth hdigits (formatInt_ne_nil year),
    hdecode, List.drop_left' hlength]
  simp only [bind, Except.bind, decodeClock_formatClock hhour hminute hsecond, pure, Except.pure]
  rw [← hy]

/-! ### Times that cannot be read -/

theorem takeDigits_lt {count n : ℕ} {s : Bytes} (h : takeDigits count s = .ok n) :
    n < 10 ^ count := by
  rw [takeDigits] at h
  split at h
  · rename_i hdigits
    obtain rfl := Except.ok.inj h
    have hlt := decimalValue_lt (List.all_eq_true.1 hdigits.2)
    rwa [hdigits.1] at hlt
  · cases h

theorem getDoubleDigit_lt {max n : ℕ} {s : Bytes} (h : getDoubleDigit max s = .ok n) :
    n < max := by
  obtain ⟨value, -, h⟩ := bind_eq_ok_iff.1 h
  split at h
  · cases h
  · rename_i hlt
    obtain rfl := Except.ok.inj h
    exact not_le.1 hlt

theorem decodeMonth_lt {month : ℕ} {s : Bytes} (h : decodeMonth s = .ok month) : month < 12 := by
  rw [decodeMonth] at h
  split at h
  · cases h
  · split at h
    · cases h
    · rename_i hfind
      obtain rfl := Except.ok.inj h
      exact (List.findIdx?_eq_some_iff_getElem.1 hfind).1

theorem decodeYear_le {year : ℕ} {s : Bytes} (h : decodeYear s = .ok year) : year ≤ 9999 := by
  obtain ⟨value, hvalue, h⟩ := bind_eq_ok_iff.1 h
  have hlt := takeDigits_lt hvalue
  split at h
  · cases h
  · obtain rfl := Except.ok.inj h
    omega

theorem decodeClock_lt {clock : ℕ × ℕ × ℕ} {s : Bytes} (h : decodeClock s = .ok clock) :
    clock.1 < 24 ∧ clock.2.1 < 60 ∧ clock.2.2 < 60 := by
  obtain ⟨s', -, h⟩ := bind_eq_ok_iff.1 h
  obtain ⟨hour, hhour, h⟩ := bind_eq_ok_iff.1 h
  obtain ⟨minute, hminute, h⟩ := bind_eq_ok_iff.1 h
  obtain ⟨second, hsecond, h⟩ := bind_eq_ok_iff.1 h
  obtain rfl := Except.ok.inj h
  exact ⟨getDoubleDigit_lt hhour, getDoubleDigit_lt hminute, getDoubleDigit_lt hsecond⟩

/-- No text is read as a time after the year 9999. -/
theorem seconds_of_decodeTime {tm : Time} {s : Bytes} (h : decodeTime s = .ok tm) :
    tm.seconds < 86400 * (yearStart 10000 + 100) := by
  obtain ⟨s₁, -, h⟩ := bind_eq_ok_iff.1 h
  obtain ⟨s₂, -, h⟩ := bind_eq_ok_iff.1 h
  obtain ⟨month, hmonth, h⟩ := bind_eq_ok_iff.1 h
  obtain ⟨s₃, -, h⟩ := bind_eq_ok_iff.1 h
  obtain ⟨year, hyear, h⟩ := bind_eq_ok_iff.1 h
  obtain ⟨clock, hclock, h⟩ := bind_eq_ok_iff.1 h
  have hyear := decodeYear_le hyear
  have hclock := decodeClock_lt hclock
  have hday : decimalValue ((s₁.take 2).takeWhile isdigit) ≤ 99 := by
    have hlength : ((s₁.take 2).takeWhile isdigit).length ≤ 2 :=
      (List.takeWhile_sublist _).length_le.trans (List.length_take_le 2 s₁)
    have hvalue := decimalValue_lt fun _ => List.mem_takeWhile_imp (p := isdigit) (l := s₁.take 2)
    have hpow := Nat.pow_le_pow_right (n := 10) (by omega) hlength
    omega
  obtain rfl := Except.ok.inj h
  exact Time.seconds_lt (by simpa using by omega) (decodeMonth_lt hmonth) hday hclock.1 hclock.2.1
    hclock.2.2

/-- A time with a year of five digits cannot be read. -/
theorem decodeTime_formatTime_ne {tm : Time} (hyear : 10000 ≤ tm.date.year)
    (hyear' : tm.date.year ≤ 99999) (hmonth : tm.date.month < 12) (hday : tm.date.day < 100)
    (tm' : Time) : decodeTime (formatTime tm) ≠ .ok tm' := by
  obtain ⟨year, hy⟩ := Int.eq_ofNat_of_zero_le (by omega : 0 ≤ tm.date.year)
  have hlength : (formatInt year).length = 5 := length_formatInt (by omega) (by omega)
  have hdigits : ∀ d ∈ formatInt (year : ℤ), isdigit d = true := fun d => isdigit_of_mem_formatInt
  intro h
  rw [formatTime, hy, decodeTime_formatInt _ (wdays_spec _) hday hmonth hdigits
    (formatInt_ne_nil year)] at h
  obtain ⟨year', -, h⟩ := bind_eq_ok_iff.1 h
  obtain ⟨clock, hclock, -⟩ := bind_eq_ok_iff.1 h
  -- the time of day is looked for at the last digit of the year
  obtain ⟨d, hd⟩ : ∃ d, (formatInt (year : ℤ)).drop 4 = [d] :=
    List.length_eq_one_iff.1 (by rw [List.length_drop, hlength])
  have hdigit : isdigit d = true :=
    hdigits d (List.mem_of_mem_drop (hd ▸ List.mem_singleton_self d))
  have hdrop : (formatInt (year : ℤ) ++ 32 :: formatClock tm).drop 4 =
      d :: 32 :: formatClock tm := by
    rw [List.drop_append_of_le_length (by omega), hd]
    rfl
  obtain ⟨s', hs', hclock⟩ := bind_eq_ok_iff.1 hclock
  obtain ⟨hour, hhour, -⟩ := bind_eq_ok_iff.1 hclock
  rw [hdrop] at hs'
  have hfind := findChar_append (a := []) (32 :: formatClock tm) (by simp) hdigit
  obtain rfl := Except.ok.inj (hfind.symm.trans hs')
  obtain ⟨value, hvalue, -⟩ := bind_eq_ok_iff.1 hhour
  rw [takeDigits, if_neg (by simp [isdigit])] at hvalue
  cases hvalue

theorem year_of_clock {zone : Zone} {t : ℤ} (ht : 0 ≤ t) :
    1900 ≤ (Time.ofSeconds (zone.clock t)).date.year := by
  by_contra hyear
  obtain ⟨hmonth, -, hday, -⟩ := dateOfDay_spec (zone.clock t / 86400)
  obtain ⟨hhour, hminute, hsecond⟩ := Time.ofSeconds_spec (zone.clock t)
  have hlt := Time.seconds_lt (not_le.1 hyear) hmonth (hday.trans (by omega)) hhour hminute hsecond
  have hstart : yearStart 1900 = -25567 := by decide
  have hoffset := abs_lt.1 (zone.offset_bound t)
  rw [Time.seconds_ofSeconds, hstart, Zone.clock] at hlt
  omega

theorem getHeaderTime_formatTime (ctx : StatContext) {t : ℤ} (ht : 0 ≤ t)
    (hyear : (Time.ofSeconds (ctx.zone.clock t)).date.year ≤ 9999) :
    getHeaderTime ctx (formatTime (Time.ofSeconds (ctx.zone.clock t))) =
      .ok (ctx.zone.toInstant (ctx.zone.clock t) + ctx.zone.offset ctx.start) := by
  obtain ⟨hmonth, -, hday, -⟩ := dateOfDay_spec (ctx.zone.clock t / 86400)
  obtain ⟨hhour, hminute, hsecond⟩ := Time.ofSeconds_spec (ctx.zone.clock t)
  rw [getHeaderTime, decodeTime_formatTime (year_of_clock ht) hyear hmonth
    (hday.trans_lt (by omega)) hhour hminute hsecond]
  simp only [bind, Except.bind, Time.seconds_ofSeconds, pure, Except.pure]

/-- A time after the year 9999 is read as an earlier one, if at all. -/
theorem getHeaderTime_ne (ctx : StatContext) {t : ℤ}
    (hyear : 9999 < (Time.ofSeconds (ctx.zone.clock t)).date.year) :
    getHeaderTime ctx (formatTime (Time.ofSeconds (ctx.zone.clock t))) ≠ .ok t := by
  obtain ⟨hmonth, hone, hday, -⟩ := dateOfDay_spec (ctx.zone.clock t / 86400)
  intro h
  obtain ⟨tm, htm, h⟩ := bind_eq_ok_iff.1 h
  obtain h := Except.ok.inj h
  rcases lt_or_ge 99999 (Time.ofSeconds (ctx.zone.clock t)).date.year with hmore | hfive
  · have hread := seconds_of_decodeTime htm
    have hwritten := Time.le_seconds (Int.add_one_le_of_lt hmore) hone
    have hstart : yearStart 10000 = 2932897 := by decide
    have hstart' : yearStart (99999 + 1) = 35804722 := by decide
    have hoffset := abs_lt.1 (ctx.zone.offset_bound t)
    have hoffset' := abs_lt.1 (ctx.zone.offset_bound ctx.start)
    have hinstant := abs_lt.1 (ctx.zone.toInstant_bound tm.seconds)
    rw [Time.seconds_ofSeconds, hstart', Zone.clock] at hwritten
    rw [hstart] at hread
    omega
  · exact decodeTime_formatTime_ne (by omega) hfive hmonth (hday.trans_lt (by omega)) tm htm

/-! ### Numbers are read as they were written -/

/-- A number of 32 bits is the same after it has been taken for a signed one. -/
theorem ofInt_toInt (w : UInt32) : UInt32.ofInt w.toInt32.toInt = w := by
  have hbmod : w.toInt32.toInt = (w.toNat : ℤ).bmod (2 ^ 32) := BitVec.toInt_eq_toNat_bmod _
  have hlt := w.toNat_lt
  have hmod : w.toInt32.toInt % 2 ^ 32 = w.toNat := by
    rw [hbmod]
    simp only [Int.bmod]
    omega
  rw [UInt32.ofInt, hmod, Int.toNat_natCast, UInt32.ofNat_toNat]

theorem toInt_bound (w : UInt32) : -2 ^ 31 ≤ w.toInt32.toInt ∧ w.toInt32.toInt < 2 ^ 31 :=
  ⟨w.toInt32.le_toInt, w.toInt32.toInt_lt⟩

/-- A number is read as it was written. -/
theorem getHeaderInt_formatInt (ctx : StatContext) {n : ℤ} (hle : -2 ^ 63 ≤ n) (hlt : n < 2 ^ 63)
    (value : ℤ) : getHeaderInt ctx (formatInt n) value = .ok n := by
  obtain ⟨c, t, hct⟩ := List.exists_cons_of_ne_nil (formatInt_ne_nil n.natAbs)
  have hc : isdigit c = true := isdigit_of_mem_formatInt (n := n.natAbs) (hct ▸ List.mem_cons_self)
  rw [getHeaderInt, strtoll_formatInt hle hlt, formatInt_eq]
  rcases lt_or_ge n 0 with hneg | hpos
  · have hspace : (45 :: formatInt n.natAbs).dropWhile isspace = 45 :: formatInt n.natAbs := rfl
    rw [if_pos hneg, hspace, hct]
    simp [hc]
  · have hspace : (formatInt n.natAbs).dropWhile isspace = c :: t := by
      rw [hct, List.dropWhile_cons_of_neg (by simp [isspace_of_isdigit hc])]
    rw [if_neg (not_lt.2 hpos), hspace]
    simp [hc]

theorem setInt_formatWord (ctx : StatContext) (b : StatBuffer) (w : UInt32)
    (set : ℤ → S3FileInfo) :
    b.setInt ctx (formatWord w) set = .ok ⟨set w.toInt32.toInt, w.toInt32.toInt⟩ := by
  have hbound := toInt_bound w
  rw [StatBuffer.setInt, formatWord, getHeaderInt_formatInt ctx (by omega) (by omega)]
  rfl

theorem setMode_ofInt {info : S3FileInfo} {w : UInt32} (hw : w ≤ 511) :
    StatBuffer.setMode info w =
      { info with permissions := w, exeUid := false, exeGid := false, sticky := false } := by
  have hbits : ∀ n < 512, UInt32.ofNat n &&& 511 = UInt32.ofNat n ∧
      UInt32.ofNat n &&& 2048 = 0 ∧ UInt32.ofNat n &&& 1024 = 0 ∧ UInt32.ofNat n &&& 512 = 0 := by
    decide +kernel
  have hlt : w.toNat < 512 := Nat.lt_succ_of_le (UInt32.le_iff_toNat_le.1 hw)
  have := hbits w.toNat hlt
  rw [UInt32.ofNat_toNat] at this
  simp [StatBuffer.setMode, this]

/-! ### The headers that were written are read -/

/-- What is read from the headers that were written, with the time that is read for the access. -/
def readBack (filename : Bytes) (fi : S3FileInfo) (atime : ℤ) : S3FileInfo :=
  { fi with
    fileType := if fi.fileType = 102 ∧ filename.getLast? = some 47 then 100 else fi.fileType
    exeUid := false
    exeGid := false
    sticky := false
    atime := atime }

/-- Each part of the information is left as it was or becomes that of `fi`. -/
structure Towards (fi a b : S3FileInfo) : Prop where
  fileType : b.fileType = fi.fileType ∨ b.fileType = a.fileType
  permissions : b.permissions = fi.permissions ∨ b.permissions = a.permissions
  uid : b.uid = fi.uid ∨ b.uid = a.uid
  gid : b.gid = fi.gid ∨ b.gid = a.gid
  exeUid : b.exeUid = fi.exeUid ∨ b.exeUid = a.exeUid
  exeGid : b.exeGid = fi.exeGid ∨ b.exeGid = a.exeGid
  sticky : b.sticky = fi.sticky ∨ b.sticky = a.sticky
  atime : b.atime = fi.atime ∨ b.atime = a.atime

theorem Towards.of_same {fi a b : S3FileInfo} (h : SameMetadata a b) : Towards fi a b :=
  ⟨.inr h.fileType, .inr h.permissions, .inr h.uid, .inr h.gid, .inr h.exeUid, .inr h.exeGid,
    .inr h.sticky, .inr h.atime⟩

theorem Towards.trans {fi a b c : S3FileInfo} (hab : Towards fi a b) (hbc : Towards fi b c) :
    Towards fi a c where
  fileType := hbc.fileType.elim .inl fun h => h ▸ hab.fileType
  permissions := hbc.permissions.elim .inl fun h => h ▸ hab.permissions
  uid := hbc.uid.elim .inl fun h => h ▸ hab.uid
  gid := hbc.gid.elim .inl fun h => h ▸ hab.gid
  exeUid := hbc.exeUid.elim .inl fun h => h ▸ hab.exeUid
  exeGid := hbc.exeGid.elim .inl fun h => h ▸ hab.exeGid
  sticky := hbc.sticky.elim .inl fun h => h ▸ hab.sticky
  atime := hbc.atime.elim .inl fun h => h ▸ hab.atime

/-- The headers that are written are told apart by their keys. -/
theorem headerField_written :
    headerField (ascii "x-amz-meta-atime") = some .atime ∧
      headerField (ascii "Content-Type") = some .contentType ∧
      headerField (ascii "x-amz-meta-uid") = some .uid ∧
      headerField (ascii "x-amz-meta-gid") = some .gid ∧
      headerField (ascii "x-amz-meta-mode") = some .mode ∧
      headerField (ascii "x-amz-meta-modex") = none := by
  decide +kernel

theorem stored_written :
    stored (ascii "x-amz-meta-atime") = true ∧ stored (ascii "Content-Type") = true ∧
      stored (ascii "x-amz-meta-uid") = true ∧ stored (ascii "x-amz-meta-gid") = true ∧
      stored (ascii "x-amz-meta-mode") = true ∧ stored (ascii "x-amz-meta-modex") = true ∧
      stored (ascii "Last-Modified") = false := by
  decide +kernel

section Written

variable (ctx : StatContext) (b : StatBuffer) (fi : S3FileInfo)

theorem decodeHeader_atime {s : Bytes} {value : ℤ} (hs : getHeaderTime ctx s = .ok value) :
    b.decodeHeader ctx (ascii "x-amz-meta-atime", s) =
      .ok { b with info := { b.info with atime := value } } := by
  simp only [StatBuffer.decodeHeader, headerField_written.1, StatBuffer.setTime, hs, bind,
    Except.bind, pure, Except.pure]

theorem decodeHeader_contentType {h : Bytes × Bytes} (hh : h ∈ contentType fi.fileType) :
    b.decodeHeader ctx h = .ok { b with info := { b.info with fileType := fi.fileType } } := by
  have hkey := headerField_written.2.1
  rw [contentType] at hh
  split at hh
  · rename_i htype
    have hset : StatBuffer.setType b.info (ascii "application/x-directory") =
        { b.info with fileType := 100 } := if_pos (by decide +kernel)
    rw [List.mem_singleton.1 hh]
    simp only [StatBuffer.decodeHeader, hkey, hset, htype]
  · split at hh
    · rename_i htype
      have hset : StatBuffer.setType b.info (ascii "application/x-symlink") =
          { b.info with fileType := 108 } :=
        (if_neg (by decide +kernel)).trans (if_pos (by decide +kernel))
      rw [List.mem_singleton.1 hh]
      simp only [StatBuffer.decodeHeader, hkey, hset, htype]
    · cases hh

theorem decodeHeader_uid :
    b.decodeHeader ctx (ascii "x-amz-meta-uid", formatWord fi.uid) =
      .ok ⟨{ b.info with uid := fi.uid }, fi.uid.toInt32.toInt⟩ := by
  simp only [StatBuffer.decodeHeader, headerField_written.2.2.1, setInt_formatWord, ofInt_toInt]

theorem decodeHeader_gid :
    b.decodeHeader ctx (ascii "x-amz-meta-gid", formatWord fi.gid) =
      .ok ⟨{ b.info with gid := fi.gid }, fi.gid.toInt32.toInt⟩ := by
  simp only [StatBuffer.decodeHeader, headerField_written.2.2.2.1, setInt_formatWord, ofInt_toInt]

/-- Permissions without further bits clear these bits. -/
theorem decodeHeader_mode {fi : S3FileInfo} (hperm : fi.permissions ≤ 511) :
    b.decodeHeader ctx (ascii "x-amz-meta-mode", formatWord fi.permissions) =
      .ok ⟨{ b.info with
        permissions := fi.permissions
        exeUid := false
        exeGid := false
        sticky := false }, fi.permissions.toInt32.toInt⟩ := by
  simp only [StatBuffer.decodeHeader, headerField_written.2.2.2.2.1, setInt_formatWord, ofInt_toInt,
    setMode_ofInt hperm]

/-- Nothing reads the header for the further bits. -/
theorem decodeHeader_modex (s : Bytes) :
    b.decodeHeader ctx (ascii "x-amz-meta-modex", s) = .ok b := by
  simp only [StatBuffer.decodeHeader, headerField_written.2.2.2.2.2]

end Written

theorem createHeadersFromFileInfo_eq_some {zone : Zone} {fi : S3FileInfo}
    {headers : List (Bytes × Bytes)} (h : createHeadersFromFileInfo zone fi = some headers) :
    ∃ mtm, headers = [(ascii "x-amz-meta-atime", formatTime (Time.ofSeconds (zone.clock fi.atime))),
        (ascii "Last-Modified", mtm)] ++ contentType fi.fileType ++
      [(ascii "x-amz-meta-uid", formatWord fi.uid), (ascii "x-amz-meta-gid", formatWord fi.gid),
        (ascii "x-amz-meta-mode", formatWord fi.permissions),
        (ascii "x-amz-meta-modex", formatWord (modex fi))] := by
  obtain ⟨atm, hatm, h⟩ := Option.bind_eq_some_iff.1 h
  rw [localtime] at hatm
  split at hatm
  · obtain rfl := Option.some.inj hatm
    exact ⟨_, (Option.some.inj h).symm⟩
  · cases hatm

/-- A file that is neither a directory nor a symbolic link has no content type, and the others do
not depend on the name. -/
theorem contentType_cases {fi : S3FileInfo} (filename : Bytes) (atime : ℤ)
    (htype : fi.fileType = 102 ∨ fi.fileType = 100 ∨ fi.fileType = 108) :
    fi.fileType = 102 ∧ contentType fi.fileType = [] ∨
      contentType fi.fileType ≠ [] ∧ (readBack filename fi atime).fileType = fi.fileType := by
  rcases htype with h | h | h
  · exact .inl ⟨h, by rw [h]; rfl⟩
  · exact .inr ⟨by rw [h]; exact List.cons_ne_nil _ _, if_neg fun hf => by rw [h] at hf; cases hf.1⟩
  · exact .inr ⟨by rw [h]; exact List.cons_ne_nil _ _, if_neg fun hf => by rw [h] at hf; cases hf.1⟩

theorem key_of_mem_contentType {fileType : UInt8} {h : Bytes × Bytes}
    (hh : h ∈ contentType fileType) : h.1 = ascii "Content-Type" := by
  rw [contentType] at hh
  split at hh
  · rw [List.mem_singleton.1 hh]
  · split at hh
    · rw [List.mem_singleton.1 hh]
    · cases hh

section Response

variable {ctx : StatContext} {fi : S3FileInfo} {atime : ℤ} {headers response : List (Bytes × Bytes)}
  (filename : Bytes)

/-- One header. -/
theorem decodeHeader_towards (htype : fi.fileType = 102 ∨ fi.fileType = 100 ∨ fi.fileType = 108)
    (hperm : fi.permissions ≤ 511)
    (hatime : getHeaderTime ctx (formatTime (Time.ofSeconds (ctx.zone.clock fi.atime))) = .ok atime)
    (hheaders : createHeadersFromFileInfo ctx.zone fi = some headers)
    (hresponse : Returned ctx headers response) {h : Bytes × Bytes} (hh : h ∈ response)
    (b : StatBuffer) :
    ∃ b', b.decodeHeader ctx h = .ok b' ∧ Towards (readBack filename fi atime) b.info b'.info := by
  obtain ⟨mtm, rfl⟩ := createHeadersFromFileInfo_eq_some hheaders
  rcases hresponse.others h hh with ⟨hmem, hstored⟩ | hneutral
  · simp only [List.append_assoc, List.mem_append, List.mem_cons, List.not_mem_nil,
      or_false] at hmem
    rcases hmem with (rfl | rfl) | hmem | rfl | rfl | rfl | rfl
    · exact ⟨_, decodeHeader_atime ctx b hatime,
        ⟨.inr rfl, .inr rfl, .inr rfl, .inr rfl, .inr rfl, .inr rfl, .inr rfl, .inl rfl⟩⟩
    · rw [stored_written.2.2.2.2.2.2] at hstored
      cases hstored
    · rcases contentType_cases filename atime htype with ⟨-, hnil⟩ | ⟨-, hread⟩
      · rw [hnil] at hmem
        cases hmem
      · exact ⟨_, decodeHeader_contentType ctx b fi hmem,
          ⟨.inl hread.symm, .inr rfl, .inr rfl, .inr rfl, .inr rfl, .inr rfl, .inr rfl, .inr rfl⟩⟩
    · exact ⟨_, decodeHeader_uid ctx b fi,
        ⟨.inr rfl, .inr rfl, .inl rfl, .inr rfl, .inr rfl, .inr rfl, .inr rfl, .inr rfl⟩⟩
    · exact ⟨_, decodeHeader_gid ctx b fi,
        ⟨.inr rfl, .inr rfl, .inr rfl, .inl rfl, .inr rfl, .inr rfl, .inr rfl, .inr rfl⟩⟩
    · exact ⟨_, decodeHeader_mode ctx b hperm,
        ⟨.inr rfl, .inl rfl, .inr rfl, .inr rfl, .inl rfl, .inl rfl, .inl rfl, .inr rfl⟩⟩
    · exact ⟨b, decodeHeader_modex ctx b _,
        ⟨.inr rfl, .inr rfl, .inr rfl, .inr rfl, .inr rfl, .inr rfl, .inr rfl, .inr rfl⟩⟩
  · obtain ⟨b', hb', hsame⟩ := hneutral b
    exact ⟨b', hb', .of_same hsame⟩

/-- **What is read from the headers that were written.** -/
theorem s3GetFileStat_spec (htype : fi.fileType = 102 ∨ fi.fileType = 100 ∨ fi.fileType = 108)
    (hperm : fi.permissions ≤ 511)
    (hatime : getHeaderTime ctx (formatTime (Time.ofSeconds (ctx.zone.clock fi.atime))) = .ok atime)
    (hheaders : createHeadersFromFileInfo ctx.zone fi = some headers)
    (hresponse : Returned ctx headers response) :
    ∃ fi', s3GetFileStat ctx filename response = .ok fi' ∧
      SameMetadata (readBack filename fi atime) fi' := by
  obtain ⟨b', hb', hdefault, hall⟩ := foldlM_spec
    (R := fun b b' : StatBuffer => Towards (readBack filename fi atime) b.info b'.info)
    (fun b => .of_same ⟨rfl, rfl, rfl, rfl, rfl, rfl, rfl, rfl⟩) (fun _ _ _ => Towards.trans)
    (fun h => decodeHeader_towards filename htype hperm hatime hheaders hresponse)
    ⟨defaultInfo ctx filename, ctx.unset⟩
  obtain ⟨mtm, rfl⟩ := createHeadersFromFileInfo_eq_some hheaders
  -- what a header that was written sets is not changed after it
  have hafter : ∀ h ∈ _, stored h.1 = true → ∃ c c' : StatBuffer,
      c.decodeHeader ctx h = .ok c' ∧ Towards (readBack filename fi atime) c'.info b'.info :=
    fun h hh hstored => hall h (hresponse.stored h hh hstored)
  obtain ⟨hsatime, hstype, hsuid, hsgid, hsmode, -⟩ := stored_written
  obtain ⟨c, c', hc, hatime'⟩ := hafter
    (ascii "x-amz-meta-atime", formatTime (Time.ofSeconds (ctx.zone.clock fi.atime))) (by simp)
    hsatime
  obtain rfl := Except.ok.inj ((decodeHeader_atime ctx c hatime).symm.trans hc)
  obtain ⟨c, c', hc, huid⟩ := hafter (ascii "x-amz-meta-uid", formatWord fi.uid) (by simp) hsuid
  obtain rfl := Except.ok.inj ((decodeHeader_uid ctx c fi).symm.trans hc)
  obtain ⟨c, c', hc, hgid⟩ := hafter (ascii "x-amz-meta-gid", formatWord fi.gid) (by simp) hsgid
  obtain rfl := Except.ok.inj ((decodeHeader_gid ctx c fi).symm.trans hc)
  obtain ⟨c, c', hc, hmode⟩ := hafter (ascii "x-amz-meta-mode", formatWord fi.permissions)
    (by simp) hsmode
  obtain rfl := Except.ok.inj ((decodeHeader_mode ctx c hperm).symm.trans hc)
  have hfileType : b'.info.fileType = (readBack filename fi atime).fileType := by
    rcases contentType_cases filename atime htype with ⟨hfile, -⟩ | ⟨hne, hread⟩
    · have hstart : (defaultInfo ctx filename).fileType =
          (readBack filename fi atime).fileType := by
        simp [defaultInfo, readBack, hfile]
      exact hdefault.fileType.elim id fun h => h.trans hstart
    · obtain ⟨h, hh⟩ := List.exists_mem_of_ne_nil _ hne
      obtain ⟨c, c', hc, htype'⟩ := hafter h (by simp [hh])
        (by rw [key_of_mem_contentType hh, hstype])
      obtain rfl := Except.ok.inj ((decodeHeader_contentType ctx c fi hh).symm.trans hc)
      exact htype'.fileType.elim id fun h => h.trans hread.symm
  refine ⟨b'.info, by rw [s3GetFileStat, hb']; rfl, hfileType, or_self_iff.1 hmode.permissions,
    or_self_iff.1 huid.uid, or_self_iff.1 hgid.gid, or_self_iff.1 hmode.exeUid,
    or_self_iff.1 hmode.exeGid, or_self_iff.1 hmode.sticky, or_self_iff.1 hatime'.atime⟩

end Response

/-! ### When file information round-trips -/

theorem SameMetadata.symm {fi fi' : S3FileInfo} (h : SameMetadata fi fi') : SameMetadata fi' fi :=
  ⟨h.fileType.symm, h.permissions.symm, h.uid.symm, h.gid.symm, h.exeUid.symm, h.exeGid.symm,
    h.sticky.symm, h.atime.symm⟩

theorem SameMetadata.trans {fi fi' fi'' : S3FileInfo} (h : SameMetadata fi fi')
    (h' : SameMetadata fi' fi'') : SameMetadata fi fi'' :=
  ⟨h'.fileType.trans h.fileType, h'.permissions.trans h.permissions, h'.uid.trans h.uid,
    h'.gid.trans h.gid, h'.exeUid.trans h.exeUid, h'.exeGid.trans h.exeGid,
    h'.sticky.trans h.sticky, h'.atime.trans h.atime⟩

theorem sameMetadata_readBack_iff {filename : Bytes} {fi : S3FileInfo} {atime : ℤ} :
    SameMetadata fi (readBack filename fi atime) ↔
      fi.exeUid = false ∧ fi.exeGid = false ∧ fi.sticky = false ∧
        (fi.fileType = 102 → filename.getLast? ≠ some 47) ∧ atime = fi.atime := by
  constructor
  · intro h
    refine ⟨h.exeUid.symm, h.exeGid.symm, h.sticky.symm, fun hfile hslash => ?_, h.atime⟩
    have htype : (100 : UInt8) = fi.fileType := (if_pos ⟨hfile, hslash⟩).symm.trans h.fileType
    rw [hfile] at htype
    cases htype
  · rintro ⟨hexeUid, hexeGid, hsticky, hfile, hatime⟩
    exact ⟨if_neg fun hslash => hfile hslash.1 hslash.2, rfl, rfl, rfl, hexeUid.symm, hexeGid.symm,
      hsticky.symm, hatime⟩

/-- The time of an access is read as it was exactly if the offsets cancel. -/
theorem toInstant_eq_iff {zone : Zone} {start t : ℤ} :
    zone.toInstant (zone.clock t) + zone.offset start = t ↔
      zone.offset start = zone.offset (zone.toInstant (zone.clock t)) - zone.offset t := by
  have hspec := zone.toInstant_spec t
  rw [Zone.clock]
  omega

/-- The storage may return nothing but what it was given. -/
theorem returned_filter (ctx : StatContext) (headers : List (Bytes × Bytes)) :
    Returned ctx headers (headers.filter fun h => stored h.1) where
  stored _ hh hstored := List.mem_filter.2 ⟨hh, hstored⟩
  others _ hh := .inl (List.mem_filter.1 hh)

theorem getHeaderTime_of_s3GetFileStat {ctx : StatContext} {filename : Bytes} {fi fi' : S3FileInfo}
    {headers response : List (Bytes × Bytes)}
    (hheaders : createHeadersFromFileInfo ctx.zone fi = some headers)
    (hresponse : Returned ctx headers response)
    (h : s3GetFileStat ctx filename response = .ok fi') :
    ∃ value, getHeaderTime ctx (formatTime (Time.ofSeconds (ctx.zone.clock fi.atime))) =
      .ok value := by
  obtain ⟨mtm, rfl⟩ := createHeadersFromFileInfo_eq_some hheaders
  obtain ⟨b', hb', -⟩ := bind_eq_ok_iff.1 h
  obtain ⟨c, c', hc⟩ := ok_of_mem_foldlM (hresponse.stored
    (ascii "x-amz-meta-atime", formatTime (Time.ofSeconds (ctx.zone.clock fi.atime))) (by simp)
    stored_written.1) hb'
  simp only [StatBuffer.decodeHeader, headerField_written.1] at hc
  obtain ⟨value, hvalue, -⟩ := bind_eq_ok_iff.1 hc
  exact ⟨value, hvalue⟩

theorem exists_createHeadersFromFileInfo {zone : Zone} {fi : S3FileInfo} (hatime : 0 ≤ fi.atime)
    (hyear : (Time.ofSeconds (zone.clock fi.atime)).date.year ≤ 9999) :
    ∃ headers, createHeadersFromFileInfo zone fi = some headers := by
  have hstart : 1900 ≤ (Time.ofSeconds (zone.clock fi.atime)).date.year := year_of_clock hatime
  have hlocal : localtime zone fi.atime = some (Time.ofSeconds (zone.clock fi.atime)) :=
    if_pos ⟨by omega, by omega⟩
  exact ⟨_, by rw [createHeadersFromFileInfo, hlocal]; rfl⟩

theorem exists_readBack {ctx : StatContext} {filename : Bytes} {fi : S3FileInfo}
    (htype : fi.fileType = 102 ∨ fi.fileType = 100 ∨ fi.fileType = 108)
    (hperm : fi.permissions ≤ 511) (h : MetadataRoundTrips ctx filename fi) :
    ∃ value, getHeaderTime ctx (formatTime (Time.ofSeconds (ctx.zone.clock fi.atime))) =
      .ok value ∧ SameMetadata fi (readBack filename fi value) := by
  obtain ⟨headers, hheaders, hall⟩ := h
  have hresponse := returned_filter ctx headers
  obtain ⟨fi', hfi', hsame⟩ := hall _ hresponse
  obtain ⟨value, hvalue⟩ := getHeaderTime_of_s3GetFileStat hheaders hresponse hfi'
  obtain ⟨fi'', hfi'', hread⟩ :=
    s3GetFileStat_spec filename htype hperm hvalue hheaders hresponse
  obtain rfl := Except.ok.inj (hfi''.symm.trans hfi')
  exact ⟨value, hvalue, hsame.trans hread.symm⟩

/-- **When file information round-trips.** -/
theorem metadataRoundTrips_iff (ctx : StatContext) (filename : Bytes) (fi : S3FileInfo)
    (htype : fi.fileType = 102 ∨ fi.fileType = 100 ∨ fi.fileType = 108)
    (hperm : fi.permissions ≤ 511) (hatime : 0 ≤ fi.atime) :
    MetadataRoundTrips ctx filename fi ↔ Kept ctx filename fi := by
  constructor
  · intro h
    obtain ⟨value, hvalue, hsame⟩ := exists_readBack htype hperm h
    obtain ⟨hexeUid, hexeGid, hsticky, hfile, rfl⟩ := sameMetadata_readBack_iff.1 hsame
    have hyear := not_lt.1 fun hlt => getHeaderTime_ne ctx hlt hvalue
    have hkept := Except.ok.inj ((getHeaderTime_formatTime ctx hatime hyear).symm.trans hvalue)
    exact ⟨hexeUid, hexeGid, hsticky, hfile, hyear, toInstant_eq_iff.1 hkept⟩
  · intro h
    have hvalue := getHeaderTime_formatTime ctx hatime h.year
    rw [toInstant_eq_iff.2 h.offset] at hvalue
    obtain ⟨headers, hheaders⟩ := exists_createHeadersFromFileInfo hatime h.year
    refine ⟨headers, hheaders, fun response hresponse => ?_⟩
    obtain ⟨fi', hfi', hread⟩ :=
      s3GetFileStat_spec filename htype hperm hvalue hheaders hresponse
    have hsame := sameMetadata_readBack_iff.2 ⟨h.exeUid, h.exeGid, h.sticky, h.filename, rfl⟩
    exact ⟨fi', hfi', hsame.trans hread⟩

/-- The user 1000 in a time zone, at ten in the morning of a day in June. -/
def june (zone : Zone) : StatContext where
  zone := zone
  start := 1340100246
  errno := 0
  unset := 0
  getuid := 1000
  getgid := 1000

/-- A file of user 1000 that was last read and written then. -/
def readme (exeUid : Bool) : S3FileInfo where
  uid := 1000
  gid := 1000
  permissions := 420
  fileType := 102
  exeUid := exeUid
  exeGid := false
  sticky := false
  size := 12
  atime := 1340100246
  mtime := 1340100246
  ctime := 1340100246

theorem metadataRoundTrips_readme :
    MetadataRoundTrips (june (.fixed 0 (by decide))) (ascii "/readme") (readme false) :=
  (metadataRoundTrips_iff _ _ _ (.inl rfl) (by decide) (by decide)).2
    ⟨rfl, rfl, rfl, fun _ => by decide +kernel, by decide +kernel, rfl⟩

/-- The set-user-id bit is lost, and where the clocks are an hour ahead the time of the access
moves by this hour. -/
theorem not_metadataRoundTrips_readme :
    ¬ MetadataRoundTrips (june (.fixed 0 (by decide))) (ascii "/readme") (readme true) ∧
      ¬ MetadataRoundTrips (june (.fixed 3600 (by decide))) (ascii "/readme") (readme false) := by
  constructor
  · intro h
    obtain ⟨value, -, hsame⟩ := exists_readBack (.inl rfl) (by decide) h
    cases hsame.exeUid
  · intro h
    obtain ⟨value, hvalue, hsame⟩ := exists_readBack (.inl rfl) (by decide) h
    have hlater := getHeaderTime_formatTime (june (.fixed 3600 (by decide)))
      (t := (readme false).atime) (by decide) (by decide +kernel)
    obtain rfl := Except.ok.inj (hlater.symm.trans hvalue)
    exact absurd hsame.atime (by decide)

end AwsS3fs
