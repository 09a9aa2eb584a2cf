/-
**The order of the headers of an object.**

`S3GetFileStat` (`s3if.c`) goes over the headers of a response once.  A number that cannot be read
leaves in place what the variable for numbers held before, a header that cannot be read ends the
loop with its status, and the header `x-amz-meta-mtime` is read only behind a `Last-Modified`
header.  A date that ends where a separator is skipped is read from whatever lies behind it.

Main definitions:

* `AwsS3fs.readFileStat` — `S3GetFileStat`, with every character of a date that it reads;
* `AwsS3fs.AttributesByHeader` — the attributes depend on their own headers only;
* `AwsS3fs.ownStatus`, `AwsS3fs.CanFail` — the statuses with which headers end the loop;
* `AwsS3fs.Readable` — every header can be read, and the two headers with the time of the
  modification agree;
* `AwsS3fs.DatesInside` — every date that can be read is read inside its header.

Main results:

* `AwsS3fs.decodeHeader_frame`, `AwsS3fs.decodeHeader_own` — one header;
* `AwsS3fs.sameAttribute_of_loops` — two loops over the same header for an attribute;
* `AwsS3fs.readFileStat_eq_ok_iff`, `AwsS3fs.readFileStat_follows` — reading inside;
* `AwsS3fs.attributesByHeader_iff` — **when the attributes depend on their own headers only**.
-/

import AwsS3fs.DateParts
import AwsS3fs.FileMetadata
import Mathlib.Data.List.Nodup
import Mathlib.Data.List.Perm.Basic
import Mathlib.Data.Set.List

set_option relaxedAutoImplicit false
set_option autoImplicit false

namespace AwsS3fs

open CLib Runs

/-! ### Attributes and their headers -/

/-- The key of a header. -/
def headerKey : HeaderField → Bytes
  | .uid => ascii "x-amz-meta-uid"
  | .gid => ascii "x-amz-meta-gid"
  | .mode => ascii "x-amz-meta-mode"
  | .contentType => ascii "Content-Type"
  | .contentLength => ascii "Content-Length"
  | .atime => ascii "x-amz-meta-atime"
  | .ctime => ascii "x-amz-meta-ctime"
  | .mtime => ascii "x-amz-meta-mtime"
  | .lastModified => ascii "Last-Modified"

/-- Two files have the same attribute. -/
def SameAttribute (fi fi' : S3FileInfo) : HeaderField → Prop
  | .uid => fi'.uid = fi.uid
  | .gid => fi'.gid = fi.gid
  | .mode => fi'.permissions = fi.permissions ∧ fi'.exeUid = fi.exeUid ∧ fi'.exeGid = fi.exeGid ∧
      fi'.sticky = fi.sticky
  | .contentType => fi'.fileType = fi.fileType
  | .contentLength => fi'.size = fi.size
  | .atime => fi'.atime = fi.atime
  | .ctime => fi'.ctime = fi.ctime
  | .mtime => fi'.mtime = fi.mtime
  | .lastModified => fi'.mtime = fi.mtime

namespace HeaderField

/-- The headers with a number. -/
def isInt : HeaderField → Bool
  | uid | gid | mode | contentLength => true
  | _ => false

/-- The headers with the time of the modification. -/
def isMtime : HeaderField → Bool
  | mtime | lastModified => true
  | _ => false

end HeaderField

/-! ### Reading the dates -/

section Reads

variable (ctx : StatContext)

/-- `GetHeaderTime`, with every character that it reads. -/
def readHeaderTime (string : CString) : Reading ℤ := do
  let tm ← readTime string
  return ctx.zone.toInstant tm.seconds + ctx.zone.offset ctx.start

/-- A header with a time. -/
def StatBuffer.readTime (b : StatBuffer) (string : CString) (set : ℤ → S3FileInfo) :
    Reading StatBuffer := do
  let value ← readHeaderTime ctx string
  return { b with info := set value }

/-- A header whose characters are all in the string. -/
def bytesOf (header : Bytes × CString) : Bytes × Bytes := (header.1, header.2.bytes)

/-- One header in the loop of `S3GetFileStat`, with every character of a date that it reads. -/
def readHeader (b : StatBuffer) (header : Bytes × CString) : Reading StatBuffer :=
  match headerField header.1 with
  | some .atime => b.readTime ctx header.2 fun value => { b.info with atime := value }
  | some .ctime => b.readTime ctx header.2 fun value => { b.info with ctime := value }
  | some .mtime =>
      if b.info.mtime ≠ 0 then b.readTime ctx header.2 fun value => { b.info with mtime := value }
      else .ok b
  | some .lastModified => b.readTime ctx header.2 fun value => { b.info with mtime := value }
  | _ => (b.decodeHeader ctx (bytesOf header)).mapError .returned

/-- `S3GetFileStat`, with every character of a date that it reads. -/
def readFileStat (filename : Bytes) (response : List (Bytes × CString)) : Reading S3FileInfo := do
  let b ← response.foldlM (readHeader ctx) ⟨defaultInfo ctx filename, ctx.unset⟩
  return b.info

end Reads

/-- **The attributes depend on their own headers only.** -/
structure AttributesByHeader (ctx : StatContext) (filename : Bytes)
    (headers : List (Bytes × CString)) : Prop where
  /-- Nothing is read behind a header, where any characters may be. -/
  inside : readFileStat ctx filename headers ≠ .error .outside
  /-- Every order of the headers gives the same status and the same information. -/
  permuted : ∀ headers', headers'.Perm headers →
    readFileStat ctx filename headers' = readFileStat ctx filename headers
  /-- Every other response with the same header for an attribute gives the same attribute, whatever
  the variable for numbers happens to hold. -/
  own : ∀ field ∈ [HeaderField.uid, .gid, .mode, .contentLength, .atime, .ctime],
    ∀ unset headers', (headers'.map Prod.fst).Nodup →
      (∀ value, (headerKey field, value) ∈ headers' ↔ (headerKey field, value) ∈ headers) →
      ∀ info info', readFileStat ctx filename headers = .ok info →
        readFileStat { ctx with unset := unset } filename headers' = .ok info' →
          SameAttribute info info' field
  lastModified : ∀ info value, readFileStat ctx filename headers = .ok info →
    (headerKey .lastModified, value) ∈ headers → readHeaderTime ctx value = .ok info.mtime
  mtime : ∀ info value, readFileStat ctx filename headers = .ok info →
    (∀ v, (headerKey .lastModified, v) ∉ headers) → (headerKey .mtime, value) ∈ headers →
      readHeaderTime ctx value = .ok info.mtime

/-! ### Headers that can be read -/

/-- A text that begins with a number. -/
def IsNumber (string : Bytes) : Prop :=
  ∃ c t, string.dropWhile isspace = c :: t ∧
    (isdigit c || (c == 45 || c == 43) && t.head?.any isdigit) = true

/-- The status of a result. -/
def errorOf {α : Type} : Except ℤ α → Option ℤ
  | .ok _ => none
  | .error status => some status

/-- The status with which a header ends the loop wherever it stands. -/
def ownStatus (ctx : StatContext) (header : Bytes × Bytes) : Option ℤ :=
  match headerField header.1 with
  | none | some .contentType | some .mtime => none
  | some field =>
      if field.isInt then errorOf (getHeaderInt ctx header.2 0)
      else errorOf (getHeaderTime ctx header.2)

/-- A status with which the loop ends for some order of the headers. -/
def CanFail (ctx : StatContext) (headers : List (Bytes × Bytes)) (status : ℤ) : Prop :=
  (∃ header ∈ headers, ownStatus ctx header = some status) ∨
    ∃ m l t, (headerKey .mtime, m) ∈ headers ∧ (headerKey .lastModified, l) ∈ headers ∧
      getHeaderTime ctx l = .ok t ∧ t ≠ 0 ∧ getHeaderTime ctx m = .error status

/-- **Every header can be read**, and the two headers with the time of the modification agree: the
second one says the same as `Last-Modified`, which is taken for `0` if it is missing and makes the
second one go unread if it is `0`. -/
structure Readable (ctx : StatContext) (headers : List (Bytes × Bytes)) : Prop where
  read : ∀ header ∈ headers, ownStatus ctx header = none
  number : ∀ field : HeaderField, field.isInt = true → ∀ value, (headerKey field, value) ∈ headers →
    IsNumber value
  mtime : ∀ m l t, (headerKey .mtime, m) ∈ headers → (headerKey .lastModified, l) ∈ headers →
    getHeaderTime ctx l = .ok t → t ≠ 0 → getHeaderTime ctx m = .ok t
  onlyMtime : ∀ m, (headerKey .mtime, m) ∈ headers →
    (∀ l, (headerKey .lastModified, l) ∉ headers) → getHeaderTime ctx m = .ok 0

/-- The time of day behind a date does not end where a separator is skipped. -/
def CompleteDate (value : Bytes) : Prop :=
  ∀ d : DateParts, d.Valid → d.text = value → ClockComplete d.clock

/-- **Every date that can be read is read inside its header**, for any order of the headers. -/
structure DatesInside (ctx : StatContext) (headers : List (Bytes × Bytes)) : Prop where
  date : ∀ field ∈ [HeaderField.atime, .ctime, .lastModified], ∀ value,
    (headerKey field, value) ∈ headers → CompleteDate value
  mtime : ∀ m l t, (headerKey .mtime, m) ∈ headers → (headerKey .lastModified, l) ∈ headers →
    getHeaderTime ctx l = .ok t → t ≠ 0 → CompleteDate m

/-! ### One header -/

theorem headerField_eq_some_iff {key : Bytes} {field : HeaderField} :
    headerField key = some field ↔ key = headerKey field := by
  constructor
  · intro h
    obtain ⟨⟨key', field'⟩, hfind, rfl⟩ := Option.map_eq_some_iff.1 h
    have hmem := List.mem_of_find?_eq_some hfind
    obtain rfl : key' = key := by simpa using List.find?_some hfind
    simp only [headerKeys, List.mem_cons, Prod.mk.injEq, List.not_mem_nil, or_false] at hmem
    rcases hmem with ⟨hkey, hfield⟩ | ⟨hkey, hfield⟩ | ⟨hkey, hfield⟩ | ⟨hkey, hfield⟩ |
      ⟨hkey, hfield⟩ | ⟨hkey, hfield⟩ | ⟨hkey, hfield⟩ | ⟨hkey, hfield⟩ | ⟨hkey, hfield⟩ <;>
      rw [hkey, hfield] <;> rfl
  · rintro rfl
    cases field <;> decide +kernel

@[simp]
theorem headerField_headerKey (field : HeaderField) : headerField (headerKey field) = some field :=
  headerField_eq_some_iff.2 rfl

/-- What a number or a time changes. -/
def setField (info : S3FileInfo) (value : ℤ) : HeaderField → S3FileInfo
  | .uid => { info with uid := .ofInt value }
  | .gid => { info with gid := .ofInt value }
  | .mode => StatBuffer.setMode info (.ofInt value)
  | .contentType => info
  | .contentLength => { info with size := value }
  | .atime => { info with atime := value }
  | .ctime => { info with ctime := value }
  | .mtime => { info with mtime := value }
  | .lastModified => { info with mtime := value }

section OneHeader

variable {ctx : StatContext} {b b' : StatBuffer} {header : Bytes × Bytes} {field : HeaderField}

theorem decodeHeader_none (h : headerField header.1 = none) :
    b.decodeHeader ctx header = .ok b := by
  simp only [StatBuffer.decodeHeader, h]

theorem decodeHeader_int (h : headerField header.1 = some field) (hint : field.isInt = true) :
    b.decodeHeader ctx header = b.setInt ctx header.2 fun value => setField b.info value field := by
  cases field <;> simp only [HeaderField.isInt, Bool.false_eq_true] at hint <;>
    simp only [StatBuffer.decodeHeader, h] <;> rfl

theorem decodeHeader_time (h : headerField header.1 = some field) (hint : field.isInt = false)
    (htype : field ≠ .contentType) (hmtime : field = .mtime → b.info.mtime ≠ 0) :
    b.decodeHeader ctx header =
      b.setTime ctx header.2 fun value => setField b.info value field := by
  cases field <;> simp only [HeaderField.isInt, Bool.true_eq_false] at hint <;>
    simp only [StatBuffer.decodeHeader, h]
  · exact absurd rfl htype
  · rfl
  · rfl
  · exact if_pos (hmtime rfl)
  · rfl

theorem decodeHeader_type (h : headerField header.1 = some .contentType) :
    b.decodeHeader ctx header = .ok { b with info := StatBuffer.setType b.info header.2 } := by
  simp only [StatBuffer.decodeHeader, h]

theorem decodeHeader_mtime_zero (h : headerField header.1 = some .mtime)
    (hzero : b.info.mtime = 0) : b.decodeHeader ctx header = .ok b := by
  simp only [StatBuffer.decodeHeader, h]
  exact if_neg (not_not.2 hzero)

/-- What a header does that can be read: nothing, or it sets its attribute. -/
theorem decodeHeader_eq_ok (h : b.decodeHeader ctx header = .ok b') :
    b' = b ∨
      headerField header.1 = some .contentType ∧
        b'.info = StatBuffer.setType b.info header.2 ∨
      ∃ field value, headerField header.1 = some field ∧ field ≠ .contentType ∧
        b'.info = setField b.info value field ∧
        if field.isInt then getHeaderInt ctx header.2 b.tempValue = .ok value
        else getHeaderTime ctx header.2 = .ok value := by
  cases hfield : headerField header.1 with
  | none =>
      rw [decodeHeader_none hfield] at h
      exact .inl (Except.ok.inj h).symm
  | some field =>
      by_cases htype : field = .contentType
      · rw [htype] at hfield
        rw [decodeHeader_type hfield] at h
        obtain rfl := Except.ok.inj h
        exact .inr (.inl ⟨by rw [htype], rfl⟩)
      · by_cases hint : field.isInt = true
        · rw [decodeHeader_int hfield hint] at h
          obtain ⟨value, hvalue, hb'⟩ := bind_eq_ok_iff.1 h
          obtain rfl := Except.ok.inj hb'
          exact .inr (.inr ⟨field, value, rfl, htype, rfl, by rw [if_pos hint]; exact hvalue⟩)
        · by_cases hzero : field = .mtime ∧ b.info.mtime = 0
          · rw [hzero.1] at hfield
            rw [decodeHeader_mtime_zero hfield hzero.2] at h
            exact .inl (Except.ok.inj h).symm
          · rw [decodeHeader_time hfield (Bool.eq_false_iff.2 hint) htype
              fun hmtime hmtime' => hzero ⟨hmtime, hmtime'⟩] at h
            obtain ⟨value, hvalue, hb'⟩ := bind_eq_ok_iff.1 h
            obtain rfl := Except.ok.inj hb'
            exact .inr (.inr ⟨field, value, rfl, htype, rfl, by rw [if_neg hint]; exact hvalue⟩)

theorem SameAttribute.refl (info : S3FileInfo) (field : HeaderField) :
    SameAttribute info info field := by
  cases field <;> simp [SameAttribute]

theorem SameAttribute.symm {info info' : S3FileInfo} (h : SameAttribute info info' field) :
    SameAttribute info' info field := by
  cases field <;> simp_all [SameAttribute]

theorem SameAttribute.trans {info info' info'' : S3FileInfo} (h : SameAttribute info info' field)
    (h' : SameAttribute info' info'' field) : SameAttribute info info'' field := by
  cases field <;> simp_all [SameAttribute]

theorem setField_frame {g : HeaderField} (hne : field ≠ g)
    (hmtime : field.isMtime = false ∨ g.isMtime = false) (info : S3FileInfo) (value : ℤ) :
    SameAttribute info (setField info value field) g := by
  cases field <;> cases g <;>
    simp_all [SameAttribute, setField, StatBuffer.setMode, HeaderField.isMtime]

theorem setField_own (htype : field ≠ .contentType) (info info' : S3FileInfo) (value : ℤ) :
    SameAttribute (setField info value field) (setField info' value field) field := by
  cases field <;> simp_all [SameAttribute, setField, StatBuffer.setMode]

theorem setType_frame {g : HeaderField} (hne : g ≠ .contentType) (info : S3FileInfo)
    (value : Bytes) : SameAttribute info (StatBuffer.setType info value) g := by
  rw [StatBuffer.setType]
  split
  · cases g <;> simp_all [SameAttribute]
  · split
    · cases g <;> simp_all [SameAttribute]
    · exact .refl _ _

theorem setType_own {info info' : S3FileInfo} (h : SameAttribute info info' .contentType)
    (value : Bytes) :
    SameAttribute (StatBuffer.setType info value) (StatBuffer.setType info' value)
      .contentType := by
  rw [StatBuffer.setType, StatBuffer.setType]
  split
  · rfl
  · split
    · rfl
    · exact h

/-- **A header leaves the attributes of other headers as they are.** -/
theorem decodeHeader_frame {g : HeaderField} (h : b.decodeHeader ctx header = .ok b')
    (hkey : header.1 ≠ headerKey g)
    (hmtime : g.isMtime = true → ∀ f : HeaderField, f.isMtime = true → header.1 ≠ headerKey f) :
    SameAttribute b.info b'.info g := by
  rcases decodeHeader_eq_ok h with rfl | ⟨hfield, hinfo⟩ | ⟨field, value, hfield, -, hinfo, -⟩
  · exact .refl _ _
  · rw [hinfo]
    refine setType_frame ?_ _ _
    rintro rfl
    exact hkey (headerField_eq_some_iff.1 hfield)
  · have hheader := headerField_eq_some_iff.1 hfield
    rw [hinfo]
    refine setField_frame ?_ ?_ _ _
    · rintro rfl
      exact hkey hheader
    · by_contra hnot
      rw [not_or, Bool.not_eq_false, Bool.not_eq_false] at hnot
      exact hmtime hnot.2 field hnot.1 hheader

theorem getHeaderInt_of_isNumber {string : Bytes} (h : IsNumber string) (value : ℤ) :
    getHeaderInt ctx string value = .ok (strtoll string) := by
  obtain ⟨c, t, hdrop, hnumber⟩ := h
  simp only [getHeaderInt, hdrop]
  exact if_pos hnumber

/-- **A header sets its attribute**, whatever was there before. -/
theorem decodeHeader_own {c c' : StatBuffer} (hb : b.decodeHeader ctx header = .ok b')
    (hc : c.decodeHeader ctx header = .ok c') (hkey : header.1 = headerKey field)
    (hmtime : field ≠ .mtime) (hnumber : field.isInt = true → IsNumber header.2)
    (hsame : SameAttribute b.info c.info field) : SameAttribute b'.info c'.info field := by
  have hfield := headerField_eq_some_iff.2 hkey
  by_cases htype : field = .contentType
  · subst htype
    rw [decodeHeader_type hfield] at hb hc
    obtain rfl := Except.ok.inj hb
    obtain rfl := Except.ok.inj hc
    exact setType_own hsame _
  · by_cases hint : field.isInt = true
    · rw [decodeHeader_int hfield hint] at hb hc
      obtain ⟨value, hvalue, hb⟩ := bind_eq_ok_iff.1 hb
      obtain ⟨value', hvalue', hc⟩ := bind_eq_ok_iff.1 hc
      obtain rfl := Except.ok.inj hb
      obtain rfl := Except.ok.inj hc
      rw [getHeaderInt_of_isNumber (hnumber hint)] at hvalue hvalue'
      obtain rfl := Except.ok.inj (hvalue.symm.trans hvalue')
      exact setField_own htype _ _ _
    · have hint' := Bool.eq_false_iff.2 hint
      rw [decodeHeader_time hfield hint' htype fun h => absurd h hmtime] at hb hc
      obtain ⟨value, hvalue, hb⟩ := bind_eq_ok_iff.1 hb
      obtain ⟨value', hvalue', hc⟩ := bind_eq_ok_iff.1 hc
      obtain rfl := Except.ok.inj hb
      obtain rfl := Except.ok.inj hc
      obtain rfl := Except.ok.inj (hvalue.symm.trans hvalue')
      exact setField_own htype _ _ _

theorem errorOf_eq_some {α : Type} {x : Except ℤ α} {status : ℤ} :
    errorOf x = some status ↔ x = .error status := by
  cases x <;> simp [errorOf]

theorem errorOf_getHeaderInt (string : Bytes) (value value' : ℤ) :
    errorOf (getHeaderInt ctx string value) = errorOf (getHeaderInt ctx string value') := by
  rw [getHeaderInt, getHeaderInt]
  split
  · split <;> rfl
  · split <;> rfl

theorem bind_eq_error_iff {α β : Type} {x : Except ℤ α} {g : α → β} {status : ℤ} :
    (x >>= fun value => .ok (g value)) = .error status ↔ x = .error status := by
  cases x <;> simp [bind, Except.bind]

/-- **When a header cannot be read.** -/
theorem decodeHeader_eq_error_iff {status : ℤ} :
    b.decodeHeader ctx header = .error status ↔
      ownStatus ctx header = some status ∨
        header.1 = headerKey .mtime ∧ b.info.mtime ≠ 0 ∧
          getHeaderTime ctx header.2 = .error status := by
  cases hfield : headerField header.1 with
  | none =>
      have hkey : header.1 ≠ headerKey .mtime := by
        intro hkey
        rw [hkey, headerField_headerKey] at hfield
        cases hfield
      simp [decodeHeader_none hfield, ownStatus, hfield, hkey]
  | some field =>
      obtain hkey := headerField_eq_some_iff.1 hfield
      have hne : field ≠ .mtime → header.1 ≠ headerKey .mtime := by
        intro hne hmtime
        rw [hmtime, headerField_headerKey] at hfield
        exact hne (Option.some.inj hfield).symm
      by_cases htype : field = .contentType
      · subst htype
        simp [decodeHeader_type hfield, ownStatus, hfield, hne (by decide)]
      · by_cases hmtime : field = .mtime
        · subst hmtime
          by_cases hzero : b.info.mtime = 0
          · simp [decodeHeader_mtime_zero hfield hzero, ownStatus, hfield, hzero]
          · rw [decodeHeader_time hfield rfl (by decide) fun _ => hzero]
            simp [StatBuffer.setTime, bind_eq_error_iff, pure, Except.pure, ownStatus, hkey, hzero]
        · have hown : ownStatus ctx header =
              if field.isInt then errorOf (getHeaderInt ctx header.2 0)
              else errorOf (getHeaderTime ctx header.2) := by
            cases field <;> simp_all [ownStatus]
          rw [hown, or_iff_left fun h => hne hmtime h.1]
          by_cases hint : field.isInt = true
          · rw [decodeHeader_int hfield hint, if_pos hint, errorOf_getHeaderInt _ 0 b.tempValue,
              errorOf_eq_some]
            exact bind_eq_error_iff
          · rw [decodeHeader_time hfield (Bool.eq_false_iff.2 hint) htype fun h => absurd h hmtime,
              if_neg hint, errorOf_eq_some]
            exact bind_eq_error_iff

/-! ### The date of a header -/

/-- A date that is decoded is complete. -/
theorem completeDate_of_ok {value : Bytes} {tm : Calendar.Time} (h : decodeTime value = .ok tm) :
    CompleteDate value := by
  obtain ⟨d, hvalid, htext, -, -, ⟨hsecond, -⟩, -⟩ := exists_time h
  intro d' hvalid' htext'
  have hclock : d'.clock = d.clock := by
    have hdate := hvalid.decodeDate_text
    rw [htext, ← htext', hvalid'.decodeDate_text] at hdate
    exact congrArg Prod.snd (Except.ok.inj hdate)
  rw [List.length_take, List.length_drop] at hsecond
  rw [hclock]
  exact fun _ => ⟨by omega, fun _ => by omega⟩

theorem completeDate_of_getHeaderTime {value : Bytes} {t : ℤ}
    (h : getHeaderTime ctx value = .ok t) : CompleteDate value := by
  obtain ⟨tm, htm, -⟩ := bind_eq_ok_iff.1 h
  exact completeDate_of_ok htm

/-- A complete date is read inside. -/
theorem readHeaderTime_follows {string : CString} (h : CompleteDate string.bytes) :
    Follows (· = ·) (readHeaderTime ctx string) (getHeaderTime ctx string.bytes) := by
  refine (readTime_follows fun date clock hdecode => ?_).bind ?_
  · obtain ⟨d, hvalid, htext, -, rfl⟩ := exists_dateParts hdecode
    exact h d hvalid htext
  · rintro tm _ rfl
    exact follows_ok rfl

/-- A date that is not complete leads out of the header. -/
theorem readHeaderTime_outside {string : CString} (h : ¬ CompleteDate string.bytes) :
    readHeaderTime ctx string = .error .outside := by
  simp only [CompleteDate, not_forall] at h
  obtain ⟨d, hvalid, htext, hnot⟩ := h
  rw [readHeaderTime, readTime_outside (htext ▸ hvalid.decodeDate_text) hnot]
  rfl

theorem readHeaderTime_eq_ok_iff {string : CString} {t : ℤ} :
    readHeaderTime ctx string = .ok t ↔ getHeaderTime ctx string.bytes = .ok t := by
  by_cases hcomplete : CompleteDate string.bytes
  · exact (readHeaderTime_follows hcomplete).eq_ok_iff
  · rw [readHeaderTime_outside hcomplete]
    exact iff_of_false (fun h => by cases h) fun h => hcomplete (completeDate_of_getHeaderTime h)

/-- The date of a header is read. -/
def ReadsDate (b : StatBuffer) (key : Bytes) : Prop :=
  key = headerKey .atime ∨ key = headerKey .ctime ∨ key = headerKey .lastModified ∨
    key = headerKey .mtime ∧ b.info.mtime ≠ 0

variable (ctx) in
theorem readHeader_of_reads {header : Bytes × CString} (h : ReadsDate b header.1) :
    ∃ field, headerField (bytesOf header).1 = some field ∧ field.isInt = false ∧
      field ≠ .contentType ∧ (field = .mtime → b.info.mtime ≠ 0) ∧
        readHeader ctx b header =
          b.readTime ctx header.2 fun value => setField b.info value field := by
  rcases h with hkey | hkey | hkey | ⟨hkey, hne⟩
  · have hfield := headerField_eq_some_iff.2 hkey
    exact ⟨.atime, hfield, rfl, by decide, by simp, by simp only [readHeader, hfield]; rfl⟩
  · have hfield := headerField_eq_some_iff.2 hkey
    exact ⟨.ctime, hfield, rfl, by decide, by simp, by simp only [readHeader, hfield]; rfl⟩
  · have hfield := headerField_eq_some_iff.2 hkey
    exact ⟨.lastModified, hfield, rfl, by decide, by simp, by simp only [readHeader, hfield]; rfl⟩
  · have hfield := headerField_eq_some_iff.2 hkey
    refine ⟨.mtime, hfield, rfl, by decide, fun _ => hne, ?_⟩
    simp only [readHeader, hfield]
    exact if_pos hne

theorem follows_mapError {α : Type} (x : Except ℤ α) :
    Follows (· = ·) (x.mapError Stop.returned) x := by
  cases x with
  | error status => rfl
  | ok a => exact follows_ok rfl

theorem readHeader_of_not_reads {header : Bytes × CString} (h : ¬ ReadsDate b header.1) :
    readHeader ctx b header = (b.decodeHeader ctx (bytesOf header)).mapError .returned := by
  simp only [ReadsDate, not_or] at h
  obtain ⟨hatime, hctime, hlast, hmtime⟩ := h
  cases hfield : headerField header.1 with
  | none => simp only [readHeader, hfield]
  | some field =>
      have hkey := headerField_eq_some_iff.1 hfield
      cases field with
      | atime => exact absurd hkey hatime
      | ctime => exact absurd hkey hctime
      | lastModified => exact absurd hkey hlast
      | mtime =>
          have hzero : b.info.mtime = 0 := by
            by_contra hne
            exact hmtime ⟨hkey, hne⟩
          have hfield' : headerField (bytesOf header).1 = some .mtime := hfield
          rw [decodeHeader_mtime_zero hfield' hzero]
          simp only [readHeader, hfield]
          exact if_neg (not_not.2 hzero)
      | uid => simp only [readHeader, hfield]
      | gid => simp only [readHeader, hfield]
      | mode => simp only [readHeader, hfield]
      | contentType => simp only [readHeader, hfield]
      | contentLength => simp only [readHeader, hfield]

/-- **A header is read inside**, if its date is complete or not read. -/
theorem readHeader_follows {header : Bytes × CString}
    (h : ReadsDate b header.1 → CompleteDate header.2.bytes) :
    Follows (· = ·) (readHeader ctx b header) (b.decodeHeader ctx (bytesOf header)) := by
  by_cases hreads : ReadsDate b header.1
  · obtain ⟨field, hfield, hint, htype, hmtime, hread⟩ := readHeader_of_reads ctx hreads
    rw [hread, decodeHeader_time hfield hint htype hmtime]
    refine (readHeaderTime_follows (h hreads)).bind ?_
    rintro value _ rfl
    exact follows_ok rfl
  · rw [readHeader_of_not_reads hreads]
    exact follows_mapError _

theorem readHeader_outside {header : Bytes × CString} (hreads : ReadsDate b header.1)
    (h : ¬ CompleteDate header.2.bytes) : readHeader ctx b header = .error .outside := by
  obtain ⟨field, -, -, -, -, hread⟩ := readHeader_of_reads ctx hreads
  rw [hread, StatBuffer.readTime, readHeaderTime_outside h]
  rfl

/-- A header that is decoded is read inside. -/
theorem readHeader_eq_ok_iff {header : Bytes × CString} :
    readHeader ctx b header = .ok b' ↔ b.decodeHeader ctx (bytesOf header) = .ok b' := by
  by_cases hinside : ReadsDate b header.1 → CompleteDate header.2.bytes
  · exact (readHeader_follows hinside).eq_ok_iff
  · obtain ⟨hreads, hnot⟩ := Classical.not_imp.1 hinside
    rw [readHeader_outside hreads hnot]
    refine iff_of_false (fun h => by cases h) fun h => hnot ?_
    obtain ⟨field, hfield, hint, htype, hmtime, -⟩ := readHeader_of_reads ctx hreads
    rw [decodeHeader_time hfield hint htype hmtime] at h
    obtain ⟨value, hvalue, -⟩ := bind_eq_ok_iff.1 h
    exact completeDate_of_getHeaderTime hvalue

end OneHeader

/-! ### The loop -/

/-- The loop of `S3GetFileStat`. -/
def decodeLoop (ctx : StatContext) (b : StatBuffer) (headers : List (Bytes × Bytes)) :
    Except ℤ StatBuffer :=
  headers.foldlM (StatBuffer.decodeHeader ctx) b

section Loop

variable {ctx : StatContext} {filename : Bytes} {b b' c c' : StatBuffer}
  {headers headers' : List (Bytes × Bytes)} {strings : List (Bytes × CString)} {field : HeaderField}

theorem s3GetFileStat_eq_ok_iff {info : S3FileInfo} :
    s3GetFileStat ctx filename headers = .ok info ↔
      ∃ b, decodeLoop ctx ⟨defaultInfo ctx filename, ctx.unset⟩ headers = .ok b ∧
        b.info = info := by
  rw [s3GetFileStat, bind_eq_ok_iff]
  constructor
  · rintro ⟨b, hb, hinfo⟩
    exact ⟨b, hb, Except.ok.inj hinfo⟩
  · rintro ⟨b, hb, rfl⟩
    exact ⟨b, hb, rfl⟩

theorem s3GetFileStat_eq_error_iff {status : ℤ} :
    s3GetFileStat ctx filename headers = .error status ↔
      decodeLoop ctx ⟨defaultInfo ctx filename, ctx.unset⟩ headers = .error status :=
  bind_eq_error_iff

/-- What the headers of a list do not set stays. -/
theorem decodeLoop_frame (h : decodeLoop ctx b headers = .ok b')
    (hkey : ∀ value, (headerKey field, value) ∉ headers)
    (hmtime : field.isMtime = true → ∀ f : HeaderField, f.isMtime = true → ∀ value,
      (headerKey f, value) ∉ headers) : SameAttribute b.info b'.info field := by
  refine foldlM_inv (P := fun c => SameAttribute b.info c.info field) ?_ (.refl _ _) h
  intro header hheader c c' hsame hc
  refine hsame.trans (decodeHeader_frame hc ?_ fun hfield f hf => ?_)
  · intro hname
    exact hkey header.2 (hname ▸ hheader)
  · intro hname
    exact hmtime hfield f hf header.2 (hname ▸ hheader)

/-- A list with a header is split at it, and the header stands on neither side. -/
theorem exists_split_header (hnodup : (headers.map Prod.fst).Nodup) {key value : Bytes}
    (hmem : (key, value) ∈ headers) :
    ∃ before after, headers = before ++ (key, value) :: after ∧
      (∀ v, (key, v) ∉ before) ∧ ∀ v, (key, v) ∉ after := by
  obtain ⟨before, after, rfl⟩ := List.append_of_mem hmem
  rw [List.map_append, List.map_cons, List.nodup_append, List.nodup_cons] at hnodup
  obtain ⟨-, ⟨hafter, -⟩, hdisjoint⟩ := hnodup
  refine ⟨before, after, rfl, fun v hv => ?_, fun v hv => hafter (List.mem_map.2 ⟨_, hv, rfl⟩)⟩
  exact hdisjoint key (List.mem_map.2 ⟨_, hv, rfl⟩) key List.mem_cons_self rfl

/-- A loop over a header, and what it does to the attribute of the header. -/
theorem exists_step_of_mem (h : decodeLoop ctx b headers = .ok b')
    (hnodup : (headers.map Prod.fst).Nodup) (hmtime : field.isMtime = false) {value : Bytes}
    (hmem : (headerKey field, value) ∈ headers) :
    ∃ c c' : StatBuffer, SameAttribute b.info c.info field ∧
      c.decodeHeader ctx (headerKey field, value) = .ok c' ∧
      SameAttribute c'.info b'.info field := by
  obtain ⟨before, after, rfl, hbefore, hafter⟩ := exists_split_header hnodup hmem
  obtain ⟨c, hc, h⟩ := foldlM_append_eq_ok.1 h
  rw [List.foldlM_cons, bind_eq_ok_iff] at h
  obtain ⟨c', hc', h⟩ := h
  have hnot : field.isMtime = true → False := by simp [hmtime]
  exact ⟨c, c', decodeLoop_frame hc hbefore fun h => (hnot h).elim, hc',
    decodeLoop_frame h hafter fun h => (hnot h).elim⟩

/-- **Two loops over the same header for an attribute** set the same attribute. -/
theorem sameAttribute_of_loops (h : decodeLoop ctx b headers = .ok b')
    (h' : decodeLoop ctx c headers' = .ok c') (hnodup : (headers.map Prod.fst).Nodup)
    (hnodup' : (headers'.map Prod.fst).Nodup) (hmtime : field.isMtime = false)
    (hnumber : field.isInt = true → ∀ value, (headerKey field, value) ∈ headers → IsNumber value)
    (hown : ∀ value, (headerKey field, value) ∈ headers' ↔ (headerKey field, value) ∈ headers)
    (hsame : SameAttribute b.info c.info field) : SameAttribute b'.info c'.info field := by
  have hnot : field.isMtime = true → False := by simp [hmtime]
  by_cases hmem : ∃ value, (headerKey field, value) ∈ headers
  · obtain ⟨value, hmem⟩ := hmem
    obtain ⟨b₁, b₂, hb₁, hb, hb₂⟩ := exists_step_of_mem h hnodup hmtime hmem
    obtain ⟨c₁, c₂, hc₁, hc, hc₂⟩ :=
      exists_step_of_mem h' hnodup' hmtime ((hown value).2 hmem)
    have hne : field ≠ .mtime := by
      rintro rfl
      cases hmtime
    have hstep := decodeHeader_own hb hc rfl hne (fun hint => hnumber hint value hmem)
      (hb₁.symm.trans (hsame.trans hc₁))
    exact hb₂.symm.trans (hstep.trans hc₂)
  · have hnone : ∀ value, (headerKey field, value) ∉ headers := fun value hv => hmem ⟨value, hv⟩
    have hb := decodeLoop_frame h hnone fun h => (hnot h).elim
    have hc := decodeLoop_frame h' (fun value hv => hnone value ((hown value).1 hv))
      fun h => (hnot h).elim
    exact hb.symm.trans (hsame.trans hc)

/-- An invariant of the time of the modification. -/
theorem mtime_of_loop {t : ℤ} (h : decodeLoop ctx b headers = .ok b') (hb : b.info.mtime = t)
    (hlast : ∀ l, (headerKey .lastModified, l) ∈ headers → getHeaderTime ctx l = .ok t)
    (hmeta : t ≠ 0 → ∀ m, (headerKey .mtime, m) ∈ headers → getHeaderTime ctx m = .ok t) :
    b'.info.mtime = t := by
  refine foldlM_inv (P := fun c => c.info.mtime = t) ?_ hb h
  rintro ⟨key, value⟩ hheader c c' hc hstep
  by_cases hmtime : ∃ f : HeaderField, f.isMtime = true ∧ key = headerKey f
  · obtain ⟨f, hf, rfl⟩ := hmtime
    have hfield := headerField_headerKey f
    cases f <;> simp only [HeaderField.isMtime, Bool.false_eq_true] at hf
    · by_cases hzero : c.info.mtime = 0
      · rw [decodeHeader_mtime_zero hfield hzero] at hstep
        obtain rfl := Except.ok.inj hstep
        exact hc
      · rw [decodeHeader_time hfield rfl (by decide) fun _ => hzero] at hstep
        obtain ⟨t', ht', hc'⟩ := bind_eq_ok_iff.1 hstep
        obtain rfl := Except.ok.inj hc'
        exact Except.ok.inj (ht'.symm.trans (hmeta (hc ▸ hzero) value hheader))
    · rw [decodeHeader_time hfield rfl (by decide) fun h => by cases h] at hstep
      obtain ⟨t', ht', hc'⟩ := bind_eq_ok_iff.1 hstep
      obtain rfl := Except.ok.inj hc'
      exact Except.ok.inj (ht'.symm.trans (hlast value hheader))
  · have hframe : SameAttribute c.info c'.info .mtime := decodeHeader_frame hstep
      (fun hkey => hmtime ⟨_, rfl, hkey⟩) fun _ f hf hkey => hmtime ⟨f, hf, hkey⟩
    exact Eq.trans hframe hc

/-- The loop sets a time of the modification only behind a `Last-Modified` header. -/
theorem exists_lastModified_of_mtime_ne (h : decodeLoop ctx b headers = .ok b')
    (hb : b.info.mtime = 0) (hb' : b'.info.mtime ≠ 0) :
    ∃ l t, (headerKey .lastModified, l) ∈ headers ∧ getHeaderTime ctx l = .ok t ∧ t ≠ 0 := by
  by_contra hnone
  refine hb' (mtime_of_loop h hb (fun l hl => ?_) fun h => absurd rfl h)
  obtain ⟨c, c', hc⟩ := ok_of_mem_foldlM hl h
  have hfield := headerField_headerKey .lastModified
  rw [decodeHeader_time hfield rfl (by decide) fun h => by cases h] at hc
  obtain ⟨t, ht, -⟩ := bind_eq_ok_iff.1 hc
  by_cases hzero : t = 0
  · rw [← hzero]
    exact ht
  · exact absurd ⟨l, t, hl, ht, hzero⟩ hnone

/-- **The statuses with which the loop ends.** -/
theorem canFail_of_loop {status : ℤ} (h : decodeLoop ctx b headers = .error status)
    (hb : b.info.mtime = 0) : CanFail ctx headers status := by
  obtain ⟨before, header, after, c, rfl, hbefore, hc⟩ := foldlM_eq_error h
  rcases decodeHeader_eq_error_iff.1 hc with hown | ⟨hkey, hne, htime⟩
  · exact .inl ⟨header, by simp, hown⟩
  · obtain ⟨l, t, hl, ht, hzero⟩ := exists_lastModified_of_mtime_ne hbefore hb hne
    exact .inr ⟨header.2, l, t, by simp [← hkey], List.mem_append_left _ hl, ht, hzero, htime⟩

theorem CanFail.perm {status : ℤ} (h : CanFail ctx headers' status)
    (hperm : headers'.Perm headers) : CanFail ctx headers status := by
  simpa only [CanFail, hperm.mem_iff] using h

theorem decodeLoop_cons_error {header : Bytes × Bytes} {status : ℤ}
    (h : b.decodeHeader ctx header = .error status) :
    decodeLoop ctx b (header :: headers) = .error status := by
  rw [decodeLoop, List.foldlM_cons, h]
  rfl

theorem decodeLoop_cons_ok {header : Bytes × Bytes} (h : b.decodeHeader ctx header = .ok c) :
    decodeLoop ctx b (header :: headers) = decodeLoop ctx c headers := by
  rw [decodeLoop, List.foldlM_cons, h]
  rfl

/-- A `Last-Modified` header that can be read. -/
theorem decodeHeader_lastModified {l : Bytes} {t : ℤ} (ht : getHeaderTime ctx l = .ok t) :
    b.decodeHeader ctx (headerKey .lastModified, l) =
      .ok { b with info := { b.info with mtime := t } } := by
  have hne : HeaderField.lastModified = .mtime → b.info.mtime ≠ 0 := fun h => by cases h
  rw [decodeHeader_time (headerField_headerKey .lastModified) rfl (by decide) hne,
    StatBuffer.setTime, ht]
  rfl

/-- An element of a list can be put first. -/
theorem exists_perm_cons {α : Type} {l : List α} {a : α} (h : a ∈ l) :
    ∃ rest, (a :: rest).Perm l := by
  obtain ⟨before, after, rfl⟩ := List.append_of_mem h
  exact ⟨before ++ after, List.perm_middle.symm⟩

/-- Two elements of a list can be put first. -/
theorem exists_perm_cons_cons {α : Type} {l : List α} {a a' : α} (h : a ∈ l) (h' : a' ∈ l)
    (hne : a ≠ a') : ∃ rest, (a :: a' :: rest).Perm l := by
  obtain ⟨rest, hperm⟩ := exists_perm_cons h
  have hrest : a' ∈ rest :=
    (List.mem_cons.1 (hperm.mem_iff.2 h')).resolve_left hne.symm
  obtain ⟨rest', hperm'⟩ := exists_perm_cons hrest
  exact ⟨rest', (hperm'.cons a).trans hperm⟩

theorem headerKey_mtime_ne (l m : Bytes) :
    (headerKey .lastModified, l) ≠ (headerKey .mtime, m) := by
  intro h
  have hkey : headerKey .lastModified = headerKey .mtime := congrArg Prod.fst h
  exact absurd hkey (by decide +kernel)

/-! ### The loop with its reads -/

/-- Headers whose characters are all in the strings. -/
def headerBytes (strings : List (Bytes × CString)) : List (Bytes × Bytes) := strings.map bytesOf

/-- The loop of `S3GetFileStat`, with every character of a date that it reads. -/
def readLoop (ctx : StatContext) (b : StatBuffer) (strings : List (Bytes × CString)) :
    Reading StatBuffer :=
  strings.foldlM (readHeader ctx) b

theorem mem_headerBytes {key value : Bytes} :
    (key, value) ∈ headerBytes strings ↔
      ∃ string, (key, string) ∈ strings ∧ string.bytes = value := by
  simp [headerBytes, bytesOf]

theorem fst_headerBytes (strings : List (Bytes × CString)) :
    (headerBytes strings).map Prod.fst = strings.map Prod.fst := by
  rw [headerBytes, List.map_map]
  rfl

theorem readLoop_eq_ok_iff :
    readLoop ctx b strings = .ok b' ↔ decodeLoop ctx b (headerBytes strings) = .ok b' := by
  induction strings generalizing b with
  | nil => simp [readLoop, decodeLoop, headerBytes, pure, Except.pure]
  | cons string strings ih =>
      rw [readLoop, decodeLoop, headerBytes, List.map_cons, List.foldlM_cons, List.foldlM_cons,
        bind_eq_ok_iff, bind_eq_ok_iff]
      exact exists_congr fun c => and_congr readHeader_eq_ok_iff ih

/-- **What is decoded is read inside.** -/
theorem readFileStat_eq_ok_iff {info : S3FileInfo} :
    readFileStat ctx filename strings = .ok info ↔
      s3GetFileStat ctx filename (headerBytes strings) = .ok info := by
  rw [readFileStat, s3GetFileStat, bind_eq_ok_iff, bind_eq_ok_iff]
  refine exists_congr fun c => and_congr readLoop_eq_ok_iff ?_
  simp [pure, Except.pure]

/-- The loop is read inside if every date is that it reads. -/
theorem readLoop_follows (h : ∀ before string after c, strings = before ++ string :: after →
      decodeLoop ctx b (headerBytes before) = .ok c → ReadsDate c string.1 →
        CompleteDate string.2.bytes) :
    Follows (· = ·) (readLoop ctx b strings) (decodeLoop ctx b (headerBytes strings)) := by
  induction strings generalizing b with
  | nil => exact follows_ok rfl
  | cons string strings ih =>
      rw [readLoop, decodeLoop, headerBytes, List.map_cons, List.foldlM_cons, List.foldlM_cons]
      refine (readHeader_follows (h [] string strings b rfl rfl)).bind_of_ok ?_
      rintro c _ hc rfl
      refine ih fun before string' after c' hsplit hbefore => ?_
      refine h (string :: before) string' after c' (by rw [hsplit, List.cons_append]) ?_
      rw [headerBytes, List.map_cons, decodeLoop_cons_ok hc]
      exact hbefore

variable (filename) in
/-- **The headers are read inside** if every date is that can be read. -/
theorem readFileStat_follows (h : DatesInside ctx (headerBytes strings)) :
    Follows (· = ·) (readFileStat ctx filename strings)
      (s3GetFileStat ctx filename (headerBytes strings)) := by
  refine (readLoop_follows ?_).bind ?_
  · rintro before ⟨key, string⟩ after c rfl hbefore hreads
    have hmem : (key, string.bytes) ∈ headerBytes (before ++ (key, string) :: after) :=
      mem_headerBytes.2 ⟨string, by simp, rfl⟩
    rcases hreads with rfl | rfl | rfl | ⟨rfl, hne⟩
    · exact h.date .atime (by simp) _ hmem
    · exact h.date .ctime (by simp) _ hmem
    · exact h.date .lastModified (by simp) _ hmem
    · obtain ⟨l, t, hl, ht, hzero⟩ := exists_lastModified_of_mtime_ne hbefore rfl hne
      have hl' : (headerKey .lastModified, l) ∈
          headerBytes (before ++ (headerKey .mtime, string) :: after) := by
        rw [headerBytes, List.map_append]
        exact List.mem_append_left _ hl
      exact h.mtime _ l t hmem hl' ht hzero
  · rintro c _ rfl
    exact follows_ok rfl

theorem DatesInside.perm (h : DatesInside ctx headers) (hperm : headers'.Perm headers) :
    DatesInside ctx headers' := by
  obtain ⟨hdate, hmtime⟩ := h
  constructor <;> simp only [hperm.mem_iff] <;> assumption

theorem bytesOf_injective : Function.Injective bytesOf := by
  rintro ⟨key, bytes, hnul⟩ ⟨key', bytes', hnul'⟩ h
  obtain ⟨rfl, rfl⟩ := Prod.mk.inj h
  rfl

theorem readFileStat_cons_outside {string : Bytes × CString}
    (h : readHeader ctx ⟨defaultInfo ctx filename, ctx.unset⟩ string = .error .outside) :
    readFileStat ctx filename (string :: strings) = .error .outside := by
  rw [readFileStat, List.foldlM_cons, h]
  rfl

/-- **If the attributes depend on their own headers only, the dates are read inside.** -/
theorem AttributesByHeader.datesInside (h : AttributesByHeader ctx filename strings) :
    DatesInside ctx (headerBytes strings) := by
  have hnever : ∀ strings', strings'.Perm strings →
      readFileStat ctx filename strings' ≠ .error .outside := by
    intro strings' hperm
    rw [h.permuted strings' hperm]
    exact h.inside
  constructor
  · intro field hfield value hmem
    obtain ⟨string, hstring, rfl⟩ := mem_headerBytes.1 hmem
    obtain ⟨rest, hperm⟩ := exists_perm_cons hstring
    have hreads : ReadsDate ⟨defaultInfo ctx filename, ctx.unset⟩ (headerKey field, string).1 := by
      simp only [List.mem_cons, List.not_mem_nil, or_false] at hfield
      rcases hfield with rfl | rfl | rfl
      · exact .inl rfl
      · exact .inr (.inl rfl)
      · exact .inr (.inr (.inl rfl))
    by_contra hnot
    exact hnever _ hperm (readFileStat_cons_outside (readHeader_outside hreads hnot))
  · intro m l t hm hl ht hzero
    obtain ⟨m, hmtime, rfl⟩ := mem_headerBytes.1 hm
    obtain ⟨l, hlast, rfl⟩ := mem_headerBytes.1 hl
    have hne : (headerKey .lastModified, l) ≠ (headerKey .mtime, m) := fun heq =>
      headerKey_mtime_ne l.bytes m.bytes (congrArg bytesOf heq)
    obtain ⟨rest, hperm⟩ := exists_perm_cons_cons hlast hmtime hne
    by_contra hnot
    refine hnever _ hperm ?_
    have hstep : readHeader ctx ⟨defaultInfo ctx filename, ctx.unset⟩ (headerKey .lastModified, l) =
        .ok ⟨{ defaultInfo ctx filename with mtime := t }, ctx.unset⟩ :=
      readHeader_eq_ok_iff.2 (decodeHeader_lastModified ht)
    have hreads : ReadsDate ⟨{ defaultInfo ctx filename with mtime := t }, ctx.unset⟩
        (headerKey .mtime, m).1 := .inr (.inr (.inr ⟨rfl, hzero⟩))
    rw [readFileStat, List.foldlM_cons, hstep, ok_bind, List.foldlM_cons,
      readHeader_outside hreads hnot]
    rfl

/-- If the attributes depend on their own headers only, so they do of what is decoded. -/
theorem AttributesByHeader.eq_of_perm (h : AttributesByHeader ctx filename strings)
    (hperm : headers'.Perm (headerBytes strings)) :
    s3GetFileStat ctx filename headers' = s3GetFileStat ctx filename (headerBytes strings) := by
  obtain ⟨strings', rfl⟩ : ∃ strings', headerBytes strings' = headers' := by
    have hrange : headers' ∈ Set.range (List.map bytesOf) := by
      rw [Set.range_list_map]
      intro header hmem
      obtain ⟨string, -, rfl⟩ := List.mem_map.1 (hperm.mem_iff.1 hmem)
      exact ⟨string, rfl⟩
    exact hrange
  have hperm' : strings'.Perm strings := (List.map_perm_map_iff bytesOf_injective).1 hperm
  have hfollows := readFileStat_follows filename h.datesInside
  have hfollows' := readFileStat_follows filename (h.datesInside.perm hperm)
  rw [h.permuted strings' hperm'] at hfollows'
  exact hfollows'.eq_of_eq hfollows

/-- **If the attributes depend on their own headers only, there is one status.** -/
theorem AttributesByHeader.status_eq (h : AttributesByHeader ctx filename strings) {status : ℤ}
    (hfail : CanFail ctx (headerBytes strings) status) :
    s3GetFileStat ctx filename (headerBytes strings) = .error status := by
  rcases hfail with ⟨header, hmem, hown⟩ | ⟨m, l, t, hm, hl, ht, hzero, hstatus⟩
  · rw [← h.eq_of_perm (List.perm_cons_erase hmem).symm, s3GetFileStat_eq_error_iff]
    exact decodeLoop_cons_error (decodeHeader_eq_error_iff.2 (.inl hown))
  · obtain ⟨rest, hperm⟩ := exists_perm_cons_cons hl hm (headerKey_mtime_ne l m)
    rw [← h.eq_of_perm hperm, s3GetFileStat_eq_error_iff,
      decodeLoop_cons_ok (decodeHeader_lastModified ht)]
    exact decodeLoop_cons_error (decodeHeader_eq_error_iff.2 (.inr ⟨rfl, hzero, hstatus⟩))

variable (filename) in
/-- With the second time of the modification in front, the loop does not fail for its sake. -/
theorem exists_perm_ok (hnodup : (headers.map Prod.fst).Nodup)
    (hread : ∀ header ∈ headers, ownStatus ctx header = none) :
    ∃ headers' info, headers'.Perm headers ∧ s3GetFileStat ctx filename headers' = .ok info := by
  obtain ⟨headers', hperm, hfirst⟩ : ∃ headers', headers'.Perm headers ∧
      ∀ before m after, headers' = before ++ (headerKey .mtime, m) :: after → before = [] := by
    by_cases hmem : ∃ m, (headerKey .mtime, m) ∈ headers
    · obtain ⟨m, hmem⟩ := hmem
      have hperm := List.perm_cons_erase hmem
      refine ⟨_, hperm.symm, fun before m' after hsplit => ?_⟩
      have hnodup' := (hperm.map Prod.fst).nodup_iff.1 hnodup
      cases before with
      | nil => rfl
      | cons header before =>
          obtain ⟨rfl, hrest⟩ := List.cons.inj hsplit
          rw [List.map_cons, List.nodup_cons, hrest] at hnodup'
          exact absurd (List.mem_map.2 ⟨(headerKey .mtime, m'), by simp, rfl⟩) hnodup'.1
    · refine ⟨headers, List.Perm.refl _, fun before m after hsplit => ?_⟩
      exact absurd ⟨m, hsplit ▸ by simp⟩ hmem
  cases hloop : decodeLoop ctx ⟨defaultInfo ctx filename, ctx.unset⟩ headers' with
  | ok b => exact ⟨headers', b.info, hperm, s3GetFileStat_eq_ok_iff.2 ⟨b, hloop, rfl⟩⟩
  | error status =>
      obtain ⟨before, ⟨key, value⟩, after, c, rfl, hbefore, hc⟩ := foldlM_eq_error hloop
      rcases decodeHeader_eq_error_iff.1 hc with hown | ⟨hkey, hne, -⟩
      · rw [hread _ (hperm.mem_iff.1 (by simp))] at hown
        cases hown
      · obtain rfl : key = headerKey .mtime := hkey
        obtain rfl := hfirst before value after rfl
        obtain rfl := Except.ok.inj hbefore
        exact absurd rfl hne

theorem getHeaderInt_of_not_isNumber {string : Bytes} (hnot : ¬ IsNumber string)
    (hread : errorOf (getHeaderInt ctx string 0) = none) (value : ℤ) :
    getHeaderInt ctx string value = .ok value := by
  rw [errorOf_getHeaderInt _ 0 value] at hread
  cases hdrop : string.dropWhile isspace with
  | nil =>
      simp only [getHeaderInt, hdrop] at hread ⊢
      split at hread
      · rename_i herrno
        exact if_pos herrno
      · cases hread
  | cons ch t =>
      simp only [getHeaderInt, hdrop]
      exact if_neg fun hnumber => hnot ⟨ch, t, hdrop, hnumber⟩

theorem setField_zero_one (hint : field.isInt = true) (info : S3FileInfo) :
    ¬ SameAttribute (setField info 0 field) (setField info 1 field) field := by
  cases field <;> simp only [HeaderField.isInt, Bool.false_eq_true] at hint
  · exact (by decide : ¬ UInt32.ofInt 1 = UInt32.ofInt 0)
  · exact (by decide : ¬ UInt32.ofInt 1 = UInt32.ofInt 0)
  · exact fun h => (by decide : ¬ UInt32.ofInt 1 &&& 511 = UInt32.ofInt 0 &&& 511) h.1
  · exact (by decide : ¬ (1 : ℤ) = 0)

/-- A response with one number that cannot be read. -/
theorem s3GetFileStat_singleton (hint : field.isInt = true) {value : Bytes}
    (hnot : ¬ IsNumber value) (hread : ownStatus ctx (headerKey field, value) = none) (unset : ℤ) :
    s3GetFileStat { ctx with unset := unset } filename [(headerKey field, value)] =
      .ok (setField (defaultInfo ctx filename) unset field) := by
  have hown : errorOf (getHeaderInt ctx value 0) = none := by
    rw [ownStatus, headerField_headerKey] at hread
    cases field <;> simp_all [HeaderField.isInt]
  have hvalue := getHeaderInt_of_not_isNumber hnot hown unset
  have hstep : StatBuffer.decodeHeader ctx ⟨defaultInfo ctx filename, unset⟩
      (headerKey field, value) =
      .ok ⟨setField (defaultInfo ctx filename) unset field, unset⟩ := by
    rw [decodeHeader_int (headerField_headerKey field) hint, StatBuffer.setInt, hvalue]
    rfl
  exact s3GetFileStat_eq_ok_iff.2 ⟨_, decodeLoop_cons_ok hstep, rfl⟩

/-- A number that could not be read would be what the variable happens to hold. -/
theorem AttributesByHeader.number (h : AttributesByHeader ctx filename strings)
    (hnodup : (strings.map Prod.fst).Nodup) {info : S3FileInfo}
    (hok : readFileStat ctx filename strings = .ok info) (hint : field.isInt = true)
    {string : CString} (hstring : (headerKey field, string) ∈ strings)
    (hread : ownStatus ctx (headerKey field, string.bytes) = none) : IsNumber string.bytes := by
  by_contra hnot
  have hfield : field ∈ [HeaderField.uid, .gid, .mode, .contentLength, .atime, .ctime] := by
    cases field <;> simp_all [HeaderField.isInt]
  have hown : ∀ unset, SameAttribute info (setField (defaultInfo ctx filename) unset field)
      field := by
    intro unset
    refine h.own field hfield unset [(headerKey field, string)] (List.nodup_singleton _)
      (fun v => ?_) info _ hok (readFileStat_eq_ok_iff.2
        (s3GetFileStat_singleton hint hnot hread unset))
    rw [List.mem_singleton]
    constructor
    · rintro ⟨⟩
      exact hstring
    · exact fun hv => List.inj_on_of_nodup_map hnodup hv hstring rfl
  exact setField_zero_one hint _ ((hown 0).symm.trans (hown 1))

/-- Behind `Last-Modified` the other header for the time is read, and has to give the same. -/
theorem AttributesByHeader.mtime_eq (h : AttributesByHeader ctx filename strings)
    (hnodup : ((headerBytes strings).map Prod.fst).Nodup) {info : S3FileInfo}
    (hok : s3GetFileStat ctx filename (headerBytes strings) = .ok info) {m l : Bytes} {t : ℤ}
    (hm : (headerKey .mtime, m) ∈ headerBytes strings)
    (hl : (headerKey .lastModified, l) ∈ headerBytes strings)
    (ht : getHeaderTime ctx l = .ok t) (hzero : t ≠ 0) : getHeaderTime ctx m = .ok t := by
  obtain ⟨rest, hperm⟩ := exists_perm_cons_cons hl hm (headerKey_mtime_ne l m)
  have hok' := (h.eq_of_perm hperm).trans hok
  obtain ⟨b, hloop, hinfo⟩ := s3GetFileStat_eq_ok_iff.1 hok'
  rw [decodeLoop_cons_ok (decodeHeader_lastModified ht)] at hloop
  have hnodup' := (hperm.map Prod.fst).nodup_iff.2 hnodup
  simp only [List.map_cons, List.nodup_cons, List.mem_cons, not_or] at hnodup'
  obtain ⟨⟨-, hlast⟩, hmeta, -⟩ := hnodup'
  rw [decodeLoop, List.foldlM_cons, bind_eq_ok_iff] at hloop
  obtain ⟨c, hc, hloop⟩ := hloop
  rw [decodeHeader_time (headerField_headerKey .mtime) rfl (by decide) fun _ => hzero] at hc
  obtain ⟨t', ht', hc⟩ := bind_eq_ok_iff.1 hc
  obtain rfl := Except.ok.inj hc
  have hmtime : b.info.mtime = t' := mtime_of_loop hloop rfl
    (fun l' hl' => absurd (List.mem_map.2 ⟨_, hl', rfl⟩) hlast)
    fun _ m' hm' => absurd (List.mem_map.2 ⟨_, hm', rfl⟩) hmeta
  obtain ⟨string, hstring, rfl⟩ := mem_headerBytes.1 hl
  have hvalue := readHeaderTime_eq_ok_iff.1
    (h.lastModified info string (readFileStat_eq_ok_iff.2 hok) hstring)
  rw [ht, ← hinfo, hmtime] at hvalue
  rw [ht', ← Except.ok.inj hvalue]

/-- **If the attributes depend on their own headers only and no header fails, every header can be
read.** -/
theorem AttributesByHeader.readable (h : AttributesByHeader ctx filename strings)
    (hnodup : (strings.map Prod.fst).Nodup)
    (hread : ∀ header ∈ headerBytes strings, ownStatus ctx header = none) :
    Readable ctx (headerBytes strings) := by
  have hnodup' : ((headerBytes strings).map Prod.fst).Nodup := fst_headerBytes strings ▸ hnodup
  obtain ⟨headers', info, hperm, hok⟩ := exists_perm_ok filename hnodup' hread
  rw [h.eq_of_perm hperm] at hok
  obtain ⟨b, hloop, hinfo⟩ := s3GetFileStat_eq_ok_iff.1 hok
  have hreadStat := readFileStat_eq_ok_iff.2 hok
  constructor
  case read => exact hread
  case number =>
      intro field hint value hmem
      obtain ⟨string, hstring, rfl⟩ := mem_headerBytes.1 hmem
      exact h.number hnodup hreadStat hint hstring (hread _ hmem)
  case mtime => exact fun m l t hm hl ht hzero => h.mtime_eq hnodup' hok hm hl ht hzero
  case onlyMtime =>
      intro m hm hl
      have hmtime := mtime_of_loop hloop (t := 0) rfl (fun l' hl' => absurd hl' (hl l'))
        fun h => absurd rfl h
      obtain ⟨string, hstring, rfl⟩ := mem_headerBytes.1 hm
      have hmissing : ∀ v, (headerKey .lastModified, v) ∉ strings := fun v hv =>
        hl v.bytes (mem_headerBytes.2 ⟨v, hv, rfl⟩)
      rw [readHeaderTime_eq_ok_iff.1 (h.mtime info string hreadStat hmissing hstring), ← hinfo,
        hmtime]

/-- With headers that can be read the loop does not fail. -/
theorem Readable.not_canFail (h : Readable ctx headers) (status : ℤ) :
    ¬ CanFail ctx headers status := by
  rintro (⟨header, hmem, hown⟩ | ⟨m, l, t, hm, hl, ht, hzero, hstatus⟩)
  · rw [h.read header hmem] at hown
    cases hown
  · rw [h.mtime m l t hm hl ht hzero] at hstatus
    cases hstatus

theorem Readable.perm (h : Readable ctx headers) (hperm : headers'.Perm headers) :
    Readable ctx headers' := by
  obtain ⟨hread, hnumber, hmtime, honly⟩ := h
  constructor <;> simp only [hperm.mem_iff] <;> assumption

variable (filename) in
theorem Readable.exists_ok (h : Readable ctx headers) :
    ∃ b, decodeLoop ctx ⟨defaultInfo ctx filename, ctx.unset⟩ headers = .ok b := by
  cases hloop : decodeLoop ctx ⟨defaultInfo ctx filename, ctx.unset⟩ headers with
  | ok b => exact ⟨b, rfl⟩
  | error status => exact absurd (canFail_of_loop hloop rfl) (h.not_canFail status)

/-- The time of the modification with headers that can be read. -/
theorem Readable.mtime_eq (h : Readable ctx headers) (hnodup : (headers.map Prod.fst).Nodup)
    (hloop : decodeLoop ctx b headers = .ok b') (hb : b.info.mtime = 0) :
    (∀ l, (headerKey .lastModified, l) ∈ headers → getHeaderTime ctx l = .ok b'.info.mtime) ∧
      ((∀ l, (headerKey .lastModified, l) ∉ headers) → b'.info.mtime = 0) := by
  constructor
  · intro l hl
    obtain ⟨before, after, rfl, -, hafter⟩ := exists_split_header hnodup hl
    obtain ⟨c, -, hloop'⟩ := foldlM_append_eq_ok.1 hloop
    rw [List.foldlM_cons, bind_eq_ok_iff] at hloop'
    obtain ⟨c', hc, hloop'⟩ := hloop'
    have hne : HeaderField.lastModified = .mtime → c.info.mtime ≠ 0 := fun h => by cases h
    rw [decodeHeader_time (headerField_headerKey .lastModified) rfl (by decide) hne] at hc
    obtain ⟨t, ht, hc⟩ := bind_eq_ok_iff.1 hc
    obtain rfl := Except.ok.inj hc
    have hmtime : b'.info.mtime = t := mtime_of_loop hloop' rfl
      (fun l' hl' => absurd hl' (hafter l'))
      fun hzero m hm => h.mtime m l t (by simp [hm]) hl ht hzero
    rw [hmtime]
    exact ht
  · intro hl
    exact mtime_of_loop hloop hb (fun l hmem => absurd hmem (hl l)) fun h => absurd rfl h

theorem eq_of_sameAttribute {info info' : S3FileInfo}
    (h : ∀ field, SameAttribute info info' field) : info' = info := by
  obtain ⟨hpermissions, hexeUid, hexeGid, hsticky⟩ := h .mode
  have huid : info'.uid = info.uid := h .uid
  have hgid : info'.gid = info.gid := h .gid
  have htype : info'.fileType = info.fileType := h .contentType
  have hsize : info'.size = info.size := h .contentLength
  have hatime : info'.atime = info.atime := h .atime
  have hctime : info'.ctime = info.ctime := h .ctime
  have hmtime : info'.mtime = info.mtime := h .mtime
  obtain ⟨⟩ := info
  obtain ⟨⟩ := info'
  simp_all

/-- **Headers that can be read give attributes that depend on their own headers only.** -/
theorem Readable.attributesByHeader (h : Readable ctx (headerBytes strings))
    (hnodup : (strings.map Prod.fst).Nodup) : AttributesByHeader ctx filename strings := by
  rw [← fst_headerBytes] at hnodup
  obtain ⟨b, hb⟩ := h.exists_ok filename
  have hok : readFileStat ctx filename strings = .ok b.info :=
    readFileStat_eq_ok_iff.2 (s3GetFileStat_eq_ok_iff.2 ⟨b, hb, rfl⟩)
  obtain ⟨hlast, hnone⟩ := h.mtime_eq hnodup hb rfl
  refine ⟨?_, fun strings' hpermStrings => ?_, ?_, ?_, ?_⟩
  · rw [hok]
    exact fun hstop => by cases hstop
  · have hperm := hpermStrings.map bytesOf
    have hnodup' := (hperm.map Prod.fst).nodup_iff.2 hnodup
    obtain ⟨c, hc⟩ := (h.perm hperm).exists_ok filename
    obtain ⟨hlast', hnone'⟩ := (h.perm hperm).mtime_eq hnodup' hc rfl
    have hmtime : c.info.mtime = b.info.mtime := by
      by_cases hmem : ∃ l, (headerKey .lastModified, l) ∈ headerBytes strings
      · obtain ⟨l, hl⟩ := hmem
        exact Except.ok.inj ((hlast' l (hperm.mem_iff.2 hl)).symm.trans (hlast l hl))
      · rw [hnone fun l hl => hmem ⟨l, hl⟩, hnone' fun l hl => hmem ⟨l, hperm.mem_iff.1 hl⟩]
    have hsame : c.info = b.info := eq_of_sameAttribute fun field => by
      by_cases hfield : field.isMtime = true
      · cases field <;> simp only [HeaderField.isMtime, Bool.false_eq_true] at hfield
        · exact hmtime
        · exact hmtime
      · exact sameAttribute_of_loops hb hc hnodup hnodup' (Bool.eq_false_iff.2 hfield)
          (fun hint => h.number field hint) (fun _ => hperm.mem_iff) (.refl _ _)
    rw [hok]
    exact readFileStat_eq_ok_iff.2 (s3GetFileStat_eq_ok_iff.2 ⟨c, hc, hsame⟩)
  · intro field hfield unset strings' hnodup' hown info info' hinfo hinfo'
    obtain rfl := Except.ok.inj (hok.symm.trans hinfo)
    obtain ⟨c, hc, rfl⟩ := s3GetFileStat_eq_ok_iff.1 (readFileStat_eq_ok_iff.1 hinfo')
    have hmtime : field.isMtime = false := by
      cases field <;> simp_all [HeaderField.isMtime]
    rw [← fst_headerBytes] at hnodup'
    refine sameAttribute_of_loops hb hc hnodup hnodup' hmtime (fun hint => h.number field hint)
      (fun value => ?_) (.refl _ _)
    simp only [mem_headerBytes, hown]
  · intro info value hinfo hmem
    obtain rfl := Except.ok.inj (hok.symm.trans hinfo)
    exact readHeaderTime_eq_ok_iff.2 (hlast _ (mem_headerBytes.2 ⟨value, hmem, rfl⟩))
  · intro info value hinfo hmissing hmem
    obtain rfl := Except.ok.inj (hok.symm.trans hinfo)
    have hmissing' : ∀ l, (headerKey .lastModified, l) ∉ headerBytes strings := by
      intro l hl
      obtain ⟨string, hstring, -⟩ := mem_headerBytes.1 hl
      exact hmissing string hstring
    rw [hnone hmissing']
    exact readHeaderTime_eq_ok_iff.2
      (h.onlyMtime _ (mem_headerBytes.2 ⟨value, hmem, rfl⟩) hmissing')

/-- With one status for every order of the headers, the attributes are those of no file. -/
theorem attributesByHeader_of_canFail {status : ℤ} {header : Bytes × Bytes}
    (hinside : DatesInside ctx (headerBytes strings)) (hmem : header ∈ headerBytes strings)
    (hown : ownStatus ctx header = some status)
    (hunique : ∀ status', CanFail ctx (headerBytes strings) status' → status' = status) :
    AttributesByHeader ctx filename strings := by
  have herror : ∀ strings', strings'.Perm strings →
      readFileStat ctx filename strings' = .error (.returned status) := by
    intro strings' hpermStrings
    have hperm := hpermStrings.map bytesOf
    refine (readFileStat_follows filename (hinside.perm hperm)).eq_error ?_
    rw [s3GetFileStat_eq_error_iff]
    change decodeLoop ctx _ (strings'.map bytesOf) = _
    cases hloop : decodeLoop ctx ⟨defaultInfo ctx filename, ctx.unset⟩
        (strings'.map bytesOf) with
    | ok b =>
        obtain ⟨c, c', hc⟩ := ok_of_mem_foldlM (hperm.mem_iff.2 hmem) hloop
        rw [decodeHeader_eq_error_iff.2 (.inl hown)] at hc
        cases hc
    | error status' => rw [hunique status' ((canFail_of_loop hloop rfl).perm hperm)]
  have hself := herror strings (List.Perm.refl _)
  have hnot : ∀ info, readFileStat ctx filename strings ≠ .ok info := by
    intro info hinfo
    rw [hself] at hinfo
    cases hinfo
  refine ⟨?_, fun strings' hperm => ?_, ?_, ?_, ?_⟩
  · rw [hself]
    exact fun hstop => by cases hstop
  · rw [herror strings' hperm, hself]
  · exact fun _ _ _ _ _ _ info _ hinfo => absurd hinfo (hnot info)
  · exact fun info _ hinfo => absurd hinfo (hnot info)
  · exact fun info _ hinfo => absurd hinfo (hnot info)

/-- **When the attributes depend on their own headers only.** -/
theorem attributesByHeader_iff (ctx : StatContext) (filename : Bytes)
    (strings : List (Bytes × CString)) (hnodup : (strings.map Prod.fst).Nodup) :
    AttributesByHeader ctx filename strings ↔
      Readable ctx (headerBytes strings) ∨
        DatesInside ctx (headerBytes strings) ∧
          ∃ header ∈ headerBytes strings, ∃ status, ownStatus ctx header = some status ∧
            ∀ status', CanFail ctx (headerBytes strings) status' → status' = status := by
  constructor
  · intro h
    by_cases hread : ∀ header ∈ headerBytes strings, ownStatus ctx header = none
    · exact .inl (h.readable hnodup hread)
    · push Not at hread
      obtain ⟨header, hmem, hne⟩ := hread
      obtain ⟨status, hown⟩ := Option.ne_none_iff_exists'.1 hne
      refine .inr ⟨h.datesInside, header, hmem, status, hown, fun status' hfail => ?_⟩
      have hstatus := h.status_eq (.inl ⟨header, hmem, hown⟩)
      exact Except.error.inj ((h.status_eq hfail).symm.trans hstatus)
  · rintro (h | ⟨hinside, header, hmem, status, hown, hunique⟩)
    · exact h.attributesByHeader hnodup
    · exact attributesByHeader_of_canFail hinside hmem hown hunique

/-- Two headers with different times of the modification. -/
def twoTimes : List (Bytes × CString) :=
  [(ascii "Last-Modified", ⟨ascii "Tue, 19 Jun 2012 10:04:06 GMT", by decide +kernel⟩),
    (ascii "x-amz-meta-mtime", ⟨ascii "Tue, 19 Jun 2012 11:04:06 GMT", by decide +kernel⟩)]

/-- The headers of a file of user 1000. -/
def ownerAndTime : List (Bytes × CString) :=
  [(ascii "x-amz-meta-uid", ⟨ascii "1000", by decide +kernel⟩),
    (ascii "Last-Modified", ⟨ascii "Tue, 19 Jun 2012 10:04:06 GMT", by decide +kernel⟩)]

theorem noMtime_ownerAndTime (m : Bytes) :
    (headerKey .mtime, m) ∉ headerBytes ownerAndTime := by
  intro hm
  have hkey : headerKey .mtime ∈ (headerBytes ownerAndTime).map Prod.fst := List.mem_map_of_mem hm
  exact absurd hkey (by decide +kernel)

/-- These headers can be read. -/
theorem readable_ownerAndTime :
    Readable (june (.fixed 0 (by decide))) (headerBytes ownerAndTime) where
  read := by decide +kernel
  number field _ value hmem := by
    simp only [headerBytes, ownerAndTime, List.map_cons, List.map_nil, List.mem_cons,
      List.not_mem_nil, or_false] at hmem
    rcases hmem with hmem | hmem
    · obtain ⟨-, rfl⟩ := Prod.mk.inj hmem
      exact ⟨49, ascii "000", by decide +kernel, by decide +kernel⟩
    · have hkey : headerKey field = ascii "Last-Modified" := congrArg Prod.fst hmem
      cases field <;> first | exact absurd hkey (by decide +kernel) | contradiction
  mtime _ _ _ hm := absurd hm (noMtime_ownerAndTime _)
  onlyMtime _ hm := absurd hm (noMtime_ownerAndTime _)

theorem attributesByHeader_ownerAndTime :
    AttributesByHeader (june (.fixed 0 (by decide))) (ascii "/readme") ownerAndTime :=
  (attributesByHeader_iff _ _ ownerAndTime (by decide +kernel)).2 (.inl readable_ownerAndTime)

/-- The order of two times matters, a number that cannot be read is an arbitrary one, and so may be
the minute of a time that ends with its hour. -/
theorem not_attributesByHeader_twoTimes :
    ¬ AttributesByHeader (june (.fixed 0 (by decide))) (ascii "/readme") twoTimes ∧
      ¬ AttributesByHeader (june (.fixed 0 (by decide))) (ascii "/readme")
        [(ascii "x-amz-meta-uid", ⟨ascii "root", by decide +kernel⟩)] ∧
      ¬ AttributesByHeader (june (.fixed 0 (by decide))) (ascii "/readme")
        [(ascii "x-amz-meta-atime", ⟨ascii "1 Jan 1970 10", by decide +kernel⟩)] := by
  refine ⟨fun h => ?_, fun h => ?_, fun h => ?_⟩
  · have horder := h.eq_of_perm (List.reverse_perm (headerBytes twoTimes))
    exact absurd horder (by decide +kernel)
  · have hown : UInt32.ofInt 1000 = UInt32.ofInt 0 :=
      h.own .uid List.mem_cons_self 1000
        [(ascii "x-amz-meta-uid", ⟨ascii "root", by decide +kernel⟩)] (List.nodup_singleton _)
        (fun _ => Iff.rfl) _ _ rfl rfl
    exact absurd hown (by decide)
  · have hdecode : decodeDate (ascii "1 Jan 1970 10") = .ok (⟨1970, 0, 1⟩, ascii "10") := by
      decide +kernel
    obtain ⟨d, hvalid, htext, -, hclock⟩ := exists_dateParts hdecode
    have hcomplete := h.datesInside.date .atime (by simp) (ascii "1 Jan 1970 10")
      (mem_headerBytes.2 ⟨_, List.mem_cons_self, rfl⟩) d hvalid htext
    rw [hclock] at hcomplete
    exact absurd hcomplete (by decide)

end Loop

end AwsS3fs
