/-
**The variable for the numbers in headers.**

`S3GetFileStat` (`s3if.c`) has one variable for all the numbers that it reads, which is never
initialised.  A header whose text is not a number gives its attribute whatever the variable holds:
the number of an earlier header, or what happened to be in memory.

Main definitions:

* `AwsS3fs.NumberHeader` — a header whose number is read;
* `AwsS3fs.NumbersRead` — the last header for each number is such a header, or stands behind one;
* `AwsS3fs.SameReads` — what two loops over the same headers agree on.

Main results:

* `AwsS3fs.sameReads_loop` — two loops agree on what is read;
* `AwsS3fs.NumbersRead.eq_of_ok` — **the information does not depend on the variable if every number
  is read**;
* `AwsS3fs.ne_of_not_numbersRead` — **and it does otherwise**.
-/

import AwsS3fs.HeaderOrder

set_option relaxedAutoImplicit false
set_option autoImplicit false

namespace AwsS3fs

open CLib Runs

/-! ### Numbers that are read -/

/-- A header whose number is read. -/
def NumberHeader (header : Bytes × Bytes) : Prop :=
  ∃ field : HeaderField, field.isInt = true ∧ header.1 = headerKey field ∧ IsNumber header.2

/-- The last header of a field is read, or stands behind one that is. -/
def LastRead (headers : List (Bytes × Bytes)) (field : HeaderField) : Prop :=
  ∀ before value after, headers = before ++ (headerKey field, value) :: after →
    (∀ v, (headerKey field, v) ∉ after) →
      ∃ header ∈ before ++ [(headerKey field, value)], NumberHeader header

/-- **Every number comes from a header**, its own or one in front of it. -/
def NumbersRead (headers : List (Bytes × Bytes)) : Prop :=
  ∀ field : HeaderField, field.isInt = true → LastRead headers field

/-- Two calls in the same process, which may find different values in `errno` and in the variable
for numbers. -/
structure SameProcess (ctx ctx' : StatContext) : Prop where
  zone : ctx'.zone = ctx.zone
  start : ctx'.start = ctx.start
  getuid : ctx'.getuid = ctx.getuid
  getgid : ctx'.getgid = ctx.getgid

/-- **What two loops agree on** after the same headers: everything but the numbers, the variable
once a number was read, and the numbers that do not come from what it held before. -/
structure SameReads (seen : List (Bytes × Bytes)) (b c : StatBuffer) : Prop where
  other : ∀ field : HeaderField, field.isInt = false → SameAttribute b.info c.info field
  tempValue : (∃ header ∈ seen, NumberHeader header) → c.tempValue = b.tempValue
  number : ∀ field : HeaderField, field.isInt = true → LastRead seen field →
    SameAttribute b.info c.info field

section SameProcess

variable {ctx ctx' : StatContext}

theorem SameProcess.refl (ctx : StatContext) : SameProcess ctx ctx := ⟨rfl, rfl, rfl, rfl⟩

theorem SameProcess.symm (h : SameProcess ctx ctx') : SameProcess ctx' ctx :=
  ⟨h.zone.symm, h.start.symm, h.getuid.symm, h.getgid.symm⟩

theorem SameProcess.trans {ctx'' : StatContext} (h : SameProcess ctx ctx')
    (h' : SameProcess ctx' ctx'') : SameProcess ctx ctx'' :=
  ⟨h'.zone.trans h.zone, h'.start.trans h.start, h'.getuid.trans h.getuid,
    h'.getgid.trans h.getgid⟩

theorem SameProcess.getHeaderTime_eq (h : SameProcess ctx ctx') (string : Bytes) :
    getHeaderTime ctx' string = getHeaderTime ctx string := by
  rw [getHeaderTime, getHeaderTime, h.zone, h.start]

theorem SameProcess.defaultInfo_eq (h : SameProcess ctx ctx') (filename : Bytes) :
    defaultInfo ctx' filename = defaultInfo ctx filename := by
  rw [defaultInfo, defaultInfo, h.getuid, h.getgid]

end SameProcess

/-- Every number is read where each header for one begins with a number. -/
theorem numbersRead_of_isNumber {headers : List (Bytes × Bytes)}
    (h : ∀ field : HeaderField, field.isInt = true → ∀ value,
      (headerKey field, value) ∈ headers → IsNumber value) : NumbersRead headers := by
  rintro field hint before value after rfl -
  exact ⟨(headerKey field, value), by simp, field, hint, rfl, h field hint value (by simp)⟩

/-! ### One header -/

section OneHeader

variable {ctx ctx' : StatContext} {b b' c c' : StatBuffer} {header : Bytes × Bytes}
  {field : HeaderField}

theorem setField_sameMtime (hfield : field.isMtime = true) {g : HeaderField}
    (hg : g.isMtime = true) (info info' : S3FileInfo) (value : ℤ) :
    SameAttribute (setField info value field) (setField info' value field) g := by
  cases field <;> simp only [HeaderField.isMtime, Bool.false_eq_true] at hfield <;>
    cases g <;> simp only [HeaderField.isMtime, Bool.false_eq_true] at hg <;> rfl

/-- The same value gives the same attribute, and leaves the others as they are. -/
theorem setField_same {g : HeaderField} (htype : field ≠ .contentType) {info info' : S3FileInfo}
    (hsame : SameAttribute info info' g) (value : ℤ) :
    SameAttribute (setField info value field) (setField info' value field) g := by
  by_cases hg : field = g
  · rw [← hg]
    exact setField_own htype _ _ _
  · by_cases hmtime : field.isMtime = true ∧ g.isMtime = true
    · exact setField_sameMtime hmtime.1 hmtime.2 _ _ _
    · rw [not_and_or, Bool.not_eq_true, Bool.not_eq_true] at hmtime
      exact (setField_frame hg hmtime _ _).symm.trans (hsame.trans (setField_frame hg hmtime _ _))

theorem isMtime_of_isInt (h : field.isInt = true) : field.isMtime = false := by
  cases field <;> simp_all [HeaderField.isInt, HeaderField.isMtime]

theorem decodeHeader_int_eq_ok (hb : b.decodeHeader ctx header = .ok b')
    (hfield : headerField header.1 = some field) (hint : field.isInt = true) :
    ∃ value, getHeaderInt ctx header.2 b.tempValue = .ok value ∧
      b' = ⟨setField b.info value field, value⟩ := by
  rw [decodeHeader_int hfield hint] at hb
  obtain ⟨value, hvalue, hb⟩ := bind_eq_ok_iff.1 hb
  exact ⟨value, hvalue, (Except.ok.inj hb).symm⟩

/-- Everything but the numbers comes from the headers alone. -/
theorem SameReads.other_step {seen : List (Bytes × Bytes)} (h : SameReads seen b c)
    (hctx : SameProcess ctx ctx') (hb : b.decodeHeader ctx header = .ok b')
    (hc : c.decodeHeader ctx' header = .ok c') {g : HeaderField} (hg : g.isInt = false) :
    SameAttribute b'.info c'.info g := by
  have hsame := h.other g hg
  have hmtime : c.info.mtime = b.info.mtime := h.other .mtime rfl
  cases hfield : headerField header.1 with
  | none =>
      rw [decodeHeader_none hfield] at hb hc
      obtain rfl := Except.ok.inj hb
      obtain rfl := Except.ok.inj hc
      exact hsame
  | some field =>
      by_cases hint : field.isInt = true
      · obtain ⟨value, -, rfl⟩ := decodeHeader_int_eq_ok hb hfield hint
        obtain ⟨value', -, rfl⟩ := decodeHeader_int_eq_ok hc hfield hint
        have hne : field ≠ g := by
          rintro rfl
          rw [hg] at hint
          cases hint
        have hnot : field.isMtime = false ∨ g.isMtime = false := .inl (isMtime_of_isInt hint)
        exact (setField_frame hne hnot _ _).symm.trans (hsame.trans (setField_frame hne hnot _ _))
      · by_cases htype : field = .contentType
        · rw [htype] at hfield
          rw [decodeHeader_type hfield] at hb hc
          obtain rfl := Except.ok.inj hb
          obtain rfl := Except.ok.inj hc
          by_cases hg' : g = .contentType
          · rw [hg'] at hsame ⊢
            exact setType_own hsame _
          · exact (setType_frame hg' _ _).symm.trans (hsame.trans (setType_frame hg' _ _))
        · by_cases hzero : field = .mtime ∧ b.info.mtime = 0
          · rw [hzero.1] at hfield
            rw [decodeHeader_mtime_zero hfield hzero.2] at hb
            rw [decodeHeader_mtime_zero hfield (hmtime.trans hzero.2)] at hc
            obtain rfl := Except.ok.inj hb
            obtain rfl := Except.ok.inj hc
            exact hsame
          · have hint' := Bool.eq_false_iff.2 hint
            rw [decodeHeader_time hfield hint' htype fun hf h0 => hzero ⟨hf, h0⟩] at hb
            rw [decodeHeader_time hfield hint' htype fun hf h0 => hzero ⟨hf, hmtime ▸ h0⟩,
              StatBuffer.setTime, hctx.getHeaderTime_eq] at hc
            obtain ⟨value, hvalue, hb⟩ := bind_eq_ok_iff.1 hb
            obtain ⟨value', hvalue', hc⟩ := bind_eq_ok_iff.1 hc
            obtain rfl := Except.ok.inj hb
            obtain rfl := Except.ok.inj hc
            obtain rfl := Except.ok.inj (hvalue.symm.trans hvalue')
            exact setField_same htype hsame value

/-- Only the headers for numbers change the variable. -/
theorem tempValue_decodeHeader (hb : b.decodeHeader ctx header = .ok b')
    (hnot : ∀ field : HeaderField, field.isInt = true → header.1 ≠ headerKey field) :
    b'.tempValue = b.tempValue := by
  cases hfield : headerField header.1 with
  | none =>
      rw [decodeHeader_none hfield] at hb
      rw [← Except.ok.inj hb]
  | some field =>
      have hkey := headerField_eq_some_iff.1 hfield
      have hint : field.isInt = false := Bool.eq_false_iff.2 fun hint => hnot field hint hkey
      by_cases htype : field = .contentType
      · rw [htype] at hfield
        rw [decodeHeader_type hfield] at hb
        rw [← Except.ok.inj hb]
      · by_cases hzero : field = .mtime ∧ b.info.mtime = 0
        · rw [hzero.1] at hfield
          rw [decodeHeader_mtime_zero hfield hzero.2] at hb
          rw [← Except.ok.inj hb]
        · rw [decodeHeader_time hfield hint htype fun hf h0 => hzero ⟨hf, h0⟩] at hb
          obtain ⟨value, -, hb⟩ := bind_eq_ok_iff.1 hb
          rw [← Except.ok.inj hb]

/-- A header whose number is not read leaves the variable as it is. -/
theorem tempValue_of_not_numberHeader (hb : b.decodeHeader ctx header = .ok b')
    (hnot : ¬ NumberHeader header) : b'.tempValue = b.tempValue := by
  by_cases hkey : ∃ field : HeaderField, field.isInt = true ∧ header.1 = headerKey field
  · obtain ⟨field, hint, hkey⟩ := hkey
    obtain ⟨value, hvalue, rfl⟩ :=
      decodeHeader_int_eq_ok hb (headerField_eq_some_iff.2 hkey) hint
    have hnumber : ¬ IsNumber header.2 := fun hnumber => hnot ⟨field, hint, hkey, hnumber⟩
    have hread : errorOf (getHeaderInt ctx header.2 0) = none := by
      rw [errorOf_getHeaderInt _ 0 b.tempValue, hvalue]
      rfl
    rw [getHeaderInt_of_not_isNumber hnumber hread] at hvalue
    exact (Except.ok.inj hvalue).symm
  · push Not at hkey
    exact tempValue_decodeHeader hb hkey

/-- A header whose number is read sets the variable. -/
theorem tempValue_of_numberHeader (hb : b.decodeHeader ctx header = .ok b')
    (h : NumberHeader header) : b'.tempValue = strtoll header.2 := by
  obtain ⟨field, hint, hkey, hnumber⟩ := h
  obtain ⟨value, hvalue, rfl⟩ := decodeHeader_int_eq_ok hb (headerField_eq_some_iff.2 hkey) hint
  rw [getHeaderInt_of_isNumber hnumber] at hvalue
  exact (Except.ok.inj hvalue).symm

/-- Once a number was read, the variable comes from the headers. -/
theorem SameReads.tempValue_step {seen : List (Bytes × Bytes)} (h : SameReads seen b c)
    (hb : b.decodeHeader ctx header = .ok b') (hc : c.decodeHeader ctx' header = .ok c')
    (hread : ∃ h ∈ seen ++ [header], NumberHeader h) : c'.tempValue = b'.tempValue := by
  by_cases hnumber : NumberHeader header
  · rw [tempValue_of_numberHeader hb hnumber, tempValue_of_numberHeader hc hnumber]
  · have hseen : ∃ h ∈ seen, NumberHeader h := by
      obtain ⟨h, hmem, hh⟩ := hread
      rcases List.mem_append.1 hmem with hmem | hmem
      · exact ⟨h, hmem, hh⟩
      · rw [List.mem_singleton.1 hmem] at hh
        exact absurd hh hnumber
    rw [tempValue_of_not_numberHeader hb hnumber, tempValue_of_not_numberHeader hc hnumber,
      h.tempValue hseen]

/-- A header of another field does not make a field come from the variable. -/
theorem LastRead.of_concat {seen : List (Bytes × Bytes)} (h : LastRead (seen ++ [header]) field)
    (hkey : header.1 ≠ headerKey field) : LastRead seen field := by
  rintro before value after rfl hafter
  refine h before value (after ++ [header]) (by simp) fun v hv => ?_
  rcases List.mem_append.1 hv with hv | hv
  · exact hafter v hv
  · exact hkey (by rw [← List.mem_singleton.1 hv])

/-- The numbers that are read come from the headers alone. -/
theorem SameReads.number_step {seen : List (Bytes × Bytes)} (h : SameReads seen b c)
    (hb : b.decodeHeader ctx header = .ok b') (hc : c.decodeHeader ctx' header = .ok c')
    (hint : field.isInt = true) (hlast : LastRead (seen ++ [header]) field) :
    SameAttribute b'.info c'.info field := by
  by_cases hkey : header.1 = headerKey field
  · have hfield := headerField_eq_some_iff.2 hkey
    have hread := hlast seen header.2 [] (by rw [← hkey]) (by simp)
    rw [← hkey] at hread
    have htemp := h.tempValue_step hb hc hread
    obtain ⟨value, -, rfl⟩ := decodeHeader_int_eq_ok hb hfield hint
    obtain ⟨value', -, rfl⟩ := decodeHeader_int_eq_ok hc hfield hint
    obtain rfl : value' = value := htemp
    refine setField_own ?_ _ _ _
    rintro rfl
    cases hint
  · have hmtime : field.isMtime = true →
        ∀ f : HeaderField, f.isMtime = true → header.1 ≠ headerKey f := by
      simp [isMtime_of_isInt hint]
    have hsame := h.number field hint (hlast.of_concat hkey)
    exact (decodeHeader_frame hb hkey hmtime).symm.trans
      (hsame.trans (decodeHeader_frame hc hkey hmtime))

/-- **One header.** -/
theorem SameReads.step {seen : List (Bytes × Bytes)} (h : SameReads seen b c)
    (hctx : SameProcess ctx ctx') (hb : b.decodeHeader ctx header = .ok b')
    (hc : c.decodeHeader ctx' header = .ok c') : SameReads (seen ++ [header]) b' c' where
  other _ hg := h.other_step hctx hb hc hg
  tempValue hread := h.tempValue_step hb hc hread
  number _ hint hlast := h.number_step hb hc hint hlast

/-- Whether a header can be read does not depend on the variable. -/
theorem SameReads.exists_step {seen : List (Bytes × Bytes)} (h : SameReads seen b c)
    (hb : b.decodeHeader ctx header = .ok b') : ∃ c', c.decodeHeader ctx header = .ok c' := by
  cases hc : c.decodeHeader ctx header with
  | ok c' => exact ⟨c', rfl⟩
  | error status =>
      have hmtime : c.info.mtime = b.info.mtime := h.other .mtime rfl
      have herror := decodeHeader_eq_error_iff.1 hc
      rw [hmtime, ← decodeHeader_eq_error_iff, hb] at herror
      cases herror

end OneHeader

/-! ### The loop -/

section Loop

variable {ctx ctx' : StatContext} {filename : Bytes} {b b' c c' : StatBuffer}
  {headers seen : List (Bytes × Bytes)}

/-- **Two loops agree on what is read.** -/
theorem sameReads_loop (hctx : SameProcess ctx ctx') (h : SameReads seen b c)
    (hb : decodeLoop ctx b headers = .ok b') (hc : decodeLoop ctx' c headers = .ok c') :
    SameReads (seen ++ headers) b' c' := by
  induction headers generalizing seen b c with
  | nil =>
      obtain rfl := Except.ok.inj hb
      obtain rfl := Except.ok.inj hc
      rwa [List.append_nil]
  | cons header headers ih =>
      rw [decodeLoop, List.foldlM_cons, bind_eq_ok_iff] at hb hc
      obtain ⟨b₁, hb₁, hb⟩ := hb
      obtain ⟨c₁, hc₁, hc⟩ := hc
      rw [List.append_cons]
      exact ih (h.step hctx hb₁ hc₁) hb hc

/-- Whether the headers can be read does not depend on the variable. -/
theorem SameReads.exists_loop (h : SameReads seen b c) (hb : decodeLoop ctx b headers = .ok b') :
    ∃ c', decodeLoop ctx c headers = .ok c' := by
  induction headers generalizing seen b c with
  | nil => exact ⟨c, rfl⟩
  | cons header headers ih =>
      rw [decodeLoop, List.foldlM_cons, bind_eq_ok_iff] at hb
      obtain ⟨b₁, hb₁, hb⟩ := hb
      obtain ⟨c₁, hc₁⟩ := h.exists_step hb₁
      obtain ⟨c', hc'⟩ := ih (h.step (.refl ctx) hb₁ hc₁) hb
      exact ⟨c', (decodeLoop_cons_ok hc₁).trans hc'⟩

/-- Before the first header. -/
theorem sameReads_start (hctx : SameProcess ctx ctx') (filename : Bytes) (u u' : ℤ) :
    SameReads [] ⟨defaultInfo ctx filename, u⟩ ⟨defaultInfo ctx' filename, u'⟩ := by
  have hsame : ∀ field, SameAttribute (defaultInfo ctx filename) (defaultInfo ctx' filename)
      field := by
    intro field
    rw [hctx.defaultInfo_eq]
    exact .refl _ _
  exact ⟨fun field _ => hsame field, by simp, fun field _ _ => hsame field⟩

theorem exists_ok_of_unset {info : S3FileInfo} (h : s3GetFileStat ctx filename headers = .ok info)
    (unset : ℤ) :
    ∃ info', s3GetFileStat { ctx with unset := unset } filename headers = .ok info' := by
  obtain ⟨b, hb, -⟩ := s3GetFileStat_eq_ok_iff.1 h
  obtain ⟨c, hc⟩ := (sameReads_start (.refl ctx) filename ctx.unset unset).exists_loop hb
  exact ⟨c.info, s3GetFileStat_eq_ok_iff.2 ⟨c, hc, rfl⟩⟩

/-- **If every number is read, the information does not depend on what was in memory.** -/
theorem NumbersRead.eq_of_ok (h : NumbersRead headers) (hctx : SameProcess ctx ctx')
    {info info' : S3FileInfo} (hinfo : s3GetFileStat ctx filename headers = .ok info)
    (hinfo' : s3GetFileStat ctx' filename headers = .ok info') : info' = info := by
  obtain ⟨b, hb, rfl⟩ := s3GetFileStat_eq_ok_iff.1 hinfo
  obtain ⟨c, hc, rfl⟩ := s3GetFileStat_eq_ok_iff.1 hinfo'
  have hsame : SameReads headers b c :=
    sameReads_loop hctx (sameReads_start hctx filename ctx.unset ctx'.unset) hb hc
  refine eq_of_sameAttribute fun field => ?_
  by_cases hint : field.isInt = true
  · exact hsame.number field hint (h field hint)
  · exact hsame.other field (Bool.eq_false_iff.2 hint)

/-- As long as no number was read, the variable holds what it held before. -/
theorem tempValue_of_loop (hb : decodeLoop ctx b headers = .ok b')
    (hnot : ∀ header ∈ headers, ¬ NumberHeader header) : b'.tempValue = b.tempValue := by
  refine foldlM_inv (P := fun c => c.tempValue = b.tempValue) ?_ rfl hb
  intro header hheader c c' hc hstep
  rw [tempValue_of_not_numberHeader hstep (hnot header hheader), hc]

/-- A number that is not read is what was in the variable. -/
theorem sameAttribute_unset {before after : List (Bytes × Bytes)} {field : HeaderField}
    {value : Bytes} (hint : field.isInt = true)
    (hnot : ∀ header ∈ before ++ [(headerKey field, value)], ¬ NumberHeader header)
    (hafter : ∀ v, (headerKey field, v) ∉ after) {info : S3FileInfo}
    (h : s3GetFileStat ctx filename (before ++ (headerKey field, value) :: after) = .ok info) :
    SameAttribute (setField (defaultInfo ctx filename) ctx.unset field) info field := by
  obtain ⟨b, hb, rfl⟩ := s3GetFileStat_eq_ok_iff.1 h
  rw [List.append_cons] at hb
  obtain ⟨c, hc, hb⟩ := foldlM_append_eq_ok.1 hb
  have htemp : c.tempValue = ctx.unset := tempValue_of_loop hc hnot
  obtain ⟨c₁, -, hstep⟩ := foldlM_append_eq_ok.1 hc
  rw [List.foldlM_cons, bind_eq_ok_iff] at hstep
  obtain ⟨c₂, hc₂, hstep⟩ := hstep
  obtain rfl := Except.ok.inj hstep
  obtain ⟨value', -, rfl⟩ :=
    decodeHeader_int_eq_ok hc₂ (headerField_headerKey field) hint
  obtain rfl : value' = ctx.unset := htemp
  have hmtime : field.isMtime = true → ∀ f : HeaderField, f.isMtime = true → ∀ v,
      (headerKey f, v) ∉ after := by
    simp [isMtime_of_isInt hint]
  refine (setField_own ?_ _ _ _).trans (decodeLoop_frame hb hafter hmtime)
  rintro rfl
  cases hint

/-- **If some number is not read, the information depends on what was in memory.** -/
theorem ne_of_not_numbersRead (hnot : ¬ NumbersRead headers) {info info' : S3FileInfo}
    (hinfo : s3GetFileStat { ctx with unset := 0 } filename headers = .ok info)
    (hinfo' : s3GetFileStat { ctx with unset := 1 } filename headers = .ok info') :
    info' ≠ info := by
  simp only [NumbersRead, LastRead, not_forall, not_exists, not_and] at hnot
  obtain ⟨field, hint, before, value, after, rfl, hafter, hnone⟩ := hnot
  rintro rfl
  have hzero := sameAttribute_unset hint hnone hafter hinfo
  have hone := sameAttribute_unset hint hnone hafter hinfo'
  exact setField_zero_one hint _ (hzero.trans hone.symm)

end Loop

end AwsS3fs
