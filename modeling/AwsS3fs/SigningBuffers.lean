/-
**The buffers of a signature.**

`CreateAwsSignature` (`s3comms.c`) puts the message to be signed together in an array of 4096
characters, and the headers of Amazon before that in one of 2048.  It counts in `messageLength` what
it has put there, and asserts for every header that the count is well below the size of the message.
But the count has the verb and the headers of Amazon only, and the bound of the smaller array is not
asserted.

Main definitions:

* `AwsS3fs.SigningFault`, `AwsS3fs.signMessage` — `CreateAwsSignature` with its buffers;
* `AwsS3fs.AssertionsPass` — the assertion holds for every header;
* `AwsS3fs.amzSize`, `AwsS3fs.signedSize` — the sizes of what is written.

Main results:

* `AwsS3fs.foldlM_signHeader` — the loop over the headers;
* `AwsS3fs.signMessage_eq` — what is signed, or that it does not fit;
* `AwsS3fs.signMessage_inBounds_iff` — **when all writes are in bounds**.
-/

import AwsS3fs.CanonicalHeaders

set_option relaxedAutoImplicit false
set_option autoImplicit false

namespace AwsS3fs

open CLib Runs

/-! ### The function with its buffers -/

/-- Why `CreateAwsSignature` does not return. -/
inductive SigningFault
  | assertion
  | outOfBounds
deriving DecidableEq

/-- A write to the end of a string. -/
def appendTo {size : ℕ} (dest : BoundedString size) (src : Bytes) :
    Except SigningFault (BoundedString size) :=
  (dest.strcat src).elim (.error .outOfBounds) .ok

/-- The variables of the loop over the headers. -/
structure SigningState where
  amzHeaders : BoundedString 2048
  messageLength : ℤ
  contentMd5 : Option Bytes
  contentType : Option Bytes
  dateString : Option Bytes

/-- `messageLength` after a header. -/
def countHeader (messageLength : ℤ) (header : Bytes) : ℤ :=
  if beginsWith (ascii "x-amz-") header then wrapInt (messageLength + (header.length + 1))
  else messageLength

/-- One header in the loop, up to the assertion. -/
def SigningState.storeHeader (s : SigningState) (header : Bytes) :
    Except SigningFault SigningState :=
  let s := { s with messageLength := countHeader s.messageLength header }
  if beginsWith (ascii "x-amz-") header then do
    let amzHeaders ← appendTo s.amzHeaders (lowerKey header)
    let amzHeaders ← appendTo amzHeaders [10]
    return { s with amzHeaders := amzHeaders }
  else if beginsWith (ascii "Content-MD5") header then
    return { s with contentMd5 := some (getHeaderStringValue header) }
  else if beginsWith (ascii "Content-Type") header then
    return { s with contentType := some (getHeaderStringValue header) }
  else if beginsWith (ascii "Date") header then
    return { s with dateString := some (getHeaderStringValue header) }
  else return s

/-- One header in the loop. -/
def SigningState.signHeader (s : SigningState) (header : Bytes) :
    Except SigningFault SigningState := do
  let s ← s.storeHeader header
  if s.messageLength < 4096 - 200 then return s else .error .assertion

/-- `AddHeaderValueToSignString`: the message, and how much longer it is. -/
def addHeaderValueToSignString (messageToSign : BoundedString 4096) (headerValue : Option Bytes) :
    Except SigningFault (BoundedString 4096 × ℕ) := do
  let messageToSign ← match headerValue with
    | some value => appendTo messageToSign value
    | none => pure messageToSign
  let messageToSign ← appendTo messageToSign [10]
  return (messageToSign, (headerValue.getD []).length + 1)

/-- What `CreateAwsSignature` adds to the message after the loop. -/
def completeMessage (messageToSign : BoundedString 4096) (s : SigningState) (resource : Bytes) :
    Except SigningFault (BoundedString 4096) := do
  let added ← addHeaderValueToSignString messageToSign s.contentMd5
  let added ← addHeaderValueToSignString added.1 s.contentType
  let added ← addHeaderValueToSignString added.1 s.dateString
  let messageToSign ← appendTo added.1 s.amzHeaders.text
  appendTo messageToSign resource

/-- `CreateAwsSignature`, up to the signature itself: `messageToSign`. -/
def signMessage (httpMethod : Bytes) (headers : List Bytes) (region : BucketRegion)
    (bucket path : Bytes) : Except SigningFault (BoundedString 4096) := do
  let messageToSign ← appendTo (.empty (by decide)) (httpMethod ++ [10])
  let s ← headers.foldlM SigningState.signHeader
    ⟨.empty (by decide), wrapInt messageToSign.text.length, none, none, none⟩
  completeMessage messageToSign s (canonicalResource region bucket path)

/-! ### Sizes -/

/-- The assertion holds for every header, if the count is `messageLength` before them. -/
def AssertionsPass (messageLength : ℤ) : List Bytes → Prop
  | [] => True
  | header :: headers =>
      countHeader messageLength header < 4096 - 200 ∧
        AssertionsPass (countHeader messageLength header) headers

/-- **The size of the headers of Amazon**, with their line ends. -/
def amzSize (headers : List Bytes) : ℕ :=
  ((headers.filter (beginsWith (ascii "x-amz-"))).map fun header => header.length + 1).sum

/-- The value of the last header whose name begins with a word. -/
def lastValue (word : Bytes) (headers : List Bytes) : Bytes :=
  ((headers.filter (beginsWith word)).getLast?.map getHeaderStringValue).getD []

/-- **The size of the message**: the verb and three values on lines of their own, the headers of
Amazon and the resource. -/
def signedSize (httpMethod : Bytes) (headers : List Bytes) (region : BucketRegion)
    (bucket path : Bytes) : ℕ :=
  httpMethod.length + (lastValue (ascii "Content-MD5") headers).length +
    (lastValue (ascii "Content-Type") headers).length + (lastValue (ascii "Date") headers).length +
      4 + amzSize headers + (canonicalResource region bucket path).length

/-! ### Writes -/

section Append

variable {size : ℕ} {dest : BoundedString size}

theorem appendTo_of_lt {src : Bytes} (h : (dest.text ++ src).length < size) :
    appendTo dest src = .ok ⟨dest.text ++ src, h⟩ := by
  rw [appendTo, BoundedString.strcat_of_lt h]
  rfl

theorem appendTo_of_le {src : Bytes} (h : size ≤ (dest.text ++ src).length) :
    appendTo dest src = .error .outOfBounds := by
  rw [appendTo, BoundedString.strcat_of_le h]
  rfl

/-- Two writes, one after the other. -/
theorem appendTo_bind (dest : BoundedString size) (a b : Bytes) :
    (appendTo dest a >>= fun dest => appendTo dest b) = appendTo dest (a ++ b) := by
  rw [appendTo, appendTo, ← BoundedString.strcat_strcat]
  cases dest.strcat a <;> rfl

end Append

/-- What `AddHeaderValueToSignString` writes: the value, if there is one, and a line end. -/
theorem addHeaderValueToSignString_eq (messageToSign : BoundedString 4096)
    (headerValue : Option Bytes) :
    addHeaderValueToSignString messageToSign headerValue =
      (appendTo messageToSign (headerValue.getD [] ++ [10])).map fun message =>
        (message, (headerValue.getD []).length + 1) := by
  rw [← appendTo_bind]
  cases headerValue with
  | none =>
      have hnothing : appendTo messageToSign [] = .ok messageToSign := by
        rw [appendTo_of_lt (by rw [List.append_nil]; exact messageToSign.fits)]
        simp only [List.append_nil]
      rw [Option.getD_none, hnothing]
      rfl
  | some value =>
      rw [Option.getD_some, addHeaderValueToSignString]
      cases appendTo messageToSign value with
      | error fault => rfl
      | ok message => cases appendTo message [10] <;> rfl

/-- What is written after the loop. -/
theorem completeMessage_eq (messageToSign : BoundedString 4096) (s : SigningState)
    (resource : Bytes) :
    completeMessage messageToSign s resource =
      appendTo messageToSign (s.contentMd5.getD [] ++ [10] ++ (s.contentType.getD [] ++ [10] ++
        (s.dateString.getD [] ++ [10] ++ (s.amzHeaders.text ++ resource)))) := by
  have hvalue : ∀ {f : BoundedString 4096 → Except SigningFault (BoundedString 4096)} {src : Bytes}
      (message : BoundedString 4096) (value : Option Bytes), (∀ d, f d = appendTo d src) →
      (addHeaderValueToSignString message value >>= fun added => f added.1) =
        appendTo message (value.getD [] ++ [10] ++ src) := by
    intro f src message value hf
    rw [addHeaderValueToSignString_eq, ← appendTo_bind message (value.getD [] ++ [10]) src]
    cases appendTo message (value.getD [] ++ [10]) with
    | error fault => rfl
    | ok d => exact hf d
  let afterDate : BoundedString 4096 → Except SigningFault (BoundedString 4096) := fun message =>
    appendTo message s.amzHeaders.text >>= fun message => appendTo message resource
  let afterType : BoundedString 4096 → Except SigningFault (BoundedString 4096) := fun message =>
    addHeaderValueToSignString message s.dateString >>= fun added => afterDate added.1
  let afterMd5 : BoundedString 4096 → Except SigningFault (BoundedString 4096) := fun message =>
    addHeaderValueToSignString message s.contentType >>= fun added => afterType added.1
  have hdate : ∀ d, afterDate d = _ := fun d => appendTo_bind d s.amzHeaders.text resource
  have htype : ∀ d, afterType d = _ := fun d => hvalue d s.dateString hdate
  have hmd5 : ∀ d, afterMd5 d = _ := fun d => hvalue d s.contentType htype
  exact hvalue messageToSign s.contentMd5 hmd5

/-! ### The loop -/

/-- The variables hold what is put into the message. -/
structure SigningState.Holds (s : SigningState) (m : SignedMessage) : Prop where
  amzHeaders : s.amzHeaders.text = m.amzHeaders
  contentMd5 : s.contentMd5.getD [] = m.contentMd5
  contentType : s.contentType.getD [] = m.contentType
  dateString : s.dateString.getD [] = m.date

/-- **One header**: it is stored if it fits. -/
theorem SigningState.Holds.storeHeader {s : SigningState} {m : SignedMessage} (h : s.Holds m)
    (header : Bytes) :
    ((m.addHeader header).amzHeaders.length < 2048 → ∃ s', s.storeHeader header = .ok s' ∧
        s'.Holds (m.addHeader header) ∧
        s'.messageLength = countHeader s.messageLength header) ∧
      (2048 ≤ (m.addHeader header).amzHeaders.length →
        s.storeHeader header = .error .outOfBounds) := by
  rw [SigningState.storeHeader, SignedMessage.addHeader]
  by_cases hamz : beginsWith (ascii "x-amz-") header = true
  · simp only [if_pos hamz]
    rw [← bind_assoc, appendTo_bind, ← h.amzHeaders]
    constructor
    · intro hlt
      rw [appendTo_of_lt hlt]
      exact ⟨_, rfl, ⟨rfl, h.contentMd5, h.contentType, h.dateString⟩, rfl⟩
    · intro hle
      rw [appendTo_of_le hle]
      rfl
  · simp only [if_neg hamz]
    have hfits : ¬ 2048 ≤ m.amzHeaders.length := by
      rw [← h.amzHeaders]
      exact Nat.not_le.2 s.amzHeaders.fits
    obtain ⟨hheaders, hmd5, htype, hdate⟩ := h
    split
    · exact ⟨fun _ => ⟨_, rfl, ⟨hheaders, rfl, htype, hdate⟩, rfl⟩, fun hle => absurd hle hfits⟩
    · split
      · exact ⟨fun _ => ⟨_, rfl, ⟨hheaders, hmd5, rfl, hdate⟩, rfl⟩, fun hle => absurd hle hfits⟩
      · split
        · exact ⟨fun _ => ⟨_, rfl, ⟨hheaders, hmd5, htype, rfl⟩, rfl⟩, fun hle => absurd hle hfits⟩
        · exact ⟨fun _ => ⟨_, rfl, ⟨hheaders, hmd5, htype, hdate⟩, rfl⟩,
            fun hle => absurd hle hfits⟩

/-- The headers of Amazon do not get fewer. -/
theorem prefix_amzHeaders_foldl (headers : List Bytes) (m : SignedMessage) :
    m.amzHeaders <+: (headers.foldl SignedMessage.addHeader m).amzHeaders := by
  induction headers generalizing m with
  | nil => exact List.prefix_rfl
  | cons header headers ih =>
      refine List.IsPrefix.trans ?_ (ih (m.addHeader header))
      rw [SignedMessage.addHeader]
      split
      · exact List.prefix_append _ _
      · split
        · exact List.prefix_rfl
        · split
          · exact List.prefix_rfl
          · split <;> exact List.prefix_rfl

/-- **The loop over the headers**, if the assertion holds for each of them: they are stored if they
fit. -/
theorem foldlM_signHeader {s : SigningState} {m : SignedMessage} (h : s.Holds m)
    {headers : List Bytes} (hassert : AssertionsPass s.messageLength headers) :
    ((headers.foldl SignedMessage.addHeader m).amzHeaders.length < 2048 →
        ∃ s', headers.foldlM SigningState.signHeader s = .ok s' ∧
          s'.Holds (headers.foldl SignedMessage.addHeader m)) ∧
      (2048 ≤ (headers.foldl SignedMessage.addHeader m).amzHeaders.length →
        headers.foldlM SigningState.signHeader s = .error .outOfBounds) := by
  induction headers generalizing s m with
  | nil =>
      refine ⟨fun _ => ⟨s, rfl, h⟩, fun hle => ?_⟩
      rw [List.foldl_nil, ← h.amzHeaders] at hle
      exact absurd hle (Nat.not_le.2 s.amzHeaders.fits)
  | cons header headers ih =>
      obtain ⟨hheader, hassert⟩ := hassert
      obtain ⟨hstored, hfault⟩ := h.storeHeader header
      rw [List.foldl_cons, List.foldlM_cons]
      rcases Nat.lt_or_ge (m.addHeader header).amzHeaders.length 2048 with hlt | hge
      · obtain ⟨s', hs', hholds, hlength⟩ := hstored hlt
        have hsigned : s.signHeader header = .ok s' := by
          rw [SigningState.signHeader, hs']
          exact if_pos (hlength ▸ hheader)
        rw [hsigned]
        exact ih hholds (hlength ▸ hassert)
      · have hle := hge.trans (prefix_amzHeaders_foldl headers (m.addHeader header)).length_le
        have hsigned : s.signHeader header = .error .outOfBounds := by
          rw [SigningState.signHeader, hfault hge]
          rfl
        rw [hsigned]
        exact ⟨fun hlt => absurd hle (Nat.not_le.2 hlt), fun _ => rfl⟩

/-- **What is signed**, if the assertion holds for every header, or that it does not fit. -/
theorem signMessage_eq (httpMethod : Bytes) {headers : List Bytes} (region : BucketRegion)
    (bucket path : Bytes)
    (hassert : AssertionsPass (wrapInt (httpMethod.length + 1)) headers) :
    signMessage httpMethod headers region bucket path =
      if (createAwsSignature httpMethod headers region bucket path).amzHeaders.length < 2048 then
        appendTo (.empty (by decide))
          (createAwsSignature httpMethod headers region bucket path).text
      else .error .outOfBounds := by
  have hlong : httpMethod.length + 1 ≥ 4096 →
      4096 ≤ (createAwsSignature httpMethod headers region bucket path).text.length := by
    intro hge
    rw [SignedMessage.text, httpMethod_createAwsSignature]
    simp only [List.length_append, List.length_cons]
    omega
  have hempty : ((BoundedString.empty (by decide : 0 < 4096)).text ++ (httpMethod ++ [10])).length =
      httpMethod.length + 1 := by
    rw [BoundedString.empty, List.nil_append, List.length_append, List.length_singleton]
  rw [signMessage]
  rcases Nat.lt_or_ge (httpMethod.length + 1) 4096 with hlt | hge
  · rw [appendTo_of_lt (hempty.trans_lt hlt)]
    have hstart : SigningState.Holds ⟨.empty (by decide), wrapInt (httpMethod.length + 1), none,
        none, none⟩ ⟨httpMethod, [], [], [], [], []⟩ := ⟨rfl, rfl, rfl, rfl⟩
    have hpass : AssertionsPass (SigningState.messageLength ⟨.empty (by decide),
        wrapInt (httpMethod.length + 1), none, none, none⟩) headers := by
      dsimp only
      exact hassert
    obtain ⟨hstored, hfault⟩ := foldlM_signHeader hstart hpass
    have hcount : wrapInt ((((BoundedString.empty (by decide : 0 < 4096)).text ++
        (httpMethod ++ [10])).length : ℕ) : ℤ) = wrapInt (httpMethod.length + 1) := by
      rw [hempty, Nat.cast_add, Nat.cast_one]
    rw [ok_bind]
    dsimp only
    rw [hcount]
    split
    · next hfits =>
      obtain ⟨s, hs, hholds⟩ := hstored hfits
      have htext : (createAwsSignature httpMethod headers region bucket path).text =
          (httpMethod ++ [10]) ++ (s.contentMd5.getD [] ++ [10] ++ (s.contentType.getD [] ++ [10] ++
            (s.dateString.getD [] ++ [10] ++
              (s.amzHeaders.text ++ canonicalResource region bucket path)))) := by
        rw [SignedMessage.text, httpMethod_createAwsSignature, hholds.contentMd5,
          hholds.contentType, hholds.dateString, hholds.amzHeaders]
        simp [createAwsSignature]
      rw [hs, ok_bind, completeMessage_eq, htext, ← appendTo_bind _ (httpMethod ++ [10]),
        appendTo_of_lt (hempty.trans_lt hlt), ok_bind]
    · next hlarge =>
      rw [hfault (Nat.not_lt.1 hlarge)]
      rfl
  · rw [appendTo_of_le (hge.trans_eq hempty.symm)]
    split
    · rw [appendTo_of_le (hlong hge)]
      rfl
    · rfl

/-! ### Sizes of the parts -/

theorem length_lowerKey (header : Bytes) : (lowerKey header).length = header.length := by
  rw [lowerKey, List.length_append, List.length_map, ← List.length_append,
    List.takeWhile_append_dropWhile]

/-- The size of the headers of Amazon in the message. -/
theorem length_amzHeaders (httpMethod : Bytes) (headers : List Bytes) (region : BucketRegion)
    (bucket path : Bytes) :
    (createAwsSignature httpMethod headers region bucket path).amzHeaders.length =
      amzSize headers := by
  rw [amzHeaders_createAwsSignature, amzSize, List.length_flatMap, List.map_map]
  refine congrArg List.sum (List.map_congr_left fun header _ => ?_)
  rw [Function.comp_apply, List.length_append, length_lowerKey]
  rfl

/-- A header begins with one of two words that differ. -/
theorem beginsWith_eq_false {word word' header : Bytes} (n : ℕ) (hn : n ≤ word.length)
    (hn' : n ≤ word'.length) (hdiffer : (word.map tolower).take n ≠ (word'.map tolower).take n)
    (h : beginsWith word header = true) : beginsWith word' header = false := by
  by_contra hboth
  rw [Bool.not_eq_false, beginsWith, beq_iff_eq] at hboth
  rw [beginsWith, beq_iff_eq] at h
  refine hdiffer ?_
  rw [← h, ← hboth, ← List.map_take, ← List.map_take, List.take_take, List.take_take,
    Nat.min_eq_left hn, Nat.min_eq_left hn']

/-- The last header decides if it has the name. -/
theorem lastValue_append (word : Bytes) (headers : List Bytes) (header : Bytes) :
    lastValue word (headers ++ [header]) =
      if beginsWith word header then getHeaderStringValue header else lastValue word headers := by
  rw [lastValue, List.filter_append, List.filter_singleton]
  cases beginsWith word header with
  | false => simp [lastValue]
  | true => simp

/-- The values in the message are those of the last headers with these names. -/
theorem values_createAwsSignature (httpMethod : Bytes) (headers : List Bytes)
    (region : BucketRegion) (bucket path : Bytes) :
    (createAwsSignature httpMethod headers region bucket path).contentMd5 =
        lastValue (ascii "Content-MD5") headers ∧
      (createAwsSignature httpMethod headers region bucket path).contentType =
        lastValue (ascii "Content-Type") headers ∧
      (createAwsSignature httpMethod headers region bucket path).date =
        lastValue (ascii "Date") headers := by
  simp only [createAwsSignature]
  induction headers using List.reverseRecOn with
  | nil => exact ⟨rfl, rfl, rfl⟩
  | append_singleton headers header ih =>
      rw [List.foldl_append, List.foldl_cons, List.foldl_nil, lastValue_append, lastValue_append,
        lastValue_append]
      generalize headers.foldl SignedMessage.addHeader ⟨httpMethod, [], [], [], [], []⟩ = m at ih ⊢
      obtain ⟨hmd5, htype, hdate⟩ := ih
      rw [SignedMessage.addHeader]
      by_cases hamz : beginsWith (ascii "x-amz-") header = true
      · have hnot : ∀ word ∈ [ascii "Content-MD5", ascii "Content-Type", ascii "Date"],
            beginsWith word header = false := fun word hword =>
          beginsWith_eq_false 1 (by decide +kernel) (by revert word; decide +kernel)
            (by revert word; decide +kernel) hamz
        rw [if_pos hamz, hnot _ (by simp), hnot _ (by simp), hnot _ (by simp)]
        exact ⟨hmd5, htype, hdate⟩
      · rw [if_neg hamz]
        by_cases hisMd5 : beginsWith (ascii "Content-MD5") header = true
        · -- the two names that begin with the same word differ behind it
          have hnotType : beginsWith (ascii "Content-Type") header = false :=
            beginsWith_eq_false 9 (by decide +kernel) (by decide +kernel) (by decide +kernel) hisMd5
          have hnotDate : beginsWith (ascii "Date") header = false :=
            beginsWith_eq_false 1 (by decide +kernel) (by decide +kernel) (by decide +kernel) hisMd5
          rw [if_pos hisMd5, if_pos hisMd5, hnotType, hnotDate]
          exact ⟨rfl, htype, hdate⟩
        · rw [if_neg hisMd5, if_neg hisMd5]
          by_cases hisType : beginsWith (ascii "Content-Type") header = true
          · have hnotDate : beginsWith (ascii "Date") header = false :=
              beginsWith_eq_false 1 (by decide +kernel) (by decide +kernel) (by decide +kernel)
                hisType
            rw [if_pos hisType, if_pos hisType, hnotDate]
            exact ⟨hmd5, rfl, hdate⟩
          · rw [if_neg hisType, if_neg hisType]
            split
            · exact ⟨hmd5, htype, rfl⟩
            · exact ⟨hmd5, htype, hdate⟩

/-- The size of the message. -/
theorem length_text_createAwsSignature (httpMethod : Bytes) (headers : List Bytes)
    (region : BucketRegion) (bucket path : Bytes) :
    (createAwsSignature httpMethod headers region bucket path).text.length =
      signedSize httpMethod headers region bucket path := by
  obtain ⟨hmd5, htype, hdate⟩ := values_createAwsSignature httpMethod headers region bucket path
  have hamz := length_amzHeaders httpMethod headers region bucket path
  have hresource : (createAwsSignature httpMethod headers region bucket path).resource =
      canonicalResource region bucket path := rfl
  rw [SignedMessage.text, httpMethod_createAwsSignature, hmd5, htype, hdate, hresource, signedSize,
    ← hamz]
  simp only [List.length_append, List.length_cons]
  omega

/-- **When all writes are in bounds**, if the assertion holds for every header. -/
theorem signMessage_inBounds_iff (httpMethod : Bytes) (headers : List Bytes) (region : BucketRegion)
    (bucket path : Bytes) (hassert : AssertionsPass (wrapInt (httpMethod.length + 1)) headers) :
    signMessage httpMethod headers region bucket path ≠ .error .outOfBounds ↔
      amzSize headers ≤ 2047 ∧ signedSize httpMethod headers region bucket path ≤ 4095 := by
  have hempty : ((BoundedString.empty (by decide : 0 < 4096)).text ++
      (createAwsSignature httpMethod headers region bucket path).text).length =
        signedSize httpMethod headers region bucket path := by
    rw [BoundedString.empty, List.nil_append, length_text_createAwsSignature]
  rw [signMessage_eq httpMethod region bucket path hassert, length_amzHeaders]
  rcases Nat.lt_or_ge (amzSize headers) 2048 with hlt | hge
  · rw [if_pos hlt]
    rcases Nat.lt_or_ge (signedSize httpMethod headers region bucket path) 4096 with hsize | hsize
    · rw [appendTo_of_lt (hempty.trans_lt hsize)]
      exact iff_of_true (fun h => by cases h) ⟨by omega, by omega⟩
    · rw [appendTo_of_le (hsize.trans_eq hempty.symm)]
      exact iff_of_false (fun h => h rfl) fun h => by omega
  · rw [if_neg (Nat.not_lt.2 hge)]
    exact iff_of_false (fun h => h rfl) fun h => by omega

/-- A request with one header of Amazon. -/
theorem signMessage_inBounds_uid :
    signMessage (ascii "PUT") [ascii "x-amz-meta-uid:1000"] .oregon (ascii "b") (ascii "/a") ≠
      .error .outOfBounds :=
  (signMessage_inBounds_iff (ascii "PUT") [ascii "x-amz-meta-uid:1000"] .oregon (ascii "b")
    (ascii "/a") ⟨by decide +kernel, trivial⟩).2 (by decide +kernel)

/-- A header of Amazon with a long value. -/
def longHeader : Bytes := ascii "x-amz-meta-a:" ++ List.replicate 2100 97

/-- **One header is enough** to write beyond the array for the headers of Amazon. -/
theorem signMessage_longHeader :
    AssertionsPass (wrapInt ((ascii "PUT").length + 1)) [longHeader] ∧
      signMessage (ascii "PUT") [longHeader] .oregon (ascii "b") (ascii "/a") =
        .error .outOfBounds := by
  have hassert : AssertionsPass (wrapInt ((ascii "PUT").length + 1)) [longHeader] :=
    ⟨by decide +kernel, trivial⟩
  refine ⟨hassert, ?_⟩
  rw [signMessage_eq _ _ _ _ hassert, length_amzHeaders, if_neg (by decide +kernel)]

end AwsS3fs
