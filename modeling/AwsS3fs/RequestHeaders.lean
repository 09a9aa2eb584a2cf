/-
**The headers of a request.**

`BuildS3Request` (`s3comms.c`) puts the headers of a request together: those that every request has,
the additional ones in the order of `strcasecmp`, and the signature.  It copies the first hundred
additional headers to an array and sorts that with `qsort`; `CreateAwsSignature` then goes over the
list, writes the names of the headers of Amazon in lower case where they stand, and appends the
signature.

How `qsort` sorts is not written down; it is a function of which only that is known that it sorts.

Main definitions:

* `AwsS3fs.qsortStrcmp`, `AwsS3fs.Sorts` — the order of headers, and a function that sorts them;
* `AwsS3fs.signHeaders`, `AwsS3fs.buildS3Request` — the two functions of `s3comms.c`;
* `AwsS3fs.HeadersInOrder` — **what a list of headers of a request is**.

Main results:

* `AwsS3fs.Sorts.eq_of_perm` — headers that differ are sorted in one way;
* `AwsS3fs.buildS3Request_inOrder` — **the headers are complete, and their order is of no
  importance**.
-/

import AwsS3fs.KeyedDigests
import AwsS3fs.RequestSignatures
import Mathlib.Data.List.Sort

set_option relaxedAutoImplicit false
set_option autoImplicit false

namespace AwsS3fs

open CLib

/-! ### Putting headers together -/

/-- The handle `S3COMM`. -/
structure S3Comm where
  region : BucketRegion
  bucket : Bytes
  keyId : Bytes
  secretKey : Bytes

/-- `BuildGenericHeader`, at a time that is printed as `date`. -/
def buildGenericHeader (date hostname : Bytes) : List Bytes :=
  [ascii "Host: " ++ hostname, ascii "Date: " ++ date, ascii "User-Agent: curl"]

/-- `qsort_strcmp( a, b ) <= 0`: the order of `strcasecmp`. -/
def qsortStrcmp (a b : Bytes) : Prop := a.map tolower ≤ b.map tolower

instance : DecidableRel qsortStrcmp := fun a b =>
  inferInstanceAs (Decidable (a.map tolower ≤ b.map tolower))

/-- **What is known of `qsort`**: it sorts. -/
structure Sorts (qsort : List Bytes → List Bytes) : Prop where
  perm : ∀ headers, (qsort headers).Perm headers
  sorted : ∀ headers, (qsort headers).Pairwise qsortStrcmp

/-- `headers` in `BuildS3Request`, before the signature is added. -/
def requestHeaders (qsort : List Bytes → List Bytes) (date hostname : Bytes)
    (additionalHeaders : List Bytes) : List Bytes :=
  buildGenericHeader date hostname ++ qsort (additionalHeaders.take 100)

/-- What the loop of `CreateAwsSignature` makes of a header in its place. -/
def convertHeader (header : Bytes) : Bytes :=
  if beginsWith (ascii "x-amz-") header then lowerKey header else header

/-- `awsHeader`. -/
def authorizationHeader (locals : HmacLocals) (keyId secretKey : Bytes) (message : SignedMessage) :
    Bytes :=
  ascii "Authorization: AWS " ++ keyId ++ 58 :: hmac locals message.text secretKey .sha1 .base64

/-- The headers that `CreateAwsSignature` returns. -/
def signHeaders (locals : HmacLocals) (httpMethod : Bytes) (headers : List Bytes)
    (region : BucketRegion) (bucket path keyId secretKey : Bytes) : List Bytes :=
  headers.map convertHeader ++
    [authorizationHeader locals keyId secretKey
      (createAwsSignature httpMethod headers region bucket path)]

/-- `BuildS3Request`.  What the variables of `HMAC` hold before is of no account for keys that are
not longer than a block. -/
def buildS3Request (qsort : List Bytes → List Bytes) (locals : HmacLocals) (date : Bytes)
    (s3 : S3Comm) (httpMethod hostname : Bytes) (additionalHeaders : List Bytes)
    (filename : Bytes) : List Bytes :=
  signHeaders locals httpMethod (requestHeaders qsort date hostname additionalHeaders) s3.region
    s3.bucket filename s3.keyId s3.secretKey

/-- A header with its name, which ends at the first colon, in lower case if it is one of Amazon. -/
def amzInLowerCase (header : Bytes) : Bytes :=
  if ascii "x-amz-" <+: header.map tolower then
    (header.takeWhile (· ≠ 58)).map tolower ++ header.dropWhile (· ≠ 58)
  else header

/-- **The headers of a request**: `Host`, `Date` and `User-Agent`, the additional ones in ascending
order, with the names of those of Amazon in lower case, and the authorization with the key and a
signature of the headers. -/
def HeadersInOrder (date hostname keyId : Bytes) (signature : List Bytes → Bytes)
    (additionalHeaders request : List Bytes) : Prop :=
  ∃ sorted : List Bytes, sorted.Perm additionalHeaders ∧
    (sorted.map amzInLowerCase).Pairwise (fun a b => a.map tolower < b.map tolower) ∧
    request =
      [ascii "Host: " ++ hostname, ascii "Date: " ++ date, ascii "User-Agent: curl"] ++
        sorted.map amzInLowerCase ++
        [ascii "Authorization: AWS " ++ keyId ++ ascii ":" ++
          signature ([ascii "Host: " ++ hostname, ascii "Date: " ++ date,
            ascii "User-Agent: curl"] ++ sorted)]

/-! ### Sorting -/

/-- Headers that differ, whatever the case of their letters, are sorted in one way. -/
theorem Sorts.eq_of_perm {qsort : List Bytes → List Bytes} (hsort : Sorts qsort)
    {headers headers' : List Bytes} (hnodup : (headers.map (·.map tolower)).Nodup)
    (hperm : headers'.Perm headers) : qsort headers' = qsort headers := by
  have hperm' : (qsort headers').Perm headers := (hsort.perm headers').trans hperm
  refine List.Perm.eq_of_pairwise (fun a b ha hb hab hba => ?_) (hsort.sorted headers')
    (hsort.sorted headers) (hperm'.trans (hsort.perm headers).symm)
  have hsame : a.map tolower = b.map tolower := List.le_antisymm hab hba
  exact List.inj_on_of_nodup_map hnodup (hperm'.mem_iff.1 ha)
    ((hsort.perm headers).mem_iff.1 hb) hsame

/-- The conversion of a header does not change more than the case of its letters. -/
@[simp]
theorem map_tolower_amzInLowerCase (header : Bytes) :
    (amzInLowerCase header).map tolower = header.map tolower := by
  have hidem : tolower ∘ tolower = tolower := funext tolower_tolower
  rw [amzInLowerCase]
  split
  · rw [List.map_append, List.map_map, hidem, ← List.map_append, List.takeWhile_append_dropWhile]
  · rfl

theorem beginsWith_amz_iff (header : Bytes) :
    beginsWith (ascii "x-amz-") header = true ↔ ascii "x-amz-" <+: header.map tolower := by
  have hlower : (ascii "x-amz-").map tolower = ascii "x-amz-" := by decide +kernel
  rw [beginsWith, beq_iff_eq, hlower, List.prefix_iff_eq_take, List.map_take, eq_comm]

/-- What the loop makes of a header. -/
theorem convertHeader_eq (header : Bytes) : convertHeader header = amzInLowerCase header := by
  rw [convertHeader, amzInLowerCase, lowerKey]
  exact if_congr (beginsWith_amz_iff header) rfl rfl

theorem beginsWith_append (word header rest : Bytes) (h : word.length ≤ header.length) :
    beginsWith word (header ++ rest) = beginsWith word header := by
  rw [beginsWith, beginsWith, List.take_append_of_le_length h]

/-- The headers that every request has are not those of Amazon. -/
theorem not_amz_buildGenericHeader {date hostname header : Bytes}
    (h : header ∈ buildGenericHeader date hostname) :
    beginsWith (ascii "x-amz-") header = false := by
  simp only [buildGenericHeader, List.mem_cons, List.not_mem_nil, or_false] at h
  rcases h with rfl | rfl | rfl
  · rw [beginsWith_append _ _ _ (by decide +kernel)]
    decide +kernel
  · rw [beginsWith_append _ _ _ (by decide +kernel)]
    decide +kernel
  · decide +kernel

/-- The conversion leaves the headers that every request has as they are. -/
theorem map_convertHeader_buildGenericHeader (date hostname : Bytes) :
    (buildGenericHeader date hostname).map convertHeader = buildGenericHeader date hostname := by
  refine (List.map_congr_left fun header hheader => ?_).trans (List.map_id _)
  rw [convertHeader, not_amz_buildGenericHeader hheader, if_neg Bool.false_ne_true]
  rfl

theorem authorizationHeader_eq (locals : HmacLocals) (keyId secretKey : Bytes)
    (message : SignedMessage) :
    authorizationHeader locals keyId secretKey message =
      ascii "Authorization: AWS " ++ keyId ++ ascii ":" ++
        hmac locals message.text secretKey .sha1 .base64 := by
  have hcolon : ascii ":" = [58] := by decide +kernel
  rw [authorizationHeader, hcolon, List.append_assoc _ [58], List.singleton_append]

/-! ### BuildS3Request -/

/-- **The headers are complete, and their order is of no importance.**  For headers that differ,
whatever the case of their letters, `BuildS3Request` returns all of them, and it returns the same
ones, signature included, when they are given in another order. -/
theorem buildS3Request_inOrder {qsort : List Bytes → List Bytes} (hsort : Sorts qsort)
    (locals : HmacLocals) (date : Bytes) (s3 : S3Comm) (httpMethod hostname filename : Bytes)
    {additionalHeaders : List Bytes} (hlength : additionalHeaders.length ≤ 100)
    (hnodup : (additionalHeaders.map (·.map tolower)).Nodup) :
    HeadersInOrder date hostname s3.keyId
        (fun headers => hmac locals
          (createAwsSignature httpMethod headers s3.region s3.bucket filename).text s3.secretKey
          .sha1 .base64)
        additionalHeaders
        (buildS3Request qsort locals date s3 httpMethod hostname additionalHeaders filename) ∧
      ∀ permuted : List Bytes, permuted.Perm additionalHeaders →
        buildS3Request qsort locals date s3 httpMethod hostname permuted filename =
          buildS3Request qsort locals date s3 httpMethod hostname additionalHeaders filename := by
  constructor
  · refine ⟨qsort additionalHeaders, hsort.perm _, ?_, ?_⟩
    · rw [List.pairwise_map]
      simp only [map_tolower_amzInLowerCase]
      have hdiffer : (qsort additionalHeaders).Pairwise fun a b => a.map tolower ≠ b.map tolower :=
        List.pairwise_map.1 (((hsort.perm _).map _).nodup_iff.2 hnodup)
      refine ((hsort.sorted _).and hdiffer).imp fun ⟨hle, hne⟩ => ?_
      by_contra hnot
      exact hne (List.le_antisymm hle (List.not_lt.1 hnot))
    · rw [buildS3Request, requestHeaders, List.take_of_length_le hlength, signHeaders,
        List.map_append, map_convertHeader_buildGenericHeader, authorizationHeader_eq,
        List.map_congr_left fun header _ => convertHeader_eq header, buildGenericHeader]
  · intro permuted hperm
    rw [buildS3Request, buildS3Request, requestHeaders, requestHeaders,
      List.take_of_length_le hlength, List.take_of_length_le (hperm.length_eq.trans_le hlength),
      hsort.eq_of_perm hnodup hperm]

instance : Std.Total qsortStrcmp := ⟨fun a b => List.le_total (a.map tolower) (b.map tolower)⟩

instance : IsTrans Bytes qsortStrcmp := ⟨fun _ _ _ => List.le_trans⟩

/-- A function that sorts. -/
def sortHeaders (headers : List Bytes) : List Bytes := headers.insertionSort qsortStrcmp

theorem sorts_sortHeaders : Sorts sortHeaders where
  perm headers := List.perm_insertionSort qsortStrcmp headers
  sorted headers := List.pairwise_insertionSort qsortStrcmp headers

/-- A handle for a bucket with a short name. -/
def smallHandle : S3Comm := ⟨.oregon, ascii "b", ascii "key", ascii "secret"⟩

/-- A request with two additional headers, in either order. -/
theorem buildS3Request_inOrder_two :
    HeadersInOrder (ascii "now") (ascii "host") (ascii "key")
        (fun headers => hmac .zero
          (createAwsSignature (ascii "HEAD") headers .oregon (ascii "b") (ascii "/a")).text
          (ascii "secret") .sha1 .base64)
        [ascii "X-AMZ-Meta: b", ascii "Content-Type: a"]
        (buildS3Request sortHeaders .zero (ascii "now") smallHandle (ascii "HEAD") (ascii "host")
          [ascii "X-AMZ-Meta: b", ascii "Content-Type: a"] (ascii "/a")) ∧
      buildS3Request sortHeaders .zero (ascii "now") smallHandle (ascii "HEAD") (ascii "host")
          [ascii "Content-Type: a", ascii "X-AMZ-Meta: b"] (ascii "/a") =
        buildS3Request sortHeaders .zero (ascii "now") smallHandle (ascii "HEAD") (ascii "host")
          [ascii "X-AMZ-Meta: b", ascii "Content-Type: a"] (ascii "/a") := by
  have hlength : [ascii "X-AMZ-Meta: b", ascii "Content-Type: a"].length ≤ 100 := by decide
  have hrequest := buildS3Request_inOrder sorts_sortHeaders .zero (ascii "now") smallHandle
    (ascii "HEAD") (ascii "host") (ascii "/a") hlength (by decide +kernel)
  exact ⟨hrequest.1, hrequest.2 _ (.swap _ _ _)⟩

end AwsS3fs
