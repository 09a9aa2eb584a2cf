/-
**What is signed and what is sent.**

A request to the storage carries a signature, which `CreateAwsSignature` (`s3comms.c`) makes from
the HTTP verb, some of the headers and the resource.  The storage makes it again from the request
that arrives, so the verb and the resource that were signed have to be those that curl sends.  There
are four places that set up both: `s3_SubmitS3Request` and `s3_SubmitS3PutRequest` (`s3comms.c`),
and `BeginDownload` and `BeginUpload` (`downloadqueue.c`), which take the URL of a file of the cache
apart for it.

Main definitions:

* `AwsS3fs.SignedMessage`, `AwsS3fs.createAwsSignature` — the message that is signed;
* `AwsS3fs.Curl` — the options that decide about the verb and the URL of a request;
* `AwsS3fs.S3Call`, `AwsS3fs.S3Call.issue` — the four places;
* `AwsS3fs.Addresses` — the resource that a URL stands for;
* `AwsS3fs.SignedAsSent` — what is signed is what is sent.

Main results:

* `AwsS3fs.verb_setVerb_iff` — the verbs that are sent as they are;
* `AwsS3fs.addresses_submitS3Url_iff`, `AwsS3fs.addresses_prependHttpsToPath_iff` — the resources
  that are right;
* `AwsS3fs.signedAsSent_iff` — **when what is signed is what is sent**.
-/

import AwsS3fs.ObjectUrls

set_option relaxedAutoImplicit false
set_option autoImplicit false

namespace AwsS3fs

open CLib

/-! ### What is signed -/

/-- The message that is signed, part by part. -/
structure SignedMessage where
  httpMethod : Bytes
  contentMd5 : Bytes
  contentType : Bytes
  date : Bytes
  amzHeaders : Bytes
  resource : Bytes

/-- `messageToSign`. -/
def SignedMessage.text (m : SignedMessage) : Bytes :=
  m.httpMethod ++ 10 :: (m.contentMd5 ++ 10 :: (m.contentType ++ 10 :: (m.date ++
    10 :: (m.amzHeaders ++ m.resource))))

/-- `strncasecmp( header, word, strlen( word ) ) == 0`. -/
def beginsWith (word header : Bytes) : Bool :=
  (header.take word.length).map tolower == word.map tolower

/-- `GetHeaderStringValue`. -/
def getHeaderStringValue (header : Bytes) : Bytes :=
  ((header.dropWhile (· ≠ 58)).drop 1).dropWhile isspace

/-- A header with its key in lower case. -/
def lowerKey (header : Bytes) : Bytes :=
  (header.takeWhile (· ≠ 58)).map tolower ++ header.dropWhile (· ≠ 58)

/-- One header in the loop of `CreateAwsSignature`. -/
def SignedMessage.addHeader (m : SignedMessage) (header : Bytes) : SignedMessage :=
  if beginsWith (ascii "x-amz-") header then
    { m with amzHeaders := m.amzHeaders ++ (lowerKey header ++ [10]) }
  else if beginsWith (ascii "Content-MD5") header then
    { m with contentMd5 := getHeaderStringValue header }
  else if beginsWith (ascii "Content-Type") header then
    { m with contentType := getHeaderStringValue header }
  else if beginsWith (ascii "Date") header then { m with date := getHeaderStringValue header }
  else m

/-- `SignablePath`. -/
def signablePath (path : Bytes) : Bytes := path.takeWhile (· ≠ 63)

/-- The resource in the message. -/
def canonicalResource (region : BucketRegion) (bucket path : Bytes) : Bytes :=
  if region ≠ .usStandard then 47 :: (bucket ++ signablePath path) else signablePath path

/-- `CreateAwsSignature`, up to the signature itself.  The headers are those that `BuildS3Request`
has put together. -/
def createAwsSignature (httpMethod : Bytes) (headers : List Bytes) (region : BucketRegion)
    (bucket path : Bytes) : SignedMessage :=
  { headers.foldl SignedMessage.addHeader ⟨httpMethod, [], [], [], [], []⟩ with
    resource := canonicalResource region bucket path }

/-! ### What is sent -/

/-- The options of a curl handle that decide about the verb and the URL. -/
structure Curl where
  method : Bytes
  customRequest : Option Bytes
  url : Bytes

namespace Curl

/-- `curl_easy_reset`. -/
def reset : Curl := ⟨ascii "GET", none, []⟩

/-- `CURLOPT_NOBODY`. -/
def noBody (curl : Curl) : Curl := { curl with method := ascii "HEAD" }

/-- `CURLOPT_UPLOAD`. -/
def upload (curl : Curl) : Curl := { curl with method := ascii "PUT" }

/-- The verb of the request. -/
def verb (curl : Curl) : Bytes := curl.customRequest.getD curl.method

/-- The options that `s3_SubmitS3Request` sets for a verb. -/
def setVerb (httpVerb : Bytes) : Curl :=
  if httpVerb = ascii "HEAD" ∨ httpVerb = ascii "DELETE" ∨ httpVerb = ascii "POST" then
    if httpVerb = ascii "DELETE" then { reset.noBody with customRequest := some (ascii "DELETE") }
    else if httpVerb = ascii "POST" then { reset.noBody with customRequest := some (ascii "POST") }
    else reset.noBody
  else if httpVerb = ascii "GET" then reset
  else if httpVerb = ascii "PUT" then reset.noBody.upload
  else reset

end Curl

/-- A request: what its signature is made from, and the handle that performs it. -/
structure IssuedRequest where
  signed : SignedMessage
  sent : Curl

/-- `s3_SubmitS3Request`, up to the request. -/
def s3SubmitS3Request (region : BucketRegion) (bucket : Bytes) (headers : List Bytes)
    (httpVerb filename : Bytes) : IssuedRequest where
  signed := createAwsSignature httpVerb headers region bucket filename
  sent := { Curl.setVerb httpVerb with url := submitS3Url region bucket filename }

/-- `s3_SubmitS3PutRequest`, up to the request. -/
def s3SubmitS3PutRequest (region : BucketRegion) (bucket : Bytes) (headers : List Bytes)
    (filename : Bytes) : IssuedRequest where
  signed := createAwsSignature (ascii "HEAD") headers region bucket filename
  sent := { Curl.reset.upload with url := submitS3Url region bucket filename }

/-- The request of `BeginDownload`.  A path that is not found is `NULL` and ends the program. -/
def beginDownload (nl : Newlines) (bucket : Bytes) (headers : List Bytes) (remotePath : Bytes) :
    Option IssuedRequest := do
  let region ← hostnameToRegion remotePath
  let filepath ← extractFilepath nl remotePath
  return {
    signed := createAwsSignature (ascii "GET") headers region bucket filepath
    sent := { Curl.reset with url := remotePath } }

/-- A part of a file that is uploaded, with the number of the upload. -/
structure UploadPart where
  filesize : ℤ
  part : ℤ
  uploadId : Bytes

/-- `url` of `BeginUpload`. -/
def UploadPart.url (u : UploadPart) (filepath : Bytes) : Bytes :=
  if 1 < numberOfMultiparts u.filesize then
    filepath ++ (ascii "?partNumber=" ++ (formatInt u.part ++ (ascii "&uploadId=" ++ u.uploadId)))
  else filepath

/-- The request of `BeginUpload`. -/
def beginUpload (nl : Newlines) (bucket : Bytes) (headers : List Bytes) (remotePath : Bytes)
    (u : UploadPart) : Option IssuedRequest := do
  let region ← hostnameToRegion remotePath
  let filepath ← (extractHostAndFilepath nl remotePath).2
  return {
    signed := createAwsSignature (ascii "PUT") headers region bucket (u.url filepath)
    sent := { Curl.reset with url := remotePath } }

/-- A call that makes a request for a file of a bucket.  Downloads and uploads have the URL under
which the cache knows the file. -/
inductive S3Call
  | submit (httpVerb filename : Bytes)
  | submitPut (filename : Bytes)
  | download (path : Bytes)
  | upload (path : Bytes) (u : UploadPart)

/-- The request that a call makes. -/
def S3Call.issue (nl : Newlines) (region : BucketRegion) (bucket : Bytes) (headers : List Bytes) :
    S3Call → Option IssuedRequest
  | .submit httpVerb filename => some (s3SubmitS3Request region bucket headers httpVerb filename)
  | .submitPut filename => some (s3SubmitS3PutRequest region bucket headers filename)
  | .download path => beginDownload nl bucket headers (prependHttpsToPath region bucket path)
  | .upload path u => beginUpload nl bucket headers (prependHttpsToPath region bucket path) u

/-- A call for a file of the cache, whose bucket `ClientConnects` has accepted. -/
def S3Call.cached : S3Call → Bool
  | .submit .. | .submitPut _ => false
  | .download _ | .upload .. => true

/-! ### What a URL stands for -/

/-- The path in what follows the host in a URL: up to the query or the fragment. -/
def urlPath (rest : Bytes) : Bytes := rest.takeWhile fun ch => ch ≠ 63 ∧ ch ≠ 35

/-- **The resource that a URL stands for**: the bucket and the path relative to it.  In the region
`US_STANDARD` the bucket is the first component of the path. -/
def Addresses (region : BucketRegion) (bucket url resource : Bytes) : Prop :=
  ∃ rest relative, url = ascii "https://" ++ (getS3HostNameByRegion region bucket ++ rest) ∧
    (∀ ch ∈ rest.head?, ch = 47 ∨ ch = 63 ∨ ch = 35) ∧ (∀ ch ∈ relative.head?, ch = 47) ∧
    urlPath rest =
      (if region ≠ .usStandard then relative else 47 :: (bucket ++ relative)) ∧
    resource = 47 :: (bucket ++ relative)

/-- **What is signed is what is sent**: the verb, and the resource that the URL stands for. -/
def SignedAsSent (region : BucketRegion) (bucket : Bytes) (r : IssuedRequest) : Prop :=
  r.signed.httpMethod = r.sent.verb ∧ Addresses region bucket r.sent.url r.signed.resource

/-- The verbs that `s3_SubmitS3Request` knows. -/
def knownVerbs : List Bytes :=
  [ascii "HEAD", ascii "DELETE", ascii "POST", ascii "GET", ascii "PUT"]

/-- **Calls whose requests match their signatures.**  A download takes the path from its URL: what
is found of it, without the query, has to be the path of the URL. -/
def S3Call.Matches (nl : Newlines) (region : BucketRegion) (bucket : Bytes) : S3Call → Prop
  | .submit httpVerb filename =>
      httpVerb ∈ knownVerbs ∧ region ≠ .usStandard ∧ filename.head? = some 47 ∧
        35 ∉ signablePath filename
  | .download path =>
      path.head? = some 47 ∧
        (region = .usStandard → ∃ relative, (∀ ch ∈ relative.head?, ch = 47) ∧
          urlPath path = 47 :: (bucket ++ relative)) ∧
        ∃ before found tail, FoundPath nl path before found tail ∧ signablePath found = urlPath path
  | .submitPut _ | .upload .. => False

variable {nl : Newlines} {region : BucketRegion} {bucket path : Bytes} {headers : List Bytes}

/-! ### Verbs -/

@[simp]
theorem httpMethod_addHeader (m : SignedMessage) (header : Bytes) :
    (m.addHeader header).httpMethod = m.httpMethod := by
  unfold SignedMessage.addHeader
  split
  · rfl
  · split
    · rfl
    · split
      · rfl
      · split <;> rfl

/-- The verb that is signed. -/
@[simp]
theorem httpMethod_createAwsSignature (httpMethod : Bytes) :
    (createAwsSignature httpMethod headers region bucket path).httpMethod = httpMethod := by
  have hfold : ∀ m : SignedMessage,
      (headers.foldl SignedMessage.addHeader m).httpMethod = m.httpMethod := by
    induction headers with
    | nil => exact fun _ => rfl
    | cons header headers ih =>
        intro m
        rw [List.foldl_cons, ih, httpMethod_addHeader]
  exact hfold _

/-- **The verbs that are sent as they are.** -/
theorem verb_setVerb_iff (httpVerb : Bytes) :
    (Curl.setVerb httpVerb).verb = httpVerb ↔ httpVerb ∈ knownVerbs := by
  by_cases hknown : httpVerb ∈ knownVerbs
  · refine iff_of_true ?_ hknown
    have hall : ∀ verb ∈ knownVerbs, (Curl.setVerb verb).verb = verb := by decide +kernel
    exact hall httpVerb hknown
  · refine iff_of_false (fun heq => hknown ?_) hknown
    simp only [knownVerbs, List.mem_cons, not_or] at hknown
    obtain ⟨hhead, hdelete, hpost, hget, hput, -⟩ := hknown
    rw [Curl.setVerb, if_neg (by simp [hhead, hdelete, hpost]), if_neg hget, if_neg hput] at heq
    exact absurd heq.symm hget

/-! ### Resources -/

theorem of_mem_urlPath {rest : Bytes} {ch : UInt8} (h : ch ∈ urlPath rest) : ch ≠ 63 ∧ ch ≠ 35 := by
  rw [urlPath] at h
  exact of_decide_eq_true (List.mem_takeWhile_imp (p := fun ch => decide (ch ≠ 63 ∧ ch ≠ 35)) h)

theorem urlPath_eq (rest : Bytes) : urlPath rest = (signablePath rest).takeWhile (· ≠ 35) := by
  rw [signablePath, List.takeWhile_takeWhile, urlPath]
  congr 1
  funext ch
  simp [and_comm]

/-- The path is the one that is signed if there is no fragment. -/
theorem urlPath_eq_signablePath_iff (rest : Bytes) :
    urlPath rest = signablePath rest ↔ 35 ∉ signablePath rest := by
  rw [urlPath_eq, List.takeWhile_eq_self_iff]
  constructor
  · intro h hmem
    exact absurd rfl (of_decide_eq_true (h 35 hmem))
  · intro h ch hch
    exact decide_eq_true fun heq => h (heq ▸ hch)

theorem urlPath_cons_slash (rest : Bytes) : urlPath (47 :: rest) = 47 :: urlPath rest := by
  rw [urlPath, List.takeWhile_cons_of_pos (by decide)]
  rfl

theorem signablePath_cons_slash (rest : Bytes) :
    signablePath (47 :: rest) = 47 :: signablePath rest := by
  rw [signablePath, List.takeWhile_cons_of_pos (by decide)]
  rfl

/-- A path that is signed with a slash begins with one. -/
theorem head?_of_signablePath {filename w : Bytes} (h : signablePath filename = 47 :: w) :
    filename.head? = some 47 := by
  cases filename with
  | nil => cases h
  | cons ch filename =>
      rw [signablePath, List.takeWhile_cons] at h
      split at h
      · rw [List.head?_cons, (List.cons.inj h).1]
      · cases h

/-- What a URL with the right host stands for. -/
theorem addresses_iff {rest resource : Bytes} :
    Addresses region bucket (ascii "https://" ++ (getS3HostNameByRegion region bucket ++ rest))
        resource ↔
      (∀ ch ∈ rest.head?, ch = 47 ∨ ch = 63 ∨ ch = 35) ∧ ∃ relative,
        (∀ ch ∈ relative.head?, ch = 47) ∧
        urlPath rest = (if region ≠ .usStandard then relative else 47 :: (bucket ++ relative)) ∧
        resource = 47 :: (bucket ++ relative) := by
  constructor
  · rintro ⟨rest', relative, hurl, hboundary, hrelative, hpath, hresource⟩
    obtain rfl := List.append_cancel_left (List.append_cancel_left hurl)
    exact ⟨hboundary, relative, hrelative, hpath, hresource⟩
  · rintro ⟨hboundary, relative, hrelative, hpath, hresource⟩
    exact ⟨rest, relative, rfl, hboundary, hrelative, hpath, hresource⟩

/-- With the bucket in the host name, the path has to be the one that is signed. -/
theorem addresses_host_iff (hregion : region ≠ .usStandard) {rest filename : Bytes}
    (hslash : rest.head? = some 47) :
    Addresses region bucket (ascii "https://" ++ (getS3HostNameByRegion region bucket ++ rest))
        (canonicalResource region bucket filename) ↔ urlPath rest = signablePath filename := by
  obtain ⟨rest, rfl⟩ := List.head?_eq_some_iff.1 hslash
  rw [addresses_iff, canonicalResource, if_pos hregion]
  constructor
  · rintro ⟨-, relative, -, hpath, hresource⟩
    rw [if_pos hregion] at hpath
    rw [hpath, List.append_cancel_left (List.cons.inj hresource).2]
  · intro hpath
    refine ⟨by simp, urlPath (47 :: rest), ?_, by rw [if_pos hregion], by rw [hpath]⟩
    rw [urlPath_cons_slash]
    simp

/-- With the bucket in the path, the path with the bucket has to be the one that is signed. -/
theorem addresses_path_iff {rest filename : Bytes} (hslash : rest.head? = some 47) :
    Addresses .usStandard bucket
        (ascii "https://" ++ (getS3HostNameByRegion .usStandard bucket ++ rest))
        (canonicalResource .usStandard bucket filename) ↔
      urlPath rest = signablePath filename ∧ ∃ relative, (∀ ch ∈ relative.head?, ch = 47) ∧
        urlPath rest = 47 :: (bucket ++ relative) := by
  obtain ⟨rest, rfl⟩ := List.head?_eq_some_iff.1 hslash
  simp only [addresses_iff, canonicalResource, ne_eq, not_true_eq_false, if_false]
  constructor
  · rintro ⟨-, relative, hrelative, hpath, hresource⟩
    exact ⟨hpath.trans hresource.symm, relative, hrelative, hpath⟩
  · rintro ⟨hsigned, relative, hrelative, hpath⟩
    exact ⟨by simp, relative, hrelative, hpath, hsigned.symm.trans hpath⟩

/-- The URL of `s3_SubmitS3Request` and its resource. -/
theorem addresses_submitS3Url_iff (region : BucketRegion) (bucket filename : Bytes) :
    Addresses region bucket (submitS3Url region bucket filename)
        (canonicalResource region bucket filename) ↔
      region ≠ .usStandard ∧ filename.head? = some 47 ∧ 35 ∉ signablePath filename := by
  by_cases hregion : region = .usStandard
  · refine iff_of_false (fun h => ?_) fun h => h.1 hregion
    subst hregion
    rw [submitS3Url, if_neg (by simp), addresses_path_iff rfl] at h
    obtain ⟨hsigned, relative, -, hpath⟩ := h
    have hslash := head?_of_signablePath (hsigned.symm.trans hpath)
    rw [leadingSlash, if_pos hslash, List.nil_append] at hsigned hpath
    have hbucket : ∀ ch ∈ bucket, decide (ch ≠ 63 ∧ ch ≠ 35) = true := by
      intro ch hch
      have hmem : ch ∈ urlPath (47 :: (bucket ++ filename)) := by
        rw [hpath]
        exact List.mem_cons_of_mem _ (List.mem_append_left _ hch)
      exact decide_eq_true (of_mem_urlPath hmem)
    have hfragment : 35 ∉ signablePath filename := by
      rw [← hsigned]
      exact fun hmem => (of_mem_urlPath hmem).2 rfl
    -- the path without the bucket would be as long as the path with it
    rw [urlPath_cons_slash, urlPath, List.takeWhile_append_of_pos hbucket, ← urlPath,
      (urlPath_eq_signablePath_iff filename).2 hfragment] at hsigned
    have hlength := congrArg List.length hsigned
    rw [List.length_cons, List.length_append] at hlength
    omega
  · rw [submitS3Url, if_pos hregion]
    by_cases hslash : filename.head? = some 47
    · rw [leadingSlash, if_pos hslash, List.nil_append, addresses_host_iff hregion hslash,
        urlPath_eq_signablePath_iff]
      exact ⟨fun h => ⟨hregion, hslash, h⟩, fun h => h.2.2⟩
    · rw [leadingSlash, if_neg hslash, addresses_host_iff hregion rfl]
      refine iff_of_false (fun h => ?_) fun h => hslash h.2.1
      rw [List.singleton_append, urlPath_cons_slash] at h
      exact hslash (head?_of_signablePath h.symm)

/-- The URL of a file of the cache and the resource for a path that was found in it. -/
theorem addresses_prependHttpsToPath_iff {found : Bytes} (hfound : found.head? = some 47) :
    Addresses region bucket (prependHttpsToPath region bucket path)
        (canonicalResource region bucket found) ↔
      path.head? = some 47 ∧ (region = .usStandard → ∃ relative, (∀ ch ∈ relative.head?, ch = 47) ∧
        urlPath path = 47 :: (bucket ++ relative)) ∧ signablePath found = urlPath path := by
  rw [prependHttpsToPath]
  by_cases hslash : path.head? = some 47
  · by_cases hregion : region = .usStandard
    · subst hregion
      rw [addresses_path_iff hslash]
      constructor
      · rintro ⟨hsigned, hbucket⟩
        exact ⟨hslash, fun _ => hbucket, hsigned.symm⟩
      · rintro ⟨-, hbucket, hsigned⟩
        exact ⟨hsigned.symm, hbucket rfl⟩
    · rw [addresses_host_iff hregion hslash]
      constructor
      · intro hsigned
        exact ⟨hslash, fun h => absurd h hregion, hsigned.symm⟩
      · rintro ⟨-, -, hsigned⟩
        exact hsigned.symm
  · refine iff_of_false (fun h => ?_) fun h => hslash h.1
    -- what follows the host is not a path
    obtain ⟨hboundary, relative, -, hpath, hresource⟩ := addresses_iff.1 h
    have hempty : urlPath path = [] := by
      cases path with
      | nil => rfl
      | cons ch path =>
          rw [urlPath, List.takeWhile_cons_of_neg]
          rcases hboundary ch rfl with rfl | rfl | rfl
          · exact absurd rfl hslash
          · decide
          · decide
    obtain ⟨found, rfl⟩ := List.head?_eq_some_iff.1 hfound
    rw [canonicalResource, signablePath_cons_slash] at hresource
    rw [hempty] at hpath
    split at hpath
    · rename_i hregion
      rw [if_pos hregion, ← hpath] at hresource
      have hlength := congrArg List.length hresource
      simp at hlength
    · cases hpath

/-! ### The four places -/

theorem signedAsSent_submit_iff (httpVerb filename : Bytes) :
    SignedAsSent region bucket (s3SubmitS3Request region bucket headers httpVerb filename) ↔
      httpVerb ∈ knownVerbs ∧ region ≠ .usStandard ∧ filename.head? = some 47 ∧
        35 ∉ signablePath filename := by
  have hverb : (s3SubmitS3Request region bucket headers httpVerb filename).sent.verb =
      (Curl.setVerb httpVerb).verb := rfl
  have hsigned : (s3SubmitS3Request region bucket headers httpVerb filename).signed.httpMethod =
      httpVerb := httpMethod_createAwsSignature httpVerb
  rw [SignedAsSent, hverb, hsigned, eq_comm, verb_setVerb_iff]
  exact and_congr_right fun _ => addresses_submitS3Url_iff region bucket filename

/-- A request with a body is signed for `HEAD` and sent with `PUT`. -/
theorem not_signedAsSent_submitPut (filename : Bytes) :
    ¬ SignedAsSent region bucket (s3SubmitS3PutRequest region bucket headers filename) := by
  rintro ⟨hverb, -⟩
  have hsent : (s3SubmitS3PutRequest region bucket headers filename).sent.verb = ascii "PUT" := rfl
  rw [hsent, s3SubmitS3PutRequest, httpMethod_createAwsSignature] at hverb
  exact absurd hverb (by decide +kernel)

/-- An upload is signed for `PUT` and sent with `GET`. -/
theorem not_signedAsSent_upload {remotePath : Bytes} {u : UploadPart} {r : IssuedRequest}
    (h : beginUpload nl bucket headers remotePath u = some r) : ¬ SignedAsSent region bucket r := by
  rintro ⟨hverb, -⟩
  obtain ⟨region', -, h⟩ := Option.bind_eq_some_iff.1 h
  obtain ⟨filepath, -, h⟩ := Option.bind_eq_some_iff.1 h
  cases h
  have hget : ascii "PUT" = ascii "GET" :=
    (httpMethod_createAwsSignature (ascii "PUT")).symm.trans hverb
  exact absurd hget (by decide +kernel)

theorem signedAsSent_download_iff (hne : bucket ≠ [])
    (hbucket : ∀ ch ∈ bucket, isBucket ch = true) :
    (∃ r, beginDownload nl bucket headers (prependHttpsToPath region bucket path) = some r ∧
        SignedAsSent region bucket r) ↔ (S3Call.download path).Matches nl region bucket := by
  have hregion : hostnameToRegion (prependHttpsToPath region bucket path) = some region := by
    obtain ⟨found, hsearch, hfetch⟩ := search_regionPart region hne hbucket path
    exact hostnameToRegion_of_search hsearch hfetch
  constructor
  · rintro ⟨r, hr, -, haddresses⟩
    rw [beginDownload, hregion, Option.bind_eq_bind, Option.bind_some] at hr
    obtain ⟨found, hfound, hr⟩ := Option.bind_eq_some_iff.1 hr
    cases hr
    obtain ⟨hslash, hbucketPath, hsigned⟩ :=
      (addresses_prependHttpsToPath_iff (head?_of_extractFilepath hfound)).1 haddresses
    obtain ⟨before, tail, hpath⟩ := (extractFilepath_prependHttpsToPath_iff hbucket hslash).1 hfound
    exact ⟨hslash, hbucketPath, before, found, tail, hpath, hsigned⟩
  · rintro ⟨hslash, hbucketPath, before, found, tail, hpath, hsigned⟩
    have hfound : extractFilepath nl (prependHttpsToPath region bucket path) = some found :=
      (extractFilepath_prependHttpsToPath_iff hbucket hslash).2 ⟨before, tail, hpath⟩
    refine ⟨_, by rw [beginDownload, hregion, hfound]; rfl, ?_, ?_⟩
    · rw [httpMethod_createAwsSignature]
      rfl
    · exact (addresses_prependHttpsToPath_iff hpath.slash).2 ⟨hslash, hbucketPath, hsigned⟩

/-- **When what is signed is what is sent.** -/
theorem signedAsSent_iff (nl : Newlines) (region : BucketRegion) (bucket : Bytes)
    (headers : List Bytes) (call : S3Call)
    (hbucket : call.cached = true → bucket ≠ [] ∧ ∀ ch ∈ bucket, isBucket ch = true) :
    (∃ r, call.issue nl region bucket headers = some r ∧ SignedAsSent region bucket r) ↔
      call.Matches nl region bucket := by
  cases call with
  | submit httpVerb filename =>
      simp only [S3Call.issue, Option.some_inj, exists_eq_left']
      exact signedAsSent_submit_iff httpVerb filename
  | submitPut filename =>
      simp only [S3Call.issue, Option.some_inj, exists_eq_left', S3Call.Matches, iff_false]
      exact not_signedAsSent_submitPut filename
  | download path =>
      obtain ⟨hne, hbucket⟩ := hbucket rfl
      exact signedAsSent_download_iff hne hbucket
  | upload path u =>
      simp only [S3Call.Matches, iff_false]
      rintro ⟨r, hr, hsigned⟩
      exact not_signedAsSent_upload hr hsigned

/-- A download of a file with a question mark in its name. -/
theorem signedAsSent_question :
    ∃ r, (S3Call.download (ascii "/a?b")).issue .lineFeed .ireland (ascii "bucket") [] = some r ∧
      SignedAsSent .ireland (ascii "bucket") r := by
  refine (signedAsSent_iff .lineFeed .ireland (ascii "bucket") [] (.download (ascii "/a?b"))
    fun _ => ⟨by decide +kernel, by decide +kernel⟩).2 ⟨by decide +kernel, by simp, [],
      ascii "/a?b", [], ⟨rfl, .inl rfl, by simp, by decide +kernel, by decide +kernel, by simp,
        by simp, by decide +kernel⟩, by decide +kernel⟩

/-- In the first region the bucket is sent and not signed, and a request with a body is signed for
another verb. -/
theorem not_signedAsSent_get :
    ¬ SignedAsSent .usStandard (ascii "bucket")
        (s3SubmitS3Request .usStandard (ascii "bucket") [] (ascii "GET") (ascii "/a")) ∧
      ¬ SignedAsSent .ireland (ascii "bucket")
        (s3SubmitS3PutRequest .ireland (ascii "bucket") [] (ascii "/a")) := by
  refine ⟨fun h => ?_, not_signedAsSent_submitPut _⟩
  exact ((signedAsSent_submit_iff _ _).1 h).2.1 rfl

end AwsS3fs
