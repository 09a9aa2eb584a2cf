/-
**The information that is reported for a file.**

`S3FileStat` (`s3if.c`) looks a file up in the cache of file information.  On a miss it asks the
storage: for the path, for the path with a slash behind it, and for the secret file in the directory
of that name.  Whatever it finds goes into the cache under the name of the file; if it finds
nothing, an entry goes there that says so, and such an entry never expires by itself.

Main definitions:

* `AwsS3fs.convertHttpStatusToErrno` — the function of `s3comms.c`;
* `AwsS3fs.resolveS3FileStatCacheMiss`, `AwsS3fs.s3FileStat` — the functions of `s3if.c`;
* `AwsS3fs.uncachedFileStat` — what is reported without a cache;
* `AwsS3fs.fileStatView` — what is reported with a cache;
* `AwsS3fs.CacheTransparent`, `AwsS3fs.FoundNumbersRead` — the cache does not change what is
  reported, and the numbers of every file come from its headers;
* `AwsS3fs.NegativesAreNotFound` — what is cached as not found was not found.

Main results:

* `AwsS3fs.s3FileStat_fst`, `AwsS3fs.s3FileStat_snd` — one call;
* `AwsS3fs.s3FileStat_ne_error_zero` — an error is not the status of a success;
* `AwsS3fs.cacheTransparent_iff` — **when the cache does not change what is reported**;
* `AwsS3fs.negativesAreNotFound_iff` — **when only what was not found is cached as such**.
-/

import AwsS3fs.DateReads
import AwsS3fs.FileMetadata
import AwsS3fs.HeaderNumbers
import AwsS3fs.Paths
import AwsS3fs.StatCache

set_option relaxedAutoImplicit false
set_option autoImplicit false

namespace AwsS3fs

open CLib StatCache

/-! ### Answers of the storage -/

/-- `-ENOENT`. -/
def enoent : ℤ := -2

/-- `-EIO`. -/
def eio : ℤ := -5

/-- `-EACCES`. -/
def eacces : ℤ := -13

/-- `ConvertHttpStatusToErrno`, with `-EBADMSG`, `-EINPROGRESS`, `-ENETRESET`, `-ENOTSUP`,
`-ENETUNREACH` and `-ETIMEDOUT` as numbers. -/
def convertHttpStatusToErrno (httpStatus : ℕ) : ℤ :=
  if httpStatus ≤ 299 then 0
  else if 300 ≤ httpStatus ∧ httpStatus ≤ 399 then enoent
  else if 400 < httpStatus ∧ httpStatus ≤ 499 then
    if httpStatus = 404 ∨ httpStatus = 410 then enoent
    else if httpStatus = 401 ∨ httpStatus = 403 ∨ httpStatus = 402 ∨ httpStatus = 407 ∨
        httpStatus = 408 then eacces
    else if httpStatus = 400 ∨ httpStatus = 405 ∨ httpStatus = 406 then -74
    else if httpStatus = 409 then -115
    else eio
  else if 500 ≤ httpStatus ∧ httpStatus ≤ 599 then
    if httpStatus = 500 then -102
    else if httpStatus = 501 ∨ httpStatus = 505 then -95
    else if httpStatus = 502 ∨ httpStatus = 503 then -101
    else if httpStatus = 504 then -110
    else eio
  else eio

/-- The status of `s3_SubmitS3Request`, with the status of HTTP unless `curl` fails. -/
def submitStatus : Option ℕ → ℤ
  | none => eio
  | some httpStatus => convertHttpStatusToErrno httpStatus

/-- What comes back from a HEAD request. -/
structure HeadAnswer where
  httpStatus : Option ℕ
  headers : List (Bytes × Bytes)

/-- `s3_SubmitS3Request` for a HEAD request. -/
def submitHead (answer : HeadAnswer) : Except ℤ (List (Bytes × Bytes)) :=
  if submitStatus answer.httpStatus = 0 then .ok answer.headers
  else .error (submitStatus answer.httpStatus)

/-! ### Looking for a file -/

/-- The information in an entry of the cache, or nothing if `filenotfound` is set. -/
abbrev FileData := Option S3FileInfo

/-- What a call of `S3FileStat` meets: what `S3GetFileStat` finds around it, the memory behind a
string that is not terminated, and the answer to each HEAD request. -/
structure StatWorld where
  ctx : StatContext
  garbage : Bytes
  head : Bytes → HeadAnswer

section Stat

variable (max : ℕ) (w : StatWorld)

/-- `S3GetFileStat` with its request. -/
def headFileStat (filename : Bytes) : Except ℤ S3FileInfo := do
  let response ← submitHead (w.head filename)
  s3GetFileStat w.ctx filename response

/-- `ResolveS3FileStatCacheMiss`: the status, and the cache afterwards. -/
def resolveS3FileStatCacheMiss (cache : StatCache FileData) (filename hashAs : Bytes) :
    Except ℤ Unit × StatCache FileData :=
  match headFileStat w filename with
  | .ok info => (.ok (), cache.insertCacheElement max hashAs (some info))
  | .error status => (.error status, cache)

/-- The cache miss in `S3FileStat`. -/
def resolveFileStat (cache : StatCache FileData) (filename : Bytes) :
    Except ℤ Unit × StatCache FileData :=
  match resolveS3FileStatCacheMiss max w cache filename filename with
  | (.ok _, cache) => (.ok (), cache)
  | (.error _, cache) =>
      match resolveS3FileStatCacheMiss max w cache (addTrailingSlash w.garbage filename)
          filename with
      | (.ok _, cache) => (.ok (), cache)
      | (.error _, cache) =>
          match resolveS3FileStatCacheMiss max w cache (filename ++ isS3DirectoryFile) filename with
          | (.ok _, cache) => (.ok (), cache)
          | (.error status, cache) =>
              (.error status, cache.insertCacheElement max filename none)

/-- The information that a pointer into the cache points to. -/
def fileInfoAt (cache : StatCache FileData) (filename : Bytes) : Option S3FileInfo :=
  (cache.findStr filename).bind (·.data)

/-- `S3FileStat`: the information behind the pointer that it stores, unless it returns an error, and
the cache afterwards. -/
def s3FileStat (cache : StatCache FileData) (file : Bytes) :
    Except ℤ (Option S3FileInfo) × StatCache FileData :=
  let filename := normalizePath file
  if isS3DirectoryFile <:+ filename then (.error enoent, cache)
  else
    let result := match cache.searchStatEntry filename with
      | (none, cache) => resolveFileStat max w cache filename
      | (some none, cache) => (.error enoent, cache)
      | (some (some _), cache) => (.ok (), cache)
    (result.1.map fun _ => fileInfoAt result.2 filename, result.2)

/-- The three steps of a lookup: the path, the path as the name of a directory, and the secret file
in it. -/
def lookupFileStat (filename dirname : Bytes) : Except ℤ S3FileInfo :=
  match headFileStat w filename with
  | .ok info => .ok info
  | .error _ =>
      match headFileStat w dirname with
      | .ok info => .ok info
      | .error _ => headFileStat w (filename ++ isS3DirectoryFile)

/-- The lookup after a cache miss. -/
def missFileStat (filename : Bytes) : Except ℤ S3FileInfo :=
  lookupFileStat w filename (addTrailingSlash w.garbage filename)

/-- **What is reported without a cache.** -/
def uncachedFileStat (file : Bytes) : Except ℤ S3FileInfo :=
  let filename := normalizePath file
  if isS3DirectoryFile <:+ filename then .error enoent
  else lookupFileStat w filename (filename ++ [47])

/-- What is reported of an entry. -/
def reportOf : FileData → Except ℤ S3FileInfo
  | none => .error enoent
  | some info => .ok info

/-- **What is reported with a cache.** -/
def fileStatView (cache : StatCache FileData) (filename : Bytes) : Except ℤ S3FileInfo :=
  match cache.findStr filename with
  | none => missFileStat w filename
  | some entry => reportOf entry.data

variable {max w} {cache : StatCache FileData}

/-- A cache miss adds an entry, with what was found or without. -/
theorem resolveFileStat_eq (cache : StatCache FileData) (filename : Bytes) :
    resolveFileStat max w cache filename =
      ((missFileStat w filename).map fun _ => (),
        cache.insertCacheElement max filename (missFileStat w filename).toOption) := by
  rw [resolveFileStat, missFileStat, lookupFileStat]
  simp only [resolveS3FileStatCacheMiss]
  cases headFileStat w filename with
  | ok info => rfl
  | error _ =>
      simp only []
      cases headFileStat w (addTrailingSlash w.garbage filename) with
      | ok info => rfl
      | error _ =>
          simp only []
          cases headFileStat w (filename ++ isS3DirectoryFile) with
          | ok info => rfl
          | error status => rfl

/-- The cache after a call. -/
theorem s3FileStat_snd (cache : StatCache FileData) (file : Bytes) :
    (s3FileStat max w cache file).2 =
      if isS3DirectoryFile <:+ normalizePath file then cache
      else if (cache.findStr (normalizePath file)).isSome then
        (cache.searchStatEntry (normalizePath file)).2
      else cache.insertCacheElement max (normalizePath file)
        (missFileStat w (normalizePath file)).toOption := by
  simp only [s3FileStat]
  split
  · rfl
  · simp only [searchStatEntry]
    cases hfind : cache.findStr (normalizePath file) with
    | none => simp [resolveFileStat_eq]
    | some entry => cases hdata : entry.data <;> simp [hdata]

theorem s3FileStat_of_hit (hdistinct : cache.filenames.Nodup) {file : Bytes}
    {entry : StatCacheEntry FileData} (hsecret : ¬ isS3DirectoryFile <:+ normalizePath file)
    (hfind : cache.findStr (normalizePath file) = some entry) :
    (s3FileStat max w cache file).1 = (reportOf entry.data).map some := by
  have hsearch : cache.searchStatEntry (normalizePath file) =
      (some entry.data, cache.delete entry.filename ++ [entry]) := by
    simp only [searchStatEntry, hfind]
  have hfind' := findStr_eq_of_perm hdistinct
    (perm_searchStatEntry hdistinct (normalizePath file)) (normalizePath file)
  rw [hsearch, hfind] at hfind'
  simp only [s3FileStat, if_neg hsecret, hsearch]
  cases hdata : entry.data with
  | none => rfl
  | some info =>
      change Except.ok (fileInfoAt _ _) = _
      rw [fileInfoAt, hfind', Option.bind_some, hdata]
      rfl

/-- **What a call reports.** -/
theorem s3FileStat_fst (hpos : 0 < max) (hmax : max < 2 ^ 31) (hw : WellFormed max cache)
    (file : Bytes) :
    (s3FileStat max w cache file).1 =
      if isS3DirectoryFile <:+ normalizePath file then .error enoent
      else (fileStatView w cache (normalizePath file)).map some := by
  by_cases hsecret : isS3DirectoryFile <:+ normalizePath file
  · rw [if_pos hsecret, s3FileStat, if_pos hsecret]
  · rw [if_neg hsecret, fileStatView]
    cases hfind : cache.findStr (normalizePath file) with
    | some entry =>
        exact s3FileStat_of_hit hw.distinct hsecret hfind
    | none =>
        have hsearch : cache.searchStatEntry (normalizePath file) = (none, cache) := by
          simp only [searchStatEntry, hfind]
        simp only [s3FileStat, if_neg hsecret, hsearch, resolveFileStat_eq]
        have hat := findStr_insertCacheElement hpos hmax hw hfind
          (missFileStat w (normalizePath file)).toOption (normalizePath file)
        rw [if_pos rfl] at hat
        rw [fileInfoAt, hat]
        cases missFileStat w (normalizePath file) with
        | ok info => rfl
        | error status => rfl

theorem wellFormed_s3FileStat (hpos : 0 < max) (hmax : max < 2 ^ 31) (hw : WellFormed max cache)
    (file : Bytes) : WellFormed max (s3FileStat max w cache file).2 := by
  rw [s3FileStat_snd]
  split
  · exact hw
  · split
    · exact hw.search _
    · rename_i hfind
      exact hw.insert hpos hmax (by simpa using hfind) _

/-- The entries after a call: those that were there, and one with what the lookup found. -/
theorem mem_s3FileStat {file : Bytes} {entry : StatCacheEntry FileData}
    (h : entry ∈ (s3FileStat max w cache file).2) :
    entry ∈ cache ∨ ¬ isS3DirectoryFile <:+ normalizePath file ∧
      cache.findStr (normalizePath file) = none ∧
      entry = ⟨normalizePath file, (missFileStat w (normalizePath file)).toOption⟩ := by
  rw [s3FileStat_snd] at h
  split at h
  · exact .inl h
  · rename_i hsecret
    split at h
    · have hmem : entry ∈ statStep max cache (.search (normalizePath file)) := h
      rcases mem_statStep hmem with hold | ⟨hcall, -⟩
      · exact .inl hold
      · cases hcall
    · rename_i hfind
      have hnone : cache.findStr (normalizePath file) = none := by simpa using hfind
      have hmem : entry ∈ statStep max cache (.insert (normalizePath file)
          (missFileStat w (normalizePath file)).toOption) := h
      rcases mem_statStep hmem with hold | ⟨hcall, -⟩
      · exact .inl hold
      · obtain ⟨hname, hdata⟩ := StatCall.insert.inj hcall
        refine .inr ⟨hsecret, hnone, ?_⟩
        rw [hdata, hname]

end Stat

/-! ### Errors -/

section Errors

variable {α β : Type}

theorem bind_ne_error_zero {x : Except ℤ α} {f : α → Except ℤ β} (hx : x ≠ .error 0)
    (hf : ∀ a, f a ≠ .error 0) : x >>= f ≠ .error 0 := by
  cases x with
  | error e => exact fun h => hx (congrArg Except.error (Except.error.inj h))
  | ok a => exact hf a

theorem ite_ne_error_zero {p : Prop} [Decidable p] {x y : Except ℤ α} (hx : x ≠ .error 0)
    (hy : y ≠ .error 0) : (if p then x else y) ≠ .error 0 := by
  split
  · exact hx
  · exact hy

theorem ok_ne_error_zero (a : α) : (.ok a : Except ℤ α) ≠ .error 0 := fun h => by cases h

theorem error_ne_error_zero {e : ℤ} (he : e ≠ 0) : (.error e : Except ℤ α) ≠ .error 0 :=
  fun h => he (Except.error.inj h)

theorem getHeaderTime_ne_error_zero (ctx : StatContext) (string : Bytes) :
    getHeaderTime ctx string ≠ .error 0 :=
  bind_ne_error_zero (fun h => Int.lt_irrefl 0 (negativeErrors_decodeTime string 0 h)) fun _ =>
    ok_ne_error_zero _

theorem getHeaderInt_ne_error_zero (ctx : StatContext) (string : Bytes) (value : ℤ) :
    getHeaderInt ctx string value ≠ .error 0 := by
  rw [getHeaderInt]
  split
  · split
    · exact ok_ne_error_zero _
    · rename_i herrno
      exact error_ne_error_zero (Int.neg_ne_zero.2 herrno)
  · exact ite_ne_error_zero (ok_ne_error_zero _) (ok_ne_error_zero _)

theorem decodeHeader_ne_error_zero (ctx : StatContext) (b : StatBuffer) (header : Bytes × Bytes) :
    b.decodeHeader ctx header ≠ .error 0 := by
  have hint : ∀ set, b.setInt ctx header.2 set ≠ .error 0 := fun _ =>
    bind_ne_error_zero (getHeaderInt_ne_error_zero ctx header.2 b.tempValue) fun _ =>
      ok_ne_error_zero _
  have htime : ∀ set, b.setTime ctx header.2 set ≠ .error 0 := fun _ =>
    bind_ne_error_zero (getHeaderTime_ne_error_zero ctx header.2) fun _ => ok_ne_error_zero _
  rw [StatBuffer.decodeHeader]
  split
  all_goals first
    | exact ok_ne_error_zero _
    | exact hint _
    | exact htime _
    | exact ite_ne_error_zero (htime _) (ok_ne_error_zero _)

theorem s3GetFileStat_ne_error_zero (ctx : StatContext) (filename : Bytes)
    (response : List (Bytes × Bytes)) : s3GetFileStat ctx filename response ≠ .error 0 := by
  refine bind_ne_error_zero (fun h => ?_) fun _ => ok_ne_error_zero _
  obtain ⟨-, header, -, b, -, -, hheader⟩ := Runs.foldlM_eq_error h
  exact decodeHeader_ne_error_zero ctx b header hheader

theorem headFileStat_ne_error_zero (w : StatWorld) (filename : Bytes) :
    headFileStat w filename ≠ .error 0 := by
  refine bind_ne_error_zero ?_ fun _ => s3GetFileStat_ne_error_zero _ _ _
  rw [submitHead]
  split
  · exact ok_ne_error_zero _
  · rename_i hstatus
    exact error_ne_error_zero hstatus

/-- **An error of `S3FileStat` is a status that is not `0`.** -/
theorem s3FileStat_ne_error_zero (max : ℕ) (w : StatWorld) (cache : StatCache FileData)
    (file : Bytes) : (s3FileStat max w cache file).1 ≠ .error 0 := by
  have hresolve : ∀ cache filename, (resolveFileStat max w cache filename).1 ≠ .error 0 := by
    intro cache filename
    rw [resolveFileStat_eq, missFileStat, lookupFileStat]
    split
    · exact fun h => by cases h
    · split
      · exact fun h => by cases h
      · have hsecret := headFileStat_ne_error_zero w (filename ++ isS3DirectoryFile)
        generalize headFileStat w (filename ++ isS3DirectoryFile) = x at hsecret
        cases x with
        | ok info => exact fun h => by cases h
        | error status => exact fun h => hsecret (congrArg _ (Except.error.inj h))
  have hmap : ∀ (x : Except ℤ Unit) (found : Option S3FileInfo), x ≠ .error 0 →
      x.map (fun _ => found) ≠ .error 0 := by
    intro x found hx h
    cases x with
    | ok _ => cases h
    | error status => exact hx (congrArg _ (Except.error.inj h))
  simp only [s3FileStat]
  split
  · exact error_ne_error_zero (by decide)
  · refine hmap _ _ ?_
    split
    · exact hresolve _ _
    · exact error_ne_error_zero (by decide)
    · exact ok_ne_error_zero _

end Errors

/-! ### The cache is transparent -/

/-- A call of `S3FileStat`. -/
structure FileStatCall extends StatWorld where
  file : Bytes

/-- What a sequence of calls reports. -/
def fileStatReports (max : ℕ) : StatCache FileData → List FileStatCall →
    List (Except ℤ (Option S3FileInfo))
  | _, [] => []
  | cache, call :: calls =>
      (s3FileStat max call.toStatWorld cache call.file).1 ::
        fileStatReports max (s3FileStat max call.toStatWorld cache call.file).2 calls

/-- Every HEAD request for a path gets headers that `S3GetFileStat` decodes without an error, or
not-found. -/
structure DecodedContent (ctx : StatContext) (content : Bytes → HeadAnswer) : Prop where
  decoded : ∀ path headers, submitHead (content path) = .ok headers →
    ∃ info, s3GetFileStat ctx path headers = .ok info
  notFound : ∀ path status, submitHead (content path) = .error status → status = enoent

/-- **The content of the bucket is fixed**: every HEAD request for a path gives the same answer, to
the same process. -/
structure FixedContent (ctx : StatContext) (content : Bytes → HeadAnswer) (w : StatWorld) : Prop
    extends DecodedContent w.ctx content where
  head : w.head = content
  process : SameProcess ctx w.ctx

/-- **The cache is transparent** for a content of the bucket: every sequence of calls reports what
is reported without a cache. -/
def CacheTransparent (max : ℕ) (ctx : StatContext) (content : Bytes → HeadAnswer) : Prop :=
  ∀ calls : List FileStatCall, (∀ call ∈ calls, FixedContent ctx content call.toStatWorld) →
    (∀ call ∈ calls, normalizePath call.file ≠ [47]) →
      fileStatReports max [] calls =
        calls.map fun call => (uncachedFileStat call.toStatWorld call.file).map some

/-- The path at which a file is found, and its headers. -/
def foundHeaders (content : Bytes → HeadAnswer) (filename : Bytes) :
    Option (Bytes × List (Bytes × Bytes)) :=
  [filename, filename ++ [47], filename ++ isS3DirectoryFile].findSome? fun path =>
    (submitHead (content path)).toOption.map fun headers => (path, headers)

/-- The numbers of every file that is found come from its headers. -/
def FoundNumbersRead (content : Bytes → HeadAnswer) : Prop :=
  ∀ file path headers, normalizePath file ≠ [47] → ¬ isS3DirectoryFile <:+ normalizePath file →
    foundHeaders content (normalizePath file) = some (path, headers) → NumbersRead headers

section Transparent

variable {ctx : StatContext} {content : Bytes → HeadAnswer} {w w' : StatWorld} {filename : Bytes}

theorem FixedContent.headFileStat_eq (h : FixedContent ctx content w) (path : Bytes) :
    headFileStat w path =
      match submitHead (content path) with
      | .ok headers => s3GetFileStat w.ctx path headers
      | .error _ => .error enoent := by
  rw [headFileStat, h.head]
  cases hsubmit : submitHead (content path) with
  | ok headers => rfl
  | error status =>
      obtain rfl := h.notFound path status hsubmit
      rfl

/-- What is found is found at the first path with an answer. -/
theorem FixedContent.lookupFileStat_eq (h : FixedContent ctx content w) (filename : Bytes) :
    lookupFileStat w filename (filename ++ [47]) =
      match foundHeaders content filename with
      | some found => s3GetFileStat w.ctx found.1 found.2
      | none => .error enoent := by
  have hstep : ∀ path headers, submitHead (content path) = .ok headers →
      ∃ info, s3GetFileStat w.ctx path headers = .ok info := h.decoded
  simp only [lookupFileStat, h.headFileStat_eq, foundHeaders, List.findSome?_cons]
  cases hfile : submitHead (content filename) with
  | ok headers =>
      obtain ⟨info, hinfo⟩ := hstep _ _ hfile
      simp [hinfo, Except.toOption]
  | error _ =>
      cases hdir : submitHead (content (filename ++ [47])) with
      | ok headers =>
          obtain ⟨info, hinfo⟩ := hstep _ _ hdir
          simp [hinfo, Except.toOption]
      | error _ =>
          cases hsecret : submitHead (content (filename ++ isS3DirectoryFile)) with
          | ok headers => simp [Except.toOption]
          | error _ => simp [Except.toOption]

/-- What is found was found at some path. -/
theorem submitHead_of_foundHeaders {found : Bytes × List (Bytes × Bytes)}
    (h : foundHeaders content filename = some found) :
    submitHead (content found.1) = .ok found.2 := by
  obtain ⟨path, -, hpath⟩ := List.exists_of_findSome?_eq_some h
  obtain ⟨headers, hheaders, rfl⟩ := Option.map_eq_some_iff.1 hpath
  cases hsubmit : submitHead (content path) with
  | ok headers' =>
      rw [hsubmit] at hheaders
      rw [Option.some.inj hheaders]
  | error status =>
      rw [hsubmit] at hheaders
      cases hheaders

/-- The only error is that nothing was found. -/
theorem FixedContent.error_eq (h : FixedContent ctx content w) {status : ℤ}
    (hlookup : lookupFileStat w filename (filename ++ [47]) = .error status) :
    status = enoent := by
  rw [h.lookupFileStat_eq] at hlookup
  cases hfound : foundHeaders content filename with
  | none =>
      rw [hfound] at hlookup
      exact (Except.error.inj hlookup).symm
  | some found =>
      obtain ⟨info, hinfo⟩ := h.decoded _ _ (submitHead_of_foundHeaders hfound)
      simp only [hfound, hinfo] at hlookup
      cases hlookup

/-- Two calls find the same, if the numbers come from the headers. -/
theorem FixedContent.lookupFileStat_congr (h : FixedContent ctx content w)
    (h' : FixedContent ctx content w')
    (hread : ∀ path headers, foundHeaders content filename = some (path, headers) →
      NumbersRead headers) :
    lookupFileStat w filename (filename ++ [47]) =
      lookupFileStat w' filename (filename ++ [47]) := by
  rw [h.lookupFileStat_eq, h'.lookupFileStat_eq]
  cases hfound : foundHeaders content filename with
  | none => rfl
  | some found =>
      have hsubmit := submitHead_of_foundHeaders hfound
      obtain ⟨info, hinfo⟩ := h.decoded _ _ hsubmit
      obtain ⟨info', hinfo'⟩ := h'.decoded _ _ hsubmit
      have hprocess : SameProcess w.ctx w'.ctx := h.process.symm.trans h'.process
      have heq := (hread found.1 found.2 hfound).eq_of_ok hprocess hinfo hinfo'
      simp only [hinfo, hinfo', heq]

/-- Every entry has what the lookup finds. -/
def AgreesWith (w : StatWorld) (cache : StatCache FileData) : Prop :=
  ∀ entry ∈ cache,
    entry.data = (lookupFileStat w entry.filename (entry.filename ++ [47])).toOption

/-- **One call**: it reports what it would report without a cache, and the entries still agree. -/
theorem FixedContent.s3FileStat_eq {max : ℕ} (hpos : 0 < max) (hmax : max < 2 ^ 31)
    {cache : StatCache FileData} (h : FixedContent ctx content w)
    (h' : FixedContent ctx content w') (hread : FoundNumbersRead content)
    (hw : WellFormed max cache) (hagrees : AgreesWith w cache) {file : Bytes}
    (hroot : normalizePath file ≠ [47]) :
    (s3FileStat max w' cache file).1 = (uncachedFileStat w' file).map some ∧
      AgreesWith w (s3FileStat max w' cache file).2 := by
  have hlookup : ¬ isS3DirectoryFile <:+ normalizePath file →
      lookupFileStat w' (normalizePath file) (normalizePath file ++ [47]) =
        lookupFileStat w (normalizePath file) (normalizePath file ++ [47]) := fun hsecret =>
    h'.lookupFileStat_congr h fun path headers => hread file path headers hroot hsecret
  have hmiss : missFileStat w' (normalizePath file) =
      lookupFileStat w' (normalizePath file) (normalizePath file ++ [47]) := by
    rw [missFileStat, addTrailingSlash_normalizePath hroot]
  constructor
  · rw [s3FileStat_fst hpos hmax hw, uncachedFileStat]
    split
    · rfl
    · rename_i hsecret
      rw [fileStatView, hlookup hsecret]
      cases hfind : cache.findStr (normalizePath file) with
      | none => exact congrArg _ (hmiss.trans (hlookup hsecret))
      | some entry =>
          obtain ⟨hmem, hname⟩ := (findStr_eq_some_iff hw.distinct).1 hfind
          have hdata := hagrees entry hmem
          rw [hname] at hdata
          obtain ⟨filename, data⟩ := entry
          cases hfound : lookupFileStat w (normalizePath file) (normalizePath file ++ [47]) with
          | ok found =>
              rw [hfound] at hdata
              obtain rfl : data = some found := hdata
              rfl
          | error status =>
              rw [hfound] at hdata
              obtain rfl : data = none := hdata
              obtain rfl := h.error_eq hfound
              rfl
  · intro entry hentry
    rcases mem_s3FileStat hentry with hold | ⟨hsecret, -, rfl⟩
    · exact hagrees entry hold
    · exact congrArg Except.toOption (hmiss.trans (hlookup hsecret))

/-- Any number of calls. -/
theorem FixedContent.reports_eq {max : ℕ} (hpos : 0 < max) (hmax : max < 2 ^ 31)
    (h : FixedContent ctx content w) (hread : FoundNumbersRead content)
    {calls : List FileStatCall} :
    ∀ {cache : StatCache FileData}, WellFormed max cache → AgreesWith w cache →
      (∀ call ∈ calls, FixedContent ctx content call.toStatWorld) →
      (∀ call ∈ calls, normalizePath call.file ≠ [47]) →
      fileStatReports max cache calls =
        calls.map fun call => (uncachedFileStat call.toStatWorld call.file).map some := by
  induction calls with
  | nil => exact fun _ _ _ _ => rfl
  | cons call calls ih =>
      intro cache hw hagrees hfixed hroot
      obtain ⟨hcall, hcalls⟩ := List.forall_mem_cons.1 hfixed
      obtain ⟨hrootCall, hrootCalls⟩ := List.forall_mem_cons.1 hroot
      obtain ⟨hreport, hagrees'⟩ := h.s3FileStat_eq hpos hmax hcall hread hw hagrees hrootCall
      have hrest := ih (wellFormed_s3FileStat hpos hmax hw call.file) hagrees' hcalls hrootCalls
      rw [fileStatReports, List.map_cons, hreport, hrest]

/-- A call with a value in the variable for numbers. -/
def callWithUnset (ctx : StatContext) (content : Bytes → HeadAnswer) (file : Bytes) (unset : ℤ) :
    FileStatCall where
  ctx := { ctx with unset := unset }
  garbage := []
  head := content
  file := file

theorem DecodedContent.fixedContent (h : DecodedContent ctx content) (file : Bytes) (unset : ℤ) :
    FixedContent ctx content (callWithUnset ctx content file unset).toStatWorld where
  decoded path headers hsubmit := by
    obtain ⟨info, hinfo⟩ := h.decoded path headers hsubmit
    exact exists_ok_of_unset hinfo unset
  notFound := h.notFound
  head := rfl
  process := ⟨rfl, rfl, rfl, rfl⟩

/-- A second call for a file reports what the first one found. -/
theorem s3FileStat_again {max : ℕ} (hpos : 0 < max) (hmax : max < 2 ^ 31) {file : Bytes}
    (hsecret : ¬ isS3DirectoryFile <:+ normalizePath file) :
    (s3FileStat max w' (s3FileStat max w [] file).2 file).1 =
      (reportOf (missFileStat w (normalizePath file)).toOption).map some := by
  have hnone : findStr ([] : StatCache FileData) (normalizePath file) = none := rfl
  have hfind := findStr_insertCacheElement hpos hmax (wellFormed_nil max) hnone
    (missFileStat w (normalizePath file)).toOption (normalizePath file)
  rw [if_pos rfl] at hfind
  have hw := wellFormed_s3FileStat (w := w) hpos hmax (wellFormed_nil max) file
  rw [s3FileStat_fst hpos hmax hw, if_neg hsecret, fileStatView, s3FileStat_snd, if_neg hsecret,
    hnone]
  simp only [Option.isSome_none, Bool.false_eq_true, if_false, hfind]

/-- **A number that does not come from the headers** differs in a second call from the one that is
in the cache. -/
theorem DecodedContent.foundNumbersRead {max : ℕ} (hpos : 0 < max) (hmax : max < 2 ^ 31)
    (hcontent : DecodedContent ctx content) (h : CacheTransparent max ctx content) :
    FoundNumbersRead content := by
  intro file path headers hroot hsecret hfound
  by_contra hnot
  have hfixed := hcontent.fixedContent file
  have hlookup : ∀ unset, ∃ info,
      s3GetFileStat { ctx with unset := unset } path headers = .ok info ∧
      lookupFileStat (callWithUnset ctx content file unset).toStatWorld (normalizePath file)
        (normalizePath file ++ [47]) = .ok info := by
    intro unset
    obtain ⟨info, hinfo⟩ := (hfixed unset).decoded _ _ (submitHead_of_foundHeaders hfound)
    refine ⟨info, hinfo, ?_⟩
    rw [(hfixed unset).lookupFileStat_eq, hfound]
    exact hinfo
  obtain ⟨info, hinfo, hzero⟩ := hlookup 0
  obtain ⟨info', hinfo', hone⟩ := hlookup 1
  have hreports := h [callWithUnset ctx content file 0, callWithUnset ctx content file 1]
    (List.forall_mem_cons.2 ⟨hfixed 0, List.forall_mem_singleton.2 (hfixed 1)⟩)
    (List.forall_mem_cons.2 ⟨hroot, List.forall_mem_singleton.2 hroot⟩)
  simp only [fileStatReports, List.map_cons, List.map_nil, List.cons.injEq, and_true] at hreports
  have hmiss : missFileStat (callWithUnset ctx content file 0).toStatWorld (normalizePath file) =
      .ok info := by
    rw [missFileStat, addTrailingSlash_normalizePath hroot, hzero]
  have hfile : ∀ unset, (callWithUnset ctx content file unset).file = file := fun _ => rfl
  have hsecond := hreports.2
  rw [hfile, hfile, uncachedFileStat, if_neg hsecret, s3FileStat_again hpos hmax hsecret, hmiss,
    hone] at hsecond
  exact ne_of_not_numbersRead hnot hinfo hinfo'
    (Option.some.inj (Except.ok.inj hsecond)).symm

/-- **When the cache is transparent**: the numbers of every file that is found come from its
headers. -/
theorem cacheTransparent_iff {max : ℕ} (hpos : 1 ≤ max) (hmax : max < 2 ^ 31)
    (hcontent : DecodedContent ctx content) :
    CacheTransparent max ctx content ↔ FoundNumbersRead content := by
  constructor
  · exact hcontent.foundNumbersRead hpos hmax
  · intro hread calls hfixed hroot
    cases calls with
    | nil => rfl
    | cons first calls =>
        have hfirst := hfixed first List.mem_cons_self
        exact hfirst.reports_eq hpos hmax hread (wellFormed_nil max) (by simp [AgreesWith]) hfixed
          hroot

/-- A bucket with one file, which has one header. -/
def oneHeader (key value : String) (path : Bytes) : HeadAnswer :=
  if path = ascii "/a" then ⟨some 200, [(ascii key, ascii value)]⟩ else ⟨some 404, []⟩

theorem submitHead_oneHeader {key value : String} {path : Bytes} {headers : List (Bytes × Bytes)}
    (h : submitHead (oneHeader key value path) = .ok headers) :
    path = ascii "/a" ∧ headers = [(ascii key, ascii value)] := by
  rw [oneHeader] at h
  split at h
  · rename_i hpath
    exact ⟨hpath, (Except.ok.inj h).symm⟩
  · cases h

theorem decodedContent_oneHeader {key value : String}
    (h : ∃ info, s3GetFileStat (june (.fixed 0 (by decide))) (ascii "/a")
      [(ascii key, ascii value)] = .ok info) :
    DecodedContent (june (.fixed 0 (by decide))) (oneHeader key value) where
  decoded path headers hsubmit := by
    obtain ⟨rfl, rfl⟩ := submitHead_oneHeader hsubmit
    exact h
  notFound path status hsubmit := by
    rw [oneHeader] at hsubmit
    split at hsubmit
    · cases hsubmit
    · exact (Except.error.inj hsubmit).symm

theorem foundNumbersRead_length : FoundNumbersRead (oneHeader "Content-Length" "12") := by
  intro file path headers _ _ hfound
  obtain ⟨-, rfl⟩ := submitHead_oneHeader (submitHead_of_foundHeaders hfound)
  refine numbersRead_of_isNumber fun field _ value hmem => ?_
  obtain ⟨-, rfl⟩ := Prod.mk.inj (List.mem_singleton.1 hmem)
  exact ⟨49, ascii "2", by decide +kernel, by decide +kernel⟩

/-- With a place for one file, each call makes the one before it expire. -/
theorem cacheTransparent_length :
    CacheTransparent 1 (june (.fixed 0 (by decide))) (oneHeader "Content-Length" "12") :=
  (cacheTransparent_iff le_rfl (by decide) (decodedContent_oneHeader ⟨_, rfl⟩)).2
    foundNumbersRead_length

/-- A user whose name stands in place of a number. -/
theorem not_cacheTransparent_name :
    DecodedContent (june (.fixed 0 (by decide))) (oneHeader "x-amz-meta-uid" "abc") ∧
      ¬ CacheTransparent 1000 (june (.fixed 0 (by decide))) (oneHeader "x-amz-meta-uid" "abc") := by
  have hcontent : DecodedContent (june (.fixed 0 (by decide))) (oneHeader "x-amz-meta-uid" "abc") :=
    decodedContent_oneHeader ⟨_, rfl⟩
  refine ⟨hcontent, fun h => ?_⟩
  have hread := hcontent.foundNumbersRead (by decide) (by decide) h (ascii "/a") (ascii "/a")
    [(ascii "x-amz-meta-uid", ascii "abc")] (by decide +kernel) (by decide +kernel)
    (by decide +kernel) .uid rfl [] (ascii "abc") [] rfl (by simp)
  obtain ⟨header, hmem, field, -, -, c, t, hdrop, hnumber⟩ := hread
  obtain rfl := List.mem_singleton.1 hmem
  have hletters : (ascii "abc").dropWhile isspace = 97 :: ascii "bc" := by decide +kernel
  obtain ⟨rfl, rfl⟩ := List.cons.inj (hletters.symm.trans hdrop)
  exact absurd hnumber (by decide +kernel)

/-- A bucket with one file of twelve bytes. -/
def oneFile : Bytes → HeadAnswer := oneHeader "Content-Length" "12"

/-- A call on this bucket. -/
def oneFileCall (file : String) : FileStatCall where
  ctx := june (.fixed 0 (by decide))
  garbage := []
  head := oneFile
  file := ascii file

end Transparent

/-! ### What is cached as not found -/

/-- The cache after a sequence of calls. -/
def afterFileStats (calls : List FileStatCall) : StatCache FileData :=
  calls.foldl
    (fun cache call => (s3FileStat maxStatCacheSize call.toStatWorld cache call.file).2) []

namespace FileStatCall

variable (call : FileStatCall)

/-- The paths that are looked up after a cache miss. -/
def lookups : List Bytes :=
  [normalizePath call.file, addTrailingSlash call.garbage (normalizePath call.file),
    normalizePath call.file ++ isS3DirectoryFile]

/-- S3 answered not-found to the lookups. -/
def NotFound : Prop :=
  ∀ path ∈ call.lookups,
    (call.head path).httpStatus = some 404 ∨ (call.head path).httpStatus = some 410

/-- **A definite answer**: there is no lookup, or one that finds the file, or all of them are
answered with not-found. -/
def Definite (cache : StatCache FileData) : Prop :=
  isS3DirectoryFile <:+ normalizePath call.file ∨ normalizePath call.file ∈ cache.filenames ∨
    (∃ path ∈ call.lookups, ∃ info, headFileStat call.toStatWorld path = .ok info) ∨ call.NotFound

end FileStatCall

/-- **What is cached as not found was not found**, in a sequence of calls. -/
structure NegativesAreNotFound (calls : List FileStatCall) : Prop where
  /-- A call adds an entry that says so only if S3 answered not-found to its lookups. -/
  inserted : ∀ before call after, calls = before ++ call :: after →
    ∀ filename, (⟨filename, none⟩ : StatCacheEntry FileData) ∈ afterFileStats (before ++ [call]) →
      (⟨filename, none⟩ : StatCacheEntry FileData) ∉ afterFileStats before →
        filename = normalizePath call.file ∧ call.NotFound
  /-- A call reports a file in the cache as not found only if S3 answered so in an earlier call. -/
  reported : ∀ before call after, calls = before ++ call :: after →
    ¬ isS3DirectoryFile <:+ normalizePath call.file →
    normalizePath call.file ∈ (afterFileStats before).filenames →
    (s3FileStat maxStatCacheSize call.toStatWorld (afterFileStats before) call.file).1 =
      .error enoent →
    ∃ earlier ∈ before, normalizePath earlier.file = normalizePath call.file ∧ earlier.NotFound

section Negative

variable {calls before after : List FileStatCall} {call : FileStatCall}

theorem afterFileStats_concat (before : List FileStatCall) (call : FileStatCall) :
    afterFileStats (before ++ [call]) =
      (s3FileStat maxStatCacheSize call.toStatWorld (afterFileStats before) call.file).2 := by
  rw [afterFileStats, List.foldl_append]
  rfl

theorem wellFormed_afterFileStats (calls : List FileStatCall) :
    WellFormed maxStatCacheSize (afterFileStats calls) := by
  induction calls using List.reverseRecOn with
  | nil => exact wellFormed_nil _
  | append_singleton before call ih =>
      rw [afterFileStats_concat]
      exact wellFormed_s3FileStat (by decide) (by decide) ih call.file

/-- A lookup finds the file if one of its steps does. -/
theorem lookupFileStat_eq_ok {w : StatWorld} {filename dirname : Bytes} :
    (∃ info, lookupFileStat w filename dirname = .ok info) ↔
      ∃ path ∈ [filename, dirname, filename ++ isS3DirectoryFile],
        ∃ info, headFileStat w path = .ok info := by
  rw [lookupFileStat]
  cases hfile : headFileStat w filename with
  | ok info => exact iff_of_true ⟨info, rfl⟩ ⟨filename, by simp, info, hfile⟩
  | error _ =>
      cases hdir : headFileStat w dirname with
      | ok info => exact iff_of_true ⟨info, rfl⟩ ⟨dirname, by simp, info, hdir⟩
      | error _ => simp [hfile, hdir]

/-- A call whose lookups fail adds an entry that says so. -/
theorem notFound_mem_afterFileStats (hsecret : ¬ isS3DirectoryFile <:+ normalizePath call.file)
    (hnew : normalizePath call.file ∉ (afterFileStats before).filenames)
    (hfails : ¬ ∃ path ∈ call.lookups, ∃ info, headFileStat call.toStatWorld path = .ok info) :
    (⟨normalizePath call.file, none⟩ : StatCacheEntry FileData) ∈
      afterFileStats (before ++ [call]) := by
  have hw := wellFormed_afterFileStats before
  have hfind := findStr_eq_none_iff.2 hnew
  have hdata : (missFileStat call.toStatWorld (normalizePath call.file)).toOption = none := by
    cases hmiss : missFileStat call.toStatWorld (normalizePath call.file) with
    | ok info => exact absurd (lookupFileStat_eq_ok.1 ⟨info, hmiss⟩) hfails
    | error _ => rfl
  rw [afterFileStats_concat, s3FileStat_snd, if_neg hsecret, hfind, hdata]
  refine List.mem_of_find?_eq_some (p := fun entry => entry.filename = normalizePath call.file) ?_
  exact (findStr_insertCacheElement (by decide) (by decide) hw hfind none _).trans (if_pos rfl)

/-- **If what is cached as not found was not found, every answer was definite.** -/
theorem NegativesAreNotFound.definite (h : NegativesAreNotFound calls)
    (hcalls : calls = before ++ call :: after) : call.Definite (afterFileStats before) := by
  by_contra hnot
  simp only [FileStatCall.Definite, not_or] at hnot
  obtain ⟨hsecret, hnew, hfails, hdenied⟩ := hnot
  refine hdenied (h.inserted before call after hcalls _
    (notFound_mem_afterFileStats hsecret hnew hfails) fun hmem => hnew ?_).2
  exact mem_filenames_iff.2 ⟨none, hmem⟩

/-- One call with a definite answer. -/
theorem FileStatCall.Definite.notFound (h : call.Definite (afterFileStats before))
    {filename : Bytes}
    (hmem : (⟨filename, none⟩ : StatCacheEntry FileData) ∈ afterFileStats (before ++ [call]))
    (hnew : (⟨filename, none⟩ : StatCacheEntry FileData) ∉ afterFileStats before) :
    filename = normalizePath call.file ∧ call.NotFound := by
  rw [afterFileStats_concat] at hmem
  rcases mem_s3FileStat hmem with hold | ⟨hsecret, hfind, hentry⟩
  · exact absurd hold hnew
  · obtain ⟨rfl, hdata⟩ := StatCacheEntry.mk.inj hentry
    rcases h with hsecret' | hcached | hfound | hdenied
    · exact absurd hsecret' hsecret
    · exact absurd hcached (findStr_eq_none_iff.1 hfind)
    · obtain ⟨info, hinfo⟩ := lookupFileStat_eq_ok.2 hfound
      rw [missFileStat, hinfo] at hdata
      cases hdata
    · exact ⟨rfl, hdenied⟩

/-- With definite answers, every entry that says so goes back to a call. -/
theorem exists_notFound_of_mem
    (h : ∀ before call after, calls = before ++ call :: after →
      call.Definite (afterFileStats before)) {filename : Bytes}
    (hmem : (⟨filename, none⟩ : StatCacheEntry FileData) ∈ afterFileStats calls) :
    ∃ call ∈ calls, normalizePath call.file = filename ∧ call.NotFound := by
  induction calls using List.reverseRecOn with
  | nil => cases hmem
  | append_singleton before call ih =>
      by_cases hold : (⟨filename, none⟩ : StatCacheEntry FileData) ∈ afterFileStats before
      · obtain ⟨earlier, hearlier, hnot⟩ := ih
          (fun b c a hb => h b c (a ++ [call]) (by rw [hb]; simp)) hold
        exact ⟨earlier, List.mem_append_left _ hearlier, hnot⟩
      · obtain ⟨hname, hnot⟩ := (h before call [] rfl).notFound hmem hold
        exact ⟨call, List.mem_append_right _ List.mem_cons_self, hname.symm, hnot⟩

/-- **When only what was not found is cached as such.** -/
theorem negativesAreNotFound_iff (calls : List FileStatCall) :
    NegativesAreNotFound calls ↔
      ∀ before call after, calls = before ++ call :: after →
        call.Definite (afterFileStats before) := by
  refine ⟨fun h _ _ _ hcalls => h.definite hcalls, fun h => ⟨?_, ?_⟩⟩
  · intro before call after hcalls filename hmem hnew
    exact (h before call after hcalls).notFound hmem hnew
  · intro before call after hcalls hsecret hcached hreport
    obtain ⟨entry, hfind⟩ := Option.ne_none_iff_exists'.1
      fun hnone => findStr_eq_none_iff.1 hnone hcached
    rw [s3FileStat_of_hit (wellFormed_afterFileStats before).distinct hsecret hfind] at hreport
    obtain ⟨hmem, hname⟩ :=
      (findStr_eq_some_iff (wellFormed_afterFileStats before).distinct).1 hfind
    obtain ⟨filename, data⟩ := entry
    cases data with
    | some info => cases hreport
    | none =>
        obtain rfl : filename = normalizePath call.file := hname
        exact exists_notFound_of_mem
          (fun b c a hb => h b c (a ++ call :: after) (by rw [hcalls, hb]; simp)) hmem

/-- A call for a file while S3 is unavailable, and a later one when it is there again. -/
def unavailable : FileStatCall := { oneFileCall "/a" with head := fun _ => ⟨some 503, []⟩ }

/-- The file is reported as not found although it is there. -/
theorem not_negativesAreNotFound :
    ¬ NegativesAreNotFound [unavailable, oneFileCall "/a"] ∧
      (s3FileStat maxStatCacheSize (oneFileCall "/a").toStatWorld (afterFileStats [unavailable])
        (oneFileCall "/a").file).1 = .error enoent := by
  refine ⟨fun h => ?_, by decide +kernel⟩
  have hdefinite : unavailable.Definite (afterFileStats []) := h.definite rfl
  rcases hdefinite with hsecret | hcached | ⟨path, -, info, hinfo⟩ | hnot
  · exact absurd hsecret (by decide +kernel)
  · cases hcached
  · cases hinfo
  · rcases hnot _ List.mem_cons_self with h404 | h410
    · cases h404
    · cases h410

end Negative

end AwsS3fs
