/-
**What a client makes of the replies.**

The functions of `filecacheclient.c` send a request to the cache and read the result off the reply.
`CreateCachedFile` and `DownloadCacheFile` return `0` for success and otherwise the number that they
expect behind `ERROR`, at a fixed place of the reply; `GetLocalFilename` returns a name or nothing.
The replies themselves are composed at the server, and they carry texts where the client expects a
number.

Main definitions:

* `AwsS3fs.createCachedFileStatus`, `AwsS3fs.downloadCacheFileStatus`,
  `AwsS3fs.getLocalFilenameResult` — the results that are read off a reply;
* `AwsS3fs.StubCall` — a call, its request, what the client reports and what the server has done;
* `AwsS3fs.StubCall.Faithful` — the client reports what the server has done.

Main results:

* `AwsS3fs.replies_createCachedFile`, `AwsS3fs.replies_downloadCacheFile`,
  `AwsS3fs.replies_getLocalFilename` — the replies to a call;
* `AwsS3fs.faithful_iff` — **when the client reports what the server has done**.
-/

import AwsS3fs.CommandReplies

set_option relaxedAutoImplicit false
set_option autoImplicit false

namespace AwsS3fs

open CLib

/-! ### The client -/

/-- The result of `CreateCachedFile`. -/
def createCachedFileStatus (reply : Bytes) : ℤ :=
  if reply.take 8 = ascii "CREATED " then 0 else wrapInt (strtoll (reply.drop 7))

/-- The result of `DownloadCacheFile`. -/
def downloadCacheFileStatus (reply : Bytes) : ℤ :=
  if reply.take 2 = ascii "OK" then 0 else wrapInt (strtoll (reply.drop 6))

/-- The result of `GetLocalFilename`. -/
def getLocalFilenameResult (reply : Bytes) : Option Bytes :=
  if reply.take 6 ≠ ascii "FILE -" then some (reply.drop 5) else none

/-- A call of a function whose result depends on the reply. -/
inductive StubCall
  | createCachedFile (f : CreateRequest)
  | downloadCacheFile (path : Bytes)
  | getLocalFilename (remotepath : Bytes)

namespace StubCall

/-- The request that is sent. -/
def request : StubCall → Bytes
  | createCachedFile f => AwsS3fs.createCachedFile f
  | downloadCacheFile path => AwsS3fs.downloadCacheFile path
  | getLocalFilename remotepath => AwsS3fs.getLocalFilename remotepath

/-- The client reports success: the status is `0`, or there is a name. -/
def Reports (reply : Bytes) : StubCall → Prop
  | createCachedFile _ => createCachedFileStatus reply = 0
  | downloadCacheFile _ => downloadCacheFileStatus reply = 0
  | getLocalFilename _ => (getLocalFilenameResult reply).isSome = true

/-- What the call is for has been done at the server: there is a row for the file; the file is
cached, or its download has been asked for; the file is known. -/
def Succeeds (nl : Newlines) (released : Bytes → Bytes) (b : Backend) (conn : Connection) :
    StubCall → Prop
  | createCachedFile f =>
      ∃ dir file, clientRequestsCreate nl released f.parameters = .create dir file ∧
        0 < b.createLocalDir dir ∧
        0 < (b.createLocalFile conn.bucket file (b.createLocalDir dir)).1
  | downloadCacheFile path =>
      b.isFileCached (b.findFile path) = true ∨
        .receiveDownload (b.findFile path) conn.uid ∈ clientRequestsDownload b conn path
  | getLocalFilename remotepath => (b.getLocalPath (trimString nl remotepath)).isSome = true

/-- **The client reports what the server has done**, for every reply that the server sends. -/
def Faithful (nl : Newlines) (released : Bytes → Bytes) (b : Backend) (conn : Connection)
    (call : StubCall) : Prop :=
  ∀ reply ∈ replies (dispatch nl released b conn call.request).2,
    call.Reports reply ↔ call.Succeeds nl released b conn

/-- No error is to be reported, and no name looks like one: the request can be read and there is a
directory for the file; there is a row for the path; the name of the directory does not begin with
`-`. -/
def Plain (nl : Newlines) (released : Bytes → Bytes) (b : Backend) : StubCall → Prop
  | createCachedFile f =>
      ∃ dir file, clientRequestsCreate nl released f.parameters = .create dir file ∧
        0 < b.createLocalDir dir
  | downloadCacheFile path => b.isFileCached (b.findFile path) = true ∨ b.findFile path ≠ 0
  | getLocalFilename remotepath =>
      ∀ localpath, b.getLocalPath (trimString nl remotepath) = some localpath →
        localpath.head? ≠ some 45

end StubCall

variable {nl : Newlines} {released : Bytes → Bytes} {b : Backend} {conn : Connection}

/-! ### The replies -/

theorem replies_createCachedFile (f : CreateRequest) :
    replies (dispatch nl released b conn (createCachedFile f)).2 =
      replies (answerCreate b conn (clientRequestsCreate nl released f.parameters)) := by
  rw [dispatch, commandDispatcher_createCachedFile]
  simp only [Command.execute]

theorem replies_downloadCacheFile (path : Bytes) :
    replies (dispatch nl released b conn (downloadCacheFile path)).2 =
      replies (clientRequestsDownload b conn path) := by
  rw [dispatch, (commandDispatcher_path path).1]
  rfl

theorem replies_getLocalFilename (remotepath : Bytes) :
    replies (dispatch nl released b conn (getLocalFilename remotepath)).2 =
      replies (clientRequestsLocalFilename nl b remotepath) := by
  rw [dispatch, (commandDispatcher_path remotepath).2.1]
  rfl

/-- The reply to a request that cannot be read. -/
theorem eq_of_clientRequestsCreate_error {request reply : Bytes}
    (h : clientRequestsCreate nl released request = .error reply) :
    reply = ascii "ERROR: cannot parse request parameters" := by
  unfold clientRequestsCreate at h
  split at h
  · cases h
    rfl
  · cases h

/-! ### Reading the replies -/

theorem createCachedFileStatus_created (localfile : Bytes) (fileId : ℤ) :
    createCachedFileStatus (ascii "CREATED " ++ localfile ++ 32 :: formatInt fileId) = 0 := by
  rw [createCachedFileStatus, if_pos]
  rw [List.append_assoc]
  rfl

/-- There is no number behind `ERROR`, so the status of an error is that of success. -/
theorem createCachedFileStatus_error :
    createCachedFileStatus (ascii "ERROR: cannot parse request parameters") = 0 ∧
      createCachedFileStatus (ascii "ERROR: cannot create local directory") = 0 := by
  decide +kernel

theorem downloadCacheFileStatus_reply :
    downloadCacheFileStatus (ascii "OK") = 0 ∧ downloadCacheFileStatus (ascii "ERROR ") = 0 := by
  decide +kernel

/-- The name that is read off a reply is the one that the server has put there. -/
theorem getLocalFilenameResult_file {localpath : Bytes} (h : localpath.head? ≠ some 45) :
    getLocalFilenameResult (ascii "FILE " ++ localpath) = some localpath := by
  rw [getLocalFilenameResult, if_pos]
  · rfl
  · cases localpath with
    | nil => decide
    | cons c localpath =>
        intro heq
        refine h ?_
        have hc : c = 45 := by
          have hlast : c = '-'.toUInt8 := by simpa [ascii] using heq
          rw [hlast]
          rfl
        rw [List.head?_cons, hc]

theorem getLocalFilenameResult_dash {localpath : Bytes} (h : localpath.head? = some 45) :
    getLocalFilenameResult (ascii "FILE " ++ localpath) = none := by
  cases localpath with
  | nil => cases h
  | cons c localpath =>
      obtain rfl : c = 45 := Option.some.inj h
      rw [getLocalFilenameResult, if_neg]
      intro hne
      exact hne rfl

/-! ### Faithfulness -/

theorem faithful_createCachedFile_iff (f : CreateRequest) :
    (StubCall.createCachedFile f).Faithful nl released b conn ↔
      (StubCall.createCachedFile f).Plain nl released b := by
  unfold StubCall.Faithful StubCall.Plain StubCall.Succeeds StubCall.Reports StubCall.request
  simp only
  rw [replies_createCachedFile]
  cases houtcome : clientRequestsCreate nl released f.parameters with
  | error reply =>
      obtain rfl := eq_of_clientRequestsCreate_error houtcome
      refine iff_of_false (fun h => ?_) (by rintro ⟨_, _, h, -⟩; cases h)
      obtain ⟨_, _, h, -⟩ := (h _ (List.mem_singleton_self _)).1 createCachedFileStatus_error.1
      cases h
  | create dir file =>
      simp only [CreateOutcome.create.injEq, answerCreate]
      by_cases hdir : 0 < b.createLocalDir dir
      · refine iff_of_true (fun reply hreply => ?_) ⟨dir, file, ⟨rfl, rfl⟩, hdir⟩
        rw [if_pos hdir] at hreply
        by_cases hfile : 0 < (b.createLocalFile conn.bucket file (b.createLocalDir dir)).1
        · rw [if_pos hfile] at hreply
          rw [List.mem_singleton.1 hreply]
          exact iff_of_true (createCachedFileStatus_created _ _)
            ⟨dir, file, ⟨rfl, rfl⟩, hdir, hfile⟩
        · -- nothing is sent, and the client does not return
          rw [if_neg hfile] at hreply
          cases hreply
      · refine iff_of_false (fun h => ?_) (by rintro ⟨_, _, ⟨rfl, rfl⟩, h⟩; exact hdir h)
        rw [if_neg hdir] at h
        obtain ⟨_, _, ⟨rfl, rfl⟩, hdir', -⟩ :=
          (h _ (List.mem_singleton_self _)).1 createCachedFileStatus_error.2
        exact hdir hdir'

theorem faithful_downloadCacheFile_iff (path : Bytes) :
    (StubCall.downloadCacheFile path).Faithful nl released b conn ↔
      (StubCall.downloadCacheFile path).Plain nl released b := by
  unfold StubCall.Faithful StubCall.Plain StubCall.Succeeds StubCall.Reports StubCall.request
  simp only
  rw [replies_downloadCacheFile, clientRequestsDownload]
  by_cases hcached : b.isFileCached (b.findFile path) = true
  · rw [if_pos hcached]
    refine iff_of_true (fun reply hreply => ?_) (.inl hcached)
    rw [List.mem_singleton.1 hreply]
    exact iff_of_true downloadCacheFileStatus_reply.1 (.inl hcached)
  · rw [if_neg hcached]
    by_cases hid : b.findFile path ≠ 0
    · rw [if_pos hid]
      refine iff_of_true (fun reply hreply => ?_) (.inr hid)
      rw [List.mem_singleton.1 hreply]
      exact iff_of_true downloadCacheFileStatus_reply.1 (.inr (List.mem_cons_self ..))
    · rw [if_neg hid]
      refine iff_of_false (fun h => ?_) (by simp [hcached, hid])
      have hsucceeds := (h _ (List.mem_singleton_self _)).1 downloadCacheFileStatus_reply.2
      simp [hcached] at hsucceeds

theorem faithful_getLocalFilename_iff (remotepath : Bytes) :
    (StubCall.getLocalFilename remotepath).Faithful nl released b conn ↔
      (StubCall.getLocalFilename remotepath).Plain nl released b := by
  unfold StubCall.Faithful StubCall.Plain StubCall.Succeeds StubCall.Reports StubCall.request
  simp only
  rw [replies_getLocalFilename, clientRequestsLocalFilename]
  cases hpath : b.getLocalPath (trimString nl remotepath) with
  | none =>
      refine iff_of_true (fun reply hreply => ?_) (by rintro _ h; cases h)
      rw [List.mem_singleton.1 hreply]
      decide
  | some localpath =>
      simp only [replies, List.filterMap_cons, Effect.message, List.filterMap_nil,
        List.mem_singleton, forall_eq, Option.some.injEq, forall_eq', Option.isSome_some, iff_true]
      by_cases hdash : localpath.head? = some 45
      · rw [getLocalFilenameResult_dash hdash]
        exact iff_of_false (by simp) (absurd hdash)
      · rw [getLocalFilenameResult_file hdash]
        exact iff_of_true rfl hdash

/-- **When the client reports what the server has done.**  An error is never reported as one: the
status is `0` for every reply of the server to `CREATE` and to `CACHE`. -/
theorem faithful_iff (nl : Newlines) (released : Bytes → Bytes) (b : Backend) (conn : Connection)
    (call : StubCall) : call.Faithful nl released b conn ↔ call.Plain nl released b := by
  cases call with
  | createCachedFile f => exact faithful_createCachedFile_iff f
  | downloadCacheFile path => exact faithful_downloadCacheFile_iff path
  | getLocalFilename remotepath => exact faithful_getLocalFilename_iff remotepath

/-- The download of a file that the cache does not know is reported as a success. -/
theorem not_faithful_download :
    ¬ ∀ (nl : Newlines) (released : Bytes → Bytes) (b : Backend) (conn : Connection)
      (call : StubCall), call.Faithful nl released b conn := by
  intro h
  have hsucceeds := (h .lineFeed id .emptyCache ⟨1000, some (ascii "bucket"), [], []⟩
    (.downloadCacheFile (ascii "/a")) (ascii "ERROR ") (by decide +kernel)).1
      downloadCacheFileStatus_reply.2
  revert hsucceeds
  change ¬ (_ = true ∨ _ ∈ _)
  decide +kernel

end AwsS3fs
