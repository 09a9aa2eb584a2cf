/-
**Open files and the number of their subscriptions.**

When a program opens a file, `s3fs_open` (`fuseif.c`) decides whether it may, and `S3Open`
(`s3if.c`) sends a `CREATE` request to the cache, which makes a row for the file or counts one more
subscription in it.  When the file is closed, `s3fs_release` and `S3FileClose` send a `DROP`
request, which counts one less.  The `CREATE` request is sent for some of the modes in which a file
is opened, the `DROP` request for all of them.

A mount sends one request at a time here, so the queries of a `CREATE` request are made one after
the other (`AwsS3fs.run_createStep` compares this with the step by step model).

Main definitions:

* `AwsS3fs.setOpenFlags`, `AwsS3fs.s3fsOpenAllowed`, `AwsS3fs.s3Open` — the way from a call of
  `open` to the request;
* `AwsS3fs.Names.createLocalDir`, `AwsS3fs.Names.createLocalFile`, `AwsS3fs.serveCreate` — a
  `CREATE` request at the server, as a whole;
* `AwsS3fs.Mount`, `AwsS3fs.mountStep` — open files come and go;
* `AwsS3fs.Balanced` — the subscriptions of a file are its open handles;
* `AwsS3fs.counted` — an open that is counted.

Main results:

* `AwsS3fs.serveCreate_spec` — what a `CREATE` request does to the counts;
* `AwsS3fs.balanced_of_counted` — **the subscriptions are the open handles**, as long as every open
  is counted.
-/

import AwsS3fs.ClientStubs
import AwsS3fs.ConcurrentCreates
import AwsS3fs.FileMetadata
import AwsS3fs.ObjectUrls

set_option relaxedAutoImplicit false
set_option autoImplicit false

namespace AwsS3fs

open CLib Runs Threads

/-! ### Opening a file -/

/-- The flags of `struct OpenFlags` that are used. -/
structure OpenFlags where
  rdonly : Bool
  wronly : Bool
  rdwr : Bool
  append : Bool
  nofollow : Bool

/-- `SetOpenFlags`, with the values of the flags on Linux. -/
def setOpenFlags (flags : UInt32) : OpenFlags where
  rdonly := !(flags &&& 1 != 0 || flags &&& 2 != 0)
  wronly := flags &&& 1 != 0
  rdwr := flags &&& 2 != 0
  append := flags &&& 1024 != 0
  nofollow := flags &&& 131072 != 0

/-- What the file system knows when a file is opened. -/
structure Files where
  getuid : UInt32
  getgid : UInt32
  isUserMemberOfGroup : UInt32 → Bool
  /-- `S3FileStat`. -/
  s3FileStat : Bytes → Option S3FileInfo
  /-- `ValidateDirectoryComponents` returns `0`. -/
  validateDirectoryComponents : Bytes → Bool

/-- `VerifyAccessPermission`. -/
def Files.verifyAccessPermission (fs : Files) (fi : S3FileInfo) (mask : UInt32) : Bool :=
  if fs.getuid = fi.uid ∧ (fi.permissions >>> 6) &&& mask = mask then true
  else if (fi.permissions >>> 3) &&& mask = mask then fs.isUserMemberOfGroup fi.gid
  else if fi.permissions &&& mask = mask ∧ fs.getuid ≠ fi.uid then true
  else fs.getuid == 0 || fs.getgid == 0

/-- `IsReadable`. -/
def Files.isReadable (fs : Files) (fi : S3FileInfo) : Bool := fs.verifyAccessPermission fi 4

/-- `IsWriteable`. -/
def Files.isWriteable (fs : Files) (fi : S3FileInfo) : Bool := fs.verifyAccessPermission fi 2

/-- `IsExecutable`. -/
def Files.isExecutable (fs : Files) (fi : S3FileInfo) : Bool := fs.verifyAccessPermission fi 1

/-- The part of `s3fs_open` about the file itself: its status is `0`. -/
def Files.mayOpen (fs : Files) (fi : S3FileInfo) (openFlags : OpenFlags) : Bool :=
  if openFlags.nofollow && fi.fileType == 108 then false
  else if (openFlags.wronly || openFlags.rdwr) && fi.fileType == 100 then false
  else if openFlags.wronly && fs.isWriteable fi then true
  else if openFlags.rdonly || openFlags.rdwr || openFlags.append then
    fs.isReadable fi && !((openFlags.rdwr || openFlags.append) && !fs.isWriteable fi)
  else false

/-- `s3fs_open`, up to the call of `S3Open`: whether it is called. -/
def s3fsOpenAllowed (fs : Files) (path : Bytes) (flags : UInt32) : Bool :=
  path ≠ [] && fs.validateDirectoryComponents path &&
    (fs.s3FileStat (pathGetDirname path)).any fs.isExecutable &&
    (fs.s3FileStat path).any fun fi => fs.mayOpen fi (setOpenFlags flags)

/-- The modes in which `S3Open` prepares the cache for the file. -/
def OpenFlags.cached (openFlags : OpenFlags) : Bool :=
  openFlags.rdonly || openFlags.rdwr || openFlags.append

/-- The request that `S3Open` makes for a file, given by its URL. -/
def openRequest (url : Bytes) (parentFi fi : S3FileInfo) : CreateRequest where
  path := url
  parentUid := parentFi.uid
  parentGid := parentFi.gid
  parentPermissions := parentFi.permissions.toInt32
  uid := fi.uid
  gid := fi.gid
  permissions := fi.permissions.toInt32
  mtime := Int64.ofInt fi.mtime

/-! ### A `CREATE` request as a whole -/

namespace Names

/-- `CreateLocalDir`: the tables, and the identifier of the directory. -/
def createLocalDir (names : Names) (dir : DirArguments) (localname : Bytes) : Names × ℤ :=
  let id := names.findParent dir.path
  if id ≠ 0 then (names, id) else names.newParent dir localname

/-- `CreateLocalFile`: the tables, the identifier of the file, and its local name. -/
def createLocalFile (names : Names) (bucket : Option Bytes) (file : FileArguments) (parentId : ℤ)
    (localname : Bytes) : Names × ℤ × Bytes :=
  match names.findFile file.path with
  | some r => (names.addSubscriptions r.id 1, r.id, r.localname)
  | none =>
      let inserted := names.newFile bucket file parentId localname
      (inserted.1, inserted.2, localname)

end Names

/-- The names that `mkdtemp` and `mkstemp` make for a request. -/
structure LocalNames where
  directory : Bytes
  file : Bytes

/-- `ClientRequestsCreate`: the tables, and the reply if there is one. -/
def serveCreate (bucket : Option Bytes) (locals : LocalNames) (names : Names) :
    CreateOutcome → Names × Option Bytes
  | .error reply => (names, some reply)
  | .create dir file =>
      let parent := names.createLocalDir dir locals.directory
      if 0 < parent.2 then
        let created := parent.1.createLocalFile bucket file parent.2 locals.file
        if 0 < created.2.1 then
          (created.1, some (ascii "CREATED " ++ created.2.2 ++ 32 :: formatInt created.2.1))
        else (created.1, none)
      else (parent.1, some (ascii "ERROR: cannot create local directory"))

/-! ### The mount -/

/-- The configuration of a mount, and the bucket that the cache has been told, if any. -/
structure MountConfig where
  region : BucketRegion
  bucketName : Bytes
  connection : Option Bytes

/-- The tables of the cache, and the paths of the files that are open. -/
structure Mount where
  names : Names
  handles : List Bytes

/-- What programs do. -/
inductive MountAction
  /-- A file is opened, with success. -/
  | openFile (fs : Files) (released : Bytes → Bytes) (locals : LocalNames) (path : Bytes)
      (flags : UInt32)
  /-- An open file is closed. -/
  | releaseFile (k : ℕ)

/-- What the server reads from the request for a file, if there is information about the file and
its directory. -/
def openOutcome (nl : Newlines) (config : MountConfig) (fs : Files) (released : Bytes → Bytes)
    (path : Bytes) : Option CreateOutcome := do
  let fi ← fs.s3FileStat path
  let parentFi ← fs.s3FileStat (pathGetDirname path)
  let url := prependHttpsToPath config.region config.bucketName path
  return clientRequestsCreate nl released (openRequest url parentFi fi).parameters

/-- `S3Open`: the tables of the cache afterwards, if the call returns `0`.  A call that waits for a
reply that is not sent does not return. -/
def s3Open (nl : Newlines) (config : MountConfig) (fs : Files) (released : Bytes → Bytes)
    (locals : LocalNames) (names : Names) (path : Bytes) (openFlags : OpenFlags) : Option Names :=
  if openFlags.cached then do
    let outcome ← openOutcome nl config fs released path
    let served := serveCreate config.connection locals names outcome
    if served.2.map createCachedFileStatus = some 0 then some served.1 else none
  else (fs.s3FileStat path).map fun _ => names

/-- `S3FileClose`: the tables of the cache afterwards. -/
def s3FileClose (config : MountConfig) (names : Names) (path : Bytes) : Names :=
  match names.findFile (prependHttpsToPath config.region config.bucketName path) with
  | none => names
  | some r => names.addSubscriptions r.id (-1)

/-- **Open files come and go.** -/
def mountStep (nl : Newlines) (config : MountConfig) (s : Mount) : MountAction → Option Mount
  | .openFile fs released locals path flags =>
      if s3fsOpenAllowed fs path flags then
        (s3Open nl config fs released locals s.names path (setOpenFlags flags)).map fun names =>
          ⟨names, s.handles ++ [path]⟩
      else none
  | .releaseFile k =>
      match s.handles[k]? with
      | none => none
      | some path => some ⟨s3FileClose config s.names path, s.handles.eraseIdx k⟩

/-- **The subscriptions of every file are its open handles.** -/
def Balanced (config : MountConfig) (s : Mount) : Prop :=
  ∀ r ∈ s.names.files, r.subscriptions =
    s.handles.countP fun path =>
      prependHttpsToPath config.region config.bucketName path == r.remotename

/-- **An open that is counted**: the mode is one in which the cache is prepared, the cache knows the
bucket, and the server reads the URL of the request as it was meant. -/
def counted (nl : Newlines) (config : MountConfig) : MountAction → Bool
  | .openFile fs released _ path flags =>
      (setOpenFlags flags).cached && config.connection.isSome &&
        (openOutcome nl config fs released path).all
          (·.path == some (prependHttpsToPath config.region config.bucketName path))
  | .releaseFile _ => true

variable {nl : Newlines} {config : MountConfig} {names names' : Names} {s s' t : Mount}

/-! ### The counts -/

/-- One more subscription for a path: the rows are those from before, and one for the path if there
was none. -/
structure Names.Counts (names names' : Names) (path : Bytes) : Prop where
  parent_pos : ∀ p ∈ names'.parents, 0 < p.id
  keeps : names.Keeps names'
  found : ∃ r ∈ names'.files, r.remotename = path
  rows : ∀ r ∈ names'.files,
    (∃ q ∈ names.files, q.remotename = r.remotename ∧
      r.subscriptions = q.subscriptions + if q.remotename = path then 1 else 0) ∨
    (∀ q ∈ names.files, q.remotename ≠ path) ∧ r.remotename = path ∧ r.subscriptions = 1

/-- `CreateLocalDir` finds or makes a directory and leaves the files alone. -/
theorem createLocalDir_spec (hpos : ∀ p ∈ names.parents, 0 < p.id) (dir : DirArguments)
    (localname : Bytes) :
    let made := names.createLocalDir dir localname
    made.1.files = names.files ∧ (∀ p ∈ made.1.parents, 0 < p.id) ∧ 0 < made.2 ∧
      ∃ p ∈ made.1.parents, p.id = made.2 := by
  unfold Names.createLocalDir
  simp only
  split
  · rename_i hne
    obtain ⟨p, hp, hid⟩ := (names.findParent_cases dir.path).resolve_right hne
    exact ⟨rfl, hpos, hid ▸ hpos p hp, p, hp, hid⟩
  · have hid : 0 < (names.newParent dir localname).2 := rowid_pos _
    refine ⟨rfl, ?_, hid, _, List.mem_append_right _ (List.mem_singleton_self _), rfl⟩
    intro p hp
    rcases List.mem_append.1 hp with hp | hp
    · exact hpos p hp
    · rw [List.mem_singleton.1 hp]
      exact hid

/-- `CreateLocalFile` counts one more subscription. -/
theorem createLocalFile_spec (hpos : ∀ p ∈ names.parents, 0 < p.id) {bucket : Option Bytes}
    (hbucket : bucket.isSome = true) (file : FileArguments) {parentId : ℤ}
    (hparent : ∃ p ∈ names.parents, p.id = parentId) (localname : Bytes) :
    let created := names.createLocalFile bucket file parentId localname
    names.Counts created.1 file.path ∧ 0 < created.2.1 := by
  unfold Names.createLocalFile
  cases hfind : names.findFile file.path with
  | none =>
      have habsent : ∀ r ∈ names.files, r.remotename ≠ file.path := by
        simpa using List.find?_eq_none.1 hfind
      obtain ⟨r, hid, hcreatable, hnew, hname, hone⟩ :=
        names.newFile_of_creatable localname hbucket ⟨habsent, hparent⟩
      simp only [hnew]
      refine ⟨⟨hpos, ?_, ⟨r, List.mem_append_right _ (List.mem_singleton_self _), hname⟩, ?_⟩,
        hid ▸ rowid_pos _⟩
      · rintro fileId path ⟨q, hq, hrow⟩
        exact ⟨q, List.mem_append_left _ hq, hrow⟩
      · intro q hq
        rcases List.mem_append.1 hq with hq | hq
        · refine .inl ⟨q, hq, rfl, ?_⟩
          rw [if_neg (habsent q hq), add_zero]
        · rw [List.mem_singleton.1 hq]
          exact .inr ⟨habsent, hname, hone⟩
  | some r =>
      obtain ⟨hr, hname⟩ := Names.findFile_eq_some_iff.1 hfind
      have hhas : names.Has r.id file.path := ⟨r, hr, rfl, hname⟩
      refine ⟨⟨hpos, Names.keeps_addSubscriptions _ _, ?_, ?_⟩, names.id_pos r hr⟩
      · obtain ⟨q, hq, -, hqname⟩ := Names.keeps_addSubscriptions r.id 1 _ _ hhas
        exact ⟨q, hq, hqname⟩
      · intro q hq
        obtain ⟨q₀, hq₀, -, hqname, hcount⟩ := Names.of_mem_addSubscriptions hq
        refine .inl ⟨q₀, hq₀, hqname.symm, ?_⟩
        rw [hcount]
        simp only [hhas.eq_iff hq₀]

/-- **What a `CREATE` request does to the counts**, if it can be read and there is a bucket. -/
theorem serveCreate_spec (hpos : ∀ p ∈ names.parents, 0 < p.id) {bucket : Option Bytes}
    (hbucket : bucket.isSome = true) (locals : LocalNames) (dir : DirArguments)
    (file : FileArguments) :
    names.Counts (serveCreate bucket locals names (.create dir file)).1 file.path := by
  obtain ⟨hfiles, hpos₁, hparent, hknown⟩ := createLocalDir_spec hpos dir locals.directory
  obtain ⟨hcounts, hid⟩ := createLocalFile_spec hpos₁ hbucket file hknown locals.file
  simp only [serveCreate, if_pos hparent, if_pos hid]
  -- the files are still those from before the directory was made
  refine ⟨hcounts.parent_pos, ?_, hcounts.found, ?_⟩
  · rintro fileId path ⟨r, hr, hrow⟩
    exact hcounts.keeps _ _ ⟨r, hfiles ▸ hr, hrow⟩
  · have hrows := hcounts.rows
    rw [hfiles] at hrows
    exact hrows

/-- One subscription less for a path. -/
theorem s3FileClose_spec {path : Bytes} {r₀ : FileEntry} (hr₀ : r₀ ∈ names.files)
    (hname₀ : r₀.remotename = prependHttpsToPath config.region config.bucketName path) :
    names.Keeps (s3FileClose config names path) ∧
      (s3FileClose config names path).parents = names.parents ∧
      ∀ r ∈ (s3FileClose config names path).files, ∃ q ∈ names.files,
        q.remotename = r.remotename ∧ r.subscriptions = q.subscriptions -
          if q.remotename = prependHttpsToPath config.region config.bucketName path then 1
          else 0 := by
  have hfind := Names.findFile_eq_some_iff.2 ⟨hr₀, hname₀⟩
  have hhas : names.Has r₀.id (prependHttpsToPath config.region config.bucketName path) :=
    ⟨r₀, hr₀, rfl, hname₀⟩
  rw [s3FileClose, hfind]
  refine ⟨Names.keeps_addSubscriptions _ _, rfl, ?_⟩
  intro r hr
  obtain ⟨q, hq, -, hname, hcount⟩ := Names.of_mem_addSubscriptions hr
  refine ⟨q, hq, hname.symm, ?_⟩
  simp only [hcount, hhas.eq_iff hq]
  split <;> ring

/-! ### The request step by step -/

/-- The reply is the one that the function for the command sends, with what the tables return. -/
theorem replies_serveCreate (b : Backend) (conn : Connection) (locals : LocalNames)
    (dir : DirArguments) (file : FileArguments)
    (hdir : b.createLocalDir dir = (names.createLocalDir dir locals.directory).2)
    (hfile : b.createLocalFile conn.bucket file (b.createLocalDir dir) =
      ((names.createLocalDir dir locals.directory).1.createLocalFile conn.bucket file
        (b.createLocalDir dir) locals.file).2) :
    (serveCreate conn.bucket locals names (.create dir file)).2.toList =
      replies (answerCreate b conn (.create dir file)) := by
  simp only [serveCreate, answerCreate, hfile]
  rw [hdir]
  split
  · split <;> rfl
  · rfl

section

variable (nl : Newlines) (names : Names) (hpos : ∀ p ∈ names.parents, 0 < p.id)
  (bucket : Option Bytes) (locals : LocalNames) (dir : DirArguments) (file : FileArguments)

/-- A query of the only request. -/
theorem serverStep_query_zero (c : Creator) (localname : Bytes) :
    serverStep nl ⟨names, [c]⟩ (.query 0 localname) =
      (createStep names c localname).map fun next => ⟨next.1, [next.2]⟩ := rfl

include hpos

theorem run_createLocalDir :
    ∃ queries, run (serverStep nl) ⟨names, [⟨bucket, dir, file, .findParent⟩]⟩ queries =
      some ⟨(names.createLocalDir dir locals.directory).1,
        [⟨bucket, dir, file, .findFile (names.createLocalDir dir locals.directory).2⟩]⟩ := by
  have hid := (createLocalDir_spec hpos dir locals.directory).2.2.1
  unfold Names.createLocalDir at hid ⊢
  simp only at hid ⊢
  by_cases hzero : names.findParent dir.path = 0
  · rw [if_neg (not_not.2 hzero)] at hid ⊢
    refine ⟨[.query 0 locals.directory, .query 0 locals.directory], run_cons.2 ⟨⟨names,
      [⟨bucket, dir, file, .newParent⟩]⟩, ?_, run_cons.2 ⟨_, ?_, run_nil _⟩⟩⟩
    · simp only [serverStep_query_zero, createStep, if_neg (not_not.2 hzero), Option.map_some]
    · simp only [serverStep_query_zero, createStep, CreateStage.ofParent, if_pos hid,
        Option.map_some]
  · rw [if_pos hzero] at hid ⊢
    refine ⟨[.query 0 locals.directory], run_cons.2 ⟨_, ?_, run_nil _⟩⟩
    simp only [serverStep_query_zero, createStep, if_pos hzero, CreateStage.ofParent, if_pos hid,
      Option.map_some]

omit hpos in
theorem run_createLocalFile (parentId : ℤ) :
    ∃ queries, run (serverStep nl) ⟨names, [⟨bucket, dir, file, .findFile parentId⟩]⟩ queries =
      some ⟨(names.createLocalFile bucket file parentId locals.file).1,
        [⟨bucket, dir, file,
          .ofFile (names.createLocalFile bucket file parentId locals.file).2.1⟩]⟩ := by
  unfold Names.createLocalFile
  cases hfind : names.findFile file.path with
  | none =>
      refine ⟨[.query 0 locals.file, .query 0 locals.file], run_cons.2 ⟨⟨names,
        [⟨bucket, dir, file, .newFile parentId⟩]⟩, ?_, run_cons.2 ⟨_, ?_, run_nil _⟩⟩⟩
      · simp only [serverStep_query_zero, createStep, hfind, Option.map_some]
      · simp only [serverStep_query_zero, createStep, Option.map_some]
  | some r =>
      refine ⟨[.query 0 locals.file, .query 0 locals.file], run_cons.2 ⟨⟨names,
        [⟨bucket, dir, file, .incrementSubscriptionCount r.id⟩]⟩, ?_,
          run_cons.2 ⟨_, ?_, run_nil _⟩⟩⟩
      · simp only [serverStep_query_zero, createStep, hfind, Option.map_some]
      · simp only [serverStep_query_zero, createStep, Option.map_some]

/-- **A request that is alone with the server makes these queries**: the tables after the last of
them are those after the request as a whole. -/
theorem run_createStep :
    ∃ queries stage, run (serverStep nl) ⟨names, [⟨bucket, dir, file, .findParent⟩]⟩ queries =
      some ⟨(serveCreate bucket locals names (.create dir file)).1, [⟨bucket, dir, file, stage⟩]⟩ ∧
      stage.remaining = 0 := by
  obtain ⟨queries₁, hrun₁⟩ := run_createLocalDir nl names hpos bucket locals dir file
  obtain ⟨queries₂, hrun₂⟩ := run_createLocalFile nl
    (names.createLocalDir dir locals.directory).1 bucket locals dir file
    (names.createLocalDir dir locals.directory).2
  have hid := (createLocalDir_spec hpos dir locals.directory).2.2.1
  have htables : (serveCreate bucket locals names (.create dir file)).1 =
      ((names.createLocalDir dir locals.directory).1.createLocalFile bucket file
        (names.createLocalDir dir locals.directory).2 locals.file).1 := by
    simp only [serveCreate, if_pos hid]
    split <;> rfl
  rw [htables]
  exact ⟨queries₁ ++ queries₂, _, run_append.2 ⟨_, hrun₁, hrun₂⟩, CreateStage.remaining_ofFile _⟩

end

/-! ### Runs of a mount -/

/-- The counts are right, and there is a row for every open file. -/
structure Mount.Inv (config : MountConfig) (s : Mount) : Prop where
  parent_pos : ∀ p ∈ s.names.parents, 0 < p.id
  balanced : Balanced config s
  held : ∀ path ∈ s.handles, ∃ r ∈ s.names.files,
    r.remotename = prependHttpsToPath config.region config.bucketName path

/-- What an open that is counted does. -/
theorem of_openFile {fs : Files} {released : Bytes → Bytes} {locals : LocalNames} {path : Bytes}
    {flags : UInt32} (hcounted : counted nl config (.openFile fs released locals path flags) = true)
    (h : mountStep nl config s (.openFile fs released locals path flags) = some s') :
    config.connection.isSome = true ∧ ∃ dir file,
      file.path = prependHttpsToPath config.region config.bucketName path ∧
      s' = ⟨(serveCreate config.connection locals s.names (.create dir file)).1,
        s.handles ++ [path]⟩ := by
  obtain ⟨hmode, hread⟩ := Bool.and_eq_true_iff.1 hcounted
  obtain ⟨hcached, hconnection⟩ := Bool.and_eq_true_iff.1 hmode
  refine ⟨hconnection, ?_⟩
  unfold mountStep at h
  simp only at h
  split at h
  · obtain ⟨names', hopen, rfl⟩ := Option.map_eq_some_iff.1 h
    rw [s3Open, if_pos hcached] at hopen
    obtain ⟨outcome, houtcome, hserved⟩ := Option.bind_eq_some_iff.1 hopen
    rw [houtcome, Option.all_some] at hread
    obtain ⟨dir, file, rfl, hpath⟩ := CreateOutcome.of_path (beq_iff_eq.1 hread)
    simp only at hserved
    split at hserved
    · cases hserved
      exact ⟨dir, file, hpath, rfl⟩
    · cases hserved
  · cases h

theorem Mount.Inv.openFile (hs : s.Inv config) (hconnection : config.connection.isSome = true)
    (locals : LocalNames) (dir : DirArguments) {file : FileArguments} {path : Bytes}
    (hpath : file.path = prependHttpsToPath config.region config.bucketName path) :
    Mount.Inv config ⟨(serveCreate config.connection locals s.names (.create dir file)).1,
      s.handles ++ [path]⟩ := by
  have hcounts := serveCreate_spec hs.parent_pos hconnection locals dir file
  refine ⟨hcounts.parent_pos, ?_, ?_⟩
  · intro r hr
    rw [List.countP_append, List.countP_singleton]
    rcases hcounts.rows r hr with ⟨q, hq, hname, hcount⟩ | ⟨habsent, hname, hone⟩
    · rw [hcount, hs.balanced q hq, hname, hpath]
      by_cases heq : r.remotename = prependHttpsToPath config.region config.bucketName path
      · simp [heq]
      · simp [heq, Ne.symm heq]
    · -- no handle of the file is open, for it would have a row
      have hnone : s.handles.countP (fun path =>
          prependHttpsToPath config.region config.bucketName path == r.remotename) = 0 := by
        rw [List.countP_eq_zero]
        intro path' hpath' heq
        obtain ⟨q, hq, hqname⟩ := hs.held path' hpath'
        exact habsent q hq (hqname.trans ((beq_iff_eq.1 heq).trans hname))
      rw [hnone, hone, hname, hpath, beq_self_eq_true]
      rfl
  · intro path' hpath'
    rcases List.mem_append.1 hpath' with hpath' | hpath'
    · obtain ⟨q, hq, hqname⟩ := hs.held path' hpath'
      obtain ⟨r, hr, -, hrname⟩ := hcounts.keeps _ _ ⟨q, hq, rfl, rfl⟩
      exact ⟨r, hr, hrname.trans hqname⟩
    · obtain ⟨r, hr, hrname⟩ := hcounts.found
      rw [List.mem_singleton.1 hpath']
      exact ⟨r, hr, hrname.trans hpath⟩

theorem Mount.Inv.releaseFile (hs : s.Inv config) {k : ℕ} {path : Bytes}
    (hk : s.handles[k]? = some path) :
    Mount.Inv config ⟨s3FileClose config s.names path, s.handles.eraseIdx k⟩ := by
  obtain ⟨r₀, hr₀, hname₀⟩ := hs.held path (List.mem_of_getElem? hk)
  obtain ⟨hkeeps, hparents, hrows⟩ := s3FileClose_spec hr₀ hname₀
  refine ⟨hparents.symm ▸ hs.parent_pos, ?_, ?_⟩
  · intro r hr
    obtain ⟨q, hq, hname, hcount⟩ := hrows r hr
    have herase := countP_eraseIdx (p := fun path =>
      prependHttpsToPath config.region config.bucketName path == r.remotename) hk
    rw [hcount, hs.balanced q hq, hname, ← herase]
    by_cases heq : r.remotename = prependHttpsToPath config.region config.bucketName path
    · simp [heq]
    · simp [heq, Ne.symm heq]
  · intro path' hpath'
    obtain ⟨q, hq, hqname⟩ := hs.held path' (List.mem_of_mem_eraseIdx hpath')
    obtain ⟨r, hr, -, hrname⟩ := hkeeps _ _ ⟨q, hq, rfl, rfl⟩
    exact ⟨r, hr, hrname.trans hqname⟩

theorem inv_of_mountStep {a : MountAction} (hs : s.Inv config)
    (hcounted : counted nl config a = true) (h : mountStep nl config s a = some s') :
    s'.Inv config := by
  cases a with
  | openFile fs released locals path flags =>
      obtain ⟨hconnection, dir, file, hpath, rfl⟩ := of_openFile hcounted h
      exact hs.openFile hconnection locals dir hpath
  | releaseFile k =>
      unfold mountStep at h
      simp only at h
      split at h
      · cases h
      · rename_i path hk
        cases h
        exact hs.releaseFile hk

theorem inv_empty (config : MountConfig) : Mount.Inv config ⟨.empty, []⟩ :=
  ⟨by simp [Names.empty], by simp [Balanced, Names.empty], by simp⟩

/-- **The subscriptions are the open handles**, and so never negative, in every run in which every
open is counted. -/
theorem balanced_of_counted {as : List MountAction}
    (hcounted : ∀ a ∈ as, counted nl config a = true)
    (hrun : run (mountStep nl config) ⟨.empty, []⟩ as = some t) :
    Balanced config t ∧ ∀ r ∈ t.names.files, 0 ≤ r.subscriptions := by
  have hstep : ∀ (s : Mount) (a : MountAction) (s' : Mount), s.Inv config →
      counted nl config a = true → mountStep nl config s a = some s' → s'.Inv config :=
    fun s a s' hs hcounted h => inv_of_mountStep hs hcounted h
  have hinv := run_inv hstep (inv_empty config)
    (along_of_forall fun a ha _ _ => hcounted a ha) hrun
  refine ⟨hinv.balanced, fun r hr => ?_⟩
  rw [hinv.balanced r hr]
  exact Int.natCast_nonneg _

/-- A user, and a storage in which every file is there and may be read and written. -/
def Files.open : Files where
  getuid := 1000
  getgid := 1000
  isUserMemberOfGroup _ := true
  s3FileStat _ := some ⟨1000, 1000, 493, 102, false, false, false, 0, 0, 0, 0⟩
  validateDirectoryComponents _ := true

/-- A mount that is connected to the cache. -/
def MountConfig.ireland : MountConfig := ⟨.ireland, ascii "bucket", some (ascii "bucket")⟩

/-- The file `/a` is opened. -/
def openA (flags : UInt32) : MountAction :=
  .openFile .open id ⟨ascii "dddddd", ascii "ffffff"⟩ (ascii "/a") flags

/-- A file is opened twice for reading, and closed once. -/
theorem balanced_readers :
    ∃ t, run (mountStep .lineFeed .ireland) ⟨.empty, []⟩ [openA 0, openA 0, .releaseFile 0] =
      some t ∧ t.handles = [ascii "/a"] ∧ t.names.files.map (·.subscriptions) = [1] ∧
      Balanced .ireland t := by
  obtain ⟨t, ht⟩ : ∃ t, run (mountStep .lineFeed .ireland) ⟨.empty, []⟩
      [openA 0, openA 0, .releaseFile 0] = some t :=
    Option.isSome_iff_exists.1 (by decide +kernel)
  have hvalues : (run (mountStep .lineFeed .ireland) ⟨.empty, []⟩
      [openA 0, openA 0, .releaseFile 0]).map
        (fun t => (t.handles, t.names.files.map (·.subscriptions))) = some ([ascii "/a"], [1]) := by
    decide +kernel
  rw [ht, Option.map_some, Option.some_inj, Prod.mk.injEq] at hvalues
  exact ⟨t, ht, hvalues.1, hvalues.2, (balanced_of_counted (by decide +kernel) ht).1⟩

/-- A file is opened for reading and for writing, and closed both times: one request has counted up
and two have counted down. -/
theorem not_balanced_writer :
    ∃ t, run (mountStep .lineFeed .ireland) ⟨.empty, []⟩
        [openA 0, openA 1, .releaseFile 0, .releaseFile 0] = some t ∧
      t.handles = [] ∧ t.names.files.map (·.subscriptions) = [-1] ∧ ¬ Balanced .ireland t := by
  obtain ⟨t, ht⟩ : ∃ t, run (mountStep .lineFeed .ireland) ⟨.empty, []⟩
      [openA 0, openA 1, .releaseFile 0, .releaseFile 0] = some t :=
    Option.isSome_iff_exists.1 (by decide +kernel)
  have hvalues : (run (mountStep .lineFeed .ireland) ⟨.empty, []⟩
      [openA 0, openA 1, .releaseFile 0, .releaseFile 0]).map
        (fun t => (t.handles, t.names.files.map (·.subscriptions))) = some ([], [-1]) := by
    decide +kernel
  rw [ht, Option.map_some, Option.some_inj, Prod.mk.injEq] at hvalues
  refine ⟨t, ht, hvalues.1, hvalues.2, fun hbalanced => ?_⟩
  obtain ⟨r, hr, hcount⟩ := List.mem_map.1 (hvalues.2 ▸ List.mem_singleton_self (-1 : ℤ))
  have hzero := hbalanced r hr
  rw [hvalues.1, hcount, List.countP_nil] at hzero
  exact absurd hzero (by decide)

end AwsS3fs
