/-
**Updates of file information.**

`S3Chmod`, `S3Chown` and `S3ModifyTimeStamps` (`s3if.c`) write into the cached information of a file
and then send it to the storage; `S3CreateLink` and `S3Mkdir` send a request for a new object and
then write into the cache.  None of them looks at the status of its request before the end.

Main definitions:

* `AwsS3fs.s3Chmod`, `AwsS3fs.s3Chown`, `AwsS3fs.s3ModifyTimeStamps`, `AwsS3fs.s3CreateLink`,
  `AwsS3fs.s3Mkdir` — what these functions do to the cache;
* `AwsS3fs.KeepsReports` — every file is reported as before;
* `AwsS3fs.NothingNew` — an update writes what is there already.

Main results:

* `AwsS3fs.fileStatView_insert_iff` — what an insertion does to the other files;
* `AwsS3fs.keepsReports_iff` — **when an update whose request fails leaves the cache as it was**.
-/

import AwsS3fs.FileStats

set_option relaxedAutoImplicit false
set_option autoImplicit false

namespace AwsS3fs

open CLib StatCache

/-! ### The updates -/

/-- What an update meets: besides the world of `S3FileStat` the current time, and the status of HTTP
for its own request unless `curl` fails. -/
structure UpdateWorld extends StatWorld where
  now : ℤ
  put : Option ℕ

section Updates

variable (w : UpdateWorld) (cache : StatCache FileData)

/-- The functions that change the information of a file: `write` is what they do where the pointer
of `S3FileStat` points.  The status is that of `UpdateAmzHeaders`. -/
def updateFileInfo (file : Bytes) (write : S3FileInfo → S3FileInfo) : ℤ × StatCache FileData :=
  match s3FileStat maxStatCacheSize w.toStatWorld cache file with
  | (.error status, cache) => (status, cache)
  | (.ok _, cache) => (submitStatus w.put, cache.update (normalizePath file) (Option.map write))

/-- What `S3Chmod` writes. -/
def chmodInfo (now : ℤ) (mode : UInt32) (fi : S3FileInfo) : S3FileInfo :=
  { fi with mtime := now, permissions := mode }

/-- `S3Chmod`. -/
def s3Chmod (file : Bytes) (mode : UInt32) : ℤ × StatCache FileData :=
  updateFileInfo w cache file (chmodInfo w.now mode)

/-- What `S3Chown` writes. -/
def chownInfo (now : ℤ) (uid gid : UInt32) (fi : S3FileInfo) : S3FileInfo :=
  { fi with
    mtime := now
    uid := if uid.toInt32 ≠ -1 then uid else fi.uid
    gid := if gid.toInt32 ≠ -1 then gid else fi.gid }

/-- `S3Chown`. -/
def s3Chown (file : Bytes) (uid gid : UInt32) : ℤ × StatCache FileData :=
  updateFileInfo w cache file (chownInfo w.now uid gid)

/-- What `S3ModifyTimeStamps` writes. -/
def timeStampsInfo (atime mtime : ℤ) (fi : S3FileInfo) : S3FileInfo :=
  { fi with atime := atime, mtime := mtime }

/-- `S3ModifyTimeStamps`. -/
def s3ModifyTimeStamps (file : Bytes) (atime mtime : ℤ) : ℤ × StatCache FileData :=
  updateFileInfo w cache file (timeStampsInfo atime mtime)

/-- The information of a new symbolic link. -/
def linkInfo (path : Bytes) : S3FileInfo where
  uid := w.ctx.getuid
  gid := w.ctx.getgid
  permissions := 511
  fileType := 108
  exeUid := false
  exeGid := false
  sticky := false
  size := path.length
  atime := w.now
  mtime := w.now
  ctime := w.now

/-- `S3CreateLink`. -/
def s3CreateLink (linkname path : Bytes) : ℤ × StatCache FileData :=
  (submitStatus w.put,
    (cache.deleteStatEntry linkname).insertCacheElement maxStatCacheSize linkname
      (some (linkInfo w path)))

/-- The information of a new directory. -/
def directoryInfo (mode : UInt32) : S3FileInfo where
  uid := w.ctx.getuid
  gid := w.ctx.getgid
  permissions := mode
  fileType := 100
  exeUid := false
  exeGid := false
  sticky := false
  size := 0
  atime := w.now
  mtime := w.now
  ctime := w.now

/-- `S3Mkdir`. -/
def s3Mkdir (dirname : Bytes) (mode : UInt32) : ℤ × StatCache FileData :=
  let cleanName := cleanPath dirname
  (submitStatus w.put,
    match cache.searchStatEntry cleanName with
    | (none, cache) => cache
    | (some _, cache) => cache.update cleanName fun _ => some (directoryInfo w mode))

end Updates

/-- A call of one of the functions. -/
inductive MetadataUpdate
  | chmod (file : Bytes) (mode : UInt32)
  | chown (file : Bytes) (uid gid : UInt32)
  | modifyTimeStamps (file : Bytes) (atime mtime : ℤ)
  | createLink (linkname path : Bytes)
  | mkdir (dirname : Bytes) (mode : UInt32)

/-- The status that an update returns, and the cache afterwards. -/
def metadataUpdate (w : UpdateWorld) (cache : StatCache FileData) :
    MetadataUpdate → ℤ × StatCache FileData
  | .chmod file mode => s3Chmod w cache file mode
  | .chown file uid gid => s3Chown w cache file uid gid
  | .modifyTimeStamps file atime mtime => s3ModifyTimeStamps w cache file atime mtime
  | .createLink linkname path => s3CreateLink w cache linkname path
  | .mkdir dirname mode => s3Mkdir w cache dirname mode

/-- An update returns an error because its request failed: with another answer it would not. -/
def RequestFails (w : UpdateWorld) (cache : StatCache FileData) (u : MetadataUpdate) : Prop :=
  (metadataUpdate w cache u).1 ≠ 0 ∧ ∃ put, (metadataUpdate { w with put := put } cache u).1 = 0

/-- **Every file is reported as before.** -/
def KeepsReports (w : UpdateWorld) (cache : StatCache FileData) (u : MetadataUpdate) : Prop :=
  ∀ file, (s3FileStat maxStatCacheSize w.toStatWorld (metadataUpdate w cache u).2 file).1 =
    (s3FileStat maxStatCacheSize w.toStatWorld cache file).1

/-! ### What insertions and writes do to reports -/

/-- The names under which a file is reported. -/
def Reported (filename : Bytes) : Prop :=
  normalizePath filename = filename ∧ ¬ isS3DirectoryFile <:+ filename

/-- The entries that a new one makes expire. -/
def expiring (cache : StatCache FileData) : StatCache FileData :=
  cache.take (cache.length + 1 - maxStatCacheSize)

/-- What a new entry makes expire is reported as the storage has it. -/
def ExpiringAgree (w : StatWorld) (cache : StatCache FileData) : Prop :=
  ∀ entry ∈ expiring cache, Reported entry.filename →
    reportOf entry.data = missFileStat w entry.filename

section Views

variable {w : StatWorld} {cache cache' : StatCache FileData} {filename : Bytes}

/-- A table with its invariant is reported by names. -/
theorem forall_s3FileStat_iff (hw : WellFormed maxStatCacheSize cache)
    (hw' : WellFormed maxStatCacheSize cache') :
    (∀ file, (s3FileStat maxStatCacheSize w cache' file).1 =
        (s3FileStat maxStatCacheSize w cache file).1) ↔
      ∀ filename, Reported filename →
        fileStatView w cache' filename = fileStatView w cache filename := by
  have hmap : Function.Injective (Except.map (ε := ℤ) (some : S3FileInfo → Option S3FileInfo)) := by
    intro x y hxy
    cases x <;> cases y <;> simp_all [Except.map]
  constructor
  · rintro h filename ⟨hname, hsecret⟩
    have hreport := h filename
    rw [s3FileStat_fst (by decide) (by decide) hw, s3FileStat_fst (by decide) (by decide) hw', hname,
      if_neg hsecret, if_neg hsecret] at hreport
    exact hmap hreport
  · intro h file
    rw [s3FileStat_fst (by decide) (by decide) hw, s3FileStat_fst (by decide) (by decide) hw']
    split
    · rfl
    · rename_i hsecret
      rw [h _ ⟨normalizePath_normalizePath file, hsecret⟩]

theorem fileStatView_congr (h : cache'.findStr filename = cache.findStr filename) :
    fileStatView w cache' filename = fileStatView w cache filename := by
  rw [fileStatView, fileStatView, h]

/-- What a write does to the reports. -/
theorem fileStatView_update {entry : StatCacheEntry FileData}
    (hfind : cache.findStr filename = some entry) (write : FileData → FileData) (g : Bytes) :
    fileStatView w (cache.update filename write) g =
      if g = filename then reportOf (write entry.data) else fileStatView w cache g := by
  by_cases hg : g = filename
  · subst hg
    rw [fileStatView, findStr_update, if_pos rfl, if_pos rfl, hfind]
    rfl
  · rw [if_neg hg]
    exact fileStatView_congr ((findStr_update _ _ _ _).trans (if_neg hg))

theorem fileStatView_insert_self (hw : WellFormed maxStatCacheSize cache)
    (hfind : cache.findStr filename = none) (data : FileData) :
    fileStatView w (cache.insertCacheElement maxStatCacheSize filename data) filename =
      reportOf data := by
  rw [fileStatView, findStr_insertCacheElement (by decide) (by decide) hw hfind, if_pos rfl]

/-- **What an insertion does to the other files**: those that expire are looked up again. -/
theorem fileStatView_insert_iff (hw : WellFormed maxStatCacheSize cache)
    (hfind : cache.findStr filename = none) (data : FileData) :
    (∀ g, Reported g → g ≠ filename →
        fileStatView w (cache.insertCacheElement maxStatCacheSize filename data) g =
          fileStatView w cache g) ↔ ExpiringAgree w cache := by
  have hview : ∀ g, g ≠ filename →
      fileStatView w (cache.insertCacheElement maxStatCacheSize filename data) g =
        if (findStr (expiring cache) g).isSome then missFileStat w g else fileStatView w cache g := by
    intro g hg
    rw [fileStatView, findStr_insertCacheElement (by decide) (by decide) hw hfind, if_neg hg,
      findStr_drop hw.distinct, ← expiring]
    cases (findStr (expiring cache) g).isSome <;> rfl
  have htake : (filenames (expiring cache)).Sublist cache.filenames := (List.take_sublist _ _).map _
  constructor
  · intro h entry hentry hreported
    have hmem : entry ∈ cache := List.mem_of_mem_take hentry
    have hcached := (findStr_eq_some_iff hw.distinct).2 ⟨hmem, rfl⟩
    have hne : entry.filename ≠ filename := by
      rintro hname
      rw [hname, hfind] at hcached
      cases hcached
    have hsome : (findStr (expiring cache) entry.filename).isSome = true := by
      rw [(findStr_eq_some_iff (hw.distinct.sublist htake)).2 ⟨hentry, rfl⟩]
      rfl
    have heq := h entry.filename hreported hne
    rw [hview _ hne, if_pos hsome, fileStatView, hcached] at heq
    exact heq.symm
  · intro h g hreported hne
    rw [hview g hne]
    split
    · rename_i hsome
      obtain ⟨entry, hentry⟩ := Option.isSome_iff_exists.1 hsome
      obtain ⟨hmem, rfl⟩ := (findStr_eq_some_iff (hw.distinct.sublist htake)).1 hentry
      have hcached := (findStr_eq_some_iff hw.distinct).2 ⟨List.mem_of_mem_take hmem, rfl⟩
      rw [fileStatView, hcached]
      exact (h entry hmem hreported).symm
    · rfl

/-- A call of `S3FileStat` for a file that is there, and what it does to the other files. -/
theorem fileStatView_s3FileStat (hw : WellFormed maxStatCacheSize cache) {file : Bytes}
    {info : S3FileInfo} (hsecret : ¬ isS3DirectoryFile <:+ normalizePath file)
    (hinfo : fileStatView w cache (normalizePath file) = .ok info) :
    fileInfoAt (s3FileStat maxStatCacheSize w cache file).2 (normalizePath file) = some info ∧
      ((∀ g, Reported g → g ≠ normalizePath file →
          fileStatView w (s3FileStat maxStatCacheSize w cache file).2 g = fileStatView w cache g) ↔
        (normalizePath file ∉ cache.filenames → ExpiringAgree w cache)) := by
  rw [s3FileStat_snd, if_neg hsecret]
  cases hfind : cache.findStr (normalizePath file) with
  | some entry =>
      have hcached : normalizePath file ∈ cache.filenames := mem_filenames_of_findStr hfind
      have hsearch := findStr_searchStatEntry hw.distinct (normalizePath file)
      rw [Option.isSome_some, if_pos rfl]
      refine ⟨?_, iff_of_true (fun g _ _ => fileStatView_congr (hsearch g)) fun h => absurd hcached h⟩
      rw [fileStatView, hfind] at hinfo
      rw [fileInfoAt, hsearch, hfind]
      obtain ⟨filename, data⟩ := entry
      cases data with
      | none => cases hinfo
      | some info' =>
          obtain rfl := Except.ok.inj hinfo
          rfl
  | none =>
      have hnew : normalizePath file ∉ cache.filenames := findStr_eq_none_iff.1 hfind
      rw [if_neg (by simp)]
      refine ⟨?_, (fileStatView_insert_iff hw hfind _).trans (imp_iff_right hnew).symm⟩
      rw [fileStatView, hfind] at hinfo
      have hmiss : missFileStat w (normalizePath file) = .ok info := hinfo
      rw [fileInfoAt, findStr_insertCacheElement (by decide) (by decide) hw hfind, if_pos rfl, hmiss]
      rfl

end Views

/-! ### When the reports are kept -/

/-- A write through the pointer of `S3FileStat` changes nothing, and what the call makes expire is
reported as the storage has it. -/
def WritesSame (w : StatWorld) (cache : StatCache FileData) (file : Bytes)
    (write : S3FileInfo → S3FileInfo) : Prop :=
  (∀ info, fileStatView w cache (normalizePath file) = .ok info → write info = info) ∧
    (normalizePath file ∉ cache.filenames → ExpiringAgree w cache)

/-- **An update writes what is there already.** -/
def NothingNew (w : UpdateWorld) (cache : StatCache FileData) : MetadataUpdate → Prop
  | .chmod file mode => WritesSame w.toStatWorld cache file (chmodInfo w.now mode)
  | .chown file uid gid => WritesSame w.toStatWorld cache file (chownInfo w.now uid gid)
  | .modifyTimeStamps file atime mtime =>
      WritesSame w.toStatWorld cache file (timeStampsInfo atime mtime)
  | .createLink linkname path =>
      (Reported linkname → fileStatView w.toStatWorld cache linkname = .ok (linkInfo w path)) ∧
        (linkname ∉ cache.filenames → ExpiringAgree w.toStatWorld cache)
  | .mkdir dirname mode =>
      Reported (cleanPath dirname) → cleanPath dirname ∈ cache.filenames →
        fileStatView w.toStatWorld cache (cleanPath dirname) = .ok (directoryInfo w mode)

section Keeps

variable {w : UpdateWorld} {cache : StatCache FileData}

/-- The request is sent only for a file that is there. -/
theorem exists_of_requestFails {file : Bytes} {write : S3FileInfo → S3FileInfo}
    (hfails : (updateFileInfo w cache file write).1 ≠ 0)
    (hcould : ∃ put, (updateFileInfo { w with put := put } cache file write).1 = 0) :
    ∃ info, (s3FileStat maxStatCacheSize w.toStatWorld cache file).1 = .ok info := by
  obtain ⟨put, hput⟩ := hcould
  simp only [updateFileInfo] at hfails hput
  cases hstat : s3FileStat maxStatCacheSize w.toStatWorld cache file with
  | mk report cache' =>
      cases report with
      | ok info => exact ⟨info, rfl⟩
      | error status =>
          rw [hstat] at hfails hput
          exact absurd hput hfails

theorem updateFileInfo_of_ok {file : Bytes} {write : S3FileInfo → S3FileInfo}
    {found : Option S3FileInfo}
    (hstat : (s3FileStat maxStatCacheSize w.toStatWorld cache file).1 = .ok found) :
    updateFileInfo w cache file write =
      (submitStatus w.put, (s3FileStat maxStatCacheSize w.toStatWorld cache file).2.update
        (normalizePath file) (Option.map write)) := by
  rw [updateFileInfo]
  cases hresult : s3FileStat maxStatCacheSize w.toStatWorld cache file with
  | mk report cache' =>
      rw [hresult] at hstat
      subst hstat
      rfl

/-- A write through the pointer of `S3FileStat`. -/
theorem forall_fileStatView_updateFileInfo (hw : WellFormed maxStatCacheSize cache) {file : Bytes}
    {found : Option S3FileInfo}
    (hstat : (s3FileStat maxStatCacheSize w.toStatWorld cache file).1 = .ok found)
    (write : S3FileInfo → S3FileInfo) :
    WellFormed maxStatCacheSize (updateFileInfo w cache file write).2 ∧
      ((∀ g, Reported g → fileStatView w.toStatWorld (updateFileInfo w cache file write).2 g =
          fileStatView w.toStatWorld cache g) ↔ WritesSame w.toStatWorld cache file write) := by
  have hreport := s3FileStat_fst (by decide) (by decide) hw file (w := w.toStatWorld)
  rw [hstat] at hreport
  have hsecret : ¬ isS3DirectoryFile <:+ normalizePath file := by
    intro hsecret
    rw [if_pos hsecret] at hreport
    cases hreport
  rw [if_neg hsecret] at hreport
  obtain ⟨info, hinfo⟩ : ∃ info,
      fileStatView w.toStatWorld cache (normalizePath file) = .ok info := by
    cases hview : fileStatView w.toStatWorld cache (normalizePath file) with
    | ok info => exact ⟨info, rfl⟩
    | error status =>
        rw [hview] at hreport
        cases hreport
  obtain ⟨hat, hothers⟩ := fileStatView_s3FileStat hw hsecret hinfo
  have hwell := wellFormed_s3FileStat (by decide) (by decide) hw file (w := w.toStatWorld)
  obtain ⟨entry, hentry, hdata⟩ := Option.bind_eq_some_iff.1 hat
  have hview := fileStatView_update (w := w.toStatWorld) hentry (Option.map write)
  have hself : reportOf (Option.map write entry.data) = .ok (write info) := by
    rw [hdata]
    rfl
  have hreported : Reported (normalizePath file) := ⟨normalizePath_normalizePath file, hsecret⟩
  rw [updateFileInfo_of_ok hstat, WritesSame, ← hothers]
  refine ⟨hwell.update _ _, ?_⟩
  constructor
  · intro h
    constructor
    · intro info' hinfo'
      have hkept := h _ hreported
      rw [hview, if_pos rfl, hself, hinfo'] at hkept
      obtain rfl := Except.ok.inj (hinfo.symm.trans hinfo')
      exact Except.ok.inj hkept
    · intro g hg hne
      rw [← h g hg, hview, if_neg hne]
  · rintro ⟨hwrite, hkept⟩ g hg
    rw [hview]
    by_cases hne : g = normalizePath file
    · rw [if_pos hne, hself, hne, hinfo, hwrite info hinfo]
    · rw [if_neg hne, hkept g hg hne]

/-- The three functions that write through the pointer of `S3FileStat`. -/
theorem keepsReports_updateFileInfo (hw : WellFormed maxStatCacheSize cache) {u : MetadataUpdate}
    {file : Bytes} {write : S3FileInfo → S3FileInfo}
    (hu : ∀ put, metadataUpdate { w with put := put } cache u =
      updateFileInfo { w with put := put } cache file write) (h : RequestFails w cache u) :
    KeepsReports w cache u ↔ WritesSame w.toStatWorld cache file write := by
  have hself : metadataUpdate w cache u = updateFileInfo w cache file write := hu w.put
  obtain ⟨hfails, put, hput⟩ := h
  rw [hself] at hfails
  rw [hu put] at hput
  obtain ⟨info, hstat⟩ := exists_of_requestFails hfails ⟨put, hput⟩
  obtain ⟨hwell, hiff⟩ := forall_fileStatView_updateFileInfo hw hstat write
  rw [KeepsReports, hself, forall_s3FileStat_iff hw hwell, hiff]

theorem keepsReports_createLink (hw : WellFormed maxStatCacheSize cache) (linkname path : Bytes) :
    KeepsReports w cache (.createLink linkname path) ↔
      NothingNew w cache (.createLink linkname path) := by
  have hdelete := findStr_deleteStatEntry cache linkname
  have hnone : (cache.deleteStatEntry linkname).findStr linkname = none :=
    (hdelete linkname).trans (if_pos rfl)
  have hwdelete := hw.deleteStatEntry linkname
  have hwell := hwdelete.insert (by decide) (by decide) hnone (some (linkInfo w path))
  have hself := fileStatView_insert_self (w := w.toStatWorld) hwdelete hnone
    (some (linkInfo w path))
  have hothers := fileStatView_insert_iff (w := w.toStatWorld) hwdelete hnone
    (some (linkInfo w path))
  have hviews : ∀ g, g ≠ linkname → fileStatView w.toStatWorld (cache.deleteStatEntry linkname) g =
      fileStatView w.toStatWorld cache g :=
    fun g hg => fileStatView_congr ((hdelete g).trans (if_neg hg))
  have hexpire : ExpiringAgree w.toStatWorld (cache.deleteStatEntry linkname) ↔
      (linkname ∉ cache.filenames → ExpiringAgree w.toStatWorld cache) := by
    by_cases hcached : linkname ∈ cache.filenames
    · refine iff_of_true (fun entry hentry => ?_) fun h => absurd hcached h
      have hlt := length_deleteStatEntry_lt hcached
      have hle := hw.length_le
      have hzero : (cache.deleteStatEntry linkname).length + 1 - maxStatCacheSize = 0 := by omega
      rw [expiring, hzero, List.take_zero] at hentry
      cases hentry
    · have hsame : cache.deleteStatEntry linkname = cache := by
        rw [deleteStatEntry, findStr_eq_none_iff.2 hcached]
      rw [hsame, imp_iff_right hcached]
  have hcache : (metadataUpdate w cache (.createLink linkname path)).2 =
      (cache.deleteStatEntry linkname).insertCacheElement maxStatCacheSize linkname
        (some (linkInfo w path)) := rfl
  rw [KeepsReports, hcache, forall_s3FileStat_iff hw hwell, NothingNew, ← hexpire, ← hothers]
  constructor
  · intro h
    refine ⟨fun hreported => (h linkname hreported).symm.trans hself, fun g hg hne => ?_⟩
    rw [hviews g hne]
    exact h g hg
  · rintro ⟨hlink, hkept⟩ g hg
    by_cases hne : g = linkname
    · subst hne
      exact hself.trans (hlink hg).symm
    · exact (hkept g hg hne).trans (hviews g hne)

theorem keepsReports_mkdir (hw : WellFormed maxStatCacheSize cache) (dirname : Bytes)
    (mode : UInt32) :
    KeepsReports w cache (.mkdir dirname mode) ↔ NothingNew w cache (.mkdir dirname mode) := by
  cases hfind : cache.findStr (cleanPath dirname) with
  | none =>
      have hnew : cleanPath dirname ∉ cache.filenames := findStr_eq_none_iff.1 hfind
      have hcache : (metadataUpdate w cache (.mkdir dirname mode)).2 = cache := by
        simp only [metadataUpdate, s3Mkdir, searchStatEntry, hfind]
      exact iff_of_true (fun file => by rw [hcache]) fun _ hcached => absurd hcached hnew
  | some entry =>
      have hcached : cleanPath dirname ∈ cache.filenames := mem_filenames_of_findStr hfind
      have hcache : (metadataUpdate w cache (.mkdir dirname mode)).2 =
          (cache.searchStatEntry (cleanPath dirname)).2.update (cleanPath dirname)
            fun _ => some (directoryInfo w mode) := by
        simp only [metadataUpdate, s3Mkdir, searchStatEntry, hfind]
      have hsearch := findStr_searchStatEntry hw.distinct (cleanPath dirname)
      have hwell := (hw.search (cleanPath dirname)).update (cleanPath dirname)
        fun _ => some (directoryInfo w mode)
      have hview : ∀ g, fileStatView w.toStatWorld
          ((cache.searchStatEntry (cleanPath dirname)).2.update (cleanPath dirname)
            fun _ => some (directoryInfo w mode)) g =
          if g = cleanPath dirname then .ok (directoryInfo w mode)
          else fileStatView w.toStatWorld cache g := by
        intro g
        rw [fileStatView_update ((hsearch _).trans hfind), fileStatView_congr (hsearch g)]
        rfl
      rw [KeepsReports, hcache, forall_s3FileStat_iff hw hwell, NothingNew]
      constructor
      · intro h hreported _
        exact (h _ hreported).symm.trans ((hview _).trans (if_pos rfl))
      · intro h g hg
        rw [hview]
        split
        · rename_i hname
          subst hname
          exact (h hg hcached).symm
        · rfl

/-- **When an update whose request fails leaves the cache as it was.** -/
theorem keepsReports_iff (w : UpdateWorld)
    (cache : { cache : StatCache FileData // WellFormed maxStatCacheSize cache })
    (u : MetadataUpdate) (h : RequestFails w cache.1 u) :
    KeepsReports w cache.1 u ↔ NothingNew w cache.1 u := by
  cases u with
  | chmod file mode => exact keepsReports_updateFileInfo cache.2 (fun _ => rfl) h
  | chown file uid gid => exact keepsReports_updateFileInfo cache.2 (fun _ => rfl) h
  | modifyTimeStamps file atime mtime => exact keepsReports_updateFileInfo cache.2 (fun _ => rfl) h
  | createLink linkname path => exact keepsReports_createLink cache.2 linkname path
  | mkdir dirname mode => exact keepsReports_mkdir cache.2 dirname mode

/-- The bucket with one file, while requests for changes are answered with 503. -/
def readOnlyBucket : UpdateWorld := { oneFileCall "/a" with now := 1340100246, put := some 503 }

theorem keepsReports_chmod_readOnlyBucket :
    ¬ KeepsReports readOnlyBucket [] (.chmod (ascii "/a") 448) ∧
      KeepsReports readOnlyBucket [] (.mkdir (ascii "/d") 493) := by
  constructor
  · intro h
    have hnew := (keepsReports_iff readOnlyBucket ⟨[], wellFormed_nil _⟩ (.chmod (ascii "/a") 448)
      ⟨by decide +kernel, some 200, by decide +kernel⟩).1 h
    exact absurd (hnew.1 _ rfl) (by decide +kernel)
  · refine (keepsReports_iff readOnlyBucket ⟨[], wellFormed_nil _⟩ (.mkdir (ascii "/d") 493)
      ⟨by decide +kernel, some 200, by decide +kernel⟩).2 ?_
    rintro - hmem
    cases hmem

/-- The file is reported with the new permissions, and a symbolic link as if it were there. -/
theorem not_keepsReports_readOnlyBucket :
    (RequestFails readOnlyBucket [] (.chmod (ascii "/a") 448) ∧
        ¬ KeepsReports readOnlyBucket [] (.chmod (ascii "/a") 448)) ∧
      RequestFails readOnlyBucket [] (.createLink (ascii "/link") (ascii "/a")) ∧
        ¬ KeepsReports readOnlyBucket [] (.createLink (ascii "/link") (ascii "/a")) := by
  refine ⟨⟨⟨by decide +kernel, some 200, by decide +kernel⟩, fun h => ?_⟩,
    ⟨by decide +kernel, some 200, by decide +kernel⟩, fun h => ?_⟩
  · exact absurd (h (ascii "/a")) (by decide +kernel)
  · exact absurd (h (ascii "/link")) (by decide +kernel)

end Keeps

end AwsS3fs
