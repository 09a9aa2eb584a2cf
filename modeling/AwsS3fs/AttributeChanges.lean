/-
**Changes of attributes.**

`s3fs_chmod`, `s3fs_chown` and `s3fs_utimens` (`fuseif.c`) change the cached information of a file,
and `s3fs_getattr` builds a `struct stat` from it.  The permissions and the special bits are kept
apart in the information and merged again in `st_mode`.

Main definitions:

* `AwsS3fs.copyFileInfoToFileStat`, `AwsS3fs.s3fsGetattr`, `AwsS3fs.s3fsUtimens` — the functions of
  `fuseif.c`;
* `AwsS3fs.attributeStep` — the cache after a successful change, or after `S3FileStat` for any file;
* `AwsS3fs.ReadBack` — what was set is reported;
* `AwsS3fs.Settable` — what can be set.

Main results:

* `AwsS3fs.changed_of_run` — the information after any number of changes;
* `AwsS3fs.readBack_iff` — **when what was set is reported**.
-/

import AwsS3fs.MetadataUpdates
import AwsS3fs.Lib.Runs

set_option relaxedAutoImplicit false
set_option autoImplicit false

namespace AwsS3fs

open CLib StatCache Runs

/-! ### The functions of the file system -/

/-- `struct stat`, as far as it is filled in. -/
structure FileStat where
  mode : UInt32
  uid : UInt32
  gid : UInt32
  size : ℤ
  blocks : ℤ
  blksize : ℤ
  atime : ℤ
  mtime : ℤ
  ctime : ℤ
  nlink : ℕ
  deriving DecidableEq

/-- `S_IFDIR`, `S_IFREG` or `S_IFLNK`. -/
def fileTypeBits (fileType : UInt8) : UInt32 :=
  (if fileType = 100 then 16384 else 0) ||| (if fileType = 102 then 32768 else 0) |||
    (if fileType = 108 then 40960 else 0)

/-- `CopyFileInfoToFileStat`. -/
def copyFileInfoToFileStat (fileInfo : S3FileInfo) : FileStat where
  mode := fileTypeBits fileInfo.fileType ||| fileInfo.permissions |||
    (if fileInfo.fileType = 108 then 511 else 0) ||| (if fileInfo.exeGid then 1024 else 0) |||
    (if fileInfo.exeUid then 2048 else 0) ||| (if fileInfo.sticky then 512 else 0)
  uid := fileInfo.uid
  gid := fileInfo.gid
  size := fileInfo.size
  blocks := (fileInfo.size + 511).tdiv 512
  blksize := 65536
  atime := fileInfo.atime
  mtime := fileInfo.mtime
  ctime := fileInfo.ctime
  nlink := 1

/-- `s3fs_getattr`, with the status of `VerifyPathSearchPermissions`. -/
def s3fsGetattr (w : StatWorld) (verified : ℤ) (cache : StatCache FileData) (path : Bytes) :
    Except ℤ (Option FileStat) × StatCache FileData :=
  if path = [] then (.error enoent, cache)
  else if verified ≠ 0 then (.error verified, cache)
  else
    let result := s3FileStat maxStatCacheSize w cache path
    (result.1.map (Option.map copyFileInfoToFileStat), result.2)

/-- `struct timespec`. -/
structure Timespec where
  tvSec : ℤ
  tvNsec : ℤ

/-- `s3fs_utimens`. -/
def s3fsUtimens (w : UpdateWorld) (cache : StatCache FileData) (file : Bytes) (tv₀ _tv₁ : Timespec) :
    ℤ × StatCache FileData :=
  let atime := tv₀.tvSec
  let mtime := tv₀.tvSec
  s3ModifyTimeStamps w cache file atime mtime

/-- A change, with a mode of twelve bits. -/
inductive AttributeChange
  | chmod (mode : { mode : UInt32 // mode &&& 4095 = mode })
  | chown (uid gid : UInt32)
  | utimens (tv₀ tv₁ : Timespec)

/-- `s3fs_chmod`, `s3fs_chown` and `s3fs_utimens`. -/
def attributeChange (w : UpdateWorld) (cache : StatCache FileData) (path : Bytes) :
    AttributeChange → ℤ × StatCache FileData
  | .chmod mode => s3Chmod w cache path mode
  | .chown uid gid => s3Chown w cache path uid gid
  | .utimens tv₀ tv₁ => s3fsUtimens w cache path tv₀ tv₁

/-- A change of a file, or a call of `S3FileStat` for any file, as in
`VerifyPathSearchPermissions`. -/
inductive AttributeCall
  | change (w : UpdateWorld) (c : AttributeChange)
  | stat (w : StatWorld) (file : Bytes)

/-- The changes among the calls. -/
def changes (calls : List AttributeCall) : List AttributeChange :=
  calls.filterMap fun
    | .change _ c => some c
    | .stat _ _ => none

/-- The cache after a change that is successful, or a call of `S3FileStat`, as long as the entry
stays in it. -/
def attributeStep (path : Bytes) (cache : StatCache FileData) (call : AttributeCall) :
    Option (StatCache FileData) :=
  match call with
  | .change w c =>
      let result := attributeChange w cache path c
      if result.1 = 0 ∧ (result.2.findStr (normalizePath path)).isSome then some result.2 else none
  | .stat w file =>
      let result := s3FileStat maxStatCacheSize w cache file
      if (result.2.findStr (normalizePath path)).isSome then some result.2 else none

/-! ### What is to be reported -/

namespace AttributeChange

/-- What a change says about the mode, the owner, the group and the access time. -/
def mode? : AttributeChange → Option UInt32
  | chmod mode => some mode
  | _ => none

def uid? : AttributeChange → Option UInt32
  | chown uid _ => if uid.toInt32 ≠ -1 then some uid else none
  | _ => none

def gid? : AttributeChange → Option UInt32
  | chown _ gid => if gid.toInt32 ≠ -1 then some gid else none
  | _ => none

def atime? : AttributeChange → Option ℤ
  | utimens tv₀ _ => some tv₀.tvSec
  | _ => none

end AttributeChange

/-- What the last of the changes says that says something. -/
def lastOf {β : Type} (said : AttributeChange → Option β) (cs : List AttributeChange) : Option β :=
  cs.reverse.findSome? said

/-- **What was set is reported**, and everything else as before. -/
structure ReadBack (before : FileStat) (cs : List AttributeChange) (after : FileStat) : Prop where
  permissions : after.mode &&& 4095 = (lastOf AttributeChange.mode? cs).getD (before.mode &&& 4095)
  fileType : after.mode &&& ~~~4095 = before.mode &&& ~~~4095
  uid : after.uid = (lastOf AttributeChange.uid? cs).getD before.uid
  gid : after.gid = (lastOf AttributeChange.gid? cs).getD before.gid
  atime : after.atime = (lastOf AttributeChange.atime? cs).getD before.atime
  mtime : ∀ tv₀ tv₁, cs.getLast? = some (.utimens tv₀ tv₁) → after.mtime = tv₁.tvSec
  ctime : after.ctime = before.ctime
  size : after.size = before.size
  blocks : after.blocks = before.blocks
  blksize : after.blksize = before.blksize
  nlink : after.nlink = before.nlink

/-- **What can be set.**  The special bits that a file had at the start cannot be taken away, and
the two times of a file cannot be different. -/
structure Settable (fi : S3FileInfo) (cs : List AttributeChange) : Prop where
  special : ∀ mode, lastOf AttributeChange.mode? cs = some mode → mode ||| modex fi = mode
  fileType : (lastOf AttributeChange.mode? cs).isSome →
    fileTypeBits fi.fileType ||| fi.permissions &&& ~~~4095 = fileTypeBits fi.fileType
  times : ∀ tv₀ tv₁, cs.getLast? = some (.utimens tv₀ tv₁) → tv₀.tvSec = tv₁.tvSec

/-! ### The information after the changes -/

/-- The information after a number of changes. -/
structure Changed (fi : S3FileInfo) (cs : List AttributeChange) (fi' : S3FileInfo) : Prop where
  permissions : fi'.permissions = (lastOf AttributeChange.mode? cs).getD fi.permissions
  uid : fi'.uid = (lastOf AttributeChange.uid? cs).getD fi.uid
  gid : fi'.gid = (lastOf AttributeChange.gid? cs).getD fi.gid
  atime : fi'.atime = (lastOf AttributeChange.atime? cs).getD fi.atime
  mtime : ∀ tv₀ tv₁, cs.getLast? = some (.utimens tv₀ tv₁) → fi'.mtime = tv₀.tvSec
  ctime : fi'.ctime = fi.ctime
  size : fi'.size = fi.size
  fileType : fi'.fileType = fi.fileType
  special : modex fi' = modex fi

/-- What a change writes. -/
def AttributeChange.write (now : ℤ) : AttributeChange → S3FileInfo → S3FileInfo
  | .chmod mode => chmodInfo now mode
  | .chown uid gid => chownInfo now uid gid
  | .utimens tv₀ _ => timeStampsInfo tv₀.tvSec tv₀.tvSec

theorem attributeChange_eq (w : UpdateWorld) (cache : StatCache FileData) (path : Bytes)
    (c : AttributeChange) :
    attributeChange w cache path c = updateFileInfo w cache path (c.write w.now) := by
  cases c <;> rfl

theorem lastOf_concat {β : Type} (said : AttributeChange → Option β) (cs : List AttributeChange)
    (c : AttributeChange) : lastOf said (cs ++ [c]) = (said c).or (lastOf said cs) := by
  rw [lastOf, List.reverse_concat, List.findSome?_cons, lastOf]
  cases said c <;> rfl

/-- One change. -/
theorem Changed.write {fi fi' : S3FileInfo} {cs : List AttributeChange} (h : Changed fi cs fi')
    (now : ℤ) (c : AttributeChange) : Changed fi (cs ++ [c]) (c.write now fi') := by
  obtain ⟨hpermissions, huid, hgid, hatime, -, hctime, hsize, htype, hspecial⟩ := h
  cases c with
  | chmod mode =>
      refine ⟨?_, ?_, ?_, ?_, ?_, hctime, hsize, htype, hspecial⟩
      · rw [lastOf_concat]
        rfl
      · rw [lastOf_concat]
        exact huid
      · rw [lastOf_concat]
        exact hgid
      · rw [lastOf_concat]
        exact hatime
      · intro tv₀ tv₁ hlast
        simp at hlast
  | chown uid gid =>
      refine ⟨?_, ?_, ?_, ?_, ?_, hctime, hsize, htype, hspecial⟩
      · rw [lastOf_concat]
        exact hpermissions
      · rw [lastOf_concat, AttributeChange.uid?]
        by_cases hset : uid.toInt32 = -1
        · rw [if_neg (not_not.2 hset)]
          exact (if_neg (not_not.2 hset)).trans huid
        · rw [if_pos hset]
          exact if_pos hset
      · rw [lastOf_concat, AttributeChange.gid?]
        by_cases hset : gid.toInt32 = -1
        · rw [if_neg (not_not.2 hset)]
          exact (if_neg (not_not.2 hset)).trans hgid
        · rw [if_pos hset]
          exact if_pos hset
      · rw [lastOf_concat]
        exact hatime
      · intro tv₀ tv₁ hlast
        simp at hlast
  | utimens tv₀ tv₁ =>
      refine ⟨?_, ?_, ?_, ?_, ?_, hctime, hsize, htype, hspecial⟩
      · rw [lastOf_concat]
        exact hpermissions
      · rw [lastOf_concat]
        exact huid
      · rw [lastOf_concat]
        exact hgid
      · rw [lastOf_concat]
        rfl
      · intro tv₀' tv₁' hlast
        obtain ⟨rfl, -⟩ := AttributeChange.utimens.inj (by simpa using hlast)
        rfl

/-- A file or directory that is there, with its entry in the cache. -/
structure ExistingFile (path : Bytes) (cache : StatCache FileData) (fi : S3FileInfo) : Prop where
  path_ne : path ≠ []
  visible : ¬ isS3DirectoryFile <:+ normalizePath path
  cached : fileInfoAt cache (normalizePath path) = some fi
  fileType : fi.fileType = 100 ∨ fi.fileType = 102

section Run

variable {path : Bytes} {cache cache' : StatCache FileData} {fi : S3FileInfo}

theorem fileStatView_of_fileInfoAt {w : StatWorld} {filename : Bytes}
    (h : fileInfoAt cache filename = some fi) : fileStatView w cache filename = .ok fi := by
  obtain ⟨entry, hentry, hdata⟩ := Option.bind_eq_some_iff.1 h
  rw [fileStatView, hentry]
  simp only [hdata]
  rfl

theorem s3FileStat_of_fileInfoAt (hw : WellFormed maxStatCacheSize cache) (w : StatWorld)
    (hvisible : ¬ isS3DirectoryFile <:+ normalizePath path)
    (h : fileInfoAt cache (normalizePath path) = some fi) :
    (s3FileStat maxStatCacheSize w cache path).1 = .ok (some fi) := by
  rw [s3FileStat_fst (by decide) (by decide) hw, if_neg hvisible, fileStatView_of_fileInfoAt h]
  rfl

/-- A change of the file writes into its entry. -/
theorem fileInfoAt_change (hw : WellFormed maxStatCacheSize cache)
    (hvisible : ¬ isS3DirectoryFile <:+ normalizePath path)
    (h : fileInfoAt cache (normalizePath path) = some fi) (w : UpdateWorld) (c : AttributeChange) :
    WellFormed maxStatCacheSize (attributeChange w cache path c).2 ∧
      fileInfoAt (attributeChange w cache path c).2 (normalizePath path) =
        some (c.write w.now fi) := by
  have hstat := s3FileStat_of_fileInfoAt hw w.toStatWorld hvisible h
  have hwell := wellFormed_s3FileStat (by decide) (by decide) hw path (w := w.toStatWorld)
  obtain ⟨hat, -⟩ := fileStatView_s3FileStat hw hvisible
    (fileStatView_of_fileInfoAt (w := w.toStatWorld) h)
  rw [attributeChange_eq, updateFileInfo_of_ok hstat]
  refine ⟨hwell.update _ _, ?_⟩
  obtain ⟨entry, hentry, hdata⟩ := Option.bind_eq_some_iff.1 hat
  rw [fileInfoAt, findStr_update, if_pos rfl, hentry]
  simp only [Option.map_some, Option.bind_some, hdata]

/-- A call of `S3FileStat` changes no entry that stays. -/
theorem fileInfoAt_stat (hw : WellFormed maxStatCacheSize cache) {filename : Bytes}
    (h : fileInfoAt cache filename = some fi) (w : StatWorld) (file : Bytes)
    (hstays : ((s3FileStat maxStatCacheSize w cache file).2.findStr filename).isSome) :
    fileInfoAt (s3FileStat maxStatCacheSize w cache file).2 filename = some fi := by
  have hwell := wellFormed_s3FileStat (by decide) (by decide) hw file (w := w)
  obtain ⟨entry, hentry, hdata⟩ := Option.bind_eq_some_iff.1 h
  obtain ⟨entry', hentry'⟩ := Option.isSome_iff_exists.1 hstays
  obtain ⟨hmem', hname'⟩ := (findStr_eq_some_iff hwell.distinct).1 hentry'
  rcases mem_s3FileStat hmem' with hold | ⟨-, hnone, hnew⟩
  · have hsame := (findStr_eq_some_iff hw.distinct).2 ⟨hold, hname'⟩
    obtain rfl := Option.some.inj (hsame.symm.trans hentry)
    rw [fileInfoAt, hentry']
    exact hdata
  · have hname : normalizePath file = filename := by rw [← hname', hnew]
    rw [hname, hentry] at hnone
    cases hnone

/-- **The information after any number of changes.** -/
theorem changed_of_run (hw : WellFormed maxStatCacheSize cache) (hfile : ExistingFile path cache fi)
    {calls : List AttributeCall} (hrun : run (attributeStep path) cache calls = some cache') :
    WellFormed maxStatCacheSize cache' ∧
      ∃ fi', fileInfoAt cache' (normalizePath path) = some fi' ∧ Changed fi (changes calls) fi' := by
  induction calls using List.reverseRecOn generalizing cache' with
  | nil =>
      cases hrun
      exact ⟨hw, fi, hfile.cached, rfl, rfl, rfl, rfl, by simp [changes], rfl, rfl, rfl, rfl⟩
  | append_singleton calls call ih =>
      obtain ⟨cache₁, hrun₁, hstep⟩ := run_concat.1 hrun
      obtain ⟨hw₁, fi₁, hat₁, hchanged⟩ := ih hrun₁
      cases call with
      | change w c =>
          obtain ⟨hwell, hat⟩ := fileInfoAt_change hw₁ hfile.visible hat₁ w c
          simp only [attributeStep, Option.ite_none_right_eq_some, Option.some.injEq] at hstep
          obtain ⟨-, rfl⟩ := hstep
          refine ⟨hwell, _, hat, ?_⟩
          have hchanges : changes (calls ++ [.change w c]) = changes calls ++ [c] := by simp [changes]
          rw [hchanges]
          exact hchanged.write w.now c
      | stat w file =>
          have hwell := wellFormed_s3FileStat (by decide) (by decide) hw₁ file (w := w)
          simp only [attributeStep, Option.ite_none_right_eq_some, Option.some.injEq] at hstep
          obtain ⟨hstays, rfl⟩ := hstep
          have hchanges : changes (calls ++ [.stat w file]) = changes calls := by simp [changes]
          rw [hchanges]
          exact ⟨hwell, fi₁, fileInfoAt_stat hw₁ hat₁ w file hstays, hchanged⟩

end Run

/-! ### What is reported -/

section Mode

variable {fi : S3FileInfo}

theorem or_and_distrib_word (a b c : UInt32) : (a ||| b) &&& c = a &&& c ||| b &&& c :=
  UInt32.toBitVec_inj.1 BitVec.and_or_distrib_right

/-- The mode of a file or directory. -/
theorem mode_copyFileInfoToFileStat (htype : fi.fileType = 100 ∨ fi.fileType = 102) :
    (copyFileInfoToFileStat fi).mode =
      fileTypeBits fi.fileType ||| fi.permissions ||| modex fi := by
  have hlink : fi.fileType ≠ 108 := by
    rcases htype with h | h <;> rw [h] <;> decide
  simp only [copyFileInfoToFileStat, if_neg hlink, modex, UInt32.or_zero]
  ac_rfl

theorem fileTypeBits_and (htype : fi.fileType = 100 ∨ fi.fileType = 102) :
    fileTypeBits fi.fileType &&& 4095 = 0 ∧
      fileTypeBits fi.fileType &&& ~~~4095 = fileTypeBits fi.fileType := by
  rcases htype with h | h <;> rw [h] <;> decide

theorem modex_and (fi : S3FileInfo) : modex fi &&& 4095 = modex fi ∧ modex fi &&& ~~~4095 = 0 := by
  rw [modex]
  cases fi.exeUid <;> cases fi.exeGid <;> cases fi.sticky <;> decide

/-- The permissions and special bits, and the type, in the mode. -/
theorem mode_and (htype : fi.fileType = 100 ∨ fi.fileType = 102) :
    (copyFileInfoToFileStat fi).mode &&& 4095 = fi.permissions &&& 4095 ||| modex fi ∧
      (copyFileInfoToFileStat fi).mode &&& ~~~4095 =
        fileTypeBits fi.fileType ||| fi.permissions &&& ~~~4095 := by
  obtain ⟨htype₀, htype₁⟩ := fileTypeBits_and htype
  obtain ⟨hmodex₀, hmodex₁⟩ := modex_and fi
  rw [mode_copyFileInfoToFileStat htype]
  constructor
  · rw [or_and_distrib_word, or_and_distrib_word, htype₀, hmodex₀, UInt32.zero_or]
  · rw [or_and_distrib_word, or_and_distrib_word, htype₁, hmodex₁, UInt32.or_zero]

end Mode

section ReadBack

variable {fi fi' : S3FileInfo} {cs : List AttributeChange}

theorem exists_of_lastOf {β : Type} {said : AttributeChange → Option β} {b : β}
    (h : lastOf said cs = some b) : ∃ c ∈ cs, said c = some b := by
  obtain ⟨c, hc, hsaid⟩ := List.exists_of_findSome?_eq_some h
  exact ⟨c, List.mem_reverse.1 hc, hsaid⟩

/-- The modes that are set have twelve bits. -/
theorem mode_and_of_lastOf {mode : UInt32} (h : lastOf AttributeChange.mode? cs = some mode) :
    mode &&& 4095 = mode ∧ mode &&& ~~~4095 = 0 := by
  obtain ⟨c, -, hc⟩ := exists_of_lastOf h
  cases c with
  | chmod mode' =>
      obtain rfl := Option.some.inj hc
      refine ⟨mode'.2, ?_⟩
      rw [← mode'.2, UInt32.and_assoc]
      exact UInt32.and_zero
  | chown _ _ => cases hc
  | utimens _ _ => cases hc

/-- **When the changed information reports what was set.** -/
theorem readBack_of_changed_iff (htype : fi.fileType = 100 ∨ fi.fileType = 102)
    (h : Changed fi cs fi') :
    ReadBack (copyFileInfoToFileStat fi) cs (copyFileInfoToFileStat fi') ↔ Settable fi cs := by
  have htype' : fi'.fileType = 100 ∨ fi'.fileType = 102 := h.fileType.symm ▸ htype
  obtain ⟨hlow, hhigh⟩ := mode_and htype
  obtain ⟨hlow', hhigh'⟩ := mode_and htype'
  rw [h.permissions, h.special] at hlow'
  rw [h.permissions, h.fileType] at hhigh'
  constructor
  · intro hread
    have hpermissions := hread.permissions
    have hkind := hread.fileType
    rw [hlow'] at hpermissions
    rw [hhigh', hhigh] at hkind
    refine ⟨fun mode hmode => ?_, fun hsome => ?_, fun tv₀ tv₁ hlast => ?_⟩
    · rw [hmode, Option.getD_some, Option.getD_some, (mode_and_of_lastOf hmode).1] at hpermissions
      exact hpermissions
    · obtain ⟨mode, hmode⟩ := Option.isSome_iff_exists.1 hsome
      rw [hmode, Option.getD_some, (mode_and_of_lastOf hmode).2, UInt32.or_zero] at hkind
      exact hkind.symm
    · exact (h.mtime tv₀ tv₁ hlast).symm.trans (hread.mtime tv₀ tv₁ hlast)
  · intro hset
    refine ⟨?_, ?_, h.uid, h.gid, h.atime, fun tv₀ tv₁ hlast => ?_, h.ctime, h.size, ?_, rfl, rfl⟩
    · rw [hlow', hlow]
      cases hlast : lastOf AttributeChange.mode? cs with
      | none => rfl
      | some mode =>
          rw [Option.getD_some, Option.getD_some, (mode_and_of_lastOf hlast).1,
            hset.special mode hlast]
    · rw [hhigh', hhigh]
      cases hlast : lastOf AttributeChange.mode? cs with
      | none => rfl
      | some mode =>
          rw [Option.getD_some, (mode_and_of_lastOf hlast).2, UInt32.or_zero,
            hset.fileType (Option.isSome_iff_exists.2 ⟨mode, hlast⟩)]
    · exact (h.mtime tv₀ tv₁ hlast).trans (hset.times tv₀ tv₁ hlast)
    · rw [copyFileInfoToFileStat, h.size]
      rfl

/-- **When what was set is reported.** -/
theorem readBack_iff (path : Bytes)
    (cache : { cache : StatCache FileData // WellFormed maxStatCacheSize cache }) (fi : S3FileInfo)
    (hfile : ExistingFile path cache.1 fi) (calls : List AttributeCall)
    (cache' : StatCache FileData) (hrun : run (attributeStep path) cache.1 calls = some cache')
    (w : StatWorld) :
    (∃ after, (s3fsGetattr w 0 cache' path).1 = .ok (some after) ∧
        ReadBack (copyFileInfoToFileStat fi) (changes calls) after) ↔
      Settable fi (changes calls) := by
  obtain ⟨hw', fi', hat, hchanged⟩ := changed_of_run cache.2 hfile hrun
  have hreport : (s3fsGetattr w 0 cache' path).1 = .ok (some (copyFileInfoToFileStat fi')) := by
    rw [s3fsGetattr, if_neg hfile.path_ne, if_neg (by decide)]
    simp only [s3FileStat_of_fileInfoAt hw' w hfile.visible hat]
    rfl
  rw [← readBack_of_changed_iff hfile.fileType hchanged, hreport]
  constructor
  · rintro ⟨after, hafter, hread⟩
    obtain rfl := Option.some.inj (Except.ok.inj hafter)
    exact hread
  · exact fun hread => ⟨_, rfl, hread⟩

/-- A cache with one file, and a world in which requests for changes succeed. -/
def readmeCache (fi : S3FileInfo) : StatCache FileData := [⟨ascii "/readme", some fi⟩]

def writableBucket : UpdateWorld := { oneFileCall "/a" with now := 1340100300, put := some 200 }

theorem existingFile_readme (exeUid : Bool) :
    ExistingFile (ascii "/readme") (readmeCache (readme exeUid)) (readme exeUid) where
  path_ne := by decide
  visible := by decide +kernel
  cached := by
    cases exeUid <;> decide +kernel
  fileType := .inr rfl

theorem wellFormed_readmeCache (fi : S3FileInfo) :
    WellFormed maxStatCacheSize (readmeCache fi) :=
  ⟨List.nodup_singleton _, (by decide : 1 ≤ maxStatCacheSize)⟩

theorem readBack_readme :
    ∃ after,
      (s3fsGetattr writableBucket.toStatWorld 0
        (readmeCache (chmodInfo 1340100300 493 (readme false))) (ascii "/readme")).1 =
        .ok (some after) ∧
      ReadBack (copyFileInfoToFileStat (readme false))
        (changes [.change writableBucket (.chmod ⟨493, rfl⟩)]) after := by
  refine (readBack_iff (ascii "/readme") ⟨readmeCache (readme false), wellFormed_readmeCache _⟩
    (readme false) (existingFile_readme false) [.change writableBucket (.chmod ⟨493, rfl⟩)]
    (readmeCache (chmodInfo 1340100300 493 (readme false))) rfl writableBucket.toStatWorld).2 ?_
  refine ⟨fun mode hmode => ?_, fun _ => by decide, fun _ _ hlast => by cases hlast⟩
  cases hmode
  decide

/-- The set-user-id bit stays although the mode that is set does not have it, and the time of the
modification is that of the access. -/
theorem not_readBack_readme :
    (∃ cache' after,
      run (attributeStep (ascii "/readme")) (readmeCache (readme true))
        [.change writableBucket (.chmod ⟨493, rfl⟩)] = some cache' ∧
      (s3fsGetattr writableBucket.toStatWorld 0 cache' (ascii "/readme")).1 = .ok (some after) ∧
      ¬ ReadBack (copyFileInfoToFileStat (readme true)) [.chmod ⟨493, rfl⟩] after) ∧
    ∃ cache' after,
      run (attributeStep (ascii "/readme")) (readmeCache (readme false))
        [.change writableBucket (.utimens ⟨1, 0⟩ ⟨2, 0⟩)] = some cache' ∧
      (s3fsGetattr writableBucket.toStatWorld 0 cache' (ascii "/readme")).1 = .ok (some after) ∧
      ¬ ReadBack (copyFileInfoToFileStat (readme false)) [.utimens ⟨1, 0⟩ ⟨2, 0⟩] after := by
  constructor
  · refine ⟨readmeCache (chmodInfo 1340100300 493 (readme true)), _, rfl, rfl, fun h => ?_⟩
    exact absurd h.permissions (by decide)
  · refine ⟨readmeCache (timeStampsInfo 1 1 (readme false)), _, rfl, rfl, fun h => ?_⟩
    exact absurd (h.mtime ⟨1, 0⟩ ⟨2, 0⟩ rfl) (by decide)

end ReadBack

end AwsS3fs
