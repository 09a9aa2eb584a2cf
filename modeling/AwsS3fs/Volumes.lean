/-
**A mounted volume.**

The functions of `s3if.c` work on three things: the objects in the bucket, the cache of file
information, and the descriptors of the local copies of files that are being read.  The first two
must agree about symbolic links, the last two about which copy belongs to which file.  This module
has all of these functions as steps of one system, without the directory cache, which is in
`AwsS3fs/DirectoryListings.lean`.

Main definitions:

* `AwsS3fs.Volume` — the objects, the cache and the descriptors;
* `AwsS3fs.Volume.s3CreateLink`, `AwsS3fs.Volume.s3ReadLink`, `AwsS3fs.Volume.s3ReadFile`,
  `AwsS3fs.Volume.s3FileClose`, … — the functions of `s3if.c`;
* `AwsS3fs.Volume.step` — a call, in what it meets;
* `AwsS3fs.Volume.Entries` — a property of all entries of the cache.

Main results:

* `AwsS3fs.responseString_eq` — of the target of a link, only the first piece is read;
* `AwsS3fs.Volume.Entries.fileStat`, `AwsS3fs.Volume.Entries.update`, … — how such a property
  survives what the functions do to the cache.
-/

import AwsS3fs.CurlBuffers
import AwsS3fs.DirectoryListings
import AwsS3fs.Lib.Strings
import AwsS3fs.MountFiles

set_option relaxedAutoImplicit false
set_option autoImplicit false

namespace AwsS3fs

open CLib StatCache Allocations Pieces

/-! ### Objects, descriptors and what a call meets -/

/-- An object in the bucket: the headers that it was put with, and its content. -/
structure StoredObject where
  headers : List (Bytes × Bytes)
  body : Bytes
  deriving DecidableEq

/-- An open descriptor: the local copy of a file, or anything else that the program has open. -/
inductive Descriptor
  | localCopy (path localpath : Bytes)
  | other
  deriving DecidableEq

/-- A mounted volume. -/
structure Volume where
  objects : Bytes → Option StoredObject
  cache : StatCache MountData
  descriptors : ℤ → Option Descriptor

/-- What a call meets, besides the world of the functions that update file information: whether S3
carries out its PUT or DELETE request in any case, the answer to a second DELETE request, the answer
to a GET request with a range for a path, in the pieces in which it is delivered, whether a listing
shows nothing in the directory, what the memory of a new structure holds in place of the descriptor,
what `response` of `S3Rmdir` holds before it is set, and, for a file that is read, the status of
`DownloadCacheFile`, the answer of `GetLocalFilename` and the result of `open`. -/
structure VolumeWorld extends UpdateWorld where
  done : Bool
  deleted : WriteAnswer
  get : Bytes → Bytes → Option ℕ × List WriteCall
  empty : Bool
  unsetFd : ℤ
  response : UInt64
  download : ℤ
  localFilename : Option Bytes
  opened : ℤ

/-- The answer to the first PUT or DELETE request. -/
def VolumeWorld.written (w : VolumeWorld) : WriteAnswer := ⟨w.put, w.done⟩

/-- `-EISNAM`. -/
def eisnam : ℤ := -120

/-- `-ENAMETOOLONG`. -/
def enametoolong : ℤ := -36

/-- The header of `S3ReadLink` for a link of a size. -/
def rangeHeader (size : ℤ) : Bytes := ascii "Range:bytes=0-" ++ formatInt (size - 1)

/-- The string in a response, behind which `S3ReadLink` puts a terminator. -/
def responseString (calls : List WriteCall) : Bytes :=
  let response := submitResponse calls
  stringIn ((response.1.getD []).take response.2.toNat ++ [0])

theorem stringIn_append_zero (s rest : Bytes) : stringIn (s ++ 0 :: rest) = stringIn s := by
  induction s with
  | nil => rfl
  | cons ch s ih =>
      simp only [stringIn, List.cons_append, List.takeWhile_cons] at ih ⊢
      rw [ih]

/-- **Of a response, only the first piece is read**, since there is a terminator behind it. -/
theorem responseString_eq {calls : List WriteCall}
    (hmax : ∀ call ∈ calls, call.piece.length ≤ curlMaxWriteSize)
    (hlt : (deliveredBody calls).length + calls.length < 2 ^ 31) :
    responseString calls = stringIn ((calls.head?.map (·.piece)).getD []) := by
  obtain ⟨hdata, hsize⟩ := foldl_curlWriteData hmax
  have hlength : (submitResponse calls).2 = (marked 0 (calls.map (·.piece))).length := by
    rw [length_submitResponse hmax, wrapInt_of_lt (by omega) (by omega), length_marked,
      deliveredBody_eq, List.length_map]
  have hread : (submitResponse calls).1.getD [] = marked 0 (calls.map (·.piece)) := hdata
  simp only [responseString, hlength, hread, Int.toNat_natCast, List.take_length]
  cases calls with
  | nil => rfl
  | cons call calls =>
      rw [List.map_cons, marked_cons, List.append_assoc, List.cons_append, stringIn_append_zero]
      rfl

namespace Volume

section Functions

variable (w : VolumeWorld) (v : Volume)

/-- `S3FileStat`. -/
def fileStat (file : Bytes) : Except ℤ MountFile × Volume :=
  let result := mountFileStat maxStatCacheSize w.toStatWorld v.cache file
  (result.1, { v with cache := result.2 })

/-- A write through the pointer that `S3FileStat` has stored for a file. -/
def write (file : Bytes) (f : MountFile) : Volume :=
  { v with cache := v.cache.update (normalizePath file) fun _ => some f }

/-- The objects after a request for `name`, after which `o` is there if S3 carries it out. -/
def request (answer : WriteAnswer) (name : Bytes) (o : Option StoredObject) : Volume :=
  if answer.takesEffect then { v with objects := Function.update v.objects name o } else v

/-- `UpdateAmzHeaders`: a copy of an object to itself. -/
def updateAmzHeaders (file : Bytes) (fi : S3FileInfo) : Option (ℤ × Volume) := do
  let headers ← createHeadersFromFileInfo w.ctx.zone fi
  return (submitStatus w.put,
    match v.objects file with
    | none => v
    | some o => v.request w.written file (some ⟨headers, o.body⟩))

/-- The functions that change the information of a file. -/
def updateFile (file : Bytes) (change : S3FileInfo → S3FileInfo) : Option (ℤ × Volume) :=
  match v.fileStat w file with
  | (.error status, v) => some (status, v)
  | (.ok f, v) =>
      (v.write file { f with info := change f.info }).updateAmzHeaders w file (change f.info)

/-- `S3Chmod`. -/
def s3Chmod (file : Bytes) (mode : UInt32) : Option (ℤ × Volume) :=
  v.updateFile w file (chmodInfo w.now mode)

/-- `S3Chown`. -/
def s3Chown (file : Bytes) (uid gid : UInt32) : Option (ℤ × Volume) :=
  v.updateFile w file (chownInfo w.now uid gid)

/-- `S3ModifyTimeStamps`. -/
def s3ModifyTimeStamps (file : Bytes) (atime mtime : ℤ) : Option (ℤ × Volume) :=
  v.updateFile w file (timeStampsInfo atime mtime)

/-- `S3CreateLink`. -/
def s3CreateLink (linkname : Bytes) (path : CString) : Option (ℤ × Volume) := do
  let fi := linkInfo w.toUpdateWorld path.bytes
  let headers ← createHeadersFromFileInfo w.ctx.zone fi
  let v := v.request w.written linkname (some ⟨headers, path.bytes⟩)
  return (submitStatus w.put,
    { v with
      cache := (v.cache.deleteStatEntry linkname).insertCacheElement maxStatCacheSize linkname
        (some ⟨fi, some path.bytes, w.unsetFd⟩) })

/-- `S3Mkdir`. -/
def s3Mkdir (dirname : Bytes) (mode : UInt32) : Option (ℤ × Volume) := do
  let cleanName := cleanPath dirname
  let newFi := directoryInfo w.toUpdateWorld mode
  let headers ← createHeadersFromFileInfo w.ctx.zone newFi
  let v := v.request w.written (cleanName ++ isS3DirectoryFile) (some ⟨headers, []⟩)
  return (submitStatus w.put,
    match v.cache.searchStatEntry cleanName with
    | (none, cache) => { v with cache := cache }
    | (some _, cache) =>
        { v with cache := cache.update cleanName fun _ => some ⟨newFi, none, 0⟩ })

/-- A DELETE request and the deletion of the entry. -/
def deleteFile (answer : WriteAnswer) (cleanName : Bytes) : ℤ × Volume :=
  let v := v.request answer cleanName none
  (submitStatus answer.httpStatus, { v with cache := v.cache.deleteStatEntry cleanName })

/-- `S3Unlink`. -/
def s3Unlink (filename : Bytes) : ℤ × Volume := v.deleteFile w.written (cleanPath filename)

/-- The end of `S3Rmdir` if it has not sent its last request: it frees `response`. -/
def giveUp (status : ℤ) : Option (ℤ × Volume) := (freeUnset w.response).map fun _ => (status, v)

/-- `S3Rmdir`. -/
def s3Rmdir (dirname : Bytes) : Option (ℤ × Volume) :=
  let cleanName := cleanPath dirname
  match v.fileStat w cleanName with
  | (.error status, v) => v.giveUp w status
  | (.ok f, v) =>
      if f.info.fileType ≠ 100 then v.giveUp w enotdir
      else if w.empty = false then v.giveUp w enotempty
      else
        let unlinked := v.s3Unlink w (ListingState.secretFile cleanName)
        if unlinked.1 = 0 then some (unlinked.2.deleteFile w.deleted cleanName)
        else unlinked.2.giveUp w eacces

/-- `S3ReadLink`, with the target that it stores. -/
def s3ReadLink (link : Bytes) : (ℤ × Option Bytes) × Volume :=
  match v.fileStat w link with
  | (.error status, v) => ((status, none), v)
  | (.ok f, v) =>
      if f.info.fileType ≠ 108 then ((eisnam, none), v)
      else
        match f.symlinkTarget with
        | some target => ((0, some target), v)
        | none =>
            -- a negative size is a huge one
            if f.info.size % 2 ^ 64 ≤ 4096 then
              let answer := w.get (rangeHeader f.info.size) link
              if submitStatus answer.1 = 0 then
                let linkContents := responseString answer.2
                ((0, some linkContents),
                  v.write link { f with symlinkTarget := some linkContents })
              else ((submitStatus answer.1, none), v)
            else ((enametoolong, none), v)

/-- `S3ReadFile`, with the descriptor from which it reads.  It does not ask whether the cache knows
the file, and does not look at the result of `open`. -/
def s3ReadFile (path : Bytes) : Option ((ℤ × Option ℤ) × Volume) :=
  match v.fileStat w path with
  | (.error status, v) => some ((status, none), v)
  | (.ok f, v) =>
      if f.info.fileType ≠ 102 then some ((enoent, none), v)
      else if w.download ≠ 0 then some ((w.download, none), v)
      else if 0 ≤ f.localFd then some ((0, some f.localFd), v)
      else do
        let localname ← w.localFilename
        let v := v.write path { f with localFd := w.opened }
        return ((0, some w.opened),
          if w.opened < 0 then v
          else
            { v with
              descriptors := Function.update v.descriptors w.opened
                (some (.localCopy path (ascii "/files/" ++ localname))) })

/-- `S3FileClose`. -/
def s3FileClose (path : Bytes) : ℤ × Volume :=
  match v.fileStat w path with
  | (.error status, v) => (status, v)
  | (.ok f, v) =>
      let v := v.write path { f with localFd := -1 }
      (if (v.descriptors f.localFd).isSome then 0 else -1,
        { v with descriptors := Function.update v.descriptors f.localFd none })

end Functions

end Volume

/-- A call of one of the functions, or a descriptor that another part of the program opens or
closes.  `S3Open` looks up a file and its directory. -/
inductive VolumeCall
  | fileStat (file : Bytes)
  | chmod (file : Bytes) (mode : UInt32)
  | chown (file : Bytes) (uid gid : UInt32)
  | modifyTimeStamps (file : Bytes) (atime mtime : ℤ)
  | createLink (linkname : Bytes) (path : CString)
  | mkdir (dirname : Bytes) (mode : UInt32)
  | unlink (filename : Bytes)
  | rmdir (dirname : Bytes)
  | readLink (link : Bytes)
  | readFile (path : Bytes)
  | fileClose (path : Bytes)
  | openOther (fd : ℤ)
  | closeOther (fd : ℤ)

/-- A call, in what it meets; calls come one after another.  It is not possible where the behaviour
of the program is undefined: with times that are not within the calendar, for a file that is not in
the file cache after it has been downloaded, and for `S3Rmdir` if it frees a pointer that it has not
set.  (The fifty characters for a time are taken to be enough, as they are for years below ten
millions.) -/
def Volume.step (v : Volume) (a : VolumeWorld × VolumeCall) : Option Volume :=
  match a.2 with
  | .fileStat file => some (v.fileStat a.1 file).2
  | .chmod file mode => (v.s3Chmod a.1 file mode).map (·.2)
  | .chown file uid gid => (v.s3Chown a.1 file uid gid).map (·.2)
  | .modifyTimeStamps file atime mtime => (v.s3ModifyTimeStamps a.1 file atime mtime).map (·.2)
  | .createLink linkname path => (v.s3CreateLink a.1 linkname path).map (·.2)
  | .mkdir dirname mode => (v.s3Mkdir a.1 dirname mode).map (·.2)
  | .unlink filename => some (v.s3Unlink a.1 filename).2
  | .rmdir dirname => (v.s3Rmdir a.1 dirname).map (·.2)
  | .readLink link => some (v.s3ReadLink a.1 link).2
  | .readFile path => (v.s3ReadFile a.1 path).map (·.2)
  | .fileClose path => some (v.s3FileClose a.1 path).2
  | .openOther fd =>
      if 0 ≤ fd ∧ v.descriptors fd = none then
        some { v with descriptors := Function.update v.descriptors fd (some .other) }
      else none
  | .closeOther fd =>
      if v.descriptors fd = some .other then
        some { v with descriptors := Function.update v.descriptors fd none }
      else none

/-! ### What a call does -/

/-- The file that a call is about. -/
def VolumeCall.file : VolumeCall → Bytes
  | .fileStat file | .chmod file _ | .chown file _ _ | .modifyTimeStamps file _ _ => file
  | .createLink linkname _ => linkname
  | .mkdir dirname _ | .unlink dirname | .rmdir dirname => cleanPath dirname
  | .readLink file | .readFile file | .fileClose file => file
  | .openOther _ | .closeOther _ => []

/-- The paths that are passed to a call. -/
def VolumeCall.paths : VolumeCall → List Bytes
  | .fileStat file | .chmod file _ | .chown file _ _ | .modifyTimeStamps file _ _ => [file]
  | .createLink linkname _ => [linkname]
  | .mkdir dirname _ | .unlink dirname | .rmdir dirname => [dirname]
  | .readLink file | .readFile file | .fileClose file => [file]
  | .openOther _ | .closeOther _ => []

/-- A call that sends new headers for a file that is there. -/
def VolumeCall.updates : VolumeCall → Bool
  | .chmod _ _ | .chown _ _ _ | .modifyTimeStamps _ _ _ => true
  | _ => false

theorem VolumeCall.file_mem_paths {call : VolumeCall} (h : call.updates = true) :
    call.file ∈ call.paths := by
  cases call with
  | chmod file mode => exact List.mem_singleton_self file
  | chown file uid gid => exact List.mem_singleton_self file
  | modifyTimeStamps file atime mtime => exact List.mem_singleton_self file
  | _ => cases h

namespace Volume

/-- The object that `UpdateAmzHeaders` copies. -/
def copyObject (w : VolumeWorld) (v : Volume) (file : Bytes) (headers : List (Bytes × Bytes)) :
    Volume :=
  match v.objects file with
  | none => v
  | some o => v.request w.written file (some ⟨headers, o.body⟩)

/-- **What a call does to a volume.** -/
inductive Change (w : VolumeWorld) (v : Volume) : VolumeCall → Volume → Prop
  | look (call : VolumeCall) : Change w v call (v.fileStat w call.file).2
  | update {call : VolumeCall} {f : MountFile} {fi : S3FileInfo} {headers : List (Bytes × Bytes)}
      (hcall : call.updates = true) (hf : (v.fileStat w call.file).1 = .ok f)
      (htype : fi.fileType = f.info.fileType) (hsize : fi.size = f.info.size)
      (hheaders : createHeadersFromFileInfo w.ctx.zone fi = some headers) :
      Change w v call (((v.fileStat w call.file).2.write call.file { f with info := fi }).copyObject
        w call.file headers)
  | createLink {linkname : Bytes} {path : CString} {headers : List (Bytes × Bytes)}
      (hheaders : createHeadersFromFileInfo w.ctx.zone (linkInfo w.toUpdateWorld path.bytes) =
        some headers) :
      Change w v (.createLink linkname path)
        { v.request w.written linkname (some ⟨headers, path.bytes⟩) with
          cache := (v.cache.deleteStatEntry linkname).insertCacheElement maxStatCacheSize linkname
            (some ⟨linkInfo w.toUpdateWorld path.bytes, some path.bytes, w.unsetFd⟩) }
  | mkdir {dirname : Bytes} {mode : UInt32} {headers : List (Bytes × Bytes)}
      (hheaders : createHeadersFromFileInfo w.ctx.zone (directoryInfo w.toUpdateWorld mode) =
        some headers) :
      Change w v (.mkdir dirname mode)
        { v.request w.written (cleanPath dirname ++ isS3DirectoryFile) (some ⟨headers, []⟩) with
          cache := (v.cache.searchStatEntry (cleanPath dirname)).2.update (cleanPath dirname)
            fun _ => some ⟨directoryInfo w.toUpdateWorld mode, none, 0⟩ }
  | unlink {filename : Bytes} :
      Change w v (.unlink filename) (v.deleteFile w.written (cleanPath filename)).2
  | rmdirSecret {dirname : Bytes} :
      Change w v (.rmdir dirname) ((v.fileStat w (cleanPath dirname)).2.deleteFile w.written
        (cleanPath (ListingState.secretFile (cleanPath dirname)))).2
  | rmdir {dirname : Bytes} :
      Change w v (.rmdir dirname) (((v.fileStat w (cleanPath dirname)).2.deleteFile w.written
        (cleanPath (ListingState.secretFile (cleanPath dirname)))).2.deleteFile w.deleted
          (cleanPath dirname)).2
  | readLink {link : Bytes} {f : MountFile} (hf : (v.fileStat w link).1 = .ok f)
      (htype : f.info.fileType = 108) (hsize : f.info.size % 2 ^ 64 ≤ 4096)
      (hget : submitStatus (w.get (rangeHeader f.info.size) link).1 = 0) :
      Change w v (.readLink link) ((v.fileStat w link).2.write link
        { f with symlinkTarget := some (responseString (w.get (rangeHeader f.info.size) link).2) })
  | openFails {path : Bytes} {f : MountFile} (hf : (v.fileStat w path).1 = .ok f)
      (htype : f.info.fileType = 102) (hclosed : f.localFd < 0) (hopened : w.opened < 0) :
      Change w v (.readFile path) ((v.fileStat w path).2.write path { f with localFd := w.opened })
  | openCopy {path localname : Bytes} {f : MountFile} (hf : (v.fileStat w path).1 = .ok f)
      (htype : f.info.fileType = 102) (hclosed : f.localFd < 0) (hopened : 0 ≤ w.opened)
      (hname : w.localFilename = some localname) :
      Change w v (.readFile path)
        { (v.fileStat w path).2.write path { f with localFd := w.opened } with
          descriptors := Function.update v.descriptors w.opened
            (some (.localCopy path (ascii "/files/" ++ localname))) }
  | fileClose {path : Bytes} {f : MountFile} (hf : (v.fileStat w path).1 = .ok f) :
      Change w v (.fileClose path)
        { (v.fileStat w path).2.write path { f with localFd := -1 } with
          descriptors := Function.update v.descriptors f.localFd none }
  | openOther {fd : ℤ} (hfd : 0 ≤ fd) (hnone : v.descriptors fd = none) :
      Change w v (.openOther fd)
        { v with descriptors := Function.update v.descriptors fd (some .other) }
  | closeOther {fd : ℤ} (hother : v.descriptors fd = some .other) :
      Change w v (.closeOther fd) { v with descriptors := Function.update v.descriptors fd none }

section Changes

variable {w : VolumeWorld} {v v' : Volume}

@[simp]
theorem request_cache (v : Volume) (answer : WriteAnswer) (name : Bytes) (o : Option StoredObject) :
    (v.request answer name o).cache = v.cache := by
  rw [request]
  split <;> rfl

@[simp]
theorem request_descriptors (v : Volume) (answer : WriteAnswer) (name : Bytes)
    (o : Option StoredObject) : (v.request answer name o).descriptors = v.descriptors := by
  rw [request]
  split <;> rfl

theorem change_updateFile {call : VolumeCall} (hcall : call.updates = true)
    {change : S3FileInfo → S3FileInfo}
    (hchange : ∀ fi, (change fi).fileType = fi.fileType ∧ (change fi).size = fi.size)
    (h : (v.updateFile w call.file change).map (·.2) = some v') : Change w v call v' := by
  rw [updateFile] at h
  split at h
  · rename_i status v₁ hstat
    obtain rfl : (v.fileStat w call.file).2 = v₁ := congrArg Prod.snd hstat
    obtain rfl := Option.some.inj h
    exact .look _
  · rename_i f v₁ hstat
    obtain ⟨⟨status, v₂⟩, hupdate, rfl⟩ := Option.map_eq_some_iff.1 h
    obtain ⟨headers, hheaders, hupdate⟩ := Option.bind_eq_some_iff.1 hupdate
    obtain rfl := (Prod.mk.inj (Option.some.inj hupdate)).2
    obtain rfl : (v.fileStat w call.file).2 = v₁ := congrArg Prod.snd hstat
    exact .update hcall (congrArg Prod.fst hstat) (hchange f.info).1 (hchange f.info).2 hheaders

theorem change_mkdir {dirname : Bytes} {mode : UInt32}
    (h : (v.s3Mkdir w dirname mode).map (·.2) = some v') :
    Change w v (.mkdir dirname mode) v' := by
  obtain ⟨⟨status, v₁⟩, hmkdir, rfl⟩ := Option.map_eq_some_iff.1 h
  obtain ⟨headers, hheaders, hmkdir⟩ := Option.bind_eq_some_iff.1 hmkdir
  obtain rfl := (Prod.mk.inj (Option.some.inj hmkdir)).2
  refine (congrArg (Change w v _) ?_).mpr (.mkdir hheaders)
  simp only [searchStatEntry, request_cache]
  cases hfind : v.cache.findStr (cleanPath dirname) with
  | none => simp only [update_of_findStr_eq_none hfind]
  | some entry => rfl

theorem eq_of_giveUp {status : ℤ} (h : (v.giveUp w status).map (·.2) = some v') : v = v' := by
  obtain ⟨result, hresult, rfl⟩ := Option.map_eq_some_iff.1 h
  rw [← (map_freeUnset_eq_some_iff.1 hresult).2]

theorem change_rmdir {dirname : Bytes} (h : (v.s3Rmdir w dirname).map (·.2) = some v') :
    Change w v (.rmdir dirname) v' := by
  rw [s3Rmdir] at h
  split at h
  · rename_i status v₁ hstat
    obtain rfl : (v.fileStat w (cleanPath dirname)).2 = v₁ := congrArg Prod.snd hstat
    obtain rfl := eq_of_giveUp h
    exact .look _
  · rename_i f v₁ hstat
    obtain rfl : (v.fileStat w (cleanPath dirname)).2 = v₁ := congrArg Prod.snd hstat
    split at h
    · obtain rfl := eq_of_giveUp h
      exact .look _
    · split at h
      · obtain rfl := eq_of_giveUp h
        exact .look _
      · simp only [] at h
        split at h
        · obtain rfl := Option.some.inj h
          exact .rmdir
        · obtain rfl := eq_of_giveUp h
          exact .rmdirSecret

theorem change_readLink {link : Bytes} : Change w v (.readLink link) (v.s3ReadLink w link).2 := by
  rw [s3ReadLink]
  split
  · rename_i status v₁ hstat
    obtain rfl : (v.fileStat w link).2 = v₁ := congrArg Prod.snd hstat
    exact .look _
  · rename_i f v₁ hstat
    obtain rfl : (v.fileStat w link).2 = v₁ := congrArg Prod.snd hstat
    split
    · exact .look _
    · rename_i htype
      split
      · exact .look _
      · split
        · rename_i hsize
          simp only []
          split
          · rename_i hget
            exact .readLink (congrArg Prod.fst hstat) (not_not.1 htype) hsize hget
          · exact .look _
        · exact .look _

theorem change_readFile {path : Bytes} (h : (v.s3ReadFile w path).map (·.2) = some v') :
    Change w v (.readFile path) v' := by
  rw [s3ReadFile] at h
  split at h
  · rename_i status v₁ hstat
    obtain rfl : (v.fileStat w path).2 = v₁ := congrArg Prod.snd hstat
    obtain rfl := Option.some.inj h
    exact .look _
  · rename_i f v₁ hstat
    obtain rfl : (v.fileStat w path).2 = v₁ := congrArg Prod.snd hstat
    have hf : (v.fileStat w path).1 = .ok f := congrArg Prod.fst hstat
    split at h
    · obtain rfl := Option.some.inj h
      exact .look _
    · rename_i htype
      split at h
      · obtain rfl := Option.some.inj h
        exact .look _
      · split at h
        · obtain rfl := Option.some.inj h
          exact .look _
        · rename_i hclosed
          obtain ⟨⟨result, v₂⟩, hread, rfl⟩ := Option.map_eq_some_iff.1 h
          obtain ⟨localname, hname, hread⟩ := Option.bind_eq_some_iff.1 hread
          obtain rfl := (Prod.mk.inj (Option.some.inj hread)).2
          by_cases hopened : w.opened < 0
          · rw [if_pos hopened]
            exact .openFails hf (not_not.1 htype) (not_le.1 hclosed) hopened
          · rw [if_neg hopened]
            exact .openCopy hf (not_not.1 htype) (not_le.1 hclosed) (not_lt.1 hopened) hname

theorem change_fileClose {path : Bytes} :
    Change w v (.fileClose path) (v.s3FileClose w path).2 := by
  rw [s3FileClose]
  split
  · rename_i status v₁ hstat
    obtain rfl : (v.fileStat w path).2 = v₁ := congrArg Prod.snd hstat
    exact .look _
  · rename_i f v₁ hstat
    obtain rfl : (v.fileStat w path).2 = v₁ := congrArg Prod.snd hstat
    exact .fileClose (congrArg Prod.fst hstat)

theorem change_createLink {linkname : Bytes} {path : CString}
    (h : (v.s3CreateLink w linkname path).map (·.2) = some v') :
    Change w v (.createLink linkname path) v' := by
  obtain ⟨⟨status, v₁⟩, hlink, rfl⟩ := Option.map_eq_some_iff.1 h
  obtain ⟨headers, hheaders, hlink⟩ := Option.bind_eq_some_iff.1 hlink
  obtain rfl := (Prod.mk.inj (Option.some.inj hlink)).2
  simp only [request_cache]
  exact .createLink hheaders

theorem change_openOther {fd : ℤ} (h : v.step (w, .openOther fd) = some v') :
    Change w v (.openOther fd) v' := by
  simp only [step] at h
  split at h
  · rename_i hfd
    exact Option.some.inj h ▸ .openOther hfd.1 hfd.2
  · cases h

theorem change_closeOther {fd : ℤ} (h : v.step (w, .closeOther fd) = some v') :
    Change w v (.closeOther fd) v' := by
  simp only [step] at h
  split at h
  · rename_i hother
    exact Option.some.inj h ▸ .closeOther hother
  · cases h

/-- **A call does nothing else.** -/
theorem change_of_step {call : VolumeCall} (h : v.step (w, call) = some v') :
    Change w v call v' := by
  cases call with
  | fileStat file =>
      simp only [step, Option.some.injEq] at h
      subst h
      exact .look (.fileStat file)
  | chmod file mode =>
      simp only [step, s3Chmod] at h
      exact @change_updateFile w v v' (.chmod file mode) rfl (chmodInfo w.now mode)
        (fun _ => ⟨rfl, rfl⟩) h
  | chown file uid gid =>
      simp only [step, s3Chown] at h
      exact @change_updateFile w v v' (.chown file uid gid) rfl (chownInfo w.now uid gid)
        (fun _ => ⟨rfl, rfl⟩) h
  | modifyTimeStamps file atime mtime =>
      simp only [step, s3ModifyTimeStamps] at h
      exact @change_updateFile w v v' (.modifyTimeStamps file atime mtime) rfl
        (timeStampsInfo atime mtime) (fun _ => ⟨rfl, rfl⟩) h
  | createLink linkname path =>
      simp only [step] at h
      exact change_createLink h
  | mkdir dirname mode =>
      simp only [step] at h
      exact change_mkdir h
  | unlink filename =>
      simp only [step, Option.some.injEq] at h
      subst h
      exact .unlink
  | rmdir dirname =>
      simp only [step] at h
      exact change_rmdir h
  | readLink link =>
      simp only [step, Option.some.injEq] at h
      subst h
      exact change_readLink
  | readFile path =>
      simp only [step] at h
      exact change_readFile h
  | fileClose path =>
      simp only [step, Option.some.injEq] at h
      subst h
      exact change_fileClose
  | openOther fd => exact change_openOther h
  | closeOther fd => exact change_closeOther h

end Changes

/-! ### The entries of the cache -/

/-- A property of the files in the cache, under their names. -/
def Entries (P : Bytes → MountFile → Prop) (cache : StatCache MountData) : Prop :=
  ∀ filename f, (⟨filename, some f⟩ : StatCacheEntry MountData) ∈ cache → P filename f

section Entries

variable {P Q : Bytes → MountFile → Prop} {w : VolumeWorld} {v v' : Volume}
  {cache : StatCache MountData} {file filename : Bytes} {f : MountFile}

theorem Entries.mono (h : Entries P cache) (hPQ : ∀ filename f, P filename f → Q filename f) :
    Entries Q cache :=
  fun filename f hmem => hPQ filename f (h filename f hmem)

theorem Entries.of_findStr (h : Entries P cache)
    (hfind : cache.findStr filename = some ⟨filename, some f⟩) : P filename f :=
  h filename f (List.mem_of_find?_eq_some hfind)

/-- A lookup adds what it finds. -/
theorem Entries.fileStat (h : Entries P v.cache) (hw : WellFormed maxStatCacheSize v.cache)
    (hnew : ∀ info, ¬ isS3DirectoryFile <:+ normalizePath file →
      missFileStat w.toStatWorld (normalizePath file) = .ok info →
      P (normalizePath file) (.ofInfo info)) : Entries P (v.fileStat w file).2.cache := by
  intro filename f hmem
  rcases mem_mountFileStat hw.distinct hmem with hold | ⟨hsecret, -, hentry⟩
  · exact h filename f hold
  · obtain ⟨rfl, hdata⟩ := StatCacheEntry.mk.inj hentry
    cases hmiss : missFileStat w.toStatWorld (normalizePath file) with
    | error status =>
        rw [hmiss] at hdata
        cases hdata
    | ok info =>
        rw [hmiss] at hdata
        obtain rfl := Option.some.inj hdata
        exact hnew info hsecret hmiss

/-- After a write the property is needed of what is written, and of the other files. -/
theorem Entries.update (h : Entries P cache) (filename : Bytes) (write : MountData → MountData)
    (hne : ∀ name f, name ≠ filename → P name f → Q name f)
    (hwrite : ∀ data f, (⟨filename, data⟩ : StatCacheEntry MountData) ∈ cache →
      write data = some f → Q filename f) : Entries Q (cache.update filename write) := by
  intro name f hmem
  rcases mem_update hmem with ⟨hold, hname⟩ | ⟨data, hold, hentry⟩
  · exact hne name f hname (h name f hold)
  · obtain ⟨rfl, hdata⟩ := StatCacheEntry.mk.inj hentry
    exact hwrite data f hold hdata.symm

theorem Entries.write (h : Entries P v.cache)
    (hne : ∀ name f, name ≠ normalizePath file → P name f → Q name f)
    (hf : Q (normalizePath file) f) : Entries Q (v.write file f).cache :=
  h.update (normalizePath file) (fun _ => some f) hne
    fun _ _ _ heq => Option.some.inj heq ▸ hf

theorem Entries.insert (h : Entries P cache) {max : ℕ} {data : MountData}
    (hdata : ∀ f, data = some f → P filename f) :
    Entries P (cache.insertCacheElement max filename data) := by
  intro name f hmem
  rcases mem_insertCacheElement hmem with hold | ⟨hentry, -⟩
  · exact h name f hold
  · obtain ⟨rfl, heq⟩ := StatCacheEntry.mk.inj hentry
    exact hdata f heq.symm

theorem Entries.search (h : Entries P cache) (hdistinct : cache.filenames.Nodup) :
    Entries P (cache.searchStatEntry filename).2 :=
  fun name f hmem => h name f ((perm_searchStatEntry hdistinct filename).mem_iff.1 hmem)

/-- After a deletion the property is only needed of the other files. -/
theorem Entries.delete (h : Entries P cache)
    (hPQ : ∀ name f, name ≠ filename → P name f → Q name f) :
    Entries Q (cache.deleteStatEntry filename) := by
  intro name f hmem
  obtain ⟨hold, hne⟩ := mem_deleteStatEntry hmem
  exact hPQ name f hne (h name f hold)

/-- A file that has been found is in the cache. -/
theorem findStr_of_fileStat (hw : WellFormed maxStatCacheSize v.cache)
    (h : (v.fileStat w file).1 = .ok f) :
    ¬ isS3DirectoryFile <:+ normalizePath file ∧
      (v.fileStat w file).2.cache.findStr (normalizePath file) =
        some ⟨normalizePath file, some f⟩ :=
  findStr_mountFileStat (by decide) (by decide) hw h

theorem wellFormed_fileStat (hw : WellFormed maxStatCacheSize v.cache) (file : Bytes) :
    WellFormed maxStatCacheSize (v.fileStat w file).2.cache :=
  wellFormed_mountFileStat (by decide) (by decide) hw file

theorem request_objects_of_ne (v : Volume) (answer : WriteAnswer) {name : Bytes}
    (o : Option StoredObject) (hne : filename ≠ name) :
    (v.request answer name o).objects filename = v.objects filename := by
  rw [request]
  split
  · exact Function.update_of_ne hne _ _
  · rfl

/-- A request is carried out or not. -/
theorem request_objects_self (v : Volume) (answer : WriteAnswer) (name : Bytes)
    (o : Option StoredObject) :
    (v.request answer name o).objects name =
      if answer.takesEffect then o else v.objects name := by
  rw [request]
  split
  · exact Function.update_self _ _ _
  · rfl

theorem deleteFile_cache (v : Volume) (answer : WriteAnswer) (name : Bytes) :
    (v.deleteFile answer name).2.cache = v.cache.deleteStatEntry name :=
  congrArg (·.deleteStatEntry name) (request_cache v answer name none)

theorem deleteFile_descriptors (v : Volume) (answer : WriteAnswer) (name : Bytes) :
    (v.deleteFile answer name).2.descriptors = v.descriptors :=
  request_descriptors v answer name none

theorem deleteFile_objects_of_ne (v : Volume) (answer : WriteAnswer) {name : Bytes}
    (hne : filename ≠ name) : (v.deleteFile answer name).2.objects filename = v.objects filename :=
  request_objects_of_ne v answer none hne

theorem deleteFile_objects_self (v : Volume) (answer : WriteAnswer) (name : Bytes) :
    (v.deleteFile answer name).2.objects name =
      if answer.takesEffect then none else v.objects name :=
  request_objects_self v answer name none

theorem copyObject_cache (headers : List (Bytes × Bytes)) :
    (v.copyObject w file headers).cache = v.cache := by
  rw [copyObject]
  split
  · rfl
  · exact request_cache v _ _ _

theorem copyObject_descriptors (headers : List (Bytes × Bytes)) :
    (v.copyObject w file headers).descriptors = v.descriptors := by
  rw [copyObject]
  split
  · rfl
  · exact request_descriptors v _ _ _

theorem copyObject_objects_of_ne (headers : List (Bytes × Bytes)) (hne : filename ≠ file) :
    (v.copyObject w file headers).objects filename = v.objects filename := by
  rw [copyObject]
  split
  · rfl
  · exact request_objects_of_ne v _ _ hne

/-- A copy has the same content. -/
theorem copyObject_objects_self (headers : List (Bytes × Bytes)) :
    (v.copyObject w file headers).objects file =
      if w.written.takesEffect then (v.objects file).map fun o => ⟨headers, o.body⟩
      else v.objects file := by
  rw [copyObject]
  split
  · rename_i hnone
    simp [hnone]
  · rename_i o ho
    rw [request_objects_self, ho]
    rfl

/-- The entries after a write. -/
theorem mem_write {g : MountFile} {entry : StatCacheEntry MountData}
    (h : entry ∈ (v.write file g).cache) :
    (entry ∈ v.cache ∧ entry.filename ≠ normalizePath file) ∨
      entry = ⟨normalizePath file, some g⟩ := by
  have hmem : entry ∈ v.cache.update (normalizePath file) fun _ => some g := h
  rcases mem_update hmem with hold | ⟨_, -, hentry⟩
  · exact .inl hold
  · exact .inr hentry

/-- What is written is found. -/
theorem findStr_write_self {data : MountData} {g : MountFile}
    (hfind : v.cache.findStr (normalizePath file) = some ⟨normalizePath file, data⟩) :
    (v.write file g).cache.findStr (normalizePath file) = some ⟨normalizePath file, some g⟩ := by
  rw [Volume.write, findStr_update, if_pos rfl, hfind]
  rfl

theorem findStr_write_of_ne {g : MountFile} (hne : filename ≠ normalizePath file) :
    (v.write file g).cache.findStr filename = v.cache.findStr filename := by
  rw [Volume.write, findStr_update, if_neg hne]

theorem wellFormed_write (hw : WellFormed maxStatCacheSize v.cache) (file : Bytes) (f : MountFile) :
    WellFormed maxStatCacheSize (v.write file f).cache :=
  hw.update (normalizePath file) fun _ => some f

/-- **The cache keeps its own invariant.** -/
theorem Change.wellFormed {call : VolumeCall} (hw : WellFormed maxStatCacheSize v.cache)
    (h : Change w v call v') : WellFormed maxStatCacheSize v'.cache := by
  have hstat := fun file => wellFormed_fileStat (w := w) hw file
  cases h with
  | look call => exact hstat _
  | update hcall hf htype hsize hheaders =>
      rw [copyObject_cache]
      exact wellFormed_write (hstat _) _ _
  | createLink hheaders =>
      refine (hw.deleteStatEntry _).insert (by decide) (by decide) ?_ _
      exact (findStr_deleteStatEntry _ _ _).trans (if_pos rfl)
  | @mkdir dirname mode headers hheaders =>
      have hsearch := hw.search (cleanPath dirname)
      exact hsearch.update (cleanPath dirname) fun _ =>
        some ⟨directoryInfo w.toUpdateWorld mode, none, 0⟩
  | unlink =>
      rw [deleteFile_cache]
      exact hw.deleteStatEntry _
  | rmdirSecret =>
      rw [deleteFile_cache]
      exact (hstat _).deleteStatEntry _
  | rmdir =>
      rw [deleteFile_cache, deleteFile_cache]
      exact ((hstat _).deleteStatEntry _).deleteStatEntry _
  | readLink hf htype hsize hget => exact wellFormed_write (hstat _) _ _
  | openFails hf htype hclosed hopened => exact wellFormed_write (hstat _) _ _
  | openCopy hf htype hclosed hopened hname => exact wellFormed_write (hstat _) _ _
  | fileClose hf => exact wellFormed_write (hstat _) _ _
  | openOther hfd hnone => exact hw
  | closeOther hother => exact hw

end Entries

/-- A volume without objects. -/
def emptyVolume : Volume := ⟨fun _ => none, [], fun _ => none⟩

end Volume

end AwsS3fs
