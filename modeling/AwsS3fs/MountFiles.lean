/-
**What a mounted file system keeps of a file.**

The entries of the cache of file information hold more than what is reported of a file: the target
of a symbolic link, once it is known, and the descriptor of the local copy, once it is open.
`S3GetFileStat` (`s3if.c`) leaves both unset.  Everything else about the cache is as in
`AwsS3fs/FileStats.lean`, to which it is compared here.

Main definitions:

* `AwsS3fs.MountFile` — the information of a file with these two fields;
* `AwsS3fs.mountFileStat` — `S3FileStat`, with everything that its pointer points to.

Main results:

* `AwsS3fs.s3FileStat_fileData` — without the two fields it is `AwsS3fs.s3FileStat`;
* `AwsS3fs.findStr_mountFileStat`, `AwsS3fs.mem_mountFileStat` — the cache after a call.
-/

import AwsS3fs.MetadataUpdates

set_option relaxedAutoImplicit false
set_option autoImplicit false

namespace AwsS3fs

open CLib StatCache

/-! ### Entries and what they hold -/

namespace StatCache

variable {δ ε : Type*}

/-- A table with other data under the same names. -/
def mapData (g : δ → ε) (cache : StatCache δ) : StatCache ε :=
  cache.map fun entry => ⟨entry.filename, g entry.data⟩

variable {g : δ → ε}

theorem findStr_mapData (cache : StatCache δ) (filename : Bytes) :
    (cache.mapData g).findStr filename =
      (cache.findStr filename).map fun entry => ⟨entry.filename, g entry.data⟩ := by
  rw [findStr, mapData, List.find?_map]
  rfl

theorem filenames_mapData (cache : StatCache δ) :
    (cache.mapData g).filenames = cache.filenames := by
  rw [filenames, mapData, List.map_map]
  rfl

theorem delete_mapData (cache : StatCache δ) (filename : Bytes) :
    (cache.mapData g).delete filename = (cache.delete filename).mapData g := by
  rw [delete, mapData, List.filter_map]
  rfl

theorem searchStatEntry_mapData (cache : StatCache δ) (filename : Bytes) :
    (cache.mapData g).searchStatEntry filename =
      ((cache.searchStatEntry filename).1.map g, (cache.searchStatEntry filename).2.mapData g) := by
  simp only [searchStatEntry, findStr_mapData]
  cases cache.findStr filename with
  | none => rfl
  | some entry =>
      simp only [Option.map_some, delete_mapData]
      rw [mapData, mapData, List.map_append]
      rfl

theorem expire_mapData (toDelete : ℤ) (cache : StatCache δ) :
    ∀ numberDeleted, expire toDelete numberDeleted (cache.mapData g) =
      (expire toDelete numberDeleted cache).mapData g := by
  induction cache with
  | nil => exact fun _ => rfl
  | cons entry cache ih =>
      intro numberDeleted
      rw [mapData, List.map_cons, expire, expire]
      split
      · rfl
      · exact ih _

theorem truncateCache_mapData (max : ℕ) (cache : StatCache δ) (truncateTo : ℤ) :
    truncateCache max (cache.mapData g) truncateTo =
      (truncateCache max cache truncateTo).mapData g := by
  have hlength : (cache.mapData g).length = cache.length := List.length_map _
  simp only [truncateCache, hlength, expire_mapData]
  split <;> split <;> rfl

theorem insertCacheElement_mapData (max : ℕ) (cache : StatCache δ) (filename : Bytes) (data : δ) :
    (cache.mapData g).insertCacheElement max filename (g data) =
      (cache.insertCacheElement max filename data).mapData g := by
  simp only [insertCacheElement, findStr_mapData]
  cases cache.findStr filename with
  | none =>
      simp only [Option.map_none]
      rw [← truncateCache_mapData, mapData, mapData, List.map_append]
      rfl
  | some entry => exact truncateCache_mapData max cache (-1)

theorem WellFormed.mapData {max : ℕ} {cache : StatCache δ} (h : WellFormed max cache) :
    WellFormed max (cache.mapData g) := by
  refine ⟨(filenames_mapData cache).symm ▸ h.distinct, ?_⟩
  rw [StatCache.mapData, List.length_map]
  exact h.length_le

theorem WellFormed.of_mapData {max : ℕ} {cache : StatCache δ}
    (h : WellFormed max (cache.mapData g)) : WellFormed max cache := by
  obtain ⟨hdistinct, hlength⟩ := h
  rw [filenames_mapData] at hdistinct
  rw [StatCache.mapData, List.length_map] at hlength
  exact ⟨hdistinct, hlength⟩

/-- A write to a file that is not in the table. -/
theorem update_of_findStr_eq_none {cache : StatCache δ} {filename : Bytes}
    (h : cache.findStr filename = none) (write : δ → δ) : cache.update filename write = cache := by
  rw [findStr_eq_none_iff, mem_filenames_iff] at h
  refine (List.map_congr_left fun entry hentry => if_neg fun hname => ?_).trans (List.map_id _)
  exact h ⟨entry.data, hname ▸ hentry⟩

/-- The entries after a write through a pointer. -/
theorem mem_update {cache : StatCache δ} {filename : Bytes} {write : δ → δ}
    {entry : StatCacheEntry δ} (h : entry ∈ cache.update filename write) :
    (entry ∈ cache ∧ entry.filename ≠ filename) ∨
      ∃ data, (⟨filename, data⟩ : StatCacheEntry δ) ∈ cache ∧ entry = ⟨filename, write data⟩ := by
  obtain ⟨old, hold, rfl⟩ := List.mem_map.1 h
  by_cases hname : old.filename = filename
  · rw [if_pos hname]
    exact .inr ⟨old.data, hname ▸ hold, by rw [hname]⟩
  · rw [if_neg hname]
    exact .inl ⟨hold, hname⟩

/-- The entries after a deletion. -/
theorem mem_deleteStatEntry {cache : StatCache δ} {filename : Bytes} {entry : StatCacheEntry δ}
    (h : entry ∈ cache.deleteStatEntry filename) : entry ∈ cache ∧ entry.filename ≠ filename := by
  rw [deleteStatEntry] at h
  split at h
  · rename_i hnone
    refine ⟨h, ?_⟩
    rintro rfl
    exact findStr_eq_none_iff.1 hnone (List.mem_map_of_mem h)
  · rename_i found hfound
    obtain ⟨hmem, hne⟩ := List.mem_filter.1 h
    rw [filename_of_findStr hfound] at hne
    exact ⟨hmem, by simpa using hne⟩

/-- The entries after an insertion. -/
theorem mem_insertCacheElement {max : ℕ} {cache : StatCache δ} {filename : Bytes} {data : δ}
    {entry : StatCacheEntry δ} (h : entry ∈ cache.insertCacheElement max filename data) :
    entry ∈ cache ∨ entry = ⟨filename, data⟩ ∧ filename ∉ cache.filenames := by
  have hmem : entry ∈ statStep max cache (.insert filename data) := h
  rcases mem_statStep hmem with hold | ⟨hcall, hnew⟩
  · exact .inl hold
  · obtain ⟨hname, hdata⟩ := StatCall.insert.inj hcall
    exact .inr ⟨by rw [hname, hdata], by rwa [hname]⟩

/-- What is not at the front of the table does not expire. -/
theorem findStr_drop_of_ne_none {cache : StatCache δ} (h : cache.filenames.Nodup) {n : ℕ}
    {g : Bytes} (hfound : findStr (cache.drop n) g ≠ none) :
    findStr (cache.drop n) g = cache.findStr g := by
  rw [findStr_drop h] at hfound ⊢
  split
  · rename_i htake
    exact absurd (if_pos htake) hfound
  · rfl

/-- An insertion leaves the other entries alone, unless they expire. -/
theorem findStr_insertCacheElement_of_ne {max : ℕ} {cache : StatCache δ} {filename g : Bytes}
    (hpos : 0 < max) (hmax : max < 2 ^ 31) (hw : WellFormed max cache)
    (hfind : cache.findStr filename = none) (data : δ) (hne : g ≠ filename) :
    (cache.insertCacheElement max filename data).findStr g = cache.findStr g ∨
      (cache.insertCacheElement max filename data).findStr g = none := by
  rw [findStr_insertCacheElement hpos hmax hw hfind, if_neg hne]
  by_cases hnone : findStr (cache.drop (cache.length + 1 - max)) g = none
  · exact .inr hnone
  · exact .inl (findStr_drop_of_ne_none hw.distinct hnone)

end StatCache

/-! ### Files of a mounted file system -/

/-- `struct S3FileInfo` as a mounted file system uses it: what is reported of a file, the target of
a symbolic link, and the descriptor of the local copy. -/
structure MountFile where
  info : S3FileInfo
  symlinkTarget : Option Bytes
  localFd : ℤ
  deriving DecidableEq

/-- The file in an entry of the cache, or nothing if `filenotfound` is set. -/
abbrev MountData := Option MountFile

/-- What `S3GetFileStat` fills in. -/
def MountFile.ofInfo (info : S3FileInfo) : MountFile := ⟨info, none, -1⟩

/-- What is reported of an entry. -/
def fileData : MountData → FileData := Option.map MountFile.info

/-- `S3FileStat`: what its pointer points to, unless it returns an error, and the cache
afterwards. -/
def mountFileStat (max : ℕ) (w : StatWorld) (cache : StatCache MountData) (file : Bytes) :
    Except ℤ MountFile × StatCache MountData :=
  let filename := normalizePath file
  if isS3DirectoryFile <:+ filename then (.error enoent, cache)
  else
    match cache.findStr filename with
    | none =>
        let found := missFileStat w filename
        (found.map .ofInfo,
          cache.insertCacheElement max filename (found.toOption.map .ofInfo))
    | some entry =>
        (match entry.data with
          | none => .error enoent
          | some f => .ok f, (cache.searchStatEntry filename).2)

section FileStat

variable {max : ℕ} {w : StatWorld} {cache cache' : StatCache MountData} {file filename : Bytes}

/-- **Without the two fields it is `AwsS3fs.s3FileStat`.** -/
theorem s3FileStat_fileData (hpos : 0 < max) (hmax : max < 2 ^ 31) (hw : WellFormed max cache)
    (file : Bytes) :
    s3FileStat max w (cache.mapData fileData) file =
      ((mountFileStat max w cache file).1.map fun f => some f.info,
        (mountFileStat max w cache file).2.mapData fileData) := by
  refine Prod.ext ?_ ?_
  · rw [s3FileStat_fst hpos hmax hw.mapData, mountFileStat]
    split
    · rfl
    · rw [fileStatView, findStr_mapData]
      cases cache.findStr (normalizePath file) with
      | none =>
          simp only [Option.map_none]
          cases missFileStat w (normalizePath file) <;> rfl
      | some entry =>
          obtain ⟨name, data⟩ := entry
          cases data <;> rfl
  · rw [s3FileStat_snd, mountFileStat]
    split
    · rfl
    · rw [findStr_mapData]
      cases cache.findStr (normalizePath file) with
      | none =>
          simp only [Option.map_none, Option.isSome_none, Bool.false_eq_true, if_false]
          rw [← insertCacheElement_mapData]
          congr 1
          cases missFileStat w (normalizePath file) <;> rfl
      | some entry =>
          simp only [Option.map_some, Option.isSome_some, if_true]
          rw [searchStatEntry_mapData]

theorem wellFormed_mountFileStat (hpos : 0 < max) (hmax : max < 2 ^ 31) (hw : WellFormed max cache)
    (file : Bytes) : WellFormed max (mountFileStat max w cache file).2 := by
  have h := wellFormed_s3FileStat (w := w) hpos hmax (hw.mapData (g := fileData)) file
  rw [s3FileStat_fileData hpos hmax hw] at h
  exact h.of_mapData

/-- **The entries after a call**: those that were there, and one with what the lookup found. -/
theorem mem_mountFileStat (hw : cache.filenames.Nodup) {entry : StatCacheEntry MountData}
    (h : entry ∈ (mountFileStat max w cache file).2) :
    entry ∈ cache ∨ ¬ isS3DirectoryFile <:+ normalizePath file ∧
      cache.findStr (normalizePath file) = none ∧
      entry = ⟨normalizePath file,
        (missFileStat w (normalizePath file)).toOption.map .ofInfo⟩ := by
  simp only [mountFileStat] at h
  split at h
  · exact .inl h
  · rename_i hsecret
    cases hfind : cache.findStr (normalizePath file) with
    | none =>
        rw [hfind] at h
        rcases mem_insertCacheElement h with hold | ⟨hnew, -⟩
        · exact .inl hold
        · exact .inr ⟨hsecret, rfl, hnew⟩
    | some found =>
        rw [hfind] at h
        exact .inl ((perm_searchStatEntry hw _).mem_iff.1 h)

/-- **A file that was found is in the cache afterwards.** -/
theorem findStr_mountFileStat (hpos : 0 < max) (hmax : max < 2 ^ 31) (hw : WellFormed max cache)
    {f : MountFile} (h : (mountFileStat max w cache file).1 = .ok f) :
    ¬ isS3DirectoryFile <:+ normalizePath file ∧
      (mountFileStat max w cache file).2.findStr (normalizePath file) =
        some ⟨normalizePath file, some f⟩ := by
  simp only [mountFileStat] at h ⊢
  split at h
  · cases h
  · rename_i hsecret
    refine ⟨hsecret, ?_⟩
    rw [if_neg hsecret]
    cases hfind : cache.findStr (normalizePath file) with
    | none =>
        rw [hfind] at h
        simp only []
        rw [findStr_insertCacheElement hpos hmax hw hfind, if_pos rfl]
        cases hmiss : missFileStat w (normalizePath file) with
        | error status =>
            rw [hmiss] at h
            cases h
        | ok info =>
            rw [hmiss] at h
            obtain rfl := Except.ok.inj h
            rfl
    | some entry =>
        rw [hfind] at h
        have hname : entry.filename = normalizePath file := filename_of_findStr hfind
        refine (findStr_searchStatEntry hw.distinct _ _).trans (hfind.trans ?_)
        obtain ⟨name, data⟩ := entry
        cases data with
        | none => cases h
        | some f' =>
            obtain rfl := Except.ok.inj h
            exact congrArg _ (congrArg₂ StatCacheEntry.mk hname rfl)

/-- **The other files are found as before**, unless they have expired. -/
theorem findStr_mountFileStat_ne (hpos : 0 < max) (hmax : max < 2 ^ 31) (hw : WellFormed max cache)
    (hne : filename ≠ normalizePath file) :
    (mountFileStat max w cache file).2.findStr filename = cache.findStr filename ∨
      (mountFileStat max w cache file).2.findStr filename = none := by
  simp only [mountFileStat]
  split
  · exact .inl rfl
  · cases hfind : cache.findStr (normalizePath file) with
    | none => exact findStr_insertCacheElement_of_ne hpos hmax hw hfind _ hne
    | some entry => exact .inl (findStr_searchStatEntry hw.distinct _ _)

end FileStat

end AwsS3fs
