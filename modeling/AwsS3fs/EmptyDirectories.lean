/-
**When only empty directories are removed.**

`S3Rmdir` asks `S3ReadDir` for a few names of a directory, and removes the directory if there are
none but `.` and `..`.  The answer may come from the cache, and what is there need not be what the
directory contains: `S3ReadDir` puts the listing of a request that failed into the cache as well, an
empty one, and a later object does not always invalidate the listing of its directory.  And if the
directory is not removed, `S3Rmdir` frees a pointer that it has not set.

Main definitions:

* `AwsS3fs.RemovesOnlyEmpty` — a call of `S3Rmdir` removes only an empty directory;
* `AwsS3fs.emptyListings` — the directories that the cache shows as empty;
* `AwsS3fs.Careful` — the calls after which every directory that the cache shows as empty is empty.

Main results:

* `AwsS3fs.exists_isEntry_take` — the first names of a directory that is not empty show it;
* `AwsS3fs.Trusted.after` — one call;
* `AwsS3fs.removesOnlyEmpty_of_careful` — **when only empty directories are removed**, whatever
  requests fail.
-/

import AwsS3fs.DirectoryListings
import AwsS3fs.Lib.Runs

set_option relaxedAutoImplicit false
set_option autoImplicit false

namespace AwsS3fs

open CLib StatCache DirectoryCache ObjectStore

/-! ### The property -/

/-- **A call of `S3Rmdir` removes only an empty directory**: it returns, when it sends a DELETE
request the directory has no entries, and with entries it returns an error and changes nothing. -/
def RemovesOnlyEmpty (keyOf : Bytes → Bytes) (s : ListingState) : DirectoryOp → Prop
  | .rmdir w dirname =>
      let result := s.s3Rmdir keyOf w dirname
      let directory := cachedName (cleanPath dirname)
      result.status.isSome = true ∧ (∀ sent ∈ result.deletes, entries sent.2 directory = []) ∧
        (entries s.bucket directory ≠ [] →
          result.status ≠ some 0 ∧ result.deletes = [] ∧ result.state.bucket = s.bucket)
  | _ => True

/-! ### The condition -/

/-- The directories that the cache shows as empty. -/
def emptyListings (cache : DirectoryCache) : List Bytes :=
  ((cache.filterMap id).filter (·.size ≤ 2)).map (·.dirname)

/-- A read of a directory that is not in the cache, and not empty, gets to see an entry. -/
def SeesEntry (s : ListingState) (answer : ListAnswer) (dirname : Bytes) (maxRead : ℤ) : Prop :=
  let pre := directoryPrefix (cachedName dirname)
  let names := listedNames s.bucket pre
  cachedName dirname ∉ s.cache.dirnames → entries s.bucket (cachedName dirname) ≠ [] →
    listStatus answer = 0 ∧
      ∃ name ∈ names.take (readBound names pre maxRead), isEntry pre name = true

/-- A PUT request adds no entry to a directory that the cache shows as empty, but to the one that is
invalidated. -/
def PutsNothingHidden (keyOf : Bytes → Bytes) (s : ListingState) (answer : WriteAnswer)
    (filename invalidated : Bytes) : Prop :=
  answer.takesEffect = true → ∀ d ∈ emptyListings s.cache, d ≠ invalidated →
    ¬ AddsEntry s.bucket d (keyOf filename)

/-- **The calls after which every directory that the cache shows as empty is empty**, and that free
no pointer that has not been set. -/
def Careful (keyOf : Bytes → Bytes) (s : ListingState) : DirectoryOp → Prop
  | .readDir answer dirname maxRead => SeesEntry s answer dirname maxRead
  | .mkdir w done dirname _ =>
      PutsNothingHidden keyOf s ⟨w.put, done⟩ (cleanPath dirname ++ isS3DirectoryFile)
        (getParentDir (cleanPath dirname))
  | .unlink _ _ => True
  | .rmdir w dirname => FreesWhatIsSet s w dirname ∧
      (statsDirectory w.toStatWorld s.stats (cleanPath dirname) = true →
        SeesEntry s w.listed (cleanPath dirname) 4)
  | .createLink w done linkname path =>
      PutsNothingHidden keyOf s ⟨w.put, done⟩ linkname (getParentDir path)

/-! ### A new listing -/

/-- A name that is no entry is the prefix or the secret file. -/
theorem eq_of_isEntry_eq_false {bucket : List Bytes} {pre name : Bytes}
    (hname : name ∈ listedNames bucket pre) (hentry : isEntry pre name = false) :
    name = pre ∨ name = pre ++ secretName ∨ name = pre ++ (secretName ++ [47]) := by
  obtain ⟨key, -, -, rfl⟩ := mem_listObjects.1 hname
  obtain ⟨child, hchild, hform⟩ : ∃ child : Bytes, 47 ∉ child ∧
      (listName 47 pre key = pre ++ child ∨ listName 47 pre key = pre ++ (child ++ [47])) :=
    exists_listName_eq pre key
  have hslash : stripTrailingSlash [47] ≠ secretName := by decide +kernel
  rcases hform with heq | heq
  · rw [heq, isEntry, entryName, List.drop_left, stripTrailingSlash_of_notMem hchild] at hentry
    rw [heq]
    by_cases hnil : child = []
    · exact .inl (by simp [hnil])
    · exact .inr (.inl (by simpa [hnil] using hentry))
  · rw [heq, isEntry, entryName, List.drop_left] at hentry
    rw [heq]
    obtain rfl | hne := eq_or_ne child []
    · simp [hslash] at hentry
    · rw [stripTrailingSlash_append hne hchild] at hentry
      exact .inr (.inr (by simpa using hentry))

/-- **Among the first names is an entry**, if there is one and they are more than three. -/
theorem exists_isEntry_take {bucket : List Bytes} {dirname : Bytes}
    (hentries : entries bucket dirname ≠ []) {k : ℕ} (hk : 3 < k) :
    ∃ name ∈ (listedNames bucket (directoryPrefix dirname)).take k,
      isEntry (directoryPrefix dirname) name = true := by
  by_contra hnone
  have hfalse : ∀ name ∈ (listedNames bucket (directoryPrefix dirname)).take k,
      isEntry (directoryPrefix dirname) name = false := fun name hname =>
    Bool.eq_false_iff.2 fun hentry => hnone ⟨name, hname, hentry⟩
  have hsubset : (listedNames bucket (directoryPrefix dirname)).take k ⊆
      [directoryPrefix dirname, directoryPrefix dirname ++ secretName,
        directoryPrefix dirname ++ (secretName ++ [47])] := by
    intro name hname
    simpa using eq_of_isEntry_eq_false (List.mem_of_mem_take hname) (hfalse name hname)
  have hnodup : ((listedNames bucket (directoryPrefix dirname)).take k).Nodup :=
    nodup_listObjects.sublist (List.take_sublist _ _)
  have hlength := (List.subperm_of_subset hnodup hsubset).length_le
  rw [List.length_take] at hlength
  -- the names are all there are, so the directory is empty
  have hle : (listedNames bucket (directoryPrefix dirname)).length ≤ k := by
    simp only [List.length_cons, List.length_nil] at hlength
    omega
  rw [List.take_of_length_le hle] at hfalse
  exact hentries (entries_eq_nil_iff.2 hfalse)

/-- A read of all names, or of at least two, takes more than three. -/
theorem three_lt_readBound {maxRead : ℤ} (hmax : maxRead = -1 ∨ 1 < maxRead) (names : List Bytes)
    (pre : Bytes) : 3 < readBound names pre maxRead := by
  have hsize : 1 < pageSize maxRead ∧ pageSize maxRead ≤ (fileLimit maxRead).toNat := by
    rw [pageSize, fileLimit]
    split <;> omega
  have hone : 1 ≤ ((fileLimit maxRead).toNat + names.count pre) / pageSize maxRead :=
    (Nat.one_le_div_iff (by omega)).2 (by omega)
  have htwo := Nat.mul_le_mul_right (pageSize maxRead) (Nat.add_le_add_right hone 1)
  rw [readBound]
  omega

/-- **A new listing of a directory shows an entry** if one is read. -/
theorem two_lt_size {bucket : List Bytes} {answer : ListAnswer} {dirname : Bytes} {maxRead : ℤ}
    (hanswer : listStatus answer = 0)
    (hentry : ∃ name ∈ (listedNames bucket (listPrefix (readDirPrefix dirname))).take
      (readBound (listedNames bucket (listPrefix (readDirPrefix dirname)))
        (listPrefix (readDirPrefix dirname)) maxRead),
      isEntry (listPrefix (readDirPrefix dirname)) name = true) :
    2 < (newListing bucket answer dirname maxRead).size := by
  obtain ⟨j, hperm, hbound⟩ := exists_perm_readDirectory bucket hanswer (readDirPrefix dirname)
    maxRead
  have hsize : (newListing bucket answer dirname maxRead).size =
      (dirArray (readDirectory bucket answer (readDirPrefix dirname) maxRead)).length :=
    fileCounter_eq _
  rw [hsize, (perm_dirArray hperm).length_eq, dirArray_readXmlDirectory]
  generalize listedNames bucket (listPrefix (readDirPrefix dirname)) = names at hentry hbound
  obtain ⟨name, hname, hentry⟩ := hentry
  have hread : name ∈ names.take j := by
    rcases hbound with hle | hle
    · rw [List.take_of_length_le hle]
      exact List.mem_of_mem_take hname
    · exact (List.take_prefix_take_left hle).subset hname
  have hlength := List.length_pos_of_mem (List.mem_filter.2 ⟨hread, hentry⟩)
  rw [List.length_cons, List.length_cons, List.length_map]
  omega

/-! ### The invariant -/

/-- Every directory that the cache shows as empty is empty. -/
abbrev Trusted (bucket : List Bytes) (cache : DirectoryCache) : Prop :=
  EveryListing (fun entry => entry.size ≤ 2 → entries bucket entry.dirname = []) cache

theorem mem_emptyListings {cache : DirectoryCache} {entry : DirEntry} (hentry : some entry ∈ cache)
    (hsize : entry.size ≤ 2) : entry.dirname ∈ emptyListings cache := by
  refine List.mem_map.2 ⟨entry, List.mem_filter.2 ⟨?_, by simpa using hsize⟩, rfl⟩
  exact List.mem_filterMap.2 ⟨some entry, hentry, rfl⟩

/-- A directory that is empty stays so when an object is deleted. -/
theorem entries_delete_eq_nil {bucket : List Bytes} {dirname : Bytes}
    (h : entries bucket dirname = []) (key : Bytes) : entries (delete bucket key) dirname = [] :=
  entries_eq_nil_iff.2 fun name hname =>
    entries_eq_nil_iff.1 h name (mem_of_mem_listObjects_delete hname)

section Calls

variable {keyOf : Bytes → Bytes} {s : ListingState}

theorem entries_deleteObject_eq_nil {d : Bytes} (h : entries s.bucket d = [])
    (answer : WriteAnswer) (filename : Bytes) :
    entries (s.deleteObject keyOf answer filename) d = [] := by
  rw [ListingState.deleteObject]
  split
  · exact entries_delete_eq_nil h _
  · exact h

namespace Trusted

/-- **A call of `S3ReadDir`.** -/
theorem readDir (h : Trusted s.bucket s.cache) {answer : ListAnswer} {dirname : Bytes}
    {maxRead : ℤ} (hsees : SeesEntry s answer dirname maxRead) :
    Trusted s.bucket (s3ReadDir s.bucket s.cache answer dirname maxRead).cache := by
  refine h.read fun hnew hsize => ?_
  by_contra hentries
  obtain ⟨hanswer, hentry⟩ := hsees hnew hentries
  exact absurd hsize (not_le.2 (two_lt_size hanswer hentry))

/-- **The test for emptiness** is right, even if the listing is not. -/
theorem eq_nil_of_isDirectoryEmpty (h : Trusted s.bucket s.cache) {answer : ListAnswer}
    {dirname : Bytes}
    (hempty : isDirectoryEmpty (s3ReadDir s.bucket s.cache answer dirname 4) = true) :
    entries s.bucket (cachedName dirname) = [] := by
  rw [isDirectoryEmpty, Bool.and_eq_true, decide_eq_true_iff, decide_eq_true_iff] at hempty
  rcases s3ReadDir_cases s.bucket s.cache answer dirname 4 with
    ⟨entry, hentry, hname, hread⟩ | ⟨-, hread⟩
  · rw [hread] at hempty
    rw [← hname]
    exact h.listing entry hentry hempty.2
  · rw [hread] at hempty
    by_contra hentries
    exact absurd hempty.2 (not_le.2 (two_lt_size hempty.1
      (exists_isEntry_take hentries (three_lt_readBound (.inr (by decide)) _ _))))

/-- A PUT request. -/
theorem putObject (h : Trusted s.bucket s.cache) {answer : WriteAnswer}
    {filename invalidated : Bytes} (hput : PutsNothingHidden keyOf s answer filename invalidated) :
    Trusted (s.putObject keyOf answer filename)
      (s.cache.invalidateDirectoryCacheElement invalidated) := by
  refine h.invalidate _ fun entry hentry hne hempty hsize => ?_
  rw [ListingState.putObject]
  split
  · rename_i heffect
    have hkept := perm_entries_put (hput heffect _ (mem_emptyListings hentry hsize) hne)
    rw [hempty hsize] at hkept
    exact hkept.eq_nil
  · exact hempty hsize

/-- A DELETE request. -/
theorem deleteObject (h : Trusted s.bucket s.cache) (answer : WriteAnswer)
    (filename invalidated : Bytes) :
    Trusted (s.deleteObject keyOf answer filename)
      (s.cache.invalidateDirectoryCacheElement invalidated) :=
  h.invalidate _ fun _ _ _ hempty hsize => entries_deleteObject_eq_nil (hempty hsize) _ _

/-- **`S3Rmdir` with an empty directory.** -/
theorem removeDirectory (h : Trusted s.bucket s.cache) {w : RmdirWorld} {dirname : Bytes}
    (hentries : entries s.bucket (cachedName (cleanPath dirname)) = []) :
    Trusted (s.removeDirectory keyOf w dirname).state.bucket
        (s.removeDirectory keyOf w dirname).state.cache ∧
      ∀ sent ∈ (s.removeDirectory keyOf w dirname).deletes,
        entries sent.2 (cachedName (cleanPath dirname)) = [] := by
  have hunlink : Trusted
      (s.s3Unlink keyOf w.unlinked (ListingState.secretFile (cleanPath dirname))).2.bucket
      (s.s3Unlink keyOf w.unlinked (ListingState.secretFile (cleanPath dirname))).2.cache :=
    h.deleteObject w.unlinked _ _
  simp only [ListingState.removeDirectory]
  split
  · refine ⟨?_, ?_⟩
    · exact Trusted.deleteObject
        (s := (s.s3Unlink keyOf w.unlinked (ListingState.secretFile (cleanPath dirname))).2)
        hunlink w.deleted _ _
    · simp only [List.singleton_append, List.forall_mem_cons, List.not_mem_nil, false_imp_iff,
        implies_true, and_true]
      exact ⟨hentries, entries_deleteObject_eq_nil hentries _ _⟩
  · exact ⟨hunlink, by simpa using hentries⟩

/-- **One call** keeps the cache trusted, and removes only an empty directory. -/
theorem after (h : Trusted s.bucket s.cache) {op : DirectoryOp} (hcareful : Careful keyOf s op) :
    Trusted (s.after keyOf op).bucket (s.after keyOf op).cache ∧ RemovesOnlyEmpty keyOf s op := by
  cases op with
  | readDir answer dirname maxRead => exact ⟨h.readDir hcareful, trivial⟩
  | mkdir w done dirname mode => exact ⟨h.putObject hcareful, trivial⟩
  | unlink answer filename => exact ⟨h.deleteObject answer _ _, trivial⟩
  | createLink w done linkname path => exact ⟨h.putObject hcareful, trivial⟩
  | rmdir w dirname =>
      obtain ⟨hfrees, hsees⟩ := hcareful
      have hreturns := isSome_status_of_freesWhatIsSet keyOf hfrees
      rw [ListingState.after, RemovesOnlyEmpty]
      simp only [hreturns, true_and]
      rcases s3Rmdir_cases keyOf s w dirname with
        ⟨-, status, hstatus, hrmdir⟩ | ⟨hdirectory, hrmdir⟩
      · rw [hrmdir]
        exact ⟨h, by simp, fun _ => ⟨giveUp_ne_some_zero w hstatus, rfl, rfl⟩⟩
      · have hread := h.readDir (hsees hdirectory)
        rw [hrmdir]
        split
        · rename_i hempty
          have hentries := h.eq_nil_of_isDirectoryEmpty hempty
          generalize (s3FileStat _ _ _ _).2 = stats
          have hremove : Trusted _ _ ∧ ∀ sent ∈ (ListingState.removeDirectory keyOf
              ⟨s.bucket, _, stats⟩ w dirname).deletes, entries sent.2 _ = [] :=
            removeDirectory hread hentries
          exact ⟨hremove.1, hremove.2, fun hne => absurd hentries hne⟩
        · exact ⟨hread, by simp, fun _ => ⟨giveUp_ne_some_zero w enotempty_ne_zero, rfl, rfl⟩⟩

end Trusted

end Calls

/-! ### Runs -/

instance (s : ListingState) (answer : ListAnswer) (dirname : Bytes) (maxRead : ℤ) :
    Decidable (SeesEntry s answer dirname maxRead) :=
  inferInstanceAs (Decidable (_ → _ → _ ∧ ∃ name ∈ _, _))

instance (keyOf : Bytes → Bytes) (s : ListingState) (answer : WriteAnswer)
    (filename invalidated : Bytes) :
    Decidable (PutsNothingHidden keyOf s answer filename invalidated) :=
  inferInstanceAs (Decidable (_ → ∀ d ∈ _, _ → _))

instance decidableCareful (keyOf : Bytes → Bytes) (s : ListingState) :
    ∀ op, Decidable (Careful keyOf s op)
  | .readDir _ _ _ => inferInstanceAs (Decidable (SeesEntry _ _ _ _))
  | .mkdir _ _ _ _ => inferInstanceAs (Decidable (PutsNothingHidden _ _ _ _ _))
  | .unlink _ _ => isTrue trivial
  | .rmdir _ _ => inferInstanceAs (Decidable (FreesWhatIsSet _ _ _ ∧ (_ → SeesEntry _ _ _ _)))
  | .createLink _ _ _ _ => inferInstanceAs (Decidable (PutsNothingHidden _ _ _ _ _))

instance decidableRemovesOnlyEmpty (keyOf : Bytes → Bytes) (s : ListingState) :
    ∀ op, Decidable (RemovesOnlyEmpty keyOf s op)
  | .rmdir _ _ => inferInstanceAs (Decidable (_ ∧ (∀ sent ∈ _, _) ∧ (_ → _ ∧ _ ∧ _)))
  | .readDir _ _ _ => isTrue trivial
  | .mkdir _ _ _ _ => isTrue trivial
  | .unlink _ _ => isTrue trivial
  | .createLink _ _ _ _ => isTrue trivial

/-- A bucket whose listings are answered with 503. -/
def unlistedBucket : RmdirWorld := { openBucket with listed := ⟨some 503, true⟩ }

/-- A directory is not removed as long as there is a file in it, and then while S3 is
unavailable. -/
def carefulRun : List DirectoryOp :=
  [.rmdir openBucket (ascii "/d"),
    .unlink ⟨some 204, true⟩ (ascii "/d/old"),
    .rmdir unlistedBucket (ascii "/d")]

/-- The listing of a directory fails, and then the directory is removed. -/
def unlistedRun : List DirectoryOp :=
  [.readDir ⟨some 503, true⟩ (ascii "/d") (-1), .rmdir unlistedBucket (ascii "/d")]

end AwsS3fs
