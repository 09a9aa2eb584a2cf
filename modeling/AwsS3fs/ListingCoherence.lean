/-
**When the listings of directories are coherent.**

A call of `S3ReadDir` for a whole directory should return what the directory contains.  What keeps a
cached listing right is that a change invalidates it: `S3Mkdir` and `S3Unlink` invalidate the
directory that the new or deleted object is in, but not one above it in which it adds or removes the
name of a directory; `S3CreateLink` invalidates the directory of the target of the link.  `S3Rmdir`
reads only the beginning of a large directory, and this listing goes into the cache as well.  An
answer that comes in pieces cannot be read, and a directory that is not removed makes `S3Rmdir` free
a pointer that it has not set.

Main definitions:

* `AwsS3fs.ReadsEntries` — a call returns, and one for a whole directory with what it contains;
* `AwsS3fs.ReadsAll` — a read gets to see every entry;
* `AwsS3fs.KeepsListings` — the calls that leave every cached listing right.

Main results:

* `AwsS3fs.shows_newListing` — a new listing is right;
* `AwsS3fs.Coherent.after` — one call;
* `AwsS3fs.readsEntries_of_keepsListings` — **when every call for a whole directory returns what it
  contains**.
-/

import AwsS3fs.DirectoryListings
import AwsS3fs.Lib.Runs

set_option relaxedAutoImplicit false
set_option autoImplicit false

namespace AwsS3fs

open CLib StatCache DirectoryCache ObjectStore

/-! ### The property -/

/-- Names and their number are right for a directory. -/
def Shows (bucket : List Bytes) (dirname : Bytes) (nameArray : List Bytes) (nFiles : ℤ) : Prop :=
  nFiles = nameArray.length ∧
    nameArray.Perm (ascii "." :: ascii ".." :: entries bucket dirname)

/-- Every request of a call succeeds. -/
def DirectoryOp.Succeeds : DirectoryOp → Prop
  | .readDir answer _ _ => submitStatus answer.httpStatus = 0
  | .mkdir w _ _ _ => submitStatus w.put = 0
  | .unlink answer _ => submitStatus answer.httpStatus = 0
  | .rmdir w _ => submitStatus w.listed.httpStatus = 0 ∧
      submitStatus w.unlinked.httpStatus = 0 ∧ submitStatus w.deleted.httpStatus = 0
  | .createLink w _ _ _ => submitStatus w.put = 0

/-- **A call of `S3ReadDir` for a whole directory returns what it contains**, and a call of
`S3Rmdir` returns. -/
def ReadsEntries (keyOf : Bytes → Bytes) (s : ListingState) : DirectoryOp → Prop
  | .readDir answer dirname maxRead =>
      let read := s3ReadDir s.bucket s.cache answer dirname maxRead
      maxRead = -1 → read.status = 0 ∧
        Shows s.bucket (cachedName dirname) read.nameArray read.nFiles
  | .rmdir w dirname => (s.s3Rmdir keyOf w dirname).status.isSome = true
  | _ => True

/-! ### The condition -/

/-- **A read gets to see every entry**: among the names that it does not take is none. -/
def ReadsAll (bucket : List Bytes) (dirname : Bytes) (maxRead : ℤ) : Prop :=
  let pre := directoryPrefix dirname
  let names := listedNames bucket pre
  ∀ name ∈ names.drop (readBound names pre maxRead), isEntry pre name = false

/-- A read of a directory that is not in the cache gets an answer that can be read, and gets to see
every entry. -/
def ReadsAllIfNew (s : ListingState) (answer : ListAnswer) (dirname : Bytes) (maxRead : ℤ) : Prop :=
  cachedName dirname ∉ s.cache.dirnames →
    answer.readable = true ∧ ReadsAll s.bucket (cachedName dirname) maxRead

/-- The directories that are in the cache after a read. -/
def dirnamesAfterRead (cache : DirectoryCache) (dirname : Bytes) : List Bytes :=
  if cache.dirnames.contains dirname then cache.dirnames else dirname :: dirnames cache.dropLast

/-- **The calls that leave every cached listing right**: a new listing is complete, a request adds
and removes entries only in directories whose listings are not in the cache or are invalidated, and
`S3Rmdir` frees no pointer that it has not set. -/
def KeepsListings (keyOf : Bytes → Bytes) (s : ListingState) : DirectoryOp → Prop
  | .readDir answer dirname maxRead => ReadsAllIfNew s answer dirname maxRead
  | .mkdir _ _ dirname _ =>
      ∀ d ∈ s.cache.dirnames, d ≠ getParentDir (cleanPath dirname) →
        ¬ AddsEntry s.bucket d (keyOf (cleanPath dirname ++ isS3DirectoryFile))
  | .unlink _ filename =>
      ∀ d ∈ s.cache.dirnames, d ≠ getParentDir (cleanPath filename) →
        ¬ RemovesEntry s.bucket d (keyOf (cleanPath filename))
  | .rmdir w dirname =>
      let cleanName := cleanPath dirname
      let secret := cleanPath (ListingState.secretFile cleanName)
      FreesWhatIsSet s w dirname ∧
        (statsDirectory w.toStatWorld s.stats cleanName = true →
          ReadsAllIfNew s w.listed cleanName 4 ∧
            (entries s.bucket (cachedName cleanName) = [] →
              ∀ d ∈ dirnamesAfterRead s.cache (cachedName cleanName),
                d ≠ getParentDir secret → d ≠ getParentDir dirname →
                  ¬ RemovesEntry s.bucket d (keyOf secret) ∧
                    ¬ RemovesEntry (delete s.bucket (keyOf secret)) d (keyOf cleanName)))
  | .createLink _ _ linkname path =>
      ∀ d ∈ s.cache.dirnames, d ≠ getParentDir path → ¬ AddsEntry s.bucket d (keyOf linkname)

/-! ### A new listing -/

/-- What is read has every entry. -/
theorem filter_take_eq_of_readsAll {bucket : List Bytes} {dirname : Bytes} {maxRead : ℤ}
    (hall : ReadsAll bucket dirname maxRead) {j : ℕ}
    (hj : (listedNames bucket (directoryPrefix dirname)).length ≤ j ∨
      readBound (listedNames bucket (directoryPrefix dirname)) (directoryPrefix dirname) maxRead ≤
        j) :
    ((listedNames bucket (directoryPrefix dirname)).take j).filter
        (isEntry (directoryPrefix dirname)) =
      (listedNames bucket (directoryPrefix dirname)).filter
        (isEntry (directoryPrefix dirname)) := by
  simp only [ReadsAll] at hall
  generalize listedNames bucket (directoryPrefix dirname) = names at hall hj ⊢
  have hrest : (names.drop j).filter (isEntry (directoryPrefix dirname)) = [] := by
    refine List.filter_eq_nil_iff.2 fun name hname => ?_
    rcases hj with hle | hle
    · rw [List.drop_of_length_le hle] at hname
      cases hname
    · rw [← Nat.add_sub_of_le hle, ← List.drop_drop] at hname
      rw [hall name (List.mem_of_mem_drop hname)]
      exact Bool.false_ne_true
  conv_rhs => rw [← List.take_append_drop j names, List.filter_append, hrest, List.append_nil]

/-- **A new listing is right** if the read gets to see every entry. -/
theorem shows_newListing {bucket : List Bytes} {answer : ListAnswer} {dirname : Bytes}
    {maxRead : ℤ} (hanswer : listStatus answer = 0)
    (hall : ReadsAll bucket (cachedName dirname) maxRead) :
    Shows bucket (cachedName dirname) (newListing bucket answer dirname maxRead).contents
      (newListing bucket answer dirname maxRead).size := by
  refine ⟨fileCounter_eq _, ?_⟩
  obtain ⟨j, hperm, hbound⟩ := exists_perm_readDirectory bucket hanswer (readDirPrefix dirname)
    maxRead
  have harray := perm_dirArray hperm
  rw [dirArray_readXmlDirectory] at harray
  have hfilter := filter_take_eq_of_readsAll hall hbound
  have hpre : directoryPrefix (cachedName dirname) = listPrefix (readDirPrefix dirname) := rfl
  rw [hpre] at hfilter
  rw [entries, hpre, ← hfilter]
  exact harray

/-! ### The invariant -/

/-- Every cached listing is right. -/
abbrev Coherent (bucket : List Bytes) (cache : DirectoryCache) : Prop :=
  EveryListing (fun entry => Shows bucket entry.dirname entry.contents entry.size) cache

/-- Only an empty directory has no more than two names. -/
theorem Shows.le_two_iff {bucket : List Bytes} {dirname : Bytes} {nameArray : List Bytes}
    {nFiles : ℤ} (h : Shows bucket dirname nameArray nFiles) :
    nFiles ≤ 2 ↔ entries bucket dirname = [] := by
  rw [h.1, h.2.length_eq, List.length_cons, List.length_cons, ← List.length_eq_zero_iff]
  omega

theorem Shows.congr {bucket bucket' : List Bytes} {dirname : Bytes} {nameArray : List Bytes}
    {nFiles : ℤ} (h : Shows bucket dirname nameArray nFiles)
    (hentries : (entries bucket' dirname).Perm (entries bucket dirname)) :
    Shows bucket' dirname nameArray nFiles :=
  ⟨h.1, h.2.trans ((hentries.symm.cons _).cons _)⟩

namespace Coherent

variable {bucket bucket' : List Bytes} {cache : DirectoryCache}

/-- **A call of `S3ReadDir`** returns what is right, and what it puts into the cache is right. -/
theorem readDir (h : Coherent bucket cache) {answer : ListAnswer} {dirname : Bytes} {maxRead : ℤ}
    (hanswer : submitStatus answer.httpStatus = 0)
    (hall : cachedName dirname ∉ cache.dirnames →
      answer.readable = true ∧ ReadsAll bucket (cachedName dirname) maxRead) :
    (s3ReadDir bucket cache answer dirname maxRead).status = 0 ∧
      Shows bucket (cachedName dirname) (s3ReadDir bucket cache answer dirname maxRead).nameArray
        (s3ReadDir bucket cache answer dirname maxRead).nFiles ∧
      Coherent bucket (s3ReadDir bucket cache answer dirname maxRead).cache := by
  have hlisted : cachedName dirname ∉ cache.dirnames → listStatus answer = 0 := by
    intro hnew
    rw [listStatus, if_pos hanswer, if_pos (hall hnew).1]
  have hcache : Coherent bucket (s3ReadDir bucket cache answer dirname maxRead).cache :=
    h.read fun hnew => shows_newListing (hlisted hnew) (hall hnew).2
  rcases s3ReadDir_cases bucket cache answer dirname maxRead with
    ⟨entry, hentry, hname, hread⟩ | ⟨hnot, hread⟩
  · refine ⟨by rw [hread], ?_, hcache⟩
    rw [hread, ← hname]
    exact h.listing entry hentry
  · refine ⟨by rw [hread]; exact hlisted hnot, ?_, hcache⟩
    rw [hread]
    exact shows_newListing (hlisted hnot) (hall hnot).2

/-- **A change** of the bucket, with one invalidation. -/
theorem change (h : Coherent bucket cache) {dirname : Bytes}
    (hentries : ∀ d ∈ cache.dirnames, d ≠ dirname →
      (entries bucket' d).Perm (entries bucket d)) :
    Coherent bucket' (cache.invalidateDirectoryCacheElement dirname) :=
  h.invalidate dirname fun entry hentry hne hshows =>
    hshows.congr (hentries _ (mem_dirnames_iff.2 ⟨entry, hentry, rfl⟩) hne)

end Coherent

/-- The directories in the cache after a read. -/
theorem dirnames_s3ReadDir_subset {bucket : List Bytes} {cache : DirectoryCache} (hne : cache ≠ [])
    (answer : ListAnswer) (dirname : Bytes) (maxRead : ℤ) :
    (s3ReadDir bucket cache answer dirname maxRead).cache.dirnames ⊆
      dirnamesAfterRead cache (cachedName dirname) := by
  rcases s3ReadDir_cases bucket cache answer dirname maxRead with
    ⟨entry, hentry, hname, hread⟩ | ⟨hnot, hread⟩
  · intro d hd
    rw [hread] at hd
    rw [dirnamesAfterRead, if_pos (by simpa using mem_dirnames_iff.2 ⟨entry, hentry, hname⟩)]
    obtain ⟨found, hfound, rfl⟩ := mem_dirnames_iff.1 hd
    have hafter : some found ∈ dirStep cache (.lookup (cachedName dirname)) := hfound
    rcases mem_dirStep hne hafter with hold | ⟨hcall, -⟩
    · exact mem_dirnames_iff.2 ⟨found, hold, rfl⟩
    · cases hcall
  · rw [hread, dirnamesAfterRead, if_neg (by simpa using hnot)]
    rcases insert_cases hne (cachedName dirname)
        (newListing bucket answer dirname maxRead).size
        (newListing bucket answer dirname maxRead).contents with
      ⟨-, hinsert⟩ | ⟨a, entry, b, hcache, hname, -, -⟩
    · intro d hd
      have hafter : d ∈ dirnames (cache.insertInDirectoryCache (cachedName dirname)
        (newListing bucket answer dirname maxRead).size
        (newListing bucket answer dirname maxRead).contents) := hd
      rwa [hinsert] at hafter
    · exact absurd (mem_dirnames_iff.2 ⟨entry, by simp [hcache], hname⟩) hnot

/-! ### One call -/

section Calls

variable {keyOf : Bytes → Bytes} {s : ListingState}

/-- A PUT request that succeeds. -/
theorem perm_entries_putObject (answer : WriteAnswer) {filename d : Bytes}
    (h : ¬ AddsEntry s.bucket d (keyOf filename)) :
    (entries (s.putObject keyOf answer filename) d).Perm (entries s.bucket d) := by
  rw [ListingState.putObject]
  split
  · exact perm_entries_put h
  · exact .refl _

theorem perm_entries_deleteObject (answer : WriteAnswer) {filename d : Bytes}
    (h : ¬ RemovesEntry s.bucket d (keyOf filename)) :
    (entries (s.deleteObject keyOf answer filename) d).Perm (entries s.bucket d) := by
  rw [ListingState.deleteObject]
  split
  · exact perm_entries_delete h
  · exact .refl _

theorem deleteObject_of_eq_zero {answer : WriteAnswer}
    (h : submitStatus answer.httpStatus = 0) (filename : Bytes) :
    s.deleteObject keyOf answer filename = delete s.bucket (keyOf filename) :=
  if_pos (by simp [WriteAnswer.takesEffect, h])

/-- **`S3Rmdir` with an empty directory**: between its requests only the listing of the parent
directory may be wrong. -/
theorem Coherent.removeDirectory (h : Coherent s.bucket s.cache) {w : RmdirWorld}
    {dirname secret : Bytes}
    (hsecret : cleanPath (ListingState.secretFile (cleanPath dirname)) = secret)
    (hunlinked : submitStatus w.unlinked.httpStatus = 0)
    (hdeleted : submitStatus w.deleted.httpStatus = 0)
    (hentries : ∀ d ∈ s.cache.dirnames, d ≠ getParentDir secret → d ≠ getParentDir dirname →
      ¬ RemovesEntry s.bucket d (keyOf secret) ∧
        ¬ RemovesEntry (delete s.bucket (keyOf secret)) d (keyOf (cleanPath dirname))) :
    Coherent (s.removeDirectory keyOf w dirname).state.bucket
      (s.removeDirectory keyOf w dirname).state.cache := by
  have hstatus :
      (s.s3Unlink keyOf w.unlinked (ListingState.secretFile (cleanPath dirname))).1 = 0 := hunlinked
  have hfirst : (s.s3Unlink keyOf w.unlinked
      (ListingState.secretFile (cleanPath dirname))).2.bucket = delete s.bucket (keyOf secret) := by
    rw [← hsecret]
    exact deleteObject_of_eq_zero hunlinked _
  have hbetween : EveryListing (fun entry => entry.dirname = getParentDir dirname ∨
      Shows (delete (delete s.bucket (keyOf secret)) (keyOf (cleanPath dirname)))
        entry.dirname entry.contents entry.size)
      (s.s3Unlink keyOf w.unlinked (ListingState.secretFile (cleanPath dirname))).2.cache := by
    refine h.invalidate _ fun entry hentry hne hshows => ?_
    rw [hsecret] at hne
    by_cases hparent : entry.dirname = getParentDir dirname
    · exact .inl hparent
    · obtain ⟨hkept, hkept'⟩ :=
        hentries _ (mem_dirnames_iff.2 ⟨entry, hentry, rfl⟩) hne hparent
      exact .inr (hshows.congr ((perm_entries_delete hkept').trans (perm_entries_delete hkept)))
  rw [ListingState.removeDirectory, if_pos hstatus]
  simp only [deleteObject_of_eq_zero hdeleted, hfirst]
  exact hbetween.invalidate _ fun entry _ hne hshows => hshows.resolve_left hne

/-- **One call** keeps every cached listing right, and returns one that is right. -/
theorem Coherent.after (h : Coherent s.bucket s.cache) {op : DirectoryOp} (hsucceeds : op.Succeeds)
    (hkeeps : KeepsListings keyOf s op) :
    Coherent (s.after keyOf op).bucket (s.after keyOf op).cache ∧ ReadsEntries keyOf s op := by
  cases op with
  | readDir answer dirname maxRead =>
      obtain ⟨hstatus, hshows, hcache⟩ := h.readDir hsucceeds hkeeps
      exact ⟨hcache, fun _ => ⟨hstatus, hshows⟩⟩
  | mkdir w done dirname mode =>
      refine ⟨h.change fun d hd hne => ?_, trivial⟩
      exact perm_entries_putObject ⟨w.put, done⟩ (hkeeps d hd hne)
  | unlink answer filename =>
      refine ⟨h.change fun d hd hne => ?_, trivial⟩
      exact perm_entries_deleteObject answer (hkeeps d hd hne)
  | createLink w done linkname path =>
      refine ⟨h.change fun d hd hne => ?_, trivial⟩
      exact perm_entries_putObject ⟨w.put, done⟩ (hkeeps d hd hne)
  | rmdir w dirname =>
      obtain ⟨hfrees, hkeeps⟩ := hkeeps
      refine ⟨?_, isSome_status_of_freesWhatIsSet keyOf hfrees⟩
      obtain ⟨hlisted, hunlinked, hdeleted⟩ := hsucceeds
      rcases s3Rmdir_cases keyOf s w dirname with ⟨-, status, -, hrmdir⟩ | ⟨hdirectory, hrmdir⟩
      · rw [ListingState.after, hrmdir]
        exact h
      · obtain ⟨hall, hentries⟩ := hkeeps hdirectory
        obtain ⟨hstatus, hshows, hcache⟩ := h.readDir hlisted hall
        rw [ListingState.after, hrmdir]
        split
        · rename_i hempty
          rw [isDirectoryEmpty, Bool.and_eq_true, decide_eq_true_iff, decide_eq_true_iff] at hempty
          refine Coherent.removeDirectory (s := ⟨s.bucket, _, _⟩) hcache rfl hunlinked hdeleted
            fun d hd => hentries (hshows.le_two_iff.1 hempty.2) d ?_
          exact dirnames_s3ReadDir_subset h.ne_nil w.listed (cleanPath dirname) 4 hd
        · exact hcache

end Calls

/-! ### Runs -/

/-- **When every call for a whole directory returns what it contains.** -/
theorem readsEntries_of_keepsListings (keyOf : Bytes → Bytes) (bucket : List Bytes)
    (ops : List DirectoryOp) (hsucceeds : ∀ op ∈ ops, op.Succeeds)
    (hkeeps : Runs.Along (ListingState.step keyOf) (fun s op _ => KeepsListings keyOf s op)
      (ListingState.start bucket) ops) :
    Runs.Along (ListingState.step keyOf) (fun s op _ => ReadsEntries keyOf s op)
      (ListingState.start bucket) ops := by
  have hcoherent : Coherent (ListingState.start bucket).bucket (ListingState.start bucket).cache :=
    .empty
  have hall : Runs.Along (ListingState.step keyOf) (fun _ op _ => op ∈ ops)
      (ListingState.start bucket) ops := Runs.along_of_forall fun op hop _ _ => hop
  have hstep : ∀ (s : ListingState) (op : DirectoryOp) (s' : ListingState),
      Coherent s.bucket s.cache → op ∈ ops ∧ KeepsListings keyOf s op →
        ListingState.step keyOf s op = some s' →
          Coherent s'.bucket s'.cache ∧ ReadsEntries keyOf s op := by
    rintro s op s' h ⟨hop, hop'⟩ hstep
    obtain rfl := Option.some.inj hstep
    exact h.after (hsucceeds op hop) hop'
  exact Runs.along_of_inv hstep hcoherent (hall.and hkeeps)

instance decidableSucceeds : ∀ op : DirectoryOp, Decidable op.Succeeds
  | .readDir _ _ _ => inferInstanceAs (Decidable (_ = _))
  | .mkdir _ _ _ _ => inferInstanceAs (Decidable (_ = _))
  | .unlink _ _ => inferInstanceAs (Decidable (_ = _))
  | .rmdir _ _ => inferInstanceAs (Decidable (_ ∧ _ ∧ _))
  | .createLink _ _ _ _ => inferInstanceAs (Decidable (_ = _))

instance (bucket : List Bytes) (dirname : Bytes) (nameArray : List Bytes) (nFiles : ℤ) :
    Decidable (Shows bucket dirname nameArray nFiles) :=
  inferInstanceAs (Decidable (_ ∧ _))

instance decidableReadsEntries (keyOf : Bytes → Bytes) (s : ListingState) :
    ∀ op, Decidable (ReadsEntries keyOf s op)
  | .readDir _ _ _ => inferInstanceAs (Decidable (_ → _ ∧ _))
  | .mkdir _ _ _ _ => isTrue trivial
  | .unlink _ _ => isTrue trivial
  | .rmdir _ _ => inferInstanceAs (Decidable (_ = _))
  | .createLink _ _ _ _ => isTrue trivial

instance (bucket : List Bytes) (dirname : Bytes) (maxRead : ℤ) :
    Decidable (ReadsAll bucket dirname maxRead) :=
  inferInstanceAs (Decidable (∀ name ∈ _, _))

instance (s : ListingState) (answer : ListAnswer) (dirname : Bytes) (maxRead : ℤ) :
    Decidable (ReadsAllIfNew s answer dirname maxRead) :=
  inferInstanceAs (Decidable (_ → _ ∧ _))

instance decidableKeepsListings (keyOf : Bytes → Bytes) (s : ListingState) :
    ∀ op, Decidable (KeepsListings keyOf s op)
  | .readDir _ _ _ => inferInstanceAs (Decidable (ReadsAllIfNew _ _ _ _))
  | .mkdir _ _ _ _ => inferInstanceAs (Decidable (∀ d ∈ _, _ → _))
  | .unlink _ _ => inferInstanceAs (Decidable (∀ d ∈ _, _ → _))
  | .rmdir _ _ =>
      inferInstanceAs (Decidable (FreesWhatIsSet _ _ _ ∧ (_ → _ ∧ (_ → ∀ d ∈ _, _ → _ → _ ∧ _))))
  | .createLink _ _ _ _ => inferInstanceAs (Decidable (∀ d ∈ _, _ → _))

/-- A PUT request to a bucket that answers all requests. -/
def openBucketPut : UpdateWorld :=
  { openBucket.toStatWorld with now := 1340100246, put := some 200 }

/-- A directory is created and removed, and a file is removed. -/
def coherentRun : List DirectoryOp :=
  [.readDir ⟨some 200, true⟩ (ascii "/d") (-1),
    .mkdir openBucketPut true (ascii "/d/e") 493,
    .readDir ⟨some 200, true⟩ (ascii "/d") (-1),
    .rmdir openBucket (ascii "/d/e"),
    .readDir ⟨some 200, true⟩ (ascii "/d") (-1),
    .unlink ⟨some 204, true⟩ (ascii "/d/old"),
    .readDir ⟨some 200, true⟩ (ascii "/d") (-1)]

theorem readsEntries_coherentRun :
    Runs.Along (ListingState.step keyOfPath) (fun s op _ => ReadsEntries keyOfPath s op)
      (ListingState.start [ascii "d" ++ isS3DirectoryFile, ascii "d/old"]) coherentRun :=
  readsEntries_of_keepsListings keyOfPath _ coherentRun (by decide +kernel) (by decide +kernel)

/-- A link into a directory that has been read, to a target somewhere else. -/
def linkRun : List DirectoryOp :=
  [.readDir ⟨some 200, true⟩ (ascii "/d") (-1),
    .createLink openBucketPut true (ascii "/d/link") (ascii "/target"),
    .readDir ⟨some 200, true⟩ (ascii "/d") (-1)]

/-- A directory with many files that is not removed. -/
def rmdirRun : List DirectoryOp :=
  [.rmdir openBucket (ascii "/d"), .readDir ⟨some 200, true⟩ (ascii "/d") (-1)]

/-- A directory whose listing comes in pieces. -/
def piecesRun : List DirectoryOp := [.readDir ⟨some 200, false⟩ (ascii "/d") (-1)]

/-- A directory that is not removed, with anything in `response`. -/
def unsetRun : List DirectoryOp := [.rmdir { openBucket with response := 1 } (ascii "/d")]

/-- A bucket with more files in a directory than the test for emptiness reads. -/
def manyFiles : List Bytes :=
  (ascii "d" ++ isS3DirectoryFile) :: (ascii "12345678").map fun ch => ascii "d/" ++ [ch]

/-- The new link is not listed, and neither are the files that the test for emptiness did not read;
a listing that comes in pieces has no entries, and a directory that is not removed makes `S3Rmdir`
free what it has not set. -/
theorem not_readsEntries :
    ((∀ op ∈ linkRun, op.Succeeds) ∧
        ¬ Runs.Along (ListingState.step keyOfPath) (fun s op _ => ReadsEntries keyOfPath s op)
          (ListingState.start [ascii "d/old"]) linkRun) ∧
      ((∀ op ∈ rmdirRun, op.Succeeds) ∧
        ¬ Runs.Along (ListingState.step keyOfPath) (fun s op _ => ReadsEntries keyOfPath s op)
          (ListingState.start manyFiles) rmdirRun) ∧
      ((∀ op ∈ piecesRun, op.Succeeds) ∧
        ¬ Runs.Along (ListingState.step keyOfPath) (fun s op _ => ReadsEntries keyOfPath s op)
          (ListingState.start [ascii "d/old"]) piecesRun) ∧
      (∀ op ∈ unsetRun, op.Succeeds) ∧
        ¬ Runs.Along (ListingState.step keyOfPath) (fun s op _ => ReadsEntries keyOfPath s op)
          (ListingState.start manyFiles) unsetRun := by
  decide +kernel

end AwsS3fs
