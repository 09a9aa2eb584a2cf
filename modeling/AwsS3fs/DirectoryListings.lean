/-
**Listings of directories.**

`S3ReadDir` (`s3if.c`) lists the objects of a directory page by page and puts the names into the
cache of directories, where the next call finds them.  `S3Mkdir`, `S3Unlink`, `S3Rmdir` and
`S3CreateLink` send requests that change the bucket, and each of them invalidates the listing of one
directory for every such request.  `S3Rmdir` deletes only an empty directory, and reads the listing
to find out; at its end it frees the response to its last request, which it has not set if it has
not come so far.

What S3 does with a request is part of a step: the answer that comes back, and whether a request
without a good answer has been carried out all the same.  Which object a request is for is said by
a function from the path in its URL to a key.

Main definitions:

* `AwsS3fs.s3ReadDir` — the function of `s3if.c`, with `AwsS3fs.readPages` as its loop;
* `AwsS3fs.ListingState`, `AwsS3fs.ListingState.s3Mkdir`, `AwsS3fs.ListingState.s3Unlink`,
  `AwsS3fs.ListingState.s3CreateLink`, `AwsS3fs.ListingState.s3Rmdir` — what the functions of
  `s3if.c` do to the bucket and the caches;
* `AwsS3fs.DirectoryOp`, `AwsS3fs.ListingState.step` — a system of these calls;
* `AwsS3fs.entries` — what a directory contains;
* `AwsS3fs.FreesWhatIsSet` — `S3Rmdir` frees no pointer that it has not set;
* `AwsS3fs.EveryListing` — what holds of every listing in the cache.

Main results:

* `AwsS3fs.exists_perm_readPages` — **what the loop reads**: the first names, up to the last one or
  to the limit;
* `AwsS3fs.s3ReadDir_cases`, `AwsS3fs.s3Rmdir_cases` — one call of `S3ReadDir` or `S3Rmdir`;
* `AwsS3fs.isSome_status_of_freesWhatIsSet` — when `S3Rmdir` returns;
* `AwsS3fs.EveryListing.read`, `AwsS3fs.EveryListing.invalidate` — how an invariant of the listings
  survives a call.
-/

import AwsS3fs.DirectoryCache
import AwsS3fs.Lib.Allocations
import AwsS3fs.Lib.ObjectStore
import AwsS3fs.MetadataUpdates

set_option relaxedAutoImplicit false
set_option autoImplicit false

namespace AwsS3fs

open CLib StatCache DirectoryCache ObjectStore Allocations

/-! ### Reading a directory -/

/-- What comes back from a GET request for a listing, and whether it can be read as XML, which it
cannot if `CurlWriteData` receives it in pieces, since it puts a null character behind each. -/
structure ListAnswer where
  httpStatus : Option ℕ
  readable : Bool
  deriving DecidableEq, Repr

/-- The status of a request for a listing in `S3ReadDir`. -/
def listStatus (answer : ListAnswer) : ℤ :=
  if submitStatus answer.httpStatus = 0 then if answer.readable then 0 else eio
  else submitStatus answer.httpStatus

/-- The order in which S3 lists keys. -/
def keyOrder (a b : Bytes) : Prop := a ≤ b

instance : DecidableRel keyOrder := fun a b => inferInstanceAs (Decidable (a ≤ b))

instance : Std.Total keyOrder := inferInstanceAs (Std.Total fun a b : Bytes => a ≤ b)

instance : IsTrans Bytes keyOrder := inferInstanceAs (IsTrans Bytes fun a b => a ≤ b)

instance : Std.Antisymm keyOrder := inferInstanceAs (Std.Antisymm fun a b : Bytes => a ≤ b)

/-- A prefix comes first. -/
theorem prefix_keyOrder {pre : Bytes} : ∀ name, pre <+: name → keyOrder pre name := by
  rintro _ ⟨rest, rfl⟩
  exact List.le_append_left

/-- The names that S3 lists for a prefix, with `/` as the delimiter. -/
abbrev listedNames (bucket : List Bytes) (pre : Bytes) : List Bytes :=
  listObjects 47 keyOrder bucket pre

/-- The name without `/` of the file in a directory by which it is recognised. -/
def secretName : Bytes := isS3DirectoryFile.drop 1

/-- The `prefix` that `S3ReadDir` sends; at the root it sends none. -/
def listPrefix (pre : Bytes) : Bytes := if pre = [] then [] else pre ++ [47]

/-- `max-keys`; without it, and at most, a page has a thousand names. -/
def pageSize (maxRead : ℤ) : ℕ := if maxRead = -1 then 1000 else min maxRead.toNat 1000

/-- `fileLimit`. -/
def fileLimit (maxRead : ℤ) : ℤ := if maxRead = -1 then 999999 else maxRead

/-- The contents of the nodes `Prefix` and `Key` of a response, in their order. -/
def nodeValues (pre : Bytes) (page : Page UInt8) : List Bytes :=
  pre :: page.keys ++ page.commonPrefixes

/-- `ReadXmlDirectory`: the entries that it appends. -/
def readXmlDirectory (prefixLength : ℕ) (nodeValues : List Bytes) : List Bytes :=
  (nodeValues.map (·.drop prefixLength)).filter (· ≠ [])

/-- The loop of `S3ReadDir`.  A request for a page that fails is repeated, unless it is the first
one. -/
def readPages (bucket : List Bytes) (pre : Bytes) (maxKeys : ℕ) (limit : ℤ) :
    ℕ → Option Bytes → List Bytes → List Bytes
  | 0, _, directory => directory
  | fuel + 1, fromFile, directory =>
      let page := listPage 47 keyOrder bucket pre fromFile maxKeys
      let directory := directory ++ readXmlDirectory pre.length (nodeValues pre page)
      if page.nextMarker.isSome ∧ (directory.length : ℤ) ≤ limit then
        readPages bucket pre maxKeys limit fuel page.nextMarker directory
      else directory

/-- `dirArray` of `S3ReadDir`. -/
def dirArray (directory : List Bytes) : List Bytes :=
  ascii "." :: ascii ".." :: (directory.map stripTrailingSlash).filter (· ≠ secretName)

/-- `fileCounter` after the loop that fills `dirArray`. -/
def fileCounter (directory : List Bytes) : ℤ :=
  directory.length + 2 - (directory.map stripTrailingSlash).count secretName

/-- What `S3ReadDir` returns and stores, and the cache afterwards. -/
structure ReadDirResult where
  status : ℤ
  nameArray : List Bytes
  nFiles : ℤ
  cache : DirectoryCache

/-- `prefix` of `S3ReadDir`. -/
def readDirPrefix (dirname : Bytes) : Bytes := stripTrailingSlash (dirname.dropWhile (· == 47))

/-- The list `directory` of `S3ReadDir`. -/
def readDirectory (bucket : List Bytes) (answer : ListAnswer) (pre : Bytes) (maxRead : ℤ) :
    List Bytes :=
  if listStatus answer = 0 then
    readPages bucket (listPrefix pre) (pageSize maxRead) (fileLimit maxRead) (bucket.length + 1)
      none []
  else []

/-- `S3ReadDir`; `answer` is that to the first request of the loop. -/
def s3ReadDir (bucket : List Bytes) (cache : DirectoryCache) (answer : ListAnswer)
    (dirname : Bytes) (maxRead : ℤ) : ReadDirResult :=
  let pre := readDirPrefix dirname
  let parentDir := 47 :: pre
  match cache.lookupInDirectoryCache parentDir with
  | (some entry, cache) => ⟨0, entry.contents, entry.size, cache⟩
  | (none, cache) =>
      let directory := readDirectory bucket answer pre maxRead
      { status := listStatus answer
        nameArray := dirArray directory
        nFiles := fileCounter directory
        cache := cache.insertInDirectoryCache parentDir (fileCounter directory)
          (dirArray directory) }

/-- `IsDirectoryEmpty`, with what `S3ReadDir` returned. -/
def isDirectoryEmpty (read : ReadDirResult) : Bool := read.status = 0 && read.nFiles ≤ 2

/-! ### Changing directories -/

/-- The status of HTTP for a PUT or a DELETE request unless `curl` fails, and whether S3 carries out
a request that has no good answer. -/
structure WriteAnswer where
  httpStatus : Option ℕ
  done : Bool
  deriving DecidableEq, Repr

/-- S3 carries out the request. -/
def WriteAnswer.takesEffect (answer : WriteAnswer) : Bool :=
  submitStatus answer.httpStatus = 0 || answer.done

/-- The keys of the objects in the bucket, and the two caches of `s3if.c`. -/
structure ListingState where
  bucket : List Bytes
  cache : DirectoryCache
  stats : StatCache FileData

/-- What a call of `S3Rmdir` meets, and what its variable `response` holds before it is set. -/
structure RmdirWorld extends StatWorld where
  listed : ListAnswer
  unlinked : WriteAnswer
  deleted : WriteAnswer
  response : UInt64

/-- What `S3Rmdir` returns, unless it frees a pointer that it has not set, the state at that moment,
and the paths of its DELETE requests, each with the bucket before it. -/
structure RmdirResult where
  status : Option ℤ
  state : ListingState
  deletes : List (Bytes × List Bytes)

/-- The end of `S3Rmdir` if it has not sent its last request. -/
def RmdirWorld.giveUp (w : RmdirWorld) (status : ℤ) : Option ℤ :=
  (freeUnset w.response).map fun _ => status

/-- `-ENOTEMPTY`. -/
def enotempty : ℤ := -39

theorem enotempty_ne_zero : enotempty ≠ 0 := by decide

/-- `-ENOTDIR`. -/
def enotdir : ℤ := -20

/-- `S3FileStat` finds a directory. -/
def statsDirectory (w : StatWorld) (stats : StatCache FileData) (file : Bytes) : Bool :=
  match (s3FileStat maxStatCacheSize w stats file).1 with
  | .ok fi => fi.any (·.fileType = 100)
  | .error _ => false

namespace ListingState

variable (keyOf : Bytes → Bytes) (s : ListingState)

/-- Empty caches. -/
def start (bucket : List Bytes) : ListingState := ⟨bucket, initializeDirectoryCache, []⟩

/-- The bucket after a PUT request. -/
def putObject (answer : WriteAnswer) (filename : Bytes) : List Bytes :=
  if answer.takesEffect then put s.bucket (keyOf filename) else s.bucket

/-- The bucket after a DELETE request. -/
def deleteObject (answer : WriteAnswer) (filename : Bytes) : List Bytes :=
  if answer.takesEffect then delete s.bucket (keyOf filename) else s.bucket

/-- `S3Mkdir`. -/
def s3Mkdir (w : UpdateWorld) (done : Bool) (dirname : Bytes) (mode : UInt32) :
    ℤ × ListingState :=
  let cleanName := cleanPath dirname
  let updated := AwsS3fs.s3Mkdir w s.stats dirname mode
  (updated.1,
    { bucket := s.putObject keyOf ⟨w.put, done⟩ (cleanName ++ isS3DirectoryFile)
      cache := s.cache.invalidateDirectoryCacheElement (getParentDir cleanName)
      stats := updated.2 })

/-- `S3CreateLink`, which takes the directory of the target. -/
def s3CreateLink (w : UpdateWorld) (done : Bool) (linkname path : Bytes) : ℤ × ListingState :=
  let updated := AwsS3fs.s3CreateLink w s.stats linkname path
  (updated.1,
    { bucket := s.putObject keyOf ⟨w.put, done⟩ linkname
      cache := s.cache.invalidateDirectoryCacheElement (getParentDir path)
      stats := updated.2 })

/-- `S3Unlink`. -/
def s3Unlink (answer : WriteAnswer) (filename : Bytes) : ℤ × ListingState :=
  let cleanName := cleanPath filename
  (submitStatus answer.httpStatus,
    { bucket := s.deleteObject keyOf answer cleanName
      cache := s.cache.invalidateDirectoryCacheElement (getParentDir cleanName)
      stats := s.stats.deleteStatEntry cleanName })

/-- The path of the file that `S3Rmdir` deletes first. -/
def secretFile (cleanName : Bytes) : Bytes := cleanName ++ [47] ++ isS3DirectoryFile

/-- `S3Rmdir` after it has found the directory to be empty. -/
def removeDirectory (w : RmdirWorld) (dirname : Bytes) : RmdirResult :=
  let cleanName := cleanPath dirname
  let unlinked := s.s3Unlink keyOf w.unlinked (secretFile cleanName)
  let sent := [(cleanPath (secretFile cleanName), s.bucket)]
  if unlinked.1 = 0 then
    { status := some (submitStatus w.deleted.httpStatus)
      state :=
        { bucket := unlinked.2.deleteObject keyOf w.deleted cleanName
          cache := unlinked.2.cache.invalidateDirectoryCacheElement (getParentDir dirname)
          stats := unlinked.2.stats.deleteStatEntry cleanName }
      deletes := sent ++ [(cleanName, unlinked.2.bucket)] }
  else ⟨w.giveUp eacces, unlinked.2, sent⟩

/-- `S3Rmdir`. -/
def s3Rmdir (w : RmdirWorld) (dirname : Bytes) : RmdirResult :=
  let cleanName := cleanPath dirname
  match s3FileStat maxStatCacheSize w.toStatWorld s.stats cleanName with
  | (.error status, stats) => ⟨w.giveUp status, { s with stats := stats }, []⟩
  | (.ok fi, stats) =>
      if fi.any (·.fileType = 100) then
        let read := s3ReadDir s.bucket s.cache w.listed cleanName 4
        let s := { s with cache := read.cache, stats := stats }
        if isDirectoryEmpty read then s.removeDirectory keyOf w dirname
        else ⟨w.giveUp enotempty, s, []⟩
      else ⟨w.giveUp enotdir, { s with stats := stats }, []⟩

end ListingState

/-! ### The system -/

/-- A call, with what it meets. -/
inductive DirectoryOp
  | readDir (answer : ListAnswer) (dirname : Bytes) (maxRead : ℤ)
  | mkdir (w : UpdateWorld) (done : Bool) (dirname : Bytes) (mode : UInt32)
  | unlink (answer : WriteAnswer) (filename : Bytes)
  | rmdir (w : RmdirWorld) (dirname : Bytes)
  | createLink (w : UpdateWorld) (done : Bool) (linkname path : Bytes)

/-- The state after a call. -/
def ListingState.after (keyOf : Bytes → Bytes) (s : ListingState) : DirectoryOp → ListingState
  | .readDir answer dirname maxRead =>
      { s with cache := (s3ReadDir s.bucket s.cache answer dirname maxRead).cache }
  | .mkdir w done dirname mode => (s.s3Mkdir keyOf w done dirname mode).2
  | .unlink answer filename => (s.s3Unlink keyOf answer filename).2
  | .rmdir w dirname => (s.s3Rmdir keyOf w dirname).state
  | .createLink w done linkname path => (s.s3CreateLink keyOf w done linkname path).2

/-- Every call is possible. -/
def ListingState.step (keyOf : Bytes → Bytes) (s : ListingState) (op : DirectoryOp) :
    Option ListingState :=
  some (s.after keyOf op)

/-! ### What a directory contains -/

/-- The entry that a name in a listing stands for. -/
def entryName (pre name : Bytes) : Bytes := stripTrailingSlash (name.drop pre.length)

/-- A name that is an entry of the directory: it is neither the directory itself nor its secret
file. -/
def isEntry (pre name : Bytes) : Bool :=
  name.drop pre.length ≠ [] && entryName pre name ≠ secretName

/-- The prefix of the objects in a directory. -/
def directoryPrefix (dirname : Bytes) : Bytes := listPrefix (dirname.drop 1)

/-- **What a directory contains** in a bucket. -/
def entries (bucket : List Bytes) (dirname : Bytes) : List Bytes :=
  let pre := directoryPrefix dirname
  ((listedNames bucket pre).filter (isEntry pre)).map (entryName pre)

theorem entries_eq_nil_iff {bucket : List Bytes} {dirname : Bytes} :
    entries bucket dirname = [] ↔ ∀ name ∈ listedNames bucket (directoryPrefix dirname),
      isEntry (directoryPrefix dirname) name = false := by
  simp [entries, List.filter_eq_nil_iff]

/-- A new object adds an entry to a directory. -/
def AddsEntry (bucket : List Bytes) (dirname key : Bytes) : Prop :=
  Adds 47 bucket (directoryPrefix dirname) key ∧
    isEntry (directoryPrefix dirname) (listName 47 (directoryPrefix dirname) key) = true

/-- The deletion of an object removes an entry from a directory. -/
def RemovesEntry (bucket : List Bytes) (dirname key : Bytes) : Prop :=
  Removes 47 bucket (directoryPrefix dirname) key ∧
    isEntry (directoryPrefix dirname) (listName 47 (directoryPrefix dirname) key) = true

instance {bucket : List Bytes} {dirname key : Bytes} : Decidable (AddsEntry bucket dirname key) :=
  inferInstanceAs (Decidable (_ ∧ _))

instance {bucket : List Bytes} {dirname key : Bytes} :
    Decidable (RemovesEntry bucket dirname key) :=
  inferInstanceAs (Decidable (_ ∧ _))

/-- A PUT request that adds no entry leaves those that there are. -/
theorem perm_entries_put {bucket : List Bytes} {dirname key : Bytes}
    (h : ¬ AddsEntry bucket dirname key) :
    (entries (put bucket key) dirname).Perm (entries bucket dirname) := by
  refine (perm_filter_put fun hadds => ?_).map _
  exact Bool.eq_false_iff.2 fun hentry => h ⟨hadds, hentry⟩

/-- A DELETE request that removes no entry leaves those that there are. -/
theorem perm_entries_delete {bucket : List Bytes} {dirname key : Bytes}
    (h : ¬ RemovesEntry bucket dirname key) :
    (entries (delete bucket key) dirname).Perm (entries bucket dirname) := by
  refine (perm_filter_delete fun hremoves => ?_).map _
  exact Bool.eq_false_iff.2 fun hentry => h ⟨hremoves, hentry⟩

/-! ### What is read -/

section Read

variable {bucket : List Bytes} {pre : Bytes} {names : List Bytes}

theorem readXmlDirectory_append (prefixLength : ℕ) (a b : List Bytes) :
    readXmlDirectory prefixLength (a ++ b) =
      readXmlDirectory prefixLength a ++ readXmlDirectory prefixLength b := by
  rw [readXmlDirectory, List.map_append, List.filter_append]
  rfl

theorem perm_readXmlDirectory (prefixLength : ℕ) {a b : List Bytes} (h : a.Perm b) :
    (readXmlDirectory prefixLength a).Perm (readXmlDirectory prefixLength b) :=
  (h.map _).filter _

/-- The prefix of the request is no entry. -/
theorem readXmlDirectory_nodeValues (pre : Bytes) (page : Page UInt8) :
    readXmlDirectory pre.length (nodeValues pre page) =
      readXmlDirectory pre.length (page.keys ++ page.commonPrefixes) := by
  simp [readXmlDirectory, nodeValues]

/-- Of the names in a listing, only the prefix itself is left out. -/
theorem length_readXmlDirectory (h : ∀ name ∈ names, pre <+: name) :
    (readXmlDirectory pre.length names).length + names.count pre = names.length := by
  induction names with
  | nil => rfl
  | cons name names ih =>
      have hnames := ih fun x hx => h x (List.mem_cons_of_mem _ hx)
      obtain ⟨rest, rfl⟩ := h name List.mem_cons_self
      rw [readXmlDirectory] at hnames ⊢
      cases rest with
      | nil =>
          simp only [List.append_nil, List.map_cons, List.drop_length, List.count_cons_self,
            List.length_cons]
          rw [List.filter_cons_of_neg (by simp)]
          omega
      | cons ch rest =>
          have hne : pre ++ ch :: rest ≠ pre := by simp
          rw [List.map_cons, List.drop_left, List.filter_cons_of_pos (by simp),
            List.count_cons_of_ne hne, List.length_cons, List.length_cons]
          omega

/-- One page: the next names, and the marker behind them if there are more. -/
theorem readPage_spec {k maxKeys : ℕ} {page : Page UInt8}
    (hpage : page =
      listPage 47 keyOrder bucket pre ((listedNames bucket pre).take k).getLast? maxKeys) :
    (readXmlDirectory pre.length (nodeValues pre page)).Perm
        (readXmlDirectory pre.length (((listedNames bucket pre).drop k).take maxKeys)) ∧
      (page.nextMarker.isSome → 0 < maxKeys ∧
        page.nextMarker = ((listedNames bucket pre).take (k + maxKeys)).getLast?) ∧
      (page.nextMarker.isSome = false → 0 < maxKeys →
        (listedNames bucket pre).length ≤ k + maxKeys) := by
  subst hpage
  refine ⟨?_, ?_⟩
  · rw [readXmlDirectory_nodeValues]
    exact perm_readXmlDirectory _ (perm_listPage bucket pre k maxKeys)
  · rcases Nat.eq_zero_or_pos maxKeys with rfl | hpos
    · refine ⟨fun h => ?_, fun _ hpos => absurd hpos (Nat.lt_irrefl 0)⟩
      simp [listPage] at h
    · have hnext : (listPage 47 keyOrder bucket pre
            ((listedNames bucket pre).take k).getLast? maxKeys).nextMarker =
          if (listedNames bucket pre).length ≤ k + maxKeys then none
          else ((listedNames bucket pre).take (k + maxKeys)).getLast? :=
        nextMarker_listPage bucket pre k hpos
      rw [hnext]
      split
      · rename_i hle
        exact ⟨fun h => (by cases h), fun _ _ => hle⟩
      · rename_i hlt
        refine ⟨fun _ => ⟨hpos, rfl⟩, fun h => ?_⟩
        rw [Option.isSome_eq_false_iff, Option.isNone_iff_eq_none, List.getLast?_eq_none_iff,
          List.take_eq_nil_iff] at h
        rcases h with hzero | hnil
        · omega
        · rw [hnil] at hlt
          exact absurd (Nat.zero_le _) hlt

/-- **What the loop reads**: the next names, up to the last one or in whole pages to the limit. -/
theorem exists_perm_readPages (bucket : List Bytes) (pre : Bytes) (maxKeys : ℕ) (limit : ℤ)
    (fuel k : ℕ) (directory : List Bytes)
    (hfuel : (listedNames bucket pre).length < k + fuel) :
    ∃ j, (readPages bucket pre maxKeys limit fuel
          ((listedNames bucket pre).take k).getLast? directory).Perm
        (directory ++ readXmlDirectory pre.length (((listedNames bucket pre).drop k).take j)) ∧
      (0 < maxKeys → (listedNames bucket pre).length ≤ k + j ∨ maxKeys ∣ j ∧ 0 < j ∧
        limit < (readPages bucket pre maxKeys limit fuel
          ((listedNames bucket pre).take k).getLast? directory).length) := by
  induction fuel generalizing k directory with
  | zero =>
      refine ⟨0, ?_, fun _ => .inl (by omega)⟩
      rw [readPages, List.take_zero]
      exact .of_eq (List.append_nil _).symm
  | succ fuel ih =>
      simp only [readPages]
      generalize hpage : listPage 47 keyOrder bucket pre
        ((listedNames bucket pre).take k).getLast? maxKeys = page
      obtain ⟨hread, hnext, hlast⟩ := readPage_spec hpage.symm
      have hfirst := hread.append_left directory
      by_cases hmore : page.nextMarker.isSome ∧
        ((directory ++ readXmlDirectory pre.length (nodeValues pre page)).length : ℤ) ≤ limit
      · rw [if_pos hmore]
        obtain ⟨hpos, hmarker⟩ := hnext hmore.1
        rw [hmarker]
        obtain ⟨j, hrest, hstop⟩ := ih (k + maxKeys)
          (directory ++ readXmlDirectory pre.length (nodeValues pre page)) (by omega)
        refine ⟨maxKeys + j, hrest.trans ?_, fun _ => ?_⟩
        · rw [List.take_add, readXmlDirectory_append, List.drop_drop, ← List.append_assoc]
          exact hfirst.append_right _
        · rcases hstop hpos with hall | ⟨hdvd, hj, hlimit⟩
          · exact .inl (by omega)
          · exact .inr ⟨Nat.dvd_add (Nat.dvd_refl maxKeys) hdvd, by omega, hlimit⟩
      · rw [if_neg hmore]
        refine ⟨maxKeys, hfirst, fun hpos => ?_⟩
        cases hsome : page.nextMarker.isSome with
        | false => exact .inl (hlast hsome hpos)
        | true => exact .inr ⟨Nat.dvd_refl maxKeys, hpos, by simpa [hsome] using hmore⟩

/-- How many names a read takes: after a page the loop goes on while it has not counted more than
the limit, and it does not count the object whose key is the prefix. -/
def readBound (names : List Bytes) (pre : Bytes) (maxRead : ℤ) : ℕ :=
  (((fileLimit maxRead).toNat + names.count pre) / pageSize maxRead + 1) * pageSize maxRead

/-- With names on a page, the limit is a number of names. -/
theorem fileLimit_nonneg {maxRead : ℤ} (h : 0 < pageSize maxRead) : 0 ≤ fileLimit maxRead := by
  rw [pageSize] at h
  rw [fileLimit]
  split
  · decide
  · rename_i hne
    rw [if_neg hne] at h
    omega

/-- The loop stops at the end or behind the bound. -/
theorem readBound_le_of_stop {bucket : List Bytes} {pre : Bytes} {maxRead : ℤ} {j : ℕ}
    (hstop : 0 < pageSize maxRead → (listedNames bucket pre).length ≤ j ∨
      pageSize maxRead ∣ j ∧ 0 < j ∧ fileLimit maxRead <
        (readXmlDirectory pre.length ((listedNames bucket pre).take j)).length) :
    (listedNames bucket pre).length ≤ j ∨ readBound (listedNames bucket pre) pre maxRead ≤ j := by
  rcases Nat.eq_zero_or_pos (pageSize maxRead) with hzero | hpos
  · rw [readBound, hzero, Nat.mul_zero]
    exact .inr (Nat.zero_le j)
  · refine or_iff_not_imp_left.2 fun hlt => ?_
    have hlimit := fileLimit_nonneg hpos
    obtain ⟨⟨pages, hpages⟩, hj, hmore⟩ := (hstop hpos).resolve_left hlt
    have hstarts : ∀ name ∈ (listedNames bucket pre).take j, pre <+: name :=
      fun name hname => prefix_of_mem_listObjects (List.mem_of_mem_take hname)
    have hcount := length_readXmlDirectory hstarts
    have hfirst : ((listedNames bucket pre).take j).count pre =
        (listedNames bucket pre).count pre :=
      count_take_listObjects prefix_keyOrder hj
    rw [hfirst, List.length_take, Nat.min_eq_left (by omega)] at hcount
    have hdiv : ((fileLimit maxRead).toNat + (listedNames bucket pre).count pre) /
        pageSize maxRead < pages := Nat.div_lt_of_lt_mul (by omega)
    rw [readBound, hpages, Nat.mul_comm (pageSize maxRead)]
    exact Nat.mul_le_mul_right _ hdiv

/-- **What is read of a directory**: the first names, up to the last one or to the bound. -/
theorem exists_perm_readDirectory (bucket : List Bytes) {answer : ListAnswer}
    (h : listStatus answer = 0) (pre : Bytes) (maxRead : ℤ) :
    let names := listedNames bucket (listPrefix pre)
    ∃ j, (readDirectory bucket answer pre maxRead).Perm
        (readXmlDirectory (listPrefix pre).length (names.take j)) ∧
      (names.length ≤ j ∨ readBound names (listPrefix pre) maxRead ≤ j) := by
  have hfuel : (listedNames bucket (listPrefix pre)).length < 0 + (bucket.length + 1) := by
    rw [Nat.zero_add]
    exact Nat.lt_succ_of_le length_listObjects_le
  obtain ⟨j, hperm, hstop⟩ := exists_perm_readPages bucket (listPrefix pre) (pageSize maxRead)
    (fileLimit maxRead) _ 0 [] hfuel
  rw [Nat.zero_add, hperm.length_eq] at hstop
  rw [readDirectory, if_pos h]
  exact ⟨j, hperm, readBound_le_of_stop hstop⟩

theorem perm_dirArray {a b : List Bytes} (h : a.Perm b) : (dirArray a).Perm (dirArray b) :=
  (((h.map _).filter _).cons _).cons _

/-- The array has the entries among the names. -/
theorem dirArray_readXmlDirectory (pre : Bytes) (names : List Bytes) :
    dirArray (readXmlDirectory pre.length names) =
      ascii "." :: ascii ".." :: (names.filter (isEntry pre)).map (entryName pre) := by
  rw [dirArray]
  congr 2
  induction names with
  | nil => rfl
  | cons name names ih =>
      rw [readXmlDirectory] at ih ⊢
      by_cases hnil : name.drop pre.length = []
      · rw [List.map_cons, List.filter_cons_of_neg (by simp [hnil]),
          List.filter_cons_of_neg (by simp [isEntry, hnil]), ih]
      · rw [List.map_cons, List.filter_cons_of_pos (by simp [hnil]), List.map_cons]
        by_cases hsecret : entryName pre name = secretName
        · rw [List.filter_cons_of_neg (by simpa [entryName] using hsecret),
            List.filter_cons_of_neg (by simp [isEntry, hsecret]), ih]
        · rw [List.filter_cons_of_pos (by simpa [entryName] using hsecret),
            List.filter_cons_of_pos (by simp [isEntry, hnil, hsecret]), ih]
          rfl

/-- The number of files is that of the names in the array. -/
theorem fileCounter_eq (directory : List Bytes) :
    fileCounter directory = (dirArray directory).length := by
  have hlength := List.length_eq_countP_add_countP (fun path : Bytes => decide (path ≠ secretName))
    (l := directory.map stripTrailingSlash)
  have hsecret : (directory.map stripTrailingSlash).countP
      (fun path => decide ¬(decide (path ≠ secretName) = true)) =
      (directory.map stripTrailingSlash).count secretName := by
    refine List.countP_congr fun path _ => ?_
    simp
  rw [hsecret, List.length_map, List.countP_eq_length_filter] at hlength
  rw [fileCounter, dirArray, List.length_cons, List.length_cons]
  push_cast
  omega

end Read

/-! ### What holds of every listing -/

/-- The name of a directory in the cache: `parentDir` of `S3ReadDir`. -/
def cachedName (dirname : Bytes) : Bytes := 47 :: readDirPrefix dirname

/-- The new listing that `S3ReadDir` puts into the cache. -/
def newListing (bucket : List Bytes) (answer : ListAnswer) (dirname : Bytes) (maxRead : ℤ) :
    DirEntry :=
  let directory := readDirectory bucket answer (readDirPrefix dirname) maxRead
  ⟨cachedName dirname, fileCounter directory, dirArray directory⟩

/-- **One call of `S3ReadDir`**: the listing comes from the cache or goes there. -/
theorem s3ReadDir_cases (bucket : List Bytes) (cache : DirectoryCache) (answer : ListAnswer)
    (dirname : Bytes) (maxRead : ℤ) :
    (∃ entry, some entry ∈ cache ∧ entry.dirname = cachedName dirname ∧
        s3ReadDir bucket cache answer dirname maxRead =
          ⟨0, entry.contents, entry.size, dirStep cache (.lookup (cachedName dirname))⟩) ∨
      cachedName dirname ∉ cache.dirnames ∧
        s3ReadDir bucket cache answer dirname maxRead =
          let new := newListing bucket answer dirname maxRead
          ⟨listStatus answer, new.contents, new.size,
            dirStep cache (.insert new.dirname new.size new.contents)⟩ := by
  rcases cache.lookup_cases (cachedName dirname) with
    ⟨hnot, hlookup⟩ | ⟨a, entry, b, hcache, hname, -, hlookup⟩
  · refine .inr ⟨hnot, ?_⟩
    rw [cachedName] at hlookup
    simp only [s3ReadDir, hlookup]
    rfl
  · refine .inl ⟨entry, ?_, hname, ?_⟩
    · rw [hcache]
      exact List.mem_append_right _ List.mem_cons_self
    · rw [dirStep, hlookup]
      rw [cachedName] at hlookup
      simp only [s3ReadDir, hlookup]

/-- **What holds of every listing** in a cache that calls have filled. -/
structure EveryListing (P : DirEntry → Prop) (cache : DirectoryCache) : Prop where
  past : ∃ past, cache = directoryCache.after past
  listing : ∀ entry, some entry ∈ cache → P entry

namespace EveryListing

variable {P Q : DirEntry → Prop} {cache : DirectoryCache}

theorem empty : EveryListing P initializeDirectoryCache where
  past := ⟨[], rfl⟩
  listing entry h := by
    have := List.eq_of_mem_replicate h
    cases this

theorem ne_nil (h : EveryListing P cache) : cache ≠ [] := by
  obtain ⟨past, rfl⟩ := h.past
  exact after_ne_nil past

/-- A call of the cache. -/
theorem call (h : EveryListing P cache) (call : DirCall)
    (hnew : ∀ entry, call = .insert entry.dirname entry.size entry.contents → P entry) :
    EveryListing P (dirStep cache call) := by
  refine ⟨?_, fun entry hentry => ?_⟩
  · obtain ⟨past, rfl⟩ := h.past
    exact ⟨call :: past, rfl⟩
  · rcases mem_dirStep h.ne_nil hentry with hold | ⟨hcall, -⟩
    · exact h.listing entry hold
    · exact hnew entry hcall

/-- **A call of `S3ReadDir`** adds its new listing. -/
theorem read (h : EveryListing P cache) {bucket : List Bytes} {answer : ListAnswer}
    {dirname : Bytes} {maxRead : ℤ}
    (hnew : cachedName dirname ∉ cache.dirnames → P (newListing bucket answer dirname maxRead)) :
    EveryListing P (s3ReadDir bucket cache answer dirname maxRead).cache := by
  rcases s3ReadDir_cases bucket cache answer dirname maxRead with
    ⟨entry, -, -, hread⟩ | ⟨hnot, hread⟩
  · rw [hread]
    exact h.call (.lookup (cachedName dirname)) fun _ hcall => by cases hcall
  · rw [hread]
    refine h.call (.insert _ _ _) fun entry hcall => ?_
    obtain ⟨hname, hsize, hcontents⟩ := DirCall.insert.inj hcall
    obtain rfl : newListing bucket answer dirname maxRead = entry := by
      cases entry
      exact DirEntry.mk.injEq .. ▸ ⟨hname, hsize, hcontents⟩
    exact hnew hnot

/-- **An invalidation** removes the listing of the directory. -/
theorem invalidate (h : EveryListing P cache) (dirname : Bytes)
    (hPQ : ∀ entry, some entry ∈ cache → entry.dirname ≠ dirname → P entry → Q entry) :
    EveryListing Q (cache.invalidateDirectoryCacheElement dirname) := by
  obtain ⟨past, rfl⟩ := h.past
  refine ⟨⟨.invalidate dirname :: past, rfl⟩, fun entry hentry => ?_⟩
  have hafter : some entry ∈ dirStep (directoryCache.after past) (.invalidate dirname) := hentry
  rcases mem_dirStep (after_ne_nil past) hafter with hold | ⟨hcall, -⟩
  · refine hPQ entry hold ?_ (h.listing entry hold)
    rintro rfl
    exact not_mem_dirnames_invalidate past entry.dirname (mem_dirnames_iff.2 ⟨entry, hentry, rfl⟩)
  · cases hcall

end EveryListing

/-! ### Removing a directory -/

/-- **One call of `S3Rmdir`**: without a directory it does nothing, and otherwise the listing
decides. -/
theorem s3Rmdir_cases (keyOf : Bytes → Bytes) (s : ListingState) (w : RmdirWorld)
    (dirname : Bytes) :
    let stats := (s3FileStat maxStatCacheSize w.toStatWorld s.stats (cleanPath dirname)).2
    let read := s3ReadDir s.bucket s.cache w.listed (cleanPath dirname) 4
    let s' : ListingState := ⟨s.bucket, read.cache, stats⟩
    statsDirectory w.toStatWorld s.stats (cleanPath dirname) = false ∧
        (∃ status, status ≠ 0 ∧
          s.s3Rmdir keyOf w dirname = ⟨w.giveUp status, { s with stats := stats }, []⟩) ∨
      statsDirectory w.toStatWorld s.stats (cleanPath dirname) = true ∧
        s.s3Rmdir keyOf w dirname =
          if isDirectoryEmpty read then s'.removeDirectory keyOf w dirname
          else ⟨w.giveUp enotempty, s', []⟩ := by
  have herror := s3FileStat_ne_error_zero maxStatCacheSize w.toStatWorld s.stats
    (cleanPath dirname)
  simp only [statsDirectory, ListingState.s3Rmdir]
  generalize s3FileStat maxStatCacheSize w.toStatWorld s.stats (cleanPath dirname) = stat
    at herror ⊢
  obtain ⟨report, stats⟩ := stat
  cases report with
  | error status => exact .inl ⟨rfl, status, fun h => herror (congrArg _ h), rfl⟩
  | ok fi =>
      simp only []
      cases htype : fi.any (·.fileType = 100) with
      | false => exact .inl ⟨rfl, enotdir, by decide, rfl⟩
      | true => exact .inr ⟨rfl, rfl⟩

/-- `S3Rmdir` finds a directory to be empty, in the cache or in the listing. -/
def FindsEmpty (s : ListingState) (answer : ListAnswer) (dirname : Bytes) : Prop :=
  (∀ entry ∈ s.cache.filterMap id, entry.dirname = cachedName dirname → entry.size ≤ 2) ∧
    (cachedName dirname ∉ s.cache.dirnames →
      listStatus answer = 0 ∧ entries s.bucket (cachedName dirname) = [])

/-- **`S3Rmdir` frees no pointer that it has not set**: `response` happens to be `NULL`, or the call
comes to its last request, which sets it. -/
def FreesWhatIsSet (s : ListingState) (w : RmdirWorld) (dirname : Bytes) : Prop :=
  w.response = 0 ∨
    statsDirectory w.toStatWorld s.stats (cleanPath dirname) = true ∧
      FindsEmpty s w.listed (cleanPath dirname) ∧ submitStatus w.unlinked.httpStatus = 0

theorem giveUp_eq_some {w : RmdirWorld} (h : w.response = 0) (status : ℤ) :
    w.giveUp status = some status := by
  rw [RmdirWorld.giveUp, freeUnset, if_pos h]
  rfl

theorem giveUp_ne_some_zero (w : RmdirWorld) {status : ℤ} (h : status ≠ 0) :
    w.giveUp status ≠ some 0 := by
  intro hzero
  exact h (map_freeUnset_eq_some_iff.1 hzero).2

/-- A new listing of an empty directory has two names. -/
theorem size_newListing_of_entries_eq_nil {bucket : List Bytes} {answer : ListAnswer}
    {dirname : Bytes} {maxRead : ℤ} (hanswer : listStatus answer = 0)
    (hentries : entries bucket (cachedName dirname) = []) :
    (newListing bucket answer dirname maxRead).size = 2 := by
  obtain ⟨j, hperm, -⟩ := exists_perm_readDirectory bucket hanswer (readDirPrefix dirname) maxRead
  have hnone : ((listedNames bucket (listPrefix (readDirPrefix dirname))).take j).filter
      (isEntry (listPrefix (readDirPrefix dirname))) = [] := by
    refine List.filter_eq_nil_iff.2 fun name hname => ?_
    have hentry := entries_eq_nil_iff.1 hentries name (List.mem_of_mem_take hname)
    exact Bool.eq_false_iff.1 hentry
  have hsize : (newListing bucket answer dirname maxRead).size =
      (dirArray (readDirectory bucket answer (readDirPrefix dirname) maxRead)).length :=
    fileCounter_eq _
  rw [hsize, (perm_dirArray hperm).length_eq, dirArray_readXmlDirectory, hnone]
  rfl

/-- The test for emptiness. -/
theorem FindsEmpty.isDirectoryEmpty {s : ListingState} {answer : ListAnswer} {dirname : Bytes}
    (h : FindsEmpty s answer dirname) :
    isDirectoryEmpty (s3ReadDir s.bucket s.cache answer dirname 4) = true := by
  rw [AwsS3fs.isDirectoryEmpty, Bool.and_eq_true, decide_eq_true_iff, decide_eq_true_iff]
  rcases s3ReadDir_cases s.bucket s.cache answer dirname 4 with
    ⟨entry, hentry, hname, hread⟩ | ⟨hnot, hread⟩
  · rw [hread]
    exact ⟨rfl, h.1 entry (List.mem_filterMap.2 ⟨some entry, hentry, rfl⟩) hname⟩
  · obtain ⟨hanswer, hentries⟩ := h.2 hnot
    rw [hread]
    exact ⟨hanswer, (size_newListing_of_entries_eq_nil hanswer hentries).le⟩

/-- **When `S3Rmdir` returns.** -/
theorem isSome_status_of_freesWhatIsSet (keyOf : Bytes → Bytes) {s : ListingState} {w : RmdirWorld}
    {dirname : Bytes} (h : FreesWhatIsSet s w dirname) :
    (s.s3Rmdir keyOf w dirname).status.isSome = true := by
  have hgiveUp : w.response = 0 → ∀ status, (w.giveUp status).isSome = true := by
    intro hnull status
    rw [giveUp_eq_some hnull]
    rfl
  rcases s3Rmdir_cases keyOf s w dirname with ⟨hnot, status, -, hrmdir⟩ | ⟨-, hrmdir⟩
  · rw [hrmdir]
    refine hgiveUp (h.resolve_right fun hreached => ?_) status
    rw [hreached.1] at hnot
    cases hnot
  · rw [hrmdir]
    rcases h with hnull | ⟨-, hempty, hunlinked⟩
    · split
      · rw [ListingState.removeDirectory]
        split
        · rfl
        · exact hgiveUp hnull _
      · exact hgiveUp hnull _
    · have hzero : ∀ s' : ListingState, (s'.s3Unlink keyOf w.unlinked
          (ListingState.secretFile (cleanPath dirname))).1 = 0 := fun _ => hunlinked
      rw [if_pos hempty.isDirectoryEmpty, ListingState.removeDirectory, if_pos (hzero _)]
      rfl

instance (s : ListingState) (answer : ListAnswer) (dirname : Bytes) :
    Decidable (FindsEmpty s answer dirname) :=
  inferInstanceAs (Decidable ((∀ entry ∈ _, _ → _) ∧ (_ → _ ∧ _)))

instance (s : ListingState) (w : RmdirWorld) (dirname : Bytes) :
    Decidable (FreesWhatIsSet s w dirname) :=
  inferInstanceAs (Decidable (_ ∨ _ ∧ _ ∧ _))

/-! ### A bucket -/

/-- The key of a path. -/
def keyOfPath (path : Bytes) : Bytes := path.drop 1

theorem abs_zero_lt_int : |(0 : ℤ)| < 2 ^ 31 := by decide

/-- A bucket in which every directory is recognised by its secret file, and all requests succeed;
`response` happens to be `NULL`. -/
def openBucket : RmdirWorld where
  ctx := june (.fixed 0 abs_zero_lt_int)
  garbage := []
  head path := if isS3DirectoryFile.isSuffixOf path then
    ⟨some 200, [(ascii "Content-Type", ascii "application/x-directory")]⟩ else ⟨some 404, []⟩
  listed := ⟨some 200, true⟩
  unlinked := ⟨some 204, true⟩
  deleted := ⟨some 204, true⟩
  response := 0

end AwsS3fs
