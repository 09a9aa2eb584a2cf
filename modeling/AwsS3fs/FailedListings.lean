/-
**Listings that fail.**

The loop of `S3ReadDir` (`s3if.c`) goes on as long as there is a marker and the limit is not
reached; the status of a request is no part of its condition.  What comes after the loop is done for
every status.  So a first request that fails ends the loop, but leaves an empty listing in the
cache; and a later one that fails is repeated with the same marker, as long as it fails.

Main definitions:

* `AwsS3fs.readBefore` — what has been read before a request;
* `AwsS3fs.FirstFailure` — **a request is the first that fails**, and fails whenever it is repeated;
* `AwsS3fs.StopsCleanly` — `S3ReadDir` ends with it, with an error and no trace in the cache.

Main results:

* `AwsS3fs.returns_of_firstFailure` — a first request that fails is an empty listing in the cache;
* `AwsS3fs.not_returns_of_firstFailure` — **after a later one, `S3ReadDir` never returns**;
* `AwsS3fs.not_stopsCleanly` — a listing that fails never ends without a trace.
-/

import AwsS3fs.ListingPages

set_option relaxedAutoImplicit false
set_option autoImplicit false

namespace AwsS3fs

open CLib DirectoryCache

variable {respond : ℕ → Bytes → ListResponse} {pre : Bytes} {maxRead : ℤ} {k : ℕ}

/-! ### Failures -/

/-- A request fails, or its response is not a document. -/
def ListResponse.Fails (response : ListResponse) : Prop :=
  response.status ≠ 0 ∨ response.root = none

/-- What the loop of `S3ReadDir` has read before request `k`, if it goes on until then. -/
def readBefore (respond : ℕ → Bytes → ListResponse) (pre : Bytes) (maxRead : ℤ) : ℕ → PageReader
  | 0 => ⟨[], none, 0⟩
  | k + 1 =>
      let r := readBefore respond pre maxRead k
      (readPage pre (respond k (listQuery (queryBase pre maxRead) r.marker)) r).2

/-- The response to request `k` of the loop, if that is still the query of request `i`. -/
def responseTo (respond : ℕ → Bytes → ListResponse) (pre : Bytes) (maxRead : ℤ) (i k : ℕ) :
    ListResponse :=
  respond k (listQuery (queryBase pre maxRead) (readBefore respond pre maxRead i).marker)

/-- **Request `k` is the first that fails**, and it fails again whenever it is repeated. -/
structure FirstFailure (respond : ℕ → Bytes → ListResponse) (pre : Bytes) (maxRead : ℤ) (k : ℕ) :
    Prop where
  succeeds : ∀ i < k, ¬ (responseTo respond pre maxRead i i).Fails
  more : ∀ i < k, (readBefore respond pre maxRead (i + 1)).more maxRead
  fails : ∀ i ≥ k, (responseTo respond pre maxRead k i).Fails

/-- **`S3ReadDir` stops after request `k`** with an error, and leaves no trace in the cache. -/
def StopsCleanly (respond : ℕ → Bytes → ListResponse) (cache : DirectoryCache) (dirname : Bytes)
    (maxRead : ℤ) (k : ℕ) : Prop :=
  ∃ result queries, Returns respond cache dirname maxRead result queries ∧
    queries.length = k + 1 ∧ result.status ≠ 0 ∧
    result.cache = (cache.lookupInDirectoryCache (cachedName dirname)).2

/-- A request that fails reads nothing. -/
theorem readPage_of_fails (pre : Bytes) {response : ListResponse} (h : response.Fails)
    (r : PageReader) :
    (readPage pre response r).1 ≠ 0 ∧ (readPage pre response r).2 = r := by
  rw [readPage]
  by_cases hstatus : response.status = 0
  · rw [if_pos hstatus, h.resolve_left (not_not_intro hstatus)]
    exact ⟨(by decide : eio ≠ 0), rfl⟩
  · rw [if_neg hstatus]
    exact ⟨hstatus, rfl⟩

/-! ### The first request -/

/-- **A first request that fails** ends the loop; the cache then has a listing without entries. -/
theorem returns_of_firstFailure {cache : DirectoryCache} {dirname : Bytes}
    (hcache : cachedName dirname ∉ cache.dirnames)
    (h : FirstFailure respond (readDirPrefix dirname) maxRead 0) :
    ∃ status ≠ 0, Returns respond cache dirname maxRead
      ⟨status, [ascii ".", ascii ".."], 2,
        cache.insertInDirectoryCache (cachedName dirname) 2 [ascii ".", ascii ".."]⟩
      [queryBase (readDirPrefix dirname) maxRead] := by
  obtain ⟨hstatus, hread⟩ := readPage_of_fails (readDirPrefix dirname) (h.fails 0 le_rfl)
    ⟨[], none, 0⟩
  have hone : readAllPages respond (readDirPrefix dirname) maxRead 1 0 ⟨[], none, 0⟩ =
      some ((readPage (readDirPrefix dirname)
        (responseTo respond (readDirPrefix dirname) maxRead 0 0) ⟨[], none, 0⟩).1,
          ⟨[], none, 0⟩, [queryBase (readDirPrefix dirname) maxRead]) := by
    change (if PageReader.more maxRead (readPage _ (responseTo respond _ maxRead 0 0) _).2 then _
      else some (_, (readPage _ (responseTo respond _ maxRead 0 0) _).2, _)) = _
    rw [hread, if_neg fun hmore => hmore.1 rfl]
    rfl
  refine ⟨_, hstatus, 1, ?_⟩
  rw [s3ReadDirPages_eq hcache, hone]
  rfl

/-- An insertion of a new directory changes the cache. -/
theorem insertInDirectoryCache_ne {cache : DirectoryCache} (hne : cache ≠ []) {name : Bytes}
    (hname : name ∉ cache.dirnames) (size : ℤ) (contents : List Bytes) :
    cache.insertInDirectoryCache name size contents ≠ cache := by
  rcases insert_cases hne name size contents with ⟨-, hinsert⟩ | ⟨a, entry, b, rfl, hentry, -⟩
  · intro heq
    refine hname ?_
    rw [← heq, hinsert, dirnames_some_cons]
    exact List.mem_cons_self
  · refine absurd (mem_dirnames_iff.2 ⟨entry, ?_, hentry⟩) hname
    exact List.mem_append_right _ List.mem_cons_self

/-! ### A later request -/

/-- Behind the first failure nothing more is read. -/
theorem readBefore_of_le (h : FirstFailure respond pre maxRead k) {i : ℕ} (hle : k ≤ i) :
    readBefore respond pre maxRead i = readBefore respond pre maxRead k := by
  induction i, hle using Nat.le_induction with
  | base => rfl
  | succ i hle ih =>
      rw [readBefore]
      rw [ih]
      exact (readPage_of_fails pre (h.fails i hle) _).2

/-- The loop goes on after every request. -/
theorem more_of_firstFailure (h : FirstFailure respond pre maxRead (k + 1)) (i : ℕ) :
    (readBefore respond pre maxRead (i + 1)).more maxRead := by
  rcases Nat.lt_or_ge i (k + 1) with hlt | hge
  · exact h.more i hlt
  · rw [readBefore_of_le h (Nat.le_succ_of_le hge)]
    exact h.more k k.lt_succ_self

/-- A loop that goes on after every request needs more rounds than there are. -/
theorem readAllPages_eq_none
    (h : ∀ i, (readBefore respond pre maxRead (i + 1)).more maxRead) (rounds i : ℕ) :
    readAllPages respond pre maxRead rounds i (readBefore respond pre maxRead i) = none := by
  induction rounds generalizing i with
  | zero => rfl
  | succ rounds ih =>
      have hnext := h i
      have hrest := ih (i + 1)
      rw [readBefore] at hnext hrest
      rw [readAllPages]
      rw [if_pos hnext, hrest]
      rfl

/-- **After a later request that fails, `S3ReadDir` never returns.** -/
theorem not_returns_of_firstFailure {cache : DirectoryCache} {dirname : Bytes}
    (hcache : cachedName dirname ∉ cache.dirnames)
    (h : FirstFailure respond (readDirPrefix dirname) maxRead (k + 1)) (result : ReadDirResult)
    (queries : List Bytes) : ¬ Returns respond cache dirname maxRead result queries := by
  rintro ⟨rounds, hreturns⟩
  rw [s3ReadDirPages_eq hcache] at hreturns
  have hnone := readAllPages_eq_none (more_of_firstFailure h) rounds 0
  rw [readBefore] at hnone
  rw [hnone] at hreturns
  cases hreturns

/-! ### Stopping -/

/-- **A listing that fails never stops cleanly**: the first request leaves a trace in the cache, and
a later one does not stop. -/
theorem not_stopsCleanly {cache : DirectoryCache} (hne : cache ≠ []) {dirname : Bytes}
    (hcache : cachedName dirname ∉ cache.dirnames)
    (h : FirstFailure respond (readDirPrefix dirname) maxRead k) :
    ¬ StopsCleanly respond cache dirname maxRead k := by
  rintro ⟨result, queries, hreturns, -, -, hsame⟩
  cases k with
  | zero =>
      obtain ⟨status, -, hreturns'⟩ := returns_of_firstFailure hcache h
      obtain ⟨rfl, -⟩ := Prod.mk.inj (hreturns.unique hcache hreturns')
      rw [lookup_of_notMem hcache] at hsame
      exact insertInDirectoryCache_ne hne hcache _ _ hsame
  | succ k => exact not_returns_of_firstFailure hcache h result queries hreturns

/-- A server without pages fails with the first request. -/
theorem firstFailure_serverOf_nil (pre : Bytes) (maxRead : ℤ) :
    FirstFailure (serverOf []) pre maxRead 0 where
  succeeds i hi := absurd hi i.not_lt_zero
  more i hi := absurd hi i.not_lt_zero
  fails _ _ := .inr List.getElem?_nil

/-- The empty listing stays in the cache. -/
theorem not_stopsCleanly_nil : ¬ StopsCleanly (serverOf []) [none, none] (ascii "/d") (-1) 0 :=
  not_stopsCleanly (List.cons_ne_nil _ _) List.not_mem_nil (firstFailure_serverOf_nil _ _)

/-- The first of two pages, of which the second cannot be had. -/
def firstPage : XmlNode := entryPage (ascii "d/") (ascii "true") (ascii "d/a") (ascii "d/a")

/-- **The second page is asked for without an end.** -/
theorem not_stopsCleanly_firstPage :
    FirstFailure (serverOf [firstPage]) (readDirPrefix (ascii "/d")) (-1) 1 ∧
      ¬ StopsCleanly (serverOf [firstPage]) [none, none] (ascii "/d") (-1) 1 := by
  have hfirst : FirstFailure (serverOf [firstPage]) (readDirPrefix (ascii "/d")) (-1) 1 :=
    { succeeds := fun i hi hfails => by
        obtain rfl : i = 0 := by omega
        rcases hfails with hstatus | hroot
        · exact hstatus rfl
        · exact Option.some_ne_none _ hroot
      more := by decide +kernel
      fails := fun _ hi => .inr (List.getElem?_eq_none hi) }
  refine ⟨hfirst, ?_⟩
  rintro ⟨result, queries, hreturns, -⟩
  exact not_returns_of_firstFailure List.not_mem_nil hfirst result queries hreturns

end AwsS3fs
