/-
**The cache of directory contents.**

`dircache.c` keeps the contents of a few directories in an array, the most recently used one first.
A look-up that finds a directory moves it to the front and pushes the slots before it one place
back; an insertion drops the last slot, whatever it holds.  An invalidation moves the directory to
the front and empties the slot there, and the empty slot stays until others push it back.

Main definitions:

* `AwsS3fs.DirectoryCache` — the array;
* `AwsS3fs.DirectoryCache.lookupInDirectoryCache`, `AwsS3fs.DirectoryCache.insertInDirectoryCache`,
  `AwsS3fs.DirectoryCache.invalidateDirectoryCacheElement` — the functions of `dircache.c`;
* `AwsS3fs.directoryCache` — the cache as one that is ordered by use;
* `AwsS3fs.RecencyMap`, `AwsS3fs.UsesCapacity` — what the cache promises;
* `AwsS3fs.PushedBehind` — the slots before the one of a directory.

Main results:

* `AwsS3fs.DirectoryCache.pushBack_set` — what the loops over the slots do;
* `AwsS3fs.dirStep_cases` — what a call does to the slots;
* `AwsS3fs.recencyMap` — **the cache is a map that is ordered by use**;
* `AwsS3fs.usesCapacity` — **how many directories the cache holds**: a directory that has been
  invalidated counts as one that has been used.
-/

import AwsS3fs.Lib.Bytes
import AwsS3fs.Lib.Recency
import AwsS3fs.Lib.Threads

set_option relaxedAutoImplicit false
set_option autoImplicit false

namespace AwsS3fs

open CLib Recency

/-! ### The functions of the cache -/

/-- `struct DirCache`, with contents. -/
structure DirEntry where
  dirname : Bytes
  size : ℤ
  contents : List Bytes
  deriving DecidableEq, Repr

/-- `directoryCache`; in an empty slot all pointers are `NULL`. -/
abbrev DirectoryCache := List (Option DirEntry)

/-- `DIR_CACHE_SIZE`. -/
def dirCacheSize : ℕ := 5

namespace DirectoryCache

/-- A slot holds a directory. -/
def holds (dirname : Bytes) (slot : Option DirEntry) : Bool := slot.any (·.dirname = dirname)

/-- `InitializeDirectoryCache`. -/
def initializeDirectoryCache : DirectoryCache := List.replicate dirCacheSize none

/-- The loops that push the slots before a place one place back, from the end on. -/
def pushBack : ℕ → DirectoryCache → DirectoryCache
  | 0, cache => cache
  | i + 1, cache => pushBack i (cache.set (i + 1) (cache.getD i none))

/-- `DeleteLastInDirectoryCache`. -/
def deleteLastInDirectoryCache (cache : DirectoryCache) : DirectoryCache :=
  (pushBack (cache.length - 1) cache).set 0 none

/-- `LookupInDirectoryCacheWithoutMutex`: what was found, and the array afterwards. -/
def lookupInDirectoryCache (cache : DirectoryCache) (dirname : Bytes) :
    Option DirEntry × DirectoryCache :=
  match cache.findIdx? (holds dirname) with
  | none => (none, cache)
  | some i =>
      let found := cache.getD i none
      (found, (pushBack i cache).set 0 found)

/-- `InsertInDirectoryCache`. -/
def insertInDirectoryCache (cache : DirectoryCache) (dirname : Bytes) (size : ℤ)
    (contents : List Bytes) : DirectoryCache :=
  match cache.lookupInDirectoryCache dirname with
  | (none, _) => (deleteLastInDirectoryCache cache).set 0 (some ⟨dirname, size, contents⟩)
  | (some _, cache') => cache'

/-- `InvalidateDirectoryCacheElement`. -/
def invalidateDirectoryCacheElement (cache : DirectoryCache) (dirname : Bytes) : DirectoryCache :=
  match cache.lookupInDirectoryCache dirname with
  | (none, _) => cache
  | (some _, cache') => cache'.set 0 none

/-! ### What the loops do -/

/-- A slot that has been overwritten by the one before it need not be the one that is erased. -/
theorem eraseIdx_set {i : ℕ} {cache : DirectoryCache} (hi : i + 1 < cache.length) :
    (cache.set (i + 1) (cache.getD i none)).eraseIdx i = cache.eraseIdx (i + 1) := by
  induction cache generalizing i with
  | nil => cases hi
  | cons slot cache ih =>
      cases i with
      | zero =>
          obtain ⟨next, rest, rfl⟩ := List.exists_cons_of_length_pos (Nat.lt_of_succ_lt_succ hi)
          rfl
      | succ i => exact congrArg (slot :: ·) (ih (Nat.lt_of_succ_lt_succ hi))

/-- **The loops** overwrite the slot at a place with the one before it and so on, up to the first
one. -/
theorem pushBack_set {i : ℕ} {cache : DirectoryCache} (hi : i < cache.length)
    (slot : Option DirEntry) : (pushBack i cache).set 0 slot = slot :: cache.eraseIdx i := by
  induction i generalizing cache with
  | zero =>
      obtain ⟨first, rest, rfl⟩ := List.exists_cons_of_length_pos hi
      rfl
  | succ i ih =>
      rw [pushBack, ih (by rw [List.length_set]; omega), eraseIdx_set hi]

/-! ### What the functions do -/

/-- The names of the directories in the array. -/
def dirnames (cache : DirectoryCache) : List Bytes := cache.filterMap (·.map (·.dirname))

@[simp]
theorem dirnames_nil : dirnames [] = [] := rfl

@[simp]
theorem dirnames_none_cons (cache : DirectoryCache) : dirnames (none :: cache) = dirnames cache :=
  rfl

@[simp]
theorem dirnames_some_cons (entry : DirEntry) (cache : DirectoryCache) :
    dirnames (some entry :: cache) = entry.dirname :: dirnames cache :=
  rfl

@[simp]
theorem dirnames_append (a b : DirectoryCache) : dirnames (a ++ b) = dirnames a ++ dirnames b :=
  List.filterMap_append

theorem mem_dirnames_iff {cache : DirectoryCache} {dirname : Bytes} :
    dirname ∈ cache.dirnames ↔ ∃ entry, some entry ∈ cache ∧ entry.dirname = dirname := by
  simp [dirnames, List.mem_filterMap]

theorem holds_eq_true_iff {slot : Option DirEntry} {dirname : Bytes} :
    holds dirname slot = true ↔ ∃ entry, slot = some entry ∧ entry.dirname = dirname := by
  cases slot <;> simp [holds]

/-- **A look-up**: the directory is not there, or it moves to the front. -/
theorem lookup_cases (cache : DirectoryCache) (dirname : Bytes) :
    (dirname ∉ cache.dirnames ∧ cache.lookupInDirectoryCache dirname = (none, cache)) ∨
      ∃ a entry b, cache = a ++ some entry :: b ∧ entry.dirname = dirname ∧
        dirname ∉ dirnames a ∧
        cache.lookupInDirectoryCache dirname = (some entry, some entry :: (a ++ b)) := by
  cases hi : cache.findIdx? (holds dirname) with
  | none =>
      refine .inl ⟨fun hmem => ?_, by rw [lookupInDirectoryCache, hi]⟩
      obtain ⟨entry, hentry, hname⟩ := mem_dirnames_iff.1 hmem
      have hnot := List.findIdx?_eq_none_iff.1 hi _ hentry
      rw [holds_eq_true_iff.2 ⟨entry, rfl, hname⟩] at hnot
      cases hnot
  | some i =>
      obtain ⟨hlt, hholds, hbefore⟩ := List.findIdx?_eq_some_iff_getElem.1 hi
      obtain ⟨entry, hentry, hname⟩ := holds_eq_true_iff.1 hholds
      have hsplit : cache = cache.take i ++ some entry :: cache.drop (i + 1) := by
        rw [← hentry, List.getElem_cons_drop, List.take_append_drop]
      have hget : cache.getD i none = some entry := by
        rw [List.getD_eq_getElem?_getD, List.getElem?_eq_getElem hlt, hentry]
        rfl
      refine .inr ⟨_, entry, _, hsplit, hname, fun hmem => ?_, ?_⟩
      · obtain ⟨other, hother, hname'⟩ := mem_dirnames_iff.1 hmem
        obtain ⟨j, hj, hget'⟩ := List.mem_take_iff_getElem.1 hother
        refine hbefore j (by omega) ?_
        rw [holds_eq_true_iff]
        exact ⟨other, hget', hname'⟩
      · rw [lookupInDirectoryCache, hi]
        simp only [hget, pushBack_set hlt, List.eraseIdx_eq_take_drop_succ]

/-- A directory that is not in the cache is not found. -/
theorem lookup_of_notMem {cache : DirectoryCache} {dirname : Bytes}
    (h : dirname ∉ cache.dirnames) : cache.lookupInDirectoryCache dirname = (none, cache) := by
  rcases cache.lookup_cases dirname with ⟨-, hlookup⟩ | ⟨a, entry, b, rfl, hname, -, -⟩
  · exact hlookup
  · refine absurd (mem_dirnames_iff.2 ⟨entry, ?_, hname⟩) h
    exact List.mem_append_right _ List.mem_cons_self

/-- An insertion of a new directory drops the last slot. -/
theorem insert_cases {cache : DirectoryCache} (hne : cache ≠ []) (dirname : Bytes) (size : ℤ)
    (contents : List Bytes) :
    (dirname ∉ cache.dirnames ∧ cache.insertInDirectoryCache dirname size contents =
        some ⟨dirname, size, contents⟩ :: cache.dropLast) ∨
      ∃ a entry b, cache = a ++ some entry :: b ∧ entry.dirname = dirname ∧
        dirname ∉ dirnames a ∧
        cache.insertInDirectoryCache dirname size contents = some entry :: (a ++ b) := by
  rcases cache.lookup_cases dirname with ⟨hnot, hlookup⟩ | ⟨a, entry, b, hcache, hname, ha, hlookup⟩
  · have hlength := List.length_pos_of_ne_nil hne
    refine .inl ⟨hnot, ?_⟩
    rw [insertInDirectoryCache, hlookup]
    simp only [deleteLastInDirectoryCache]
    rw [pushBack_set (by omega), List.dropLast_eq_eraseIdx]
    · rfl
    · omega
  · exact .inr ⟨a, entry, b, hcache, hname, ha, by rw [insertInDirectoryCache, hlookup]⟩

/-- An invalidation moves the directory to the front and empties the slot there. -/
theorem invalidate_cases (cache : DirectoryCache) (dirname : Bytes) :
    (dirname ∉ cache.dirnames ∧ cache.invalidateDirectoryCacheElement dirname = cache) ∨
      ∃ a entry b, cache = a ++ some entry :: b ∧ entry.dirname = dirname ∧
        dirname ∉ dirnames a ∧
        cache.invalidateDirectoryCacheElement dirname = none :: (a ++ b) := by
  rcases cache.lookup_cases dirname with ⟨hnot, hlookup⟩ | ⟨a, entry, b, hcache, hname, ha, hlookup⟩
  · exact .inl ⟨hnot, by rw [invalidateDirectoryCacheElement, hlookup]⟩
  · refine .inr ⟨a, entry, b, hcache, hname, ha, ?_⟩
    rw [invalidateDirectoryCacheElement, hlookup]
    rfl

/-- With different names, what is found is the entry with the name. -/
theorem lookup_eq_some_iff {cache : DirectoryCache} (h : cache.dirnames.Nodup) {dirname : Bytes}
    {entry : DirEntry} :
    (cache.lookupInDirectoryCache dirname).1 = some entry ↔
      some entry ∈ cache ∧ entry.dirname = dirname := by
  rcases cache.lookup_cases dirname with ⟨hnot, hlookup⟩ | ⟨a, found, b, rfl, hname, ha, hlookup⟩
  · rw [hlookup]
    refine iff_of_false (fun heq => by cases heq) fun ⟨hmem, hname⟩ => hnot ?_
    exact mem_dirnames_iff.2 ⟨entry, hmem, hname⟩
  · rw [hlookup]
    constructor
    · intro heq
      obtain rfl := Option.some.inj heq
      exact ⟨by simp, hname⟩
    · rintro ⟨hmem, hname'⟩
      rw [dirnames_append, dirnames_some_cons, List.nodup_middle, List.nodup_cons] at h
      rcases List.mem_append.1 hmem with hmem | hmem
      · exact absurd (mem_dirnames_iff.2 ⟨entry, hmem, hname'⟩) ha
      · rcases List.mem_cons.1 hmem with heq | hmem
        · exact heq.symm
        · refine absurd (List.mem_append_right _ ?_) h.1
          exact mem_dirnames_iff.2 ⟨entry, hmem, hname'.trans hname.symm⟩

theorem filter_dirnames {a b : DirectoryCache} {entry : DirEntry}
    (h : (dirnames (a ++ some entry :: b)).Nodup) :
    (dirnames (a ++ some entry :: b)).filter (· ≠ entry.dirname) = dirnames (a ++ b) := by
  rw [dirnames_append, dirnames_some_cons, List.nodup_middle, List.nodup_cons] at h
  have hself := filter_ne_of_notMem h.1
  rw [List.filter_append] at hself
  simp only [dirnames_append, dirnames_some_cons, List.filter_append, ← hself]
  simp

end DirectoryCache

/-! ### The cache over time -/

/-- A call of the cache. -/
inductive DirCall
  | insert (dirname : Bytes) (size : ℤ) (contents : List Bytes)
  | lookup (dirname : Bytes)
  | invalidate (dirname : Bytes)
  deriving DecidableEq, Repr

open DirectoryCache

/-- The array after a call. -/
def dirStep (cache : DirectoryCache) : DirCall → DirectoryCache
  | .insert dirname size contents => cache.insertInDirectoryCache dirname size contents
  | .lookup dirname => (cache.lookupInDirectoryCache dirname).2
  | .invalidate dirname => cache.invalidateDirectoryCacheElement dirname

/-- The name that a call uses: one that it inserts, whether it is new or not, or one that it
finds. -/
def dirUses (cache : DirectoryCache) : DirCall → Option Bytes
  | .insert dirname _ _ => some dirname
  | .lookup dirname => if dirname ∈ cache.dirnames then some dirname else none
  | .invalidate _ => none

/-- The cache as one that is ordered by use. -/
def directoryCache : Cache DirectoryCache DirCall Bytes (List Bytes × ℤ) where
  init := initializeDirectoryCache
  step := dirStep
  keys cache := cache.dirnames.reverse
  find cache dirname := (cache.lookupInDirectoryCache dirname).1.map fun e => (e.contents, e.size)
  uses := dirUses
  inserts
    | .insert dirname size contents => some (dirname, contents, size)
    | _ => none

theorem keys_directoryCache (cache : DirectoryCache) :
    directoryCache.keys cache = cache.dirnames.reverse :=
  rfl

theorem after_cons_dir (call : DirCall) (past : List DirCall) :
    directoryCache.after (call :: past) = dirStep (directoryCache.after past) call :=
  rfl

/-- **What a call does to the slots**: nothing, a new entry that drops the last slot, or an entry
that leaves its slot, for the front or for good. -/
theorem dirStep_cases {cache : DirectoryCache} (hne : cache ≠ []) (call : DirCall) :
    (dirStep cache call = cache ∧ dirUses cache call = none ∧
        ∀ dirname, call = .invalidate dirname → dirname ∉ cache.dirnames) ∨
      (∃ entry, call = .insert entry.dirname entry.size entry.contents ∧
        entry.dirname ∉ cache.dirnames ∧ dirStep cache call = some entry :: cache.dropLast) ∨
      ∃ a entry b, cache = a ++ some entry :: b ∧ entry.dirname ∉ dirnames a ∧
        (dirUses cache call = some entry.dirname ∧ dirStep cache call = some entry :: (a ++ b) ∨
          call = .invalidate entry.dirname ∧ dirStep cache call = none :: (a ++ b)) := by
  cases call with
  | insert dirname size contents =>
      rcases insert_cases hne dirname size contents with
        ⟨hnot, hinsert⟩ | ⟨a, entry, b, rfl, rfl, ha, hinsert⟩
      · exact .inr (.inl ⟨⟨dirname, size, contents⟩, rfl, hnot, hinsert⟩)
      · exact .inr (.inr ⟨a, entry, b, rfl, ha, .inl ⟨rfl, hinsert⟩⟩)
  | lookup dirname =>
      rcases cache.lookup_cases dirname with
        ⟨hnot, hlookup⟩ | ⟨a, entry, b, rfl, rfl, ha, hlookup⟩
      · exact .inl ⟨congrArg Prod.snd hlookup, if_neg hnot, fun _ h => by cases h⟩
      · exact .inr (.inr ⟨a, entry, b, rfl, ha, .inl ⟨if_pos (by simp), congrArg Prod.snd hlookup⟩⟩)
  | invalidate dirname =>
      rcases cache.invalidate_cases dirname with
        ⟨hnot, hinvalidate⟩ | ⟨a, entry, b, rfl, rfl, ha, hinvalidate⟩
      · exact .inl ⟨hinvalidate, rfl, fun _ h => by cases h; exact hnot⟩
      · exact .inr (.inr ⟨a, entry, b, rfl, ha, .inr ⟨rfl, hinvalidate⟩⟩)

theorem length_after_dir (past : List DirCall) :
    (directoryCache.after past).length = dirCacheSize := by
  induction past with
  | nil => rfl
  | cons call past ih =>
      have hne : directoryCache.after past ≠ [] := fun h => by rw [h] at ih; cases ih
      rw [after_cons_dir]
      rcases dirStep_cases hne call with ⟨hstep, -⟩ | ⟨entry, -, -, hstep⟩ |
        ⟨a, entry, b, hcache, -, ⟨-, hstep⟩ | ⟨-, hstep⟩⟩
      · rw [hstep, ih]
      · rw [hstep, List.length_cons, List.length_dropLast, ih]
        rfl
      · rw [hcache, List.length_append, List.length_cons] at ih
        rw [hstep, List.length_cons, List.length_append]
        omega
      · rw [hcache, List.length_append, List.length_cons] at ih
        rw [hstep, List.length_cons, List.length_append]
        omega

theorem after_ne_nil (past : List DirCall) : directoryCache.after past ≠ [] := fun h => by
  have hlength := length_after_dir past
  rw [h] at hlength
  cases hlength

/-- The entries after a call: those that were there, and a new one. -/
theorem mem_dirStep {cache : DirectoryCache} (hne : cache ≠ []) {call : DirCall} {entry : DirEntry}
    (h : some entry ∈ dirStep cache call) :
    some entry ∈ cache ∨ call = .insert entry.dirname entry.size entry.contents ∧
      entry.dirname ∉ cache.dirnames := by
  rcases dirStep_cases hne call with ⟨hstep, -⟩ | ⟨new, hcall, hnot, hstep⟩ |
    ⟨a, found, b, rfl, -, ⟨-, hstep⟩ | ⟨-, hstep⟩⟩
  · rw [hstep] at h
    exact .inl h
  · rw [hstep] at h
    rcases List.mem_cons.1 h with heq | h
    · obtain rfl := Option.some.inj heq
      exact .inr ⟨hcall, hnot⟩
    · exact .inl ((List.dropLast_sublist cache).subset h)
  · rw [hstep] at h
    exact .inl (by simpa [or_left_comm] using h)
  · rw [hstep] at h
    have h : some entry ∈ a ∨ some entry ∈ b := by simpa using h
    exact .inl (List.mem_append.2 (h.imp_right (List.mem_cons_of_mem _)))

/-- What a call expires, it expires from the candidates. -/
theorem dirnames_dirStep (past : List DirCall) (call : DirCall)
    (hnodup : (directoryCache.keys (directoryCache.after past)).Nodup) :
    (directoryCache.keys (directoryCache.after (call :: past))).Sublist
      (directoryCache.candidates past call) := by
  rw [keys_directoryCache, List.nodup_reverse] at hnodup
  rw [keys_directoryCache, after_cons_dir]
  rcases dirStep_cases (after_ne_nil past) call with ⟨hstep, huses, -⟩ | ⟨new, rfl, hnot, hstep⟩ |
    ⟨a, found, b, hcache, -, ⟨huses, hstep⟩ | ⟨rfl, hstep⟩⟩
  · rw [hstep, Cache.candidates_of_none huses]
    exact List.Sublist.refl _
  · have hfilter := filter_ne_of_notMem hnot
    have hdrop : (dirnames (directoryCache.after past).dropLast).Sublist
        (directoryCache.after past).dirnames := (List.dropLast_sublist _).filterMap _
    rw [hstep, Cache.candidates_of_some rfl, keys_directoryCache, List.filter_reverse, hfilter,
      dirnames_some_cons, List.reverse_cons]
    exact hdrop.reverse.append (List.Sublist.refl _)
  · rw [hcache] at hnodup
    rw [hstep, Cache.candidates_of_some huses, keys_directoryCache, List.filter_reverse, hcache,
      filter_dirnames hnodup, dirnames_some_cons, List.reverse_cons]
  · rw [hstep, Cache.candidates_of_none rfl, keys_directoryCache, hcache, dirnames_none_cons,
      dirnames_append, dirnames_append, dirnames_some_cons]
    exact ((List.Sublist.refl _).append (List.sublist_cons_self _ _)).reverse

theorem find_directoryCache {cache : DirectoryCache} (h : (directoryCache.keys cache).Nodup)
    {entry : DirEntry} (hentry : some entry ∈ cache) :
    directoryCache.find cache entry.dirname = some (entry.contents, entry.size) := by
  rw [keys_directoryCache, List.nodup_reverse] at h
  exact congrArg (Option.map _) ((lookup_eq_some_iff h).2 ⟨hentry, rfl⟩)

theorem mem_keys_directoryCache_iff {cache : DirectoryCache} {dirname : Bytes} :
    dirname ∈ directoryCache.keys cache ↔
      ∃ entry, some entry ∈ cache ∧ entry.dirname = dirname := by
  rw [keys_directoryCache, List.mem_reverse, mem_dirnames_iff]

/-- One call. -/
theorem lawful_directoryCache : directoryCache.Lawful where
  init := rfl
  sublist := dirnames_dirStep
  mem_of_find past dirname value h := by
    by_contra hnot
    rw [keys_directoryCache, List.mem_reverse] at hnot
    obtain ⟨entry, hentry, -⟩ := Option.map_eq_some_iff.1 h
    rcases (directoryCache.after past).lookup_cases dirname with
      ⟨-, hlookup⟩ | ⟨a, found, b, hcache, hname, -⟩
    · rw [hlookup] at hentry
      cases hentry
    · rw [hcache] at hnot
      simp [hname] at hnot
  kept past call dirname hnodup hnodup' hmem hmem' := by
    obtain ⟨entry, hentry, rfl⟩ := mem_keys_directoryCache_iff.1 hmem'
    rcases mem_dirStep (after_ne_nil past) hentry with hold | ⟨-, hnew⟩
    · rw [find_directoryCache hnodup' hentry, find_directoryCache hnodup hold]
    · exact absurd (List.mem_reverse.1 hmem) hnew
  created past call dirname hnodup' hnot hmem' := by
    obtain ⟨entry, hentry, rfl⟩ := mem_keys_directoryCache_iff.1 hmem'
    rcases mem_dirStep (after_ne_nil past) hentry with hold | ⟨rfl, -⟩
    · exact absurd (mem_keys_directoryCache_iff.2 ⟨entry, hold, rfl⟩) hnot
    · exact ⟨_, rfl, find_directoryCache hnodup' hentry⟩

/-! ### What the cache promises -/

theorem pairwise_dirnames (past : List DirCall) :
    (directoryCache.after past).dirnames.Pairwise fun d e =>
      directoryCache.lastUse past e < directoryCache.lastUse past d :=
  List.pairwise_reverse.1 (lawful_directoryCache.pairwise_keys past)

theorem nodup_dirnames (past : List DirCall) : (directoryCache.after past).dirnames.Nodup :=
  List.nodup_reverse.1 (lawful_directoryCache.nodup_keys past)

/-- A directory that is in the last slot is the one that was used least recently. -/
theorem lastUse_lt_of_last {past : List DirCall} {cache : DirectoryCache} {last : DirEntry}
    (hcache : directoryCache.after past = cache ++ [some last]) {dirname : Bytes}
    (hmem : dirname ∈ (directoryCache.after past).dirnames) (hne : dirname ≠ last.dirname) :
    directoryCache.lastUse past last.dirname < directoryCache.lastUse past dirname := by
  have hpairwise := pairwise_dirnames past
  rw [hcache, dirnames_append] at hpairwise hmem
  refine (List.pairwise_append.1 hpairwise).2.2 dirname ?_ _ (by simp)
  exact (List.mem_append.1 hmem).resolve_right (by simpa using hne)

/-- **What becomes of a directory** in a call: it stays, it is invalidated, or an insertion of a new
directory evicts it from the last slot. -/
theorem stays_or_evicted {past : List DirCall} (call : DirCall) {dirname : Bytes}
    (hmem : dirname ∈ (directoryCache.after past).dirnames) :
    dirname ∈ (directoryCache.after (call :: past)).dirnames ∨ call = .invalidate dirname ∨
      ∃ (new : DirEntry) (cache : DirectoryCache) (last : DirEntry),
        call = .insert new.dirname new.size new.contents ∧
        new.dirname ∉ (directoryCache.after past).dirnames ∧
        directoryCache.after past = cache ++ [some last] ∧ last.dirname = dirname := by
  rw [after_cons_dir]
  rcases dirStep_cases (after_ne_nil past) call with ⟨hstep, -⟩ | ⟨new, hcall, hnot, hstep⟩ |
    ⟨a, found, b, hcache, -, ⟨-, hstep⟩ | ⟨rfl, hstep⟩⟩
  · rw [hstep]
    exact .inl hmem
  · have hsplit := (List.dropLast_append_getLast (after_ne_nil past)).symm
    rw [hsplit, dirnames_append] at hmem
    rw [hstep, dirnames_some_cons]
    rcases List.mem_append.1 hmem with hmem | hmem
    · exact .inl (List.mem_cons_of_mem _ hmem)
    · obtain ⟨last, hlast, hname⟩ := mem_dirnames_iff.1 hmem
      rw [← List.mem_singleton.1 hlast] at hsplit
      exact .inr (.inr ⟨new, _, last, hcall, hnot, hsplit, hname⟩)
  · rw [hcache] at hmem
    rw [hstep]
    exact .inl (by simpa [or_left_comm] using hmem)
  · rw [hcache] at hmem
    rw [hstep]
    have hmem : dirname ∈ dirnames a ∨ dirname = found.dirname ∨ dirname ∈ dirnames b := by
      simpa using hmem
    rcases hmem with hmem | rfl | hmem
    · exact .inl (by simp [hmem])
    · exact .inr (.inl rfl)
    · exact .inl (by simp [hmem])

theorem not_mem_dirnames_invalidate (past : List DirCall) (dirname : Bytes) :
    dirname ∉ (directoryCache.after (.invalidate dirname :: past)).dirnames := by
  rw [after_cons_dir]
  have hnodup := nodup_dirnames past
  rcases (directoryCache.after past).invalidate_cases dirname with
    ⟨hnot, hstep⟩ | ⟨a, entry, b, hcache, rfl, ha, hstep⟩
  · rw [dirStep, hstep]
    exact hnot
  · rw [hcache, dirnames_append, dirnames_some_cons, List.nodup_middle, List.nodup_cons] at hnodup
    rw [dirStep, hstep, dirnames_none_cons, dirnames_append]
    exact hnodup.1

/-- A directory that is inserted is in the cache, whether it was there before or not. -/
theorem mem_dirnames_insert (past : List DirCall) (dirname : Bytes) (size : ℤ)
    (contents : List Bytes) :
    dirname ∈ (directoryCache.after (.insert dirname size contents :: past)).dirnames := by
  rw [after_cons_dir]
  rcases dirStep_cases (after_ne_nil past) (.insert dirname size contents) with ⟨-, hnone, -⟩ |
    ⟨new, hcall, -, hstep⟩ | ⟨a, found, b, -, -, ⟨hfound, hstep⟩ | ⟨hcall, -⟩⟩
  · cases hnone
  · obtain ⟨rfl, -, -⟩ := DirCall.insert.inj hcall
    rw [hstep, dirnames_some_cons]
    exact List.mem_cons_self
  · obtain rfl := Option.some.inj hfound
    rw [hstep, dirnames_some_cons]
    exact List.mem_cons_self
  · cases hcall

/-- One of the calls has taken a directory out of the cache. -/
def TakenOut (earlier later : List DirCall) (dirname : Bytes) : Prop :=
  ∃ call l, call :: l <:+ later ∧ dirname ∈ (directoryCache.after (l ++ earlier)).dirnames ∧
    dirname ∉ (directoryCache.after (call :: l ++ earlier)).dirnames

theorem takenOut_of_notMem {earlier later : List DirCall} {dirname : Bytes}
    (hmem : dirname ∈ (directoryCache.after earlier).dirnames)
    (hnot : dirname ∉ (directoryCache.after (later ++ earlier)).dirnames) :
    TakenOut earlier later dirname := by
  induction later with
  | nil => exact absurd hmem hnot
  | cons call later ih =>
      by_cases hstays : dirname ∈ (directoryCache.after (later ++ earlier)).dirnames
      · exact ⟨call, later, List.suffix_refl _, hstays, hnot⟩
      · obtain ⟨call', l, hsuffix, hbefore, hafter⟩ := ih hstays
        exact ⟨call', l, hsuffix.trans (List.suffix_cons call later), hbefore, hafter⟩

theorem lookup_eq_none_iff {cache : DirectoryCache} {dirname : Bytes} :
    (cache.lookupInDirectoryCache dirname).1 = none ↔ dirname ∉ cache.dirnames := by
  rcases cache.lookup_cases dirname with ⟨hnot, hlookup⟩ | ⟨a, entry, b, rfl, rfl, -, hlookup⟩
  · rw [hlookup]
    exact iff_of_true rfl hnot
  · rw [hlookup]
    exact iff_of_false nofun (by simp)

/-- **What the cache promises** after a history of calls, the latest one first, and a further
call. -/
structure RecencyMap (past : List DirCall) (call : DirCall) : Prop where
  distinct : (directoryCache.after (call :: past)).dirnames.Nodup
  /-- The directories are ordered by their last use, the most recent one first. -/
  ordered : (directoryCache.after (call :: past)).dirnames.Pairwise fun d e =>
    directoryCache.lastUse (call :: past) e < directoryCache.lastUse (call :: past) d
  /-- A look-up finds what the insertion that created the entry put there, and nothing without such
  an insertion. -/
  found : ∀ dirname contents size,
    (((directoryCache.after past).lookupInDirectoryCache dirname).1.map fun entry =>
        (entry.contents, entry.size)) = some (contents, size) ↔
      directoryCache.CreatedBy past dirname (contents, size)
  /-- A look-up finds nothing exactly if each insertion of the directory was followed by a call that
  took it out of the cache again. -/
  missing : ∀ dirname, ((directoryCache.after past).lookupInDirectoryCache dirname).1 = none ↔
    ∀ later size contents earlier, past = later ++ .insert dirname size contents :: earlier →
      TakenOut (.insert dirname size contents :: earlier) later dirname
  /-- A directory that is inserted is in the cache. -/
  inserted : ∀ dirname size contents, call = .insert dirname size contents →
    dirname ∈ (directoryCache.after (call :: past)).dirnames
  /-- A directory stays unless it is invalidated or evicted, by an insertion of a new directory and
  as the least recently used one. -/
  stays : ∀ e ∈ (directoryCache.after past).dirnames,
    e ∈ (directoryCache.after (call :: past)).dirnames ∨ call = .invalidate e ∨
      (∃ d size contents, call = .insert d size contents ∧
        d ∉ (directoryCache.after past).dirnames) ∧
        ∀ d ∈ (directoryCache.after past).dirnames, d ≠ e →
          directoryCache.lastUse past e < directoryCache.lastUse past d
  /-- A directory that is invalidated does not stay. -/
  invalidated : ∀ dirname, call = .invalidate dirname →
    dirname ∉ (directoryCache.after (call :: past)).dirnames

/-- **The cache is a map that is ordered by use** and evicts the least recently used directory. -/
theorem recencyMap (past : List DirCall) (call : DirCall) : RecencyMap past call where
  distinct := nodup_dirnames _
  ordered := pairwise_dirnames _
  found dirname contents size :=
    lawful_directoryCache.find_eq_some_iff past dirname (contents, size)
  missing dirname := by
    rw [lookup_eq_none_iff]
    constructor
    · rintro hnot later size contents earlier rfl
      exact takenOut_of_notMem (mem_dirnames_insert earlier dirname size contents) hnot
    · intro htaken hmem
      obtain ⟨entry, hentry, rfl⟩ := mem_dirnames_iff.1 hmem
      have hfind := find_directoryCache (lawful_directoryCache.nodup_keys past) hentry
      obtain ⟨later, call', earlier, rfl, hinserts, -, hkept⟩ :=
        (lawful_directoryCache.find_eq_some_iff past _ _).1 hfind
      cases call' with
      | insert dirname size contents =>
          obtain ⟨rfl, -⟩ := Prod.ext_iff.1 (Option.some.inj hinserts)
          obtain ⟨c, l, hsuffix, -, hout⟩ := htaken later size contents earlier rfl
          exact hout (List.mem_reverse.1 (hkept (c :: l) hsuffix))
      | lookup dirname | invalidate dirname => cases hinserts
  inserted dirname size contents hcall := by
    rw [hcall]
    exact mem_dirnames_insert past dirname size contents
  stays e hmem := by
    rcases stays_or_evicted call hmem with h | h | ⟨new, cache, last, hcall, hnot, hcache, rfl⟩
    · exact .inl h
    · exact .inr (.inl h)
    · exact .inr (.inr ⟨⟨_, _, _, hcall, hnot⟩, fun d hd hne => lastUse_lt_of_last hcache hd hne⟩)
  invalidated dirname hcall := by
    rw [hcall]
    exact not_mem_dirnames_invalidate past dirname

/-! ### The slots that a directory is pushed behind -/

/-- The directories that were used and not invalidated since, the most recently used one first,
whether they are still in the cache or not. -/
def recent : List DirCall → List Bytes
  | [] => []
  | call :: past =>
      match dirUses (directoryCache.after past) call with
      | some dirname => dirname :: (recent past).filter (· ≠ dirname)
      | none =>
          match call with
          | .invalidate dirname => (recent past).filter (· ≠ dirname)
          | _ => recent past

/-- A call invalidates a directory that is in the cache. -/
def invalidates (cache : DirectoryCache) : DirCall → Bool
  | .invalidate dirname => dirname ∈ cache.dirnames
  | _ => false

/-- The number of directories that have been invalidated since the last use of one. -/
def invalidatedSince : List DirCall → Bytes → ℕ
  | [], _ => 0
  | call :: past, dirname =>
      if dirUses (directoryCache.after past) call = some dirname then 0
      else
        invalidatedSince past dirname +
          if invalidates (directoryCache.after past) call then 1 else 0

/-- The slots before the one of a directory, and all slots if it is not in the cache. -/
def front (cache : DirectoryCache) (dirname : Bytes) : DirectoryCache :=
  cache.takeWhile (!holds dirname ·)

theorem recent_of_some {past : List DirCall} {call : DirCall} {dirname : Bytes}
    (h : dirUses (directoryCache.after past) call = some dirname) :
    recent (call :: past) = dirname :: (recent past).filter (· ≠ dirname) := by
  simp only [recent, h]

theorem recent_of_none {past : List DirCall} {call : DirCall}
    (h : dirUses (directoryCache.after past) call = none) :
    recent (call :: past) = recent past ∨
      ∃ dirname, call = .invalidate dirname ∧
        recent (call :: past) = (recent past).filter (· ≠ dirname) := by
  cases call with
  | insert dirname size contents => cases h
  | lookup dirname => exact .inl (by simp only [recent, h])
  | invalidate dirname => exact .inr ⟨dirname, rfl, rfl⟩

theorem takeWhile_filter {α : Type*} {p q : α → Bool} (h : ∀ x, p x = false → q x = true)
    (l : List α) : (l.filter q).takeWhile p = (l.takeWhile p).filter q := by
  induction l with
  | nil => rfl
  | cons x l ih =>
      cases hp : p x with
      | false => simp [h x hp, hp]
      | true => cases hq : q x <;> simp [hp, hq, ih]

/-- Without an element that a test accepts, a run of accepted elements is no longer than with it. -/
theorem takeWhile_sublist_of_append {α : Type*} {p : α → Bool} {x : α} (hx : p x = true)
    (a b : List α) : ((a ++ b).takeWhile p).Sublist ((a ++ x :: b).takeWhile p) := by
  induction a with
  | nil =>
      rw [List.nil_append, List.nil_append, List.takeWhile_cons_of_pos hx]
      exact List.sublist_cons_self _ _
  | cons y a ih =>
      rw [List.cons_append, List.cons_append]
      cases hy : p y with
      | false => simp [hy]
      | true => simpa [hy] using ih

theorem takeWhile_sublist_of_prefix {α : Type*} (p : α → Bool) (a b : List α) :
    (a.takeWhile p).Sublist ((a ++ b).takeWhile p) := by
  induction a with
  | nil => exact List.nil_sublist _
  | cons y a ih =>
      rw [List.cons_append]
      cases hy : p y with
      | false => simp [hy]
      | true => simpa [hy] using ih

theorem length_eq_dirnames_add_count (cache : DirectoryCache) :
    cache.length = cache.dirnames.length + cache.count none := by
  induction cache with
  | nil => rfl
  | cons slot cache ih =>
      cases slot with
      | none =>
          simp only [List.length_cons, dirnames_none_cons, List.count_cons_self]
          omega
      | some entry =>
          simp only [List.length_cons, dirnames_some_cons]
          rw [List.count_cons_of_ne (by simp)]
          omega

theorem front_of_notMem {cache : DirectoryCache} {dirname : Bytes}
    (h : dirname ∉ cache.dirnames) : front cache dirname = cache := by
  refine List.takeWhile_eq_self_iff.2 fun slot hslot => ?_
  rw [Bool.not_eq_true', ← Bool.not_eq_true, holds_eq_true_iff]
  rintro ⟨entry, rfl, hname⟩
  exact h (mem_dirnames_iff.2 ⟨entry, hslot, hname⟩)

/-- The slots that a directory is pushed behind were used or invalidated after it. -/
structure PushedBehind (past : List DirCall) (dirname : Bytes) : Prop where
  before : dirnames (front (directoryCache.after past) dirname) ⊆
    (recent past).takeWhile (· ≠ dirname)
  empty : (front (directoryCache.after past) dirname).count none ≤ invalidatedSince past dirname

theorem front_cons_self {entry : DirEntry} (cache : DirectoryCache) :
    front (some entry :: cache) entry.dirname = [] := by
  simp [front, holds]

theorem front_cons_of_ne {entry : DirEntry} {dirname : Bytes} (h : entry.dirname ≠ dirname)
    (cache : DirectoryCache) :
    front (some entry :: cache) dirname = some entry :: front cache dirname := by
  simp [front, holds, h]

theorem front_none_cons (cache : DirectoryCache) (dirname : Bytes) :
    front (none :: cache) dirname = none :: front cache dirname := by
  simp [front, holds]

theorem dirnames_mono {cache cache' : DirectoryCache} (h : cache.Sublist cache') :
    cache.dirnames ⊆ cache'.dirnames :=
  (h.filterMap _).subset

/-- The directories before one in a list without a further one. -/
theorem mem_takeWhile_filter {keys : List Bytes} {d e x : Bytes} (hx : x ∈ keys.takeWhile (· ≠ d))
    (he : d ≠ e) (hxe : x ≠ e) : x ∈ (keys.filter (· ≠ e)).takeWhile (· ≠ d) := by
  rw [takeWhile_filter (fun y hy => ?_), List.mem_filter]
  · exact ⟨hx, by simpa using hxe⟩
  · have hy : y = d := by simpa using hy
    simpa [hy] using he

/-- A call that does not use a directory and puts a slot before others: this slot is one that was
used or invalidated after the directory, if it holds no other. -/
theorem PushedBehind.cons {past : List DirCall} {call : DirCall} {dirname : Bytes}
    (h : PushedBehind past dirname)
    (huses : dirUses (directoryCache.after past) call ≠ some dirname) {slot : Option DirEntry}
    {rest : DirectoryCache} (hafter : directoryCache.after (call :: past) = slot :: rest)
    (hrest : (front rest dirname).Sublist (front (directoryCache.after past) dirname))
    (hnames : ∀ x ∈ rest.dirnames, x ∈ (recent past).takeWhile (· ≠ dirname) →
      x ∈ (recent (call :: past)).takeWhile (· ≠ dirname))
    (hsome : ∀ entry, slot = some entry → entry.dirname ≠ dirname ∧
      entry.dirname ∈ (recent (call :: past)).takeWhile (· ≠ dirname))
    (hnone : slot = none → invalidates (directoryCache.after past) call = true) :
    PushedBehind (call :: past) dirname := by
  have hrestnames : dirnames (front rest dirname) ⊆
      (recent (call :: past)).takeWhile (· ≠ dirname) := fun x hx =>
    hnames x (dirnames_mono (List.takeWhile_sublist _) hx) (h.before (dirnames_mono hrest hx))
  have hcount := (hrest.count_le none).trans h.empty
  have hsince : invalidatedSince (call :: past) dirname = invalidatedSince past dirname +
      if invalidates (directoryCache.after past) call then 1 else 0 := if_neg huses
  cases slot with
  | none =>
      rw [hnone rfl, if_pos rfl] at hsince
      refine ⟨?_, ?_⟩
      · rw [hafter, front_none_cons, dirnames_none_cons]
        exact hrestnames
      · rw [hafter, front_none_cons, List.count_cons_self, hsince]
        exact Nat.succ_le_succ hcount
  | some entry =>
      obtain ⟨hne, hmem⟩ := hsome entry rfl
      refine ⟨?_, ?_⟩
      · rw [hafter, front_cons_of_ne hne, dirnames_some_cons]
        exact List.cons_subset.2 ⟨hmem, hrestnames⟩
      · rw [hafter, front_cons_of_ne hne, List.count_cons_of_ne (by simp), hsince]
        exact hcount.trans (Nat.le_add_right _ _)

/-- A call that uses another directory puts it before the others. -/
theorem PushedBehind.cons_some {past : List DirCall} {call : DirCall} {dirname : Bytes}
    (ih : dirname ∈ recent past → PushedBehind past dirname)
    (h : dirname ∈ recent (call :: past)) {entry : DirEntry} (hne : entry.dirname ≠ dirname)
    (huses : dirUses (directoryCache.after past) call = some entry.dirname)
    {rest : DirectoryCache} (hafter : directoryCache.after (call :: past) = some entry :: rest)
    (hrest : (front rest dirname).Sublist (front (directoryCache.after past) dirname)) :
    PushedBehind (call :: past) dirname := by
  have hrecent := recent_of_some huses
  rw [hrecent, List.mem_cons, List.mem_filter] at h
  have hnodup := nodup_dirnames (call :: past)
  rw [hafter, dirnames_some_cons, List.nodup_cons] at hnodup
  have hother : dirUses (directoryCache.after past) call ≠ some dirname := by
    rw [huses]
    exact fun heq => hne (Option.some.inj heq)
  have htakeWhile : (recent (call :: past)).takeWhile (· ≠ dirname) =
      entry.dirname :: ((recent past).filter (· ≠ entry.dirname)).takeWhile (· ≠ dirname) := by
    rw [hrecent, List.takeWhile_cons_of_pos (by simpa using hne)]
  refine (ih (h.resolve_left hne.symm).1).cons hother hafter hrest (fun x hx hx' => ?_)
    (fun e he => ?_) (fun hnone => by cases hnone)
  · rw [htakeWhile]
    refine List.mem_cons_of_mem _ (mem_takeWhile_filter hx' hne.symm ?_)
    rintro rfl
    exact hnodup.1 hx
  · obtain rfl := Option.some.inj he
    rw [htakeWhile]
    exact ⟨hne, List.mem_cons_self⟩

theorem pushedBehind_of_uses {past : List DirCall} {call : DirCall} {dirname : Bytes}
    (huses : dirUses (directoryCache.after past) call = some dirname) :
    PushedBehind (call :: past) dirname := by
  have hfront : front (directoryCache.after (call :: past)) dirname = [] := by
    rw [after_cons_dir]
    rcases dirStep_cases (after_ne_nil past) call with ⟨-, hnone, -⟩ |
      ⟨new, rfl, -, hstep⟩ | ⟨a, found, b, -, -, ⟨hfound, hstep⟩ | ⟨rfl, -⟩⟩
    · rw [hnone] at huses
      cases huses
    · obtain rfl := Option.some.inj huses
      rw [hstep, front_cons_self]
    · obtain rfl := Option.some.inj (hfound.symm.trans huses)
      rw [hstep, front_cons_self]
    · cases huses
  exact ⟨by rw [hfront]; exact List.nil_subset _, by rw [hfront]; exact Nat.zero_le _⟩

theorem front_dropLast_sublist {cache : DirectoryCache} (hne : cache ≠ []) (dirname : Bytes) :
    (front cache.dropLast dirname).Sublist (front cache dirname) := by
  have hprefix := takeWhile_sublist_of_prefix (!holds dirname ·) cache.dropLast [cache.getLast hne]
  rwa [List.dropLast_append_getLast] at hprefix

theorem front_erase_sublist {a b : DirectoryCache} {entry : DirEntry} {dirname : Bytes}
    (hne : entry.dirname ≠ dirname) :
    (front (a ++ b) dirname).Sublist (front (a ++ some entry :: b) dirname) :=
  takeWhile_sublist_of_append (by simp [holds, hne]) a b

/-- **The slots that a directory is pushed behind** were used or invalidated after it. -/
theorem pushedBehind (past : List DirCall) (dirname : Bytes) (h : dirname ∈ recent past) :
    PushedBehind past dirname := by
  induction past with
  | nil => cases h
  | cons call past ih =>
      by_cases huses : dirUses (directoryCache.after past) call = some dirname
      · exact pushedBehind_of_uses huses
      · rcases dirStep_cases (after_ne_nil past) call with ⟨hstep, hnone, hmiss⟩ |
          ⟨new, rfl, hnot, hstep⟩ | ⟨a, found, b, hcache, -, ⟨hfound, hstep⟩ | ⟨rfl, hstep⟩⟩
        · have hsince : invalidatedSince past dirname ≤
              invalidatedSince (call :: past) dirname := by
            rw [invalidatedSince, if_neg huses]
            exact Nat.le_add_right _ _
          rcases recent_of_none hnone with hrecent | ⟨d, rfl, hrecent⟩
          · rw [hrecent] at h
            refine ⟨?_, ?_⟩
            · rw [after_cons_dir, hstep, hrecent]
              exact (ih h).before
            · rw [after_cons_dir, hstep]
              exact (ih h).empty.trans hsince
          · rw [hrecent, List.mem_filter] at h
            refine ⟨fun x hx => ?_, ?_⟩
            · rw [after_cons_dir, hstep] at hx
              rw [hrecent]
              refine mem_takeWhile_filter ((ih h.1).before hx) (by simpa using h.2) ?_
              rintro rfl
              exact hmiss x rfl (dirnames_mono (List.takeWhile_sublist _) hx)
            · rw [after_cons_dir, hstep]
              exact (ih h.1).empty.trans hsince
        · have hne : new.dirname ≠ dirname := fun heq => huses (congrArg some heq)
          exact .cons_some ih h hne rfl hstep (front_dropLast_sublist (after_ne_nil past) dirname)
        · have hne : found.dirname ≠ dirname := fun heq => huses (heq ▸ hfound)
          refine .cons_some ih h hne hfound hstep ?_
          rw [hcache]
          exact front_erase_sublist hne
        · have hrecent : recent (.invalidate found.dirname :: past) =
              (recent past).filter (· ≠ found.dirname) := rfl
          rw [hrecent, List.mem_filter] at h
          have hne : dirname ≠ found.dirname := by simpa using h.2
          have hnodup := nodup_dirnames (.invalidate found.dirname :: past)
          refine (ih h.1).cons huses hstep ?_ (fun x hx hx' => ?_) (fun e he => by cases he)
            fun _ => ?_
          · rw [hcache]
            exact front_erase_sublist hne.symm
          · rw [hrecent]
            refine mem_takeWhile_filter hx' hne ?_
            rintro rfl
            refine not_mem_dirnames_invalidate past found.dirname ?_
            rwa [after_cons_dir, hstep, dirnames_none_cons]
          · rw [invalidates, hcache]
            simp

/-! ### The capacity of the cache -/

theorem mem_recent_of_mem_dirnames {past : List DirCall} {dirname : Bytes}
    (h : dirname ∈ (directoryCache.after past).dirnames) : dirname ∈ recent past := by
  induction past with
  | nil => cases h
  | cons call past ih =>
      have hbefore : (∃ size contents, call = .insert dirname size contents) ∨
          dirname ∈ recent past := by
        obtain ⟨entry, hentry, rfl⟩ := mem_dirnames_iff.1 h
        rcases mem_dirStep (after_ne_nil past) hentry with hold | ⟨hcall, -⟩
        · exact .inr (ih (mem_dirnames_iff.2 ⟨entry, hold, rfl⟩))
        · exact .inl ⟨_, _, hcall⟩
      rcases hbefore with ⟨size, contents, rfl⟩ | hbefore
      · rw [recent_of_some rfl]
        exact List.mem_cons_self
      · cases huses : dirUses (directoryCache.after past) call with
        | some used =>
            rw [recent_of_some huses, List.mem_cons, List.mem_filter]
            by_cases heq : dirname = used
            · exact .inl heq
            · exact .inr ⟨hbefore, by simpa using heq⟩
        | none =>
            rcases recent_of_none huses with hrecent | ⟨d, rfl, hrecent⟩
            · rwa [hrecent]
            · rw [hrecent, List.mem_filter]
              refine ⟨hbefore, ?_⟩
              simp only [ne_eq, decide_not, Bool.not_eq_true', decide_eq_false_iff_not]
              rintro rfl
              exact not_mem_dirnames_invalidate past dirname h

/-- The number of directories that have been used since the last use of one, and not invalidated. -/
def usedSince (past : List DirCall) (dirname : Bytes) : ℕ :=
  ((recent past).takeWhile (· ≠ dirname)).length

/-- A directory is behind no more slots than directories have been used or invalidated since. -/
theorem length_front_le {past : List DirCall} {dirname : Bytes} (h : dirname ∈ recent past) :
    (front (directoryCache.after past) dirname).length ≤
      usedSince past dirname + invalidatedSince past dirname := by
  obtain ⟨hbefore, hempty⟩ := pushedBehind past dirname h
  have hnodup : (front (directoryCache.after past) dirname).dirnames.Nodup :=
    (nodup_dirnames past).sublist ((List.takeWhile_sublist _).filterMap _)
  have hlength := (List.subperm_of_subset hnodup hbefore).length_le
  rw [length_eq_dirnames_add_count]
  exact Nat.add_le_add hlength hempty

/-- **How the cache uses its slots.**  An insertion of a new directory evicts one only if the slots
are taken by directories in the cache and by ones that have been invalidated since the last use of
the one that is evicted; so a directory is found until as many others have been used or
invalidated. -/
structure UsesCapacity (past : List DirCall) : Prop where
  evicts : ∀ d size contents e, d ∉ (directoryCache.after past).dirnames →
    e ∈ (directoryCache.after past).dirnames →
    e ∉ (directoryCache.after (.insert d size contents :: past)).dirnames →
      dirCacheSize ≤ (directoryCache.after past).dirnames.length + invalidatedSince past e
  found : ∀ d ∈ recent past, usedSince past d + invalidatedSince past d < dirCacheSize →
    ((directoryCache.after past).lookupInDirectoryCache d).1.isSome

end AwsS3fs
