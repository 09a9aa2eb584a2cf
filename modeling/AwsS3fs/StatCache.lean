/-
**The cache of file information.**

`statcache.c` keeps entries with a file name in a hash table of `uthash`, which also remembers the
order in which they were added.  A search that finds an entry deletes it and adds it again, so the
entry that was used least recently comes first, and that is where `TruncateCache` expires entries.

Main definitions:

* `AwsS3fs.StatCache` — the hash table;
* `AwsS3fs.StatCache.searchStatEntry`, `AwsS3fs.StatCache.deleteStatEntry`,
  `AwsS3fs.StatCache.truncateCache`, `AwsS3fs.StatCache.insertCacheElement` — the functions of
  `statcache.c`;
* `AwsS3fs.statCache` — the cache as one that is ordered by use;
* `AwsS3fs.LruMap` — what the cache promises.

Main results:

* `AwsS3fs.StatCache.truncateCache_eq_drop` — entries expire from the front;
* `AwsS3fs.lawful_statCache` — one call;
* `AwsS3fs.lruMap` — **the cache is a map that expires the least recently used entries**.
-/

import AwsS3fs.Lib.Bytes
import AwsS3fs.Lib.Recency
import AwsS3fs.Lib.Threads

set_option relaxedAutoImplicit false
set_option autoImplicit false

namespace AwsS3fs

open CLib Recency

/-! ### The functions of the cache -/

/-- `struct StatCacheEntry`. -/
structure StatCacheEntry (δ : Type*) where
  filename : Bytes
  data : δ

/-- The hash table, in the order in which the entries were added. -/
abbrev StatCache (δ : Type*) := List (StatCacheEntry δ)

/-- `MAX_STAT_CACHE_SIZE`. -/
def maxStatCacheSize : ℕ := 2000

namespace StatCache

variable {δ : Type*}

/-- The file names in the table. -/
def filenames (cache : StatCache δ) : List Bytes := cache.map (·.filename)

/-- `HASH_FIND_STR`. -/
def findStr (cache : StatCache δ) (filename : Bytes) : Option (StatCacheEntry δ) :=
  cache.find? (·.filename = filename)

/-- `HASH_DELETE` of the entry with a name. -/
def delete (cache : StatCache δ) (filename : Bytes) : StatCache δ :=
  cache.filter (·.filename ≠ filename)

/-- `SearchStatEntry`: the data that was found, and the table afterwards. -/
def searchStatEntry (cache : StatCache δ) (filename : Bytes) : Option δ × StatCache δ :=
  match cache.findStr filename with
  | none => (none, cache)
  | some entry => (some entry.data, cache.delete entry.filename ++ [entry])

/-- `DeleteStatEntry`. -/
def deleteStatEntry (cache : StatCache δ) (filename : Bytes) : StatCache δ :=
  match cache.findStr filename with
  | none => cache
  | some entry => cache.delete entry.filename

/-- The loop of `TruncateCache`. -/
def expire (toDelete : ℤ) : ℤ → StatCache δ → StatCache δ
  | _, [] => []
  | numberDeleted, _ :: cache =>
      if numberDeleted + 1 = toDelete then cache else expire toDelete (numberDeleted + 1) cache

/-- `TruncateCache`, with `MAX_STAT_CACHE_SIZE` as `max`. -/
def truncateCache (max : ℕ) (cache : StatCache δ) (truncateTo : ℤ) : StatCache δ :=
  let cacheSize := wrapInt cache.length
  let toDelete :=
    if truncateTo ≠ -1 then wrapInt (cacheSize - truncateTo) else wrapInt (cacheSize - max)
  if 0 < toDelete then expire toDelete 0 cache else cache

/-- A write through a pointer to the data under a name. -/
def update (cache : StatCache δ) (filename : Bytes) (write : δ → δ) : StatCache δ :=
  cache.map fun entry =>
    if entry.filename = filename then { entry with data := write entry.data } else entry

/-- `InsertCacheElement`. -/
def insertCacheElement (max : ℕ) (cache : StatCache δ) (filename : Bytes) (data : δ) :
    StatCache δ :=
  match cache.findStr filename with
  | none => truncateCache max (cache ++ [⟨filename, data⟩]) (-1)
  | some _ => truncateCache max cache (-1)

/-! ### What is found -/

theorem findStr_eq_none_iff {cache : StatCache δ} {filename : Bytes} :
    cache.findStr filename = none ↔ filename ∉ cache.filenames := by
  simp [findStr, filenames]

theorem mem_filenames_iff {cache : StatCache δ} {filename : Bytes} :
    filename ∈ cache.filenames ↔ ∃ data, (⟨filename, data⟩ : StatCacheEntry δ) ∈ cache := by
  simp only [filenames, List.mem_map]
  constructor
  · rintro ⟨⟨_, data⟩, hmem, rfl⟩
    exact ⟨data, hmem⟩
  · rintro ⟨data, hmem⟩
    exact ⟨_, hmem, rfl⟩

/-- With different names, an entry is found by its name. -/
theorem findStr_eq_some_iff {cache : StatCache δ} (h : cache.filenames.Nodup) {filename : Bytes}
    {entry : StatCacheEntry δ} :
    cache.findStr filename = some entry ↔ entry ∈ cache ∧ entry.filename = filename :=
  Threads.find?_key_eq_some_iff h

theorem filename_of_findStr {cache : StatCache δ} {filename : Bytes} {entry : StatCacheEntry δ}
    (h : cache.findStr filename = some entry) : entry.filename = filename := by
  simpa using List.find?_some h

theorem mem_filenames_of_findStr {cache : StatCache δ} {filename : Bytes} {entry : StatCacheEntry δ}
    (h : cache.findStr filename = some entry) : filename ∈ cache.filenames := by
  by_contra hnot
  rw [findStr_eq_none_iff.2 hnot] at h
  cases h

theorem filenames_delete (cache : StatCache δ) (filename : Bytes) :
    (cache.delete filename).filenames = cache.filenames.filter (· ≠ filename) := by
  rw [filenames, delete, filenames, List.filter_map]
  rfl

/-! ### What expires -/

theorem expire_suffix (toDelete : ℤ) (cache : StatCache δ) :
    ∀ numberDeleted, expire toDelete numberDeleted cache <:+ cache := by
  induction cache with
  | nil => exact fun _ => List.suffix_rfl
  | cons entry cache ih =>
      intro numberDeleted
      rw [expire]
      split
      · exact List.suffix_cons _ _
      · exact (ih _).trans (List.suffix_cons _ _)

/-- The loop deletes as many entries as it is to delete. -/
theorem expire_eq_drop (n : ℕ) (cache : StatCache δ) :
    ∀ numberDeleted, expire (numberDeleted + n + 1) numberDeleted cache = cache.drop (n + 1) := by
  induction cache generalizing n with
  | nil => exact fun _ => rfl
  | cons entry cache ih =>
      intro numberDeleted
      rw [expire]
      cases n with
      | zero => simp
      | succ n =>
          rw [if_neg (by omega), List.drop_succ_cons, ← ih n (numberDeleted + 1)]
          congr 1
          push_cast
          ring

theorem truncateCache_suffix (max : ℕ) (cache : StatCache δ) (truncateTo : ℤ) :
    truncateCache max cache truncateTo <:+ cache := by
  obtain ⟨toDelete, h⟩ : ∃ toDelete, truncateCache max cache truncateTo =
      if 0 < toDelete then expire toDelete 0 cache else cache := ⟨_, rfl⟩
  rw [h]
  split
  · exact expire_suffix _ cache 0
  · exact List.suffix_rfl

/-- The number of entries that remain. -/
def limit (max : ℕ) (truncateTo : ℤ) : ℕ := if truncateTo = -1 then max else truncateTo.toNat

/-- **Entries expire from the front**, and no more than needed. -/
theorem truncateCache_eq_drop {max : ℕ} {cache : StatCache δ} {truncateTo : ℤ}
    (hmax : max < 2 ^ 31) (hlength : cache.length < limit max truncateTo + 2 ^ 31)
    (ht : truncateTo = -1 ∨ 0 ≤ truncateTo ∧ truncateTo < 2 ^ 31) :
    truncateCache max cache truncateTo = cache.drop (cache.length - limit max truncateTo) := by
  have hbound : limit max truncateTo < 2 ^ 31 := by
    rw [limit]
    split <;> omega
  have hto : (if truncateTo ≠ -1 then wrapInt (wrapInt cache.length - truncateTo)
      else wrapInt (wrapInt cache.length - max)) =
      (cache.length : ℤ) - limit max truncateTo := by
    have hwrap : ∀ x : ℤ, wrapInt (wrapInt cache.length - x) = wrapInt (cache.length - x) :=
      fun x => Int.bmod_sub_bmod
    rw [limit] at hlength ⊢
    rw [hwrap, hwrap]
    by_cases h : truncateTo = -1
    · rw [if_pos h] at hlength
      rw [if_neg (not_not.2 h), if_pos h]
      exact Int.bmod_eq_of_le (by omega) (by omega)
    · rw [if_neg h] at hlength
      rw [if_pos h, if_neg h, Int.toNat_of_nonneg (by omega)]
      exact Int.bmod_eq_of_le (by omega) (by omega)
  simp only [truncateCache, hto]
  rcases Nat.lt_or_ge (limit max truncateTo) cache.length with hlt | hge
  · obtain ⟨n, hn⟩ := Nat.exists_eq_add_of_lt hlt
    have hn' : (cache.length : ℤ) - limit max truncateTo = 0 + n + 1 := by omega
    have hdrop : cache.length - limit max truncateTo = n + 1 := by omega
    rw [if_pos (by omega), hn', expire_eq_drop, hdrop]
  · rw [if_neg (by omega), Nat.sub_eq_zero_of_le hge, List.drop_zero]

/-! ### A table with distinct names -/

/-- A search changes the order and nothing else. -/
theorem perm_searchStatEntry {cache : StatCache δ} (h : cache.filenames.Nodup) (filename : Bytes) :
    (cache.searchStatEntry filename).2.Perm cache := by
  rw [searchStatEntry]
  split
  · exact List.Perm.refl _
  · rename_i entry hfind
    obtain ⟨hmem, hname⟩ := (findStr_eq_some_iff h).1 hfind
    have hsame : cache.filter (fun e => !decide (e.filename ≠ entry.filename)) = [entry] := by
      have hnodup : (cache.filter fun e => !decide (e.filename ≠ entry.filename)).Nodup :=
        (List.Nodup.of_map _ h).filter _
      refine List.perm_singleton.1 ((List.perm_ext_iff_of_nodup hnodup (by simp)).2 fun e => ?_)
      simp only [List.mem_filter, List.mem_singleton]
      constructor
      · rintro ⟨he, hsame⟩
        have hsame' : e.filename = filename := by simpa [hname] using hsame
        have hfind' := (findStr_eq_some_iff h).2 ⟨he, hsame'⟩
        exact Option.some.inj (hfind'.symm.trans hfind)
      · rintro rfl
        exact ⟨hmem, by simp⟩
    rw [delete, ← hsame]
    exact List.filter_append_perm _ _

/-- What is found does not depend on the order. -/
theorem findStr_eq_of_perm {cache cache' : StatCache δ} (h : cache.filenames.Nodup)
    (hperm : cache'.Perm cache) (filename : Bytes) :
    cache'.findStr filename = cache.findStr filename := by
  have h' : cache'.filenames.Nodup := (hperm.map _).nodup_iff.2 h
  ext entry
  rw [findStr_eq_some_iff h, findStr_eq_some_iff h', hperm.mem_iff]

/-- The names are distinct, and the table is not larger than it may be. -/
structure WellFormed (max : ℕ) (cache : StatCache δ) : Prop where
  distinct : cache.filenames.Nodup
  length_le : cache.length ≤ max

theorem wellFormed_nil (max : ℕ) : WellFormed max ([] : StatCache δ) :=
  ⟨List.nodup_nil, Nat.zero_le max⟩

theorem WellFormed.search {max : ℕ} {cache : StatCache δ} (h : WellFormed max cache)
    (filename : Bytes) : WellFormed max (cache.searchStatEntry filename).2 := by
  have hperm := perm_searchStatEntry h.distinct filename
  exact ⟨(hperm.map _).nodup_iff.2 h.distinct, hperm.length_eq.trans_le h.length_le⟩

theorem findStr_searchStatEntry {cache : StatCache δ} (h : cache.filenames.Nodup)
    (filename g : Bytes) : (cache.searchStatEntry filename).2.findStr g = cache.findStr g :=
  findStr_eq_of_perm h (perm_searchStatEntry h filename) g

theorem findStr_delete (cache : StatCache δ) (filename g : Bytes) :
    (cache.delete filename).findStr g = if g = filename then none else cache.findStr g := by
  rw [delete, findStr, List.find?_filter, findStr]
  split
  · rename_i hg
    rw [List.find?_eq_none]
    intro entry _
    simp [hg]
  · rename_i hg
    congr 1
    funext entry
    by_cases hentry : entry.filename = g
    · simp [hentry, hg]
    · simp [hentry]

theorem findStr_deleteStatEntry (cache : StatCache δ) (filename g : Bytes) :
    (cache.deleteStatEntry filename).findStr g = if g = filename then none else cache.findStr g := by
  rw [deleteStatEntry]
  split
  · rename_i hnone
    split
    · rename_i hg
      rw [hg, hnone]
    · rfl
  · rename_i entry hentry
    rw [filename_of_findStr hentry, findStr_delete]

theorem WellFormed.deleteStatEntry {max : ℕ} {cache : StatCache δ} (h : WellFormed max cache)
    (filename : Bytes) : WellFormed max (cache.deleteStatEntry filename) := by
  rw [StatCache.deleteStatEntry]
  split
  · exact h
  · rename_i entry _
    have hsub : (cache.delete entry.filename).Sublist cache := List.filter_sublist
    exact ⟨h.distinct.sublist (hsub.map _), hsub.length_le.trans h.length_le⟩

theorem length_deleteStatEntry_lt {cache : StatCache δ} {filename : Bytes}
    (h : filename ∈ cache.filenames) : (cache.deleteStatEntry filename).length < cache.length := by
  obtain ⟨data, hmem⟩ := mem_filenames_iff.1 h
  rw [deleteStatEntry]
  split
  · rename_i hnone
    exact absurd h (findStr_eq_none_iff.1 hnone)
  · rename_i entry hentry
    rw [filename_of_findStr hentry]
    exact List.length_filter_lt_length_iff_exists.2 ⟨_, hmem, by simp⟩

theorem filenames_update (cache : StatCache δ) (filename : Bytes) (write : δ → δ) :
    (cache.update filename write).filenames = cache.filenames := by
  rw [filenames, update, List.map_map, filenames]
  refine List.map_congr_left fun entry _ => ?_
  rw [Function.comp_apply]
  split <;> rfl

theorem WellFormed.update {max : ℕ} {cache : StatCache δ} (h : WellFormed max cache)
    (filename : Bytes) (write : δ → δ) : WellFormed max (cache.update filename write) := by
  refine ⟨(filenames_update cache filename write).symm ▸ h.distinct, ?_⟩
  rw [StatCache.update, List.length_map]
  exact h.length_le

theorem findStr_update (cache : StatCache δ) (filename : Bytes) (write : δ → δ) (g : Bytes) :
    (cache.update filename write).findStr g =
      if g = filename then (cache.findStr g).map fun entry => { entry with data := write entry.data }
      else cache.findStr g := by
  have hname : ((fun entry : StatCacheEntry δ => decide (entry.filename = g)) ∘ fun entry =>
      if entry.filename = filename then { entry with data := write entry.data } else entry) =
      fun entry => decide (entry.filename = g) := by
    funext entry
    rw [Function.comp_apply]
    split <;> rfl
  rw [findStr, StatCache.update, List.find?_map, hname, ← findStr]
  cases hfind : cache.findStr g with
  | none => simp
  | some entry =>
      have hg := filename_of_findStr hfind
      simp only [Option.map_some, hg]
      split <;> rfl

section Insert

variable {max : ℕ} {cache : StatCache δ} {filename : Bytes}

/-- A new entry comes last, and the first one expires if the table is full. -/
theorem insertCacheElement_eq (hpos : 0 < max) (hmax : max < 2 ^ 31) (hlength : cache.length ≤ max)
    (h : cache.findStr filename = none) (data : δ) :
    cache.insertCacheElement max filename data =
      cache.drop (cache.length + 1 - max) ++ [(⟨filename, data⟩ : StatCacheEntry δ)] := by
  have hlimit : limit max (-1) = max := if_pos rfl
  have hlast : (cache ++ [(⟨filename, data⟩ : StatCacheEntry δ)]).length = cache.length + 1 :=
    List.length_append
  simp only [insertCacheElement, h]
  rw [truncateCache_eq_drop hmax (by omega) (.inl rfl), hlimit, hlast,
    List.drop_append_of_le_length (by omega)]

theorem WellFormed.insert (hpos : 0 < max) (hmax : max < 2 ^ 31) (hw : WellFormed max cache)
    (h : cache.findStr filename = none) (data : δ) :
    WellFormed max (cache.insertCacheElement max filename data) := by
  rw [insertCacheElement_eq hpos hmax hw.length_le h]
  have hsub : (filenames (cache.drop (cache.length + 1 - max))).Sublist cache.filenames :=
    (List.drop_sublist _ _).map _
  constructor
  · rw [filenames, List.map_append, ← filenames]
    refine List.nodup_append.2 ⟨hw.distinct.sublist hsub, List.nodup_singleton _, ?_⟩
    rintro g hg g' hg' rfl
    obtain rfl : g = filename := List.mem_singleton.1 hg'
    exact findStr_eq_none_iff.1 h (hsub.subset hg)
  · have hle := hw.length_le
    rw [List.length_append, List.length_drop, List.length_singleton]
    omega

/-- **What is found after a new entry was added**: it and the other entries, but not the one that
expired. -/
theorem findStr_insertCacheElement (hpos : 0 < max) (hmax : max < 2 ^ 31) (hw : WellFormed max cache)
    (h : cache.findStr filename = none) (data : δ) (g : Bytes) :
    (cache.insertCacheElement max filename data).findStr g =
      if g = filename then some ⟨filename, data⟩
      else findStr (cache.drop (cache.length + 1 - max)) g := by
  rw [insertCacheElement_eq hpos hmax hw.length_le h, findStr, List.find?_append, ← findStr]
  split
  · rename_i hg
    subst hg
    have hnone : findStr (cache.drop (cache.length + 1 - max)) g = none :=
      findStr_eq_none_iff.2 fun hmem =>
        findStr_eq_none_iff.1 h (((List.drop_sublist _ _).map _).subset hmem)
    rw [hnone]
    simp
  · rename_i hg
    have hnone : [(⟨filename, data⟩ : StatCacheEntry δ)].find? (·.filename = g) = none := by
      simp [Ne.symm hg]
    rw [hnone, Option.or_none]

/-- What expired is not found, and the other entries are found as before. -/
theorem findStr_drop (hdistinct : cache.filenames.Nodup) (n : ℕ) (g : Bytes) :
    findStr (cache.drop n) g =
      if (findStr (cache.take n) g).isSome then none else cache.findStr g := by
  have hsplit : cache.findStr g = (findStr (cache.take n) g).or (findStr (cache.drop n) g) := by
    rw [findStr, ← List.take_append_drop n cache, List.find?_append]
    simp [findStr]
  cases htake : findStr (cache.take n) g with
  | none => simp [hsplit, htake]
  | some entry =>
      have hnot : g ∉ filenames (cache.drop n) := by
        intro hmem
        rw [← List.take_append_drop n cache, filenames, List.map_append] at hdistinct
        exact (List.nodup_append.1 hdistinct).2.2 g (mem_filenames_of_findStr htake) g hmem rfl
      rw [findStr_eq_none_iff.2 hnot]
      simp

end Insert

end StatCache

/-! ### The cache over time -/

/-- A call of the cache.  `TruncateCache` is called with `-1` or a size. -/
inductive StatCall (δ : Type*)
  | insert (filename : Bytes) (data : δ)
  | search (filename : Bytes)
  | delete (filename : Bytes)
  | truncate (truncateTo : { t : ℤ // t = -1 ∨ 0 ≤ t ∧ t < 2 ^ 31 })

section Calls

open StatCache

variable {δ : Type*}

/-- The number of entries that a call leaves at most, if it expires any. -/
def StatCall.limit? (max : ℕ) : StatCall δ → Option ℕ
  | .insert _ _ => some max
  | .truncate t => some (limit max t)
  | _ => none

/-- The table after a call. -/
def statStep (max : ℕ) (cache : StatCache δ) : StatCall δ → StatCache δ
  | .insert filename data => cache.insertCacheElement max filename data
  | .search filename => (cache.searchStatEntry filename).2
  | .delete filename => cache.deleteStatEntry filename
  | .truncate t => cache.truncateCache max t

/-- The name that a call uses: a new one that it inserts, or one that it finds. -/
def statUses (cache : StatCache δ) : StatCall δ → Option Bytes
  | .insert filename _ => if (cache.findStr filename).isSome then none else some filename
  | .search filename => if (cache.findStr filename).isSome then some filename else none
  | _ => none

/-- The cache as one that is ordered by use. -/
def statCache (δ : Type*) (max : ℕ) : Cache (StatCache δ) (StatCall δ) Bytes δ where
  init := []
  step := statStep max
  keys := filenames
  find cache filename := (cache.findStr filename).map (·.data)
  uses := statUses
  inserts
    | .insert filename data => some (filename, data)
    | _ => none

/-- The entries after a call: those that were there, and a new one. -/
theorem mem_statStep {max : ℕ} {cache : StatCache δ} {call : StatCall δ} {entry : StatCacheEntry δ}
    (h : entry ∈ statStep max cache call) :
    entry ∈ cache ∨
      call = .insert entry.filename entry.data ∧ entry.filename ∉ cache.filenames := by
  cases call with
  | insert filename data =>
      simp only [statStep, insertCacheElement] at h
      split at h
      · rename_i hnone
        rcases List.mem_append.1 ((truncateCache_suffix _ _ _).subset h) with h | h
        · exact .inl h
        · obtain rfl := List.mem_singleton.1 h
          exact .inr ⟨rfl, findStr_eq_none_iff.1 hnone⟩
      · exact .inl ((truncateCache_suffix _ _ _).subset h)
  | search filename =>
      simp only [statStep, searchStatEntry] at h
      split at h
      · exact .inl h
      · rename_i found hfound
        rcases List.mem_append.1 h with h | h
        · exact .inl (List.mem_of_mem_filter h)
        · rw [List.mem_singleton.1 h]
          exact .inl (List.mem_of_find?_eq_some hfound)
  | delete filename =>
      simp only [statStep, deleteStatEntry] at h
      split at h
      · exact .inl h
      · exact .inl (List.mem_of_mem_filter h)
  | truncate t => exact .inl ((truncateCache_suffix _ _ _).subset h)

/-- What a call expires, it expires from the candidates. -/
theorem filenames_statStep (max : ℕ) (past : List (StatCall δ)) (call : StatCall δ) :
    (filenames ((statCache δ max).after (call :: past))).Sublist
      ((statCache δ max).candidates past call) := by
  set cache := (statCache δ max).after past with hcache
  have hafter : (statCache δ max).after (call :: past) = statStep max cache call := rfl
  simp only [Cache.candidates, hafter, ← hcache]
  cases call with
  | insert filename data =>
      simp only [statStep, insertCacheElement, statCache, statUses]
      cases hfind : cache.findStr filename with
      | none =>
          have hnot := findStr_eq_none_iff.1 hfind
          rw [if_neg (by simp)]
          have hfilter := filter_ne_of_notMem hnot
          simp only [hfilter]
          refine ((truncateCache_suffix _ _ _).sublist.map _).trans ?_
          rw [List.map_append]
          exact List.Sublist.refl _
      | some entry =>
          rw [if_pos (by simp)]
          exact (truncateCache_suffix _ _ _).sublist.map _
  | search filename =>
      simp only [statStep, searchStatEntry, statCache, statUses]
      cases hfind : cache.findStr filename with
      | none =>
          rw [if_neg (by simp)]
      | some entry =>
          have hname := filename_of_findStr hfind
          rw [if_pos (by simp)]
          simp only [filenames, List.map_append, List.map_cons, List.map_nil, hname]
          rw [← filenames, filenames_delete]
          exact List.Sublist.refl _
  | delete filename =>
      simp only [statStep, deleteStatEntry, statCache, statUses]
      split
      · exact List.Sublist.refl _
      · exact List.filter_sublist.map _
  | truncate t =>
      simp only [statStep, statCache, statUses]
      exact (truncateCache_suffix _ _ _).sublist.map _

/-- One call. -/
theorem lawful_statCache (max : ℕ) : (statCache δ max).Lawful where
  init := rfl
  sublist past call _ := filenames_statStep max past call
  mem_of_find past filename data h := by
    obtain ⟨entry, hentry, -⟩ := Option.map_eq_some_iff.1 h
    exact mem_filenames_of_findStr hentry
  kept past call filename hnodup hnodup' hmem hmem' := by
    obtain ⟨data, hentry⟩ := mem_filenames_iff.1 hmem'
    have hfind := (findStr_eq_some_iff hnodup').2 ⟨hentry, rfl⟩
    rcases mem_statStep hentry with hold | ⟨-, hnew⟩
    · have hfind' := (findStr_eq_some_iff hnodup).2 ⟨hold, rfl⟩
      exact congrArg (Option.map _) (hfind.trans hfind'.symm)
    · exact absurd hmem hnew
  created past call filename hnodup' hnot hmem' := by
    obtain ⟨data, hentry⟩ := mem_filenames_iff.1 hmem'
    have hfind := (findStr_eq_some_iff hnodup').2 ⟨hentry, rfl⟩
    rcases mem_statStep hentry with hold | ⟨hcall, -⟩
    · exact absurd (mem_filenames_iff.2 ⟨data, hold⟩) hnot
    · exact ⟨data, by rw [hcall]; rfl, congrArg (Option.map _) hfind⟩

/-- What a call expires are the first candidates, and no more than needed. -/
theorem filenames_statStep_eq_drop {max : ℕ} (hmax : max < 2 ^ 31 - 1) {past : List (StatCall δ)}
    (hlength : ((statCache δ max).after past).length ≤ max) {call : StatCall δ} {n : ℕ}
    (hn : call.limit? max = some n) :
    filenames ((statCache δ max).after (call :: past)) =
      ((statCache δ max).candidates past call).drop
        (((statCache δ max).candidates past call).length - n) := by
  set cache := (statCache δ max).after past with hcache
  have hafter : (statCache δ max).after (call :: past) = statStep max cache call := rfl
  simp only [Cache.candidates, hafter, ← hcache]
  cases call with
  | insert filename data =>
      obtain rfl := Option.some.inj hn
      simp only [statStep, insertCacheElement, statCache, statUses]
      cases hfind : cache.findStr filename with
      | none =>
          have hnot := findStr_eq_none_iff.1 hfind
          have hfilter := filter_ne_of_notMem hnot
          rw [if_neg (by simp)]
          simp only [hfilter]
          rw [truncateCache_eq_drop (by omega) (by rw [List.length_append]; simp; omega) (.inl rfl)]
          simp [filenames, limit, List.map_drop]
      | some entry =>
          rw [if_pos (by simp)]
          simp only []
          rw [truncateCache_eq_drop (by omega) (by omega) (.inl rfl)]
          simp [filenames, limit, List.map_drop]
  | truncate t =>
      obtain rfl := Option.some.inj hn
      simp only [statStep, statCache, statUses]
      rw [truncateCache_eq_drop (by omega) (by omega) t.2]
      simp [filenames, List.map_drop]
  | search filename => cases hn
  | delete filename => cases hn

/-- A call that inserts nothing adds no name. -/
theorem filenames_statStep_subset {max : ℕ} {cache : StatCache δ} {call : StatCall δ}
    (h : ∀ filename data, call ≠ .insert filename data) :
    (statStep max cache call).filenames ⊆ cache.filenames := by
  intro filename hmem
  obtain ⟨data, hentry⟩ := mem_filenames_iff.1 hmem
  rcases mem_statStep hentry with hold | ⟨hcall, -⟩
  · exact mem_filenames_iff.2 ⟨data, hold⟩
  · exact absurd hcall (h filename data)

theorem length_after_le {max : ℕ} (hmax : max < 2 ^ 31 - 1) (past : List (StatCall δ)) :
    ((statCache δ max).after past).length ≤ max := by
  induction past with
  | nil => exact Nat.zero_le max
  | cons call past ih =>
      by_cases hcall : ∃ filename data, call = .insert filename data
      · obtain ⟨filename, data, rfl⟩ := hcall
        have hlimit : (StatCall.insert filename data).limit? max = some max := rfl
        have hdrop := congrArg List.length (filenames_statStep_eq_drop hmax ih hlimit)
        rw [filenames, List.length_map, List.length_drop] at hdrop
        omega
      · push Not at hcall
        have hnodup := (lawful_statCache max).nodup_keys (call :: past)
        have hle : (filenames ((statCache δ max).after (call :: past))).length ≤
            (filenames ((statCache δ max).after past)).length :=
          (List.subperm_of_subset hnodup (filenames_statStep_subset hcall)).length_le
        rw [filenames, filenames, List.length_map, List.length_map] at hle
        exact hle.trans ih

/-- **What the cache promises** after a history of calls, the latest one first, and a further
call. -/
structure LruMap (max : ℕ) (past : List (StatCall δ)) (call : StatCall δ) : Prop where
  /-- The file names are distinct. -/
  distinct : (filenames ((statCache δ max).after (call :: past))).Nodup
  insert_le : ∀ filename data, call = .insert filename data →
    ((statCache δ max).after (call :: past)).length ≤ max
  truncate_le : ∀ t, call = .truncate t → 0 ≤ t.1 →
    (((statCache δ max).after (call :: past)).length : ℤ) ≤ t.1
  /-- The entries are ordered by their last use. -/
  ordered : (filenames ((statCache δ max).after (call :: past))).Pairwise fun f g =>
    (statCache δ max).lastUse (call :: past) f < (statCache δ max).lastUse (call :: past) g
  /-- An insertion and a truncation expire the least recently used entries, and no more than
  needed. -/
  expires : ∀ n, call.limit? max = some n →
    ExpiresOldest ((statCache δ max).lastUse (call :: past)) n
      ((statCache δ max).candidates past call)
      (filenames ((statCache δ max).after (call :: past)))
  /-- A search expires nothing. -/
  search_keeps : ∀ filename, call = .search filename → ∀ g,
    g ∈ filenames ((statCache δ max).after (call :: past)) ↔
      g ∈ filenames ((statCache δ max).after past)
  /-- A deletion removes the entry and nothing else. -/
  delete_keeps : ∀ filename, call = .delete filename → ∀ g,
    g ∈ filenames ((statCache δ max).after (call :: past)) ↔
      g ∈ filenames ((statCache δ max).after past) ∧ g ≠ filename
  /-- A search finds the data of the insertion that created the entry. -/
  found : ∀ filename data,
    (searchStatEntry ((statCache δ max).after past) filename).1 = some data ↔
      (statCache δ max).CreatedBy past filename data

theorem searchStatEntry_fst (cache : StatCache δ) (filename : Bytes) :
    (cache.searchStatEntry filename).1 = (cache.findStr filename).map (·.data) := by
  rw [searchStatEntry]
  split
  · rename_i h
    rw [h]
    rfl
  · rename_i h
    rw [h]
    rfl

theorem mem_filenames_searchStatEntry (cache : StatCache δ) (filename g : Bytes) :
    g ∈ (cache.searchStatEntry filename).2.filenames ↔ g ∈ cache.filenames := by
  rw [searchStatEntry]
  split
  · rfl
  · rename_i entry h
    have hmem := mem_filenames_of_findStr h
    have hname := filename_of_findStr h
    rw [filenames, List.map_append, ← filenames, filenames_delete, hname]
    by_cases hg : g = filename <;> simp [hg, hmem, hname]

theorem mem_filenames_deleteStatEntry (cache : StatCache δ) (filename g : Bytes) :
    g ∈ (cache.deleteStatEntry filename).filenames ↔ g ∈ cache.filenames ∧ g ≠ filename := by
  rw [deleteStatEntry]
  split
  · rename_i h
    refine ⟨fun hg => ⟨hg, fun heq => ?_⟩, And.left⟩
    exact findStr_eq_none_iff.1 h (heq ▸ hg)
  · rename_i entry h
    rw [filenames_delete, filename_of_findStr h, List.mem_filter]
    simp

theorem lruMap_of_lt {max : ℕ} (hmax : max < 2 ^ 31 - 1) (past : List (StatCall δ))
    (call : StatCall δ) : LruMap max past call where
  distinct := (lawful_statCache max).nodup_keys _
  insert_le _ _ _ := length_after_le hmax _
  truncate_le t hcall ht := by
    have hn : call.limit? max = some (limit max t) := by rw [hcall]; rfl
    have hdrop := congrArg List.length
      (filenames_statStep_eq_drop hmax (length_after_le hmax past) hn)
    have hlimit : limit max t = t.1.toNat := if_neg (by omega)
    rw [filenames, List.length_map, List.length_drop] at hdrop
    omega
  ordered := (lawful_statCache max).pairwise_keys _
  expires n hn := by
    rw [filenames_statStep_eq_drop hmax (length_after_le hmax past) hn]
    exact expiresOldest_drop n
      (Cache.pairwise_candidates call ((lawful_statCache max).pairwise_keys past))
  search_keeps filename hcall g := by
    rw [hcall]
    exact mem_filenames_searchStatEntry _ filename g
  delete_keeps filename hcall g := by
    rw [hcall]
    exact mem_filenames_deleteStatEntry _ filename g
  found filename data := by
    rw [searchStatEntry_fst]
    exact (lawful_statCache max).find_eq_some_iff past filename data

/-- **The cache is a map that expires the least recently used entries.** -/
theorem lruMap (past : List (StatCall δ)) (call : StatCall δ) :
    LruMap maxStatCacheSize past call :=
  lruMap_of_lt (by decide) past call

end Calls

end AwsS3fs
