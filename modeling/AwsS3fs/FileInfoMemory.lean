/-
**The memory of the file information.**

The cache of file information keeps pointers.  `S3FileStat` (`s3if.c`) allocates a structure for a
file, `InsertCacheElement` (`statcache.c`) puts the pointer into the table together with the
function that frees the structure, and whatever drops an entry calls this function.  The pointer is
also handed to the caller of `S3FileStat`, which reads and writes the structure after the mutex of
the caches has been unlocked, when other threads may be at work on the table.

A step is what one thread does while it holds the mutex, or one use of a pointer that was handed
out.  An operation on memory that is not in use is an error.

Main definitions:

* `AwsS3fs.FileInfo`, `AwsS3fs.FileInfos` — a structure, and the table with the memory behind its
  pointers;
* `AwsS3fs.FileInfos.fileStat`, `AwsS3fs.FileInfos.createLink`, … — what is done under the mutex;
* `AwsS3fs.InfoSection`, `AwsS3fs.FileInfos.step` — the steps;
* `AwsS3fs.InfoMemory.Owned`, `AwsS3fs.FileInfos.WellKept` — who is to free what;
* `AwsS3fs.FileInfos.cache` — what the table has to say.

Main results:

* `AwsS3fs.FileInfos.WellKept.perform` — what one step does;
* `AwsS3fs.FileInfos.memory_safe` — **nothing is freed twice, and nothing is lost**;
* `AwsS3fs.FileInfos.cacheStep_of_step` — the table says what the cache without pointers does.
-/

import AwsS3fs.Lib.Allocations
import AwsS3fs.Lib.Runs
import AwsS3fs.MountFiles

set_option relaxedAutoImplicit false
set_option autoImplicit false

namespace AwsS3fs

open CLib Allocations Runs StatCache

/-! ### Structures and the table of pointers -/

/-- `struct S3FileInfo`: what is known of the file and the descriptor of its local copy, or nothing
if `filenotfound` is set, and the pointer to the target of a symbolic link. -/
structure FileInfo where
  file : Option (S3FileInfo × ℤ)
  symlinkTarget : Option ℕ
  deriving DecidableEq

/-- The structures, and the strings that they point to. -/
structure InfoMemory where
  infos : Heap FileInfo
  targets : Heap Bytes

/-- The table, and the memory behind its pointers. -/
structure FileInfos where
  table : StatCache ℕ
  memory : InfoMemory

namespace InfoMemory

/-- The target of a structure is freed. -/
def freeTarget (memory : InfoMemory) (fi : FileInfo) : Except HeapFault (Heap Bytes) :=
  match fi.symlinkTarget with
  | none => .ok memory.targets
  | some symlinkTarget => memory.targets.free symlinkTarget

/-- `DeleteS3FileInfoStructure`. -/
def deleteS3FileInfoStructure (memory : InfoMemory) (toDelete : ℕ) :
    Except HeapFault InfoMemory := do
  let fi ← memory.infos.read toDelete
  let targets ← memory.freeTarget fi
  let infos ← memory.infos.free toDelete
  return ⟨infos, targets⟩

end InfoMemory

namespace FileInfos

/-- Nothing has been looked up. -/
def empty : FileInfos := ⟨[], .empty, .empty⟩

/-! ### The functions of the cache -/

/-- `DeleteStatEntry`. -/
def deleteStatEntry (s : FileInfos) (filename : Bytes) : Except HeapFault FileInfos :=
  match s.table.findStr filename with
  | none => .ok s
  | some entry => do
      let memory ← s.memory.deleteS3FileInfoStructure entry.data
      return ⟨s.table.delete entry.filename, memory⟩

/-- The loop of `TruncateCache`. -/
def expire (toDelete : ℤ) : ℤ → StatCache ℕ → InfoMemory → Except HeapFault FileInfos
  | _, [], memory => .ok ⟨[], memory⟩
  | numberDeleted, entry :: table, memory => do
      let memory ← memory.deleteS3FileInfoStructure entry.data
      if numberDeleted + 1 = toDelete then return ⟨table, memory⟩
      else expire toDelete (numberDeleted + 1) table memory

/-- `TruncateCache`. -/
def truncateCache (max : ℕ) (s : FileInfos) (truncateTo : ℤ) : Except HeapFault FileInfos :=
  let cacheSize := wrapInt s.table.length
  let toDelete :=
    if truncateTo ≠ -1 then wrapInt (cacheSize - truncateTo) else wrapInt (cacheSize - max)
  if 0 < toDelete then expire toDelete 0 s.table s.memory else .ok s

/-- `InsertCacheElement` with a pointer to a structure. -/
def insertCacheElement (max : ℕ) (s : FileInfos) (filename : Bytes) (data : ℕ) :
    Except HeapFault FileInfos :=
  match s.table.findStr filename with
  | none => truncateCache max ⟨s.table ++ [⟨filename, data⟩], s.memory⟩ (-1)
  | some _ => truncateCache max s (-1)

/-- A new structure, and its pointer. -/
def allocateInfo (s : FileInfos) (fi : FileInfo) : FileInfos × ℕ :=
  (⟨s.table, (s.memory.infos.allocate fi).1, s.memory.targets⟩, (s.memory.infos.allocate fi).2)

/-- `strdup` of a target, and its pointer. -/
def allocateTarget (s : FileInfos) (target : Bytes) : FileInfos × ℕ :=
  (⟨s.table, s.memory.infos, (s.memory.targets.allocate target).1⟩,
    (s.memory.targets.allocate target).2)

/-- A structure is overwritten. -/
def write (s : FileInfos) (n : ℕ) (fi : FileInfo) : Except HeapFault FileInfos := do
  let infos ← s.memory.infos.write n fi
  return ⟨s.table, infos, s.memory.targets⟩

/-! ### What is done under the mutex, and with the pointers -/

/-- The cache miss in `S3FileStat`.  What `S3GetFileStat` allocates and frees again is left out. -/
def resolveMiss (max : ℕ) (w : StatWorld) (s : FileInfos) (filename : Bytes) :
    Except HeapFault (Option ℕ × FileInfos) := do
  let found := (missFileStat w filename).toOption
  let allocated := s.allocateInfo ⟨found.map fun info => (info, -1), none⟩
  let s ← allocated.1.insertCacheElement max filename allocated.2
  -- `statonly` is set through the pointer
  let _ ← s.memory.infos.read allocated.2
  return (found.map fun _ => allocated.2, s)

/-- `S3FileStat`, with the pointer that it stores unless it returns an error. -/
def fileStat (max : ℕ) (w : StatWorld) (s : FileInfos) (file : Bytes) :
    Except HeapFault (Option ℕ × FileInfos) :=
  let filename := normalizePath file
  if isS3DirectoryFile <:+ filename then .ok (none, s)
  else
    match s.table.findStr filename with
    | none => s.resolveMiss max w filename
    | some entry => do
        let fi ← s.memory.infos.read entry.data
        return (fi.file.map fun _ => entry.data,
          ⟨(s.table.searchStatEntry filename).2, s.memory⟩)

/-- What `S3CreateLink` does for the link `linkname` to `path`: the new structure takes the place of
the old one. -/
def createLink (max : ℕ) (s : FileInfos) (linkname path : Bytes) (fi : S3FileInfo) (unsetFd : ℤ) :
    Except HeapFault FileInfos := do
  let target := s.allocateTarget path
  let allocated := target.1.allocateInfo ⟨some (fi, unsetFd), some target.2⟩
  let s ← allocated.1.deleteStatEntry linkname
  s.insertCacheElement max linkname allocated.2

/-- What `S3Mkdir` does: a structure that is there is overwritten with `memcpy`. -/
def mkdir (s : FileInfos) (cleanName : Bytes) (newFi : S3FileInfo) : Except HeapFault FileInfos :=
  match s.table.searchStatEntry cleanName with
  | (none, table) => .ok ⟨table, s.memory⟩
  | (some oldFi, table) => write ⟨table, s.memory⟩ oldFi ⟨some (newFi, 0), none⟩

/-- Members are read through a pointer, and with `strdup` the target. -/
def read (s : FileInfos) (fi : ℕ) : Except HeapFault (FileInfo × Option Bytes) := do
  let info ← s.memory.infos.read fi
  match info.symlinkTarget with
  | none => return (info, none)
  | some symlinkTarget => do
      let target ← s.memory.targets.read symlinkTarget
      return (info, some target)

/-- Members are assigned through a pointer, as in `S3Chmod`, `S3ReadFile` and `S3FileClose`. -/
def assign (s : FileInfos) (fi : ℕ) (file : S3FileInfo × ℤ) : Except HeapFault FileInfos := do
  let old ← s.memory.infos.read fi
  s.write fi ⟨some file, old.symlinkTarget⟩

/-- `S3ReadLink` stores a copy of the target. -/
def keepTarget (s : FileInfos) (fi : ℕ) (linkContents : Bytes) : Except HeapFault FileInfos := do
  let old ← s.memory.infos.read fi
  let target := s.allocateTarget linkContents
  target.1.write fi ⟨old.file, some target.2⟩

end FileInfos

/-- What a thread does: with the caches locked, or through a pointer that `S3FileStat` has
stored. -/
inductive InfoSection
  | fileStat (w : StatWorld) (file : Bytes)
  | createLink (linkname path : Bytes) (fi : S3FileInfo) (unsetFd : ℤ)
  | mkdir (cleanName : Bytes) (newFi : S3FileInfo)
  /-- `S3Unlink` and `S3Rmdir`. -/
  | deleteFile (cleanName : Bytes)
  /-- `S3Destroy`. -/
  | destroy
  | read (fi : ℕ)
  | assign (fi : ℕ) (file : S3FileInfo × ℤ)
  | keepTarget (fi : ℕ) (linkContents : Bytes)

/-- The pointer that is used without the mutex. -/
def InfoSection.pointer : InfoSection → Option ℕ
  | .read fi | .assign fi _ | .keepTarget fi _ => some fi
  | _ => none

namespace FileInfos

/-- What comes of a step. -/
def perform (max : ℕ) (s : FileInfos) : InfoSection → Except HeapFault FileInfos
  | .fileStat w file => (s.fileStat max w file).map (·.2)
  | .createLink linkname path fi unsetFd => s.createLink max linkname path fi unsetFd
  | .mkdir cleanName newFi => s.mkdir cleanName newFi
  | .deleteFile cleanName => s.deleteStatEntry cleanName
  | .destroy => s.truncateCache max 0
  | .read fi => (s.read fi).map fun _ => s
  | .assign fi file => s.assign fi file
  | .keepTarget fi linkContents => s.keepTarget fi linkContents

/-- A step, which is not possible if it is an error. -/
def step (max : ℕ) (s : FileInfos) (a : InfoSection) : Option FileInfos :=
  (s.perform max a).toOption

/-- The pointers in the table. -/
def pointers (s : FileInfos) : List ℕ := s.table.map (·.data)

theorem data_mem_pointers {s : FileInfos} {entry : StatCacheEntry ℕ} (h : entry ∈ s.table) :
    entry.data ∈ s.pointers := List.mem_map.2 ⟨entry, h, rfl⟩

end FileInfos

/-! ### Who is to free what -/

namespace InfoMemory

/-- The target that a structure points to, if there is one. -/
def target (memory : InfoMemory) (n : ℕ) : List ℕ :=
  ((memory.infos.contents[n]?).bind (·.symlinkTarget)).toList

/-- The structures are all that are in use, and each of their targets belongs to one of them. -/
structure Owned (memory : InfoMemory) (ns : List ℕ) : Prop where
  infos : Holds memory.infos ns
  noLeak : NoLeak memory.infos ns
  targets : Holds memory.targets (ns.flatMap memory.target)

/-- No other target is in use. -/
def NoTargetLeak (memory : InfoMemory) (ns : List ℕ) : Prop :=
  NoLeak memory.targets (ns.flatMap memory.target)

/-- Some structures have been freed, each with its target. -/
structure Freed (memory : InfoMemory) (ns : List ℕ) (memory' : InfoMemory) (ns' : List ℕ) :
    Prop where
  infos : memory'.infos.contents = memory.infos.contents
  targets : memory'.targets.contents = memory.targets.contents
  owned : Owned memory' ns'
  noTargetLeak : NoTargetLeak memory ns → NoTargetLeak memory' ns'

variable {memory memory' memory'' : InfoMemory} {n : ℕ} {ns ns' ns'' : List ℕ}

theorem Owned.freed (h : Owned memory ns) : Freed memory ns memory ns := ⟨rfl, rfl, h, id⟩

theorem Freed.trans (h : Freed memory ns memory' ns') (h' : Freed memory' ns' memory'' ns'') :
    Freed memory ns memory'' ns'' where
  infos := h'.infos.trans h.infos
  targets := h'.targets.trans h.targets
  owned := h'.owned
  noTargetLeak hleak := h'.noTargetLeak (h.noTargetLeak hleak)

theorem Owned.perm (h : Owned memory ns) (hperm : ns.Perm ns') : Owned memory ns' where
  infos := h.infos.perm hperm
  noLeak := h.noLeak.perm hperm
  targets := h.targets.perm (hperm.flatMap_right _)

theorem NoTargetLeak.perm (h : NoTargetLeak memory ns) (hperm : ns.Perm ns') :
    NoTargetLeak memory ns' := NoLeak.perm h (hperm.flatMap_right _)

theorem Freed.perm (h : Freed memory ns memory' ns') {ms ms' : List ℕ} (hperm : ms.Perm ns)
    (hperm' : ns'.Perm ms') : Freed memory ms memory' ms' where
  infos := h.infos
  targets := h.targets
  owned := h.owned.perm hperm'
  noTargetLeak hleak := (h.noTargetLeak (hleak.perm hperm)).perm hperm'

/-- The targets belong to structures, whatever becomes of the other structures. -/
theorem flatMap_target_eq (h : memory'.infos.contents = memory.infos.contents) (ns : List ℕ) :
    ns.flatMap memory'.target = ns.flatMap memory.target := by
  have htarget : memory'.target = memory.target := funext fun n => by rw [target, target, h]
  rw [htarget]

theorem exists_freeTarget {fi : FileInfo} {ts : List ℕ}
    (h : Holds memory.targets (fi.symlinkTarget.toList ++ ts)) :
    ∃ targets, memory.freeTarget fi = .ok targets ∧
      targets.contents = memory.targets.contents ∧ Holds targets ts ∧
      (NoLeak memory.targets (fi.symlinkTarget.toList ++ ts) → NoLeak targets ts) := by
  rw [freeTarget]
  cases htarget : fi.symlinkTarget with
  | none =>
      rw [htarget] at h
      exact ⟨_, rfl, rfl, h, id⟩
  | some symlinkTarget =>
      rw [htarget] at h
      exact h.exists_free_eq_ok

/-- **What is owned can be freed**, once. -/
theorem Owned.exists_delete (h : Owned memory (n :: ns)) :
    ∃ memory', memory.deleteS3FileInfoStructure n = .ok memory' ∧
      Freed memory (n :: ns) memory' ns := by
  obtain ⟨fi, hfi⟩ := exists_read_eq_ok (h.infos.live n List.mem_cons_self)
  have hsplit : (n :: ns).flatMap memory.target =
      fi.symlinkTarget.toList ++ ns.flatMap memory.target := by
    rw [List.flatMap_cons, target, (read_eq_ok_iff.1 hfi).2, Option.bind_some]
  obtain ⟨infos, hfree, hinfos, hholds, hleak⟩ := h.infos.exists_free_eq_ok
  obtain ⟨targets, hfree', hcontents, hholds', hleak'⟩ := exists_freeTarget (hsplit ▸ h.targets)
  have hsame := @flatMap_target_eq memory ⟨infos, targets⟩ hinfos ns
  refine ⟨⟨infos, targets⟩, ?_, hinfos, hcontents, ⟨hholds, hleak h.noLeak, ?_⟩, fun hnone => ?_⟩
  · rw [deleteS3FileInfoStructure, hfi, ok_bind, hfree', ok_bind, hfree, ok_bind]
    rfl
  · rw [hsame]
    exact hholds'
  · rw [NoTargetLeak, hsame]
    rw [NoTargetLeak, hsplit] at hnone
    exact hleak' hnone

/-- What is not freed keeps its target when a structure is allocated. -/
theorem flatMap_target_allocate (h : Holds memory.infos ns) (fi : FileInfo)
    (targets : Heap Bytes) :
    (ns ++ [(memory.infos.allocate fi).2]).flatMap
        (target ⟨(memory.infos.allocate fi).1, targets⟩) =
      ns.flatMap memory.target ++ fi.symlinkTarget.toList := by
  have hold : ns.flatMap (target ⟨(memory.infos.allocate fi).1, targets⟩) =
      ns.flatMap memory.target := by
    refine List.flatMap_congr fun n hn => ?_
    rw [target, target, contents_allocate_of_live (h.live n hn)]
  rw [List.flatMap_append, hold, List.flatMap_singleton, target, contents_allocate,
    Option.bind_some]

/-- **A new structure** with a target that belongs to no other one. -/
theorem Owned.allocateInfo (h : Owned memory ns) {fi : FileInfo}
    (htargets : Holds memory.targets (ns.flatMap memory.target ++ fi.symlinkTarget.toList)) :
    Owned ⟨(memory.infos.allocate fi).1, memory.targets⟩
      (ns ++ [(memory.infos.allocate fi).2]) where
  infos := h.infos.allocate fi
  noLeak := h.noLeak.allocate fi
  targets := by
    rw [flatMap_target_allocate h.infos]
    exact htargets

theorem noTargetLeak_allocateInfo (h : Owned memory ns) {fi : FileInfo}
    (hleak : NoLeak memory.targets (ns.flatMap memory.target ++ fi.symlinkTarget.toList)) :
    NoTargetLeak ⟨(memory.infos.allocate fi).1, memory.targets⟩
      (ns ++ [(memory.infos.allocate fi).2]) := by
  rw [NoTargetLeak, flatMap_target_allocate h.infos]
  exact hleak

/-- A new target, which does not belong to a structure yet. -/
theorem Owned.allocateTarget (h : Owned memory ns) (text : Bytes) :
    Owned ⟨memory.infos, (memory.targets.allocate text).1⟩ ns where
  infos := h.infos
  noLeak := h.noLeak
  targets := (h.targets.allocate text).sublist (List.sublist_append_left _ _)

/-- **A structure is overwritten**: what matters is the target that it points to afterwards. -/
theorem Owned.exists_write (h : Owned memory (n :: ns)) {fi : FileInfo}
    (htargets : Holds memory.targets (fi.symlinkTarget.toList ++ ns.flatMap memory.target)) :
    ∃ infos, memory.infos.write n fi = .ok infos ∧
      (∀ m, infos.contents[m]? = if m = n then some fi else memory.infos.contents[m]?) ∧
      infos.contents.length = memory.infos.contents.length ∧
      Owned ⟨infos, memory.targets⟩ (n :: ns) ∧
      (NoLeak memory.targets (fi.symlinkTarget.toList ++ ns.flatMap memory.target) →
        NoTargetLeak ⟨infos, memory.targets⟩ (n :: ns)) := by
  obtain ⟨infos, hwrite, hlive, hcontents, hlength⟩ :=
    exists_write_eq_ok (h.infos.live n List.mem_cons_self) fi
  have hflat : (n :: ns).flatMap (target ⟨infos, memory.targets⟩) =
      fi.symlinkTarget.toList ++ ns.flatMap memory.target := by
    rw [List.flatMap_cons, target, hcontents, if_pos rfl, Option.bind_some]
    refine congrArg _ (List.flatMap_congr fun m hm => ?_)
    have hne : m ≠ n := by
      rintro rfl
      exact (List.nodup_cons.1 h.infos.distinct).1 hm
    rw [target, target, hcontents, if_neg hne]
  refine ⟨infos, hwrite, hcontents, hlength,
    ⟨⟨h.infos.distinct, fun m hm => ?_⟩, fun m hm => ?_, ?_⟩, ?_⟩
  · exact (hlive m).2 (h.infos.live m hm)
  · exact h.noLeak m ((hlive m).1 hm)
  · rw [hflat]
    exact htargets
  · intro hleak
    rw [NoTargetLeak, hflat]
    exact hleak

end InfoMemory

/-! ### The functions of the cache free what they drop -/

namespace FileInfos

open InfoMemory

variable {max : ℕ} {s s' : FileInfos} {filename : Bytes}

/-- The entries that expire are freed, one after the other. -/
theorem exists_expire (toDelete : ℤ) (table : StatCache ℕ) :
    ∀ (numberDeleted : ℤ) (memory : InfoMemory), Owned memory (table.map (·.data)) →
      ∃ s', expire toDelete numberDeleted table memory = .ok s' ∧
        s'.table = StatCache.expire toDelete numberDeleted table ∧
        Freed memory (table.map (·.data)) s'.memory s'.pointers := by
  induction table with
  | nil => exact fun _ memory h => ⟨⟨[], memory⟩, rfl, rfl, h.freed⟩
  | cons entry table ih =>
      intro numberDeleted memory h
      obtain ⟨memory', hdelete, hfreed⟩ := h.exists_delete
      rw [expire, hdelete, ok_bind, StatCache.expire]
      split
      · exact ⟨⟨table, memory'⟩, rfl, rfl, hfreed⟩
      · obtain ⟨s', hexpire, htable, hfreed'⟩ := ih (numberDeleted + 1) memory' hfreed.owned
        exact ⟨s', hexpire, htable, hfreed.trans hfreed'⟩

theorem exists_truncateCache (h : Owned s.memory s.pointers) (max : ℕ) (truncateTo : ℤ) :
    ∃ s', s.truncateCache max truncateTo = .ok s' ∧
      s'.table = s.table.truncateCache max truncateTo ∧
      Freed s.memory s.pointers s'.memory s'.pointers := by
  obtain ⟨toDelete, hinfos, htable⟩ : ∃ toDelete : ℤ,
      s.truncateCache max truncateTo =
        (if 0 < toDelete then expire toDelete 0 s.table s.memory else .ok s) ∧
      s.table.truncateCache max truncateTo =
        if 0 < toDelete then StatCache.expire toDelete 0 s.table else s.table := ⟨_, rfl, rfl⟩
  rw [hinfos, htable]
  by_cases hpos : 0 < toDelete
  · rw [if_pos hpos, if_pos hpos]
    exact exists_expire toDelete s.table 0 s.memory h
  · rw [if_neg hpos, if_neg hpos]
    exact ⟨s, rfl, rfl, h.freed⟩

/-- An insertion takes over the pointer. -/
theorem exists_insertCacheElement (hfind : s.table.findStr filename = none) {n : ℕ}
    (h : Owned s.memory (s.pointers ++ [n])) (max : ℕ) :
    ∃ s', s.insertCacheElement max filename n = .ok s' ∧
      s'.table = s.table.insertCacheElement max filename n ∧
      Freed s.memory (s.pointers ++ [n]) s'.memory s'.pointers := by
  have hpointers : pointers ⟨s.table ++ [⟨filename, n⟩], s.memory⟩ = s.pointers ++ [n] :=
    List.map_append
  have htruncate := @exists_truncateCache ⟨s.table ++ [⟨filename, n⟩], s.memory⟩
    (hpointers ▸ h) max (-1)
  rw [hpointers] at htruncate
  simp only [insertCacheElement, StatCache.insertCacheElement, hfind]
  exact htruncate

/-- A deletion frees the structure of the entry, and no other one. -/
theorem exists_deleteStatEntry (hdistinct : s.table.filenames.Nodup) {others : List ℕ}
    (h : Owned s.memory (s.pointers ++ others)) (filename : Bytes) :
    ∃ s', s.deleteStatEntry filename = .ok s' ∧
      s'.table = s.table.deleteStatEntry filename ∧
      Freed s.memory (s.pointers ++ others) s'.memory (s'.pointers ++ others) := by
  rw [deleteStatEntry, StatCache.deleteStatEntry]
  cases hfind : s.table.findStr filename with
  | none => exact ⟨s, rfl, rfl, h.freed⟩
  | some entry =>
      have hperm : (s.pointers ++ others).Perm
          (entry.data :: ((s.table.delete entry.filename).map (·.data) ++ others)) := by
        have hsearch := perm_searchStatEntry hdistinct filename
        rw [searchStatEntry, hfind] at hsearch
        have hmap := (hsearch.map (·.data)).symm.append_right others
        rw [List.map_append, List.append_assoc] at hmap
        exact hmap.trans List.perm_middle
      obtain ⟨memory', hdelete, hfreed⟩ := (h.perm hperm).exists_delete
      refine ⟨⟨s.table.delete entry.filename, memory'⟩, ?_, rfl,
        hfreed.perm hperm (List.Perm.refl _)⟩
      simp only []
      rw [hdelete, ok_bind]
      rfl

end FileInfos

/-! ### What the table says -/

namespace InfoMemory

variable {memory memory' : InfoMemory} {n : ℕ} {ns ns' : List ℕ}

/-- What a pointer points to, in the words of the cache without pointers. -/
def value (memory : InfoMemory) (n : ℕ) : MountData :=
  (memory.infos.contents[n]?).bind fun fi => fi.file.map fun file =>
    ⟨file.1, fi.symlinkTarget.bind fun symlinkTarget => memory.targets.contents[symlinkTarget]?,
      file.2⟩

theorem Freed.value_eq (h : Freed memory ns memory' ns') : memory'.value = memory.value := by
  funext n
  rw [value, value, h.infos, h.targets]

theorem value_allocateInfo_of_live (h : memory.infos.Live n) (fi : FileInfo) :
    value ⟨(memory.infos.allocate fi).1, memory.targets⟩ n = memory.value n := by
  rw [value, value, contents_allocate_of_live h]

theorem value_allocateInfo (memory : InfoMemory) (fi : FileInfo) :
    value ⟨(memory.infos.allocate fi).1, memory.targets⟩ (memory.infos.allocate fi).2 =
      fi.file.map fun file => ⟨file.1,
        fi.symlinkTarget.bind fun symlinkTarget => memory.targets.contents[symlinkTarget]?,
        file.2⟩ := by
  rw [value, contents_allocate, Option.bind_some]

/-- The targets of the structures are not overwritten. -/
theorem value_allocateTarget (h : Owned memory ns) (hn : n ∈ ns) (text : Bytes) :
    value ⟨memory.infos, (memory.targets.allocate text).1⟩ n = memory.value n := by
  obtain ⟨fi, hfi⟩ := contents_eq_some_of_live (h.infos.live n hn)
  rw [value, value, hfi, Option.bind_some, Option.bind_some]
  cases htarget : fi.symlinkTarget with
  | none => rfl
  | some symlinkTarget =>
      have hmem : symlinkTarget ∈ ns.flatMap memory.target := by
        refine List.mem_flatMap.2 ⟨n, hn, ?_⟩
        rw [target, hfi, Option.bind_some, htarget]
        exact List.mem_singleton_self symlinkTarget
      rw [Option.bind_some, Option.bind_some,
        contents_allocate_of_live (h.targets.live symlinkTarget hmem)]

end InfoMemory

namespace StatCache

variable {δ ε : Type*}

theorem mapData_congr {cache : StatCache δ} {g g' : δ → ε}
    (h : ∀ entry ∈ cache, g entry.data = g' entry.data) : cache.mapData g = cache.mapData g' :=
  List.map_congr_left fun entry hentry => by rw [h entry hentry]

theorem deleteStatEntry_mapData (cache : StatCache δ) (g : δ → ε) (filename : Bytes) :
    (cache.mapData g).deleteStatEntry filename = (cache.deleteStatEntry filename).mapData g := by
  simp only [deleteStatEntry, findStr_mapData]
  cases cache.findStr filename with
  | none => rfl
  | some entry => exact delete_mapData cache entry.filename

/-- A write through the pointer of an entry is a write to the entry. -/
theorem mapData_eq_update {table : StatCache ℕ} (hnames : table.filenames.Nodup)
    (hdata : (table.map (·.data)).Nodup) {entry : StatCacheEntry ℕ} (hentry : entry ∈ table)
    {g g' : ℕ → δ} {write : δ → δ} (hg : g' entry.data = write (g entry.data))
    (hother : ∀ n, n ≠ entry.data → g' n = g n) :
    table.mapData g' = (table.mapData g).update entry.filename write := by
  rw [mapData, mapData, update, List.map_map]
  refine List.map_congr_left fun other h => ?_
  rw [Function.comp_apply]
  by_cases hname : other.filename = entry.filename
  · obtain rfl : other = entry := List.inj_on_of_nodup_map hnames h hentry hname
    rw [if_pos rfl, hg]
  · have hne : other.data ≠ entry.data := by
      intro heq
      obtain rfl : other = entry := List.inj_on_of_nodup_map hdata h hentry heq
      exact hname rfl
    rw [if_neg hname, hother _ hne]

end StatCache

namespace FileInfos

open InfoMemory

/-- The table with what its pointers point to. -/
def cache (s : FileInfos) : StatCache MountData := s.table.mapData s.memory.value

/-- What a step does to a cache without pointers. -/
inductive CacheStep (max : ℕ) (s : FileInfos) : InfoSection → StatCache MountData → Prop
  | fileStat {w : StatWorld} {file : Bytes} :
      CacheStep max s (.fileStat w file) (mountFileStat max w s.cache file).2
  | createLink {linkname path : Bytes} {fi : S3FileInfo} {unsetFd : ℤ} :
      CacheStep max s (.createLink linkname path fi unsetFd)
        ((s.cache.deleteStatEntry linkname).insertCacheElement max linkname
          (some ⟨fi, some path, unsetFd⟩))
  | mkdir {cleanName : Bytes} {newFi : S3FileInfo} :
      CacheStep max s (.mkdir cleanName newFi)
        ((s.cache.searchStatEntry cleanName).2.update cleanName fun _ => some ⟨newFi, none, 0⟩)
  | deleteFile {cleanName : Bytes} :
      CacheStep max s (.deleteFile cleanName) (s.cache.deleteStatEntry cleanName)
  | destroy : CacheStep max s .destroy (s.cache.truncateCache max 0)
  | read {fi : ℕ} : CacheStep max s (.read fi) s.cache
  | assign {entry : StatCacheEntry ℕ} {f : MountFile} {file : S3FileInfo × ℤ}
      (hentry : entry ∈ s.table) (hf : s.memory.value entry.data = some f) :
      CacheStep max s (.assign entry.data file) (s.cache.update entry.filename fun _ =>
        some { f with info := file.1, localFd := file.2 })
  | keepTarget {entry : StatCacheEntry ℕ} {f : MountFile} {linkContents : Bytes}
      (hentry : entry ∈ s.table) (hf : s.memory.value entry.data = some f) :
      CacheStep max s (.keepTarget entry.data linkContents) (s.cache.update entry.filename fun _ =>
        some { f with symlinkTarget := some linkContents })

/-- What a step does to the table. -/
inductive TableStep (max : ℕ) (table : StatCache ℕ) : InfoSection → StatCache ℕ → Prop
  | secret {w : StatWorld} {file : Bytes} (h : isS3DirectoryFile <:+ normalizePath file) :
      TableStep max table (.fileStat w file) table
  | hit {w : StatWorld} {file : Bytes} (h : ¬ isS3DirectoryFile <:+ normalizePath file)
      (hfind : table.findStr (normalizePath file) ≠ none) :
      TableStep max table (.fileStat w file) (table.searchStatEntry (normalizePath file)).2
  | miss {w : StatWorld} {file : Bytes} {n : ℕ} (h : ¬ isS3DirectoryFile <:+ normalizePath file)
      (hfind : table.findStr (normalizePath file) = none) (hn : n ∉ table.map (·.data)) :
      TableStep max table (.fileStat w file) (table.insertCacheElement max (normalizePath file) n)
  | createLink {linkname path : Bytes} {fi : S3FileInfo} {unsetFd : ℤ} {n : ℕ}
      (hn : n ∉ table.map (·.data)) :
      TableStep max table (.createLink linkname path fi unsetFd)
        ((table.deleteStatEntry linkname).insertCacheElement max linkname n)
  | mkdir {cleanName : Bytes} {newFi : S3FileInfo} :
      TableStep max table (.mkdir cleanName newFi) (table.searchStatEntry cleanName).2
  | deleteFile {cleanName : Bytes} :
      TableStep max table (.deleteFile cleanName) (table.deleteStatEntry cleanName)
  | destroy : TableStep max table .destroy (table.truncateCache max 0)
  | use {a : InfoSection} {n : ℕ} (h : a.pointer = some n) : TableStep max table a table

/-! ### One step -/

/-- The names in the table are distinct and no more than there may be, and the structures and
targets in use are those that the table leads to. -/
structure WellKept (max : ℕ) (s : FileInfos) : Prop where
  wellFormed : WellFormed max s.table
  owned : Owned s.memory s.pointers

/-- A structure that points to a target is not made to point to something else. -/
def KeepsTargets (s : FileInfos) : InfoSection → Prop
  | .mkdir cleanName _ => ∀ entry ∈ s.table, entry.filename = cleanName →
      s.memory.target entry.data = []
  | .keepTarget fi _ => s.memory.target fi = []
  | _ => True

/-- What a step keeps. -/
structure Done (max : ℕ) (s : FileInfos) (a : InfoSection) (s' : FileInfos) : Prop where
  wellKept : WellKept max s'
  noTargetLeak : s.KeepsTargets a → NoTargetLeak s.memory s.pointers →
    NoTargetLeak s'.memory s'.pointers
  cacheStep : (∀ n, a.pointer = some n → s.memory.value n ≠ none) → CacheStep max s a s'.cache
  tableStep : TableStep max s.table a s'.table
  /-- A pointer that was not in the table is a new one. -/
  fresh : ∀ n ∈ s'.pointers, n ∈ s.pointers ∨ s.memory.infos.contents.length ≤ n
  length_le : s.memory.infos.contents.length ≤ s'.memory.infos.contents.length

variable {max : ℕ} {s s' : FileInfos} {filename : Bytes}

/-- A new structure is put into the table, and the first one is freed if the table is full. -/
theorem exists_insert (hpos : 0 < max) (hmax : max < 2 ^ 31) (hw : WellFormed max s.table)
    (hfind : s.table.findStr filename = none) {n : ℕ} (h : Owned s.memory (s.pointers ++ [n])) :
    ∃ s', s.insertCacheElement max filename n = .ok s' ∧ WellKept max s' ∧
      s'.table = s.table.insertCacheElement max filename n ∧ n ∈ s'.pointers ∧
      (∀ m ∈ s'.pointers, m ∈ s.pointers ∨ m = n) ∧
      Freed s.memory (s.pointers ++ [n]) s'.memory s'.pointers ∧
      s'.cache = s.cache.insertCacheElement max filename (s.memory.value n) := by
  obtain ⟨s', hinsert, htable, hfreed⟩ := exists_insertCacheElement hfind h max
  have hfound : s'.table.findStr filename = some ⟨filename, n⟩ := by
    rw [htable, findStr_insertCacheElement hpos hmax hw hfind, if_pos rfl]
  refine ⟨s', hinsert, ⟨?_, hfreed.owned⟩, htable, ?_, fun m hm => ?_, hfreed, ?_⟩
  · rw [htable]
    exact hw.insert hpos hmax hfind n
  · exact data_mem_pointers (List.mem_of_find?_eq_some hfound)
  · obtain ⟨entry, hentry, rfl⟩ := List.mem_map.1 hm
    rw [htable] at hentry
    rcases mem_insertCacheElement hentry with hold | ⟨rfl, -⟩
    · exact .inl (data_mem_pointers hold)
    · exact .inr rfl
  · rw [cache, cache, htable, hfreed.value_eq, insertCacheElement_mapData]

/-- The pointer that the next structure gets is not in the table. -/
theorem WellKept.length_notMem_pointers (h : WellKept max s) :
    s.memory.infos.contents.length ∉ s.pointers :=
  fun hmem => Nat.lt_irrefl _ (h.owned.infos.live _ hmem).1

/-- **A cache miss.** -/
theorem exists_resolveMiss (hpos : 0 < max) (hmax : max < 2 ^ 31) (h : WellKept max s)
    (w : StatWorld) {file : Bytes} (hsecret : ¬ isS3DirectoryFile <:+ normalizePath file)
    (hfind : s.table.findStr (normalizePath file) = none) :
    ∃ result, s.resolveMiss max w (normalizePath file) = .ok result ∧
      Done max s (.fileStat w file) result.2 ∧
      result.1.bind result.2.memory.value = (mountFileStat max w s.cache file).1.toOption ∧
      ∀ n, result.1 = some n → n ∈ result.2.pointers ∧
        result.2.table.findStr (normalizePath file) = some ⟨normalizePath file, n⟩ := by
  obtain ⟨found, hfound⟩ : ∃ found, (missFileStat w (normalizePath file)).toOption = found :=
    ⟨_, rfl⟩
  obtain ⟨fi, hfi⟩ : ∃ fi : FileInfo, fi = ⟨found.map fun info => (info, -1), none⟩ := ⟨_, rfl⟩
  obtain ⟨n, hn⟩ : ∃ n, (s.allocateInfo fi).2 = n := ⟨_, rfl⟩
  have hlength : n = s.memory.infos.contents.length := hn.symm
  have hnew' : n ∉ s.table.map (·.data) := hlength ▸ h.length_notMem_pointers
  have hnone : fi.symlinkTarget.toList = [] := by rw [hfi]; rfl
  have hallocated : Owned (s.allocateInfo fi).1.memory ((s.allocateInfo fi).1.pointers ++ [n]) := by
    rw [← hn]
    refine h.owned.allocateInfo ?_
    rw [hnone, List.append_nil]
    exact h.owned.targets
  have hvalue : (s.allocateInfo fi).1.memory.value n = found.map .ofInfo := by
    rw [← hn]
    refine (value_allocateInfo s.memory fi).trans ?_
    rw [hfi]
    cases found <;> rfl
  have hcache : (s.allocateInfo fi).1.cache = s.cache := by
    refine mapData_congr fun entry hentry => value_allocateInfo_of_live ?_ fi
    exact h.owned.infos.live _ (data_mem_pointers hentry)
  obtain ⟨s', hinsert, hkept, htable, hmem, hnew, hfreed, hcache'⟩ :=
    exists_insert (s := (s.allocateInfo fi).1) hpos hmax h.wellFormed hfind hallocated
  obtain ⟨fi', hread⟩ := exists_read_eq_ok (hkept.owned.infos.live _ hmem)
  have hmount : mountFileStat max w s.cache file =
      ((missFileStat w (normalizePath file)).map .ofInfo,
        s.cache.insertCacheElement max (normalizePath file) (found.map .ofInfo)) := by
    simp only [mountFileStat, if_neg hsecret, cache, findStr_mapData, hfind, Option.map_none,
      hfound]
  refine ⟨(found.map fun _ => n, s'), ?_, ⟨hkept, fun _ hleak => ?_, fun _ => ?_, ?_,
    fun m hm => ?_, ?_⟩, ?_, fun m hm => ?_⟩
  · simp only [resolveMiss, hfound]
    rw [← hfi, hn, hinsert, ok_bind, hread, ok_bind]
    rfl
  · refine hfreed.noTargetLeak ?_
    rw [← hn]
    refine noTargetLeak_allocateInfo h.owned ?_
    rw [hnone, List.append_nil]
    exact hleak
  · have hstep : CacheStep max s (.fileStat w file) (mountFileStat max w s.cache file).2 :=
      .fileStat
    rwa [hmount, ← hvalue, ← hcache, ← hcache'] at hstep
  · rw [htable]
    exact .miss hsecret hfind hnew'
  · rcases hnew m hm with hm | rfl
    · exact .inl hm
    · exact .inr hlength.ge
  · rw [hfreed.infos]
    exact (Nat.le_succ _).trans (length_allocate s.memory.infos fi).ge
  · rw [hmount, hfreed.value_eq]
    rw [← hfound] at hvalue ⊢
    cases hmiss : missFileStat w (normalizePath file) with
    | error status => rfl
    | ok info =>
        rw [hmiss] at hvalue
        exact hvalue
  · obtain ⟨-, -, rfl⟩ := Option.map_eq_some_iff.1 hm
    refine ⟨hmem, ?_⟩
    rw [show s'.table = s.table.insertCacheElement max (normalizePath file) n from htable,
      findStr_insertCacheElement hpos hmax h.wellFormed hfind, if_pos rfl]

/-- **`S3FileStat`** stores a pointer into the table, to what the cache without pointers finds. -/
theorem exists_fileStat (hpos : 0 < max) (hmax : max < 2 ^ 31) (h : WellKept max s) (w : StatWorld)
    (file : Bytes) :
    ∃ result, s.fileStat max w file = .ok result ∧ Done max s (.fileStat w file) result.2 ∧
      result.1.bind result.2.memory.value = (mountFileStat max w s.cache file).1.toOption ∧
      ∀ n, result.1 = some n → n ∈ result.2.pointers ∧
        result.2.table.findStr (normalizePath file) = some ⟨normalizePath file, n⟩ := by
  have hstep : CacheStep max s (.fileStat w file) (mountFileStat max w s.cache file).2 := .fileStat
  by_cases hsecret : isS3DirectoryFile <:+ normalizePath file
  · have hmount : mountFileStat max w s.cache file = (.error enoent, s.cache) := if_pos hsecret
    rw [hmount] at hstep
    refine ⟨(none, s), if_pos hsecret, ⟨h, fun _ => id, fun _ => hstep, .secret hsecret,
      fun n hn => .inl hn, Nat.le_refl _⟩, ?_, fun n hn => by cases hn⟩
    rw [hmount]
    rfl
  · simp only [FileInfos.fileStat, if_neg hsecret]
    cases hfind : s.table.findStr (normalizePath file) with
    | none => exact exists_resolveMiss hpos hmax h w hsecret hfind
    | some entry =>
        have hentry : entry.data ∈ s.pointers :=
          data_mem_pointers (List.mem_of_find?_eq_some hfind)
        have hname := filename_of_findStr hfind
        obtain ⟨fi, hread⟩ := exists_read_eq_ok (h.owned.infos.live _ hentry)
        have hcontent := (read_eq_ok_iff.1 hread).2
        have hperm : (s.pointers).Perm
            (pointers ⟨(s.table.searchStatEntry (normalizePath file)).2, s.memory⟩) :=
          ((perm_searchStatEntry h.wellFormed.distinct _).map _).symm
        have hsnd : (mountFileStat max w s.cache file).2 =
            (s.cache.searchStatEntry (normalizePath file)).2 := by
          simp only [mountFileStat, if_neg hsecret, cache, findStr_mapData, hfind, Option.map_some]
        have hfst : (mountFileStat max w s.cache file).1.toOption = s.memory.value entry.data := by
          simp only [mountFileStat, if_neg hsecret, cache, findStr_mapData, hfind, Option.map_some]
          cases s.memory.value entry.data <;> rfl
        have htable : TableStep max s.table (.fileStat w file)
            (s.table.searchStatEntry (normalizePath file)).2 := .hit hsecret (by simp [hfind])
        refine ⟨_, by simp only [hread]; rfl, ⟨⟨h.wellFormed.search _, h.owned.perm hperm⟩,
          fun _ hleak => hleak.perm hperm, fun _ => ?_, htable,
          fun n hn => .inl (hperm.mem_iff.2 hn), Nat.le_refl _⟩, ?_, fun n hn => ?_⟩
        · rw [hsnd, cache, searchStatEntry_mapData] at hstep
          exact hstep
        · rw [hfst, value, hcontent, Option.bind_some]
          cases hfile : fi.file with
          | none => rfl
          | some f =>
              rw [Option.map_some, Option.bind_some, value, hcontent, Option.bind_some, hfile]
        · obtain ⟨-, -, rfl⟩ := Option.map_eq_some_iff.1 hn
          refine ⟨hperm.mem_iff.1 hentry, ?_⟩
          rw [findStr_searchStatEntry h.wellFormed.distinct, hfind]
          exact congrArg some (congrArg₂ StatCacheEntry.mk hname rfl)

/-- **`DeleteStatEntry`** in `S3Unlink` and `S3Rmdir`. -/
theorem exists_deleteFile (h : WellKept max s) (cleanName : Bytes) :
    ∃ s', s.deleteStatEntry cleanName = .ok s' ∧ Done max s (.deleteFile cleanName) s' := by
  have howned : Owned s.memory (s.pointers ++ []) := by
    rw [List.append_nil]
    exact h.owned
  obtain ⟨s', hdelete, htable, hfreed⟩ :=
    exists_deleteStatEntry h.wellFormed.distinct howned cleanName
  rw [List.append_nil, List.append_nil] at hfreed
  refine ⟨s', hdelete, ⟨?_, hfreed.owned⟩, fun _ => hfreed.noTargetLeak, fun _ => ?_, ?_,
    fun n hn => .inl ?_, (congrArg List.length hfreed.infos).ge⟩
  · rw [htable]
    exact h.wellFormed.deleteStatEntry cleanName
  · have hstep : CacheStep max s (.deleteFile cleanName) (s.cache.deleteStatEntry cleanName) :=
      .deleteFile
    rw [cache, deleteStatEntry_mapData] at hstep
    rwa [cache, htable, hfreed.value_eq]
  · rw [htable]
    exact .deleteFile
  · obtain ⟨entry, hentry, rfl⟩ := List.mem_map.1 hn
    rw [htable] at hentry
    exact data_mem_pointers (mem_deleteStatEntry hentry).1

/-- **`TruncateCache`** in `S3Destroy`. -/
theorem exists_destroy (h : WellKept max s) :
    ∃ s', s.truncateCache max 0 = .ok s' ∧ Done max s .destroy s' := by
  obtain ⟨s', htruncate, htable, hfreed⟩ := exists_truncateCache h.owned max 0
  have hsub : s'.table.Sublist s.table := by
    rw [htable]
    exact (truncateCache_suffix max s.table 0).sublist
  refine ⟨s', htruncate, ⟨⟨h.wellFormed.distinct.sublist (hsub.map _),
    hsub.length_le.trans h.wellFormed.length_le⟩, hfreed.owned⟩, fun _ => hfreed.noTargetLeak,
    fun _ => ?_, ?_, fun n hn => .inl ((hsub.map _).subset hn),
    (congrArg List.length hfreed.infos).ge⟩
  · have hstep : CacheStep max s .destroy (s.cache.truncateCache max 0) := .destroy
    rw [cache, truncateCache_mapData] at hstep
    rwa [cache, htable, hfreed.value_eq]
  · rw [htable]
    exact .destroy

/-- **`S3CreateLink`**: the old structure is freed, and the new one is in the table. -/
theorem exists_createLink (hpos : 0 < max) (hmax : max < 2 ^ 31) (h : WellKept max s)
    (linkname path : Bytes) (fi : S3FileInfo) (unsetFd : ℤ) :
    ∃ s', s.createLink max linkname path fi unsetFd = .ok s' ∧
      Done max s (.createLink linkname path fi unsetFd) s' := by
  -- the target and the structure, which are in no entry yet
  obtain ⟨s₁, hs₁⟩ : ∃ s₁, (s.allocateTarget path).1 = s₁ := ⟨_, rfl⟩
  obtain ⟨t, ht⟩ : ∃ t, (s.allocateTarget path).2 = t := ⟨_, rfl⟩
  obtain ⟨s₂, hs₂⟩ : ∃ s₂, (s₁.allocateInfo ⟨some (fi, unsetFd), some t⟩).1 = s₂ := ⟨_, rfl⟩
  obtain ⟨n, hn⟩ : ∃ n, (s₁.allocateInfo ⟨some (fi, unsetFd), some t⟩).2 = n := ⟨_, rfl⟩
  have htarget : Holds s₁.memory.targets (s₁.pointers.flatMap s₁.memory.target ++ [t]) := by
    rw [← hs₁, ← ht]
    exact h.owned.targets.allocate path
  have howned₁ : Owned s₁.memory s₁.pointers := by
    rw [← hs₁]
    exact h.owned.allocateTarget path
  have hcache₁ : s₁.cache = s.cache := by
    rw [← hs₁]
    exact mapData_congr fun entry hentry =>
      value_allocateTarget h.owned (data_mem_pointers hentry) path
  have howned₂ : Owned s₂.memory (s₂.pointers ++ [n]) := by
    rw [← hs₂, ← hn]
    exact howned₁.allocateInfo htarget
  have hcache₂ : s₂.cache = s.cache := by
    rw [← hcache₁, ← hs₂]
    exact mapData_congr fun entry hentry => value_allocateInfo_of_live
      (howned₁.infos.live _ (data_mem_pointers hentry)) _
  have hvalue : s₂.memory.value n = some ⟨fi, some path, unsetFd⟩ := by
    rw [← hs₂, ← hn]
    refine (value_allocateInfo s₁.memory _).trans ?_
    rw [Option.map_some, Option.bind_some, ← hs₁, ← ht]
    exact congrArg some (congrArg (MountFile.mk fi · unsetFd) (contents_allocate _ path))
  have htable₂ : s₂.table = s.table := by
    rw [← hs₂, ← hs₁]
    rfl
  -- the old entry is deleted
  obtain ⟨s₃, hdelete, htable₃, hfreed₃⟩ :=
    exists_deleteStatEntry (htable₂ ▸ h.wellFormed.distinct) howned₂ linkname
  rw [htable₂] at htable₃
  have hfind : s₃.table.findStr linkname = none := by
    rw [htable₃, findStr_deleteStatEntry, if_pos rfl]
  have hwell : WellFormed max s₃.table := by
    rw [htable₃]
    exact h.wellFormed.deleteStatEntry linkname
  obtain ⟨s', hinsert, hkept, htable, -, hnew, hfreed, hcache⟩ :=
    exists_insert hpos hmax hwell hfind hfreed₃.owned
  have hlength : n = s.memory.infos.contents.length := by
    rw [← hn, ← hs₁]
    rfl
  refine ⟨s', ?_, ⟨hkept, fun _ hleak => ?_, fun _ => ?_, ?_, fun m hm => ?_, ?_⟩⟩
  · simp only [createLink, hs₁, ht, hs₂, hn]
    rw [hdelete, ok_bind, hinsert]
  · refine hfreed.noTargetLeak (hfreed₃.noTargetLeak ?_)
    rw [← hs₂, ← hn]
    refine noTargetLeak_allocateInfo howned₁ ?_
    rw [← hs₁, ← ht]
    exact hleak.allocate path
  · have hstep : CacheStep max s (.createLink linkname path fi unsetFd)
        ((s.cache.deleteStatEntry linkname).insertCacheElement max linkname
          (some ⟨fi, some path, unsetFd⟩)) := .createLink
    have hcache₃ : s₃.cache = s.cache.deleteStatEntry linkname := by
      rw [← hcache₂, cache, cache, deleteStatEntry_mapData, htable₂, htable₃, hfreed₃.value_eq]
    rwa [hcache, hcache₃, hfreed₃.value_eq, hvalue]
  · rw [htable, htable₃]
    exact .createLink (hlength ▸ h.length_notMem_pointers)
  · rcases hnew m hm with hm | rfl
    · obtain ⟨entry, hentry, rfl⟩ := List.mem_map.1 hm
      rw [htable₃] at hentry
      exact .inl (data_mem_pointers (mem_deleteStatEntry hentry).1)
    · exact .inr hlength.ge
  · rw [hfreed.infos, hfreed₃.infos, ← hs₂, ← hs₁]
    exact (Nat.le_succ _).trans (length_allocate s.memory.infos _).ge

/-- The targets, with those of one structure in front. -/
theorem perm_flatMap_target (memory : InfoMemory) {ns : List ℕ} {n : ℕ} (h : n ∈ ns) :
    (ns.flatMap memory.target).Perm (memory.target n ++ (ns.erase n).flatMap memory.target) :=
  (List.perm_cons_erase h).flatMap_right _

/-- **A structure in the table is overwritten.** -/
theorem exists_write (h : WellKept max s) {entry : StatCacheEntry ℕ} (hentry : entry ∈ s.table)
    (fi : FileInfo) (htargets : Holds s.memory.targets
      (fi.symlinkTarget.toList ++ (s.pointers.erase entry.data).flatMap s.memory.target)) :
    ∃ s', s.write entry.data fi = .ok s' ∧ WellKept max s' ∧ s'.table = s.table ∧
      (NoLeak s.memory.targets
        (fi.symlinkTarget.toList ++ (s.pointers.erase entry.data).flatMap s.memory.target) →
        NoTargetLeak s'.memory s'.pointers) ∧
      s'.cache = s.cache.update entry.filename (fun _ => fi.file.map fun file => ⟨file.1,
        fi.symlinkTarget.bind fun symlinkTarget => s.memory.targets.contents[symlinkTarget]?,
        file.2⟩) ∧
      s'.memory.infos.contents.length = s.memory.infos.contents.length := by
  have hmem : entry.data ∈ s.pointers := data_mem_pointers hentry
  have hperm := List.perm_cons_erase hmem
  obtain ⟨infos, hwrite, hcontents, hlength, howned, hleak⟩ :=
    (h.owned.perm hperm).exists_write htargets
  refine ⟨⟨s.table, infos, s.memory.targets⟩, ?_, ⟨h.wellFormed, howned.perm hperm.symm⟩, rfl,
    fun hnone => (hleak hnone).perm hperm.symm, ?_, hlength⟩
  · rw [write, hwrite, ok_bind]
    rfl
  · refine mapData_eq_update h.wellFormed.distinct h.owned.infos.distinct hentry ?_ fun m hm => ?_
    · rw [value, hcontents, if_pos rfl, Option.bind_some]
    · rw [value, value, hcontents, if_neg hm]

/-- **`S3Mkdir`.** -/
theorem exists_mkdir (h : WellKept max s) (cleanName : Bytes) (newFi : S3FileInfo) :
    ∃ s', s.mkdir cleanName newFi = .ok s' ∧ Done max s (.mkdir cleanName newFi) s' := by
  have hstep : CacheStep max s (.mkdir cleanName newFi)
      ((s.cache.searchStatEntry cleanName).2.update cleanName fun _ => some ⟨newFi, none, 0⟩) :=
    .mkdir
  have htable : TableStep max s.table (.mkdir cleanName newFi)
      (s.table.searchStatEntry cleanName).2 := .mkdir
  rw [cache, searchStatEntry_mapData] at hstep
  simp only [FileInfos.mkdir]
  cases hfind : s.table.findStr cleanName with
  | none =>
      have hsearch : s.table.searchStatEntry cleanName = (none, s.table) := by
        rw [searchStatEntry, hfind]
      rw [hsearch] at hstep htable ⊢
      refine ⟨s, rfl, ⟨h, fun _ => id, fun _ => ?_, htable, fun n hn => .inl hn, Nat.le_refl _⟩⟩
      rw [update_of_findStr_eq_none (by rw [findStr_mapData, hfind]; rfl)] at hstep
      exact hstep
  | some entry =>
      obtain ⟨table, hsearch⟩ : ∃ table,
          s.table.searchStatEntry cleanName = (some entry.data, table) := by
        rw [searchStatEntry, hfind]
        exact ⟨_, rfl⟩
      have hname := filename_of_findStr hfind
      have hperm := perm_searchStatEntry h.wellFormed.distinct cleanName
      have hwell := h.wellFormed.search cleanName
      rw [hsearch] at hstep htable hperm hwell ⊢
      have hpointers : s.pointers.Perm (table.map (·.data)) := (hperm.map _).symm
      have hkept : WellKept max ⟨table, s.memory⟩ := ⟨hwell, h.owned.perm hpointers⟩
      have hentry : entry ∈ table := hperm.mem_iff.2 (List.mem_of_find?_eq_some hfind)
      have hmem : entry.data ∈ table.map (·.data) := List.mem_map.2 ⟨entry, hentry, rfl⟩
      have hflat := perm_flatMap_target s.memory hmem
      obtain ⟨s', hwrite, hkept', htable', hleak, hcache, hlength⟩ :=
        exists_write hkept hentry ⟨some (newFi, 0), none⟩
          ((hkept.owned.targets.perm hflat).sublist (List.sublist_append_right _ _))
      have hpointers' : s'.pointers = table.map (·.data) := by rw [pointers, htable']
      refine ⟨s', hwrite, ⟨hkept', fun hkeeps hnone => hleak ?_, fun _ => ?_, ?_, fun n hn => ?_,
        hlength.ge⟩⟩
      · have hnone' := NoLeak.perm (hnone.perm hpointers) hflat
        rwa [hkeeps entry (List.mem_of_find?_eq_some hfind) hname] at hnone'
      · rw [hcache, hname]
        exact hstep
      · rw [htable']
        exact htable
      · rw [hpointers'] at hn
        exact .inl (hpointers.mem_iff.2 hn)

/-- What is stored behind a pointer into the table. -/
theorem exists_readInfo (h : WellKept max s) {entry : StatCacheEntry ℕ} (hentry : entry ∈ s.table) :
    ∃ fi, s.memory.infos.read entry.data = .ok fi ∧
      s.memory.target entry.data = fi.symlinkTarget.toList ∧
      s.memory.value entry.data = fi.file.map fun file => ⟨file.1,
        fi.symlinkTarget.bind fun symlinkTarget => s.memory.targets.contents[symlinkTarget]?,
        file.2⟩ := by
  obtain ⟨fi, hread⟩ :=
    exists_read_eq_ok (h.owned.infos.live _ (data_mem_pointers hentry))
  have hcontent := (read_eq_ok_iff.1 hread).2
  refine ⟨fi, hread, ?_, ?_⟩
  · rw [target, hcontent, Option.bind_some]
  · rw [value, hcontent, Option.bind_some]

theorem exists_read (h : WellKept max s) {entry : StatCacheEntry ℕ} (hentry : entry ∈ s.table) :
    ∃ result, s.read entry.data = .ok result := by
  have hmem : entry.data ∈ s.pointers := data_mem_pointers hentry
  obtain ⟨fi, hread, htarget, -⟩ := exists_readInfo h hentry
  rw [read, hread, ok_bind]
  cases hlink : fi.symlinkTarget with
  | none => exact ⟨_, rfl⟩
  | some symlinkTarget =>
      have hlive : s.memory.targets.Live symlinkTarget := by
        refine h.owned.targets.live _ (List.mem_flatMap.2 ⟨entry.data, hmem, ?_⟩)
        rw [htarget, hlink]
        exact List.mem_singleton_self symlinkTarget
      obtain ⟨target, htext⟩ := exists_read_eq_ok hlive
      simp only [htext]
      exact ⟨_, rfl⟩

/-- **Members are assigned**, and the target stays. -/
theorem exists_assign (h : WellKept max s) {entry : StatCacheEntry ℕ} (hentry : entry ∈ s.table)
    (file : S3FileInfo × ℤ) :
    ∃ s', s.assign entry.data file = .ok s' ∧ Done max s (.assign entry.data file) s' := by
  have hmem : entry.data ∈ s.pointers := data_mem_pointers hentry
  have hperm := perm_flatMap_target s.memory hmem
  obtain ⟨old, hread, htarget, hvalue⟩ := exists_readInfo h hentry
  rw [htarget] at hperm
  obtain ⟨s', hwrite, hkept, htable, hleak, hcache, hlength⟩ :=
    exists_write h hentry ⟨some file, old.symlinkTarget⟩ (h.owned.targets.perm hperm)
  refine ⟨s', ?_, ⟨hkept, fun _ hnone => hleak (NoLeak.perm hnone hperm), fun hfound => ?_, ?_,
    fun n hn => ?_, hlength.ge⟩⟩
  · rw [assign, hread, ok_bind, hwrite]
  · obtain ⟨f, hf⟩ := Option.ne_none_iff_exists'.1 (hfound _ rfl)
    obtain ⟨oldFile, hfile, rfl⟩ := Option.map_eq_some_iff.1 (hvalue.symm.trans hf)
    rw [hcache]
    exact .assign hentry hf
  · rw [htable]
    exact .use rfl
  · rw [pointers, htable] at hn
    exact .inl hn

/-- **A target is stored**, which loses one that was stored before. -/
theorem exists_keepTarget (h : WellKept max s) {entry : StatCacheEntry ℕ}
    (hentry : entry ∈ s.table) (linkContents : Bytes) :
    ∃ s', s.keepTarget entry.data linkContents = .ok s' ∧
      Done max s (.keepTarget entry.data linkContents) s' := by
  obtain ⟨s₁, hs₁⟩ : ∃ s₁, (s.allocateTarget linkContents).1 = s₁ := ⟨_, rfl⟩
  obtain ⟨t, ht⟩ : ∃ t, (s.allocateTarget linkContents).2 = t := ⟨_, rfl⟩
  have htable₁ : s₁.table = s.table := hs₁ ▸ rfl
  have hinfos₁ : s₁.memory.infos = s.memory.infos := hs₁ ▸ rfl
  have hpointers₁ : s₁.pointers = s.pointers := congrArg (List.map _) htable₁
  have hentry₁ : entry ∈ s₁.table := htable₁ ▸ hentry
  have hkept₁ : WellKept max s₁ := by
    rw [← hs₁]
    exact ⟨h.wellFormed, h.owned.allocateTarget linkContents⟩
  have hcache₁ : s₁.cache = s.cache := by
    rw [← hs₁]
    exact mapData_congr fun entry hentry =>
      value_allocateTarget h.owned (data_mem_pointers hentry) linkContents
  have htext : s₁.memory.targets.contents[t]? = some linkContents := by
    rw [← hs₁, ← ht]
    exact contents_allocate _ linkContents
  -- the targets with the new one, which takes the place of the old one
  have hmem : entry.data ∈ s₁.pointers := data_mem_pointers hentry₁
  have hperm : (s₁.pointers.flatMap s₁.memory.target ++ [t]).Perm (s₁.memory.target entry.data ++
      ([t] ++ (s₁.pointers.erase entry.data).flatMap s₁.memory.target)) := by
    refine ((perm_flatMap_target s₁.memory hmem).append_right [t]).trans ?_
    rw [List.append_assoc]
    exact List.perm_append_comm.append_left _
  have htargets : Holds s₁.memory.targets (s₁.pointers.flatMap s₁.memory.target ++ [t]) := by
    rw [← hs₁, ← ht]
    exact h.owned.targets.allocate linkContents
  obtain ⟨old, hread, htarget, hvalue⟩ := exists_readInfo h hentry
  obtain ⟨s', hwrite, hkept, htable, hleak, hcache, hlength⟩ :=
    exists_write hkept₁ hentry₁ ⟨old.file, some t⟩
      ((htargets.perm hperm).sublist (List.sublist_append_right _ _))
  rw [htable₁] at htable
  refine ⟨s', ?_, ⟨hkept, fun hkeeps hnone => hleak ?_, fun hfound => ?_, ?_, fun n hn => ?_, ?_⟩⟩
  · simp only [keepTarget, hread, ok_bind, hs₁, ht]
    exact hwrite
  · have hnone₁ : NoLeak s₁.memory.targets (s₁.pointers.flatMap s₁.memory.target ++ [t]) := by
      rw [← hs₁, ← ht]
      exact NoLeak.allocate hnone linkContents
    have hsame : s₁.memory.target entry.data = [] := by
      rw [target, hinfos₁]
      exact hkeeps
    have hnone₂ := hnone₁.perm hperm
    rwa [hsame] at hnone₂
  · obtain ⟨f, hf⟩ := Option.ne_none_iff_exists'.1 (hfound _ rfl)
    obtain ⟨file, hfile, rfl⟩ := Option.map_eq_some_iff.1 (hvalue.symm.trans hf)
    rw [hcache, hcache₁, hfile, Option.map_some, Option.bind_some, htext]
    exact .keepTarget hentry hf
  · rw [htable]
    exact .use rfl
  · rw [pointers, htable] at hn
    exact .inl hn
  · rw [hlength, hinfos₁]

/-- A pointer that is not in the table may not be used. -/
theorem perform_eq_error (h : WellKept max s) {a : InfoSection} {n : ℕ} (ha : a.pointer = some n)
    (hn : n ∉ s.pointers) : s.perform max a = .error .useAfterFree := by
  have hlive : ¬ s.memory.infos.Live n := fun hlive => hn (h.owned.noLeak n hlive)
  have hread : s.memory.infos.read n = .error .useAfterFree := dif_neg hlive
  cases a with
  | read fi | assign fi file | keepTarget fi linkContents =>
      obtain rfl := Option.some.inj ha
      simp only [perform, FileInfos.read, FileInfos.assign, FileInfos.keepTarget, hread]
      rfl
  | _ => cases ha

/-- **One step.**  Everything that is done under the mutex, and every use of a pointer into the
table, is possible and keeps what a step keeps. -/
theorem WellKept.perform (hpos : 0 < max) (hmax : max < 2 ^ 31) (h : WellKept max s)
    (a : InfoSection) (ha : ∀ n, a.pointer = some n → n ∈ s.pointers) :
    ∃ s', s.perform max a = .ok s' ∧ Done max s a s' := by
  cases a with
  | fileStat w file =>
      obtain ⟨result, hresult, hdone, -⟩ := exists_fileStat hpos hmax h w file
      refine ⟨result.2, ?_, hdone⟩
      rw [FileInfos.perform, hresult]
      rfl
  | createLink linkname path fi unsetFd =>
      exact exists_createLink hpos hmax h linkname path fi unsetFd
  | mkdir cleanName newFi => exact exists_mkdir h cleanName newFi
  | deleteFile cleanName => exact exists_deleteFile h cleanName
  | destroy =>
      obtain ⟨s', hs', hdone⟩ := exists_destroy h
      refine ⟨s', ?_, hdone⟩
      rw [FileInfos.perform, hs']
  | read fi =>
      obtain ⟨entry, hentry, rfl⟩ := List.mem_map.1 (ha fi rfl)
      obtain ⟨result, hread⟩ := exists_read h hentry
      refine ⟨s, ?_, ⟨h, fun _ => id, fun _ => .read, .use rfl, fun n hn => .inl hn, Nat.le_refl _⟩⟩
      rw [FileInfos.perform, hread]
      rfl
  | assign fi file =>
      obtain ⟨entry, hentry, rfl⟩ := List.mem_map.1 (ha fi rfl)
      exact exists_assign h hentry file
  | keepTarget fi linkContents =>
      obtain ⟨entry, hentry, rfl⟩ := List.mem_map.1 (ha fi rfl)
      exact exists_keepTarget h hentry linkContents

/-! ### Runs -/

/-- What a step of a run does. -/
theorem Done.of_step (hpos : 0 < max) (hmax : max < 2 ^ 31) (h : WellKept max s) {a : InfoSection}
    (hstep : step max s a = some s') : Done max s a s' := by
  have hpointer : ∀ n, a.pointer = some n → n ∈ s.pointers := by
    intro n ha
    by_contra hn
    rw [step, perform_eq_error h ha hn] at hstep
    cases hstep
  obtain ⟨s'', hperform, hdone⟩ := h.perform hpos hmax a hpointer
  rw [step, hperform] at hstep
  obtain rfl := Option.some.inj hstep
  exact hdone

theorem wellKept_empty (max : ℕ) : WellKept max empty :=
  ⟨wellFormed_nil max, holds_nil _, noLeak_empty _, holds_nil _⟩

/-- Nothing is freed twice, and no pointer in the table leads to memory that has been freed. -/
theorem wellKept_of_run (hpos : 0 < max) (hmax : max < 2 ^ 31) {steps : List InfoSection}
    (hrun : run (step max) empty steps = some s) : WellKept max s :=
  run_inv_of_step (fun _ _ _ h hs => (Done.of_step hpos hmax h hs).wellKept) (wellKept_empty max)
    hrun

/-- **What the memory is like after a sequence of steps.** -/
structure Safe (max : ℕ) (steps : List InfoSection) (s : FileInfos) : Prop where
  /-- What is done under the mutex is possible, and a pointer may be used if it is in the table. -/
  possible : ∀ a, (∃ s', s.perform max a = .ok s') ↔ ∀ n, a.pointer = some n → n ∈ s.pointers
  /-- The structures in use are those in the table, each in one entry. -/
  infos : s.pointers.Nodup ∧ ∀ n, s.memory.infos.Live n ↔ n ∈ s.pointers
  /-- The targets of the structures are in use, each for one structure. -/
  targets : (s.pointers.flatMap s.memory.target).Nodup ∧
    ∀ t ∈ s.pointers.flatMap s.memory.target, s.memory.targets.Live t
  /-- If no structure that points to a target was made to point to something else, no other target
  is in use. -/
  noTargetLeak : Along (step max) (fun s a _ => s.KeepsTargets a) empty steps →
    ∀ t, s.memory.targets.Live t → t ∈ s.pointers.flatMap s.memory.target

/-- **Nothing is freed twice, nothing is used after it was freed, and nothing is lost**, whatever
the threads do in whatever order. -/
theorem memory_safe (hpos : 0 < max) (hmax : max < 2 ^ 31) {steps : List InfoSection}
    (hrun : run (step max) empty steps = some s) : Safe max steps s := by
  have h := wellKept_of_run hpos hmax hrun
  refine ⟨fun a => ⟨?_, fun ha => ?_⟩, ⟨h.owned.infos.distinct, fun n => ?_⟩,
    ⟨h.owned.targets.distinct, h.owned.targets.live⟩, fun hkeeps => ?_⟩
  · rintro ⟨s', hs'⟩ n ha
    by_contra hn
    rw [perform_eq_error h ha hn] at hs'
    cases hs'
  · obtain ⟨s', hs', -⟩ := h.perform hpos hmax a ha
    exact ⟨s', hs'⟩
  · exact ⟨h.owned.noLeak n, h.owned.infos.live n⟩
  · have hstep : ∀ s a s', WellKept max s ∧ NoTargetLeak s.memory s.pointers →
        s.KeepsTargets a → step max s a = some s' →
        WellKept max s' ∧ NoTargetLeak s'.memory s'.pointers := fun s a s' hs ha hstep =>
      have hdone := Done.of_step hpos hmax hs.1 hstep
      ⟨hdone.wellKept, hdone.noTargetLeak ha hs.2⟩
    exact (run_inv hstep ⟨wellKept_empty max, noLeak_empty _⟩ hkeeps hrun).2

/-- A file is looked up in a bucket that has one file. -/
def lookUp (file : String) : InfoSection := .fileStat (oneFileCall file).toStatWorld (ascii file)

/-- A link is made and read, and the second file that is looked up takes the place of the first. -/
def lookUpsAndLink : List InfoSection :=
  [lookUp "/a",
    .createLink (ascii "/l") (ascii "t") (defaultInfo (oneFileCall "/l").ctx (ascii "/l")) 0,
    lookUp "/b", .read 1, .deleteFile (ascii "/l")]

theorem memory_safe_lookUpsAndLink :
    ∃ s, run (step 2) empty lookUpsAndLink = some s ∧ Safe 2 lookUpsAndLink s := by
  have hrun : (run (step 2) empty lookUpsAndLink).isSome = true := by decide +kernel
  obtain ⟨s, hs⟩ := Option.isSome_iff_exists.1 hrun
  exact ⟨s, hs, memory_safe (by decide) (by decide) hs⟩

/-- **The table says what the cache without pointers does**, after every step of every run. -/
theorem cacheStep_of_step (hpos : 0 < max) (hmax : max < 2 ^ 31) {steps : List InfoSection}
    (hrun : run (step max) empty steps = some s) {a : InfoSection}
    (ha : ∀ n, a.pointer = some n → s.memory.value n ≠ none) (hstep : step max s a = some s') :
    CacheStep max s a s'.cache :=
  (Done.of_step hpos hmax (wellKept_of_run hpos hmax hrun) hstep).cacheStep ha

/-- The first file is looked up again. -/
def lookUpAgain : List InfoSection := lookUpsAndLink ++ [lookUp "/a"]

/-- The descriptor of its local copy is noted through the pointer. -/
def noteCopy : InfoSection := .assign 3 (defaultInfo (oneFileCall "/a").ctx (ascii "/a"), 5)

theorem cacheStep_of_step_noteCopy :
    ∃ s s', run (step 2) empty lookUpAgain = some s ∧ s.memory.value 3 ≠ none ∧
      step 2 s noteCopy = some s' ∧ CacheStep 2 s noteCopy s'.cache := by
  have hruns : ((run (step 2) empty lookUpAgain).map fun s =>
      ((s.memory.value 3).isSome, (step 2 s noteCopy).isSome)) = some (true, true) := by
    decide +kernel
  obtain ⟨s, hs, hpair⟩ := Option.map_eq_some_iff.1 hruns
  obtain ⟨hvalue, hstep⟩ := Prod.ext_iff.1 hpair
  obtain ⟨s', hs'⟩ := Option.isSome_iff_exists.1 hstep
  have hfound : s.memory.value 3 ≠ none := Option.isSome_iff_ne_none.1 hvalue
  refine ⟨s, s', hs, hfound, hs', cacheStep_of_step (by decide) (by decide) hs ?_ hs'⟩
  intro n hn
  obtain rfl := Option.some.inj hn
  exact hfound

end FileInfos

end AwsS3fs
