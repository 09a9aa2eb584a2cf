/-
**The mutexes of a mounted file system.**

The threads of a mounted file system call the functions of `s3if.c`, and these lock `cache_mutex`
around their work.  The cache of file information, the cache of directories, the `CURL` handle and
the log have mutexes of their own, which are locked inside.  Not every function takes
`cache_mutex` first, and `TruncateCache` counts the entries of its table before it locks the
table's own mutex.

A function is given here by what it does to the mutexes and to the things behind them, in the order
in which it does so.  What it branches on is left open.

Main definitions:

* `AwsS3fs.MountMutex`, `AwsS3fs.MountShared` — the mutexes, and what the threads share;
* `AwsS3fs.MountLocks.s3FileStat`, `AwsS3fs.MountLocks.s3ReadDir` and the others — what the
  functions lock;
* `AwsS3fs.MountCall`, `AwsS3fs.MountThreadAction` — a call of `s3if.c`, and what the threads do.

Main results:

* `AwsS3fs.MountCall.keeps_events` — every function locks the mutexes in order;
* `AwsS3fs.mount_exclusive` — **no two threads are inside the same cache, the `CURL` handle or the
  log at the same time**;
* `AwsS3fs.mount_completes` — **the threads do not block each other for ever**.
-/

import AwsS3fs.Lib.Locks

set_option relaxedAutoImplicit false
set_option autoImplicit false

namespace AwsS3fs

open Locks Runs

/-! ### Mutexes and what they guard -/

/-- The mutexes that the threads of a mounted file system lock. -/
inductive MountMutex
  /-- `cache_mutex` of `s3if.c`. -/
  | cache
  /-- `mutex_statCache` of `statcache.c`. -/
  | statCache
  /-- `dirCache_mutex` of `dircache.c`. -/
  | dirCache
  /-- `curl_mutex` of a handle of `s3comms.c`. -/
  | curl
  /-- `logger_mutex` of `logger.c`. -/
  | logger
  deriving DecidableEq, Repr

/-- What the threads share. -/
inductive MountShared
  /-- The hash table of `statcache.c`. -/
  | statTable
  /-- The array of `dircache.c`. -/
  | directories
  /-- The `CURL` handle. -/
  | curlHandle
  /-- The structure `logger`, and the log. -/
  | log
  deriving DecidableEq, Repr

/-- The order in which mutexes are locked. -/
def MountMutex.rank : MountMutex → ℕ
  | .cache => 0
  | _ => 1

/-- The mutex that is held at every access.  For the hash table this is not its own mutex, because
`TruncateCache` counts the entries before it locks that one. -/
def MountShared.guard : MountShared → MountMutex
  | .statTable => .cache
  | .directories => .dirCache
  | .curlHandle => .curl
  | .log => .logger

/-! ### What the functions lock -/

namespace MountLocks

/-- What a function does to mutexes and shared things. -/
abbrev Events := List (Event MountMutex MountShared)

/-- `Syslog`. -/
def syslog : Events := [.lock .logger, .access .log, .unlock .logger]

/-- `SearchStatEntry`, and `DeleteStatEntry`, which locks the same. -/
def searchStatEntry : Events :=
  [.lock .statCache, .access .statTable, .unlock .statCache] ++ syslog

/-- `TruncateCache`. -/
def truncateCache (expires : Bool) : Events :=
  .access .statTable :: if expires then searchStatEntry else []

/-- `InsertCacheElement`. -/
def insertCacheElement (expires : Bool) : Events :=
  [.lock .statCache, .access .statTable, .unlock .statCache] ++ syslog ++ truncateCache expires

/-- `LookupInDirectoryCache`, and `InsertInDirectoryCache` and `InvalidateDirectoryCacheElement`,
which lock the same. -/
def lookupInDirectoryCache : Events := [.lock .dirCache, .access .directories, .unlock .dirCache]

/-- `s3_SubmitS3Request` and `s3_SubmitS3PutRequest`. -/
def submitS3Request : Events := [.lock .curl, .access .curlHandle, .unlock .curl]

/-- `LockCaches` and `UnlockCaches` around the work of a function. -/
def lockCaches (work : Events) : Events := .lock .cache :: work ++ [.unlock .cache]

/-- What a call of `S3FileStat` meets: the name of the secret file, an entry in the cache, the
requests that succeed, and whether an entry expires. -/
structure FileStatOutcome where
  secret : Bool
  hit : Bool
  succeeds : ℕ → Bool
  expires : Bool

/-- `ResolveS3FileStatCacheMiss`. -/
def resolveS3FileStatCacheMiss (succeeds expires : Bool) : Events :=
  submitS3Request ++ if succeeds then insertCacheElement expires else []

/-- `S3FileStat`. -/
def s3FileStat (o : FileStatOutcome) : Events :=
  if o.secret then []
  else lockCaches <| searchStatEntry ++
    if o.hit then []
    else resolveS3FileStatCacheMiss (o.succeeds 0) o.expires ++
      if o.succeeds 0 then []
      else resolveS3FileStatCacheMiss (o.succeeds 1) o.expires ++
        if o.succeeds 1 then []
        else resolveS3FileStatCacheMiss (o.succeeds 2) o.expires ++
          if o.succeeds 2 then [] else insertCacheElement o.expires

/-- What a call of `S3ReadDir` meets: an entry in the cache, or a number of requests after the
first one. -/
structure ReadDirOutcome where
  hit : Bool
  further : ℕ

/-- `S3ReadDir`. -/
def s3ReadDir (o : ReadDirOutcome) : Events :=
  lookupInDirectoryCache ++
    if o.hit then []
    else lockCaches ((List.replicate (o.further + 1) submitS3Request).flatten ++
      lookupInDirectoryCache)

/-- `S3Unlink`, and the second half of `S3Rmdir`: a request, and what it makes invalid. -/
def s3Unlink : Events := lockCaches (submitS3Request ++ lookupInDirectoryCache ++ searchStatEntry)

end MountLocks

open MountLocks

/-- A call of a function of `s3if.c`, with what it meets on its way. -/
inductive MountCall
  | s3FileStat (file : FileStatOutcome)
  | s3ReadDir (directory : ReadDirOutcome)
  /-- The parent directory is looked up if the file is to be cached. -/
  | s3Open (file : FileStatOutcome) (parent : Option FileStatOutcome)
  | s3FileClose (file : FileStatOutcome)
  | s3ReadFile (file : FileStatOutcome)
  /-- The target is requested if it is not in the cache. -/
  | s3ReadLink (link : FileStatOutcome) (requested : Bool)
  | s3ModifyTimeStamps (file : FileStatOutcome) (found : Bool)
  | s3CreateLink (expires : Bool)
  | s3Mkdir
  | s3Unlink
  /-- The directory is read if it is one; the files are deleted if it is empty, and the second one
  only after the first. -/
  | s3Rmdir (directory : FileStatOutcome) (listing : Option ReadDirOutcome) (empty deleted : Bool)
  | s3Chmod (file : FileStatOutcome) (found : Bool)
  | s3Chown (file : FileStatOutcome) (found : Bool)

/-- What a call does to mutexes and shared things. -/
def MountCall.events : MountCall → Events
  | .s3FileStat file => MountLocks.s3FileStat file
  | .s3ReadDir directory => MountLocks.s3ReadDir directory
  | .s3Open file none => MountLocks.s3FileStat file
  | .s3Open file (some parent) => MountLocks.s3FileStat file ++ MountLocks.s3FileStat parent
  | .s3FileClose file => MountLocks.s3FileStat file
  | .s3ReadFile file => MountLocks.s3FileStat file
  -- neither `S3ReadLink` nor `S3ModifyTimeStamps` locks the caches for its own request
  | .s3ReadLink link requested =>
      MountLocks.s3FileStat link ++ if requested then submitS3Request else []
  | .s3ModifyTimeStamps file found =>
      MountLocks.s3FileStat file ++ if found then submitS3Request else []
  | .s3CreateLink expires =>
      lockCaches (submitS3Request ++ searchStatEntry ++ insertCacheElement expires ++
        lookupInDirectoryCache)
  | .s3Mkdir => lockCaches (submitS3Request ++ lookupInDirectoryCache ++ searchStatEntry)
  | .s3Unlink => MountLocks.s3Unlink
  | .s3Rmdir directory listing empty deleted =>
      MountLocks.s3FileStat directory ++
        match listing with
        | none => []
        | some listing =>
            MountLocks.s3ReadDir listing ++
              if empty then MountLocks.s3Unlink ++ if deleted then MountLocks.s3Unlink else []
              else []
  | .s3Chmod file found =>
      MountLocks.s3FileStat file ++ if found then lockCaches submitS3Request else []
  | .s3Chown file found =>
      MountLocks.s3FileStat file ++ if found then lockCaches submitS3Request else []

/-- What the threads of a file system do.  An operation of `fuseif.c` calls functions of `s3if.c`,
one after the other. -/
inductive MountThreadAction
  | operation (i : ℕ) (calls : List MountCall)
  | advance (i : ℕ)

def MountThreadAction.action : MountThreadAction → Action MountMutex MountShared
  | .operation i calls => .begin i (calls.map MountCall.events).flatten
  | .advance i => .advance i

/-! ### The order is kept -/

section Order

/-- A function that may be called with these mutexes held. -/
abbrev KeepsOrder (held : List MountMutex) (events : Events) : Prop :=
  Keeps MountMutex.rank MountShared.guard held events

theorem keeps_lockCaches {work : Events} (h : KeepsOrder [.cache] work) :
    KeepsOrder [] (lockCaches work) :=
  Keeps.locked (by simp) h

theorem keeps_insertCacheElement (expires : Bool) :
    KeepsOrder [.cache] (insertCacheElement expires) := by
  cases expires <;> rfl

theorem keeps_resolveS3FileStatCacheMiss (succeeds expires : Bool) :
    KeepsOrder [.cache] (resolveS3FileStatCacheMiss succeeds expires) := by
  cases succeeds <;> cases expires <;> rfl

theorem keeps_s3FileStat (o : FileStatOutcome) : KeepsOrder [] (MountLocks.s3FileStat o) := by
  refine Keeps.ite _ (keeps_nil _) (keeps_lockCaches ?_)
  have hmiss := fun succeeds => keeps_resolveS3FileStatCacheMiss succeeds o.expires
  have hsearch : KeepsOrder [.cache] searchStatEntry := rfl
  refine hsearch.append (Keeps.ite _ (keeps_nil _) ((hmiss _).append ?_))
  refine Keeps.ite _ (keeps_nil _) ((hmiss _).append ?_)
  refine Keeps.ite _ (keeps_nil _) ((hmiss _).append ?_)
  exact Keeps.ite _ (keeps_nil _) (keeps_insertCacheElement _)

theorem keeps_s3ReadDir (o : ReadDirOutcome) : KeepsOrder [] (MountLocks.s3ReadDir o) := by
  have hlookup : KeepsOrder [] lookupInDirectoryCache := rfl
  refine hlookup.append (Keeps.ite _ (keeps_nil _) (keeps_lockCaches (Keeps.append ?_ rfl)))
  refine Keeps.flatten fun c hc => ?_
  rw [List.eq_of_mem_replicate hc]
  rfl

theorem keeps_s3Unlink : KeepsOrder [] MountLocks.s3Unlink := rfl

/-- **Every function locks the mutexes in order**, whatever it meets. -/
theorem MountCall.keeps_events (call : MountCall) : KeepsOrder [] call.events := by
  have hsubmit : KeepsOrder [] submitS3Request := rfl
  have hlocked : KeepsOrder [] (lockCaches submitS3Request) := rfl
  cases call with
  | s3FileStat file => exact keeps_s3FileStat file
  | s3ReadDir directory => exact keeps_s3ReadDir directory
  | s3Open file parent =>
      cases parent with
      | none => exact keeps_s3FileStat file
      | some parent => exact (keeps_s3FileStat file).append (keeps_s3FileStat parent)
  | s3FileClose file => exact keeps_s3FileStat file
  | s3ReadFile file => exact keeps_s3FileStat file
  | s3ReadLink link requested =>
      exact (keeps_s3FileStat link).append (Keeps.ite _ hsubmit (keeps_nil _))
  | s3ModifyTimeStamps file found =>
      exact (keeps_s3FileStat file).append (Keeps.ite _ hsubmit (keeps_nil _))
  | s3CreateLink expires => cases expires <;> rfl
  | s3Mkdir => rfl
  | s3Unlink => exact keeps_s3Unlink
  | s3Rmdir directory listing empty deleted =>
      refine (keeps_s3FileStat directory).append ?_
      cases listing with
      | none => exact keeps_nil _
      | some listing =>
          refine (keeps_s3ReadDir listing).append (Keeps.ite _ ?_ (keeps_nil _))
          exact keeps_s3Unlink.append (Keeps.ite _ keeps_s3Unlink (keeps_nil _))
  | s3Chmod file found =>
      exact (keeps_s3FileStat file).append (Keeps.ite _ hlocked (keeps_nil _))
  | s3Chown file found =>
      exact (keeps_s3FileStat file).append (Keeps.ite _ hlocked (keeps_nil _))

/-- Threads that call these functions keep to the order of the mutexes. -/
theorem wellLocked_of_mount_run {n : ℕ} {actions : List MountThreadAction}
    {threads : List (Thread MountMutex MountShared)}
    (hrun : run step (List.replicate n .idle) (actions.map MountThreadAction.action) =
      some threads) : WellLocked MountMutex.rank MountShared.guard threads := by
  refine wellLocked_of_run (wellLocked_idle n) ?_ hrun
  intro i events hbegin
  obtain ⟨a, -, ha⟩ := List.mem_map.1 hbegin
  cases a with
  | operation j calls =>
      obtain ⟨-, rfl⟩ := Action.begin.inj ha
      refine Keeps.flatten fun c hc => ?_
      obtain ⟨call, -, rfl⟩ := List.mem_map.1 hc
      exact call.keeps_events
  | advance j => cases ha

end Order

/-! ### Threads of a mounted file system -/

/-- **No two threads are at the same thing at the same time**: a thread that is about to use the
table of file information, the directories, the `CURL` handle or the log is the only one, for any
number of threads and operations in any order. -/
theorem mount_exclusive {n : ℕ} {actions : List MountThreadAction}
    {threads : List (Thread MountMutex MountShared)}
    (hrun : run step (List.replicate n .idle) (actions.map MountThreadAction.action) =
      some threads) {i j : ℕ} {t u : Thread MountMutex MountShared} (hi : threads[i]? = some t)
    (hj : threads[j]? = some u) (hne : i ≠ j) {shared : MountShared}
    (ht : t.rest.head? = some (.access shared)) : u.rest.head? ≠ some (.access shared) :=
  (wellLocked_of_mount_run hrun).not_both_access hi hj hne ht

/-- **The threads do not block each other for ever**: as long as a thread is in an operation one of
them can go on, and from every state that is reached all operations can come to their end. -/
theorem mount_completes {n : ℕ} {actions : List MountThreadAction}
    {threads : List (Thread MountMutex MountShared)}
    (hrun : run step (List.replicate n .idle) (actions.map MountThreadAction.action) =
      some threads) :
    ((∃ t ∈ threads, t.rest ≠ []) →
      ∃ (i : ℕ) (t t' : Thread MountMutex MountShared),
        threads[i]? = some t ∧ advance threads t = some t') ∧
    ∃ (order : List ℕ) (threads' : List (Thread MountMutex MountShared)),
      run step threads (order.map Action.advance) = some threads' ∧ ∀ t ∈ threads', t.rest = [] :=
  ⟨(wellLocked_of_mount_run hrun).exists_advance, (wellLocked_of_mount_run hrun).completes⟩

/-- A file that is looked up with a request, and a link that is in the cache, up to the search for
the file. -/
def missThenHit : List MountThreadAction :=
  [.operation 0 [.s3FileStat ⟨false, false, fun _ => true, false⟩],
    .operation 1 [.s3ReadLink ⟨false, true, fun _ => true, false⟩ true], .advance 0, .advance 0]

/-- The threads after these steps: the first is in `SearchStatEntry`, and the second comes next. -/
def afterMissThenHit : List (Thread MountMutex MountShared) :=
  [⟨[.statCache, .cache], .access .statTable :: .unlock .statCache :: syslog ++ submitS3Request ++
      insertCacheElement false ++ [.unlock .cache]⟩,
    ⟨[], lockCaches searchStatEntry ++ submitS3Request⟩]

theorem mount_exclusive_missThenHit :
    (⟨[], lockCaches searchStatEntry ++ submitS3Request⟩ :
      Thread MountMutex MountShared).rest.head? ≠ some (.access .statTable) :=
  @mount_exclusive 2 missThenHit afterMissThenHit rfl 0 1 _ _ rfl rfl (by decide) _ rfl

theorem mount_completes_missThenHit :
    ((∃ t ∈ afterMissThenHit, t.rest ≠ []) →
      ∃ (i : ℕ) (t t' : Thread MountMutex MountShared),
        afterMissThenHit[i]? = some t ∧ advance afterMissThenHit t = some t') ∧
    ∃ (order : List ℕ) (threads' : List (Thread MountMutex MountShared)),
      run step afterMissThenHit (order.map Action.advance) = some threads' ∧
        ∀ t ∈ threads', t.rest = [] :=
  @mount_completes 2 missThenHit afterMissThenHit rfl

end AwsS3fs
