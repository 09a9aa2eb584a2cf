/-
**The mutexes of the file cache.**

The threads of the file cache are the ones that serve a client each, the one that fills the transfer
slots, and one for every transfer.  `mainLoop_mutex` of `downloadqueue.c` guards the download queue
and the slots, `cacheDatabase_mutex` of `filecachedb.c` the connection to the database with its
prepared statements, and every subscription to a download has a mutex for those who wait for the
file and one for the acknowledgement.  Queries are made both with and without `mainLoop_mutex`, and
the end of a download locks three mutexes and unlocks them in another order.  A client that ends the
server closes the database without its mutex.

A function is given by what it does to the mutexes and to the things behind them, in the order in
which it does so; what it branches on is left open.  A wait for a condition ends when the condition
is signalled, or without a cause, and the wait for the acknowledgement after a minute at the latest.
The mutex in the memory of a faked `S3COMM` has never been initialised, so a thread that locks it
may get it, or wait for something that nobody signals.  What the slots hold besides their flag is
set before the first transfer is started, and not shared.

Main definitions:

* `AwsS3fs.DaemonMutex`, `AwsS3fs.DaemonShared`, `AwsS3fs.DaemonWait` — the mutexes, what the
  threads share, and what they wait for;
* `AwsS3fs.DaemonLocks.receiveDownload`, `AwsS3fs.DaemonLocks.beginDownload` and the others — what
  the functions lock;
* `AwsS3fs.DaemonCall`, `AwsS3fs.DaemonThreadAction` — a call, and what the threads do.

Main results:

* `AwsS3fs.DaemonCall.disciplined_course` — every function but one locks the mutexes in order;
* `AwsS3fs.daemon_exclusive_iff` — **no two threads use the database, the queue with the flags of
  the slots, or a condition at the same time**, unless a client ends the server;
* `AwsS3fs.daemon_completes` — **the threads do not block each other for ever with mutexes**.
-/

import AwsS3fs.Lib.Waits

set_option relaxedAutoImplicit false
set_option autoImplicit false

namespace AwsS3fs

open Locks Runs Waits

/-! ### Mutexes and what they guard -/

/-- The mutexes that the threads of the file cache lock.  Subscriptions are numbered. -/
inductive DaemonMutex
  /-- `mainLoop_mutex` of `downloadqueue.c`. -/
  | mainLoop
  /-- `acknowledgeMutex` of a subscription. -/
  | acknowledge (subscription : ℕ)
  /-- `waitMutex` of a subscription. -/
  | wait (subscription : ℕ)
  /-- `cacheDatabase_mutex` of `filecachedb.c`. -/
  | cacheDatabase
  deriving DecidableEq, Repr

/-- What is waited for with a mutex. -/
inductive DaemonCondition
  /-- `mainLoop_cond` of `downloadqueue.c`. -/
  | mainLoop
  /-- `waitCond` of a subscription. -/
  | wait (subscription : ℕ)
  /-- `acknowledgeCond` of a subscription. -/
  | acknowledge (subscription : ℕ)
  deriving DecidableEq, Repr

/-- What a thread waits for: a condition, or `curl_mutex` in the memory that a slot takes for an
`S3COMM`. -/
inductive DaemonWait
  | condition (condition : DaemonCondition)
  | curlMutex (slot : ℕ)
  deriving DecidableEq, Repr

/-- What the threads share. -/
inductive DaemonShared
  /-- `downloadQueue`, and which of the `transferers` are ready. -/
  | downloadQueue
  /-- The connection `cacheDatabase` and its statements. -/
  | cacheDatabase
  /-- `pthread_cond_signal` or `pthread_cond_broadcast`. -/
  | signal (condition : DaemonCondition)
  deriving DecidableEq, Repr

/-- The order in which mutexes are locked. -/
def DaemonMutex.rank : DaemonMutex → ℕ
  | .mainLoop => 0
  | .acknowledge _ => 1
  | .wait _ => 2
  | .cacheDatabase => 3

/-- The mutex that is held at every access. -/
def DaemonShared.guard : DaemonShared → DaemonMutex
  | .downloadQueue => .mainLoop
  | .cacheDatabase => .cacheDatabase
  | .signal .mainLoop => .mainLoop
  | .signal (.wait subscription) => .wait subscription
  | .signal (.acknowledge subscription) => .acknowledge subscription

/-- `waitCond` is broadcast, and `acknowledgeCond` waited for a minute. -/
def daemonSignals : Signals DaemonShared DaemonWait where
  signalled
    | .signal condition => some (.condition condition)
    | _ => none
  broadcast
    | .condition (.wait _) => true
    | _ => false
  timed
    | .condition (.acknowledge _) => true
    | _ => false

/-! ### What the functions lock -/

namespace DaemonLocks

/-- What a function does to mutexes and shared things. -/
abbrev Events := List (Event DaemonMutex DaemonShared)

/-- A function that may wait. -/
abbrev DaemonCourse := Course DaemonMutex DaemonShared DaemonWait

/-- A function that does not wait. -/
def withoutWait (events : Events) : DaemonCourse := ⟨events, []⟩

/-- What a function does in front of another one. -/
def inFrontOf (events : Events) (course : DaemonCourse) : DaemonCourse :=
  { course with first := events ++ course.first }

/-- `pthread_cond_wait` and `pthread_cond_timedwait`, with a mutex that is locked, and what is done
behind it. -/
def condWait (condition : DaemonCondition) (mutex : DaemonMutex) (behind : Events) : DaemonCourse :=
  ⟨[.unlock mutex], [(.condition condition, .lock mutex :: behind)]⟩

/-- `LockCache` and `UnlockCache` around the statement of a query. -/
def query : Events := [.lock .cacheDatabase, .access .cacheDatabase, .unlock .cacheDatabase]

def findFile : Events := query

def findParent : Events := query

/-- `Query_CreateLocalDir`. -/
def queryCreateLocalDir (found : Bool) : Events := findParent ++ if found then [] else query

/-- `Query_CreateLocalFile`: the subscription is counted, or the file is inserted. -/
def queryCreateLocalFile : Events := findFile ++ query

/-- `UnsubscribeFromDownload`. -/
def unsubscribeFromDownload (subscription : ℕ) (last : Bool) : Events :=
  [.lock .mainLoop] ++
    (if last then [.lock (.acknowledge subscription),
      .access (.signal (.acknowledge subscription)), .unlock (.acknowledge subscription)]
      else []) ++ [.unlock .mainLoop]

/-- `ReceiveDownload`: with `Query_AddDownload` if the subscription is created. -/
def receiveDownload (subscription : ℕ) (created last : Bool) : DaemonCourse :=
  inFrontOf ([.lock .mainLoop, .access .downloadQueue] ++
      (if created then query ++ [.access .downloadQueue] else []) ++
      [.lock (.wait subscription), .access (.signal .mainLoop), .unlock .mainLoop])
    (condWait (.wait subscription) (.wait subscription)
      (.unlock (.wait subscription) :: unsubscribeFromDownload subscription last))

/-- A slot is looked for, then an upload with `Query_FindPendingUpload`, then a download, and a
transfer is started. -/
def findTransfer : Events := [.access .downloadQueue] ++ query ++ [.access .downloadQueue]

/-- A round of the main loop of `ProcessTransferQueues`. -/
def processTransferQueues (transfers : ℕ) (waits : Bool) : DaemonCourse :=
  inFrontOf ([.lock .mainLoop] ++ (List.replicate transfers findTransfer).flatten ++
      [.access .downloadQueue])
    (if waits then condWait .mainLoop .mainLoop [.unlock .mainLoop]
      else withoutWait [.unlock .mainLoop])

/-- The end of `BeginDownload` after a transfer: `Query_GetOwners`, `Query_DeleteTransfer` and
`Query_MarkFileAsCached`, and the subscribers are told. -/
def completeDownload (subscription : ℕ) (subscribed : Bool) : DaemonCourse :=
  inFrontOf ([.lock .mainLoop] ++ query ++
      [.unlock .mainLoop, .lock .mainLoop, .access .downloadQueue] ++ query ++ query ++
      [.access .downloadQueue, .lock (.acknowledge subscription), .lock (.wait subscription),
        .access (.signal (.wait subscription)), .access (.signal .mainLoop), .unlock .mainLoop,
        .unlock (.wait subscription)])
    (if subscribed then
      condWait (.acknowledge subscription) (.acknowledge subscription)
        [.unlock (.acknowledge subscription)]
      else withoutWait [.unlock (.acknowledge subscription)])

/-- `BeginDownload`, with `Query_GetDownload` before the transfer. -/
def beginDownload (subscription : ℕ) (succeeds subscribed : Bool) : DaemonCourse :=
  inFrontOf ([.lock .mainLoop] ++ query ++ [.unlock .mainLoop])
    (if succeeds then completeDownload subscription subscribed else withoutWait [])

/-- `PutUpload`: `FindFile`, `Query_AddUpload` and `Query_CreateMultiparts`. -/
def putUpload : Events :=
  [.lock .mainLoop] ++ findFile ++ query ++ query ++
    [.access (.signal .mainLoop), .unlock .mainLoop]

/-- `CompleteMultipartUpload`: `Query_AllPartsUploaded`, and `Query_GetPartETag` for the parts. -/
def completeMultipartUpload (allUploaded : Bool) (parts : ℕ) : Events :=
  query ++ if allUploaded then (List.replicate parts query).flatten else []

/-- What a call of `BeginUpload` meets: an upload identifier is requested, all parts have been
uploaded, their number, and the transfer succeeds. -/
structure UploadOutcome where
  initiates : Bool
  allUploaded : Bool
  parts : ℕ
  succeeds : Bool

/-- `BeginUpload` behind the initiation of an upload: `Query_SetPartETag`, and
`Query_DeleteUploadTransfer` in the end. -/
def uploadPart (o : UploadOutcome) : Events :=
  query ++ (if 1 < o.parts then completeMultipartUpload o.allUploaded o.parts else []) ++
    if o.succeeds then [.lock .mainLoop] ++ query ++
      [.access .downloadQueue, .access (.signal .mainLoop), .unlock .mainLoop]
    else []

/-- `BeginUpload`: `Query_GetUpload`, and, if an upload is initiated, a request, for which
`s3_SubmitS3Request` locks `curl_mutex` of the slot, and `Query_SetUploadId`. -/
def beginUpload (slot : ℕ) : Option UploadOutcome → DaemonCourse
  | none => withoutWait query
  | some o =>
      if o.initiates then ⟨query, [(.curlMutex slot, query ++ uploadPart o)]⟩
      else withoutWait (query ++ uploadPart o)

end DaemonLocks

open DaemonLocks

/-- What a thread of the file cache does, with what it meets on its way. -/
inductive DaemonCall
  /-- The keys are stored with `Query_AddUser` if the request is accepted. -/
  | clientConnects (accepted : Bool)
  | clientRequestsLocalFilename
  /-- The file is created if its directory is. -/
  | clientRequestsCreate (accepted parentFound parentCreated : Bool)
  /-- The file is subscribed to if it is known and not cached: the subscription, whether it is
  created, and whether it is left last. -/
  | clientRequestsDownload (download : Option (ℕ × Bool × Bool))
  | clientRequestsFileClose (found : Bool)
  /-- `ShutdownFileCacheDatabase`, if the client may end the server. -/
  | clientRequestsShutdown (allowed : Bool)
  | processTransferQueues (transfers : ℕ) (waits : Bool)
  | beginDownload (subscription : ℕ) (succeeds subscribed : Bool)
  | putUpload
  | beginUpload (slot : ℕ) (upload : Option UploadOutcome)

/-- What a call does to mutexes and shared things. -/
def DaemonCall.course : DaemonCall → DaemonCourse
  | .clientConnects accepted => withoutWait (if accepted then query else [])
  | .clientRequestsLocalFilename => withoutWait query
  | .clientRequestsCreate accepted parentFound parentCreated =>
      withoutWait (if accepted then
        queryCreateLocalDir parentFound ++ if parentCreated then queryCreateLocalFile else []
      else [])
  | .clientRequestsDownload none => withoutWait (findFile ++ query)
  | .clientRequestsDownload (some (subscription, created, last)) =>
      inFrontOf (findFile ++ query) (receiveDownload subscription created last)
  | .clientRequestsFileClose found => withoutWait (findFile ++ if found then query else [])
  | .clientRequestsShutdown allowed =>
      withoutWait (if allowed then [.access .cacheDatabase] else [])
  | .processTransferQueues transfers waits => DaemonLocks.processTransferQueues transfers waits
  | .beginDownload subscription succeeds subscribed =>
      DaemonLocks.beginDownload subscription succeeds subscribed
  | .putUpload => withoutWait DaemonLocks.putUpload
  | .beginUpload slot upload => DaemonLocks.beginUpload slot upload

/-- What the threads do: a thread that is in no call begins one, a thread goes on and may wake
others, it goes on behind a wait, or a thread that waits wakes up without a cause (or gets the mutex
that has not been initialised). -/
inductive DaemonThreadAction
  | begin (i : ℕ) (call : DaemonCall)
  | advance (i : ℕ) (woken : List ℕ)
  | resume (i : ℕ)
  | spurious (i : ℕ)

def DaemonThreadAction.action :
    DaemonThreadAction → Waits.Action DaemonMutex DaemonShared DaemonWait
  | .begin i call => .begin i call.course
  | .advance i woken => .advance i woken
  | .resume i => .resume i
  | .spurious i => .spurious i

/-- The threads of the file cache. -/
abbrev DaemonThreads := List (Waiter DaemonMutex DaemonShared DaemonWait)

/-- The threads after a list of actions, if all of them are possible. -/
def daemonRun (n : ℕ) (actions : List DaemonThreadAction) : Option DaemonThreads :=
  run (Waits.step daemonSignals) (List.replicate n .idle)
    (actions.map DaemonThreadAction.action)

/-- **No two threads use the same thing at the same time.** -/
def DaemonExclusive (waiters : DaemonThreads) : Prop :=
  ∀ (i j : ℕ) (t u : Thread DaemonMutex DaemonShared), (threads waiters)[i]? = some t →
    (threads waiters)[j]? = some u → i ≠ j → ∀ shared : DaemonShared,
      t.rest.head? = some (.access shared) → u.rest.head? ≠ some (.access shared)

/-! ### The order is kept -/

section Order

/-- A function that may be called with these mutexes held. -/
abbrev KeepsDaemonOrder (held : List DaemonMutex) (events : Events) : Prop :=
  Keeps DaemonMutex.rank DaemonShared.guard held events

/-- Every part of a function keeps to the order. -/
abbrev DisciplinedCourse (course : DaemonCourse) : Prop :=
  Course.Disciplined DaemonMutex.rank DaemonShared.guard course

/-- A query may be made with and without `mainLoop_mutex`. -/
theorem keeps_query : KeepsDaemonOrder [] query ∧ KeepsDaemonOrder [.mainLoop] query := ⟨rfl, rfl⟩

theorem disciplined_withoutWait {events : Events} (h : KeepsDaemonOrder [] events) :
    DisciplinedCourse (withoutWait events) :=
  ⟨h, fun _ hpart => absurd hpart List.not_mem_nil⟩

theorem disciplined_inFrontOf {events : Events} {course : DaemonCourse}
    (h : KeepsDaemonOrder [] events) (hcourse : DisciplinedCourse course) :
    DisciplinedCourse (inFrontOf events course) :=
  ⟨h.append hcourse.1, hcourse.2⟩

/-- A condition may be waited for if no other mutex is held. -/
theorem disciplined_condWait {events behind : Events} (condition : DaemonCondition)
    {mutex : DaemonMutex} (h : KeepsDaemonOrder [] (events ++ [.unlock mutex]))
    (hbehind : KeepsDaemonOrder [] (.lock mutex :: behind)) :
    DisciplinedCourse (inFrontOf events (condWait condition mutex behind)) := by
  refine ⟨h, fun part hpart => ?_⟩
  rw [List.mem_singleton.1 hpart]
  exact hbehind

theorem keeps_unsubscribeFromDownload (subscription : ℕ) (last : Bool) :
    KeepsDaemonOrder [] (.lock (.wait subscription) :: .unlock (.wait subscription) ::
      unsubscribeFromDownload subscription last) := by
  cases last <;>
    simp [KeepsDaemonOrder, Keeps, unsubscribeFromDownload, run_lock, run_unlock, run_access,
      DaemonMutex.rank, DaemonShared.guard]

theorem disciplined_receiveDownload (subscription : ℕ) (created last : Bool) :
    DisciplinedCourse (receiveDownload subscription created last) := by
  refine disciplined_condWait _ ?_ (keeps_unsubscribeFromDownload subscription last)
  cases created <;>
    simp [KeepsDaemonOrder, Keeps, query, run_lock, run_unlock, run_access, DaemonMutex.rank,
      DaemonShared.guard]

theorem disciplined_completeDownload (subscription : ℕ) (subscribed : Bool) :
    DisciplinedCourse (completeDownload subscription subscribed) := by
  cases subscribed with
  | true =>
      refine disciplined_condWait _ ?_ ?_ <;>
        simp [KeepsDaemonOrder, Keeps, query, run_lock, run_unlock, run_access, DaemonMutex.rank,
          DaemonShared.guard]
  | false =>
      refine disciplined_withoutWait ?_
      simp [KeepsDaemonOrder, Keeps, withoutWait, query, run_lock, run_unlock, run_access,
        DaemonMutex.rank, DaemonShared.guard]

theorem disciplined_processTransferQueues (transfers : ℕ) (waits : Bool) :
    DisciplinedCourse (DaemonLocks.processTransferQueues transfers waits) := by
  have hround : KeepsDaemonOrder [.mainLoop]
      ((List.replicate transfers findTransfer).flatten ++ [.access .downloadQueue]) := by
    refine (Keeps.flatten fun c hc => ?_).append rfl
    rw [List.eq_of_mem_replicate hc]
    rfl
  have hlocked : KeepsDaemonOrder [] ([.lock .mainLoop] ++
      (List.replicate transfers findTransfer).flatten ++ [.access .downloadQueue] ++
        [.unlock .mainLoop]) := by
    simpa using Keeps.locked (by simp) hround
  cases waits with
  | true => exact disciplined_condWait _ hlocked rfl
  | false => exact disciplined_withoutWait hlocked

theorem keeps_completeMultipartUpload (allUploaded : Bool) (parts : ℕ) :
    KeepsDaemonOrder [] (completeMultipartUpload allUploaded parts) := by
  refine keeps_query.1.append (Keeps.ite _ (Keeps.flatten fun c hc => ?_) (keeps_nil _))
  rw [List.eq_of_mem_replicate hc]
  exact keeps_query.1

theorem keeps_uploadPart (o : UploadOutcome) : KeepsDaemonOrder [] (uploadPart o) := by
  have hcomplete := keeps_completeMultipartUpload o.allUploaded o.parts
  have hend : KeepsDaemonOrder [] ([.lock .mainLoop] ++ query ++
    [.access .downloadQueue, .access (.signal .mainLoop), .unlock .mainLoop]) := rfl
  exact Keeps.append (keeps_query.1.append (Keeps.ite _ hcomplete (keeps_nil _)))
    (Keeps.ite _ hend (keeps_nil _))

theorem disciplined_beginUpload (slot : ℕ) (upload : Option UploadOutcome) :
    DisciplinedCourse (DaemonLocks.beginUpload slot upload) := by
  cases upload with
  | none => exact disciplined_withoutWait keeps_query.1
  | some o =>
      have hpart : KeepsDaemonOrder [] (query ++ uploadPart o) :=
        keeps_query.1.append (keeps_uploadPart o)
      rw [DaemonLocks.beginUpload]
      split
      · refine ⟨keeps_query.1, fun part hmem => ?_⟩
        rw [List.mem_singleton.1 hmem]
        exact hpart
      · exact disciplined_withoutWait hpart

/-- **Every function locks the mutexes in order**, whatever it meets, but for the one that closes
the database. -/
theorem DaemonCall.disciplined_course (call : DaemonCall)
    (hshutdown : call ≠ .clientRequestsShutdown true) : DisciplinedCourse call.course := by
  have hquery : KeepsDaemonOrder [] query := keeps_query.1
  cases call with
  | clientConnects accepted =>
      exact disciplined_withoutWait (Keeps.ite _ hquery (keeps_nil _))
  | clientRequestsLocalFilename => exact disciplined_withoutWait hquery
  | clientRequestsCreate accepted parentFound parentCreated =>
      refine disciplined_withoutWait
        (Keeps.ite _ (Keeps.append (hquery.append ?_) ?_) (keeps_nil _))
      · exact Keeps.ite _ (keeps_nil _) hquery
      · exact Keeps.ite _ (hquery.append hquery) (keeps_nil _)
  | clientRequestsDownload download =>
      cases download with
      | none => exact disciplined_withoutWait (hquery.append hquery)
      | some subscriber =>
          obtain ⟨subscription, created, last⟩ := subscriber
          exact disciplined_inFrontOf (hquery.append hquery)
            (disciplined_receiveDownload subscription created last)
  | clientRequestsFileClose found =>
      exact disciplined_withoutWait (hquery.append (Keeps.ite _ hquery (keeps_nil _)))
  | clientRequestsShutdown allowed =>
      cases allowed with
      | true => exact absurd rfl hshutdown
      | false => exact disciplined_withoutWait rfl
  | processTransferQueues transfers waits => exact disciplined_processTransferQueues transfers waits
  | beginDownload subscription succeeds subscribed =>
      refine disciplined_inFrontOf rfl ?_
      cases succeeds with
      | true => exact disciplined_completeDownload subscription subscribed
      | false => exact disciplined_withoutWait rfl
  | putUpload => exact disciplined_withoutWait rfl
  | beginUpload slot upload => exact disciplined_beginUpload slot upload

/-- Threads that call these functions keep to the order of the mutexes. -/
theorem orderly_of_daemonRun {n : ℕ} {actions : List DaemonThreadAction} {waiters : DaemonThreads}
    (hshutdown : ∀ i call, .begin i call ∈ actions → call ≠ .clientRequestsShutdown true)
    (hrun : daemonRun n actions = some waiters) :
    Waits.Orderly DaemonMutex.rank DaemonShared.guard waiters := by
  refine orderly_of_run (orderly_idle n) ?_ hrun
  intro i course hbegin
  obtain ⟨a, ha, hcourse⟩ := List.mem_map.1 hbegin
  cases a with
  | begin j call =>
      obtain ⟨-, rfl⟩ := Waits.Action.begin.inj hcourse
      exact call.disciplined_course (hshutdown j call ha)
  | advance j woken => cases hcourse
  | resume j => cases hcourse
  | spurious j => cases hcourse

end Order

/-! ### Threads of the file cache -/

/-- **No two threads use the same thing at the same time**, in any run with any number of threads of
calls of some kind, exactly if no client ends the server among them. -/
theorem daemon_exclusive_iff (allowed : DaemonCall → Prop) :
    (∀ (n : ℕ) (actions : List DaemonThreadAction) (waiters : DaemonThreads),
        (∀ i call, .begin i call ∈ actions → allowed call) → daemonRun n actions = some waiters →
          DaemonExclusive waiters) ↔ ¬ allowed (.clientRequestsShutdown true) := by
  constructor
  · -- two clients that end the server close the database at once
    intro h hallowed
    have hboth := h 2 [.begin 0 (.clientRequestsShutdown true),
      .begin 1 (.clientRequestsShutdown true)] _ (fun i call hbegin => ?_) rfl 0 1 _ _ rfl rfl
      (by decide) .cacheDatabase rfl
    · exact hboth rfl
    · rcases List.mem_cons.1 hbegin with hbegin | hbegin
      · obtain ⟨-, rfl⟩ := DaemonThreadAction.begin.inj hbegin
        exact hallowed
      · obtain ⟨-, rfl⟩ := DaemonThreadAction.begin.inj (List.mem_singleton.1 hbegin)
        exact hallowed
  · intro hnot n actions waiters hcalls hrun i j t u hi hj hne shared ht
    have horderly := orderly_of_daemonRun (fun i call hbegin hshutdown =>
      hnot (hshutdown ▸ hcalls i call hbegin)) hrun
    exact horderly.locked.not_both_access hi hj hne ht

/-- A thread has come to the end of its call, or waits for a condition that nobody has signalled, or
for a mutex that has not been initialised. -/
def Rests (w : Waiter DaemonMutex DaemonShared DaemonWait) : Prop :=
  w.thread.rest = [] ∧ ∀ part ∈ w.later.head?, w.woken = false ∧
    (part.1 = .condition .mainLoop ∨ (∃ subscription, part.1 = .condition (.wait subscription)) ∨
      ∃ slot, part.1 = .curlMutex slot)

theorem Rests.of_halted {w : Waiter DaemonMutex DaemonShared DaemonWait}
    (h : w.Halted daemonSignals) : Rests w := by
  refine ⟨h.1, fun part hpart => ?_⟩
  obtain ⟨hwoken, htimed⟩ := h.2 part hpart
  refine ⟨hwoken, ?_⟩
  obtain ⟨wait, events⟩ := part
  cases wait with
  | curlMutex slot => exact .inr (.inr ⟨slot, rfl⟩)
  | condition condition =>
      cases condition with
      | mainLoop => exact .inl rfl
      | wait subscription => exact .inr (.inl ⟨subscription, rfl⟩)
      | acknowledge subscription => cases htimed

/-- **The threads do not block each other for ever with mutexes**: as long as one of them is in a
call and does not wait for a condition, some thread can go on, and from every state that is reached
all calls can come to their end or to such a wait: of the main loop for something to do, of a client
for the end of its download, or for a mutex that has not been initialised.  Nobody has to wake up
without a cause for this. -/
theorem daemon_completes {n : ℕ} {actions : List DaemonThreadAction} {waiters : DaemonThreads}
    (hshutdown : ∀ i call, .begin i call ∈ actions → call ≠ .clientRequestsShutdown true)
    (hrun : daemonRun n actions = some waiters) :
    ((∃ w ∈ waiters, w.thread.rest ≠ []) → ∃ (i : ℕ) (woken : List ℕ) (waiters' : DaemonThreads),
      Waits.step daemonSignals waiters (.advance i woken) = some waiters') ∧
    ∃ (order : List (Waits.Action DaemonMutex DaemonShared DaemonWait)) (waiters' : DaemonThreads),
      (∀ a ∈ order, a.Continues) ∧ run (Waits.step daemonSignals) waiters order = some waiters' ∧
        ∀ w ∈ waiters', Rests w := by
  have horderly := orderly_of_daemonRun hshutdown hrun
  obtain ⟨order, waiters', horder, hrun', hhalted⟩ :=
    horderly.completes daemonSignals
  exact ⟨horderly.exists_advance, order, waiters', horder, hrun',
    fun w hw => .of_halted (hhalted w hw)⟩

/-- A client waits for its download when the download ends. -/
def endOfDownload : List DaemonThreadAction :=
  .begin 0 (.clientRequestsDownload (some (0, false, true))) :: List.replicate 12 (.advance 0 []) ++
    .begin 1 (.beginDownload 0 true true) :: List.replicate 21 (.advance 1 []) ++ [.advance 1 [0]]

/-- The client has been woken, and the download is about to tell the main loop. -/
def atEndOfDownload : DaemonThreads :=
  [⟨⟨[], []⟩, [(.condition (.wait 0), .lock (.wait 0) :: .unlock (.wait 0) ::
      unsubscribeFromDownload 0 true)], true⟩,
    ⟨⟨[.wait 0, .acknowledge 0, .mainLoop], [.access (.signal .mainLoop), .unlock .mainLoop,
      .unlock (.wait 0), .unlock (.acknowledge 0)]⟩,
      [(.condition (.acknowledge 0), [.lock (.acknowledge 0), .unlock (.acknowledge 0)])], false⟩]

theorem daemon_completes_endOfDownload :
    ((∃ w ∈ atEndOfDownload, w.thread.rest ≠ []) →
      ∃ (i : ℕ) (woken : List ℕ) (waiters' : DaemonThreads),
        Waits.step daemonSignals atEndOfDownload (.advance i woken) = some waiters') ∧
    ∃ (order : List (Waits.Action DaemonMutex DaemonShared DaemonWait)) (waiters' : DaemonThreads),
      (∀ a ∈ order, a.Continues) ∧
        run (Waits.step daemonSignals) atEndOfDownload order = some waiters' ∧
          ∀ w ∈ waiters', Rests w :=
  @daemon_completes 2 endOfDownload atEndOfDownload (fun i call hbegin => by
    simp only [endOfDownload, List.cons_append, List.mem_cons, List.mem_append,
      List.mem_replicate, reduceCtorEq, and_false, false_or, List.not_mem_nil, or_false,
      DaemonThreadAction.begin.injEq] at hbegin
    rcases hbegin with ⟨-, rfl⟩ | ⟨-, rfl⟩ <;> exact nofun) rfl

end AwsS3fs
