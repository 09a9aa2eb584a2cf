/-
**The transfer queues.**

`downloadqueue.c` is a protocol between threads.  Any number of clients call `ReceiveDownload` and
wait there for a file, any number of them call `PutUpload`, one thread runs `ProcessTransferQueues`
and hands the queued files to three transfer slots, and every file that is handed out gets a thread
of its own, `BeginDownload` or `BeginUpload`.  They share the queue of download subscriptions, the
slots and the tables of `AwsS3fs/CacheDatabase.lean`, under one mutex for all of it and two mutexes
with a condition variable each for every subscription.

This module is the protocol as a step function.  A step of a thread runs from where the thread last
blocked to where it may block next: a mutex it has to lock, a condition it waits for, or an answer
from outside.  Queries are atomic, because each runs under the mutex of the database.  An action
says which thread is next and what comes from outside: the status of a transfer, the row that
SQLite picks, the end of a timed wait, a wake-up without a cause.

Subscriptions are numbered in the order in which they are created, and a pointer to one is its
number.  `malloc` may put a subscription where one has been freed, and whoever still has the pointer
to the old one then uses the new one: `State.current` says which subscription a pointer leads to.
Where nothing has been put yet, a thread that still uses a freed subscription uses what is left of
it.  A C program that gets there has no defined meaning any more.

Main definitions:

* `AwsS3fs.Subscription`, `AwsS3fs.State` — the shared data, and where every thread is;
* `AwsS3fs.Action`, `AwsS3fs.step` — **one step of any thread**;
* `AwsS3fs.Transition` — the same, one constructor for every way to step;
* `AwsS3fs.State.initial` — nothing has been requested yet.

Main results:

* `AwsS3fs.transition_of_step` — every step is one of the transitions.
-/

import AwsS3fs.CacheDatabase
import AwsS3fs.Multipart
import AwsS3fs.Lib.Runs

set_option relaxedAutoImplicit false
set_option autoImplicit false

namespace AwsS3fs

open CLib

/-! ### The shared data and the threads -/

/-- `MAX_SIMULTANEOUS_TRANSFERS`. -/
abbrev maxSimultaneousTransfers : ℕ := 3

/-- A transfer slot. -/
abbrev Slot := Fin maxSimultaneousTransfers

instance : NeZero maxSimultaneousTransfers := ⟨by decide⟩

/-- The threads that can own a mutex from one step to the next. -/
inductive Thread
  | processor
  | receiver (i : ℕ)
  | putter (i : ℕ)
  | downloader (j : ℕ)
  deriving DecidableEq, Repr

/-- `struct DownloadSubscription`, with the owners of its two mutexes. -/
structure Subscription where
  fileId : ℤ
  downloadActive : Bool
  subscribers : ℤ
  waitMutex : Option Thread
  acknowledgeMutex : Option Thread
  freed : Bool
  /-- The row of `transfers` that was inserted for the subscription, if any. -/
  transfer : Option ℕ

/-- Where a call of `ReceiveDownload` is. -/
inductive Receiver
  /-- Counted, with the main mutex, about to lock `waitMutex`. -/
  | subscribed (a : ℕ)
  /-- With `waitMutex`, about to wait. -/
  | armed (a : ℕ)
  /-- Waiting on `waitCond`. -/
  | waiting (a : ℕ)
  /-- Woken, about to lock `waitMutex` again. -/
  | woken (a : ℕ)
  /-- About to lock the main mutex in `UnsubscribeFromDownload`. -/
  | unsubscribing (a : ℕ)
  /-- The last one, with the main mutex, about to lock `acknowledgeMutex`. -/
  | acknowledging (a : ℕ)
  | done
  deriving DecidableEq, Repr

/-- Where a call of `PutUpload` is. -/
inductive Putter
  /-- With the main mutex, about to add the parts. -/
  | added (fileId filesize : ℤ)
  | done
  deriving DecidableEq, Repr

/-- Where `ProcessTransferQueues` is. -/
inductive Processor
  /-- About to lock the main mutex. -/
  | locking
  /-- With the main mutex, in the loop that fills the slots. -/
  | handing
  /-- Waiting on `mainLoop_cond`. -/
  | waiting
  /-- Woken, about to lock the main mutex again. -/
  | woken
  deriving DecidableEq, Repr

/-- Where a `BeginDownload` is. -/
inductive DownloadStage
  /-- About to fetch what the request is made of. -/
  | starting
  /-- In `curl_easy_perform`. -/
  | transferring
  /-- About to fetch the owners of the file. -/
  | granting
  /-- About to lock the main mutex, with the file in the shared cache. -/
  | publishing
  /-- With the main mutex, off the queue, about to lock `acknowledgeMutex`. -/
  | finishing
  /-- With the main mutex and `acknowledgeMutex`, about to lock `waitMutex`. -/
  | broadcasting
  /-- With `acknowledgeMutex`, about to look at `subscribers`. -/
  | completed
  /-- In the timed wait on `acknowledgeCond`. -/
  | waiting
  /-- Woken, about to lock `acknowledgeMutex` again. -/
  | woken
  /-- About to free the subscription. -/
  | freeing
  | exited
  /-- Exited after a transfer with a status other than `0`. -/
  | failed
  deriving DecidableEq, Repr

/-- A thread that runs `BeginDownload`. -/
structure Downloader where
  slot : Slot
  address : ℕ
  stage : DownloadStage
  deriving DecidableEq, Repr

/-- Where a `BeginUpload` that has found something to upload is. -/
inductive UploadStage
  /-- After `Query_GetUpload`. -/
  | fetched
  /-- After `InitiateMultipartUpload`, if it is needed. -/
  | initiated
  /-- After `CreateFilePart`. -/
  | created
  /-- After `Query_SetPartETag`. -/
  | tagged
  /-- After a `PUT` with status `0`. -/
  | uploaded
  | exited
  /-- Exited after a `PUT` with another status. -/
  | failed
  deriving DecidableEq, Repr

/-- What a `BeginUpload` is doing. -/
inductive UploadWork
  /-- About to ask `Query_GetUpload`. -/
  | starting
  /-- Exited, because there was nothing to upload. -/
  | nothing
  | part (up : Database.Upload) (stage : UploadStage)
  deriving DecidableEq, Repr

/-- A thread that runs `BeginUpload`. -/
structure Uploader where
  slot : Slot
  fileId : ℤ
  work : UploadWork
  deriving DecidableEq, Repr

/-- The shared data, and where every thread is.  Threads are listed in the order in which they were
started, and stay in the lists when they have exited. -/
structure State where
  /-- The owner of `mainLoop_mutex`. -/
  mainLoop : Option Thread
  /-- The pointers to the queued subscriptions. -/
  downloadQueue : List ℕ
  heap : ℕ → Subscription
  /-- The number of the next subscription. -/
  allocated : ℕ
  /-- The subscription that is where another one was. -/
  current : ℕ → ℕ
  isReady : Slot → Bool
  db : Database
  processor : Processor
  receivers : List Receiver
  putters : List Putter
  downloaders : List Downloader
  uploaders : List Uploader

namespace State

variable (s : State)

/-! ### Small changes -/

/-- `pthread_cond_signal( &mainLoop_cond )`; only the queue processor waits for it. -/
def signal : State :=
  { s with processor := if s.processor = .waiting then .woken else s.processor }

def modifySubscription (a : ℕ) (g : Subscription → Subscription) : State :=
  { s with heap := Function.update s.heap a (g (s.heap a)) }

def setReceiver (i : ℕ) (r : Receiver) : State := { s with receivers := s.receivers.set i r }

def setDownloader (j : ℕ) (d : Downloader) : State :=
  { s with downloaders := s.downloaders.set j d }

def setUploader (k : ℕ) (u : Uploader) : State := { s with uploaders := s.uploaders.set k u }

/-! ### `ReceiveDownload` -/

/-- `g_queue_find_custom` with `FindInDownloadQueue`. -/
def findInDownloadQueue (fileId : ℤ) : Option ℕ :=
  s.downloadQueue.find? fun a => (s.heap a).fileId = fileId

/-- A call that finds a subscription to the file subscribes to it too. -/
def join (a : ℕ) : State :=
  { s.modifySubscription a (fun x => { x with subscribers := x.subscribers + 1 }) with
    mainLoop := some (.receiver s.receivers.length)
    receivers := s.receivers ++ [.subscribed a] }

/-- What `malloc` may return for a subscription: memory that is fresh, or that of a subscription
which has been freed. -/
def Available (reused : Option ℕ) : Prop :=
  ∀ a ∈ reused, a < s.allocated ∧ (s.heap a).freed = true ∧ s.current a = a

instance (reused : Option ℕ) : Decidable (s.Available reused) :=
  inferInstanceAs (Decidable (∀ a ∈ reused, _))

/-- A call that finds none creates one, and queues it whether the row could be inserted or not. -/
def create (fileId owner : ℤ) (reused : Option ℕ) : State :=
  { s with
    mainLoop := some (.receiver s.receivers.length)
    downloadQueue := s.downloadQueue ++ [s.allocated]
    heap := Function.update s.heap s.allocated
      { fileId := fileId, downloadActive := false, subscribers := 1, waitMutex := none
        acknowledgeMutex := none, freed := false
        transfer := if s.db.Insertable fileId owner then some s.db.nextId else none }
    allocated := s.allocated + 1
    current := fun a => if reused = some (s.current a) then s.allocated else s.current a
    db := s.db.addDownload fileId owner
    receivers := s.receivers ++ [.subscribed s.allocated] }

/-- `waitMutex` is locked, the queue processor signalled and the main mutex unlocked. -/
def arm (i a : ℕ) : State :=
  { ((s.setReceiver i (.armed a)).modifySubscription a
      fun x => { x with waitMutex := some (.receiver i) }).signal with
    mainLoop := none }

/-- `pthread_cond_wait` unlocks `waitMutex` and waits. -/
def wait (i a : ℕ) : State :=
  (s.setReceiver i (.waiting a)).modifySubscription a fun x => { x with waitMutex := none }

/-- `UnsubscribeFromDownload` by a subscriber that is not the last one. -/
def unsubscribe (i a : ℕ) : State :=
  (s.setReceiver i .done).modifySubscription (s.current a)
    fun x => { x with subscribers := x.subscribers - 1 }

/-- `UnsubscribeFromDownload` by the last subscriber, who keeps the main mutex. -/
def unsubscribeLast (i a : ℕ) : State :=
  { (s.setReceiver i (.acknowledging a)).modifySubscription (s.current a)
      (fun x => { x with subscribers := x.subscribers - 1 }) with
    mainLoop := some (.receiver i) }

/-- The last subscriber signals `acknowledgeCond`, for which only the download of the subscription
waits. -/
def acknowledge (i a : ℕ) : State :=
  { s.setReceiver i .done with
    mainLoop := none
    downloaders := s.downloaders.map fun d =>
      if d.address = s.current a ∧ d.stage = .waiting then { d with stage := .woken } else d }

/-- The next step of a call of `ReceiveDownload`.  Until it has been woken its subscription is where
it was; after that it may have been freed. -/
def receiverStep (i : ℕ) : Option State :=
  match s.receivers[i]? with
  | some (.subscribed a) => if (s.heap a).waitMutex = none then some (s.arm i a) else none
  | some (.armed a) => some (s.wait i a)
  | some (.woken a) =>
      -- `pthread_cond_wait` locks `waitMutex` before it returns, and it is unlocked at once
      if (s.heap (s.current a)).waitMutex = none then some (s.setReceiver i (.unsubscribing a))
      else none
  | some (.unsubscribing a) =>
      if s.mainLoop = none then
        if (s.heap (s.current a)).subscribers ≠ 0 then
          if (s.heap (s.current a)).subscribers - 1 = 0 then some (s.unsubscribeLast i a)
          else some (s.unsubscribe i a)
        else some (s.setReceiver i .done)
      else none
  | some (.acknowledging a) =>
      if (s.heap (s.current a)).acknowledgeMutex = none then some (s.acknowledge i a) else none
  | _ => none

/-! ### `PutUpload` -/

/-- `Query_AddUpload`, whether the row could be inserted or not. -/
def addUpload (fileId owner filesize : ℤ) : State :=
  { s with
    mainLoop := some (.putter s.putters.length)
    db := s.db.addUpload fileId owner filesize
    putters := s.putters ++ [.added fileId filesize] }

/-- `Query_CreateMultiparts`, and the signal to the queue processor. -/
def createMultiparts (i : ℕ) (fileId filesize : ℤ) : State :=
  { s.signal with
    mainLoop := none
    db := s.db.createMultiparts fileId (numberOfMultiparts filesize)
    putters := s.putters.set i .done }

/-! ### `ProcessTransferQueues` -/

/-- `FindAvailableTransferer`. -/
def findAvailableTransferer : Option Slot :=
  (List.finRange maxSimultaneousTransfers).find? s.isReady

/-- `GetSubscriptionFromDownloadQueue`. -/
def getSubscriptionFromDownloadQueue : Option ℕ :=
  s.downloadQueue.find? fun a => !(s.heap a).downloadActive

/-- A `BeginUpload` is started. -/
def startUpload (slot : Slot) (fileId : ℤ) : State :=
  { s with
    isReady := Function.update s.isReady slot false
    uploaders := s.uploaders ++ [⟨slot, fileId, .starting⟩] }

/-- A `BeginDownload` is started. -/
def startDownload (slot : Slot) (a : ℕ) : State :=
  { s.modifySubscription a (fun x => { x with downloadActive := true }) with
    isReady := Function.update s.isReady slot false
    downloaders := s.downloaders ++ [⟨slot, a, .starting⟩] }

/-- `pthread_cond_wait` on `mainLoop_cond`. -/
def sleep : State := { s with mainLoop := none, processor := .waiting }

/-- The next step of the queue processor.  The slot is any slot that is ready; the program takes
the first one. -/
def processorStep (slot : Slot) (choice : ℕ) : Option State :=
  match s.processor with
  | .locking =>
      if s.mainLoop = none then some { s with mainLoop := some .processor, processor := .handing }
      else none
  | .handing =>
      -- the loop is left when no slot is ready or nothing is queued, and both ways lead to the wait
      if s.findAvailableTransferer = none then some s.sleep
      else if s.isReady slot then
        -- downloads have to wait for the uploads
        if s.db.findPendingUpload choice ≠ 0 then
          some (s.startUpload slot (s.db.findPendingUpload choice))
        else
          match s.getSubscriptionFromDownloadQueue with
          | some a => some (s.startDownload slot a)
          | none => some s.sleep
      else none
  | .woken => if s.mainLoop = none then some { s with processor := .locking } else none
  | .waiting => none

/-! ### `BeginDownload` -/

/-- The file is taken off the queue and out of the table, and the slot is ready again. -/
def finish (j : ℕ) (d : Downloader) : State :=
  { s.setDownloader j { d with stage := .finishing } with
    mainLoop := some (.downloader j)
    downloadQueue := s.downloadQueue.erase d.address
    db := (s.db.deleteTransfer (s.heap d.address).fileId).markFileAsCached (s.heap d.address).fileId
    isReady := Function.update s.isReady d.slot true }

/-- `acknowledgeMutex` is locked. -/
def lockAcknowledge (j : ℕ) (d : Downloader) : State :=
  (s.setDownloader j { d with stage := .broadcasting }).modifySubscription d.address
    fun x => { x with acknowledgeMutex := some (.downloader j) }

/-- The broadcast to all that wait on `waitCond`, under `waitMutex`. -/
def broadcast (j : ℕ) (d : Downloader) : State :=
  { ((s.setDownloader j { d with stage := .completed }).modifySubscription d.address
      fun x => { x with downloadActive := false }).signal with
    mainLoop := none
    receivers := s.receivers.map fun r =>
      if r = .waiting d.address then .woken d.address else r }

/-- `acknowledgeMutex` is unlocked, to wait for the last subscriber or because there is none. -/
def unlockAcknowledge (j : ℕ) (d : Downloader) : State :=
  (s.setDownloader j
    { d with stage := if (s.heap d.address).subscribers ≠ 0 then .waiting else .freeing })
    |>.modifySubscription d.address fun x => { x with acknowledgeMutex := none }

/-- `free( subscription )`, and the thread exits. -/
def free (j : ℕ) (d : Downloader) : State :=
  (s.setDownloader j { d with stage := .exited }).modifySubscription d.address
    fun x => { x with freed := true }

/-- The next step of a `BeginDownload`, with the status of the transfer. -/
def downloaderStep (j : ℕ) (status : ℤ) : Option State :=
  match s.downloaders[j]? with
  | none => none
  | some d =>
      match d.stage with
      | .starting =>
          if s.mainLoop = none then some (s.setDownloader j { d with stage := .transferring })
          else none
      | .transferring =>
          if status = 0 then some (s.setDownloader j { d with stage := .granting })
          -- the thread exits, and leaves the queue and the slot as they are
          else some (s.setDownloader j { d with stage := .failed })
      | .granting =>
          if s.mainLoop = none then some (s.setDownloader j { d with stage := .publishing })
          else none
      | .publishing => if s.mainLoop = none then some (s.finish j d) else none
      | .finishing =>
          if (s.heap d.address).acknowledgeMutex = none then some (s.lockAcknowledge j d) else none
      | .broadcasting =>
          if (s.heap d.address).waitMutex = none then some (s.broadcast j d) else none
      | .completed => some (s.unlockAcknowledge j d)
      | .woken =>
          if (s.heap d.address).acknowledgeMutex = none then
            some (s.setDownloader j { d with stage := .freeing })
          else none
      | .freeing => some (s.free j d)
      | .waiting | .exited | .failed => none

/-! ### `BeginUpload` -/

/-- `Query_GetUpload`.  A thread that finds nothing exits. -/
def fetch (k : ℕ) (u : Uploader) (choice : ℕ) : State :=
  s.setUploader k { u with
    work := match s.db.getUpload u.fileId choice with
      | none => .nothing
      | some up => .part up .fetched }

/-- The thread goes on to the next stage. -/
def advance (k : ℕ) (u : Uploader) (up : Database.Upload) (stage : UploadStage) : State :=
  s.setUploader k { u with work := .part up stage }

/-- A multipart upload is needed if the size in the table says so; it is initiated unless it has an
identifier already.  A `NULL` identifier is read as a string, which ends the program. -/
def initiate (u : Uploader) (up : Database.Upload) (uploadId : Bytes) : Option Database :=
  if 1 < numberOfMultiparts up.filesize then
    match up.uploadId with
    | none => none
    | some id =>
        if ascii "NULL" <+: id then some (s.db.setUploadId u.fileId uploadId) else some s.db
  else some s.db

/-- The upload is deleted from the tables, and the slot is ready again. -/
def completeUpload (k : ℕ) (u : Uploader) (up : Database.Upload) : State :=
  { (s.advance k u up .exited).signal with
    db := s.db.deleteUploadTransfer u.fileId
    isReady := Function.update s.isReady u.slot true }

/-- The next step of a `BeginUpload`, with the row that the query picks, the status of the `PUT` and
the text that becomes the upload identifier or the tag of the part.  `CompleteMultipartUpload` after
the `PUT` only reads the tables. -/
def uploaderStep (k : ℕ) (choice : ℕ) (status : ℤ) (text : Bytes) : Option State :=
  match s.uploaders[k]? with
  | none => none
  | some u =>
      match u.work with
      | .starting => some (s.fetch k u choice)
      | .nothing => none
      | .part up .fetched =>
          (s.initiate u up text).map fun db => { s.advance k u up .initiated with db := db }
      | .part up .initiated => some (s.advance k u up .created)
      | .part up .created =>
          some { s.advance k u up .tagged with db := s.db.setPartETag u.fileId up.part text }
      | .part up .tagged =>
          -- another status leaves the row and the slot as they are
          if status = 0 then some (s.advance k u up .uploaded) else some (s.advance k u up .failed)
      | .part up .uploaded =>
          if s.mainLoop = none then some (s.completeUpload k u up) else none
      | .part _ .exited | .part _ .failed => none

end State

/-! ### One step of any thread -/

/-- What happens next. -/
inductive Action
  /-- `ReceiveDownload` is called and locks the main mutex; a subscription that it creates is put
  where an old one was, or into fresh memory. -/
  | receive (fileId owner : ℤ) (reused : Option ℕ)
  | receiver (i : ℕ)
  /-- `PutUpload` is called and locks the main mutex; it finds the file and its size. -/
  | put (fileId owner filesize : ℤ)
  | putter (i : ℕ)
  | processor (slot : Slot) (choice : ℕ)
  | downloader (j : ℕ) (status : ℤ)
  | uploader (k : ℕ) (choice : ℕ) (status : ℤ) (text : Bytes)
  /-- The timed wait of a download ends. -/
  | expire (j : ℕ)
  /-- A subscriber wakes up without a cause. -/
  | wakeReceiver (i : ℕ)
  /-- The queue processor wakes up without a cause. -/
  | wakeProcessor
  /-- A file becomes known. -/
  | addFile (fileId : ℤ)
  /-- A user becomes known. -/
  | addUser (uid : ℤ)
  deriving DecidableEq, Repr

/-- **One step of any thread.** -/
def step (s : State) : Action → Option State
  | .receive fileId owner reused =>
      if s.mainLoop = none then
        match s.findInDownloadQueue fileId with
        | some a => some (s.join a)
        | none => if s.Available reused then some (s.create fileId owner reused) else none
      else none
  | .receiver i => s.receiverStep i
  | .put fileId owner filesize =>
      if s.mainLoop = none then some (s.addUpload fileId owner filesize) else none
  | .putter i =>
      match s.putters[i]? with
      | some (.added fileId filesize) => some (s.createMultiparts i fileId filesize)
      | _ => none
  | .processor slot choice => s.processorStep slot choice
  | .downloader j status => s.downloaderStep j status
  | .uploader k choice status text => s.uploaderStep k choice status text
  | .expire j =>
      match s.downloaders[j]? with
      | some d =>
          if d.stage = .waiting then some (s.setDownloader j { d with stage := .woken }) else none
      | none => none
  | .wakeReceiver i =>
      match s.receivers[i]? with
      | some (.waiting a) => some (s.setReceiver i (.woken a))
      | _ => none
  | .wakeProcessor =>
      if s.processor = .waiting then some { s with processor := .woken } else none
  | .addFile fileId => some { s with db := s.db.addFile fileId }
  | .addUser uid => some { s with db := s.db.addUser uid }

/-- One step of any thread, with one constructor for every way to step: the state it starts from,
the action, and the state it leads to. -/
inductive Transition (s : State) : Action → State → Prop
  | join {fileId owner : ℤ} {reused : Option ℕ} {a : ℕ} (hfree : s.mainLoop = none)
      (hfind : s.findInDownloadQueue fileId = some a) :
      Transition s (.receive fileId owner reused) (s.join a)
  | create {fileId owner : ℤ} {reused : Option ℕ} (hfree : s.mainLoop = none)
      (hfind : s.findInDownloadQueue fileId = none) (havailable : s.Available reused) :
      Transition s (.receive fileId owner reused) (s.create fileId owner reused)
  | arm {i a : ℕ} (hr : s.receivers[i]? = some (.subscribed a))
      (hwait : (s.heap a).waitMutex = none) : Transition s (.receiver i) (s.arm i a)
  | wait {i a : ℕ} (hr : s.receivers[i]? = some (.armed a)) :
      Transition s (.receiver i) (s.wait i a)
  | leave {i a : ℕ} (hr : s.receivers[i]? = some (.woken a))
      (hwait : (s.heap (s.current a)).waitMutex = none) :
      Transition s (.receiver i) (s.setReceiver i (.unsubscribing a))
  | unsubscribe {i a : ℕ} (hr : s.receivers[i]? = some (.unsubscribing a))
      (hfree : s.mainLoop = none) (hsub : (s.heap (s.current a)).subscribers ≠ 0)
      (hmore : (s.heap (s.current a)).subscribers - 1 ≠ 0) :
      Transition s (.receiver i) (s.unsubscribe i a)
  | unsubscribeLast {i a : ℕ} (hr : s.receivers[i]? = some (.unsubscribing a))
      (hfree : s.mainLoop = none) (hsub : (s.heap (s.current a)).subscribers ≠ 0)
      (hlast : (s.heap (s.current a)).subscribers - 1 = 0) :
      Transition s (.receiver i) (s.unsubscribeLast i a)
  | unsubscribeNone {i a : ℕ} (hr : s.receivers[i]? = some (.unsubscribing a))
      (hfree : s.mainLoop = none) (hsub : (s.heap (s.current a)).subscribers = 0) :
      Transition s (.receiver i) (s.setReceiver i .done)
  | acknowledge {i a : ℕ} (hr : s.receivers[i]? = some (.acknowledging a))
      (hack : (s.heap (s.current a)).acknowledgeMutex = none) :
      Transition s (.receiver i) (s.acknowledge i a)
  | addUpload {fileId owner filesize : ℤ} (hfree : s.mainLoop = none) :
      Transition s (.put fileId owner filesize) (s.addUpload fileId owner filesize)
  | createMultiparts {i : ℕ} {fileId filesize : ℤ}
      (hp : s.putters[i]? = some (.added fileId filesize)) :
      Transition s (.putter i) (s.createMultiparts i fileId filesize)
  | lock {slot : Slot} {choice : ℕ} (hp : s.processor = .locking) (hfree : s.mainLoop = none) :
      Transition s (.processor slot choice)
        { s with mainLoop := some .processor, processor := .handing }
  | startUpload {slot : Slot} {choice : ℕ} (hp : s.processor = .handing)
      (hready : s.isReady slot = true) (hfile : s.db.findPendingUpload choice ≠ 0) :
      Transition s (.processor slot choice)
        (s.startUpload slot (s.db.findPendingUpload choice))
  | startDownload {slot : Slot} {choice a : ℕ} (hp : s.processor = .handing)
      (hready : s.isReady slot = true) (hfile : s.db.findPendingUpload choice = 0)
      (hget : s.getSubscriptionFromDownloadQueue = some a) :
      Transition s (.processor slot choice) (s.startDownload slot a)
  | sleep {slot : Slot} {choice : ℕ} (hp : s.processor = .handing)
      (hnothing : s.findAvailableTransferer = none ∨ s.db.findPendingUpload choice = 0 ∧
        s.getSubscriptionFromDownloadQueue = none) :
      Transition s (.processor slot choice) s.sleep
  | relock {slot : Slot} {choice : ℕ} (hp : s.processor = .woken) (hfree : s.mainLoop = none) :
      Transition s (.processor slot choice) { s with processor := .locking }
  | prepare {j : ℕ} {d : Downloader} {status : ℤ} (hd : s.downloaders[j]? = some d)
      (hstage : d.stage = .starting) (hfree : s.mainLoop = none) :
      Transition s (.downloader j status) (s.setDownloader j { d with stage := .transferring })
  | transferred {j : ℕ} {d : Downloader} (hd : s.downloaders[j]? = some d)
      (hstage : d.stage = .transferring) :
      Transition s (.downloader j 0) (s.setDownloader j { d with stage := .granting })
  | failDownload {j : ℕ} {d : Downloader} {status : ℤ} (hd : s.downloaders[j]? = some d)
      (hstage : d.stage = .transferring) (hstatus : status ≠ 0) :
      Transition s (.downloader j status) (s.setDownloader j { d with stage := .failed })
  | grant {j : ℕ} {d : Downloader} {status : ℤ} (hd : s.downloaders[j]? = some d)
      (hstage : d.stage = .granting) (hfree : s.mainLoop = none) :
      Transition s (.downloader j status) (s.setDownloader j { d with stage := .publishing })
  | finish {j : ℕ} {d : Downloader} {status : ℤ} (hd : s.downloaders[j]? = some d)
      (hstage : d.stage = .publishing) (hfree : s.mainLoop = none) :
      Transition s (.downloader j status) (s.finish j d)
  | lockAcknowledge {j : ℕ} {d : Downloader} {status : ℤ} (hd : s.downloaders[j]? = some d)
      (hstage : d.stage = .finishing) (hack : (s.heap d.address).acknowledgeMutex = none) :
      Transition s (.downloader j status) (s.lockAcknowledge j d)
  | broadcast {j : ℕ} {d : Downloader} {status : ℤ} (hd : s.downloaders[j]? = some d)
      (hstage : d.stage = .broadcasting) (hwait : (s.heap d.address).waitMutex = none) :
      Transition s (.downloader j status) (s.broadcast j d)
  | unlockAcknowledge {j : ℕ} {d : Downloader} {status : ℤ} (hd : s.downloaders[j]? = some d)
      (hstage : d.stage = .completed) :
      Transition s (.downloader j status) (s.unlockAcknowledge j d)
  | acknowledged {j : ℕ} {d : Downloader} {status : ℤ} (hd : s.downloaders[j]? = some d)
      (hstage : d.stage = .woken) (hack : (s.heap d.address).acknowledgeMutex = none) :
      Transition s (.downloader j status) (s.setDownloader j { d with stage := .freeing })
  | free {j : ℕ} {d : Downloader} {status : ℤ} (hd : s.downloaders[j]? = some d)
      (hstage : d.stage = .freeing) : Transition s (.downloader j status) (s.free j d)
  | fetch {k choice : ℕ} {u : Uploader} {status : ℤ} {text : Bytes} {up : Database.Upload}
      (hu : s.uploaders[k]? = some u) (hwork : u.work = .starting)
      (hget : s.db.getUpload u.fileId choice = some up) :
      Transition s (.uploader k choice status text) (s.advance k u up .fetched)
  | fetchNothing {k choice : ℕ} {u : Uploader} {status : ℤ} {text : Bytes}
      (hu : s.uploaders[k]? = some u) (hwork : u.work = .starting)
      (hget : s.db.getUpload u.fileId choice = none) :
      Transition s (.uploader k choice status text) (s.setUploader k { u with work := .nothing })
  | initiate {k choice : ℕ} {u : Uploader} {status : ℤ} {text : Bytes} {up : Database.Upload}
      (hu : s.uploaders[k]? = some u) (hwork : u.work = .part up .fetched) :
      Transition s (.uploader k choice status text)
        { s.advance k u up .initiated with db := s.db.setUploadId u.fileId text }
  | skipInitiate {k choice : ℕ} {u : Uploader} {status : ℤ} {text : Bytes} {up : Database.Upload}
      (hu : s.uploaders[k]? = some u) (hwork : u.work = .part up .fetched) :
      Transition s (.uploader k choice status text) (s.advance k u up .initiated)
  | createPart {k choice : ℕ} {u : Uploader} {status : ℤ} {text : Bytes} {up : Database.Upload}
      (hu : s.uploaders[k]? = some u) (hwork : u.work = .part up .initiated) :
      Transition s (.uploader k choice status text) (s.advance k u up .created)
  | tag {k choice : ℕ} {u : Uploader} {status : ℤ} {text : Bytes} {up : Database.Upload}
      (hu : s.uploaders[k]? = some u) (hwork : u.work = .part up .created) :
      Transition s (.uploader k choice status text)
        { s.advance k u up .tagged with db := s.db.setPartETag u.fileId up.part text }
  | upload {k choice : ℕ} {u : Uploader} {text : Bytes} {up : Database.Upload}
      (hu : s.uploaders[k]? = some u) (hwork : u.work = .part up .tagged) :
      Transition s (.uploader k choice 0 text) (s.advance k u up .uploaded)
  | failUpload {k choice : ℕ} {u : Uploader} {status : ℤ} {text : Bytes} {up : Database.Upload}
      (hu : s.uploaders[k]? = some u) (hwork : u.work = .part up .tagged) (hstatus : status ≠ 0) :
      Transition s (.uploader k choice status text) (s.advance k u up .failed)
  | completeUpload {k choice : ℕ} {u : Uploader} {status : ℤ} {text : Bytes} {up : Database.Upload}
      (hu : s.uploaders[k]? = some u) (hwork : u.work = .part up .uploaded)
      (hfree : s.mainLoop = none) :
      Transition s (.uploader k choice status text) (s.completeUpload k u up)
  | expire {j : ℕ} {d : Downloader} (hd : s.downloaders[j]? = some d)
      (hstage : d.stage = .waiting) :
      Transition s (.expire j) (s.setDownloader j { d with stage := .woken })
  | wakeReceiver {i a : ℕ} (hr : s.receivers[i]? = some (.waiting a)) :
      Transition s (.wakeReceiver i) (s.setReceiver i (.woken a))
  | wakeProcessor (hp : s.processor = .waiting) :
      Transition s .wakeProcessor { s with processor := .woken }
  | addFile (fileId : ℤ) : Transition s (.addFile fileId) { s with db := s.db.addFile fileId }
  | addUser (uid : ℤ) : Transition s (.addUser uid) { s with db := s.db.addUser uid }

section

variable {s s' : State}

theorem transition_of_receiverStep {i : ℕ} (h : s.receiverStep i = some s') :
    Transition s (.receiver i) s' := by
  unfold State.receiverStep at h
  split at h
  case h_1 a hr =>
      split at h <;> cases h
      exact .arm hr ‹_›
  case h_2 a hr =>
      cases h
      exact .wait hr
  case h_3 a hr =>
      split at h <;> cases h
      exact .leave hr ‹_›
  case h_4 a hr =>
      split at h
      · split at h
        · split at h <;> cases h
          · exact .unsubscribeLast hr ‹_› ‹_› ‹_›
          · exact .unsubscribe hr ‹_› ‹_› ‹_›
        · cases h
          exact .unsubscribeNone hr ‹_› (not_not.1 ‹_›)
      · cases h
  case h_5 a hr =>
      split at h <;> cases h
      exact .acknowledge hr ‹_›
  case h_6 => cases h

theorem transition_of_processorStep {slot : Slot} {choice : ℕ}
    (h : s.processorStep slot choice = some s') : Transition s (.processor slot choice) s' := by
  unfold State.processorStep at h
  split at h
  case h_1 hp =>
      split at h <;> cases h
      exact .lock hp ‹_›
  case h_2 hp =>
      split at h
      · cases h
        exact .sleep hp (.inl ‹_›)
      · split at h
        · split at h
          · cases h
            exact .startUpload hp ‹_› ‹_›
          · rename_i hfile
            split at h <;> cases h
            · exact .startDownload hp ‹_› (not_not.1 hfile) ‹_›
            · exact .sleep hp (.inr ⟨not_not.1 hfile, ‹_›⟩)
        · cases h
  case h_3 hp =>
      split at h <;> cases h
      exact .relock hp ‹_›
  case h_4 => cases h

theorem transition_of_downloaderStep {j : ℕ} {status : ℤ}
    (h : s.downloaderStep j status = some s') : Transition s (.downloader j status) s' := by
  unfold State.downloaderStep at h
  split at h
  · cases h
  rename_i d hd
  split at h
  case h_1 hstage =>
      split at h <;> cases h
      exact .prepare hd hstage ‹_›
  case h_2 hstage =>
      split at h <;> cases h
      · rename_i hstatus
        exact hstatus ▸ .transferred hd hstage
      · exact .failDownload hd hstage ‹_›
  case h_3 hstage =>
      split at h <;> cases h
      exact .grant hd hstage ‹_›
  case h_4 hstage =>
      split at h <;> cases h
      exact .finish hd hstage ‹_›
  case h_5 hstage =>
      split at h <;> cases h
      exact .lockAcknowledge hd hstage ‹_›
  case h_6 hstage =>
      split at h <;> cases h
      exact .broadcast hd hstage ‹_›
  case h_7 hstage =>
      cases h
      exact .unlockAcknowledge hd hstage
  case h_8 hstage =>
      split at h <;> cases h
      exact .acknowledged hd hstage ‹_›
  case h_9 hstage =>
      cases h
      exact .free hd hstage
  all_goals cases h

/-- Whether a multipart upload is initiated or not, the database is the old one up to the upload
identifier. -/
theorem initiate_eq_some {u : Uploader} {up : Database.Upload} {text : Bytes} {db : Database}
    (h : s.initiate u up text = some db) : db = s.db.setUploadId u.fileId text ∨ db = s.db := by
  unfold State.initiate at h
  split at h
  · split at h
    · cases h
    · split at h <;> cases h
      · exact .inl rfl
      · exact .inr rfl
  · cases h
    exact .inr rfl

theorem transition_of_uploaderStep {k choice : ℕ} {status : ℤ} {text : Bytes}
    (h : s.uploaderStep k choice status text = some s') :
    Transition s (.uploader k choice status text) s' := by
  unfold State.uploaderStep at h
  split at h
  · cases h
  rename_i u hu
  split at h
  case h_1 hwork =>
      cases h
      unfold State.fetch
      split
      · exact .fetchNothing hu hwork ‹_›
      · exact .fetch hu hwork ‹_›
  case h_2 => cases h
  case h_3 up hwork =>
      obtain ⟨db, hdb, rfl⟩ := Option.map_eq_some_iff.1 h
      rcases initiate_eq_some hdb with rfl | rfl
      · exact .initiate hu hwork
      · exact .skipInitiate hu hwork
  case h_4 up hwork =>
      cases h
      exact .createPart hu hwork
  case h_5 up hwork =>
      cases h
      exact .tag hu hwork
  case h_6 up hwork =>
      split at h <;> cases h
      · rename_i hstatus
        exact hstatus ▸ .upload hu hwork
      · exact .failUpload hu hwork ‹_›
  case h_7 up hwork =>
      split at h <;> cases h
      exact .completeUpload hu hwork ‹_›
  all_goals cases h

/-- **Every step is one of the transitions.** -/
theorem transition_of_step {action : Action} (h : step s action = some s') :
    Transition s action s' := by
  cases action with
  | receive fileId owner reused =>
      simp only [step] at h
      split at h
      · split at h
        · cases h
          exact .join ‹_› ‹_›
        · split at h <;> cases h
          exact .create ‹_› ‹_› ‹_›
      · cases h
  | receiver i => exact transition_of_receiverStep h
  | put fileId owner filesize =>
      simp only [step] at h
      split at h <;> cases h
      exact .addUpload ‹_›
  | putter i =>
      simp only [step] at h
      split at h <;> cases h
      exact .createMultiparts ‹_›
  | processor slot choice => exact transition_of_processorStep h
  | downloader j status => exact transition_of_downloaderStep h
  | uploader k choice status text => exact transition_of_uploaderStep h
  | expire j =>
      simp only [step] at h
      split at h
      · split at h <;> cases h
        exact .expire ‹_› ‹_›
      · cases h
  | wakeReceiver i =>
      simp only [step] at h
      split at h <;> cases h
      exact .wakeReceiver ‹_›
  | wakeProcessor =>
      simp only [step] at h
      split at h <;> cases h
      exact .wakeProcessor ‹_›
  | addFile fileId =>
      cases h
      exact .addFile fileId
  | addUser uid =>
      cases h
      exact .addUser uid

end

/-- Nothing has been requested yet: the queue processor has just initialised the slots. -/
def State.initial (db : Database) : State where
  mainLoop := none
  downloadQueue := []
  heap := fun _ => ⟨0, false, 0, none, none, false, none⟩
  allocated := 0
  current := id
  isReady := fun _ => true
  db := db
  processor := .locking
  receivers := []
  putters := []
  downloaders := []
  uploaders := []

end AwsS3fs
