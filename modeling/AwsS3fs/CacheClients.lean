/-
**Clients that ask for a file.**

A `CACHE` request is served by `ClientRequestsDownload` (`filecache.c`): it looks up the row of the
path in `files`, asks whether that file is in the cache, and calls `ReceiveDownload` if it is not.
Each of the three runs under a mutex of its own, so that other clients, the queue processor and the
transfers take their steps in between.  This module puts the clients on top of the protocol of
`AwsS3fs/TransferQueue.lean`, together with the names of the files.

`Query_IsFileCached` returns a local variable that only a row of the table sets.  What the variable
holds for a file without a row is left open.

Main definitions:

* `AwsS3fs.Database.isFileCached` — `Query_IsFileCached`;
* `AwsS3fs.Client`, `AwsS3fs.Cache` — where every request is, and the whole state;
* `AwsS3fs.ClientAction`, `AwsS3fs.clientStep` — **one step of any thread**;
* `AwsS3fs.ClientTransition` — the same, one constructor for every way to step;
* `AwsS3fs.Database.Known`, `AwsS3fs.Database.Cached` — a file has a row, and its flag is set.

Main results:

* `AwsS3fs.filesGrow_of_transition` — no row of `files` and no flag is ever taken back;
* `AwsS3fs.receiver_of_transition` — a call of `ReceiveDownload` keeps its subscription;
* `AwsS3fs.Delivered.transition` — what is off the queue is in the cache;
* `AwsS3fs.Consistent.transition` — **the names, the rows, the requests and the queues stay
  together**.
-/

import AwsS3fs.SubscriptionLifetime

set_option relaxedAutoImplicit false
set_option autoImplicit false

namespace AwsS3fs

open CLib Threads

/-! ### The flag of a file -/

namespace Database

/-- `Query_IsFileCached`, with what the local variable `cached` holds before it is set. -/
def isFileCached (db : Database) (file cached : ℤ) : Bool :=
  match db.files.find? (·.id = file) with
  | none => cached ≠ 0
  | some r => r.iscached

/-- A file has a row in `files`. -/
def Known (db : Database) (file : ℤ) : Prop := ∃ r ∈ db.files, r.id = file

/-- A file has a row in `files` with the flag `iscached`. -/
def Cached (db : Database) (file : ℤ) : Prop := ∃ r ∈ db.files, r.id = file ∧ r.iscached = true

instance (db : Database) (file : ℤ) : Decidable (db.Known file) :=
  inferInstanceAs (Decidable (∃ r ∈ db.files, r.id = file))

instance (db : Database) (file : ℤ) : Decidable (db.Cached file) :=
  inferInstanceAs (Decidable (∃ r ∈ db.files, r.id = file ∧ r.iscached = true))

/-- Every row stays, and so does its flag. -/
def FilesGrow (db db' : Database) : Prop :=
  ∀ r ∈ db.files, ∃ r' ∈ db'.files, r'.id = r.id ∧ (r.iscached = true → r'.iscached = true)

variable {db db' : Database} {file : ℤ}

theorem filesGrow_of_eq (h : db'.files = db.files) : FilesGrow db db' :=
  fun r hr => ⟨r, h ▸ hr, rfl, id⟩

theorem FilesGrow.known (h : FilesGrow db db') (hk : db.Known file) : db'.Known file := by
  obtain ⟨r, hr, rfl⟩ := hk
  obtain ⟨r', hr', hid, -⟩ := h r hr
  exact ⟨r', hr', hid⟩

theorem FilesGrow.cached (h : FilesGrow db db') (hc : db.Cached file) : db'.Cached file := by
  obtain ⟨r, hr, rfl, hflag⟩ := hc
  obtain ⟨r', hr', hid, hflag'⟩ := h r hr
  exact ⟨r', hr', hid, hflag' hflag⟩

theorem cached_of_isFileCached {cached : ℤ} (hk : db.Known file)
    (h : db.isFileCached file cached = true) : db.Cached file := by
  unfold isFileCached at h
  split at h
  · rename_i hnone
    obtain ⟨r, hr, rfl⟩ := hk
    simpa using List.find?_eq_none.1 hnone r hr
  · rename_i r hfind
    have hid := List.find?_some hfind
    exact ⟨r, List.mem_of_find?_eq_some hfind, of_decide_eq_true hid, h⟩

/-- For a file without a row the variable decides. -/
theorem isFileCached_of_not_known {cached : ℤ} (hk : ¬ db.Known file) :
    db.isFileCached file cached = decide (cached ≠ 0) := by
  have hnone : db.files.find? (·.id = file) = none := by
    rw [List.find?_eq_none]
    exact fun r hr hid => hk ⟨r, hr, of_decide_eq_true hid⟩
  rw [isFileCached, hnone]

@[simp]
theorem files_insertTransfer (owner : ℤ) (filesize : Option ℤ) (direction : Direction) :
    (db.insertTransfer file owner filesize direction).files = db.files := by
  unfold insertTransfer
  split <;> rfl

@[simp]
theorem files_insertPart (part : ℤ) : (db.insertPart file part).files = db.files := by
  unfold insertPart
  split
  · rfl
  · split <;> rfl

@[simp]
theorem files_createMultiparts (parts : ℤ) :
    (db.createMultiparts file parts).files = db.files := by
  unfold createMultiparts
  generalize List.range parts.toNat = l
  induction l generalizing db with
  | nil => rfl
  | cons i l ih => rw [List.foldl_cons, ih, files_insertPart]

@[simp]
theorem files_addUser (uid : ℤ) : (db.addUser uid).files = db.files := by
  unfold addUser
  split <;> rfl

theorem files_addFile (db : Database) (file : ℤ) :
    (db.addFile file).files = db.files ∨
      (db.addFile file).files = db.files ++ [⟨file, none, false⟩] := by
  unfold addFile
  split
  · exact .inl rfl
  · exact .inr rfl

theorem filesGrow_addFile : FilesGrow db (db.addFile file) := by
  intro r hr
  rcases db.files_addFile file with h | h
  · exact ⟨r, h ▸ hr, rfl, id⟩
  · exact ⟨r, h ▸ List.mem_append_left _ hr, rfl, id⟩

theorem known_addFile : (db.addFile file).Known file := by
  unfold addFile
  split
  · assumption
  · exact ⟨_, List.mem_append_right _ (List.mem_singleton_self _), rfl⟩

/-- A row that is added does not have the flag. -/
theorem cached_addFile {f : ℤ} : (db.addFile file).Cached f ↔ db.Cached f := by
  refine ⟨fun ⟨r, hr, hid, hflag⟩ => ?_, filesGrow_addFile.cached⟩
  rcases db.files_addFile file with h | h
  · exact ⟨r, h ▸ hr, hid, hflag⟩
  · rcases List.mem_append.1 (h ▸ hr) with hr | hr
    · exact ⟨r, hr, hid, hflag⟩
    · rw [List.mem_singleton.1 hr] at hflag
      cases hflag

theorem filesGrow_markFileAsCached : FilesGrow db (db.markFileAsCached file) := by
  intro r hr
  refine ⟨_, List.mem_map_of_mem hr, ?_⟩
  split
  · exact ⟨rfl, fun _ => rfl⟩
  · exact ⟨rfl, id⟩

/-- **What `Query_MarkFileAsCached` does**: the file is in the cache now, if it has a row, and for
the others nothing changes. -/
theorem cached_markFileAsCached {f : ℤ} :
    (db.markFileAsCached file).Cached f ↔ db.Cached f ∨ f = file ∧ db.Known file := by
  constructor
  · rintro ⟨r', hr', hid, hflag⟩
    obtain ⟨r, hr, rfl⟩ := List.mem_map.1 hr'
    by_cases hfile : r.id = file
    · rw [if_pos hfile] at hid
      exact .inr ⟨hid.symm.trans hfile, r, hr, hfile⟩
    · rw [if_neg hfile] at hid hflag
      exact .inl ⟨r, hr, hid, hflag⟩
  · rintro (hcached | ⟨rfl, r, hr, hid⟩)
    · exact filesGrow_markFileAsCached.cached hcached
    · exact ⟨{ r with iscached := true }, List.mem_map.2 ⟨r, hr, if_pos hid⟩, hid, rfl⟩

end Database

/-! ### Transitions of the queues -/

section

variable {s s' : State} {action : Action}

/-- What the transitions do to the flags: only the end of a download sets one. -/
theorem files_of_transition (ht : Transition s action s') :
    s'.db.files = s.db.files ∨ (∃ fileId, action = .addFile fileId ∧ s'.db = s.db.addFile fileId) ∨
      ∃ (j : ℕ) (d : Downloader) (status : ℤ), action = .downloader j status ∧
        s.downloaders[j]? = some d ∧ d.stage = .publishing ∧ s' = s.finish j d := by
  cases ht with
  | create | addUpload => exact .inl (Database.files_insertTransfer ..)
  | createMultiparts => exact .inl (Database.files_createMultiparts _)
  | finish hd hstage => exact .inr (.inr ⟨_, _, _, rfl, hd, hstage, rfl⟩)
  | addFile => exact .inr (.inl ⟨_, rfl, rfl⟩)
  | addUser uid => exact .inl (Database.files_addUser uid)
  | _ => exact .inl rfl

/-- **No row of `files` and no flag is ever taken back.** -/
theorem filesGrow_of_transition (ht : Transition s action s') :
    Database.FilesGrow s.db s'.db := by
  rcases files_of_transition ht with h | ⟨fileId, -, h⟩ | ⟨j, d, status, -, -, -, rfl⟩
  · exact Database.filesGrow_of_eq h
  · exact h ▸ Database.filesGrow_addFile
  · have hsame : (s.db.deleteTransfer (s.heap d.address).fileId).files = s.db.files := rfl
    exact fun r hr => Database.filesGrow_markFileAsCached r (hsame ▸ hr)

/-- How a call of `ReceiveDownload` goes on: as it was, in its subscription, or out of it, and the
latter only after it was woken. -/
def Receiver.Follows (r r' : Receiver) : Prop :=
  r = r' ∨ (∃ a, r.subscribes a = true ∧ r'.subscribes a = true) ∨
    (∀ a, r'.subscribes a = false) ∧ ((∃ a, r.leaves a = true) ∨ ∀ a, r.subscribes a = false)

theorem Receiver.follows_set {k i : ℕ} {q r r' : Receiver} (hq : s.receivers[i]? = some q)
    (hr : s.receivers[k]? = some r) (hfollows : q.Follows r') :
    ∃ r'', (s.receivers.set i r')[k]? = some r'' ∧ r.Follows r'' := by
  by_cases hk : k = i
  · subst hk
    obtain rfl : r = q := Option.some.inj (hr.symm.trans hq)
    exact ⟨r', List.getElem?_set_self (List.getElem?_eq_some_iff.1 hq).1, hfollows⟩
  · exact ⟨r, by rw [List.getElem?_set_ne (Ne.symm hk), hr], .inl rfl⟩

theorem Receiver.follows_append {k : ℕ} {r r₁ : Receiver} (hr : s.receivers[k]? = some r) :
    ∃ r', (s.receivers ++ [r₁])[k]? = some r' ∧ r.Follows r' := by
  refine ⟨r, ?_, .inl rfl⟩
  rw [List.getElem?_append_left (List.getElem?_eq_some_iff.1 hr).1, hr]

/-- **A call of `ReceiveDownload` keeps its subscription** until it is done. -/
theorem receiver_of_transition {k : ℕ} {r : Receiver} (ht : Transition s action s')
    (hr : s.receivers[k]? = some r) :
    ∃ r', s'.receivers[k]? = some r' ∧ r.Follows r' := by
  cases ht with
  | join | create => exact Receiver.follows_append hr
  | @arm i a hi | @wait i a hi | @leave i a hi | @wakeReceiver i a hi =>
      exact Receiver.follows_set hi hr
        (.inr (.inl ⟨a, by simp [Receiver.subscribes], by simp [Receiver.subscribes]⟩))
  | @unsubscribe i a hi | @unsubscribeLast i a hi | @unsubscribeNone i a hi =>
      exact Receiver.follows_set hi hr
        (.inr (.inr ⟨fun _ => rfl, .inl ⟨a, by simp [Receiver.leaves]⟩⟩))
  | @acknowledge i a hi =>
      exact Receiver.follows_set hi hr (.inr (.inr ⟨fun _ => rfl, .inr fun _ => rfl⟩))
  | @broadcast j d =>
      refine ⟨_, by rw [State.broadcast, List.getElem?_map, hr, Option.map_some], ?_⟩
      split
      · rename_i hwait
        exact .inr (.inl ⟨d.address, by simp [hwait, Receiver.subscribes],
          by simp [Receiver.subscribes]⟩)
      · exact .inl rfl
  | _ => exact ⟨r, hr, .inl rfl⟩

/-- Every subscription is for a file that has a row, and what is off the queue is in the cache. -/
structure Delivered (s : State) : Prop where
  known : ∀ a < s.allocated, s.db.Known (s.heap a).fileId
  offQueue : ∀ a < s.allocated, a ∉ s.downloadQueue → s.db.Cached (s.heap a).fileId

namespace Delivered

/-- A transition that makes no subscription, and takes none off the queue. -/
theorem frame (h : Delivered s) (ht : Transition s action s')
    (hallocated : s'.allocated = s.allocated) (hqueue : s'.downloadQueue = s.downloadQueue) :
    Delivered s' where
  known := by
    intro a ha
    rw [hallocated] at ha
    rw [(fileId_of_transition ht).2 a ha]
    exact (filesGrow_of_transition ht).known (h.known a ha)
  offQueue := by
    intro a ha hoff
    rw [hallocated] at ha
    rw [hqueue] at hoff
    rw [(fileId_of_transition ht).2 a ha]
    exact (filesGrow_of_transition ht).cached (h.offQueue a ha hoff)

/-- A new subscription is on the queue. -/
theorem create (h : Delivered s) {fileId owner : ℤ} {reused : Option ℕ}
    (ht : Transition s action (s.create fileId owner reused)) (hknown : s.db.Known fileId) :
    Delivered (s.create fileId owner reused) := by
  have hstay := (fileId_of_transition ht).2
  have hgrow := filesGrow_of_transition ht
  have hnew : ((s.create fileId owner reused).heap s.allocated).fileId = fileId :=
    field_update_self Subscription.fileId _ _ _
  constructor
  · intro a ha
    rcases Nat.lt_succ_iff_lt_or_eq.1 ha with ha | rfl
    · rw [hstay a ha]
      exact hgrow.known (h.known a ha)
    · rw [hnew]
      exact hgrow.known hknown
  · intro a ha hoff
    rcases Nat.lt_succ_iff_lt_or_eq.1 ha with ha | rfl
    · rw [hstay a ha]
      exact hgrow.cached (h.offQueue a ha fun hmem => hoff (List.mem_append_left _ hmem))
    · exact absurd (List.mem_append_right _ (List.mem_singleton_self _)) hoff

/-- A download that has finished has set the flag of its file, and it is the only one that it has
taken off the queue. -/
theorem finish (h : Delivered s) (hq : Queued s) {j : ℕ} {d : Downloader}
    (ht : Transition s action (s.finish j d)) (hd : s.downloaders[j]? = some d) :
    Delivered (s.finish j d) := by
  have hstay := (fileId_of_transition ht).2
  have hgrow := filesGrow_of_transition ht
  have hbound : d.address < s.allocated :=
    hq.started_bound _ (List.mem_map_of_mem (List.mem_of_getElem? hd))
  constructor
  · intro a ha
    rw [hstay a ha]
    exact hgrow.known (h.known a ha)
  · intro a ha hoff
    rw [hstay a ha]
    by_cases haddress : a = d.address
    · rw [haddress]
      exact Database.cached_markFileAsCached.2 (.inr ⟨rfl, h.known d.address hbound⟩)
    · refine hgrow.cached (h.offQueue a ha fun hmem => hoff ?_)
      exact (List.mem_erase_of_ne haddress).2 hmem

/-- **Every transition keeps it**, if `ReceiveDownload` is called for files that have a row. -/
theorem transition (h : Delivered s) (hq : Queued s) (ht : Transition s action s')
    (hknown : ∀ fileId owner reused, action = .receive fileId owner reused → s.db.Known fileId) :
    Delivered s' := by
  have ht' := ht
  cases ht with
  | create => exact h.create ht' (hknown _ _ _ rfl)
  | finish hd => exact h.finish hq ht' hd
  | _ => exact h.frame ht' rfl rfl

end Delivered

theorem delivered_initial (db : Database) : Delivered (State.initial db) := by
  constructor <;> intro a ha <;> cases ha

end

/-! ### The requests -/

/-- What `ClientRequestsDownload` answers. -/
inductive Reply
  | ok
  | error
  deriving DecidableEq, Repr

/-- Where a call of `ClientRequestsDownload` is. -/
inductive Client
  /-- After `FindFile`. -/
  | found (path : Bytes) (owner fileId : ℤ)
  /-- After `Query_IsFileCached`, about to call `ReceiveDownload`. -/
  | missing (path : Bytes) (owner fileId : ℤ)
  /-- In a call of `ReceiveDownload`. -/
  | receiving (path : Bytes) (fileId : ℤ) (receiver : ℕ)
  /-- About to reply. -/
  | answering (path : Bytes) (reply : Reply)
  | answered (path : Bytes) (reply : Reply)
  deriving DecidableEq, Repr

/-- The transfers, the column `remotename` of `files`, and where every request is. -/
structure Cache where
  queue : State
  names : List (Bytes × ℤ)
  clients : List Client

namespace Cache

variable (c : Cache)

def setClient (i : ℕ) (client : Client) : Cache := { c with clients := c.clients.set i client }

/-- `FindFile`. -/
def findFile (path : Bytes) : ℤ :=
  match c.names.find? (·.1 = path) with
  | none => 0
  | some name => name.2

/-- A path has a row in `files`, with the flag `iscached`. -/
def Cached (path : Bytes) : Prop := ∃ fileId, (path, fileId) ∈ c.names ∧ c.queue.db.Cached fileId

/-- A request comes in, and its path is looked up. -/
def request (path : Bytes) (owner : ℤ) : Cache :=
  { c with clients := c.clients ++ [.found path owner (c.findFile path)] }

/-- Where a request goes on after `Query_IsFileCached`.  The identifier of the file is unsigned
there. -/
def check (path : Bytes) (owner fileId cached : ℤ) : Client :=
  if c.queue.db.isFileCached fileId cached then .answering path .ok
  else if fileId ≠ 0 then .missing path owner fileId
  else .answering path .error

/-- A file becomes known under a name, as `Query_CreateLocalFile` leaves it. -/
def createFile (path : Bytes) (fileId : ℤ) : Cache :=
  { c with
    queue := { c.queue with db := c.queue.db.addFile fileId }
    names := c.names ++ [(path, fileId)] }

end Cache

/-- What happens next. -/
inductive ClientAction
  /-- A `CACHE` request comes in. -/
  | request (path : Bytes) (owner : ℤ)
  /-- `Query_IsFileCached`, with what its local variable happens to hold. -/
  | check (i : ℕ) (cached : ℤ)
  /-- `ReceiveDownload` is called. -/
  | receive (i : ℕ) (reused : Option ℕ)
  | reply (i : ℕ)
  /-- Another client creates a file; SQLite numbers the rows. -/
  | create (path : Bytes) (fileId : ℤ)
  /-- A thread of the transfer queues takes a step. -/
  | transfer (action : Action)
  deriving DecidableEq, Repr

/-- The steps of the queues that are not taken by a client: `ReceiveDownload` has no other caller,
and files become known under a name. -/
def Action.internal : Action → Bool
  | .receive _ _ _ | .addFile _ => false
  | _ => true

/-- **One step of any thread.** -/
def clientStep (c : Cache) : ClientAction → Option Cache
  | .request path owner => some (c.request path owner)
  | .check i cached =>
      match c.clients[i]? with
      | some (.found path owner fileId) => some (c.setClient i (c.check path owner fileId cached))
      | _ => none
  | .receive i reused =>
      match c.clients[i]? with
      | some (.missing path owner fileId) =>
          (step c.queue (.receive fileId owner reused)).map fun q =>
            { c.setClient i (.receiving path fileId c.queue.receivers.length) with queue := q }
      | _ => none
  | .reply i =>
      match c.clients[i]? with
      | some (.answering path reply) => some (c.setClient i (.answered path reply))
      | some (.receiving path _ receiver) =>
          if c.queue.receivers[receiver]? = some .done then
            some (c.setClient i (.answered path .ok))
          else none
      | _ => none
  | .create path fileId =>
      -- a row that exists is used again, and a new one gets a positive number that is not in use
      if (∀ name ∈ c.names, name.1 ≠ path) ∧ 0 < fileId ∧ ¬ c.queue.db.Known fileId then
        some (c.createFile path fileId)
      else none
  | .transfer action =>
      if action.internal then (step c.queue action).map fun q => { c with queue := q } else none

/-- One step of any thread, with one constructor for every way to step. -/
inductive ClientTransition (c : Cache) : ClientAction → Cache → Prop
  | request (path : Bytes) (owner : ℤ) :
      ClientTransition c (.request path owner) (c.request path owner)
  | check {i : ℕ} {path : Bytes} {owner fileId : ℤ} (cached : ℤ)
      (hi : c.clients[i]? = some (.found path owner fileId)) :
      ClientTransition c (.check i cached) (c.setClient i (c.check path owner fileId cached))
  | receive {i : ℕ} {path : Bytes} {owner fileId : ℤ} {reused : Option ℕ}
      {q : State} (hi : c.clients[i]? = some (.missing path owner fileId))
      (hq : Transition c.queue (.receive fileId owner reused) q) :
      ClientTransition c (.receive i reused)
        { c.setClient i (.receiving path fileId c.queue.receivers.length) with queue := q }
  | reply {i : ℕ} {path : Bytes} {reply : Reply}
      (hi : c.clients[i]? = some (.answering path reply)) :
      ClientTransition c (.reply i) (c.setClient i (.answered path reply))
  | replyReceived {i receiver : ℕ} {path : Bytes} {fileId : ℤ}
      (hi : c.clients[i]? = some (.receiving path fileId receiver))
      (hdone : c.queue.receivers[receiver]? = some .done) :
      ClientTransition c (.reply i) (c.setClient i (.answered path .ok))
  | create {path : Bytes} {fileId : ℤ} (hpath : ∀ name ∈ c.names, name.1 ≠ path)
      (hpos : 0 < fileId) (hnew : ¬ c.queue.db.Known fileId) :
      ClientTransition c (.create path fileId) (c.createFile path fileId)
  | transfer {action : Action} {q : State} (hinternal : action.internal = true)
      (hq : Transition c.queue action q) :
      ClientTransition c (.transfer action) { c with queue := q }

variable {c c' : Cache} {action : ClientAction}

/-- **Every step is one of the transitions.** -/
theorem clientTransition_of_step (h : clientStep c action = some c') :
    ClientTransition c action c' := by
  cases action with
  | request path owner =>
      cases h
      exact .request path owner
  | check i cached =>
      simp only [clientStep] at h
      split at h <;> cases h
      exact .check cached ‹_›
  | receive i reused =>
      simp only [clientStep] at h
      split at h
      · obtain ⟨q, hq, rfl⟩ := Option.map_eq_some_iff.1 h
        exact .receive ‹_› (transition_of_step hq)
      · cases h
  | reply i =>
      simp only [clientStep] at h
      split at h
      · cases h
        exact .reply ‹_›
      · split at h <;> cases h
        exact .replyReceived ‹_› ‹_›
      · cases h
  | create path fileId =>
      simp only [clientStep] at h
      split at h <;> cases h
      rename_i hnew
      exact .create hnew.1 hnew.2.1 hnew.2.2
  | transfer action =>
      simp only [clientStep] at h
      split at h
      · obtain ⟨q, hq, rfl⟩ := Option.map_eq_some_iff.1 h
        exact .transfer ‹_› (transition_of_step hq)
      · cases h

/-! ### Names and rows -/

/-- The names and the rows belong together: a name has a row, and the rows are numbered from `1`
on. -/
structure Named (names : List (Bytes × ℤ)) (db : Database) : Prop where
  known : ∀ name ∈ names, db.Known name.2
  positive : ∀ r ∈ db.files, 0 < r.id

theorem Named.of_grow {names : List (Bytes × ℤ)} {db db' : Database} (h : Named names db)
    (hgrow : Database.FilesGrow db db') (hids : ∀ r' ∈ db'.files, ∃ r ∈ db.files, r.id = r'.id) :
    Named names db' where
  known := fun name hname => hgrow.known (h.known name hname)
  positive := by
    intro r' hr'
    obtain ⟨r, hr, hid⟩ := hids r' hr'
    exact hid ▸ h.positive r hr

/-- No transition of the queues adds a row, unless a file becomes known. -/
theorem ids_of_transition {s s' : State} {action : Action} (ht : Transition s action s')
    (hadd : ∀ fileId, action ≠ .addFile fileId) :
    ∀ r' ∈ s'.db.files, ∃ r ∈ s.db.files, r.id = r'.id := by
  intro r' hr'
  rcases files_of_transition ht with h | ⟨fileId, h, -⟩ | ⟨j, d, status, -, -, -, rfl⟩
  · exact ⟨r', h ▸ hr', rfl⟩
  · exact absurd h (hadd fileId)
  · obtain ⟨r, hr, rfl⟩ := List.mem_map.1 hr'
    refine ⟨r, hr, ?_⟩
    split <;> rfl

/-- **The names and the rows stay together.** -/
theorem Named.transition (h : Named c.names c.queue.db) (ht : ClientTransition c action c') :
    Named c'.names c'.queue.db := by
  cases ht with
  | receive hi hq => exact h.of_grow (filesGrow_of_transition hq) (ids_of_transition hq (by simp))
  | transfer hinternal hq =>
      refine h.of_grow (filesGrow_of_transition hq) (ids_of_transition hq ?_)
      rintro fileId rfl
      cases hinternal
  | @create path fileId hpath hpos hnew =>
      constructor
      · intro name hname
        rcases List.mem_append.1 hname with hname | hname
        · exact Database.filesGrow_addFile.known (h.known name hname)
        · rw [List.mem_singleton.1 hname]
          exact Database.known_addFile
      · intro r hr
        rcases c.queue.db.files_addFile fileId with heq | heq
        · exact h.positive r (heq ▸ hr)
        · rcases List.mem_append.1 (heq ▸ hr) with hr | hr
          · exact h.positive r hr
          · rw [List.mem_singleton.1 hr]
            exact hpos
  | request | check | reply | replyReceived => exact h

/-- Where the lookup of a path leads. -/
theorem findFile_eq (path : Bytes) :
    c.findFile path = 0 ∨ (path, c.findFile path) ∈ c.names := by
  unfold Cache.findFile
  split
  · exact .inl rfl
  · rename_i name hfind
    have hpath := List.find?_some hfind
    rw [decide_eq_true_eq] at hpath
    exact .inr (hpath ▸ List.mem_of_find?_eq_some hfind)

/-! ### What every request has looked up -/

/-- A request goes on with the file that is known under its path. -/
def Client.Looked (names : List (Bytes × ℤ)) : Client → Prop
  | .found path _ fileId => fileId = 0 ∨ (path, fileId) ∈ names
  | .missing path _ fileId | .receiving path fileId _ => (path, fileId) ∈ names
  | .answering _ _ | .answered _ _ => True

/-- The names, the rows, the requests and the queues fit together. -/
structure Consistent (c : Cache) : Prop where
  named : Named c.names c.queue.db
  looked : ∀ client ∈ c.clients, client.Looked c.names
  queued : Queued c.queue
  delivered : Delivered c.queue

/-- What a step of any thread does to the queues: nothing, or one of their own transitions. -/
theorem queue_of_clientTransition (ht : ClientTransition c action c') :
    c'.queue = c.queue ∨ ∃ a, Transition c.queue a c'.queue ∧
      (∀ fileId owner reused, a = .receive fileId owner reused →
        ∃ i path, action = .receive i reused ∧ c.clients[i]? = some (.missing path owner fileId)) ∧
      ∀ i, a = .wakeReceiver i → action = .transfer (.wakeReceiver i) := by
  cases ht with
  | @receive i path owner fileId reused q hi hq =>
      refine .inr ⟨_, hq, ?_, by simp⟩
      rintro f o reused h
      cases h
      exact ⟨i, path, rfl, hi⟩
  | @transfer action q hinternal hq =>
      refine .inr ⟨action, hq, ?_, by rintro i rfl; rfl⟩
      rintro f o reused rfl
      cases hinternal
  | @create path fileId => exact .inr ⟨.addFile fileId, .addFile fileId, by simp, by simp⟩
  | request | check | reply | replyReceived => exact .inl rfl

theorem Client.Looked.mono {names names' : List (Bytes × ℤ)} {client : Client}
    (h : client.Looked names) (hsub : ∀ name ∈ names, name ∈ names') : client.Looked names' := by
  cases client with
  | found path owner fileId => exact h.imp_right (hsub _)
  | missing path owner fileId => exact hsub _ h
  | receiving path fileId receiver => exact hsub _ h
  | answering path reply => trivial
  | answered path reply => trivial

theorem names_of_clientTransition (ht : ClientTransition c action c') :
    ∀ name ∈ c.names, name ∈ c'.names := by
  cases ht with
  | create => exact fun name hname => List.mem_append_left _ hname
  | _ => exact fun _ hname => hname

/-- A request that goes on keeps to the file that it has looked up. -/
theorem looked_of_set {i : ℕ} {client : Client} (h : ∀ client ∈ c.clients, client.Looked c.names)
    (hnew : client.Looked c.names) :
    ∀ client' ∈ c.clients.set i client, client'.Looked c.names := by
  intro client' hmem
  rcases List.mem_or_eq_of_mem_set hmem with hmem | rfl
  · exact h client' hmem
  · exact hnew

namespace Consistent

/-- A file that is about to be downloaded has a row. -/
theorem known_of_missing (h : Consistent c) {i : ℕ} {path : Bytes} {owner fileId : ℤ}
    (hi : c.clients[i]? = some (.missing path owner fileId)) : c.queue.db.Known fileId :=
  h.named.known _ (h.looked _ (List.mem_of_getElem? hi))

theorem looked_transition (h : Consistent c) (ht : ClientTransition c action c') :
    ∀ client ∈ c'.clients, client.Looked c'.names := by
  cases ht with
  | request path owner =>
      intro client hmem
      rcases List.mem_append.1 hmem with hmem | hmem
      · exact h.looked client hmem
      · rw [List.mem_singleton.1 hmem]
        exact findFile_eq path
  | @check i path owner fileId cached hi =>
      refine looked_of_set h.looked ?_
      unfold Cache.check
      split
      · trivial
      · split
        · rename_i hne
          exact (h.looked _ (List.mem_of_getElem? hi)).resolve_left hne
        · trivial
  | receive hi =>
      have hname := h.looked _ (List.mem_of_getElem? hi)
      exact looked_of_set h.looked hname
  | reply | replyReceived => exact looked_of_set h.looked trivial
  | create =>
      exact fun client hmem => (h.looked client hmem).mono fun _ => List.mem_append_left _
  | transfer => exact h.looked

/-- **Every step keeps them together.** -/
theorem transition (h : Consistent c) (ht : ClientTransition c action c') : Consistent c' where
  named := h.named.transition ht
  looked := h.looked_transition ht
  queued := by
    rcases queue_of_clientTransition ht with heq | ⟨a, hq, -⟩
    · exact heq ▸ h.queued
    · exact h.queued.transition hq
  delivered := by
    rcases queue_of_clientTransition ht with heq | ⟨a, hq, hreceive, -⟩
    · exact heq ▸ h.delivered
    · refine h.delivered.transition h.queued hq fun fileId owner reused ha => ?_
      obtain ⟨i, path, -, hi⟩ := hreceive fileId owner reused ha
      exact h.known_of_missing hi

end Consistent

/-- No request has come in yet. -/
def Cache.initial (names : List (Bytes × ℤ)) (db : Database) : Cache where
  queue := State.initial db
  names := names
  clients := []

theorem consistent_initial {names : List (Bytes × ℤ)} {db : Database} (h : Named names db) :
    Consistent (Cache.initial names db) where
  named := h
  looked := by simp [Cache.initial]
  queued := queued_initial db
  delivered := delivered_initial db

/-- The names of a database with one file. -/
def oneName : List (Bytes × ℤ) := [(ascii "/dir/a", 7)]

theorem named_oneName : Named oneName .oneFile := by
  constructor
  · decide
  · decide

end AwsS3fs
