/-
**The keys that a download is signed with.**

A client tells the cache its keys in a `CONNECT` request, and `Query_AddUser` (`filecachedb.c`)
inserts them into the table `users`, under the user that the message names.  A download belongs to
the user that the socket reports, and `BeginDownload` fetches the keys of its owner from the table
when it starts.  An insertion for a user that has a row fails, and the request is answered with
`CONNECTED` all the same.

Requests are answered here while the threads of the transfer queues run.  The server remembers, for
the statements only, which requests were answered with `CONNECTED` and for whom each subscription
was made.

Main definitions:

* `AwsS3fs.Accounts`, `AwsS3fs.accountStep` — clients connect and ask for files;
* `AwsS3fs.Accounts.getDownload` — the keys that `Query_GetDownload` delivers;
* `AwsS3fs.Accounts.keptKeys` — a request after which the table has the keys of the client;
* `AwsS3fs.SignedAsConnected` — a download starts with the keys of its client.

Main results:

* `AwsS3fs.queues_of_transition` — what a step of the queues does to subscriptions and rows, if
  nothing is uploaded;
* `AwsS3fs.signed_of_keptKeys` — **a download is signed with the keys of the client that it was
  made for**, as long as the table has the keys of every client that was told so.
-/

import AwsS3fs.CommandReplies
import AwsS3fs.CacheClients

set_option relaxedAutoImplicit false
set_option autoImplicit false

namespace AwsS3fs

open CLib Runs Threads

/-! ### The server -/

/-- The columns `keyid` and `secretkey` of `users`. -/
structure Keys where
  keyId : Bytes
  secretKey : Bytes
  deriving DecidableEq

/-- The cache, its clients, and their keys. -/
structure Accounts where
  cache : Cache
  /-- The keys in the row of a user, for the users that have a row. -/
  keys : ℤ → Keys
  connections : List Connection
  /-- The users whose requests were answered with `CONNECTED` and the keys in these requests, the
  latest first. -/
  connects : List (ℤ × Keys)
  /-- The user for whose request each subscription was made. -/
  requesters : List ℤ

namespace Accounts

variable (s : Accounts)

/-- The column `uid` of `users`. -/
def users : List ℤ := s.cache.queue.db.users

/-- The keys of the latest request of a user that was answered with `CONNECTED`. -/
def latest (uid : ℤ) : Option Keys := (s.connects.find? (·.1 = uid)).map (·.2)

/-- `Query_AddUser`. -/
def addUser (uid : ℤ) (keys : Keys) : Accounts :=
  { s with
    cache := { s.cache with
      queue := { s.cache.queue with db := s.cache.queue.db.addUser uid } }
    keys := if uid ∈ s.users then s.keys else Function.update s.keys uid keys }

/-- What the effect of a command does to the tables. -/
def perform (s : Accounts) : Effect → Accounts
  | .addUser uid keyId secretKey => s.addUser uid ⟨keyId, secretKey⟩
  | _ => s

/-- A `CONNECT` request: the tables, what the thread knows, and what is remembered. -/
def connect (i : ℕ) (conn : Connection) (next : Connection × List Effect) : Accounts :=
  { next.2.foldl perform s with
    connections := s.connections.set i next.1
    connects :=
      if .reply (ascii "CONNECTED") ∈ next.2 then
        (conn.uid, ⟨next.1.keyId, next.1.secretKey⟩) :: s.connects
      else s.connects }

/-- The user for whom `ReceiveDownload` makes a subscription, if it makes one. -/
def newRequester : ClientAction → List ℤ
  | .receive i _ =>
      match s.cache.clients[i]? with
      | some (.missing _ owner fileId) =>
          if s.cache.queue.findInDownloadQueue fileId = none then [owner] else []
      | _ => []
  | _ => []

/-- `Query_GetDownload`, so far as it delivers keys: those of the owner of the transfer.  The schema
says that the owner has a row. -/
def getDownload (fileId : ℤ) : Option Keys :=
  (s.cache.queue.db.transfers.find? (·.file = fileId)).map fun t => s.keys t.owner

end Accounts

/-- What happens next. -/
inductive AccountAction
  /-- A connection is accepted, and `SO_PEERCRED` reports the user. -/
  | accept (uid : ℤ)
  /-- A `CONNECT` request on a connection. -/
  | connect (i : ℕ) (request : Bytes)
  /-- A `CACHE` request on a connection. -/
  | cache (i : ℕ) (path : Bytes)
  /-- A request or a thread of the transfer queues goes on. -/
  | goOn (action : ClientAction)
  deriving DecidableEq

/-- The steps of requests that have come in and of the queues.  Users become known by `CONNECT`
requests, and nothing calls `PutUpload`. -/
def ClientAction.underway : ClientAction → Bool
  | .request .. | .transfer (.put ..) | .transfer (.addUser ..) => false
  | _ => true

/-- **Clients connect and ask for files.** -/
def accountStep (nl : Newlines) (s : Accounts) : AccountAction → Option Accounts
  | .accept uid => some { s with connections := s.connections ++ [⟨uid, none, [], []⟩] }
  | .connect i request =>
      s.connections[i]?.map fun conn => s.connect i conn (clientConnects nl conn request)
  | .cache i path =>
      s.connections[i]?.map fun conn => { s with cache := s.cache.request path conn.uid }
  | .goOn action =>
      if action.underway then
        (clientStep s.cache action).map fun c =>
          { s with cache := c, requesters := s.requesters ++ s.newRequester action }
      else none

/-- A server that has just been started. -/
def Accounts.initial (names : List (Bytes × ℤ)) (db : Database) (keys : ℤ → Keys) : Accounts where
  cache := .initial names db
  keys := keys
  connections := []
  connects := []
  requesters := []

/-- **A download starts with the keys of its client**: those of the latest request of the client
that was answered with `CONNECTED`. -/
def SignedAsConnected (s : Accounts) : AccountAction → Accounts → Prop
  | .goOn (.transfer (.downloader j _)), _ =>
      ∀ d, s.cache.queue.downloaders[j]? = some d → d.stage = .starting →
        ∃ uid keys, s.requesters[d.address]? = some uid ∧ s.latest uid = some keys ∧
          s.getDownload (s.cache.queue.heap d.address).fileId = some keys
  | _, _ => True

/-- The table has the keys of a client after its `CONNECT` request: it has them already, or the
request is the first for the user and names the user of the connection. -/
def Accounts.keeps (s : Accounts) (conn : Connection) : Effect → Bool
  | .addUser uid keyId secretKey =>
      if conn.uid ∈ s.users then s.keys conn.uid = ⟨keyId, secretKey⟩ else uid = conn.uid
  | _ => true

/-- **Keys that are kept**: after a `CONNECT` request the table has the keys of the client, and a
client that has a download made has connected. -/
def Accounts.keptKeys (nl : Newlines) (s : Accounts) : AccountAction → Bool
  | .connect i request =>
      s.connections[i]?.all fun conn => (clientConnects nl conn request).2.all (s.keeps conn)
  | .goOn action => (s.newRequester action).all fun uid => (s.latest uid).isSome
  | _ => true

variable {nl : Newlines} {s s' : Accounts}

/-! ### The queues without uploads -/

/-- The steps of the queues when nothing is uploaded and no user becomes known. -/
def Action.downloads : Action → Bool
  | .put .. | .addUser .. => false
  | _ => true

/-- Nothing is uploaded. -/
structure Uploadless (q : State) : Prop where
  parts : q.db.transferparts = []
  putters : q.putters = []
  uploaders : q.uploaders = []

/-- There is nothing to upload without a part of an upload. -/
theorem findPendingUpload_of_nil {db : Database} (h : db.transferparts = []) (choice : ℕ) :
    db.findPendingUpload choice = 0 := by
  have hpending : db.pendingUploads = [] := by
    simp only [Database.pendingUploads, h, List.filter_nil, List.map_nil, List.flatMap_eq_nil_iff,
      implies_true]
  rw [Database.findPendingUpload, hpending]
  rfl

theorem users_insertTransfer (db : Database) (file owner : ℤ) (filesize : Option ℤ)
    (direction : Direction) :
    (db.insertTransfer file owner filesize direction).users = db.users := by
  unfold Database.insertTransfer
  split <;> rfl

theorem transferparts_insertTransfer (db : Database) (file owner : ℤ) (filesize : Option ℤ)
    (direction : Direction) :
    (db.insertTransfer file owner filesize direction).transferparts = db.transferparts := by
  unfold Database.insertTransfer
  split <;> rfl

theorem transfers_addFile (db : Database) (file : ℤ) :
    (db.addFile file).transfers = db.transfers ∧ (db.addFile file).users = db.users ∧
      (db.addFile file).transferparts = db.transferparts := by
  unfold Database.addFile
  split <;> exact ⟨rfl, rfl, rfl⟩

/-- A step that leaves the subscriptions on the queue and the rows of the transfers alone. -/
structure SameQueue (q q' : State) : Prop where
  allocated : q'.allocated = q.allocated
  downloadQueue : q'.downloadQueue = q.downloadQueue
  transfers : q'.db.transfers = q.db.transfers
  fileId : ∀ a, (q'.heap a).fileId = (q.heap a).fileId

/-- **What a step of the queues does to subscriptions and rows**, if nothing is uploaded: nothing,
or it makes a subscription, or it takes one off the queue. -/
theorem queues_of_transition {q q' : State} {action : Action} (h : Uploadless q)
    (ht : Transition q action q') (hdownloads : action.downloads = true) :
    Uploadless q' ∧ q'.db.users = q.db.users ∧
      (SameQueue q q' ∧ (∀ fileId owner reused, action = .receive fileId owner reused →
          q.findInDownloadQueue fileId ≠ none) ∨
        (∃ fileId owner reused, action = .receive fileId owner reused ∧
          q.findInDownloadQueue fileId = none ∧ q' = q.create fileId owner reused) ∨
        ∃ j status d, action = .downloader j status ∧ q.downloaders[j]? = some d ∧
          d.stage = .publishing ∧ q' = q.finish j d) := by
  cases ht with
  | @create fileId owner reused hfree hfind =>
      refine ⟨⟨?_, h.putters, h.uploaders⟩, users_insertTransfer _ _ _ _ _,
        .inr (.inl ⟨fileId, owner, reused, rfl, hfind, rfl⟩)⟩
      exact (transferparts_insertTransfer _ _ _ _ _).trans h.parts
  | @finish j d status hd hstage hfree =>
      refine ⟨⟨?_, h.putters, h.uploaders⟩, rfl, .inr (.inr ⟨j, status, d, rfl, hd, hstage, rfl⟩)⟩
      simp only [State.finish, Database.markFileAsCached, Database.updateFiles,
        Database.deleteTransfer, h.parts, List.filter_nil]
  | addFile fileId =>
      obtain ⟨htransfers, husers, hparts⟩ := transfers_addFile q.db fileId
      exact ⟨⟨hparts.trans h.parts, h.putters, h.uploaders⟩, husers,
        .inl ⟨⟨rfl, rfl, htransfers, fun _ => rfl⟩, by simp⟩⟩
  | addUpload | addUser => cases hdownloads
  | createMultiparts hp => rw [h.putters] at hp; cases hp
  | startUpload hp hready hfile => exact absurd (findPendingUpload_of_nil h.parts _) hfile
  | fetch hu | fetchNothing hu | initiate hu | skipInitiate hu | createPart hu | tag hu | upload hu
  | failUpload hu | completeUpload hu => rw [h.uploaders] at hu; cases hu
  | join hfree hfind =>
      refine ⟨⟨h.parts, h.putters, h.uploaders⟩, rfl,
        .inl ⟨⟨rfl, rfl, rfl, fun a => field_update Subscription.fileId (by rfl) a⟩, ?_⟩⟩
      rintro fileId owner reused hreceive
      cases hreceive
      rw [hfind]
      exact Option.some_ne_none _
  | arm | wait | unsubscribe | unsubscribeLast | startDownload | lockAcknowledge | broadcast
  | unlockAcknowledge | free =>
      exact ⟨⟨h.parts, h.putters, h.uploaders⟩, rfl,
        .inl ⟨⟨rfl, rfl, rfl, fun a => field_update Subscription.fileId (by rfl) a⟩, by simp⟩⟩
  | _ =>
      exact ⟨⟨h.parts, h.putters, h.uploaders⟩, rfl,
        .inl ⟨⟨rfl, rfl, rfl, fun _ => rfl⟩, by simp⟩⟩

/-! ### The owners of the rows -/

/-- Every subscription on the queue has a row that belongs to the user it was made for, and no other
file has a row. -/
structure Owned (q : State) (requesters : List ℤ) : Prop where
  length : requesters.length = q.allocated
  row : ∀ a ∈ q.downloadQueue, ∃ t ∈ q.db.transfers,
    t.file = (q.heap a).fileId ∧ requesters[a]? = some t.owner
  queued : ∀ t ∈ q.db.transfers, ∃ a ∈ q.downloadQueue, (q.heap a).fileId = t.file

namespace Owned

variable {q q' : State} {requesters : List ℤ}

theorem frame (h : Owned q requesters) (hsame : SameQueue q q') : Owned q' requesters where
  length := h.length.trans hsame.allocated.symm
  row := by
    rw [hsame.downloadQueue, hsame.transfers]
    simp only [hsame.fileId]
    exact h.row
  queued := by
    rw [hsame.downloadQueue, hsame.transfers]
    simp only [hsame.fileId]
    exact h.queued

/-- A request for a file that is not on the queue can insert its row. -/
theorem insertable (h : Owned q requesters) {fileId owner : ℤ} (hknown : q.db.Known fileId)
    (howner : owner ∈ q.db.users) (hfind : q.findInDownloadQueue fileId = none) :
    q.db.Insertable fileId owner := by
  refine ⟨hknown, howner, fun t ht hfile => ?_⟩
  obtain ⟨a, ha, hfileId⟩ := h.queued t ht
  have hnone := List.find?_eq_none.1 hfind a ha
  exact hnone (decide_eq_true (hfileId.trans hfile))

theorem create (h : Owned q requesters) (hqueued : Queued q) {fileId owner : ℤ} {reused : Option ℕ}
    (hinsertable : q.db.Insertable fileId owner) :
    Owned (q.create fileId owner reused) (requesters ++ [owner]) := by
  have htransfers : (q.create fileId owner reused).db.transfers =
      q.db.transfers ++ [⟨q.db.nextId, owner, fileId, none, .d, none⟩] := by
    simp only [State.create, Database.addDownload, Database.insertTransfer, dif_pos hinsertable]
  have hold : ∀ a ∈ q.downloadQueue,
      ((q.create fileId owner reused).heap a).fileId = (q.heap a).fileId := fun a ha =>
    field_update_of_ne Subscription.fileId (hqueued.bound a ha).ne _
  have hnew : ((q.create fileId owner reused).heap q.allocated).fileId = fileId :=
    field_update_self Subscription.fileId _ _ _
  refine ⟨?_, ?_, ?_⟩
  · rw [List.length_append, h.length]
    rfl
  · intro a ha
    rw [htransfers]
    rcases List.mem_append.1 ha with ha | ha
    · obtain ⟨t, ht, hfile, hrequester⟩ := h.row a ha
      refine ⟨t, List.mem_append_left _ ht, hfile.trans (hold a ha).symm, ?_⟩
      rw [List.getElem?_append_left (h.length ▸ hqueued.bound a ha), hrequester]
    · rw [List.mem_singleton.1 ha, ← h.length, List.getElem?_concat_length, h.length]
      exact ⟨_, List.mem_append_right _ (List.mem_singleton_self _), hnew.symm, rfl⟩
  · intro t ht
    rw [htransfers] at ht
    rcases List.mem_append.1 ht with ht | ht
    · obtain ⟨a, ha, hfile⟩ := h.queued t ht
      exact ⟨a, List.mem_append_left _ ha, (hold a ha).trans hfile⟩
    · rw [List.mem_singleton.1 ht]
      exact ⟨q.allocated, List.mem_append_right _ (List.mem_singleton_self _), hnew⟩

/-- The row of a download goes when its subscription does. -/
theorem finish (h : Owned q requesters) (hqueued : Queued q) {j : ℕ} {d : Downloader}
    (hd : q.downloaders[j]? = some d) (hstage : d.stage = .publishing) :
    Owned (q.finish j d) requesters := by
  have haddress : d.address ∈ q.downloadQueue :=
    (hqueued.onQueue d (List.mem_of_getElem? hd)).2 (by rw [hstage]; rfl)
  have htransfers : (q.finish j d).db.transfers =
      q.db.transfers.filter (·.file ≠ (q.heap d.address).fileId) := rfl
  refine ⟨h.length, ?_, ?_⟩
  · intro a ha
    obtain ⟨hne, ha⟩ := (hqueued.nodup.mem_erase_iff).1 ha
    obtain ⟨t, ht, hfile, hrequester⟩ := h.row a ha
    rw [htransfers]
    refine ⟨t, List.mem_filter.2 ⟨ht, decide_eq_true fun heq => hne ?_⟩, hfile, hrequester⟩
    exact hqueued.files a ha _ haddress (hfile.symm.trans heq)
  · intro t ht
    rw [htransfers] at ht
    obtain ⟨ht, hother⟩ := List.mem_filter.1 ht
    obtain ⟨a, ha, hfile⟩ := h.queued t ht
    refine ⟨a, (hqueued.nodup.mem_erase_iff).2 ⟨?_, ha⟩, hfile⟩
    rintro rfl
    exact of_decide_eq_true hother hfile.symm

/-- **A step of the queues**: a request that makes a subscription is added to the requests. -/
theorem transition (h : Owned q requesters) (hup : Uploadless q) (hqueued : Queued q)
    {action : Action} (ht : Transition q action q') (hdownloads : action.downloads = true)
    {added : List ℤ}
    (hreceive : ∀ fileId owner reused, action = .receive fileId owner reused →
      q.findInDownloadQueue fileId = none → added = [owner] ∧ q.db.Insertable fileId owner)
    (hother : (∀ fileId owner reused, action = .receive fileId owner reused →
      q.findInDownloadQueue fileId ≠ none) → added = []) :
    Owned q' (requesters ++ added) := by
  rcases (queues_of_transition hup ht hdownloads).2.2 with
    ⟨hsame, hno⟩ | ⟨fileId, owner, reused, haction, hfind, rfl⟩ |
      ⟨j, status, d, rfl, hd, hstage, rfl⟩
  · rw [hother hno, List.append_nil]
    exact h.frame hsame
  · obtain ⟨rfl, hinsertable⟩ := hreceive fileId owner reused haction hfind
    exact h.create hqueued hinsertable
  · rw [hother (by simp), List.append_nil]
    exact h.finish hqueued hd hstage

end Owned

/-! ### The keys in the table -/

/-- What a `CONNECT` request does: it is accepted with the keys it has, or refused. -/
theorem clientConnects_cases (nl : Newlines) (conn : Connection) (request : Bytes) :
    (∃ uid keyId secretKey, (clientConnects nl conn request).2 =
        [.addUser uid keyId secretKey, .reply (ascii "CONNECTED")] ∧
      (clientConnects nl conn request).1.keyId = keyId ∧
      (clientConnects nl conn request).1.secretKey = secretKey) ∨
    (clientConnects nl conn request).2 = [.reply (ascii "ERROR: unable to parse keys")] := by
  unfold clientConnects
  split
  · exact .inr rfl
  · split
    · exact .inl ⟨_, _, _, rfl, rfl, rfl⟩
    · exact .inr rfl

/-- The invariant of the accounts. -/
structure Accounts.Inv (s : Accounts) : Prop where
  consistent : Consistent s.cache
  uploadless : Uploadless s.cache.queue
  owned : Owned s.cache.queue s.requesters
  /-- The table has the keys of every client that was told so. -/
  kept : ∀ uid keys, s.latest uid = some keys → uid ∈ s.users ∧ s.keys uid = keys
  connected : ∀ uid ∈ s.requesters, (s.latest uid).isSome = true

/-- A request that was answered with `CONNECTED` is the latest of its user. -/
theorem Accounts.latest_cons {uid : ℤ} {keys : Keys} (uid' : ℤ)
    (hconnects : s'.connects = (uid, keys) :: s.connects) :
    s'.latest uid' = if uid = uid' then some keys else s.latest uid' := by
  unfold Accounts.latest
  rw [hconnects, List.find?_cons]
  by_cases heq : uid = uid'
  · simp [heq]
  · simp [heq]

theorem Accounts.users_addUser (uid : ℤ) (keys : Keys) {uid' : ℤ} :
    uid' ∈ (s.addUser uid keys).users ↔ uid' ∈ s.users ∨ uid' = uid := by
  simp only [Accounts.addUser, Accounts.users, Database.addUser]
  split
  · rename_i hmem
    refine ⟨.inl, ?_⟩
    rintro (h | rfl)
    · exact h
    · exact hmem
  · rw [List.mem_append, List.mem_singleton]

/-- The row of a user stays as it is. -/
theorem Accounts.keys_addUser (uid : ℤ) (keys : Keys) {uid' : ℤ} (h : uid' ∈ s.users) :
    (s.addUser uid keys).keys uid' = s.keys uid' := by
  simp only [Accounts.addUser]
  split
  · rfl
  · rename_i hnew
    refine Function.update_of_ne ?_ _ _
    rintro rfl
    exact hnew h

namespace Accounts.Inv

/-- A user becomes known. -/
theorem addUser (h : s.Inv) (uid : ℤ) (keys : Keys) : (s.addUser uid keys).Inv where
  consistent := by
    have ht : ClientTransition s.cache (.transfer (.addUser uid)) (s.addUser uid keys).cache :=
      .transfer rfl (.addUser uid)
    exact h.consistent.transition ht
  uploadless := by
    refine ⟨?_, h.uploadless.putters, h.uploadless.uploaders⟩
    simp only [Accounts.addUser, Database.addUser]
    split
    · exact h.uploadless.parts
    · exact h.uploadless.parts
  owned := by
    refine h.owned.frame ⟨rfl, rfl, ?_, fun _ => rfl⟩
    simp only [Accounts.addUser, Database.addUser]
    split <;> rfl
  kept := by
    intro uid' keys' hlatest
    obtain ⟨hmem, hkeys⟩ := h.kept uid' keys' hlatest
    exact ⟨(users_addUser uid keys).2 (.inl hmem), (keys_addUser uid keys hmem).trans hkeys⟩
  connected := h.connected

/-- What is remembered of a `CONNECT` request that was accepted. -/
theorem remember (h : s.Inv) {uid : ℤ} {keys : Keys} (hmem : uid ∈ s.users)
    (hkeys : s.keys uid = keys) (hcache : s'.cache = s.cache) (hcolumns : s'.keys = s.keys)
    (hconnects : s'.connects = (uid, keys) :: s.connects)
    (hrequesters : s'.requesters = s.requesters) : s'.Inv where
  consistent := hcache ▸ h.consistent
  uploadless := hcache ▸ h.uploadless
  owned := hcache ▸ hrequesters ▸ h.owned
  kept := by
    intro uid' keys' hlatest
    rw [latest_cons uid' hconnects] at hlatest
    rw [users, hcache, hcolumns]
    split at hlatest
    · rename_i heq
      cases hlatest
      exact heq ▸ ⟨hmem, hkeys⟩
    · exact h.kept uid' keys' hlatest
  connected := by
    intro uid' hrequester
    rw [latest_cons uid' hconnects]
    split
    · rfl
    · exact h.connected uid' (hrequesters ▸ hrequester)

theorem connect (h : s.Inv) {i : ℕ} {conn : Connection} {request : Bytes}
    (hkeeps : (clientConnects nl conn request).2.all (s.keeps conn) = true) :
    (s.connect i conn (clientConnects nl conn request)).Inv := by
  rcases clientConnects_cases nl conn request with
    ⟨uid, keyId, secretKey, heffects, hkey, hsecret⟩ | heffects
  · rw [heffects, List.all_cons, Bool.and_eq_true_iff] at hkeeps
    obtain ⟨hkeeps, -⟩ := hkeeps
    have hrow : conn.uid ∈ (s.addUser uid ⟨keyId, secretKey⟩).users ∧
        (s.addUser uid ⟨keyId, secretKey⟩).keys conn.uid = ⟨keyId, secretKey⟩ := by
      simp only [Accounts.keeps] at hkeeps
      split at hkeeps
      · rename_i hmem
        exact ⟨(users_addUser _ _).2 (.inl hmem),
          (keys_addUser _ _ hmem).trans (of_decide_eq_true hkeeps)⟩
      · rename_i hnew
        obtain rfl := of_decide_eq_true hkeeps
        refine ⟨(users_addUser _ _).2 (.inr rfl), ?_⟩
        rw [Accounts.addUser]
        simp only [if_neg hnew, Function.update_self]
    refine (h.addUser uid ⟨keyId, secretKey⟩).remember hrow.1 hrow.2 ?_ ?_ ?_ ?_
    · simp only [Accounts.connect, heffects]
      rfl
    · simp only [Accounts.connect, heffects]
      rfl
    · simp only [Accounts.connect, heffects, hkey, hsecret, List.mem_cons, true_or, or_true,
        if_true]
      rfl
    · simp only [Accounts.connect, heffects]
      rfl
  · have hrefused : Effect.reply (ascii "CONNECTED") ∉
        [Effect.reply (ascii "ERROR: unable to parse keys")] := by decide +kernel
    have hsame : s.connect i conn (clientConnects nl conn request) =
        { s with connections := s.connections.set i (clientConnects nl conn request).1 } := by
      simp only [Accounts.connect, heffects, if_neg hrefused]
      rfl
    rw [hsame]
    exact { h with }

/-- The queues take a step, for a request or on their own. -/
theorem queue (h : s.Inv) {c : Cache} {action : ClientAction} {a : Action}
    (ht : ClientTransition s.cache action c) (hq : Transition s.cache.queue a c.queue)
    (hdownloads : a.downloads = true)
    (hadded : ∀ uid ∈ s.newRequester action, (s.latest uid).isSome = true)
    (hreceive : ∀ fileId owner reused, a = .receive fileId owner reused →
      s.cache.queue.findInDownloadQueue fileId = none →
        s.newRequester action = [owner] ∧ s.cache.queue.db.Known fileId)
    (hother : (∀ fileId owner reused, a = .receive fileId owner reused →
      s.cache.queue.findInDownloadQueue fileId ≠ none) → s.newRequester action = []) :
    Accounts.Inv { s with
      cache := c
      requesters := s.requesters ++ s.newRequester action } := by
  obtain ⟨hup, husers, -⟩ := queues_of_transition h.uploadless hq hdownloads
  refine ⟨h.consistent.transition ht, hup, ?_, ?_, ?_⟩
  · refine h.owned.transition h.uploadless h.consistent.queued hq hdownloads ?_ hother
    intro fileId owner reused ha hfind
    obtain ⟨hnew, hknown⟩ := hreceive fileId owner reused ha hfind
    obtain ⟨keys, hkeys⟩ := Option.isSome_iff_exists.1
      (hadded owner (hnew ▸ List.mem_singleton_self owner))
    exact ⟨hnew, h.owned.insertable hknown (h.kept owner keys hkeys).1 hfind⟩
  · intro uid keys hlatest
    rw [users, husers]
    exact h.kept uid keys hlatest
  · intro uid hmem
    rcases List.mem_append.1 hmem with hmem | hmem
    · exact h.connected uid hmem
    · exact hadded uid hmem

/-- A step that does not touch the queues. -/
theorem request (h : s.Inv) {c : Cache} {action : ClientAction}
    (ht : ClientTransition s.cache action c) (hqueue : c.queue = s.cache.queue) {added : List ℤ}
    (hadded : added = []) :
    Accounts.Inv { s with cache := c, requesters := s.requesters ++ added } where
  consistent := h.consistent.transition ht
  uploadless := hqueue ▸ h.uploadless
  owned := by
    rw [hadded, List.append_nil]
    exact hqueue ▸ h.owned
  kept := by
    intro uid keys hlatest
    rw [users, hqueue]
    exact h.kept uid keys hlatest
  connected := by
    rw [hadded, List.append_nil]
    exact h.connected

theorem goOn (h : s.Inv) {c : Cache} {action : ClientAction}
    (ht : ClientTransition s.cache action c) (hunderway : action.underway = true)
    (hadded : ∀ uid ∈ s.newRequester action, (s.latest uid).isSome = true) :
    Accounts.Inv { s with
      cache := c
      requesters := s.requesters ++ s.newRequester action } := by
  cases ht with
  | request => cases hunderway
  | check cached hi => exact h.request (.check cached hi) rfl rfl
  | reply hi => exact h.request (.reply hi) rfl rfl
  | replyReceived hi hdone => exact h.request (.replyReceived hi hdone) rfl rfl
  | @create path fileId hpath hpos hnew =>
      exact h.queue (.create hpath hpos hnew) (.addFile fileId) rfl hadded (by simp) fun _ => rfl
  | @transfer a q hinternal hq =>
      have hdownloads : a.downloads = true := by
        cases a <;> first | rfl | cases hunderway
      refine h.queue (.transfer hinternal hq) hq hdownloads hadded ?_ fun _ => rfl
      rintro fileId owner reused rfl
      cases hinternal
  | @receive i path owner fileId reused q hi hq =>
      have hnew : s.newRequester (.receive i reused) =
          if s.cache.queue.findInDownloadQueue fileId = none then [owner] else [] := by
        rw [Accounts.newRequester, hi]
      refine h.queue (.receive hi hq) hq rfl hadded ?_ ?_
      · intro fileId' owner' reused' heq hfind
        cases heq
        rw [hnew, if_pos hfind]
        exact ⟨rfl, h.consistent.known_of_missing hi⟩
      · intro hother
        rw [hnew, if_neg (hother fileId owner reused rfl)]

/-- **The invariant is kept**, as long as the keys are. -/
theorem step (h : s.Inv) {action : AccountAction} (hkept : s.keptKeys nl action = true)
    (hstep : accountStep nl s action = some s') : s'.Inv := by
  cases action with
  | accept uid =>
      cases hstep
      exact { h with }
  | connect i request =>
      obtain ⟨conn, hconn, rfl⟩ := Option.map_eq_some_iff.1 hstep
      rw [Accounts.keptKeys, hconn, Option.all_some] at hkept
      exact h.connect hkept
  | cache i path =>
      obtain ⟨conn, hconn, rfl⟩ := Option.map_eq_some_iff.1 hstep
      have hrequest := h.request (.request path conn.uid) rfl rfl
      rw [List.append_nil] at hrequest
      exact hrequest
  | goOn action =>
      rw [accountStep] at hstep
      split at hstep
      · obtain ⟨c, hc, rfl⟩ := Option.map_eq_some_iff.1 hstep
        rw [Accounts.keptKeys, List.all_eq_true] at hkept
        exact h.goOn (clientTransition_of_step hc) ‹_› hkept
      · cases hstep

/-- A download that is about to start finds the row of its subscription, and in it the keys. -/
theorem signed (h : s.Inv) (action : AccountAction) (s' : Accounts) :
    SignedAsConnected s action s' := by
  unfold SignedAsConnected
  split
  · rename_i j status t
    intro d hd hstage
    have hqueue : d.address ∈ s.cache.queue.downloadQueue :=
      (h.consistent.queued.onQueue d (List.mem_of_getElem? hd)).2 (by rw [hstage]; rfl)
    obtain ⟨t, ht, hfile, hrequester⟩ := h.owned.row d.address hqueue
    obtain ⟨keys, hlatest⟩ := Option.isSome_iff_exists.1
      (h.connected t.owner (List.mem_of_getElem? hrequester))
    refine ⟨t.owner, keys, hrequester, hlatest, ?_⟩
    have hfind : s.cache.queue.db.transfers.find?
        (·.file = (s.cache.queue.heap d.address).fileId) = some t :=
      (find?_key_eq_some_iff s.cache.queue.db.file_unique).2 ⟨ht, hfile⟩
    rw [Accounts.getDownload, hfind, Option.map_some, (h.kept _ _ hlatest).2]
  · trivial

end Accounts.Inv

theorem inv_initial {names : List (Bytes × ℤ)} {db : Database} (hnamed : Named names db)
    (hempty : db.transfers = []) (keys : ℤ → Keys) : (Accounts.initial names db keys).Inv where
  consistent := consistent_initial hnamed
  uploadless := by
    refine ⟨List.eq_nil_iff_forall_not_mem.2 fun p hp => ?_, rfl, rfl⟩
    obtain ⟨t, ht, -⟩ := db.transfer_known p hp
    rw [hempty] at ht
    cases ht
  owned := by
    refine ⟨rfl, by simp [Accounts.initial, Cache.initial, State.initial], fun t ht => ?_⟩
    rw [show (Accounts.initial names db keys).cache.queue.db.transfers = [] from hempty] at ht
    cases ht
  kept := by simp [Accounts.initial, Accounts.latest]
  connected := by simp [Accounts.initial]

/-- **A download is signed with the keys of the client that it was made for**, those of the latest
request of the client that was answered with `CONNECTED`, in every run in which keys are kept. -/
theorem signed_of_keptKeys {names : List (Bytes × ℤ)} {db : Database} (hnamed : Named names db)
    (hempty : db.transfers = []) (keys : ℤ → Keys) {actions : List AccountAction}
    (hkept : Along (accountStep nl) (fun s action _ => s.keptKeys nl action = true)
      (.initial names db keys) actions) :
    Along (accountStep nl) SignedAsConnected (.initial names db keys) actions := by
  have hstep : ∀ s action s', Accounts.Inv s → s.keptKeys nl action = true →
      accountStep nl s action = some s' → s'.Inv ∧ SignedAsConnected s action s' :=
    fun _ action s' h hkept hstep => ⟨h.step hkept hstep, h.signed action s'⟩
  exact along_of_inv hstep (inv_initial hnamed hempty keys) hkept

/-- The parameters of a `CONNECT` request of the user `1001`, with keys of one letter each. -/
def connect1001 (letter : UInt8) : Bytes :=
  ascii "bucket:1001:" ++ List.replicate 20 letter ++ 58 :: List.replicate 40 letter

/-- The user `1001` asks for the file, and the download gets to its start. -/
def download1001 : List AccountAction :=
  [.cache 0 (ascii "/dir/a"), .goOn (.check 0 0), .goOn (.receive 0 none),
    .goOn (.transfer (.receiver 0)), .goOn (.transfer (.receiver 0)),
    .goOn (.transfer (.processor 0 0)), .goOn (.transfer (.processor 0 0)),
    .goOn (.transfer (.processor 1 0))]

/-- The server before the first connection. -/
def Accounts.oneFile : Accounts := .initial oneName .oneFile fun _ => ⟨[], []⟩

/-- A client that connects and asks for a file has it signed with its keys. -/
theorem signed_download1001 :
    (∃ t, run (accountStep .lineFeed) .oneFile
      (([.accept 1001, .connect 0 (connect1001 65)] ++ download1001) ++
        [.goOn (.transfer (.downloader 0 0))]) = some t) ∧
    Along (accountStep .lineFeed) SignedAsConnected .oneFile
      (([.accept 1001, .connect 0 (connect1001 65)] ++ download1001) ++
        [.goOn (.transfer (.downloader 0 0))]) :=
  ⟨Option.isSome_iff_exists.1 (by decide +kernel),
    signed_of_keptKeys named_oneName rfl _ (by decide +kernel)⟩

/-- The keys in `connect1001`. -/
def keys1001 (letter : UInt8) : Keys := ⟨List.replicate 20 letter, List.replicate 40 letter⟩

/-- The user `1001` connects, connects again with other keys, and asks for the file. -/
def newKeys1001 : List AccountAction :=
  [.accept 1001, .connect 0 (connect1001 65), .connect 0 (connect1001 66)] ++ download1001

/-- **New keys are not used**: both requests are answered with `CONNECTED`, and the download is
signed with the keys of the first. -/
theorem not_signed_newKeys :
    ∃ s, run (accountStep .lineFeed) .oneFile newKeys1001 = some s ∧
      s.latest 1001 = some (keys1001 66) ∧ s.getDownload 7 = some (keys1001 65) ∧
      ¬ Along (accountStep .lineFeed) SignedAsConnected .oneFile
        (newKeys1001 ++ [.goOn (.transfer (.downloader 0 0))]) := by
  obtain ⟨s, hs⟩ : ∃ s, run (accountStep .lineFeed) .oneFile newKeys1001 = some s :=
    Option.isSome_iff_exists.1 (by decide +kernel)
  have hvalues : (run (accountStep .lineFeed) .oneFile newKeys1001).map
      (fun s => (s.latest 1001, s.getDownload 7)) =
        some (some (keys1001 66), some (keys1001 65)) := by decide +kernel
  have hstart : (run (accountStep .lineFeed) .oneFile newKeys1001).map
      (fun s => (s.cache.queue.downloaders[0]?, (s.cache.queue.heap 0).fileId, s.requesters[0]?,
        (accountStep .lineFeed s (.goOn (.transfer (.downloader 0 0)))).isSome)) =
          some (some ⟨0, 0, .starting⟩, 7, some 1001, true) := by decide +kernel
  rw [hs, Option.map_some, Option.some_inj, Prod.mk.injEq] at hvalues
  rw [hs, Option.map_some, Option.some_inj, Prod.mk.injEq, Prod.mk.injEq, Prod.mk.injEq] at hstart
  obtain ⟨hlatest, hdownload⟩ := hvalues
  obtain ⟨hstarting, hfile, hrequester, hnext⟩ := hstart
  refine ⟨s, hs, hlatest, hdownload, fun halong => ?_⟩
  obtain ⟨t, ht⟩ := Option.isSome_iff_exists.1 hnext
  obtain ⟨uid, keys, huid, hkeys, hsigned⟩ := Along.last ht halong hs _ hstarting rfl
  obtain rfl := Option.some_inj.1 (hrequester.symm.trans huid)
  rw [hfile, hdownload] at hsigned
  obtain rfl := Option.some_inj.1 hsigned
  exact absurd (hlatest.symm.trans hkeys) (by decide +kernel)

end AwsS3fs
