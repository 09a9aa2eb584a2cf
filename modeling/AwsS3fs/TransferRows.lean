/-
**The rows of the transfers.**

Downloads and uploads share one table, with one row for a file, and both ends of a transfer delete
the row of the file in whatever direction it is.  So a transfer is safe from another one of the same
file only as long as the two do not overlap: an insertion that fails is not noticed, and the end of
one transfer can take the row of the other with it.

Main definitions:

* `AwsS3fs.OwnRows` — **what a step may do to the rows**: only the end of an upload removes its row,
  only the end of a download its own, and a request that signals the queue processor has left a row
  of its own direction;
* `AwsS3fs.Free` — a request that finds its file free;
* `AwsS3fs.Rows` — the invariant: a queued subscription has its row, and an upload that is under way
  has the only row of its file.

Main results:

* `AwsS3fs.Rows.transition` — every transition keeps the invariant, if requests find their file
  free;
* `AwsS3fs.ownRows_of_free` — **a run in which all requests find their file free**;
* `AwsS3fs.upload_lost_to_download` — a run in which an upload is lost.
-/

import AwsS3fs.TransferInvariant

set_option relaxedAutoImplicit false
set_option autoImplicit false

namespace AwsS3fs

variable {s s' : State} {action : Action}

/-! ### What a step may do to the rows -/

/-- What a step may do to the rows of the transfers. -/
structure OwnRows (s : State) (action : Action) (s' : State) : Prop where
  /-- The row of an upload is removed by the end of that upload. -/
  upload : ∀ e ∈ s.db.entries, e ∉ s'.db.entries → e.direction = .u →
    ∃ k choice status text u up, action = .uploader k choice status text ∧
      s.uploaders[k]? = some u ∧ u.work = .part up .uploaded ∧ u.fileId = e.file ∧
      up.transfer = e.id
  /-- The row of a download is removed by the end of that download. -/
  download : ∀ e ∈ s.db.entries, e ∉ s'.db.entries → e.direction = .d →
    ∃ j status d, action = .downloader j status ∧ s.downloaders[j]? = some d ∧
      d.stage = .publishing ∧ (s.heap d.address).transfer = some e.id
  /-- `ReceiveDownload` has left a row when it signals the queue processor. -/
  receive : ∀ i a, action = .receiver i → s.receivers[i]? = some (.subscribed a) →
    ∃ e ∈ s'.db.entries, e.file = (s'.heap a).fileId ∧ e.direction = .d
  /-- `PutUpload` has left a row when it signals the queue processor. -/
  put : ∀ i fileId filesize, action = .putter i → s.putters[i]? = some (.added fileId filesize) →
    ∃ e ∈ s'.db.entries, e.file = fileId ∧ e.direction = .u

/-- The row of a `BeginUpload` that has found its part and has not come to an end. -/
def UploadWork.row : UploadWork → Option ℕ
  | .part _ .exited | .part _ .failed => none
  | .part up _ => some up.transfer
  | _ => none

/-- No upload of a file is under way. -/
def State.NoUpload (s : State) (fileId : ℤ) : Prop :=
  ∀ u ∈ s.uploaders, u.fileId = fileId → u.work.row = none

instance (fileId : ℤ) : Decidable (s.NoUpload fileId) :=
  inferInstanceAs (Decidable (∀ u ∈ s.uploaders, u.fileId = fileId → u.work.row = none))

/-- A request that finds its file free: file and owner are known, there is no row for the file, and
no upload of it is under way.  A download may join a queued one, and an upload one that has a
row. -/
def Free (s : State) : Action → Prop
  | .receive fileId owner _ => s.findInDownloadQueue fileId = none →
      s.db.Insertable fileId owner ∧ s.NoUpload fileId
  | .put fileId owner _ => (∃ e ∈ s.db.entries, e.file = fileId ∧ e.direction = .u) ∨
      s.db.Insertable fileId owner ∧ s.NoUpload fileId
  | _ => True

instance : (action : Action) → Decidable (Free s action)
  | .receive _ _ _ => inferInstanceAs (Decidable (_ → _))
  | .put _ _ _ => inferInstanceAs (Decidable (_ ∨ _))
  | .receiver _ | .putter _ | .processor _ _ | .downloader _ _ | .uploader _ _ _ _ | .expire _
  | .wakeReceiver _ | .wakeProcessor | .addFile _ | .addUser _ => inferInstanceAs (Decidable True)

/-! ### The invariant -/

/-- The rows of the queued subscriptions and of the uploads that are under way. -/
structure Rows (s : State) : Prop where
  download : ∀ a ∈ s.downloadQueue, ∃ n, (s.heap a).transfer = some n ∧
    ⟨n, (s.heap a).fileId, .d⟩ ∈ s.db.entries
  upload : ∀ u ∈ s.uploaders, ∀ n, u.work.row = some n →
    ∀ e ∈ s.db.entries, e.file = u.fileId → e = ⟨n, u.fileId, .u⟩
  /-- A call that is about to signal the queue processor has its subscription on the queue. -/
  receiver : ∀ a, .subscribed a ∈ s.receivers → a ∈ s.downloadQueue
  /-- A call that is about to signal the queue processor has its upload in the table. -/
  putter : ∀ fileId filesize, .added fileId filesize ∈ s.putters →
    ∃ e ∈ s.db.entries, e.file = fileId ∧ e.direction = .u

/-- While nobody has the main mutex, no call is about to signal the queue processor. -/
theorem Exclusive.no_subscribed (hx : Exclusive s) (hfree : s.mainLoop = none) (a : ℕ) :
    .subscribed a ∉ s.receivers := by
  intro hmem
  obtain ⟨i, hi⟩ := List.mem_iff_getElem?.1 hmem
  have := hx.none_of_free hfree (.receiver i)
  rw [State.holdsMain, hi] at this
  cases this

theorem Exclusive.no_added (hx : Exclusive s) (hfree : s.mainLoop = none) (fileId filesize : ℤ) :
    .added fileId filesize ∉ s.putters := by
  intro hmem
  obtain ⟨i, hi⟩ := List.mem_iff_getElem?.1 hmem
  have := hx.none_of_free hfree (.putter i)
  rw [State.holdsMain, hi] at this
  cases this

namespace Rows

/-- A transition that does not touch the queue or the rows. -/
theorem frame (h : Rows s) (hqueue : s'.downloadQueue = s.downloadQueue)
    (hentries : s'.db.entries = s.db.entries)
    (hfile : ∀ a, (s'.heap a).fileId = (s.heap a).fileId)
    (htransfer : ∀ a, (s'.heap a).transfer = (s.heap a).transfer)
    (hupload : ∀ u' ∈ s'.uploaders, ∀ n, u'.work.row = some n →
      ∃ u ∈ s.uploaders, u.fileId = u'.fileId ∧ u.work.row = some n)
    (hreceiver : ∀ a, .subscribed a ∈ s'.receivers → a ∈ s.downloadQueue)
    (hputter : ∀ fileId filesize, .added fileId filesize ∈ s'.putters →
      .added fileId filesize ∈ s.putters) : Rows s' where
  download := by
    rw [hqueue, hentries]
    intro a ha
    rw [hfile, htransfer]
    exact h.download a ha
  upload := by
    rw [hentries]
    intro u' hu' n hrow
    obtain ⟨u, hu, hsame, hrow⟩ := hupload u' hu' n hrow
    rw [← hsame]
    exact h.upload u hu n hrow
  receiver := by
    rw [hqueue]
    exact hreceiver
  putter := by
    rw [hentries]
    exact fun fileId filesize hp => h.putter fileId filesize (hputter fileId filesize hp)

/-- A transition of neither an upload nor a call of `PutUpload`. -/
theorem frame_heap (h : Rows s) (hqueue : s'.downloadQueue = s.downloadQueue)
    (hentries : s'.db.entries = s.db.entries)
    (hfile : ∀ a, (s'.heap a).fileId = (s.heap a).fileId)
    (htransfer : ∀ a, (s'.heap a).transfer = (s.heap a).transfer)
    (huploaders : s'.uploaders = s.uploaders)
    (hreceiver : ∀ a, .subscribed a ∈ s'.receivers → a ∈ s.downloadQueue)
    (hputters : s'.putters = s.putters) : Rows s' :=
  h.frame hqueue hentries hfile htransfer
    (huploaders ▸ fun u hu _ hrow => ⟨u, hu, rfl, hrow⟩) hreceiver (hputters ▸ fun _ _ hp => hp)

/-- A call of `ReceiveDownload` goes on. -/
theorem frame_receiver (h : Rows s) {i : ℕ} {r' : Receiver} (hr' : ∀ a, r' ≠ .subscribed a)
    (hset : s'.receivers = s.receivers.set i r') (hqueue : s'.downloadQueue = s.downloadQueue)
    (hdb : s'.db = s.db) (hfile : ∀ a, (s'.heap a).fileId = (s.heap a).fileId)
    (htransfer : ∀ a, (s'.heap a).transfer = (s.heap a).transfer)
    (huploaders : s'.uploaders = s.uploaders) (hputters : s'.putters = s.putters) : Rows s' := by
  refine h.frame_heap hqueue (by rw [hdb]) hfile htransfer huploaders ?_ hputters
  rw [hset]
  intro a ha
  rcases List.mem_or_eq_of_mem_set ha with ha | ha
  · exact h.receiver a ha
  · exact absurd ha.symm (hr' a)

/-- A `BeginUpload` goes on. -/
theorem frame_uploader (h : Rows s) {k : ℕ} {u : Uploader} {work : UploadWork}
    (hu : s.uploaders[k]? = some u) (hrow : ∀ n, work.row = some n → u.work.row = some n)
    (hset : s'.uploaders = s.uploaders.set k { u with work := work })
    (hqueue : s'.downloadQueue = s.downloadQueue) (hentries : s'.db.entries = s.db.entries)
    (hheap : s'.heap = s.heap) (hreceivers : s'.receivers = s.receivers)
    (hputters : s'.putters = s.putters) : Rows s' := by
  refine h.frame hqueue hentries (fun _ => by rw [hheap]) (fun _ => by rw [hheap]) ?_
    (hreceivers ▸ h.receiver) (hputters ▸ fun _ _ hp => hp)
  rw [hset]
  intro u' hu' n hrow'
  rcases List.mem_or_eq_of_mem_set hu' with hu' | rfl
  · exact ⟨u', hu', rfl, hrow'⟩
  · exact ⟨u, List.mem_of_getElem? hu, rfl, hrow n hrow'⟩

/-- The transfers that are queued while nothing else of the file is under way. -/
theorem upload_insert (h : Rows s) {fileId owner : ℤ} {filesize : Option ℤ} {direction : Direction}
    (hnone : s.db.Insertable fileId owner → s.NoUpload fileId) :
    ∀ u ∈ s.uploaders, ∀ n, u.work.row = some n →
      ∀ e ∈ (s.db.insertTransfer fileId owner filesize direction).entries, e.file = u.fileId →
        e = ⟨n, u.fileId, .u⟩ := by
  intro u hu n hrow e he hfile
  rcases Database.mem_entries_insertTransfer.1 he with he | ⟨hinsert, rfl⟩
  · exact h.upload u hu n hrow e he hfile
  · rw [hnone hinsert u hu hfile.symm] at hrow
    cases hrow

/-- A download is queued. -/
theorem create (h : Rows s) (hq : Queued s) {fileId owner : ℤ} {reused : Option ℕ}
    (hinsert : s.db.Insertable fileId owner) (hnone : s.NoUpload fileId) :
    Rows (s.create fileId owner reused) where
  download := by
    intro a ha
    rcases List.mem_append.1 ha with ha | ha
    · obtain ⟨n, htransfer, hentry⟩ := h.download a ha
      have hold : (s.create fileId owner reused).heap a = s.heap a :=
        Function.update_of_ne (hq.bound a ha).ne _ _
      rw [hold]
      exact ⟨n, htransfer, Database.mem_entries_insertTransfer.2 (.inl hentry)⟩
    · rw [List.mem_singleton.1 ha]
      refine ⟨s.db.nextId, ?_, Database.mem_entries_insertTransfer.2 (.inr ⟨hinsert, ?_⟩)⟩
      · simp [State.create, hinsert]
      · simp [State.create]
  upload := h.upload_insert fun _ => hnone
  receiver := by
    intro a ha
    rcases List.mem_append.1 ha with ha | ha
    · exact List.mem_append_left _ (h.receiver a ha)
    · cases List.mem_singleton.1 ha
      exact List.mem_append_right _ (List.mem_singleton.2 rfl)
  putter := by
    intro fileId' filesize hp
    obtain ⟨e, he, hfile⟩ := h.putter fileId' filesize hp
    exact ⟨e, Database.mem_entries_insertTransfer.2 (.inl he), hfile⟩

/-- An upload is queued, or joins one that is. -/
theorem addUpload (h : Rows s) {fileId owner filesize : ℤ}
    (hfree : Free s (.put fileId owner filesize)) : Rows (s.addUpload fileId owner filesize) where
  download := by
    intro a ha
    obtain ⟨n, htransfer, hentry⟩ := h.download a ha
    exact ⟨n, htransfer, Database.mem_entries_insertTransfer.2 (.inl hentry)⟩
  upload := by
    refine h.upload_insert fun hinsert => ?_
    rcases hfree with ⟨e, he, hfile, -⟩ | ⟨-, hnone⟩
    · exact absurd hfile ((Database.insertable_iff.1 hinsert).2.2 e he)
    · exact hnone
  receiver := h.receiver
  putter := by
    intro fileId' filesize' hp
    rcases List.mem_append.1 hp with hp | hp
    · obtain ⟨e, he, hfile⟩ := h.putter fileId' filesize' hp
      exact ⟨e, Database.mem_entries_insertTransfer.2 (.inl he), hfile⟩
    · cases List.mem_singleton.1 hp
      rcases hfree with ⟨e, he, hfile⟩ | ⟨hinsert, -⟩
      · exact ⟨e, Database.mem_entries_insertTransfer.2 (.inl he), hfile⟩
      · exact ⟨_, Database.mem_entries_insertTransfer.2 (.inr ⟨hinsert, rfl⟩), rfl, rfl⟩

/-- A download comes to its end. -/
theorem finish (h : Rows s) (hx : Exclusive s) (hq : Queued s) {j : ℕ} {d : Downloader}
    (hd : s.downloaders[j]? = some d) (hstage : d.stage = .publishing)
    (hfree : s.mainLoop = none) : Rows (s.finish j d) where
  download := by
    intro a ha
    obtain ⟨hne, ha⟩ := (hq.nodup.mem_erase_iff).1 ha
    have hqueue : d.address ∈ s.downloadQueue :=
      (hq.onQueue d (List.mem_of_getElem? hd)).2 (by rw [hstage]; rfl)
    obtain ⟨n, htransfer, hentry⟩ := h.download a ha
    exact ⟨n, htransfer, Database.mem_entries_deleteTransfer.2
      ⟨hentry, fun hfile => hne (hq.files a ha _ hqueue hfile)⟩⟩
  upload := fun u hu n hrow e he =>
    h.upload u hu n hrow e (Database.mem_entries_deleteTransfer.1 he).1
  receiver := fun a ha => absurd ha (hx.no_subscribed hfree a)
  putter := fun _ _ hp => absurd hp (hx.no_added hfree _ _)

/-- An upload comes to its end. -/
theorem completeUpload (h : Rows s) (hx : Exclusive s) {k : ℕ} {u : Uploader}
    {up : Database.Upload} (hu : s.uploaders[k]? = some u) (hwork : u.work = .part up .uploaded)
    (hfree : s.mainLoop = none) : Rows (s.completeUpload k u up) where
  download := by
    intro a ha
    obtain ⟨n, htransfer, hentry⟩ := h.download a ha
    refine ⟨n, htransfer, Database.mem_entries_deleteTransfer.2 ⟨hentry, fun hfile => ?_⟩⟩
    -- the row would be that of the upload
    have := h.upload u (List.mem_of_getElem? hu) up.transfer (by rw [hwork]; rfl) _ hentry hfile
    exact absurd (congrArg Database.Entry.direction this) (by simp)
  upload := by
    intro u' hu' n hrow e he
    have he := (Database.mem_entries_deleteTransfer.1 he).1
    rcases List.mem_or_eq_of_mem_set hu' with hu' | rfl
    · exact h.upload u' hu' n hrow e he
    · cases hrow
  receiver := h.receiver
  putter := fun _ _ hp => absurd hp (hx.no_added hfree _ _)

/-- **Every transition keeps the rows, if requests find their file free.** -/
theorem transition (h : Rows s) (hx : Exclusive s) (hq : Queued s) (ht : Transition s action s')
    (hfree : Free s action) : Rows s' := by
  cases ht with
  | @join fileId owner reused a hmain hfind =>
      refine h.frame_heap rfl rfl (field_update Subscription.fileId rfl)
        (field_update Subscription.transfer rfl) rfl (fun b hb => ?_) rfl
      rcases List.mem_append.1 hb with hb | hb
      · exact h.receiver b hb
      · cases List.mem_singleton.1 hb
        exact List.mem_of_find?_eq_some hfind
  | create hmain hfind =>
      obtain ⟨hinsert, hnone⟩ := hfree hfind
      exact h.create hq hinsert hnone
  | arm | wait | unsubscribe | unsubscribeLast =>
      exact h.frame_receiver (by simp) rfl rfl rfl (field_update Subscription.fileId rfl)
        (field_update Subscription.transfer rfl) rfl rfl
  | leave | unsubscribeNone | acknowledge | wakeReceiver =>
      exact h.frame_receiver (by simp) rfl rfl rfl (fun _ => rfl) (fun _ => rfl) rfl rfl
  | addUpload => exact h.addUpload hfree
  | @createMultiparts i fileId filesize hp =>
      refine h.frame rfl (Database.entries_createMultiparts _ _) (fun _ => rfl) (fun _ => rfl)
        (fun u hu n hrow => ⟨u, hu, rfl, hrow⟩) h.receiver fun fileId' filesize' hp' => ?_
      rcases List.mem_or_eq_of_mem_set hp' with hp' | hp'
      · exact hp'
      · cases hp'
  | startUpload =>
      refine h.frame rfl rfl (fun _ => rfl) (fun _ => rfl) (fun u hu n hrow => ?_) h.receiver
        fun _ _ hp => hp
      rcases List.mem_append.1 hu with hu | hu
      · exact ⟨u, hu, rfl, hrow⟩
      · cases List.mem_singleton.1 hu
        cases hrow
  | startDownload | lockAcknowledge | unlockAcknowledge | free =>
      exact h.frame_heap rfl rfl (field_update Subscription.fileId rfl)
        (field_update Subscription.transfer rfl) rfl h.receiver rfl
  | broadcast =>
      refine h.frame_heap rfl rfl (field_update Subscription.fileId rfl)
        (field_update Subscription.transfer rfl) rfl (fun a ha => ?_) rfl
      obtain ⟨r, hr, heq⟩ := List.mem_map.1 ha
      split at heq
      · cases heq
      · exact h.receiver a (heq ▸ hr)
  | finish hd hstage hmain => exact h.finish hx hq hd hstage hmain
  | @fetch k choice u status text up hu hwork hget =>
      -- the row that the query has found is the only one of the file
      refine { h with upload := fun u' hu' n hrow e he hfile => ?_ }
      rcases List.mem_or_eq_of_mem_set hu' with hu' | rfl
      · exact h.upload u' hu' n hrow e he hfile
      · cases hrow
        exact Database.entry_unique he (Database.entry_of_getUpload hget) hfile
  | fetchNothing hu => exact h.frame_uploader hu (by simp [UploadWork.row]) rfl rfl rfl rfl rfl rfl
  | skipInitiate hu hwork | createPart hu hwork | tag hu hwork | upload hu hwork =>
      exact h.frame_uploader hu (by rw [hwork]; exact fun _ hn => hn) rfl rfl rfl rfl rfl rfl
  | initiate hu hwork =>
      exact h.frame_uploader hu (by rw [hwork]; exact fun _ hn => hn) rfl rfl
        (Database.entries_setUploadId _ _) rfl rfl rfl
  | failUpload hu => exact h.frame_uploader hu (by simp [UploadWork.row]) rfl rfl rfl rfl rfl rfl
  | completeUpload hu hwork hmain => exact h.completeUpload hx hu hwork hmain
  | addFile =>
      exact h.frame_heap rfl (Database.entries_addFile _) (fun _ => rfl) (fun _ => rfl) rfl
        h.receiver rfl
  | addUser =>
      exact h.frame_heap rfl (Database.entries_addUser _) (fun _ => rfl) (fun _ => rfl) rfl
        h.receiver rfl
  | _ => exact { h with }

end Rows

theorem rows_initial (db : Database) : Rows (State.initial db) where
  download := by simp [State.initial]
  upload := by simp [State.initial]
  receiver := by simp [State.initial]
  putter := by simp [State.initial]

/-! ### Every step of a run -/

/-- A step that removes no row and signals nobody. -/
theorem ownRows_of_subset (hentries : ∀ e ∈ s.db.entries, e ∈ s'.db.entries)
    (hreceiver : ∀ i a, action = .receiver i → s.receivers[i]? ≠ some (.subscribed a))
    (hputter : ∀ i fileId filesize, action = .putter i →
      s.putters[i]? ≠ some (.added fileId filesize)) : OwnRows s action s' where
  upload := fun e he hremoved => absurd (hentries e he) hremoved
  download := fun e he hremoved => absurd (hentries e he) hremoved
  receive := fun i a hi hr => absurd hr (hreceiver i a hi)
  put := fun i fileId filesize hi hp => absurd hp (hputter i fileId filesize hi)

/-- What a step does to the rows, if the invariant holds. -/
theorem Rows.ownRows (h : Rows s) (hq : Queued s) (ht : Transition s action s') :
    OwnRows s action s' := by
  cases ht with
  | @arm i a hr hwait =>
      refine ⟨fun e he hremoved => absurd he hremoved, fun e he hremoved => absurd he hremoved,
        fun i' b hi hr' => ?_, by simp⟩
      cases hi
      cases hr.symm.trans hr'
      obtain ⟨n, -, hentry⟩ := h.download a (h.receiver a (List.mem_of_getElem? hr))
      exact ⟨_, hentry, (field_update Subscription.fileId (by rfl) a).symm, rfl⟩
  | @createMultiparts i fileId filesize hp =>
      have hentries : (s.createMultiparts i fileId filesize).db.entries = s.db.entries :=
        Database.entries_createMultiparts _ _
      refine ⟨fun e he hremoved => absurd (hentries ▸ he) hremoved,
        fun e he hremoved => absurd (hentries ▸ he) hremoved, by simp,
        fun i' fileId' filesize' hi hp' => ?_⟩
      cases hi
      cases hp.symm.trans hp'
      rw [hentries]
      exact h.putter fileId filesize (List.mem_of_getElem? hp)
  | @finish j d status hd hstage hfree =>
      have hqueue : d.address ∈ s.downloadQueue :=
        (hq.onQueue d (List.mem_of_getElem? hd)).2 (by rw [hstage]; rfl)
      obtain ⟨n, htransfer, hentry⟩ := h.download d.address hqueue
      have hown : ∀ e ∈ s.db.entries, e ∉ (s.finish j d).db.entries →
          e = ⟨n, (s.heap d.address).fileId, .d⟩ := by
        intro e he hremoved
        exact Database.entry_unique he hentry (Database.file_eq_of_deleted he hremoved)
      refine ⟨fun e he hremoved hdir => ?_, fun e he hremoved hdir => ?_, by simp, by simp⟩
      · rw [hown e he hremoved] at hdir
        cases hdir
      · rw [hown e he hremoved]
        exact ⟨j, status, d, rfl, hd, hstage, htransfer⟩
  | @completeUpload k choice u status text up hu hwork hfree =>
      have hown : ∀ e ∈ s.db.entries, e ∉ (s.completeUpload k u up).db.entries →
          e = ⟨up.transfer, u.fileId, .u⟩ := by
        intro e he hremoved
        exact h.upload u (List.mem_of_getElem? hu) up.transfer (by rw [hwork]; rfl) e he
          (Database.file_eq_of_deleted he hremoved)
      refine ⟨fun e he hremoved hdir => ?_, fun e he hremoved hdir => ?_, by simp, by simp⟩
      · rw [hown e he hremoved]
        exact ⟨k, choice, status, text, u, up, rfl, hu, hwork, rfl, rfl⟩
      · rw [hown e he hremoved] at hdir
        cases hdir
  | wait hr | leave hr | unsubscribe hr | unsubscribeLast hr | unsubscribeNone hr
  | acknowledge hr =>
      refine ownRows_of_subset (fun _ he => he) (fun i a hi hr' => ?_) (by simp)
      cases hi
      cases hr.symm.trans hr'
  | create | addUpload =>
      exact ownRows_of_subset (fun _ he => Database.mem_entries_insertTransfer.2 (.inl he))
        (by simp) (by simp)
  | initiate =>
      exact ownRows_of_subset (fun _ he => (Database.entries_setUploadId _ _).symm ▸ he) (by simp)
        (by simp)
  | addFile =>
      exact ownRows_of_subset (fun _ he => (Database.entries_addFile _).symm ▸ he) (by simp)
        (by simp)
  | addUser =>
      exact ownRows_of_subset (fun _ he => (Database.entries_addUser _).symm ▸ he) (by simp)
        (by simp)
  | _ => exact ownRows_of_subset (fun _ he => he) (by simp) (by simp)

/-- **A run in which all requests find their file free**: every step of it removes at most its own
row, and every request that signals the queue processor has left a row. -/
theorem ownRows_of_free (db : Database) (actions : List Action)
    (hfree : Runs.Along step (fun s action _ => Free s action) (State.initial db) actions) :
    Runs.Along step OwnRows (State.initial db) actions := by
  have hstep : ∀ s action s', Exclusive s ∧ Queued s ∧ Rows s → Free s action →
      step s action = some s' → (Exclusive s' ∧ Queued s' ∧ Rows s') ∧ OwnRows s action s' := by
    intro s action s' ⟨hx, hq, hr⟩ hfree hs
    have ht := transition_of_step hs
    exact ⟨⟨hx.transition ht, hq.transition ht, hr.transition hx hq ht hfree⟩, hr.ownRows hq ht⟩
  exact Runs.along_of_inv hstep ⟨exclusive_initial db, queued_initial db, rows_initial db⟩ hfree

/-- A file is downloaded while another one is uploaded; the upload comes to its end. -/
def uploadAndDownload : List Action :=
  [.addFile 8, .receive 7 1000 none, .receiver 0, .receiver 0, .put 8 1000 5, .putter 0,
    .processor 0 0, .processor 0 0, .processor 1 0, .processor 2 0, .processor 0 0,
    .uploader 0 0 0 [], .uploader 0 0 0 [], .uploader 0 0 0 [], .uploader 0 0 0 [],
    .uploader 0 0 0 [], .uploader 0 0 0 []]

/-- The upload and the download do not get into each other's way, and the row of the upload is gone
in the end. -/
theorem ownRows_uploadAndDownload :
    (Runs.run step (State.initial .oneFile) uploadAndDownload).map (·.db.entries)
      = some [⟨1, 7, .d⟩] ∧
    Runs.Along step OwnRows (State.initial .oneFile) uploadAndDownload :=
  ⟨by decide, ownRows_of_free .oneFile uploadAndDownload (by decide)⟩

/-- A file is to be uploaded while it is downloaded. -/
def overlapping : List Action :=
  [.receive 7 1000 none, .receiver 0, .receiver 0, .put 7 1000 5] ++ [.putter 0]

/-- **The upload of a file is lost while the file is downloaded**: `PutUpload` signals the queue
processor, but there is only the row of the download. -/
theorem upload_lost_to_download :
    (Runs.run step (State.initial .oneFile) overlapping).map (·.db.entries) = some [⟨1, 7, .d⟩] ∧
    ¬ Runs.Along step OwnRows (State.initial .oneFile) overlapping := by
  refine ⟨by decide, fun halong => ?_⟩
  have hsome : (Runs.run step (State.initial .oneFile)
      [.receive 7 1000 none, .receiver 0, .receiver 0, .put 7 1000 5]).isSome := by decide
  obtain ⟨s, hs⟩ := Option.isSome_iff_exists.1 hsome
  have hend : (Runs.run step (State.initial .oneFile)
      [.receive 7 1000 none, .receiver 0, .receiver 0, .put 7 1000 5]).map
      (fun s => (s.putters[0]?, (step s (.putter 0)).map (·.db.entries)))
      = some (some (.added 7 5), some [⟨1, 7, .d⟩]) := by decide
  rw [hs, Option.map_some, Option.some.injEq, Prod.mk.injEq] at hend
  obtain ⟨hputter, hlast⟩ := hend
  obtain ⟨s', hs', hentries⟩ := Option.map_eq_some_iff.1 hlast
  obtain ⟨e, he, -, hdir⟩ := (halong.last hs' hs).put 0 7 5 rfl hputter
  rw [hentries, List.mem_singleton] at he
  rw [he] at hdir
  cases hdir

end AwsS3fs
