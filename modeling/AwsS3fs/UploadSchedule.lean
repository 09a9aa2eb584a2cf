/-
**The schedule of the uploads.**

`ProcessTransferQueues` hands out the files that have a part which is neither uploaded nor being
uploaded, and `BeginUpload` asks for such a part.  The flags that say so, `inprogress` and
`completed`, are never set: a part that was handed out can be handed out again, and the first part
that has been uploaded takes the row of the whole file with it.  What is left of the intended
schedule is this: a file that has one part to upload, and that is handed out only while no upload of
it is running, is uploaded once.

Main definitions:

* `AwsS3fs.ExactlyOnce` — **what every step should keep**: no part is being uploaded twice at a time
  or has been uploaded twice, and a row is deleted when all its parts have been uploaded;
* `AwsS3fs.Alone` — a step that hands out at most a file with one part to upload and no upload
  running;
* `AwsS3fs.Scheduled` — the invariant of such steps: there is one upload for a file, and the parts
  that are left are its part.

Main results:

* `AwsS3fs.Scheduled.transition` — every transition that is alone keeps the invariant;
* `AwsS3fs.exactlyOnce_of_alone` — **a run in which every file is alone**;
* `AwsS3fs.part_uploaded_twice` — a run in which one part is being uploaded twice at a time.
-/

import AwsS3fs.TransferInvariant

set_option relaxedAutoImplicit false
set_option autoImplicit false

namespace AwsS3fs

open Threads

/-! ### The parts that are left -/

namespace Database

variable {db : Database}

/-- The numbers of the parts of a file that are not marked as completed. -/
def openParts (db : Database) (file : ℤ) : List ℤ :=
  (db.transferparts.filter fun p => p.completed = false ∧
    ∃ t ∈ db.transfers, t.id = p.transfer ∧ t.file = file).map (·.part)

theorem mem_openParts {file part : ℤ} :
    part ∈ db.openParts file ↔ ∃ p ∈ db.transferparts, p.completed = false ∧
      (∃ t ∈ db.transfers, t.id = p.transfer ∧ t.file = file) ∧ p.part = part := by
  simp only [openParts, List.mem_map, List.mem_filter, decide_eq_true_eq, and_assoc]

/-- The part that is fetched for upload is one of them. -/
theorem openParts_of_getUpload {file : ℤ} {choice : ℕ} {up : Upload}
    (h : db.getUpload file choice = some up) : up.part ∈ db.openParts file := by
  obtain ⟨t, p, hmem, hfile, -, hpart⟩ := getUpload_eq_some h
  obtain ⟨ht, hp, hid, -, -, hcompleted⟩ := mem_pendingUploads.1 hmem
  exact mem_openParts.2 ⟨p, hp, hcompleted, ⟨t, ht, hid.symm, hfile⟩, hpart⟩

@[simp]
theorem openParts_setUploadId (file : ℤ) (uploadId : CLib.Bytes) (file' : ℤ) :
    (db.setUploadId file uploadId).openParts file' = db.openParts file' := by
  have hkey : ∀ t : TransferRow, ∀ c : Prop, [Decidable c] →
      (if c then { t with uploadid := some uploadId } else t).id = t.id ∧
      (if c then { t with uploadid := some uploadId } else t).file = t.file := by
    intro t c _
    split <;> exact ⟨rfl, rfl⟩
  simp only [openParts, setUploadId, updateTransfers, List.mem_map, exists_exists_and_eq_and, hkey]

@[simp]
theorem openParts_setPartETag (file part : ℤ) (etag : CLib.Bytes) (file' : ℤ) :
    (db.setPartETag file part etag).openParts file' = db.openParts file' := by
  simp only [openParts, setPartETag, updateParts, List.filter_map, List.map_map]
  have hkey : ∀ p : PartRow, ∀ c : Prop, [Decidable c] →
      (if c then { p with etag := some etag } else p).part = p.part ∧
      (if c then { p with etag := some etag } else p).completed = p.completed ∧
      (if c then { p with etag := some etag } else p).transfer = p.transfer := by
    intro p c _
    split <;> exact ⟨rfl, rfl, rfl⟩
  simp only [Function.comp_def, hkey]

/-- A deletion leaves none of the file, and those of the other files. -/
theorem mem_openParts_deleteTransfer {file file' part : ℤ} :
    part ∈ (db.deleteTransfer file).openParts file' ↔
      part ∈ db.openParts file' ∧ file' ≠ file := by
  simp only [mem_openParts, deleteTransfer, List.mem_filter, decide_eq_true_eq]
  constructor
  · rintro ⟨p, ⟨hp, -⟩, hcompleted, ⟨t, ⟨ht, hne⟩, hid, rfl⟩, hpart⟩
    exact ⟨⟨p, hp, hcompleted, ⟨t, ht, hid, rfl⟩, hpart⟩, hne⟩
  · rintro ⟨⟨p, hp, hcompleted, ⟨t, ht, hid, rfl⟩, hpart⟩, hne⟩
    refine ⟨p, ⟨hp, fun t' ht' hid' => ?_⟩, hcompleted, ⟨t, ⟨ht, hne⟩, hid, rfl⟩, hpart⟩
    rw [List.inj_on_of_nodup_map db.id_unique ht' ht (hid'.trans hid.symm)]
    exact hne

end Database

variable {s s' : State} {action : Action}

/-! ### What every step should keep -/

/-- A `BeginUpload` is uploading a part of a file. -/
def Uploader.uploading (file part : ℤ) (u : Uploader) : Bool :=
  match u.work with
  | .part up .fetched | .part up .initiated | .part up .created | .part up .tagged =>
      u.fileId = file ∧ up.part = part
  | _ => false

/-- A `BeginUpload` has uploaded a part of a file. -/
def Uploader.hasUploaded (file part : ℤ) (u : Uploader) : Bool :=
  match u.work with
  | .part up .uploaded | .part up .exited => u.fileId = file ∧ up.part = part
  | _ => false

/-- What every step of the uploads should keep. -/
structure ExactlyOnce (s : State) (action : Action) (s' : State) : Prop where
  /-- No part is being uploaded twice at a time. -/
  concurrent : ∀ file part, s'.uploaders.countP (Uploader.uploading file part) ≤ 1
  /-- No part has been uploaded twice. -/
  twice : ∀ file part, s'.uploaders.countP (Uploader.hasUploaded file part) ≤ 1
  /-- A row is deleted when all its parts have been uploaded. -/
  deleted : ∀ t ∈ s.db.transfers, t.entry ∉ s'.db.entries →
    ∀ p ∈ s.db.transferparts, p.transfer = t.id →
      p.completed = true ∨ ∃ u ∈ s.uploaders, u.hasUploaded t.file p.part = true

/-- A `BeginUpload` has not exited. -/
def UploadWork.running : UploadWork → Bool
  | .nothing | .part _ .exited | .part _ .failed => false
  | _ => true

/-- A step that hands out at most a file with one part to upload and no upload running. -/
def Alone (s : State) : Action → Prop
  | .processor slot choice => s.processor = .handing → s.isReady slot = true →
      s.db.findPendingUpload choice ≠ 0 →
      (s.db.openParts (s.db.findPendingUpload choice)).length = 1 ∧
      ∀ u ∈ s.uploaders, u.fileId = s.db.findPendingUpload choice → u.work.running = false
  | _ => True

instance : (action : Action) → Decidable (Alone s action)
  | .processor _ _ => inferInstanceAs (Decidable (_ → _ → _ → _ ∧ _))
  | .receive _ _ _ | .put _ _ _ | .receiver _ | .putter _ | .downloader _ _ | .uploader _ _ _ _
  | .expire _ | .wakeReceiver _ | .wakeProcessor | .addFile _ | .addUser _ =>
      inferInstanceAs (Decidable True)

/-- The steps of the queue processor and of the uploads, with every `PUT` succeeding. -/
def Action.uploads : Action → Bool
  | .processor _ _ => true
  | .uploader _ _ status _ => status = 0
  | _ => false

/-! ### The invariant -/

/-- The uploads that were started, when every file was handed out alone. -/
structure Scheduled (s : State) : Prop where
  /-- There is nothing to download. -/
  queue : s.downloadQueue = []
  /-- There is one upload for a file, but for those that have found nothing. -/
  unique : ∀ (i j : ℕ) (u v : Uploader), s.uploaders[i]? = some u → s.uploaders[j]? = some v →
    u.work ≠ .nothing → v.work ≠ .nothing → u.fileId = v.fileId → i = j
  /-- An upload finds one part. -/
  starting : ∀ u ∈ s.uploaders, u.work = .starting →
    ∀ m ∈ s.db.openParts u.fileId, ∀ n ∈ s.db.openParts u.fileId, m = n
  /-- What is left of a file is the part of its upload. -/
  part : ∀ u ∈ s.uploaders, ∀ up stage, u.work = .part up stage →
    ∀ n ∈ s.db.openParts u.fileId, n = up.part
  /-- Nothing is left after the end of an upload. -/
  exited : ∀ u ∈ s.uploaders, ∀ up, u.work = .part up .exited → ∀ n, n ∉ s.db.openParts u.fileId
  failed : ∀ u ∈ s.uploaders, ∀ up, u.work ≠ .part up .failed

namespace Scheduled

/-- A `BeginUpload` goes on, and nothing changes in the parts that are left. -/
theorem frame_uploader (h : Scheduled s) {k : ℕ} {u : Uploader} {work : UploadWork}
    (hu : s.uploaders[k]? = some u)
    (hset : s'.uploaders = s.uploaders.set k { u with work := work })
    (hqueue : s'.downloadQueue = s.downloadQueue)
    (hopen : ∀ file, s'.db.openParts file = s.db.openParts file)
    (hnothing : u.work = .nothing → work = .nothing) (hstarting : work ≠ .starting)
    (hpart : ∀ up stage, work = .part up stage → ∀ n ∈ s.db.openParts u.fileId, n = up.part)
    (hexited : ∀ up, work ≠ .part up .exited) (hfailed : ∀ up, work ≠ .part up .failed) :
    Scheduled s' where
  queue := hqueue.trans h.queue
  unique := by
    rw [hset]
    have hold : ∀ (i : ℕ) (v : Uploader), (s.uploaders.set k { u with work := work })[i]? = some v →
        v.work ≠ .nothing → ∃ v', s.uploaders[i]? = some v' ∧ v'.work ≠ .nothing ∧
          v'.fileId = v.fileId := by
      intro i v hi hv
      rcases of_getElem?_set hi with ⟨rfl, rfl⟩ | ⟨-, hi⟩
      · exact ⟨u, hu, fun hn => hv (hnothing hn), rfl⟩
      · exact ⟨v, hi, hv, rfl⟩
    intro i j v w hi hj hv hw hfile
    obtain ⟨v', hi', hv', hvfile⟩ := hold i v hi hv
    obtain ⟨w', hj', hw', hwfile⟩ := hold j w hj hw
    exact h.unique i j v' w' hi' hj' hv' hw' (hvfile.trans (hfile.trans hwfile.symm))
  starting := by
    rw [hset]
    intro v hv hwork
    rw [hopen]
    rcases List.mem_or_eq_of_mem_set hv with hv | rfl
    · exact h.starting v hv hwork
    · exact absurd hwork hstarting
  part := by
    rw [hset]
    intro v hv up stage hwork
    rw [hopen]
    rcases List.mem_or_eq_of_mem_set hv with hv | rfl
    · exact h.part v hv up stage hwork
    · exact hpart up stage hwork
  exited := by
    rw [hset]
    intro v hv up hwork
    rw [hopen]
    rcases List.mem_or_eq_of_mem_set hv with hv | rfl
    · exact h.exited v hv up hwork
    · exact absurd hwork (hexited up)
  failed := by
    rw [hset]
    intro v hv up hwork
    rcases List.mem_or_eq_of_mem_set hv with hv | rfl
    · exact h.failed v hv up hwork
    · exact hfailed up hwork

/-- A file is handed out alone. -/
theorem startUpload (h : Scheduled s) {slot : Slot} {fileId : ℤ}
    (hone : (s.db.openParts fileId).length = 1)
    (halone : ∀ u ∈ s.uploaders, u.fileId = fileId → u.work.running = false) :
    Scheduled (s.startUpload slot fileId) := by
  have hnothing : ∀ u ∈ s.uploaders, u.fileId = fileId → u.work = .nothing := by
    intro u hu hfile
    have hnot := halone u hu hfile
    cases hwork : u.work with
    | nothing => rfl
    | starting =>
        rw [hwork] at hnot
        cases hnot
    | part up stage =>
        -- an upload that has come to its end has left nothing to hand out
        cases stage with
        | exited =>
            rw [← hfile, List.eq_nil_iff_forall_not_mem.2 (h.exited u hu up hwork)] at hone
            cases hone
        | failed => exact absurd hwork (h.failed u hu up)
        | _ =>
            rw [hwork] at hnot
            cases hnot
  constructor
  case queue => exact h.queue
  case unique =>
      intro i j u v hi hj hu hv hfile
      rcases of_getElem?_append hi with hi | ⟨rfl, rfl⟩ <;>
        rcases of_getElem?_append hj with hj | ⟨rfl, rfl⟩
      · exact h.unique i j u v hi hj hu hv hfile
      · exact absurd (hnothing u (List.mem_of_getElem? hi) hfile) hu
      · exact absurd (hnothing v (List.mem_of_getElem? hj) hfile.symm) hv
      · rfl
  case starting =>
      refine List.forall_mem_append.2 ⟨h.starting, List.forall_mem_singleton.2 fun _ => ?_⟩
      obtain ⟨x, hx⟩ := List.length_eq_one_iff.1 hone
      change ∀ m ∈ s.db.openParts fileId, ∀ n ∈ s.db.openParts fileId, m = n
      simp [hx]
  case part => exact List.forall_mem_append.2 ⟨h.part, by simp⟩
  case exited => exact List.forall_mem_append.2 ⟨h.exited, by simp⟩
  case failed => exact List.forall_mem_append.2 ⟨h.failed, by simp⟩

/-- An upload comes to its end. -/
theorem completeUpload (h : Scheduled s) {k : ℕ} {u : Uploader} {up : Database.Upload}
    (hu : s.uploaders[k]? = some u) (hwork : u.work = .part up .uploaded) :
    Scheduled (s.completeUpload k u up) := by
  have hopen : ∀ file n,
      n ∈ (s.completeUpload k u up).db.openParts file → n ∈ s.db.openParts file :=
    fun file n hn => (Database.mem_openParts_deleteTransfer.1 hn).1
  have hself : ∀ n, n ∉ (s.completeUpload k u up).db.openParts u.fileId :=
    fun n hn => (Database.mem_openParts_deleteTransfer.1 hn).2 rfl
  constructor
  case queue => exact h.queue
  case unique =>
      intro i j v w hi hj hv hw hfile
      have hmore : u.work ≠ .nothing := by simp [hwork]
      rcases of_getElem?_set hi with ⟨rfl, rfl⟩ | ⟨-, hi'⟩
      · rcases of_getElem?_set hj with ⟨rfl, rfl⟩ | ⟨-, hj'⟩
        · rfl
        · exact h.unique i j u w hu hj' hmore hw hfile
      · rcases of_getElem?_set hj with ⟨rfl, rfl⟩ | ⟨-, hj'⟩
        · exact h.unique i j v u hi' hu hv hmore hfile
        · exact h.unique i j v w hi' hj' hv hw hfile
  case starting =>
      intro v hv hwork' m hm n hn
      rcases List.mem_or_eq_of_mem_set hv with hv | rfl
      · exact h.starting v hv hwork' m (hopen _ m hm) n (hopen _ n hn)
      · cases hwork'
  case part =>
      intro v hv up' stage hwork' n hn
      rcases List.mem_or_eq_of_mem_set hv with hv | rfl
      · exact h.part v hv up' stage hwork' n (hopen _ n hn)
      · exact absurd hn (hself n)
  case exited =>
      intro v hv up' hwork' n hn
      rcases List.mem_or_eq_of_mem_set hv with hv | rfl
      · exact h.exited v hv up' hwork' n (hopen _ n hn)
      · exact hself n hn
  case failed =>
      intro v hv up' hwork'
      rcases List.mem_or_eq_of_mem_set hv with hv | rfl
      · exact h.failed v hv up' hwork'
      · cases hwork'

/-- **Every transition of the uploads that is alone keeps the schedule.** -/
theorem transition (h : Scheduled s) (ht : Transition s action s') (hkind : action.uploads = true)
    (halone : Alone s action) : Scheduled s' := by
  cases ht with
  | startUpload hp hready hfile =>
      obtain ⟨hone, hrunning⟩ := halone hp hready hfile
      exact h.startUpload hone hrunning
  | startDownload hp hready hfile hget =>
      have := List.mem_of_find?_eq_some hget
      rw [h.queue] at this
      cases this
  | @fetch k choice u status text up hu hwork hget =>
      -- there was one part to find, so what is left is the part that was found
      refine h.frame_uploader hu rfl rfl (fun _ => rfl) (by simp [hwork]) (by simp) ?_ (by simp)
        (by simp)
      intro up' stage heq n hn
      cases heq
      exact h.starting u (List.mem_of_getElem? hu) hwork n hn _
        (Database.openParts_of_getUpload hget)
  | fetchNothing hu hwork =>
      exact h.frame_uploader hu rfl rfl (fun _ => rfl) (fun _ => rfl) (by simp) (by simp) (by simp)
        (by simp)
  | @initiate k choice u status text up hu hwork =>
      refine h.frame_uploader hu rfl rfl (Database.openParts_setUploadId _ _) (by simp [hwork])
        (by simp) ?_ (by simp) (by simp)
      intro up' stage heq
      cases heq
      exact h.part u (List.mem_of_getElem? hu) up _ hwork
  | @tag k choice u status text up hu hwork =>
      refine h.frame_uploader hu rfl rfl (Database.openParts_setPartETag _ _ _) (by simp [hwork])
        (by simp) ?_ (by simp) (by simp)
      intro up' stage heq
      cases heq
      exact h.part u (List.mem_of_getElem? hu) up _ hwork
  | @skipInitiate k choice u status text up hu hwork
  | @createPart k choice u status text up hu hwork
  | @upload k choice u text up hu hwork =>
      refine h.frame_uploader hu rfl rfl (fun _ => rfl) (by simp [hwork]) (by simp) ?_ (by simp)
        (by simp)
      intro up' stage heq
      cases heq
      exact h.part u (List.mem_of_getElem? hu) up _ hwork
  | failUpload hu hwork hstatus => exact absurd (of_decide_eq_true hkind) hstatus
  | completeUpload hu hwork => exact h.completeUpload hu hwork
  | lock | sleep | relock => exact { h with }
  | _ => cases hkind

end Scheduled

theorem scheduled_initial (db : Database) : Scheduled (State.initial db) where
  queue := rfl
  unique := by simp [State.initial]
  starting := by simp [State.initial]
  part := by simp [State.initial]
  exited := by simp [State.initial]
  failed := by simp [State.initial]

/-! ### Every step of a run -/

theorem Uploader.of_uploading {file part : ℤ} {u : Uploader} (h : u.uploading file part = true) :
    u.work ≠ .nothing ∧ u.fileId = file := by
  unfold Uploader.uploading at h
  split at h
  case h_5 => cases h
  all_goals
    rename_i hwork
    exact ⟨by simp [hwork], (of_decide_eq_true h).1⟩

theorem Uploader.of_hasUploaded {file part : ℤ} {u : Uploader}
    (h : u.hasUploaded file part = true) : u.work ≠ .nothing ∧ u.fileId = file := by
  unfold Uploader.hasUploaded at h
  split at h
  case h_3 => cases h
  all_goals
    rename_i hwork
    exact ⟨by simp [hwork], (of_decide_eq_true h).1⟩

/-- At most one upload of a file passes a test that an upload without a part does not pass. -/
theorem Scheduled.countP_le_one (h : Scheduled s) {file : ℤ} {p : Uploader → Bool}
    (hp : ∀ u, p u = true → u.work ≠ .nothing ∧ u.fileId = file) : s.uploaders.countP p ≤ 1 := by
  refine Threads.countP_le_one fun i j u v hi hj hu hv => ?_
  obtain ⟨hu, rfl⟩ := hp u hu
  obtain ⟨hv, hfile⟩ := hp v hv
  exact h.unique i j u v hi hj hu hv hfile.symm

/-- The end of an upload: what was left of the file is the part that it has uploaded. -/
theorem Scheduled.deleted (h : Scheduled s) {k : ℕ} {u : Uploader} {up : Database.Upload}
    (hu : s.uploaders[k]? = some u) (hwork : u.work = .part up .uploaded) {t : TransferRow}
    (ht : t ∈ s.db.transfers) (hremoved : t.entry ∉ (s.completeUpload k u up).db.entries)
    {p : PartRow} (hp : p ∈ s.db.transferparts) (hid : p.transfer = t.id) :
    p.completed = true ∨ ∃ v ∈ s.uploaders, v.hasUploaded t.file p.part = true := by
  have hfile : t.file = u.fileId :=
    Database.file_eq_of_deleted (Database.mem_entries.2 ⟨t, ht, rfl⟩) hremoved
  cases hcompleted : p.completed with
  | true => exact .inl rfl
  | false =>
      have hopen : p.part ∈ s.db.openParts u.fileId :=
        Database.mem_openParts.2 ⟨p, hp, hcompleted, ⟨t, ht, hid.symm, hfile⟩, rfl⟩
      have hpart := h.part u (List.mem_of_getElem? hu) up .uploaded hwork p.part hopen
      refine .inr ⟨u, List.mem_of_getElem? hu, ?_⟩
      simp [Uploader.hasUploaded, hwork, hfile, hpart]

/-- What a step keeps, if the schedule holds before and after it. -/
theorem Scheduled.exactlyOnce (h : Scheduled s) (h' : Scheduled s') (ht : Transition s action s')
    (hkind : action.uploads = true) : ExactlyOnce s action s' where
  concurrent := fun _ _ => h'.countP_le_one fun _ => Uploader.of_uploading
  twice := fun _ _ => h'.countP_le_one fun _ => Uploader.of_hasUploaded
  deleted := by
    intro t htransfer hremoved p hp hid
    have hentry : t.entry ∈ s.db.entries := Database.mem_entries.2 ⟨t, htransfer, rfl⟩
    cases ht with
    | completeUpload hu hwork => exact h.deleted hu hwork htransfer hremoved hp hid
    | initiate => exact absurd ((Database.entries_setUploadId _ _).symm ▸ hentry) hremoved
    | lock | startUpload | startDownload | sleep | relock | fetch | fetchNothing | skipInitiate
    | createPart | tag | upload | failUpload => exact absurd hentry hremoved
    | _ => cases hkind

/-- **A run in which every file is alone**: when the queue processor hands out only files with one
part to upload of which no upload is running, and every `PUT` succeeds, every part is uploaded once,
and its row is deleted afterwards. -/
theorem exactlyOnce_of_alone (db : Database) (actions : List Action)
    (hkind : ∀ action ∈ actions, action.uploads = true)
    (halone : Runs.Along step (fun s action _ => Alone s action) (State.initial db) actions) :
    Runs.Along step ExactlyOnce (State.initial db) actions := by
  have hboth : Runs.Along step (fun s action _ => action.uploads = true ∧ Alone s action)
      (State.initial db) actions :=
    (Runs.along_of_forall fun action ha _ _ => hkind action ha).and halone
  have hstep : ∀ s action s', Scheduled s → action.uploads = true ∧ Alone s action →
      step s action = some s' → Scheduled s' ∧ ExactlyOnce s action s' := by
    intro s action s' h ⟨hkind, halone⟩ hs
    have ht := transition_of_step hs
    have h' := h.transition ht hkind halone
    exact ⟨h', h.exactlyOnce h' ht hkind⟩
  exact Runs.along_of_inv hstep (scheduled_initial db) hboth

/-- A database with an upload of one part for each of three files. -/
def Database.threeUploads : Database :=
  ((((((((Database.oneFile.addFile 8).addFile 9).addUpload 7 1000 5).createMultiparts 7 1).addUpload
    8 1000 5).createMultiparts 8 1).addUpload 9 1000 5).createMultiparts 9 1)

/-- The three files are handed out to the three slots, and the first one is uploaded. -/
def threeFiles : List Action :=
  [.processor 0 0, .processor 0 0, .processor 1 1, .processor 2 2, .processor 0 0,
    .uploader 0 0 0 [], .uploader 0 0 0 [], .uploader 0 0 0 [], .uploader 0 0 0 [],
    .uploader 0 0 0 [], .uploader 0 0 0 []]

/-- The upload of three files that are handed out alone; the row of the first one is gone. -/
theorem exactlyOnce_threeFiles :
    (Runs.run step (State.initial .threeUploads) threeFiles).map (·.db.entries)
      = some [⟨2, 8, .u⟩, ⟨3, 9, .u⟩] ∧
    Runs.Along step ExactlyOnce (State.initial .threeUploads) threeFiles :=
  ⟨by decide, exactlyOnce_of_alone .threeUploads threeFiles (by decide) (by decide)⟩

/-- A database with an upload of one part. -/
def Database.oneUpload : Database :=
  (Database.oneFile.addUpload 7 1000 5).createMultiparts 7 1

/-- The only part of a file is handed out to two slots, and both upload it. -/
def twoSlots : List Action :=
  [.processor 0 0, .processor 0 0, .processor 1 0,
    .uploader 0 0 0 [], .uploader 0 0 0 [], .uploader 0 0 0 [], .uploader 0 0 0 [],
    .uploader 1 0 0 [], .uploader 1 0 0 [], .uploader 1 0 0 []] ++ [.uploader 1 0 0 []]

/-- **A part is being uploaded twice at a time**: the row of a part that was handed out looks as it
did before. -/
theorem part_uploaded_twice :
    (Runs.run step (State.initial .oneUpload) twoSlots).map (·.uploaders)
      = some [⟨0, 7, .part ⟨1, 1, none, 0⟩ .tagged⟩, ⟨1, 7, .part ⟨1, 1, none, 0⟩ .tagged⟩] ∧
    ¬ Runs.Along step ExactlyOnce (State.initial .oneUpload) twoSlots := by
  have hend : (Runs.run step (State.initial .oneUpload) twoSlots).map (·.uploaders)
      = some [⟨0, 7, .part ⟨1, 1, none, 0⟩ .tagged⟩, ⟨1, 7, .part ⟨1, 1, none, 0⟩ .tagged⟩] := by
    decide
  refine ⟨hend, fun halong => ?_⟩
  obtain ⟨s', hs', huploaders⟩ := Option.map_eq_some_iff.1 hend
  obtain ⟨s, hs, hlast⟩ := Runs.run_concat.1 hs'
  have := (halong.last hlast hs).concurrent 7 1
  rw [huploaders] at this
  exact absurd this (by decide)

end AwsS3fs
