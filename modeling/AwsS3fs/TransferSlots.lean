/-
**The transfer slots.**

There are three transfer slots.  `ProcessTransferQueues` takes one when it starts a thread, and the
thread gives it back when the transfer is done: `BeginDownload` when it takes the subscription off
the queue, `BeginUpload` when it deletes the upload.  A thread that exits on another way takes its
slot with it.  These ways are a transfer with a status other than `0`, and an upload that finds
nothing to upload; a download that exits so leaves its subscription on the queue, too.

In every run a slot that is not ready belongs to exactly one thread, which has not given it back.
So the slots are conserved in a run exactly if no thread of it has exited without giving back its
slot.

Main definitions:

* `AwsS3fs.Downloader.holds`, `AwsS3fs.Uploader.holds` — a thread has a slot and is still running;
* `AwsS3fs.Conserved` — **the slots that are not ready are those that running threads have**, and
  the active downloads on the queue are running;
* `AwsS3fs.Succeeds` — a step in which no transfer fails and no upload finds nothing;
* `AwsS3fs.Occupied` — the invariant: a slot that is not ready has one owner.

Main results:

* `AwsS3fs.Occupied.transition` — every transition keeps the invariant;
* `AwsS3fs.conserved_iff_noneLost` — the slots are conserved if no thread has lost one;
* `AwsS3fs.conserved_iff_succeeds` — **exactly when the slots are conserved in a run**;
* `AwsS3fs.failed_download_keeps_slot` — a run that loses a slot.
-/

import AwsS3fs.TransferInvariant

set_option relaxedAutoImplicit false
set_option autoImplicit false

namespace AwsS3fs

open Threads

variable {s s' : State} {action : Action}

/-! ### The slots -/

/-- A `BeginUpload` has exited without giving back its slot. -/
def UploadWork.lost : UploadWork → Bool
  | .nothing | .part _ .failed => true
  | _ => false

/-- A `BeginUpload` has given back its slot. -/
def UploadWork.returned : UploadWork → Bool
  | .part _ .exited => true
  | _ => false

/-- A `BeginDownload` has a slot: it has not given it back, whether it still can or not. -/
def Downloader.occupies (slot : Slot) (d : Downloader) : Bool := d.slot = slot && d.stage.onQueue

/-- A `BeginUpload` has a slot: it has not given it back, whether it still can or not. -/
def Uploader.occupies (slot : Slot) (u : Uploader) : Bool := u.slot = slot && !u.work.returned

/-- A `BeginDownload` has a slot and is still running. -/
def Downloader.holds (slot : Slot) (d : Downloader) : Bool :=
  d.occupies slot && d.stage ≠ .failed

/-- A `BeginUpload` has a slot and is still running. -/
def Uploader.holds (slot : Slot) (u : Uploader) : Bool := u.occupies slot && !u.work.lost

/-- **The slots that are not ready are those that running threads have**, and the active downloads
on the queue are running. -/
def Conserved (s : State) : Prop :=
  (∀ slot, s.isReady slot = false ↔
    (∃ d ∈ s.downloaders, d.holds slot = true) ∨ ∃ u ∈ s.uploaders, u.holds slot = true) ∧
  ∀ a ∈ s.downloadQueue, (s.heap a).downloadActive = true →
    ∃ d ∈ s.downloaders, d.address = a ∧ d.stage ≠ .exited ∧ d.stage ≠ .failed

/-- A step in which no transfer fails and no upload finds nothing to upload. -/
def Succeeds (s : State) : Action → Prop
  | .downloader j status => ∀ d, s.downloaders[j]? = some d → d.stage = .transferring → status = 0
  | .uploader k choice status _ => ∀ u, s.uploaders[k]? = some u →
      (u.work = .starting → s.db.getUpload u.fileId choice ≠ none) ∧
      ∀ up, u.work = .part up .tagged → status = 0
  | _ => True

/-! ### Every slot has one owner -/

/-- The number of threads that have a slot. -/
def State.owners (s : State) (slot : Slot) : ℕ :=
  s.downloaders.countP (Downloader.occupies slot) + s.uploaders.countP (Uploader.occupies slot)

/-- A slot that is ready has no owner, a slot that is not has one. -/
def Occupied (s : State) : Prop := ∀ slot, s.owners slot = if s.isReady slot then 0 else 1

namespace Occupied

/-- A transition that starts no thread on a slot and gives none back. -/
theorem frame (h : Occupied s) (hready : s'.isReady = s.isReady)
    (howners : ∀ slot, s'.owners slot = s.owners slot) : Occupied s' := by
  intro slot
  rw [howners, hready]
  exact h slot

/-- A slot that is ready is taken. -/
theorem take (h : Occupied s) {slot : Slot} (hslot : s.isReady slot = true)
    (hready : s'.isReady = Function.update s.isReady slot false)
    (howners : ∀ slot', s'.owners slot' = s.owners slot' + if slot' = slot then 1 else 0) :
    Occupied s' := by
  intro slot'
  have := h slot'
  rw [howners, hready]
  by_cases heq : slot' = slot
  · rw [heq, hslot, if_pos rfl] at this
    rw [heq, this, if_pos rfl, Function.update_self]
    rfl
  · rw [if_neg heq, Function.update_of_ne heq]
    exact this

/-- A slot is given back by a thread that has it. -/
theorem release (h : Occupied s) {slot : Slot}
    (hready : s'.isReady = Function.update s.isReady slot true)
    (howners : ∀ slot', s'.owners slot' + (if slot' = slot then 1 else 0) = s.owners slot') :
    Occupied s' := by
  intro slot'
  have hold := h slot'
  have hnew := howners slot'
  rw [hready]
  by_cases heq : slot' = slot
  · rw [heq, if_pos rfl] at hnew
    rw [heq] at hold ⊢
    rw [Function.update_self, if_pos rfl]
    split at hold <;> omega
  · rw [if_neg heq, Nat.add_zero] at hnew
    rw [Function.update_of_ne heq, hnew]
    exact hold

theorem frame_downloader (h : Occupied s) {j : ℕ} {d : Downloader} {stage : DownloadStage}
    (hd : s.downloaders[j]? = some d) (hstage : stage.onQueue = d.stage.onQueue)
    (hset : s'.downloaders = s.downloaders.set j { d with stage := stage })
    (hready : s'.isReady = s.isReady) (huploaders : s'.uploaders = s.uploaders) : Occupied s' := by
  refine h.frame hready fun slot => ?_
  rw [State.owners, hset, huploaders,
    countP_set_of_eq hd (by simp only [Downloader.occupies, hstage])]
  rfl

theorem frame_uploader (h : Occupied s) {k : ℕ} {u : Uploader} {work : UploadWork}
    (hu : s.uploaders[k]? = some u) (hwork : work.returned = u.work.returned)
    (hset : s'.uploaders = s.uploaders.set k { u with work := work })
    (hready : s'.isReady = s.isReady) (hdownloaders : s'.downloaders = s.downloaders) :
    Occupied s' := by
  refine h.frame hready fun slot => ?_
  rw [State.owners, hset, hdownloaders,
    countP_set_of_eq hu (by simp only [Uploader.occupies, hwork])]
  rfl

/-- **Every transition keeps one owner for every slot that is not ready.** -/
theorem transition (h : Occupied s) (ht : Transition s action s') : Occupied s' := by
  cases ht with
  | acknowledge =>
      refine h.frame rfl fun slot => congrArg (· + _) (countP_map_of_eq fun d => ?_)
      split <;> simp_all [Downloader.occupies, DownloadStage.onQueue]
  | @startUpload slot choice hp hready hfile =>
      refine h.take hready rfl fun slot' => ?_
      have hnew : ∀ fileId, Uploader.occupies slot' ⟨slot, fileId, .starting⟩ = (slot' = slot) := by
        simp [Uploader.occupies, UploadWork.returned, eq_comm]
      simp only [State.owners, State.startUpload, List.countP_append, List.countP_singleton, hnew,
        Nat.add_assoc]
  | @startDownload slot choice a hp hready hfile hget =>
      refine h.take hready rfl fun slot' => ?_
      have hnew : Downloader.occupies slot' ⟨slot, a, .starting⟩ = (slot' = slot) := by
        simp [Downloader.occupies, DownloadStage.onQueue, eq_comm]
      simp only [State.owners, State.startDownload, State.modifySubscription, List.countP_append,
        List.countP_singleton, hnew]
      omega
  | prepare hd hstage | transferred hd hstage | failDownload hd hstage | grant hd hstage
  | lockAcknowledge hd hstage | broadcast hd hstage | acknowledged hd hstage | free hd hstage
  | expire hd hstage =>
      exact h.frame_downloader hd (by rw [hstage]; rfl) rfl rfl rfl
  | unlockAcknowledge hd hstage =>
      exact h.frame_downloader hd (by rw [hstage]; split <;> rfl) rfl rfl rfl
  | @finish j d status hd hstage hfree =>
      refine h.release rfl fun slot => ?_
      simp only [State.owners, State.finish, State.setDownloader]
      split
      · rename_i hslot
        have := countP_set_succ (p := Downloader.occupies slot)
          (y := { d with stage := .finishing }) hd
          (by simp [Downloader.occupies, hstage, hslot, DownloadStage.onQueue])
          (by simp [Downloader.occupies, DownloadStage.onQueue])
        omega
      · rename_i hslot
        rw [countP_set_of_eq hd (by simp [Downloader.occupies, Ne.symm hslot]), Nat.add_zero]
  | fetch hu hwork | fetchNothing hu hwork | initiate hu hwork | skipInitiate hu hwork
  | createPart hu hwork | tag hu hwork | upload hu hwork | failUpload hu hwork =>
      exact h.frame_uploader hu (by rw [hwork]; rfl) rfl rfl rfl
  | @completeUpload k choice u status text up hu hwork hfree =>
      refine h.release rfl fun slot => ?_
      simp only [State.owners, State.completeUpload, State.advance, State.signal, State.setUploader]
      split
      · rename_i hslot
        have := countP_set_succ (p := Uploader.occupies slot)
          (y := { u with work := .part up .exited }) hu
          (by simp [Uploader.occupies, hwork, hslot, UploadWork.returned])
          (by simp [Uploader.occupies, UploadWork.returned])
        omega
      · rename_i hslot
        rw [countP_set_of_eq hu (by simp [Uploader.occupies, Ne.symm hslot]), Nat.add_zero]
  | _ => exact h

end Occupied

theorem occupied_initial (db : Database) : Occupied (State.initial db) := by
  intro slot
  simp [State.owners, State.initial]

/-! ### Lost slots -/

/-- No thread has exited without giving back its slot. -/
def NoneLost (s : State) : Prop :=
  (∀ d ∈ s.downloaders, d.stage ≠ .failed) ∧ ∀ u ∈ s.uploaders, u.work.lost = false

theorem Downloader.occupies_of_failed {d : Downloader} (h : d.stage = .failed) :
    d.occupies d.slot = true := by
  simp [Downloader.occupies, h, DownloadStage.onQueue]

theorem Uploader.occupies_of_lost {u : Uploader} (h : u.work.lost = true) :
    u.occupies u.slot = true := by
  obtain ⟨slot, fileId, work⟩ := u
  cases work with
  | starting => cases h
  | nothing => simp [Uploader.occupies, UploadWork.returned]
  | part up stage => cases stage <;> simp_all [Uploader.occupies, UploadWork.lost,
      UploadWork.returned]

/-- A slot that some thread has is not ready, and no other thread has it. -/
theorem Occupied.not_ready (h : Occupied s) (slot : Slot) (hpos : 0 < s.owners slot) :
    s.isReady slot = false ∧ s.owners slot = 1 := by
  have hone := h slot
  cases hready : s.isReady slot with
  | true =>
      rw [hready, if_pos rfl] at hone
      omega
  | false =>
      rw [hready] at hone
      exact ⟨rfl, hone⟩

/-- If the slots are conserved, no download has failed: its slot has no other owner. -/
theorem Conserved.not_failed (hc : Conserved s) (ho : Occupied s) {d : Downloader}
    (hd : d ∈ s.downloaders) : d.stage ≠ .failed := by
  intro hfailed
  have hocc := d.occupies_of_failed hfailed
  have hpos := List.countP_pos_iff.2 ⟨d, hd, hocc⟩
  obtain ⟨hready, hone⟩ := ho.not_ready d.slot (by rw [State.owners]; omega)
  rw [State.owners] at hone
  -- the slot is not ready, so a running thread has it, and that would be a second owner
  rcases (hc.1 d.slot).1 hready with ⟨d', hd', hholds⟩ | ⟨u, hu, hholds⟩
  · rw [Downloader.holds, Bool.and_eq_true, decide_eq_true_eq] at hholds
    have := eq_of_countP_le_one (by omega) hd hd' hocc hholds.1
    exact hholds.2 (this ▸ hfailed)
  · rw [Uploader.holds, Bool.and_eq_true] at hholds
    have := List.countP_pos_iff.2 ⟨u, hu, hholds.1⟩
    omega

/-- If the slots are conserved, no upload has failed or has found nothing. -/
theorem Conserved.not_lost (hc : Conserved s) (ho : Occupied s) {u : Uploader}
    (hu : u ∈ s.uploaders) : u.work.lost = false := by
  by_contra hlost
  rw [Bool.not_eq_false] at hlost
  have hocc := u.occupies_of_lost hlost
  have hpos := List.countP_pos_iff.2 ⟨u, hu, hocc⟩
  obtain ⟨hready, hone⟩ := ho.not_ready u.slot (by rw [State.owners]; omega)
  rw [State.owners] at hone
  rcases (hc.1 u.slot).1 hready with ⟨d, hd, hholds⟩ | ⟨u', hu', hholds⟩
  · rw [Downloader.holds, Bool.and_eq_true] at hholds
    have := List.countP_pos_iff.2 ⟨d, hd, hholds.1⟩
    omega
  · rw [Uploader.holds, Bool.and_eq_true] at hholds
    have := eq_of_countP_le_one (by omega) hu hu' hocc hholds.1
    rw [← this, hlost] at hholds
    cases hholds.2

/-- **The slots are conserved if and only if no thread has lost one.** -/
theorem conserved_iff_noneLost (hq : Queued s) (ho : Occupied s) : Conserved s ↔ NoneLost s := by
  constructor
  · intro hc
    exact ⟨fun d hd => hc.not_failed ho hd, fun u hu => hc.not_lost ho hu⟩
  · rintro ⟨hd, hu⟩
    constructor
    · intro slot
      have hone := ho slot
      have hholds : ((∃ d ∈ s.downloaders, d.holds slot = true) ∨
          ∃ u ∈ s.uploaders, u.holds slot = true) ↔ 0 < s.owners slot := by
        rw [State.owners, Nat.add_pos_iff_pos_or_pos, List.countP_pos_iff, List.countP_pos_iff]
        refine or_congr (exists_congr fun d => and_congr_right fun hmem => ?_)
          (exists_congr fun u => and_congr_right fun hmem => ?_)
        · simp [Downloader.holds, hd d hmem]
        · simp [Uploader.holds, hu u hmem]
      rw [hholds, hone]
      cases s.isReady slot <;> simp
    · -- an active download on the queue was started, and cannot have exited
      intro a ha hactive
      obtain ⟨d, hmem, haddress⟩ := List.mem_map.1 (hq.active a ha hactive)
      refine ⟨d, hmem, haddress, fun hexited => ?_, hd d hmem⟩
      have := (hq.onQueue d hmem).1 (haddress ▸ ha)
      rw [hexited] at this
      cases this

/-! ### Every run -/

theorem succeeds_downloader {j : ℕ} {d : Downloader} {status : ℤ} (hd : s.downloaders[j]? = some d)
    (hstage : d.stage ≠ .transferring) : Succeeds s (.downloader j status) := by
  intro d' hd' hstage'
  cases hd.symm.trans hd'
  exact absurd hstage' hstage

theorem succeeds_uploader {k choice : ℕ} {u : Uploader} {status : ℤ} {text : CLib.Bytes}
    (hu : s.uploaders[k]? = some u) (hstarting : u.work ≠ .starting)
    (htagged : ∀ up, u.work ≠ .part up .tagged) :
    Succeeds s (.uploader k choice status text) := by
  intro u' hu'
  cases hu.symm.trans hu'
  exact ⟨fun h => absurd h hstarting, fun up h => absurd h (htagged up)⟩

/-- **A step loses a slot exactly if it does not succeed.** -/
theorem noneLost_transition (h : NoneLost s) (ht : Transition s action s') :
    NoneLost s' ↔ Succeeds s action := by
  cases ht with
  | acknowledge =>
      refine iff_of_true ⟨fun d' hd' => ?_, h.2⟩ trivial
      obtain ⟨d, hd, rfl⟩ := List.mem_map.1 hd'
      have := h.1 d hd
      split <;> simp_all
  | startUpload =>
      exact iff_of_true ⟨h.1, List.forall_mem_append.2 ⟨h.2, by simp [UploadWork.lost]⟩⟩ trivial
  | startDownload =>
      exact iff_of_true ⟨List.forall_mem_append.2 ⟨h.1, by simp⟩, h.2⟩ trivial
  | prepare hd hstage | grant hd hstage | finish hd hstage | lockAcknowledge hd hstage
  | broadcast hd hstage | acknowledged hd hstage | free hd hstage =>
      refine iff_of_true ⟨?_, h.2⟩ (succeeds_downloader hd (by rw [hstage]; simp))
      exact (forall_mem_set_iff hd (by rw [hstage]; simp) (by simp)).2 h.1
  | unlockAcknowledge hd hstage =>
      refine iff_of_true ⟨?_, h.2⟩ (succeeds_downloader hd (by rw [hstage]; simp))
      exact (forall_mem_set_iff hd (by rw [hstage]; simp) (by split <;> simp)).2 h.1
  | transferred hd hstage =>
      refine iff_of_true ⟨?_, h.2⟩ fun _ _ _ => rfl
      exact (forall_mem_set_iff hd (by rw [hstage]; simp) (by simp)).2 h.1
  | expire hd hstage =>
      refine iff_of_true ⟨?_, h.2⟩ trivial
      exact (forall_mem_set_iff hd (by rw [hstage]; simp) (by simp)).2 h.1
  | failDownload hd hstage hstatus =>
      exact iff_of_false (fun hn => hn.1 _ (mem_set_self hd) rfl) fun hs => hstatus (hs _ hd hstage)
  | fetch hu hwork hget =>
      refine iff_of_true ⟨h.1, ?_⟩ fun u' hu' => ?_
      · exact (forall_mem_set_iff hu (by rw [hwork]; rfl) (by rfl)).2 h.2
      · cases hu.symm.trans hu'
        rw [hget, hwork]
        exact ⟨by simp, by simp⟩
  | fetchNothing hu hwork hget =>
      refine iff_of_false (fun hn => ?_) fun hs => (hs _ hu).1 hwork hget
      exact Bool.noConfusion (hn.2 _ (mem_set_self hu))
  | initiate hu hwork | skipInitiate hu hwork | createPart hu hwork | tag hu hwork
  | completeUpload hu hwork =>
      refine iff_of_true ⟨h.1, ?_⟩ (succeeds_uploader hu (by rw [hwork]; simp)
        (by rw [hwork]; simp))
      exact (forall_mem_set_iff hu (by rw [hwork]; rfl) (by rfl)).2 h.2
  | upload hu hwork =>
      refine iff_of_true ⟨h.1, ?_⟩ fun u' hu' => ?_
      · exact (forall_mem_set_iff hu (by rw [hwork]; rfl) (by rfl)).2 h.2
      · cases hu.symm.trans hu'
        rw [hwork]
        exact ⟨by simp, fun _ _ => rfl⟩
  | failUpload hu hwork hstatus =>
      refine iff_of_false (fun hn => ?_) fun hs => hstatus ((hs _ hu).2 _ hwork)
      exact Bool.noConfusion (hn.2 _ (mem_set_self hu))
  | _ => exact iff_of_true h trivial

/-- **Exactly when the slots are conserved in a run**: in every state of the run, if and only if in
every step of it no transfer fails and no upload finds nothing to upload. -/
theorem conserved_iff_succeeds (db : Database) (actions : List Action) :
    (∀ pre, pre <+: actions → ∀ s, Runs.run step (State.initial db) pre = some s → Conserved s) ↔
      Runs.Along step (fun s action _ => Succeeds s action) (State.initial db) actions := by
  have hinv : ∀ s action s', Queued s ∧ Occupied s → step s action = some s' →
      Queued s' ∧ Occupied s' := fun s action s' ⟨hq, ho⟩ hs =>
    ⟨hq.transition (transition_of_step hs), ho.transition (transition_of_step hs)⟩
  have hinitial : Queued (State.initial db) ∧ Occupied (State.initial db) :=
    ⟨queued_initial db, occupied_initial db⟩
  refine Runs.forall_prefix_iff_along hinv (fun s action s' hI hc hs => ?_) actions hinitial ?_
  · have hI' := hinv s action s' hI hs
    rw [conserved_iff_noneLost hI'.1 hI'.2]
    exact noneLost_transition ((conserved_iff_noneLost hI.1 hI.2).1 hc) (transition_of_step hs)
  · rw [conserved_iff_noneLost hinitial.1 hinitial.2]
    exact ⟨by simp [State.initial], by simp [State.initial]⟩

/-- The download that a client asks for ends with a status other than `0`. -/
def failedDownload : List Action :=
  [.receive 7 1000 none, .receiver 0, .receiver 0, .processor 0 0, .processor 0 0, .processor 1 0,
    .downloader 0 0, .downloader 0 7]

/-- **A download that fails keeps its slot**, and its subscription stays on the queue as active. -/
theorem failed_download_keeps_slot :
    ∃ s, Runs.run step (State.initial .oneFile) failedDownload = some s ∧
      s.isReady 0 = false ∧ s.downloaders = [⟨0, 0, .failed⟩] ∧ s.uploaders = [] ∧
      s.downloadQueue = [0] ∧ (s.heap 0).downloadActive = true ∧ ¬ Conserved s := by
  have hsome : (Runs.run step (State.initial .oneFile) failedDownload).isSome := by decide
  obtain ⟨s, hs⟩ := Option.isSome_iff_exists.1 hsome
  have hend : (Runs.run step (State.initial .oneFile) failedDownload).map
      (fun s => (s.isReady 0, s.downloaders, s.uploaders, s.downloadQueue,
        (s.heap 0).downloadActive))
      = some (false, [⟨0, 0, .failed⟩], [], [0], true) := by decide
  rw [hs, Option.map_some, Option.some.injEq] at hend
  simp only [Prod.mk.injEq] at hend
  obtain ⟨hready, hdownloaders, huploaders, hqueue, hactive⟩ := hend
  refine ⟨s, hs, hready, hdownloaders, huploaders, hqueue, hactive, fun hc => ?_⟩
  have := (hc.1 0).1 hready
  rw [hdownloaders, huploaders] at this
  simp [Downloader.holds] at this

end AwsS3fs
