/-
**How often a file is downloaded.**

A client that has found a file not to be in the cache calls `ReceiveDownload`, which joins the
download of the file if there is one on the queue.  Between the two the download of another client
can come to its end: then the file is in the cache, its subscription is off the queue, and a second
download is started for it.  In every run in which no call of `ReceiveDownload` comes so late, a
file is downloaded at most once, and never after it has come into the cache.

Main definitions:

* `AwsS3fs.Uncached` — `ReceiveDownload` is called for a file that is not in the cache;
* `AwsS3fs.Fresh` — no file on the queue is in the cache, and no file has two subscriptions.

Main results:

* `AwsS3fs.Fresh.transition` — every transition of the queues keeps it;
* `AwsS3fs.single_download` — **a file is downloaded at most once**.
-/

import AwsS3fs.CacheClients

set_option relaxedAutoImplicit false
set_option autoImplicit false

namespace AwsS3fs

open CLib Threads

/-- `ReceiveDownload` is called for a file that is not in the cache. -/
def Uncached (c : Cache) : ClientAction → Cache → Prop
  | .receive i _, _ =>
      match c.clients[i]? with
      | some (.missing _ _ fileId) => ¬ c.queue.db.Cached fileId
      | _ => True
  | _, _ => True

instance (c : Cache) : (action : ClientAction) → (c' : Cache) → Decidable (Uncached c action c')
  | .receive i _, _ =>
      show Decidable (match c.clients[i]? with
        | some (.missing _ _ fileId) => ¬ c.queue.db.Cached fileId
        | _ => True) from
      match c.clients[i]? with
      | some (.missing ..) => instDecidableNot
      | none | some (.found ..) | some (.receiving ..) | some (.answering ..)
      | some (.answered ..) => instDecidableTrue
  | .request .., _ | .check .., _ | .reply .., _ | .create .., _ | .transfer .., _ =>
      instDecidableTrue

/-- No file on the queue is in the cache, and no file has ever had two subscriptions. -/
structure Fresh (s : State) : Prop where
  uncached : ∀ a ∈ s.downloadQueue, ¬ s.db.Cached (s.heap a).fileId
  single : ∀ a < s.allocated, ∀ b < s.allocated, (s.heap a).fileId = (s.heap b).fileId → a = b

namespace Fresh

variable {s s' : State} {action : Action}

/-- A transition that makes no subscription and sets no flag of a file on the queue. -/
theorem frame (h : Fresh s) (hq : Queued s) (ht : Transition s action s')
    (hallocated : s'.allocated = s.allocated)
    (hqueue : ∀ a ∈ s'.downloadQueue, a ∈ s.downloadQueue)
    (hcached : ∀ a ∈ s'.downloadQueue, s'.db.Cached (s.heap a).fileId →
      s.db.Cached (s.heap a).fileId) : Fresh s' where
  uncached := by
    intro a ha hyes
    have hmem := hqueue a ha
    rw [(fileId_of_transition ht).2 a (hq.bound a hmem)] at hyes
    exact h.uncached a hmem (hcached a ha hyes)
  single := by
    intro a ha b hb hab
    rw [hallocated] at ha hb
    rw [(fileId_of_transition ht).2 a ha, (fileId_of_transition ht).2 b hb] at hab
    exact h.single a ha b hb hab

/-- The subscriptions to a file that is not in the cache are on the queue, so a new one is the first
one. -/
theorem create (h : Fresh s) (hq : Queued s) (hd : Delivered s) {fileId owner : ℤ}
    {reused : Option ℕ} (ht : Transition s action (s.create fileId owner reused))
    (hfind : s.findInDownloadQueue fileId = none) (hnot : ¬ s.db.Cached fileId) :
    Fresh (s.create fileId owner reused) := by
  have hstay := (fileId_of_transition ht).2
  have hnew : ((s.create fileId owner reused).heap s.allocated).fileId = fileId :=
    field_update_self Subscription.fileId _ _ _
  have hsame : ∀ f, (s.create fileId owner reused).db.Cached f ↔ s.db.Cached f := by
    intro f
    rw [Database.Cached, Database.Cached,
      show (s.create fileId owner reused).db.files = s.db.files from
        Database.files_insertTransfer ..]
  have hfirst : ∀ a < s.allocated, (s.heap a).fileId ≠ fileId := by
    rintro a ha rfl
    by_cases hmem : a ∈ s.downloadQueue
    · simpa using List.find?_eq_none.1 hfind a hmem
    · exact hnot (hd.offQueue a ha hmem)
  constructor
  · intro a ha hyes
    rw [hsame] at hyes
    rcases List.mem_append.1 ha with ha | ha
    · rw [hstay a (hq.bound a ha)] at hyes
      exact h.uncached a ha hyes
    · rw [List.mem_singleton.1 ha, hnew] at hyes
      exact hnot hyes
  · intro a ha b hb hab
    rcases Nat.lt_succ_iff_lt_or_eq.1 ha with ha | rfl <;>
      rcases Nat.lt_succ_iff_lt_or_eq.1 hb with hb | rfl
    · rw [hstay a ha, hstay b hb] at hab
      exact h.single a ha b hb hab
    · rw [hstay a ha, hnew] at hab
      exact absurd hab (hfirst a ha)
    · rw [hstay b hb, hnew] at hab
      exact absurd hab.symm (hfirst b hb)
    · rfl

/-- A download that has finished takes its file off the queue as it sets the flag. -/
theorem finish (h : Fresh s) (hq : Queued s) {j : ℕ} {d : Downloader}
    (ht : Transition s action (s.finish j d)) (hj : s.downloaders[j]? = some d)
    (hstage : d.stage = .publishing) : Fresh (s.finish j d) := by
  have hon : d.address ∈ s.downloadQueue := by
    rw [hq.onQueue d (List.mem_of_getElem? hj), hstage]
    rfl
  refine h.frame hq ht rfl (fun a ha => List.mem_of_mem_erase ha) fun a ha hyes => ?_
  rcases Database.cached_markFileAsCached.1 hyes with hyes | ⟨hfile, -⟩
  · exact hyes
  · have hmem := List.mem_of_mem_erase ha
    rw [hq.files a hmem d.address hon hfile] at ha
    exact absurd ha (hq.nodup.not_mem_erase)

/-- **Every transition keeps it**, if `ReceiveDownload` is called for files that are not in the
cache. -/
theorem transition (h : Fresh s) (hq : Queued s) (hd : Delivered s) (ht : Transition s action s')
    (hnot : ∀ fileId owner reused, action = .receive fileId owner reused →
      ¬ s.db.Cached fileId) : Fresh s' := by
  have ht' := ht
  have hsame : s'.db.files = s.db.files → ∀ f, s'.db.Cached f → s.db.Cached f := by
    intro hfiles f
    rw [Database.Cached, Database.Cached, hfiles]
    exact id
  cases ht with
  | create hfree hfind => exact h.create hq hd ht' hfind (hnot _ _ _ rfl)
  | finish hj hstage => exact h.finish hq ht' hj hstage
  | addFile => exact h.frame hq ht' rfl (fun _ ha => ha) fun _ _ => Database.cached_addFile.1
  | addUpload =>
      exact h.frame hq ht' rfl (fun _ ha => ha)
        fun _ _ => hsame (Database.files_insertTransfer ..) _
  | createMultiparts =>
      exact h.frame hq ht' rfl (fun _ ha => ha) fun _ _ =>
        hsame (Database.files_createMultiparts _) _
  | addUser uid =>
      exact h.frame hq ht' rfl (fun _ ha => ha) fun _ _ => hsame (Database.files_addUser uid) _
  | _ => exact h.frame hq ht' rfl (fun _ ha => ha) fun _ _ => hsame rfl _

end Fresh

theorem fresh_initial (db : Database) : Fresh (State.initial db) := by
  constructor
  · intro a ha
    cases ha
  · intro a ha
    cases ha

/-- The file that a `BeginDownload` is for. -/
def State.fileOf (s : State) (d : Downloader) : ℤ := (s.heap d.address).fileId

/-- A download is started for a subscription on the queue. -/
theorem onQueue_of_started {s s' : State} {action : Action} {d : Downloader}
    (ht : Transition s action s') (hstart : s'.downloaders = s.downloaders ++ [d]) :
    d.address ∈ s.downloadQueue := by
  have hlength := congrArg List.length hstart
  rw [List.length_append, List.length_singleton] at hlength
  cases ht with
  | startDownload hp hready hfile hget =>
      have hd := List.append_cancel_left hstart
      rw [List.singleton_inj] at hd
      exact hd ▸ List.mem_of_find?_eq_some hget
  | acknowledge =>
      simp only [State.acknowledge, List.length_map] at hlength
      omega
  | prepare | transferred | failDownload | grant | finish | lockAcknowledge | broadcast
  | unlockAcknowledge | acknowledged | free | expire =>
      have := hlength.symm.trans List.length_set
      omega
  | _ => exact absurd hlength (Nat.ne_of_lt (Nat.lt_succ_self _))

/-- **A file is downloaded at most once**: in every run in which each call of `ReceiveDownload`
finds its file not to be in the cache, no two downloads are for the same file, and no download is
started for a file that is in the cache. -/
theorem single_download {names : List (Bytes × ℤ)} {db : Database} (hnamed : Named names db)
    {actions : List ClientAction} {c : Cache}
    (hrun : Runs.run clientStep (Cache.initial names db) actions = some c)
    (huncached : Runs.Along clientStep Uncached (Cache.initial names db) actions) :
    (∀ (j j' : ℕ) (d d' : Downloader), c.queue.downloaders[j]? = some d →
      c.queue.downloaders[j']? = some d' → c.queue.fileOf d = c.queue.fileOf d' → j = j') ∧
    ∀ (action : ClientAction) (c' : Cache) (d : Downloader), clientStep c action = some c' →
      c'.queue.downloaders = c.queue.downloaders ++ [d] →
      ¬ c.queue.db.Cached (c.queue.fileOf d) := by
  have hkeep : ∀ c action c', Consistent c ∧ Fresh c.queue → Uncached c action c' →
      clientStep c action = some c' → Consistent c' ∧ Fresh c'.queue := by
    intro c action c' ⟨hcon, hfresh⟩ hun hs
    have ht := clientTransition_of_step hs
    refine ⟨hcon.transition ht, ?_⟩
    rcases queue_of_clientTransition ht with heq | ⟨a, hq, hreceive, -⟩
    · exact heq ▸ hfresh
    · refine hfresh.transition hcon.queued hcon.delivered hq fun fileId owner reused ha => ?_
      obtain ⟨i, path, rfl, hi⟩ := hreceive fileId owner reused ha
      simpa only [Uncached, hi] using hun
  obtain ⟨hcon, hfresh⟩ := Runs.run_inv hkeep ⟨consistent_initial hnamed, fresh_initial db⟩
    huncached hrun
  constructor
  · intro j j' d d' hd hd' hfile
    have hbound : ∀ {k : ℕ} {e : Downloader}, c.queue.downloaders[k]? = some e →
        e.address < c.queue.allocated := fun he =>
      hcon.queued.started_bound _ (List.mem_map_of_mem (List.mem_of_getElem? he))
    exact hcon.queued.downloader_unique hd hd' (hfresh.single _ (hbound hd) _ (hbound hd') hfile)
  · intro action c' d hs hstart
    rcases queue_of_clientTransition (clientTransition_of_step hs) with heq | ⟨a, hq, -⟩
    · rw [heq, List.self_eq_append_right] at hstart
      cases hstart
    · exact hfresh.uncached d.address (onQueue_of_started hq hstart)

/-- Two clients ask for the same file at the same time, and one download is started. -/
def twoRequests : List ClientAction :=
  [.request (ascii "/dir/a") 1000, .request (ascii "/dir/a") 1000, .check 0 0, .check 1 0,
    .receive 0 none, .transfer (.receiver 0), .transfer (.receiver 0), .receive 1 none,
    .transfer (.receiver 1), .transfer (.processor 0 0), .transfer (.processor 0 0)]

/-- No step can start another download for a file that is in the cache. -/
theorem single_download_twoRequests :
    ∃ c, Runs.run clientStep (Cache.initial oneName .oneFile) twoRequests = some c ∧
      c.queue.downloaders = [⟨0, 0, .starting⟩] ∧
      ∀ (action : ClientAction) (c' : Cache) (d : Downloader), clientStep c action = some c' →
        c'.queue.downloaders = c.queue.downloaders ++ [d] →
        ¬ c.queue.db.Cached (c.queue.fileOf d) := by
  have hend : (Runs.run clientStep (Cache.initial oneName .oneFile) twoRequests).map
      (·.queue.downloaders) = some [⟨0, 0, .starting⟩] := by decide
  obtain ⟨c, hc, hdownloaders⟩ := Option.map_eq_some_iff.1 hend
  exact ⟨c, hc, hdownloaders, (single_download named_oneName hc (by decide)).2⟩

/-- Two clients find that the file is not in the cache, and the second one calls `ReceiveDownload`
when the download of the first one is done. -/
def lateRequest : List ClientAction :=
  [.request (ascii "/dir/a") 1000, .request (ascii "/dir/a") 1000, .check 0 0, .check 1 0,
    .receive 0 none, .transfer (.receiver 0), .transfer (.receiver 0), .transfer (.processor 0 0),
    .transfer (.processor 0 0), .transfer (.processor 1 0), .transfer (.downloader 0 0),
    .transfer (.downloader 0 0), .transfer (.downloader 0 0), .transfer (.downloader 0 0),
    .transfer (.downloader 0 0), .transfer (.downloader 0 0), .receive 1 none,
    .transfer (.receiver 1), .transfer (.processor 0 0), .transfer (.processor 0 0)]

/-- **A file in the cache is downloaded again.** -/
theorem downloaded_twice :
    Named oneName .oneFile ∧
    ∃ c c', Runs.run clientStep (Cache.initial oneName .oneFile) lateRequest = some c ∧
      clientStep c (.transfer (.processor 0 0)) = some c' ∧ c.queue.db.Cached 7 ∧
      c'.queue.downloaders.map c'.queue.fileOf = [7, 7] := by
  have hbefore : (Runs.run clientStep (Cache.initial oneName .oneFile) lateRequest).map
      (fun c => decide (c.queue.db.Cached 7)) = some true := by decide
  have hafter : ((Runs.run clientStep (Cache.initial oneName .oneFile) lateRequest).bind
      (clientStep · (.transfer (.processor 0 0)))).map
      (fun c => c.queue.downloaders.map c.queue.fileOf) = some [7, 7] := by decide
  obtain ⟨c, hc, hcached⟩ := Option.map_eq_some_iff.1 hbefore
  rw [hc, Option.bind_some] at hafter
  obtain ⟨c', hc', hfiles⟩ := Option.map_eq_some_iff.1 hafter
  exact ⟨named_oneName, c, c', hc, hc', of_decide_eq_true hcached, hfiles⟩

end AwsS3fs
