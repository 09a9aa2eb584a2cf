/-
**What every run of the transfer queues keeps.**

Two invariants of `AwsS3fs/TransferQueue.lean` that need no assumption on the run: failed transfers
and wake-ups without a cause included.  The first is about the main mutex: whoever is at a place
where it has the mutex is its owner.  The second is about the queue of the subscriptions and the
downloads that were started for them: the queue is in the order in which the subscriptions were
created, with one subscription for a file; and so are the
downloads that were started, one for a subscription, all of them before every subscription that
still waits.

Main definitions:

* `AwsS3fs.State.holdsMain` — where a thread has the main mutex;
* `AwsS3fs.Exclusive`, `AwsS3fs.Queued` — the invariants.

Main results:

* `AwsS3fs.Exclusive.transition`, `AwsS3fs.Queued.transition` — **every transition keeps them**;
* `AwsS3fs.Queued.frame` — a transition that leaves the queue alone keeps the second;
* `AwsS3fs.fileId_of_transition`, `AwsS3fs.downloader_of_transition` — a subscription keeps its
  file, and a download its subscription;
* `AwsS3fs.Exclusive.run`, `AwsS3fs.Queued.run` — they hold in every reachable state.
-/

import AwsS3fs.Lib.Threads
import AwsS3fs.TransferQueue

set_option relaxedAutoImplicit false
set_option autoImplicit false

namespace AwsS3fs

open Threads

variable {s s' : State} {action : Action}

/-- What an update of the heap does not change in a subscription, it changes in none. -/
theorem field_update {β : Type*} (f : Subscription → β) {heap : ℕ → Subscription} {a : ℕ}
    {x : Subscription} (hx : f x = f (heap a)) (b : ℕ) :
    f (Function.update heap a x b) = f (heap b) := by
  rw [Function.update_apply]
  split
  · rename_i h
    rw [hx, h]
  · rfl

theorem field_update_self {β : Type*} (f : Subscription → β) (heap : ℕ → Subscription) (a : ℕ)
    (x : Subscription) : f (Function.update heap a x a) = f x := by
  rw [Function.update_self]

theorem field_update_of_ne {β : Type*} (f : Subscription → β) {heap : ℕ → Subscription} {a b : ℕ}
    (h : b ≠ a) (x : Subscription) : f (Function.update heap a x b) = f (heap b) := by
  rw [Function.update_of_ne h]

/-! ### The main mutex -/

/-- A call of `ReceiveDownload` has the main mutex. -/
def Receiver.holdsMain : Receiver → Bool
  | .subscribed _ | .acknowledging _ => true
  | _ => false

/-- A call of `PutUpload` has the main mutex. -/
def Putter.holdsMain : Putter → Bool
  | .added _ _ => true
  | .done => false

/-- A `BeginDownload` has the main mutex. -/
def Downloader.holdsMain (d : Downloader) : Bool :=
  d.stage = .finishing || d.stage = .broadcasting

/-- The places at which a thread has the main mutex. -/
def State.holdsMain (s : State) : Thread → Bool
  | .processor => s.processor = .handing
  | .receiver i => s.receivers[i]?.any Receiver.holdsMain
  | .putter i => s.putters[i]?.any Putter.holdsMain
  | .downloader j => s.downloaders[j]?.any Downloader.holdsMain

/-- Who is at a place where it has the main mutex is its owner. -/
def Exclusive (s : State) : Prop := ∀ t, s.holdsMain t = true → s.mainLoop = some t

theorem signal_handing (s : State) : s.signal.processor = .handing ↔ s.processor = .handing := by
  simp only [State.signal]
  split
  · simp [*]
  · rfl

namespace Exclusive

theorem none_of_free (h : Exclusive s) (hfree : s.mainLoop = none) (t : Thread) :
    s.holdsMain t = false := by
  by_contra hne
  have := h t (Bool.not_eq_false _ ▸ hne)
  rw [hfree] at this
  cases this

/-- A step that locks the main mutex. -/
theorem lock (h : Exclusive s) (hfree : s.mainLoop = none) {t : Thread}
    (howner : s'.mainLoop = some t)
    (hother : ∀ t' ≠ t, s'.holdsMain t' = true → s.holdsMain t' = true) : Exclusive s' := by
  intro t' ht'
  by_cases htt : t' = t
  · rw [htt, howner]
  · have := hother t' htt ht'
    rw [h.none_of_free hfree t'] at this
    cases this

/-- A step that unlocks the main mutex. -/
theorem unlock (h : Exclusive s) {t : Thread} (ht : s.holdsMain t = true)
    (hnot : s'.holdsMain t = false)
    (hother : ∀ t' ≠ t, s'.holdsMain t' = true → s.holdsMain t' = true) : Exclusive s' := by
  intro t' ht'
  by_cases htt : t' = t
  · rw [htt, hnot] at ht'
    cases ht'
  · have := (h t' (hother t' htt ht')).symm.trans (h t ht)
    exact absurd (Option.some.inj this) htt

/-- A step at which nobody starts to hold the main mutex. -/
theorem keep (h : Exclusive s) (howner : s'.mainLoop = s.mainLoop)
    (hall : ∀ t, s'.holdsMain t = true → s.holdsMain t = true) : Exclusive s' :=
  fun t ht => howner.trans (h t (hall t ht))

/-- A call of `ReceiveDownload` goes on without starting to hold the main mutex. -/
theorem keep_receiver (h : Exclusive s) (howner : s'.mainLoop = s.mainLoop) {i : ℕ}
    {r r' : Receiver} (hr : s.receivers[i]? = some r) (hr' : r'.holdsMain = false)
    (hset : s'.receivers = s.receivers.set i r') (hprocessor : s'.processor = s.processor)
    (hputters : s'.putters = s.putters) (hdownloaders : s'.downloaders = s.downloaders) :
    Exclusive s' := by
  refine h.keep howner fun t ht => ?_
  cases t with
  | receiver j =>
      simp only [State.holdsMain, hset] at ht ⊢
      exact any_set_imp hr (fun hp => by rw [hr'] at hp; cases hp) ht
  | _ => simpa only [State.holdsMain, hprocessor, hputters, hdownloaders] using ht

/-- A `BeginDownload` goes on without starting to hold the main mutex. -/
theorem keep_downloader (h : Exclusive s) (howner : s'.mainLoop = s.mainLoop) {j : ℕ}
    {d d' : Downloader} (hd : s.downloaders[j]? = some d)
    (hd' : d'.holdsMain = true → d.holdsMain = true)
    (hset : s'.downloaders = s.downloaders.set j d') (hprocessor : s'.processor = s.processor)
    (hputters : s'.putters = s.putters) (hreceivers : s'.receivers = s.receivers) :
    Exclusive s' := by
  refine h.keep howner fun t ht => ?_
  cases t with
  | downloader j =>
      simp only [State.holdsMain, hset] at ht ⊢
      exact any_set_imp hd hd' ht
  | _ => simpa only [State.holdsMain, hprocessor, hputters, hreceivers] using ht

/-- **Every transition keeps the main mutex exclusive.** -/
theorem transition (h : Exclusive s) (ht : Transition s action s') : Exclusive s' := by
  cases ht with
  | join hfree | create hfree =>
      refine h.lock hfree rfl fun t hne ht => ?_
      cases t with
      | receiver i => exact (any_append_ne fun hi => hne (by rw [hi])).symm.trans ht
      | _ => exact ht
  | arm hr =>
      refine h.unlock (t := .receiver _) (by rw [State.holdsMain, hr]; rfl) (any_set_self hr)
        fun t hne ht => ?_
      cases t with
      | receiver i => exact (any_set_ne fun hi => hne (by rw [hi])).symm.trans ht
      | processor => exact decide_eq_true ((signal_handing s).1 (of_decide_eq_true ht))
      | _ => exact ht
  | wait hr | leave hr | unsubscribe hr | unsubscribeNone hr | wakeReceiver hr =>
      exact h.keep_receiver rfl hr rfl rfl rfl rfl rfl
  | unsubscribeLast hr hfree =>
      refine h.lock hfree rfl fun t hne ht => ?_
      cases t with
      | receiver i => exact (any_set_ne fun hi => hne (by rw [hi])).symm.trans ht
      | _ => exact ht
  | acknowledge hr =>
      refine h.unlock (t := .receiver _) (by rw [State.holdsMain, hr]; rfl) (any_set_self hr)
        fun t hne ht => ?_
      cases t with
      | receiver i => exact (any_set_ne fun hi => hne (by rw [hi])).symm.trans ht
      | downloader j =>
          -- a download that waits for the acknowledgement has let go of the main mutex
          refine (any_map_eq fun d => ?_).symm.trans ht
          split <;> simp_all [Downloader.holdsMain]
      | _ => exact ht
  | addUpload hfree =>
      refine h.lock hfree rfl fun t hne ht => ?_
      cases t with
      | putter i => exact (any_append_ne fun hi => hne (by rw [hi])).symm.trans ht
      | _ => exact ht
  | createMultiparts hp =>
      refine h.unlock (t := .putter _) (by rw [State.holdsMain, hp]; rfl) (any_set_self hp)
        fun t hne ht => ?_
      cases t with
      | putter i => exact (any_set_ne fun hi => hne (by rw [hi])).symm.trans ht
      | processor => exact decide_eq_true ((signal_handing s).1 (of_decide_eq_true ht))
      | _ => exact ht
  | lock hp hfree =>
      refine h.lock hfree rfl fun t hne ht => ?_
      cases t with
      | processor => exact absurd rfl hne
      | _ => exact ht
  | startDownload hp hready hfile hget =>
      refine h.keep rfl fun t ht => ?_
      cases t with
      | downloader j =>
          by_cases hj : j = s.downloaders.length
          · simp [hj, State.holdsMain, State.startDownload, Downloader.holdsMain] at ht
          · exact (any_append_ne hj).symm.trans ht
      | _ => exact ht
  | sleep hp =>
      refine h.unlock (t := .processor) (decide_eq_true hp) rfl fun t hne ht => ?_
      cases t with
      | processor => exact absurd rfl hne
      | _ => exact ht
  | relock hp | wakeProcessor hp =>
      refine h.keep rfl fun t ht => ?_
      cases t with
      | processor => cases ht
      | _ => exact ht
  | prepare hd | transferred hd | failDownload hd | grant hd | acknowledged hd | free hd
  | expire hd =>
      exact h.keep_downloader rfl hd (fun hp => by simp [Downloader.holdsMain] at hp) rfl rfl rfl
        rfl
  | unlockAcknowledge hd =>
      refine h.keep_downloader rfl hd (fun hp => ?_) rfl rfl rfl rfl
      simp only [Downloader.holdsMain] at hp
      split at hp <;> simp at hp
  | finish hd hstage hfree =>
      refine h.lock hfree rfl fun t hne ht => ?_
      cases t with
      | downloader j => exact (any_set_ne fun hj => hne (by rw [hj])).symm.trans ht
      | _ => exact ht
  | lockAcknowledge hd hstage =>
      exact h.keep_downloader rfl hd (fun _ => by simp [Downloader.holdsMain, hstage]) rfl rfl rfl
        rfl
  | broadcast hd hstage =>
      refine h.unlock (t := .downloader _)
        (by simp [State.holdsMain, hd, Downloader.holdsMain, hstage]) (any_set_self hd)
        fun t hne ht => ?_
      cases t with
      | downloader j => exact (any_set_ne fun hj => hne (by rw [hj])).symm.trans ht
      | receiver i =>
          refine (any_map_eq fun r => ?_).symm.trans ht
          split <;> simp_all [Receiver.holdsMain]
      | processor => exact decide_eq_true ((signal_handing s).1 (of_decide_eq_true ht))
      | _ => exact ht
  | completeUpload hu =>
      refine h.keep rfl fun t ht => ?_
      cases t with
      | processor => exact decide_eq_true ((signal_handing s).1 (of_decide_eq_true ht))
      | _ => exact ht
  | _ => exact h.keep rfl fun _ ht => ht

end Exclusive

theorem exclusive_initial (db : Database) : Exclusive (State.initial db) := by
  intro t ht
  cases t <;> cases ht

/-! ### The queue and the downloads that were started -/

/-- The subscriptions for which a `BeginDownload` was started, in the order of the starts. -/
def State.started (s : State) : List ℕ := s.downloaders.map (·.address)

/-- The stages of a download whose subscription is still on the queue and whose slot has not been
handed back. -/
def DownloadStage.onQueue : DownloadStage → Bool
  | .starting | .transferring | .granting | .publishing | .failed => true
  | _ => false

/-- The queue of the subscriptions and the downloads that were started. -/
structure Queued (s : State) : Prop where
  sorted : s.downloadQueue.Pairwise (· < ·)
  bound : ∀ a ∈ s.downloadQueue, a < s.allocated
  /-- There is one subscription for a file. -/
  files : ∀ a ∈ s.downloadQueue, ∀ b ∈ s.downloadQueue,
    (s.heap a).fileId = (s.heap b).fileId → a = b
  started_sorted : s.started.Pairwise (· < ·)
  started_bound : ∀ b ∈ s.started, b < s.allocated
  /-- The subscriptions that still wait are behind all that were started. -/
  started_lt : ∀ b ∈ s.started, ∀ a ∈ s.downloadQueue, (s.heap a).downloadActive = false → b < a
  active : ∀ a ∈ s.downloadQueue, (s.heap a).downloadActive = true → a ∈ s.started
  onQueue : ∀ d ∈ s.downloaders, d.address ∈ s.downloadQueue ↔ d.stage.onQueue = true

/-- A thread that goes on does not change its subscription. -/
theorem started_set {l : List Downloader} {j : ℕ} {d : Downloader} (hd : l[j]? = some d)
    (stage : DownloadStage) :
    (l.set j { d with stage := stage }).map (·.address) = l.map (·.address) := by
  refine List.ext_getElem? fun k => ?_
  rw [List.getElem?_map, List.getElem?_map]
  by_cases hk : k = j
  · rw [hk, List.getElem?_set_self (List.getElem?_eq_some_iff.1 hd).1, hd]
    rfl
  · rw [List.getElem?_set_ne (Ne.symm hk)]

namespace Queued

theorem nodup (h : Queued s) : s.downloadQueue.Nodup := h.sorted.imp Nat.ne_of_lt

/-- There is one download for a subscription. -/
theorem downloader_unique (h : Queued s) {j j' : ℕ} {d d' : Downloader}
    (hd : s.downloaders[j]? = some d) (hd' : s.downloaders[j']? = some d')
    (haddress : d.address = d'.address) : j = j' := by
  have hnodup : s.started.Nodup := h.started_sorted.imp Nat.ne_of_lt
  refine (List.getElem?_inj ?_ hnodup).1 ?_
  · rw [State.started, List.length_map]
    exact (List.getElem?_eq_some_iff.1 hd).1
  · rw [State.started, List.getElem?_map, List.getElem?_map, hd, hd', Option.map_some,
      Option.map_some, haddress]

/-- A transition that leaves the queue alone, and that moves no download off or onto it. -/
theorem frame (h : Queued s) (hqueue : s'.downloadQueue = s.downloadQueue)
    (hallocated : s'.allocated = s.allocated)
    (hfile : ∀ a ∈ s.downloadQueue, (s'.heap a).fileId = (s.heap a).fileId)
    (hactive : ∀ a ∈ s.downloadQueue, (s'.heap a).downloadActive = (s.heap a).downloadActive)
    (hstarted : s'.started = s.started)
    (hstage : ∀ d' ∈ s'.downloaders, ∃ d ∈ s.downloaders,
      d.address = d'.address ∧ d.stage.onQueue = d'.stage.onQueue) : Queued s' where
  sorted := by
    rw [hqueue]
    exact h.sorted
  bound := by
    rw [hqueue, hallocated]
    exact h.bound
  files := by
    rw [hqueue]
    intro a ha b hb hab
    exact h.files a ha b hb (by rwa [hfile a ha, hfile b hb] at hab)
  started_sorted := by
    rw [hstarted]
    exact h.started_sorted
  started_bound := by
    rw [hstarted, hallocated]
    exact h.started_bound
  started_lt := by
    rw [hstarted, hqueue]
    intro b hb a ha hinactive
    exact h.started_lt b hb a ha (by rwa [hactive a ha] at hinactive)
  active := by
    rw [hstarted, hqueue]
    intro a ha hact
    exact h.active a ha (by rwa [hactive a ha] at hact)
  onQueue := by
    rw [hqueue]
    intro d' hd'
    obtain ⟨d, hd, haddress, honQueue⟩ := hstage d' hd'
    rw [← haddress, ← honQueue]
    exact h.onQueue d hd

/-- A transition that changes neither the queue nor the downloads, and in the subscriptions neither
the file nor whether the download is active. -/
theorem frame_heap (h : Queued s) (hqueue : s'.downloadQueue = s.downloadQueue)
    (hallocated : s'.allocated = s.allocated)
    (hfile : ∀ a, (s'.heap a).fileId = (s.heap a).fileId)
    (hactive : ∀ a, (s'.heap a).downloadActive = (s.heap a).downloadActive)
    (hdownloaders : s'.downloaders = s.downloaders) : Queued s' := by
  refine h.frame hqueue hallocated (fun a _ => hfile a) (fun a _ => hactive a)
    (by rw [State.started, hdownloaders]; rfl) ?_
  rw [hdownloaders]
  exact fun d hd => ⟨d, hd, rfl, rfl⟩

/-- A download goes on without leaving the queue or coming back. -/
theorem frame_stage (h : Queued s) {j : ℕ} {d : Downloader} {stage : DownloadStage}
    (hd : s.downloaders[j]? = some d) (hstage : d.stage.onQueue = stage.onQueue)
    (hqueue : s'.downloadQueue = s.downloadQueue) (hallocated : s'.allocated = s.allocated)
    (hfile : ∀ a, (s'.heap a).fileId = (s.heap a).fileId)
    (hactive : ∀ a ∈ s.downloadQueue, (s'.heap a).downloadActive = (s.heap a).downloadActive)
    (hset : s'.downloaders = s.downloaders.set j { d with stage := stage }) : Queued s' := by
  refine h.frame hqueue hallocated (fun a _ => hfile a) hactive
    (by rw [State.started, hset, started_set hd]; rfl) ?_
  rw [hset]
  intro d' hd'
  rcases List.mem_or_eq_of_mem_set hd' with hd' | rfl
  · exact ⟨d', hd', rfl, rfl⟩
  · exact ⟨d, List.mem_of_getElem? hd, rfl, hstage⟩

/-- A new subscription is queued behind all others. -/
theorem create (h : Queued s) {fileId : ℤ} (owner : ℤ) (reused : Option ℕ)
    (hfind : s.findInDownloadQueue fileId = none) : Queued (s.create fileId owner reused) := by
  have hnew : ∀ a ∈ s.downloadQueue, (s.heap a).fileId ≠ fileId := by
    intro a ha
    simpa using List.find?_eq_none.1 hfind a ha
  have hold : ∀ a ∈ s.downloadQueue, (s.create fileId owner reused).heap a = s.heap a := fun a ha =>
    Function.update_of_ne (h.bound a ha).ne _ _
  have hself : ((s.create fileId owner reused).heap s.allocated).fileId = fileId := by
    simp [State.create]
  have hactive : ((s.create fileId owner reused).heap s.allocated).downloadActive = false := by
    simp [State.create]
  have hmem : ∀ a, a ∈ (s.create fileId owner reused).downloadQueue ↔
      a ∈ s.downloadQueue ∨ a = s.allocated := fun a => by simp [State.create]
  constructor
  case sorted =>
      simp only [State.create, List.pairwise_append, List.pairwise_singleton, List.mem_singleton]
      refine ⟨h.sorted, trivial, ?_⟩
      rintro a ha b rfl
      exact h.bound a ha
  case bound =>
      intro a ha
      rcases (hmem a).1 ha with ha | rfl
      · exact Nat.lt_succ_of_lt (h.bound a ha)
      · exact Nat.lt_succ_self _
  case files =>
      intro a ha b hb hab
      rcases (hmem a).1 ha with ha | rfl <;> rcases (hmem b).1 hb with hb | rfl
      · rw [hold a ha, hold b hb] at hab
        exact h.files a ha b hb hab
      · rw [hold a ha, hself] at hab
        exact absurd hab (hnew a ha)
      · rw [hself, hold b hb] at hab
        exact absurd hab.symm (hnew b hb)
      · rfl
  case started_sorted => exact h.started_sorted
  case started_bound => exact fun b hb => Nat.lt_succ_of_lt (h.started_bound b hb)
  case started_lt =>
      intro b hb a ha hinactive
      rcases (hmem a).1 ha with ha | rfl
      · exact h.started_lt b hb a ha (by rwa [hold a ha] at hinactive)
      · exact h.started_bound b hb
  case active =>
      intro a ha hact
      rcases (hmem a).1 ha with ha | rfl
      · exact h.active a ha (by rwa [hold a ha] at hact)
      · rw [hactive] at hact
        cases hact
  case onQueue =>
      intro d hd
      have hne : d.address ≠ s.allocated :=
        (h.started_bound d.address (List.mem_map_of_mem hd)).ne
      rw [hmem, or_iff_left hne]
      exact h.onQueue d hd

/-- The first subscription that still waits is started. -/
theorem startDownload (h : Queued s) (slot : Slot) {a : ℕ}
    (hget : s.getSubscriptionFromDownloadQueue = some a) : Queued (s.startDownload slot a) := by
  have ha : a ∈ s.downloadQueue := List.mem_of_find?_eq_some hget
  have hinactive : (s.heap a).downloadActive = false := by
    simpa using List.find?_some hget
  have hfile : ∀ b, ((s.startDownload slot a).heap b).fileId = (s.heap b).fileId :=
    field_update Subscription.fileId rfl
  have hstarted : (s.startDownload slot a).started = s.started ++ [a] := by
    simp [State.started, State.startDownload]
  have hactive : ∀ b, ((s.startDownload slot a).heap b).downloadActive
      = if b = a then true else (s.heap b).downloadActive := by
    intro b
    simp only [State.startDownload, State.modifySubscription, Function.update_apply]
    split <;> rfl
  constructor
  case sorted => exact h.sorted
  case bound => exact h.bound
  case files =>
      intro b hb c hc hbc
      rw [hfile, hfile] at hbc
      exact h.files b hb c hc hbc
  case started_sorted =>
      rw [hstarted]
      simp only [List.pairwise_append, List.pairwise_singleton, List.mem_singleton]
      refine ⟨h.started_sorted, trivial, ?_⟩
      rintro b hb c rfl
      exact h.started_lt b hb c ha hinactive
  case started_bound =>
      rw [hstarted]
      intro b hb
      rcases List.mem_append.1 hb with hb | hb
      · exact h.started_bound b hb
      · rw [List.mem_singleton.1 hb]
        exact h.bound a ha
  case started_lt =>
      intro b hb c hc hc'
      rw [hactive] at hc'
      split at hc'
      · cases hc'
      · rename_i hne
        rw [hstarted] at hb
        rcases List.mem_append.1 hb with hb | hb
        · exact h.started_lt b hb c hc hc'
        · -- the one that is started now is the first of those that wait
          rw [List.mem_singleton.1 hb]
          exact lt_of_find? h.sorted hget hc (by rw [hc']; rfl) hne
  case active =>
      intro b hb hb'
      rw [hstarted]
      rw [hactive] at hb'
      split at hb'
      · rename_i heq
        exact List.mem_append_right _ (List.mem_singleton.2 heq)
      · exact List.mem_append_left _ (h.active b hb hb')
  case onQueue =>
      intro d hd
      rcases List.mem_append.1 hd with hd | hd
      · exact h.onQueue d hd
      · rw [List.mem_singleton.1 hd]
        exact iff_of_true ha rfl

/-- A download is finished and its subscription taken off the queue. -/
theorem finish (h : Queued s) {j : ℕ} {d : Downloader} (hd : s.downloaders[j]? = some d) :
    Queued (s.finish j d) := by
  have hmem : ∀ a, a ∈ (s.finish j d).downloadQueue ↔ a ≠ d.address ∧ a ∈ s.downloadQueue :=
    fun a => h.nodup.mem_erase_iff
  have hstarted : (s.finish j d).started = s.started := started_set hd .finishing
  constructor
  case sorted => exact h.sorted.sublist List.erase_sublist
  case bound => exact fun a ha => h.bound a ((hmem a).1 ha).2
  case files => exact fun a ha b hb => h.files a ((hmem a).1 ha).2 b ((hmem b).1 hb).2
  case started_sorted =>
      rw [hstarted]
      exact h.started_sorted
  case started_bound =>
      rw [hstarted]
      exact h.started_bound
  case started_lt =>
      rw [hstarted]
      exact fun b hb a ha => h.started_lt b hb a ((hmem a).1 ha).2
  case active =>
      rw [hstarted]
      exact fun a ha => h.active a ((hmem a).1 ha).2
  case onQueue =>
      intro d' hd'
      rw [hmem]
      obtain ⟨k, hk⟩ := List.mem_iff_getElem?.1 hd'
      rcases of_getElem?_set hk with ⟨-, rfl⟩ | ⟨hkj, hk⟩
      · exact iff_of_false (fun hne => hne.1 rfl) (by simp [DownloadStage.onQueue])
      · -- it is the only download of the subscription that is taken off
        have hne : d'.address ≠ d.address :=
          fun haddress => hkj (h.downloader_unique hk hd haddress)
        rw [← h.onQueue d' (List.mem_of_getElem? hk)]
        exact and_iff_right hne

/-- **Every transition keeps the queue and the started downloads in order.** -/
theorem transition (h : Queued s) (ht : Transition s action s') : Queued s' := by
  cases ht with
  | create hfree hfind => exact h.create _ _ hfind
  | startDownload hp hready hfile hget => exact h.startDownload _ hget
  | finish hd => exact h.finish hd
  | join | arm | wait | unsubscribe | unsubscribeLast =>
      exact h.frame_heap rfl rfl (field_update Subscription.fileId rfl)
        (field_update Subscription.downloadActive rfl) rfl
  | acknowledge =>
      refine h.frame rfl rfl (fun _ _ => rfl) (fun _ _ => rfl) ?_ ?_
      · simp only [State.started, State.acknowledge, List.map_map]
        refine List.map_congr_left fun d _ => ?_
        simp only [Function.comp_apply]
        split <;> rfl
      · intro d' hd'
        obtain ⟨d, hd, rfl⟩ := List.mem_map.1 hd'
        refine ⟨d, hd, ?_⟩
        split <;> simp_all [DownloadStage.onQueue]
  | prepare hd hstage | transferred hd hstage | failDownload hd hstage | grant hd hstage
  | acknowledged hd hstage | expire hd hstage =>
      exact h.frame_stage hd (by rw [hstage]; rfl) rfl rfl (fun _ => rfl) (fun _ _ => rfl) rfl
  | lockAcknowledge hd hstage | free hd hstage =>
      exact h.frame_stage hd (by rw [hstage]; rfl) rfl rfl (field_update Subscription.fileId rfl)
        (fun a _ => field_update Subscription.downloadActive (by rfl) a) rfl
  | unlockAcknowledge hd hstage =>
      exact h.frame_stage hd (by rw [hstage]; split <;> rfl) rfl rfl
        (field_update Subscription.fileId rfl)
        (fun a _ => field_update Subscription.downloadActive (by rfl) a) rfl
  | @broadcast j d status hd hstage hwait =>
      -- the flag is reset when the subscription is off the queue already
      refine h.frame_stage hd (by rw [hstage]; rfl) rfl rfl (field_update Subscription.fileId rfl)
        (fun a ha => ?_) rfl
      have hne : a ≠ d.address := by
        rintro rfl
        simpa [hstage, DownloadStage.onQueue] using (h.onQueue d (List.mem_of_getElem? hd)).1 ha
      exact field_update_of_ne Subscription.downloadActive hne _
  | _ => exact { h with }

end Queued

theorem queued_initial (db : Database) : Queued (State.initial db) where
  sorted := .nil
  bound := by simp [State.initial]
  files := by simp [State.initial]
  started_sorted := .nil
  started_bound := by simp [State.started, State.initial]
  started_lt := by simp [State.started, State.initial]
  active := by simp [State.initial]
  onQueue := by simp [State.initial]

/-! ### Single subscriptions and downloads -/

/-- **A subscription keeps its file**, and no number is given back. -/
theorem fileId_of_transition (ht : Transition s action s') :
    s.allocated ≤ s'.allocated ∧
      ∀ a < s.allocated, (s'.heap a).fileId = (s.heap a).fileId := by
  cases ht with
  | create => exact ⟨Nat.le_succ _, fun a ha => field_update_of_ne Subscription.fileId ha.ne _⟩
  | join | arm | wait | unsubscribe | unsubscribeLast | startDownload | lockAcknowledge | broadcast
  | unlockAcknowledge | free =>
      exact ⟨le_rfl, fun a _ => field_update Subscription.fileId (by rfl) a⟩
  | _ => exact ⟨le_rfl, fun a _ => rfl⟩

/-- A download that goes on, seen from the state after the step. -/
theorem downloader_of_set {j k : ℕ} {d d' : Downloader} {stage : DownloadStage}
    (hd : s.downloaders[k]? = some d)
    (hd' : (s.downloaders.set k { d with stage := stage })[j]? = some d')
    (hstage : stage.onQueue = d.stage.onQueue ∨
      d.stage = .publishing ∧ ∃ status, action = .downloader k status) :
    ∃ d, s.downloaders[j]? = some d ∧ d.address = d'.address ∧
      (d'.stage.onQueue = d.stage.onQueue ∨
        d.stage = .publishing ∧ ∃ status, action = .downloader j status) := by
  rcases of_getElem?_set hd' with ⟨rfl, rfl⟩ | ⟨-, hd'⟩
  · exact ⟨d, hd, rfl, hstage⟩
  · exact ⟨d', hd', rfl, .inl rfl⟩

/-- **Where a download comes from**: it has just been started, or it has been there for the same
subscription, and it leaves the queue when it is done with publishing only. -/
theorem downloader_of_transition {j : ℕ} {d' : Downloader} (ht : Transition s action s')
    (hd' : s'.downloaders[j]? = some d') :
    j = s.downloaders.length ∧ d'.stage = .starting ∨
      ∃ d, s.downloaders[j]? = some d ∧ d.address = d'.address ∧
        (d'.stage.onQueue = d.stage.onQueue ∨
          d.stage = .publishing ∧ ∃ status, action = .downloader j status) := by
  cases ht with
  | startDownload =>
      rcases of_getElem?_append hd' with hd' | ⟨hj, rfl⟩
      · exact .inr ⟨d', hd', rfl, .inl rfl⟩
      · exact .inl ⟨hj, rfl⟩
  | acknowledge =>
      rw [State.acknowledge, List.getElem?_map, Option.map_eq_some_iff] at hd'
      obtain ⟨d, hd, rfl⟩ := hd'
      refine .inr ⟨d, hd, ?_⟩
      split
      · rename_i hwait
        exact ⟨rfl, .inl (by rw [hwait.2]; rfl)⟩
      · exact ⟨rfl, .inl rfl⟩
  | prepare hd hstage | transferred hd hstage | failDownload hd hstage | grant hd hstage
  | lockAcknowledge hd hstage | broadcast hd hstage | acknowledged hd hstage | free hd hstage
  | expire hd hstage => exact .inr (downloader_of_set hd hd' (.inl (by rw [hstage]; rfl)))
  | unlockAcknowledge hd hstage =>
      exact .inr (downloader_of_set hd hd' (.inl (by rw [hstage]; split <;> rfl)))
  | finish hd hstage => exact .inr (downloader_of_set hd hd' (.inr ⟨hstage, _, rfl⟩))
  | _ => exact .inr ⟨d', hd', rfl, .inl rfl⟩

/-- No thread is taken off the list of the downloads. -/
theorem length_downloaders_le (ht : Transition s action s') :
    s.downloaders.length ≤ s'.downloaders.length := by
  cases ht with
  | startDownload =>
      rw [State.startDownload, List.length_append]
      exact Nat.le_add_right _ _
  | acknowledge => rw [State.acknowledge, List.length_map]
  | prepare | transferred | failDownload | grant | finish | lockAcknowledge | broadcast
  | unlockAcknowledge | acknowledged | free | expire => exact List.length_set.ge
  | _ => exact le_rfl

/-! ### Every reachable state -/

/-- The main mutex is exclusive in every reachable state. -/
theorem Exclusive.run {db : Database} {actions : List Action}
    (hrun : Runs.run step (State.initial db) actions = some s) : Exclusive s :=
  Runs.run_inv_of_step (fun _ _ _ h hs => h.transition (transition_of_step hs))
    (exclusive_initial db) hrun

/-- The queue is in order in every reachable state. -/
theorem Queued.run {db : Database} {actions : List Action}
    (hrun : Runs.run step (State.initial db) actions = some s) : Queued s :=
  Runs.run_inv_of_step (fun _ _ _ h hs => h.transition (transition_of_step hs))
    (queued_initial db) hrun

end AwsS3fs
