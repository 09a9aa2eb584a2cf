/-
**Subscribers and their download.**

A client that calls `ReceiveDownload` is counted in a subscription, waits until the download
broadcasts that the file is there, and leaves.  Three things have to fit together over every
interleaving: the count is the number of clients that are in the subscription; a client that is
about to wait owns `waitMutex` until it does wait; and nobody leaves before the broadcast.  The last
one needs that `pthread_cond_wait` does not return without a cause.

The first one needs more.  A download frees its subscription a minute after the broadcast, whether
its clients have left or not, and `malloc` may put the next subscription there.  A client that
leaves after that takes itself off a count in which it is not.

Main definitions:

* `AwsS3fs.Placed` — where the subscriptions are;
* `AwsS3fs.Receiver.subscribes`, `AwsS3fs.Receiver.leaves` — a call is counted in a subscription,
  and has been woken;
* `AwsS3fs.Armed`, `AwsS3fs.Counted`, `AwsS3fs.Late`, `AwsS3fs.Early` — the invariants;
* `AwsS3fs.NoSpurious` — no subscriber wakes up without a cause;
* `AwsS3fs.Unharmed` — nobody takes himself off the count of another subscription;
* `AwsS3fs.DownloadQueueInvariant` — the queue, the downloads, the counts and the broadcasts.

Main results:

* `AwsS3fs.Placed.transition`, `AwsS3fs.Armed.transition`, `AwsS3fs.Counted.transition`,
  `AwsS3fs.Late.transition`, `AwsS3fs.Early.transition` — **every transition keeps them**;
* `AwsS3fs.subscribers_waiting` — at a broadcast every subscriber is waiting;
* `AwsS3fs.current_eq_self` — until a client is woken, its subscription is where it was;
* `AwsS3fs.counted_iff_unharmed` — when the counts are right;
* `AwsS3fs.downloadQueue_invariant_iff` — **when the queue, the downloads, the counts and the
  broadcasts are in order in every state of a run**.
-/

import AwsS3fs.TransferInvariant

set_option relaxedAutoImplicit false
set_option autoImplicit false

namespace AwsS3fs

open Threads

variable {s s' : State} {action : Action}

/-! ### Where the subscriptions are -/

/-- The subscription to which a call of `ReceiveDownload` has a pointer that it still uses. -/
def Receiver.pointer : Receiver → Option ℕ
  | .subscribed a | .armed a | .waiting a | .woken a | .unsubscribing a | .acknowledging a => some a
  | .done => none

/-- The subscriptions, and those that have been put where one was freed. -/
structure Placed (s : State) : Prop where
  /-- Nothing has been put where no subscription was. -/
  fresh : ∀ a, s.allocated ≤ a → s.current a = a
  bound : ∀ a < s.allocated, s.current a < s.allocated
  /-- A subscription that has not been freed is where it was. -/
  own : ∀ a < s.allocated, (s.heap a).freed = false → s.current a = a
  pointer : ∀ r ∈ s.receivers, ∀ a, r.pointer = some a → a < s.allocated
  queue : ∀ a ∈ s.downloadQueue, (s.heap a).freed = false
  download : ∀ d ∈ s.downloaders, d.stage ≠ .exited → (s.heap d.address).freed = false

namespace Placed

/-- A transition that neither creates nor frees a subscription. -/
theorem frame (h : Placed s) (hallocated : s'.allocated = s.allocated)
    (hcurrent : s'.current = s.current) (hfreed : ∀ a, (s'.heap a).freed = (s.heap a).freed)
    (hreceivers : ∀ r ∈ s'.receivers, ∀ a, r.pointer = some a → a < s.allocated)
    (hqueue : ∀ a ∈ s'.downloadQueue, a ∈ s.downloadQueue)
    (hdownloaders : ∀ d ∈ s'.downloaders, d.stage ≠ .exited → (s.heap d.address).freed = false) :
    Placed s' where
  fresh := by
    rw [hallocated, hcurrent]
    exact h.fresh
  bound := by
    rw [hallocated, hcurrent]
    exact h.bound
  own := by
    rw [hallocated, hcurrent]
    intro a ha hnot
    exact h.own a ha (by rwa [hfreed] at hnot)
  pointer := by
    rw [hallocated]
    exact hreceivers
  queue := by
    intro a ha
    rw [hfreed]
    exact h.queue a (hqueue a ha)
  download := by
    intro d hd hstage
    rw [hfreed]
    exact hdownloaders d hd hstage

/-- A call goes on with the pointer that it had, or without. -/
theorem frame_receiver (h : Placed s) {i : ℕ} {q r : Receiver} (hq : s.receivers[i]? = some q)
    (hset : s'.receivers = s.receivers.set i r)
    (hr : ∀ a, r.pointer = some a → q.pointer = some a) (hallocated : s'.allocated = s.allocated)
    (hcurrent : s'.current = s.current) (hfreed : ∀ a, (s'.heap a).freed = (s.heap a).freed)
    (hqueue : s'.downloadQueue = s.downloadQueue) (hdownloaders : s'.downloaders = s.downloaders) :
    Placed s' := by
  refine h.frame hallocated hcurrent hfreed ?_ (hqueue ▸ fun _ ha => ha)
    (hdownloaders ▸ h.download)
  rw [hset]
  intro r' hr' a ha
  rcases List.mem_or_eq_of_mem_set hr' with hr' | rfl
  · exact h.pointer r' hr' a ha
  · exact h.pointer q (List.mem_of_getElem? hq) a (hr a ha)

/-- A download goes on that has not freed its subscription. -/
theorem frame_downloader (h : Placed s) {j : ℕ} {d : Downloader} {stage : DownloadStage}
    (hd : s.downloaders[j]? = some d) (hstage : d.stage ≠ .exited)
    (hset : s'.downloaders = s.downloaders.set j { d with stage := stage })
    (hallocated : s'.allocated = s.allocated) (hcurrent : s'.current = s.current)
    (hfreed : ∀ a, (s'.heap a).freed = (s.heap a).freed)
    (hreceivers : s'.receivers = s.receivers)
    (hqueue : ∀ a ∈ s'.downloadQueue, a ∈ s.downloadQueue) : Placed s' := by
  refine h.frame hallocated hcurrent hfreed (hreceivers ▸ h.pointer) hqueue ?_
  rw [hset]
  intro d' hd' hstage'
  rcases List.mem_or_eq_of_mem_set hd' with hd' | rfl
  · exact h.download d' hd' hstage'
  · exact h.download d (List.mem_of_getElem? hd) hstage

/-- A subscription is put into fresh memory, or where another one has been freed. -/
theorem create (h : Placed s) (hq : Queued s) {reused : Option ℕ} (fileId owner : ℤ)
    (havailable : s.Available reused) : Placed (s.create fileId owner reused) := by
  have hnew : ((s.create fileId owner reused).heap s.allocated).freed = false :=
    field_update_self Subscription.freed _ _ _
  have hold : ∀ a, a ≠ s.allocated →
      ((s.create fileId owner reused).heap a).freed = (s.heap a).freed :=
    fun a ha => field_update_of_ne Subscription.freed ha _
  have hself : s.current s.allocated = s.allocated := h.fresh _ le_rfl
  constructor
  case fresh =>
      intro a ha
      have ha : s.allocated < a := ha
      have hcurrent := h.fresh a ha.le
      refine (if_neg fun hreused => ?_).trans hcurrent
      have := (havailable _ hreused).1
      omega
  case bound =>
      intro a ha
      show (if reused = some (s.current a) then s.allocated else s.current a) < s.allocated + 1
      split
      · exact Nat.lt_succ_self _
      · rcases Nat.lt_succ_iff_lt_or_eq.1 ha with ha | rfl
        · exact Nat.lt_succ_of_lt (h.bound a ha)
        · rw [hself]
          exact Nat.lt_succ_self _
  case own =>
      intro a ha hnot
      rcases Nat.lt_succ_iff_lt_or_eq.1 ha with ha | rfl
      · rw [hold a ha.ne] at hnot
        have hcurrent := h.own a ha hnot
        refine (if_neg fun hreused => ?_).trans hcurrent
        -- nothing is put where a subscription has not been freed
        have hfreed := (havailable _ hreused).2.1
        rw [hcurrent, hnot] at hfreed
        cases hfreed
      · show (if reused = some (s.current s.allocated) then s.allocated
          else s.current s.allocated) = s.allocated
        rw [hself]
        exact ite_self _
  case pointer =>
      intro r hr a ha
      rcases List.mem_append.1 hr with hr | hr
      · exact Nat.lt_succ_of_lt (h.pointer r hr a ha)
      · rw [List.mem_singleton.1 hr] at ha
        cases ha
        exact Nat.lt_succ_self _
  case queue =>
      intro a ha
      rcases List.mem_append.1 ha with ha | ha
      · rw [hold a (hq.bound a ha).ne]
        exact h.queue a ha
      · rw [List.mem_singleton.1 ha]
        exact hnew
  case download =>
      intro d hd hstage
      rw [hold d.address (hq.started_bound _ (List.mem_map_of_mem hd)).ne]
      exact h.download d hd hstage

/-- A download frees its subscription: it is off the queue, and no other download uses it. -/
theorem free (h : Placed s) (hq : Queued s) {j : ℕ} {d : Downloader}
    (hd : s.downloaders[j]? = some d) (hstage : d.stage = .freeing) : Placed (s.free j d) := by
  have hself : ((s.free j d).heap d.address).freed = true :=
    field_update_self Subscription.freed _ _ _
  have hold : ∀ a, a ≠ d.address → ((s.free j d).heap a).freed = (s.heap a).freed :=
    fun a ha => field_update_of_ne Subscription.freed ha _
  constructor
  case fresh => exact h.fresh
  case bound => exact h.bound
  case own =>
      intro a ha hnot
      have hne : a ≠ d.address := by
        rintro rfl
        rw [hself] at hnot
        cases hnot
      rw [hold a hne] at hnot
      exact h.own a ha hnot
  case pointer => exact h.pointer
  case queue =>
      intro a ha
      have hne : a ≠ d.address := by
        rintro rfl
        simpa [hstage, DownloadStage.onQueue] using (hq.onQueue d (List.mem_of_getElem? hd)).1 ha
      rw [hold a hne]
      exact h.queue a ha
  case download =>
      intro d' hd' hstage'
      obtain ⟨k, hk⟩ := List.mem_iff_getElem?.1 hd'
      rcases of_getElem?_set hk with ⟨-, rfl⟩ | ⟨hkj, hk⟩
      · exact absurd rfl hstage'
      · rw [hold d'.address fun haddress => hkj (hq.downloader_unique hk hd haddress)]
        exact h.download d' (List.mem_of_getElem? hk) hstage'

/-- **Every transition keeps it.** -/
theorem transition (h : Placed s) (hq : Queued s) (ht : Transition s action s') : Placed s' := by
  cases ht with
  | @join fileId owner reused a hfree hfind =>
      refine h.frame rfl rfl (field_update Subscription.freed rfl) (fun r hr b hb => ?_)
        (fun _ ha => ha) h.download
      rcases List.mem_append.1 hr with hr | hr
      · exact h.pointer r hr b hb
      · rw [List.mem_singleton.1 hr] at hb
        cases hb
        exact hq.bound a (List.mem_of_find?_eq_some hfind)
  | create hfree hfind havailable => exact h.create hq _ _ havailable
  | arm hr | wait hr | unsubscribeLast hr =>
      exact h.frame_receiver hr rfl (fun _ ha => ha) rfl rfl (field_update Subscription.freed rfl)
        rfl rfl
  | unsubscribe hr =>
      exact h.frame_receiver hr rfl (fun _ ha => by cases ha) rfl rfl
        (field_update Subscription.freed rfl) rfl rfl
  | leave hr | wakeReceiver hr =>
      exact h.frame_receiver hr rfl (fun _ ha => ha) rfl rfl (fun _ => rfl) rfl rfl
  | unsubscribeNone hr =>
      exact h.frame_receiver hr rfl (fun _ ha => by cases ha) rfl rfl (fun _ => rfl) rfl rfl
  | @acknowledge i a hr =>
      refine h.frame rfl rfl (fun _ => rfl) (fun r hr b hb => ?_) (fun _ ha => ha) fun d' hd' => ?_
      · rcases List.mem_or_eq_of_mem_set hr with hr | rfl
        · exact h.pointer r hr b hb
        · cases hb
      · obtain ⟨d, hd, rfl⟩ := List.mem_map.1 hd'
        split
        · rename_i hwait
          exact fun _ => h.download d hd (by rw [hwait.2]; simp)
        · exact h.download d hd
  | @startDownload slot choice a hp hready hfile hget =>
      refine h.frame rfl rfl (field_update Subscription.freed rfl) h.pointer (fun _ ha => ha)
        fun d hd hstage => ?_
      rcases List.mem_append.1 hd with hd | hd
      · exact h.download d hd hstage
      · rw [List.mem_singleton.1 hd]
        exact h.queue a (List.mem_of_find?_eq_some hget)
  | prepare hd hstage | transferred hd hstage | failDownload hd hstage | grant hd hstage
  | acknowledged hd hstage | expire hd hstage =>
      exact h.frame_downloader hd (by simp [hstage]) rfl rfl rfl (fun _ => rfl) rfl fun _ ha => ha
  | finish hd hstage =>
      exact h.frame_downloader hd (by simp [hstage]) rfl rfl rfl (fun _ => rfl) rfl
        fun _ ha => List.mem_of_mem_erase ha
  | lockAcknowledge hd hstage | unlockAcknowledge hd hstage =>
      exact h.frame_downloader hd (by simp [hstage]) rfl rfl rfl
        (field_update Subscription.freed rfl) rfl fun _ ha => ha
  | @broadcast j d status hd hstage hwait =>
      refine h.frame rfl rfl (field_update Subscription.freed rfl) (fun r' hr' a ha => ?_)
        (fun _ ha => ha) fun d' hd' hstage' => ?_
      · obtain ⟨r, hr, rfl⟩ := List.mem_map.1 hr'
        refine h.pointer r hr a ?_
        split at ha
        · rename_i heq
          rw [heq]
          exact ha
        · exact ha
      · rcases List.mem_or_eq_of_mem_set hd' with hd' | rfl
        · exact h.download d' hd' hstage'
        · exact h.download d (List.mem_of_getElem? hd) (by simp [hstage])
  | free hd hstage => exact h.free hq hd hstage
  | _ => exact { h with }

end Placed

theorem placed_initial (db : Database) : Placed (State.initial db) where
  fresh := fun _ _ => rfl
  bound := by simp [State.initial]
  own := by simp [State.initial]
  pointer := by simp [State.initial]
  queue := by simp [State.initial]
  download := by simp [State.initial]

/-! ### Who is about to wait -/

/-- Who is about to wait owns `waitMutex`. -/
def Armed (s : State) : Prop :=
  ∀ i a, s.receivers[i]? = some (.armed a) → (s.heap a).waitMutex = some (.receiver i)

namespace Armed

/-- Who is about to wait after the step of another call was so before. -/
theorem of_set {i k b : ℕ} {r' : Receiver} (hne : r' ≠ .armed b)
    (hk : (s.receivers.set i r')[k]? = some (.armed b)) :
    k ≠ i ∧ s.receivers[k]? = some (.armed b) := by
  rcases of_getElem?_set hk with ⟨-, heq⟩ | hother
  · exact absurd heq.symm hne
  · exact hother

/-- A transition after which only those are about to wait that were so before. -/
theorem frame (h : Armed s)
    (hreceivers : ∀ i a : ℕ, s'.receivers[i]? = some (.armed a) →
      s.receivers[i]? = some (.armed a))
    (hwait : ∀ a, (s'.heap a).waitMutex = (s.heap a).waitMutex) : Armed s' := by
  intro i a hi
  rw [hwait]
  exact h i a (hreceivers i a hi)

/-- **Every transition keeps it.** -/
theorem transition (h : Armed s) (hp : Placed s) (ht : Transition s action s') : Armed s' := by
  cases ht with
  | join hfree hfind =>
      refine h.frame (fun i b hi => ?_) (field_update Subscription.waitMutex rfl)
      rcases of_getElem?_append hi with hi | ⟨-, heq⟩
      · exact hi
      · cases heq
  | create hfree hfind =>
      intro i b hi
      rcases of_getElem?_append hi with hi | ⟨-, heq⟩
      · have hb := hp.pointer _ (List.mem_of_getElem? hi) b rfl
        exact (field_update_of_ne Subscription.waitMutex hb.ne _).trans (h i b hi)
      · cases heq
  | @arm i a hr hwait =>
      intro k b hk
      rcases of_getElem?_set hk with ⟨rfl, heq⟩ | ⟨-, hk₀⟩
      · cases heq
        exact field_update_self Subscription.waitMutex _ _ _
      · -- `waitMutex` was free, so nobody else is about to wait on this subscription
        have hb : b ≠ a := by
          rintro rfl
          have := hwait.symm.trans (h k b hk₀)
          cases this
        exact (field_update_of_ne Subscription.waitMutex hb _).trans (h k b hk₀)
  | @wait i a hr =>
      intro k b hk
      obtain ⟨hki, hk₀⟩ := of_set (by simp) hk
      have hb : b ≠ a := by
        rintro rfl
        have := (h i b hr).symm.trans (h k b hk₀)
        cases this
        exact hki rfl
      exact (field_update_of_ne Subscription.waitMutex hb _).trans (h k b hk₀)
  | leave | wakeReceiver | unsubscribeNone | acknowledge =>
      exact h.frame (fun k b hk => (of_set (by simp) hk).2) fun _ => rfl
  | unsubscribe | unsubscribeLast =>
      exact h.frame (fun k b hk => (of_set (by simp) hk).2)
        (field_update Subscription.waitMutex rfl)
  | @broadcast j d status hd hstage hwait =>
      refine h.frame (fun k a hk => ?_) (field_update Subscription.waitMutex rfl)
      obtain ⟨r, hr, heq⟩ := by simpa [State.broadcast] using hk
      split at heq <;> simp_all
  | startDownload | lockAcknowledge | unlockAcknowledge | free =>
      exact h.frame (fun _ _ hi => hi) (field_update Subscription.waitMutex rfl)
  | _ => exact h

end Armed

theorem armed_initial (db : Database) : Armed (State.initial db) := by simp [Armed, State.initial]

/-! ### Counting the subscribers -/

/-- A call of `ReceiveDownload` has joined a subscription and has not unsubscribed yet. -/
def Receiver.subscribes (a : ℕ) : Receiver → Bool
  | .subscribed b | .armed b | .waiting b | .woken b | .unsubscribing b => b = a
  | .acknowledging _ | .done => false

theorem Receiver.pointer_of_subscribes {r : Receiver} {a : ℕ} (h : r.subscribes a = true) :
    r.pointer = some a := by
  cases r <;> simp_all [Receiver.subscribes, Receiver.pointer]

theorem Placed.subscribed (h : Placed s) {r : Receiver} (hr : r ∈ s.receivers) {a : ℕ}
    (ha : r.subscribes a = true) : a < s.allocated :=
  h.pointer r hr a (Receiver.pointer_of_subscribes ha)

/-- The count of a subscription that has not been freed is the number of its subscribers. -/
def Counted (a : ℕ) (s : State) : Prop :=
  a < s.allocated → (s.heap a).freed = false →
    (s.heap a).subscribers = s.receivers.countP (·.subscribes a)

namespace Counted

variable {a : ℕ}

/-- A transition at which nobody joins or leaves the subscription. -/
theorem frame (h : Counted a s) (hallocated : s'.allocated = s.allocated)
    (hfreed : (s'.heap a).freed = false → (s.heap a).freed = false)
    (hsubscribers : (s'.heap a).subscribers = (s.heap a).subscribers)
    (hreceivers : s'.receivers.countP (·.subscribes a) = s.receivers.countP (·.subscribes a)) :
    Counted a s' := by
  intro ha hnot
  rw [hsubscribers, hreceivers]
  exact h (hallocated ▸ ha) (hfreed hnot)

/-- A call joins a subscription, maybe this one. -/
theorem join (h : Counted a s) (b : ℕ) : Counted a (s.join b) := by
  intro ha hnot
  have hfreed : ((s.join b).heap a).freed = (s.heap a).freed :=
    field_update Subscription.freed (by rfl) a
  have hcount := h ha (hfreed ▸ hnot)
  simp only [State.join, List.countP_append, List.countP_singleton]
  by_cases hab : a = b
  · rw [hab] at hcount ⊢
    refine (field_update_self Subscription.subscribers _ _ _).trans ?_
    simp [hcount, Receiver.subscribes]
  · refine (field_update_of_ne Subscription.subscribers hab _).trans ?_
    simp [hcount, Receiver.subscribes, Ne.symm hab]

/-- A call creates a subscription, maybe this one. -/
theorem create (h : Counted a s) (hp : Placed s) (fileId owner : ℤ) (reused : Option ℕ) :
    Counted a (s.create fileId owner reused) := by
  intro ha hnot
  simp only [State.create, List.countP_append, List.countP_singleton]
  rcases Nat.lt_succ_iff_lt_or_eq.1 ha with ha | rfl
  · have hfreed : ((s.create fileId owner reused).heap a).freed = (s.heap a).freed :=
      field_update_of_ne Subscription.freed ha.ne _
    rw [Function.update_of_ne ha.ne, h ha (hfreed ▸ hnot)]
    simp [Receiver.subscribes, ha.ne']
  · -- nobody can have joined it before
    have hzero : s.receivers.countP (·.subscribes s.allocated) = 0 := by
      rw [List.countP_eq_zero]
      exact fun r hr hb => (hp.subscribed hr hb).ne rfl
    rw [Function.update_self, hzero]
    simp [Receiver.subscribes]

/-- A call leaves its subscription and takes itself off the count that its pointer leads to. -/
theorem unsubscribe (h : Counted a s) (hp : Placed s) {i b : ℕ} {r' : Receiver}
    (hr : s.receivers[i]? = some (.unsubscribing b)) (hr' : r'.subscribes a = false)
    (hset : s'.receivers = s.receivers.set i r') (hallocated : s'.allocated = s.allocated)
    (hheap : s'.heap = Function.update s.heap (s.current b)
      { s.heap (s.current b) with subscribers := (s.heap (s.current b)).subscribers - 1 })
    (hown : s.current b = a → b = a ∨ (s.heap a).freed = true) : Counted a s' := by
  intro ha hnot
  have hfreed : (s'.heap a).freed = (s.heap a).freed := by
    rw [hheap]
    exact field_update Subscription.freed (by rfl) a
  rw [hallocated] at ha
  rw [hfreed] at hnot
  have hcount := h ha hnot
  rw [hset, hheap]
  by_cases hb : b = a
  · have hself : s.current b = a := hb ▸ hp.own b (hb ▸ ha) (hb ▸ hnot)
    have := countP_set_succ (p := (·.subscribes a)) hr (by simp [Receiver.subscribes, hb]) hr'
    rw [hself, Function.update_self]
    simp only
    omega
  · have hne : a ≠ s.current b := by
      rintro heq
      rcases hown heq.symm with hba | hfree
      · exact hb hba
      · rw [hnot] at hfree
        cases hfree
    rw [Function.update_of_ne hne, countP_set_of_eq hr]
    · exact hcount
    · rw [hr']
      simpa [Receiver.subscribes] using hb

/-- **Every transition keeps the count of the subscribers**, if it does not take off that of a
subscription which has been put where the own one was. -/
theorem transition (h : Counted a s) (hp : Placed s) (ht : Transition s action s')
    (hown : ∀ i b, action = .receiver i → s.receivers[i]? = some (.unsubscribing b) →
      s.current b = a → b = a ∨ (s.heap a).freed = true ∨ (s.heap a).subscribers = 0) :
    Counted a s' := by
  cases ht with
  | join => exact h.join _
  | create => exact h.create hp _ _ _
  | arm hr | wait hr =>
      exact h.frame rfl (fun hnot => (field_update Subscription.freed (by rfl) a).symm.trans hnot)
        (field_update Subscription.subscribers (by rfl) a) (countP_set_of_eq hr rfl)
  | leave hr | wakeReceiver hr | acknowledge hr =>
      exact h.frame rfl id rfl (countP_set_of_eq hr rfl)
  | @unsubscribe i b hr hfree hsub | @unsubscribeLast i b hr hfree hsub =>
      refine h.unsubscribe hp hr rfl rfl rfl rfl fun heq => ?_
      rcases hown i b rfl hr heq with hb | hfreed | hzero
      · exact .inl hb
      · exact .inr hfreed
      · exact absurd (heq ▸ hzero) hsub
  | @unsubscribeNone i b hr hfree hsub =>
      by_cases hb : b = a
      · -- a subscriber that is still there is counted
        intro ha hnot
        have hpos : 0 < s.receivers.countP (·.subscribes a) :=
          List.countP_pos_iff.2 ⟨_, List.mem_of_getElem? hr, by simp [Receiver.subscribes, hb]⟩
        have hcount := h ha hnot
        rw [hb, hp.own a ha hnot] at hsub
        omega
      · exact h.frame rfl id rfl (countP_set_of_eq hr (by simp [Receiver.subscribes, hb]))
  | @broadcast j d status hd hstage hwait =>
      refine h.frame rfl (fun hnot => (field_update Subscription.freed (by rfl) a).symm.trans hnot)
        (field_update Subscription.subscribers (by rfl) a) (countP_map_of_eq fun r => ?_)
      split
      · rename_i hr
        rw [hr]
        rfl
      · rfl
  | startDownload | lockAcknowledge | unlockAcknowledge =>
      exact h.frame rfl (fun hnot => (field_update Subscription.freed (by rfl) a).symm.trans hnot)
        (field_update Subscription.subscribers (by rfl) a) rfl
  | @free j d status hd hstage =>
      refine h.frame rfl (fun hnot => ?_) (field_update Subscription.subscribers (by rfl) a) rfl
      have hne : a ≠ d.address := by
        rintro rfl
        have := (field_update_self Subscription.freed _ _ _).symm.trans hnot
        cases this
      exact (field_update_of_ne Subscription.freed hne _).symm.trans hnot
  | _ => exact h

end Counted

theorem counted_initial (db : Database) (a : ℕ) : Counted a (State.initial db) :=
  fun ha => absurd ha (Nat.not_lt_zero a)

/-! ### Nobody leaves before the broadcast -/

/-- A call of `ReceiveDownload` has been woken, and has not unsubscribed yet. -/
def Receiver.leaves (a : ℕ) : Receiver → Bool
  | .woken b | .unsubscribing b => b = a
  | _ => false

/-- Who has not unsubscribed yet is still counted. -/
theorem Receiver.subscribes_of_leaves {r : Receiver} {a : ℕ} (h : r.leaves a = true) :
    r.subscribes a = true := by
  cases r <;> simp_all [Receiver.leaves, Receiver.subscribes]

/-- A download has broadcast that the file is there. -/
def DownloadStage.announced : DownloadStage → Bool
  | .completed | .waiting | .woken | .freeing | .exited => true
  | _ => false

/-- Nobody leaves a subscription before its download has broadcast. -/
def Late (s : State) : Prop :=
  ∀ r ∈ s.receivers, ∀ a, r.leaves a = true →
    a ∉ s.downloadQueue ∧ ∀ d ∈ s.downloaders, d.address = a → d.stage.announced = true

namespace Late

/-- A transition after which everyone who leaves did so before, while the queue has not grown and no
download has been started. -/
theorem frame (h : Late s)
    (hreceivers : ∀ r' ∈ s'.receivers, ∀ a, r'.leaves a = true →
      ∃ r ∈ s.receivers, r.leaves a = true)
    (hqueue : ∀ a ∈ s'.downloadQueue, a ∈ s.downloadQueue)
    (hdownloaders : ∀ d' ∈ s'.downloaders, ∃ d ∈ s.downloaders, d.address = d'.address ∧
      (d.stage.announced = true → d'.stage.announced = true)) : Late s' := by
  intro r' hr' a ha
  obtain ⟨r, hr, hleaves⟩ := hreceivers r' hr' a ha
  obtain ⟨hoff, hall⟩ := h r hr a hleaves
  refine ⟨fun hmem => hoff (hqueue a hmem), fun d' hd' haddress => ?_⟩
  obtain ⟨d, hd, hsame, hannounced⟩ := hdownloaders d' hd'
  exact hannounced (hall d hd (hsame.trans haddress))

/-- A call goes on that does not begin to leave. -/
theorem frame_receiver (h : Late s) {i : ℕ} {q r : Receiver} (hq : s.receivers[i]? = some q)
    (hr : ∀ a, r.leaves a = true → q.leaves a = true)
    (hset : s'.receivers = s.receivers.set i r) (hqueue : s'.downloadQueue = s.downloadQueue)
    (hdownloaders : s'.downloaders = s.downloaders) : Late s' := by
  refine h.frame ?_ (hqueue ▸ fun _ ha => ha) ?_
  · rw [hset]
    intro r₁ hr₁ a ha
    rcases List.mem_or_eq_of_mem_set hr₁ with hr₁ | rfl
    · exact ⟨r₁, hr₁, ha⟩
    · exact ⟨q, List.mem_of_getElem? hq, hr a ha⟩
  · rw [hdownloaders]
    exact fun d hd => ⟨d, hd, rfl, id⟩

/-- A download goes on, but not back behind its broadcast. -/
theorem frame_downloader (h : Late s) {j : ℕ} {d : Downloader} {stage : DownloadStage}
    (hd : s.downloaders[j]? = some d) (hstage : d.stage.announced = true → stage.announced = true)
    (hreceivers : s'.receivers = s.receivers)
    (hqueue : ∀ a ∈ s'.downloadQueue, a ∈ s.downloadQueue)
    (hset : s'.downloaders = s.downloaders.set j { d with stage := stage }) : Late s' := by
  refine h.frame (hreceivers ▸ fun r hr a ha => ⟨r, hr, ha⟩) hqueue ?_
  rw [hset]
  intro d' hd'
  rcases List.mem_or_eq_of_mem_set hd' with hd' | rfl
  · exact ⟨d', hd', rfl, id⟩
  · exact ⟨d, List.mem_of_getElem? hd, rfl, hstage⟩

/-- The calls that leave after a call was added are those that left before. -/
theorem leaves_append {r' : Receiver} {a b : ℕ} (hr : r' ∈ s.receivers ++ [.subscribed b])
    (ha : r'.leaves a = true) : r' ∈ s.receivers := by
  rcases List.mem_append.1 hr with hr | hr
  · exact hr
  · rw [List.mem_singleton.1 hr] at ha
    cases ha

/-- The broadcast itself: the download is off the queue, and there is no other one for its
subscription. -/
theorem broadcast (h : Late s) (hq : Queued s) {j : ℕ} {d : Downloader}
    (hd : s.downloaders[j]? = some d) (hstage : d.stage = .broadcasting) :
    Late (s.broadcast j d) := by
  have hoff : d.address ∉ s.downloadQueue := by
    rw [hq.onQueue d (List.mem_of_getElem? hd), hstage]
    simp [DownloadStage.onQueue]
  have hother : ∀ a, (∀ d' ∈ s.downloaders, d'.address = a → d'.stage.announced = true) ∨
      a = d.address → ∀ d' ∈ (s.broadcast j d).downloaders, d'.address = a →
        d'.stage.announced = true := by
    intro a ha d' hd' haddress
    obtain ⟨k, hk⟩ := List.mem_iff_getElem?.1 hd'
    rcases of_getElem?_set hk with ⟨-, rfl⟩ | ⟨hkj, hk⟩
    · rfl
    · rcases ha with ha | ha
      · exact ha d' (List.mem_of_getElem? hk) haddress
      · exact absurd (hq.downloader_unique hk hd (haddress.trans ha)) hkj
  intro r' hr' a ha
  obtain ⟨r, hr, rfl⟩ := List.mem_map.1 hr'
  split at ha
  · have ha : a = d.address := by simpa [Receiver.leaves, eq_comm] using ha
    exact ⟨ha ▸ hoff, hother a (.inr ha)⟩
  · obtain ⟨hnot, hall⟩ := h r hr a ha
    exact ⟨hnot, hother a (.inl hall)⟩

/-- **Every transition but a wake-up without a cause keeps the subscribers waiting until the
broadcast.** -/
theorem transition (h : Late s) (hq : Queued s) (hp : Placed s) (ht : Transition s action s')
    (hcause : ∀ i, action ≠ .wakeReceiver i) : Late s' := by
  cases ht with
  | join =>
      exact h.frame (fun r hr a ha => ⟨r, leaves_append hr ha, ha⟩) (fun _ ha => ha)
        fun d hd => ⟨d, hd, rfl, id⟩
  | @create fileId owner hfree hfind =>
      -- the new subscription is one that nobody can leave yet
      intro r hr a ha
      have hr := leaves_append hr ha
      obtain ⟨hoff, hall⟩ := h r hr a ha
      have hbound : a < s.allocated := hp.subscribed hr (Receiver.subscribes_of_leaves ha)
      refine ⟨fun hmem => ?_, hall⟩
      rcases List.mem_append.1 hmem with hmem | hmem
      · exact hoff hmem
      · exact hbound.ne (List.mem_singleton.1 hmem)
  | arm hr | wait hr | unsubscribe hr | unsubscribeLast hr | unsubscribeNone hr =>
      exact h.frame_receiver hr (fun _ ha => by cases ha) rfl rfl rfl
  | @leave i a hr =>
      exact h.frame_receiver (r := .unsubscribing a) hr (fun _ ha => ha) rfl rfl rfl
  | @acknowledge i a hr =>
      refine h.frame (fun r' hr' b hb => ?_) (fun _ ha => ha) fun d' hd' => ?_
      · rcases List.mem_or_eq_of_mem_set hr' with hr' | rfl
        · exact ⟨r', hr', hb⟩
        · cases hb
      · obtain ⟨d, hd, rfl⟩ := List.mem_map.1 hd'
        refine ⟨d, hd, ?_⟩
        split <;> simp_all [DownloadStage.announced]
  | @startDownload slot choice a hp hready hfile hget =>
      intro r hr b hb
      obtain ⟨hoff, hall⟩ := h r hr b hb
      refine ⟨hoff, fun d hd haddress => ?_⟩
      rcases List.mem_append.1 hd with hd | hd
      · exact hall d hd haddress
      · rw [List.mem_singleton.1 hd] at haddress
        exact absurd (haddress ▸ List.mem_of_find?_eq_some hget) hoff
  | prepare hd hstage | transferred hd hstage | failDownload hd hstage | grant hd hstage
  | lockAcknowledge hd hstage =>
      exact h.frame_downloader hd (by rw [hstage]; simp [DownloadStage.announced]) rfl
        (fun _ ha => ha) rfl
  | finish hd hstage =>
      exact h.frame_downloader hd (by rw [hstage]; simp [DownloadStage.announced]) rfl
        (fun _ ha => List.mem_of_mem_erase ha) rfl
  | broadcast hd hstage => exact h.broadcast hq hd hstage
  | acknowledged hd | free hd | expire hd =>
      exact h.frame_downloader hd (fun _ => rfl) rfl (fun _ ha => ha) rfl
  | unlockAcknowledge hd =>
      exact h.frame_downloader hd (fun _ => by split <;> rfl) rfl (fun _ ha => ha) rfl
  | wakeReceiver => exact absurd rfl (hcause _)
  | _ => exact fun r hr => h r hr

end Late

theorem late_initial (db : Database) : Late (State.initial db) := by simp [Late, State.initial]

/-! ### Pointers that have not been woken -/

/-- A call of `ReceiveDownload` has joined a subscription and has not been woken yet. -/
def Receiver.early (a : ℕ) : Receiver → Bool
  | .subscribed b | .armed b | .waiting b => b = a
  | _ => false

/-- A subscription is on the queue, or its download is on the way to the broadcast. -/
def State.InUse (s : State) (a : ℕ) : Prop :=
  a ∈ s.downloadQueue ∨ ∃ d ∈ s.downloaders, d.address = a ∧ d.holdsMain = true

/-- Who has not been woken yet is in a subscription that is in use. -/
def Early (s : State) : Prop := ∀ r ∈ s.receivers, ∀ a, r.early a = true → s.InUse a

namespace Early

/-- A transition at which nobody joins a subscription. -/
theorem frame (h : Early s)
    (hreceivers : ∀ r' ∈ s'.receivers, ∀ a, r'.early a = true →
      ∃ r ∈ s.receivers, r.early a = true)
    (hinUse : ∀ a, s.InUse a → s'.InUse a) : Early s' := by
  intro r' hr' a ha
  obtain ⟨r, hr, hearly⟩ := hreceivers r' hr' a ha
  exact hinUse a (h r hr a hearly)

/-- A call goes on that has not been woken later than before. -/
theorem frame_receiver (h : Early s) {i : ℕ} {q r : Receiver} (hq : s.receivers[i]? = some q)
    (hset : s'.receivers = s.receivers.set i r) (hr : ∀ a, r.early a = true → q.early a = true)
    (hinUse : ∀ a, s.InUse a → s'.InUse a) : Early s' := by
  refine h.frame (fun r' hr' a ha => ?_) hinUse
  rw [hset] at hr'
  rcases List.mem_or_eq_of_mem_set hr' with hr' | rfl
  · exact ⟨r', hr', ha⟩
  · exact ⟨q, List.mem_of_getElem? hq, hr a ha⟩

/-- A call joins a subscription that is on the queue. -/
theorem frame_append (h : Early s) {a : ℕ} (ha : a ∈ s'.downloadQueue)
    (hreceivers : s'.receivers = s.receivers ++ [.subscribed a])
    (hinUse : ∀ b, s.InUse b → s'.InUse b) : Early s' := by
  intro r hr b hb
  rw [hreceivers] at hr
  rcases List.mem_append.1 hr with hr | hr
  · exact hinUse b (h r hr b hb)
  · rw [List.mem_singleton.1 hr] at hb
    obtain rfl : a = b := by simpa [Receiver.early] using hb
    exact .inl ha

/-- A download goes on: the subscriptions that are in use stay so, but for its own if it has let go
of the main mutex. -/
theorem inUse_of_set {j : ℕ} {d d' : Downloader} {a : ℕ} (hd : s.downloaders[j]? = some d)
    (hset : s'.downloaders = s.downloaders.set j d')
    (hqueue : a ∈ s.downloadQueue → a ∈ s'.downloadQueue)
    (hself : d.address = a → d.holdsMain = true → d'.address = a ∧ d'.holdsMain = true)
    (h : s.InUse a) : s'.InUse a := by
  rcases h with hmem | ⟨e, he, haddress, hmain⟩
  · exact .inl (hqueue hmem)
  · refine .inr ?_
    rw [hset]
    obtain ⟨k, hk⟩ := List.mem_iff_getElem?.1 he
    by_cases hkj : k = j
    · cases hd.symm.trans (hkj ▸ hk)
      exact ⟨d', mem_set_self hd, hself haddress hmain⟩
    · exact ⟨e, List.mem_of_getElem? (hk ▸ List.getElem?_set_ne (Ne.symm hkj)), haddress, hmain⟩

/-- The broadcast wakes everyone who is in the subscription. -/
theorem broadcast (h : Early s) (hx : Exclusive s) (harmed : Armed s) {j : ℕ} {d : Downloader}
    (hd : s.downloaders[j]? = some d) (hstage : d.stage = .broadcasting)
    (hwait : (s.heap d.address).waitMutex = none) : Early (s.broadcast j d) := by
  have hmain : s.mainLoop = some (.downloader j) :=
    hx (.downloader j) (by simp [State.holdsMain, hd, Downloader.holdsMain, hstage])
  intro r' hr' b hb
  obtain ⟨r, hr, rfl⟩ := List.mem_map.1 hr'
  split at hb
  · cases hb
  · rename_i hnot
    refine inUse_of_set hd rfl id (fun haddress => ?_) (h r hr b hb)
    obtain ⟨i, hi⟩ := List.mem_iff_getElem?.1 hr
    obtain rfl := haddress
    cases r with
    | subscribed a =>
        -- it would have the main mutex, too
        have := hmain.symm.trans (hx (.receiver i) (by rw [State.holdsMain, hi]; rfl))
        cases this
    | armed a =>
        -- it would have `waitMutex`
        obtain rfl : a = d.address := by simpa [Receiver.early] using hb
        have := hwait.symm.trans (harmed i d.address hi)
        cases this
    | waiting a =>
        obtain rfl : a = d.address := by simpa [Receiver.early] using hb
        exact absurd rfl hnot
    | _ => cases hb

/-- **Every transition keeps it.** -/
theorem transition (h : Early s) (hx : Exclusive s) (harmed : Armed s)
    (ht : Transition s action s') : Early s' := by
  cases ht with
  | join hfree hfind => exact h.frame_append (List.mem_of_find?_eq_some hfind) rfl fun _ hb => hb
  | create =>
      refine h.frame_append (List.mem_append_right _ (List.mem_singleton_self _)) rfl fun b hb => ?_
      exact hb.imp_left (List.mem_append_left _)
  | arm hr | wait hr => exact h.frame_receiver hr rfl (fun _ ha => ha) fun _ hb => hb
  | leave hr | unsubscribe hr | unsubscribeLast hr | unsubscribeNone hr | wakeReceiver hr =>
      exact h.frame_receiver hr rfl (fun _ ha => by cases ha) fun _ hb => hb
  | acknowledge hr =>
      refine h.frame_receiver hr rfl (fun _ ha => by cases ha) fun b hb => ?_
      refine hb.imp_right ?_
      rintro ⟨d, hd, haddress, hmain⟩
      refine ⟨d, List.mem_map.2 ⟨d, hd, if_neg ?_⟩, haddress, hmain⟩
      rintro ⟨-, hwaits⟩
      simp [Downloader.holdsMain, hwaits] at hmain
  | startDownload =>
      refine h.frame (fun r hr a ha => ⟨r, hr, ha⟩) fun b hb => hb.imp_right ?_
      rintro ⟨d, hd, hmain⟩
      exact ⟨d, List.mem_append_left _ hd, hmain⟩
  | prepare hd hstage | transferred hd hstage | failDownload hd hstage | grant hd hstage
  | unlockAcknowledge hd hstage | acknowledged hd hstage | free hd hstage | expire hd hstage =>
      refine h.frame (fun r hr a ha => ⟨r, hr, ha⟩) fun b => ?_
      refine inUse_of_set hd rfl id fun _ hmain => ?_
      simp [Downloader.holdsMain, hstage] at hmain
  | lockAcknowledge hd hstage =>
      exact h.frame (fun r hr a ha => ⟨r, hr, ha⟩) fun b =>
        inUse_of_set hd rfl id fun haddress _ => ⟨haddress, rfl⟩
  | @finish j d status hd hstage =>
      refine h.frame (fun r hr a ha => ⟨r, hr, ha⟩) fun b hb => ?_
      by_cases hbd : d.address = b
      · exact .inr ⟨_, mem_set_self hd, hbd, rfl⟩
      · exact inUse_of_set hd rfl (List.mem_erase_of_ne (Ne.symm hbd)).2
          (fun haddress => absurd haddress hbd) hb
  | broadcast hd hstage hwait => exact h.broadcast hx harmed hd hstage hwait
  | _ => exact h

end Early

theorem early_initial (db : Database) : Early (State.initial db) := by simp [Early, State.initial]

/-- **A subscription is where it was** as long as somebody in it has not been woken, and as long as
its download has not freed it. -/
theorem current_eq_self {db : Database} {actions : List Action}
    (hrun : Runs.run step (State.initial db) actions = some s) :
    (∀ r ∈ s.receivers, ∀ a, r.early a = true → s.current a = a) ∧
    ∀ d ∈ s.downloaders, d.stage ≠ .exited → s.current d.address = d.address := by
  obtain ⟨-, hq, hp, -, hearly⟩ : Exclusive s ∧ Queued s ∧ Placed s ∧ Armed s ∧ Early s := by
    have hkeep : ∀ s action s', Exclusive s ∧ Queued s ∧ Placed s ∧ Armed s ∧ Early s →
        step s action = some s' → Exclusive s' ∧ Queued s' ∧ Placed s' ∧ Armed s' ∧ Early s' := by
      intro s action s' ⟨hx, hq, hp, harmed, hearly⟩ hs
      have ht := transition_of_step hs
      exact ⟨hx.transition ht, hq.transition ht, hp.transition hq ht, harmed.transition hp ht,
        hearly.transition hx harmed ht⟩
    exact Runs.run_inv_of_step hkeep ⟨exclusive_initial db, queued_initial db, placed_initial db,
      armed_initial db, early_initial db⟩ hrun
  have hdownload : ∀ d ∈ s.downloaders, d.stage ≠ .exited → s.current d.address = d.address :=
    fun d hd hstage => hp.own _ (hq.started_bound _ (List.mem_map_of_mem hd))
      (hp.download d hd hstage)
  refine ⟨fun r hr a ha => ?_, hdownload⟩
  rcases hearly r hr a ha with hqueue | ⟨d, hd, rfl, hmain⟩
  · exact hp.own a (hq.bound a hqueue) (hp.queue a hqueue)
  · refine hdownload d hd fun hstage => ?_
    simp [Downloader.holdsMain, hstage] at hmain

/-! ### Every run without wake-ups without a cause -/

/-- No subscriber wakes up without a cause. -/
def NoSpurious (actions : List Action) : Prop := ∀ action ∈ actions, ∀ i, action ≠ .wakeReceiver i

/-- At a broadcast every subscriber is waiting. -/
theorem subscribers_waiting (hx : Exclusive s) (harmed : Armed s) (hl : Late s) {j : ℕ}
    {d : Downloader} (hd : s.downloaders[j]? = some d) (hstage : d.stage = .broadcasting)
    (hwait : (s.heap d.address).waitMutex = none) {i : ℕ} {r : Receiver}
    (hr : s.receivers[i]? = some r) (hsubscribes : r.subscribes d.address = true) :
    r = .waiting d.address := by
  have hmain : s.mainLoop = some (.downloader j) :=
    hx (.downloader j) (by simp [State.holdsMain, hd, Downloader.holdsMain, hstage])
  have hlate : r.leaves d.address = false := by
    by_contra hne
    have := (hl r (List.mem_of_getElem? hr) d.address (by simpa using hne)).2 d
      (List.mem_of_getElem? hd) rfl
    rw [hstage] at this
    cases this
  cases r with
  | subscribed a =>
      -- it would have the main mutex, too
      have := hmain.symm.trans (hx (.receiver i) (by rw [State.holdsMain, hr]; rfl))
      cases this
  | armed a =>
      -- it would have `waitMutex`
      have ha : a = d.address := by simpa [Receiver.subscribes] using hsubscribes
      have := hwait.symm.trans (harmed i d.address (ha ▸ hr))
      cases this
  | waiting a =>
      have ha : a = d.address := by simpa [Receiver.subscribes] using hsubscribes
      rw [ha]
  | woken a | unsubscribing a =>
      -- it would have been woken before the broadcast
      have := hlate.symm.trans hsubscribes
      cases this
  | acknowledging a => cases hsubscribes
  | done => cases hsubscribes

/-- The download queue and its subscribers. -/
structure DownloadQueueInvariant (s : State) : Prop where
  /-- There is one subscription for a file in the queue. -/
  files : (s.downloadQueue.map fun a => (s.heap a).fileId).Nodup
  /-- One `BeginDownload` is started for a subscription, in the order of their creation. -/
  started : (s.downloaders.map (·.address)).Pairwise (· < ·)
  /-- The count of a subscription is the number of the calls that have joined and not left it. -/
  counted : ∀ a < s.allocated, (s.heap a).freed = false →
    (s.heap a).subscribers = s.receivers.countP (·.subscribes a)
  /-- At a broadcast all these calls are waiting, and are woken. -/
  woken : ∀ (j : ℕ) (d : Downloader) (status : ℤ) (s' : State), s.downloaders[j]? = some d →
    d.stage = .broadcasting → step s (.downloader j status) = some s' →
    ∀ (i : ℕ) (r : Receiver), s.receivers[i]? = some r → r.subscribes d.address = true →
      r = .waiting d.address ∧ s'.receivers[i]? = some (.woken d.address)

/-- Nobody unsubscribes from a subscription that has been put where the own one was freed, unless
that one is not in use, or not counted, either. -/
def Unharmed (s : State) : Action → State → Prop
  | .receiver i, _ =>
      match s.receivers[i]? with
      | some (.unsubscribing a) => s.current a = a ∨ (s.heap (s.current a)).freed = true ∨
          (s.heap (s.current a)).subscribers = 0
      | _ => True
  | _, _ => True

instance (s : State) : (action : Action) → (s' : State) → Decidable (Unharmed s action s')
  | .receiver i, _ =>
      show Decidable (match s.receivers[i]? with
        | some (.unsubscribing a) => s.current a = a ∨ (s.heap (s.current a)).freed = true ∨
            (s.heap (s.current a)).subscribers = 0
        | _ => True) from
      match s.receivers[i]? with
      | some (.unsubscribing _) => inferInstance
      | none | some (.subscribed _) | some (.armed _) | some (.waiting _) | some (.woken _)
      | some (.acknowledging _) | some .done => instDecidableTrue
  | .receive .., _ | .put .., _ | .putter _, _ | .processor .., _ | .downloader .., _
  | .uploader .., _ | .expire _, _ | .wakeReceiver _, _ | .wakeProcessor, _ | .addFile _, _
  | .addUser _, _ => instDecidableTrue

/-- A step after which the counts are right as before harms none of them. -/
theorem unharmed_of_counted (hp : Placed s) (hc : ∀ a, Counted a s) (hc' : ∀ a, Counted a s')
    (hs : step s action = some s') : Unharmed s action s' := by
  cases action with
  | receiver i =>
      simp only [Unharmed]
      split
      · rename_i a hr
        by_contra hharm
        push Not at hharm
        obtain ⟨hne, hfreed, hsub⟩ := hharm
        have hbound := hp.bound a (hp.pointer _ (List.mem_of_getElem? hr) a rfl)
        have hnot : (s.heap (s.current a)).freed = false := by simpa using hfreed
        have hcount := hc _ hbound hnot
        -- the count goes down, but the subscribers are the same
        have hstays : ∀ r', s.receivers.set i r' = s'.receivers →
            r'.subscribes (s.current a) = false →
            s'.receivers.countP (·.subscribes (s.current a)) =
              s.receivers.countP (·.subscribes (s.current a)) := by
          intro r' hset hr'
          rw [← hset, countP_set_of_eq hr]
          rw [hr']
          simpa [Receiver.subscribes] using Ne.symm hne
        have hdown : ∀ r', s'.receivers = s.receivers.set i r' →
            r'.subscribes (s.current a) = false → s'.allocated = s.allocated →
            s'.heap = Function.update s.heap (s.current a) { s.heap (s.current a) with
              subscribers := (s.heap (s.current a)).subscribers - 1 } → False := by
          intro r' hset hr' hallocated hheap
          have hcount' := hc' (s.current a) (hallocated ▸ hbound) (by rw [hheap]; simpa using hnot)
          rw [hstays r' hset.symm hr', hheap, Function.update_self] at hcount'
          simp only at hcount'
          omega
        cases transition_of_step hs with
        | unsubscribe hr₁ | unsubscribeLast hr₁ =>
            cases hr.symm.trans hr₁
            exact hdown _ rfl rfl rfl rfl
        | unsubscribeNone hr₁ hfree hzero =>
            cases hr.symm.trans hr₁
            exact hsub hzero
        | arm hr₁ | wait hr₁ | leave hr₁ | acknowledge hr₁ => cases hr.symm.trans hr₁
      · trivial
  | _ => trivial

/-- **When the counts are right**: in every state of a run, exactly if nobody takes himself off the
count of a subscription that is not his own. -/
theorem counted_iff_unharmed (db : Database) (actions : List Action) :
    (∀ pre, pre <+: actions → ∀ s, Runs.run step (State.initial db) pre = some s →
      ∀ a, Counted a s) ↔ Runs.Along step Unharmed (State.initial db) actions := by
  have hinv : ∀ s action s', Queued s ∧ Placed s → step s action = some s' →
      Queued s' ∧ Placed s' := by
    intro s action s' ⟨hq, hp⟩ hs
    have ht := transition_of_step hs
    exact ⟨hq.transition ht, hp.transition hq ht⟩
  refine Runs.forall_prefix_iff_along hinv ?_ actions ⟨queued_initial db, placed_initial db⟩
    (counted_initial db)
  intro s action s' ⟨hq, hp⟩ hc hs
  refine ⟨fun hc' => unharmed_of_counted hp hc hc' hs, fun hun a => ?_⟩
  refine (hc a).transition hp (transition_of_step hs) ?_
  rintro i b rfl hr rfl
  simp only [Unharmed, hr] at hun
  exact hun.imp_left Eq.symm

/-- **The queue, the downloads and the broadcasts in every run** in which no subscriber wakes up
without a cause, and the counts too, if they are right. -/
theorem invariant_of_counted {db : Database} {actions : List Action}
    (hrun : Runs.run step (State.initial db) actions = some s) (hcause : NoSpurious actions)
    (hc : ∀ a, Counted a s) : DownloadQueueInvariant s := by
  have hx := Exclusive.run hrun
  obtain ⟨hq, -, harmed, hl⟩ : Queued s ∧ Placed s ∧ Armed s ∧ Late s := by
    have hkeep : ∀ s action s', Queued s ∧ Placed s ∧ Armed s ∧ Late s →
        (∀ i, action ≠ .wakeReceiver i) → step s action = some s' →
        Queued s' ∧ Placed s' ∧ Armed s' ∧ Late s' := by
      intro s action s' ⟨hq, hp, harmed, hl⟩ hC hs
      have ht := transition_of_step hs
      exact ⟨hq.transition ht, hp.transition hq ht, harmed.transition hp ht,
        hl.transition hq hp ht hC⟩
    exact Runs.run_inv hkeep
      ⟨queued_initial db, placed_initial db, armed_initial db, late_initial db⟩
      (Runs.along_of_forall fun action ha _ _ => hcause action ha) hrun
  constructor
  case files => exact hq.nodup.map_on fun a ha b hb hab => hq.files a ha b hb hab
  case started => exact hq.started_sorted
  case counted => exact hc
  case woken =>
      intro j d status s' hd hstage hs i r hr hsubscribes
      have hstep : s.downloaderStep j status = some s' := hs
      simp only [State.downloaderStep, hd, hstage] at hstep
      split at hstep
      · rename_i hwait
        cases hstep
        have hr' := subscribers_waiting hx harmed hl hd hstage hwait hr hsubscribes
        refine ⟨hr', ?_⟩
        rw [State.broadcast, List.getElem?_map, hr, hr']
        simp
      · cases hstep

/-- **When the queue, the downloads, the counts and the broadcasts are in order**: in a run in which
no subscriber wakes up without a cause they are so in every state, exactly if nobody takes himself
off the count of a subscription that was put where his own one had been freed. -/
theorem downloadQueue_invariant_iff (db : Database) {actions : List Action}
    (hcause : NoSpurious actions) :
    (∀ pre, pre <+: actions → ∀ s, Runs.run step (State.initial db) pre = some s →
      DownloadQueueInvariant s) ↔ Runs.Along step Unharmed (State.initial db) actions := by
  rw [← counted_iff_unharmed]
  constructor
  · intro h pre hpre s hs a
    exact (h pre hpre s hs).counted a
  · intro h pre hpre s hs
    refine invariant_of_counted hs (fun action ha => ?_) (h pre hpre s hs)
    exact hcause action (hpre.subset ha)

/-- Two clients ask for the file, and it is downloaded up to the broadcast. -/
def twoClients : List Action :=
  [.receive 7 1000 none, .receiver 0, .receiver 0, .receive 7 1000 none, .receiver 1, .receiver 1,
    .processor 0 0, .processor 0 0, .processor 1 0, .downloader 0 0, .downloader 0 0,
    .downloader 0 0, .downloader 0 0, .downloader 0 0]

/-- A minute after the broadcast neither of the two has gone on, and their subscription is freed. -/
def twoLateClients : List Action :=
  twoClients ++ [.downloader 0 0, .downloader 0 0, .expire 0, .downloader 0 0, .downloader 0 0]

/-- The two go on after all, and only then a third client asks for another file, with a subscription
where that of the two was. -/
def reusedAfterwards : List Action :=
  twoLateClients ++ [.receiver 0, .receiver 0, .receiver 1, .receiver 1, .receiver 1, .addFile 8,
    .receive 8 1000 (some 0), .receiver 2, .receiver 2]

/-- The third client comes first, and one of the two takes itself off the count of that one. -/
def reusedBefore : List Action :=
  twoLateClients ++ [.addFile 8, .receive 8 1000 (some 0), .receiver 2, .receiver 2, .receiver 0,
    .receiver 0]

theorem noSpurious_reusedAfterwards : NoSpurious reusedAfterwards := by
  simp [NoSpurious, reusedAfterwards, twoLateClients, twoClients]

theorem noSpurious_reusedBefore : NoSpurious reusedBefore := by
  simp [NoSpurious, reusedBefore, twoLateClients, twoClients]

/-- The counts are right in the first of the two runs, and not in the second one. -/
theorem downloadQueue_invariant_reused :
    (Runs.run step (State.initial .oneFile) reusedAfterwards).isSome ∧
    (∀ pre, pre <+: reusedAfterwards → ∀ s, Runs.run step (State.initial .oneFile) pre = some s →
      DownloadQueueInvariant s) ∧
    ¬ ∀ pre, pre <+: reusedBefore → ∀ s, Runs.run step (State.initial .oneFile) pre = some s →
      DownloadQueueInvariant s :=
  ⟨by decide, (downloadQueue_invariant_iff .oneFile noSpurious_reusedAfterwards).2 (by decide),
    fun h => absurd ((downloadQueue_invariant_iff .oneFile noSpurious_reusedBefore).1 h)
      (by decide)⟩

/-- **A client that is waiting is not counted**: every download succeeds and nobody wakes up without
a cause, but a late client has taken itself off the count of the third one. -/
theorem waiting_uncounted :
    NoSpurious reusedBefore ∧
    (∀ action ∈ reusedBefore, ∀ j status, action = .downloader j status → status = 0) ∧
    ∃ s, Runs.run step (State.initial .oneFile) reusedBefore = some s ∧ 1 < s.allocated ∧
      (s.heap 1).freed = false ∧ s.receivers[2]? = some (.waiting 1) ∧
      (s.heap 1).subscribers = 0 ∧ s.receivers.countP (·.subscribes 1) = 1 := by
  refine ⟨noSpurious_reusedBefore, ?_, ?_⟩
  · simp [reusedBefore, twoLateClients, twoClients]
  · have hend : (Runs.run step (State.initial .oneFile) reusedBefore).map (fun s => (s.allocated,
        (s.heap 1).freed, s.receivers[2]?, (s.heap 1).subscribers,
        s.receivers.countP (·.subscribes 1))) = some (2, false, some (.waiting 1), 0, 1) := by
      decide
    obtain ⟨s, hs, heq⟩ := Option.map_eq_some_iff.1 hend
    simp only [Prod.mk.injEq] at heq
    obtain ⟨hallocated, hfreed, hwaiting, hsubscribers, hcount⟩ := heq
    exact ⟨s, hs, by omega, hfreed, hwaiting, hsubscribers, hcount⟩

end AwsS3fs
