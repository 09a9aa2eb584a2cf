/-
**How long a subscription lives.**

A download that has broadcast waits until the last subscriber has acknowledged, and frees the
subscription.  It waits for a minute at most: who has not answered by then is taken for dead, and
the subscription is freed whether all threads have acknowledged or not.  This module is about the
downloads whose wait is ended by the acknowledgement, and about what the clients still have to do
with the subscription when it is freed.

The count of the subscribers is read without the main mutex, and so it can be read between the last
decrement and the signal that follows it.  What is proved here is about the downloads that do not
read it there, and about subscriptions that were not put where a late client still had to
unsubscribe from an earlier one: that client takes itself off their count.

Main definitions:

* `AwsS3fs.State.used` — the subscription of which a call still has to read or lock a field;
* `AwsS3fs.Acknowledged` — who is about to acknowledge has set the count to zero;
* `AwsS3fs.Own` — a subscription is used by those only that have joined it;
* `AwsS3fs.Patient` — a step is not the end of the timed wait of a download, nor its look at the
  count while the last subscriber is about to acknowledge, and does not put its subscription where
  one is still used.

Main results:

* `AwsS3fs.Unused.transition` — what every transition does to the users of a subscription;
* `AwsS3fs.unused_of_patient` — **a subscription is freed when nobody uses it any more**.
-/

import AwsS3fs.DownloadQueue

set_option relaxedAutoImplicit false
set_option autoImplicit false

namespace AwsS3fs

open Threads

variable {s s' : State} {action : Action}

/-- The subscription of which a call of `ReceiveDownload` still has to read or lock a field: the one
that its pointer leads to. -/
def State.used (s : State) (r : Receiver) : Option ℕ := r.pointer.map s.current

/-- The subscription that a call is about to acknowledge. -/
def Receiver.acknowledges : Receiver → Option ℕ
  | .acknowledging a => some a
  | _ => none

theorem Receiver.pointer_iff {r : Receiver} {a : ℕ} :
    r.pointer = some a ↔ r.subscribes a = true ∨ r = .acknowledging a := by
  cases r <;> simp [Receiver.pointer, Receiver.subscribes]

/-- What a call uses. -/
theorem used_eq_some_iff {r : Receiver} {n : ℕ} :
    s.used r = some n ↔ ∃ a, r.pointer = some a ∧ s.current a = n := Option.map_eq_some_iff

/-! ### The last subscriber -/

/-- Who is about to acknowledge has set the count to zero. -/
def Acknowledged (s : State) : Prop :=
  ∀ a, .acknowledging a ∈ s.receivers → (s.heap (s.current a)).subscribers = 0

/-- Nobody is about to acknowledge while the main mutex is free. -/
theorem not_acknowledging (hx : Exclusive s) (hfree : s.mainLoop = none) (a : ℕ) :
    .acknowledging a ∉ s.receivers := by
  intro hmem
  obtain ⟨i, hi⟩ := List.mem_iff_getElem?.1 hmem
  have := hx.none_of_free hfree (.receiver i)
  rw [State.holdsMain, hi] at this
  cases this

/-- There is at most one that is about to acknowledge. -/
theorem acknowledging_unique (hx : Exclusive s) {i k a b : ℕ}
    (hi : s.receivers[i]? = some (.acknowledging a))
    (hk : s.receivers[k]? = some (.acknowledging b)) : i = k := by
  have hi' := hx (.receiver i) (by rw [State.holdsMain, hi]; rfl)
  have hk' := hx (.receiver k) (by rw [State.holdsMain, hk]; rfl)
  simpa using hi'.symm.trans hk'

namespace Acknowledged

/-- A transition after which only those are about to acknowledge that were so before. -/
theorem frame (h : Acknowledged s)
    (hreceivers : ∀ a, .acknowledging a ∈ s'.receivers → .acknowledging a ∈ s.receivers)
    (hcurrent : s'.current = s.current)
    (hsubscribers : ∀ a, (s'.heap a).subscribers = (s.heap a).subscribers) : Acknowledged s' := by
  intro a ha
  rw [hcurrent, hsubscribers]
  exact h a (hreceivers a ha)

theorem of_set {i a : ℕ} {r : Receiver} (hr : r ≠ .acknowledging a)
    (hmem : .acknowledging a ∈ s.receivers.set i r) : .acknowledging a ∈ s.receivers := by
  rcases List.mem_or_eq_of_mem_set hmem with hmem | heq
  · exact hmem
  · exact absurd heq.symm hr

/-- **Every transition keeps it.** -/
theorem transition (h : Acknowledged s) (hx : Exclusive s) (ht : Transition s action s') :
    Acknowledged s' := by
  cases ht with
  | join hfree | create hfree =>
      intro a ha
      rcases List.mem_append.1 ha with ha | ha
      · exact absurd ha (not_acknowledging hx hfree a)
      · cases List.mem_singleton.1 ha
  | arm hr | wait hr =>
      exact h.frame (fun a => of_set (by simp)) rfl (field_update Subscription.subscribers rfl)
  | leave hr | wakeReceiver hr => exact h.frame (fun a => of_set (by simp)) rfl fun _ => rfl
  | unsubscribe hr hfree | unsubscribeNone hr hfree =>
      intro a ha
      exact absurd (of_set (by simp) ha) (not_acknowledging hx hfree a)
  | @unsubscribeLast i a hr hfree hsub hlast =>
      intro b hb
      rcases List.mem_or_eq_of_mem_set hb with hb | heq
      · exact absurd hb (not_acknowledging hx hfree b)
      · cases heq
        exact (field_update_self Subscription.subscribers _ _ _).trans hlast
  | acknowledge hr => exact h.frame (fun a => of_set (by simp)) rfl fun _ => rfl
  | @broadcast j d status hd hstage hwait =>
      refine h.frame (fun a ha => ?_) rfl (field_update Subscription.subscribers rfl)
      obtain ⟨r, hr, heq⟩ := List.mem_map.1 ha
      split at heq
      · cases heq
      · exact heq ▸ hr
  | startDownload | lockAcknowledge | unlockAcknowledge | free =>
      exact h.frame (fun _ ha => ha) rfl (field_update Subscription.subscribers rfl)
  | _ => exact h

end Acknowledged

theorem acknowledged_initial (db : Database) : Acknowledged (State.initial db) := by
  simp [Acknowledged, State.initial]

/-! ### The users of a subscription -/

/-- The stages of a download that waits no more for an acknowledgement. -/
def DownloadStage.released : DownloadStage → Bool
  | .woken | .freeing | .exited => true
  | _ => false

/-- A step is neither the end of the timed wait of a download, nor its look at the count of the
subscribers while the last one is about to acknowledge, and does not put its subscription `n` where
one is still used. -/
def Patient (j n : ℕ) (s : State) : Action → State → Prop
  | .expire k, _ => k ≠ j
  | .downloader k _, _ => k = j → ∀ d ∈ s.downloaders[j]?, d.stage = .completed →
      ∀ r ∈ s.receivers, r.acknowledges.map s.current ≠ some d.address
  | .receive _ _ reused, _ => s.allocated = n → ∀ b ∈ reused, ∀ r ∈ s.receivers, s.used r ≠ some b
  | _, _ => True

instance (j n : ℕ) (s : State) (action : Action) (s' : State) :
    Decidable (Patient j n s action s') := by
  cases action <;> unfold Patient <;> infer_instance

/-- A subscription is used by those only that have joined it. -/
def Own (n : ℕ) (s : State) : Prop :=
  n < s.allocated → ∀ r ∈ s.receivers, s.used r = some n → r.pointer = some n

namespace Own

variable {n : ℕ}

/-- A transition that creates no subscription, and at which a call only gets a pointer to one that
is where it was. -/
theorem frame (h : Own n s) (hallocated : s'.allocated = s.allocated)
    (hcurrent : s'.current = s.current)
    (hreceivers : ∀ r' ∈ s'.receivers, ∀ a, r'.pointer = some a →
      (∃ r ∈ s.receivers, r.pointer = some a) ∨ s.current a = a) : Own n s' := by
  intro hn r' hr' hused
  rw [hallocated] at hn
  obtain ⟨a, ha, hlead⟩ := used_eq_some_iff.1 hused
  rw [hcurrent] at hlead
  rcases hreceivers r' hr' a ha with ⟨r, hr, hpointer⟩ | hself
  · have := h hn r hr (used_eq_some_iff.2 ⟨a, hpointer, hlead⟩)
    rwa [ha, ← hpointer]
  · rw [ha, ← hlead, hself]

/-- A call goes on with the pointer that it had, or without. -/
theorem frame_receiver (h : Own n s) {i : ℕ} {q r : Receiver} (hq : s.receivers[i]? = some q)
    (hset : s'.receivers = s.receivers.set i r)
    (hr : ∀ a, r.pointer = some a → q.pointer = some a) (hallocated : s'.allocated = s.allocated)
    (hcurrent : s'.current = s.current) : Own n s' := by
  refine h.frame hallocated hcurrent fun r' hr' a ha => .inl ?_
  rw [hset] at hr'
  rcases List.mem_or_eq_of_mem_set hr' with hr' | rfl
  · exact ⟨r', hr', ha⟩
  · exact ⟨q, List.mem_of_getElem? hq, hr a ha⟩

/-- A subscription is created: if it is this one, nobody uses what was there. -/
theorem create (h : Own n s) (hp : Placed s) (fileId owner : ℤ) {reused : Option ℕ}
    (hunused : s.allocated = n → ∀ b ∈ reused, ∀ r ∈ s.receivers, s.used r ≠ some b) :
    Own n (s.create fileId owner reused) := by
  intro hn r hr hused
  obtain ⟨a, ha, hlead⟩ := used_eq_some_iff.1 hused
  change (if reused = some (s.current a) then s.allocated else s.current a) = n at hlead
  rcases List.mem_append.1 hr with hr | hr
  · have hbound := hp.bound a (hp.pointer r hr a ha)
    split at hlead
    · rename_i hreused
      exact absurd (used_eq_some_iff.2 ⟨a, ha, rfl⟩) (hunused hlead _ hreused r hr)
    · exact h (hlead ▸ hbound) r hr (used_eq_some_iff.2 ⟨a, ha, hlead⟩)
  · -- the call that creates it has a pointer to no other one
    rw [List.mem_singleton.1 hr] at ha ⊢
    cases ha
    rw [hp.fresh _ le_rfl, ite_self] at hlead
    exact congrArg some hlead

/-- **Every transition keeps it** that does not put the subscription where one is still used. -/
theorem transition {j : ℕ} (h : Own n s) (hq : Queued s) (hp : Placed s)
    (ht : Transition s action s') (hpatient : Patient j n s action s') : Own n s' := by
  cases ht with
  | @join fileId owner reused a hfree hfind =>
      refine h.frame rfl rfl fun r hr b hb => ?_
      rcases List.mem_append.1 hr with hr | hr
      · exact .inl ⟨r, hr, hb⟩
      · have hmem := List.mem_of_find?_eq_some hfind
        rw [List.mem_singleton.1 hr] at hb
        cases hb
        exact .inr (hp.own a (hq.bound a hmem) (hp.queue a hmem))
  | create => exact h.create hp _ _ hpatient
  | arm hr | wait hr | leave hr | unsubscribeLast hr | wakeReceiver hr =>
      exact h.frame_receiver hr rfl (fun _ ha => ha) rfl rfl
  | unsubscribe hr | unsubscribeNone hr | acknowledge hr =>
      exact h.frame_receiver hr rfl (fun _ ha => by cases ha) rfl rfl
  | broadcast =>
      refine h.frame rfl rfl fun r' hr' a ha => .inl ?_
      obtain ⟨r, hr, rfl⟩ := List.mem_map.1 hr'
      refine ⟨r, hr, ?_⟩
      split at ha <;> simp_all [Receiver.pointer]
  | _ => exact h

/-- If the count of a subscription is zero, whoever uses it is about to acknowledge. -/
theorem acknowledging_of_used (h : Own n s) (hc : Counted n s) (hn : n < s.allocated)
    (hnot : (s.heap n).freed = false) (hzero : (s.heap n).subscribers = 0) {r : Receiver}
    (hr : r ∈ s.receivers) (hused : s.used r = some n) : r = .acknowledging n := by
  rcases Receiver.pointer_iff.1 (h hn r hr hused) with hsub | hack
  · have hpos : 0 < s.receivers.countP (·.subscribes n) := List.countP_pos_iff.2 ⟨r, hr, hsub⟩
    have := hc hn hnot
    omega
  · exact hack

/-- Nobody but those that have joined a subscription takes himself off its count. -/
theorem counted {i b : ℕ} (h : Own n s) (hn : n < s.allocated)
    (hr : s.receivers[i]? = some (.unsubscribing b)) (hlead : s.current b = n) : b = n := by
  have := h hn _ (List.mem_of_getElem? hr) (used_eq_some_iff.2 ⟨b, rfl, hlead⟩)
  exact Option.some.inj this

end Own

theorem own_initial (n : ℕ) (db : Database) : Own n (State.initial db) :=
  fun hn => absurd hn (Nat.not_lt_zero n)

/-- Nobody uses the subscription `n` of a download that waits no more for an acknowledgement. -/
def Unused (j n : ℕ) (s : State) : Prop :=
  ∀ d, s.downloaders[j]? = some d → d.address = n → d.stage.released = true →
    ∀ r ∈ s.receivers, r.pointer ≠ some n ∧ s.used r ≠ some n

namespace Unused

variable {j n : ℕ}

/-- A transition that ends no wait of the download, and after which every new user of a subscription
has found it in the queue. -/
theorem frame (h : Unused j n s) (hq : Queued s) (hp : Placed s)
    (hcurrent : s'.current = s.current)
    (hreceivers : ∀ r' ∈ s'.receivers, ∀ a, r'.pointer = some a →
      (∃ r ∈ s.receivers, r.pointer = some a) ∨ a ∈ s.downloadQueue)
    (hdownloaders : ∀ d', s'.downloaders[j]? = some d' → d'.stage.released = true →
      ∃ d, s.downloaders[j]? = some d ∧ d.address = d'.address ∧ d.stage.released = true) :
    Unused j n s' := by
  rintro d' hd' rfl hreleased r' hr'
  obtain ⟨d, hd, haddress, hstage⟩ := hdownloaders d' hd' hreleased
  have hnew : ∀ a ∈ s.downloadQueue, a ≠ d'.address := by
    rintro a ha rfl
    -- a download that has been off the queue since it finished
    rw [← haddress, hq.onQueue d (List.mem_of_getElem? hd)] at ha
    cases hs : d.stage <;> simp_all [DownloadStage.released, DownloadStage.onQueue]
  have hlead : ∀ a, r'.pointer = some a → a ≠ d'.address ∧ s.current a ≠ d'.address := by
    intro a ha
    rcases hreceivers r' hr' a ha with ⟨r, hr, hpointer⟩ | hqueue
    · obtain ⟨hself, hused⟩ := h d hd haddress hstage r hr
      exact ⟨fun heq => hself (heq ▸ hpointer),
        fun heq => hused (used_eq_some_iff.2 ⟨a, hpointer, heq⟩)⟩
    · rw [hp.own a (hq.bound a hqueue) (hp.queue a hqueue)]
      exact ⟨hnew a hqueue, hnew a hqueue⟩
  refine ⟨fun ha => (hlead _ ha).1 rfl, fun hused => ?_⟩
  obtain ⟨a, ha, heq⟩ := used_eq_some_iff.1 hused
  rw [hcurrent] at heq
  exact (hlead a ha).2 heq

/-- A call goes on that uses nothing else than before. -/
theorem frame_receiver (h : Unused j n s) (hq : Queued s) (hp : Placed s) {i : ℕ} {q r : Receiver}
    (hqi : s.receivers[i]? = some q) (hset : s'.receivers = s.receivers.set i r)
    (hdownloaders : s'.downloaders = s.downloaders) (hcurrent : s'.current = s.current)
    (hr : ∀ a, r.pointer = some a → q.pointer = some a) : Unused j n s' := by
  refine h.frame hq hp hcurrent (fun r' hr' a ha => .inl ?_)
    fun d hd hstage => ⟨d, hdownloaders ▸ hd, rfl, hstage⟩
  rw [hset] at hr'
  rcases List.mem_or_eq_of_mem_set hr' with hr' | rfl
  · exact ⟨r', hr', ha⟩
  · exact ⟨q, List.mem_of_getElem? hqi, hr a ha⟩

/-- A download goes on, but its wait does not end. -/
theorem frame_downloader (h : Unused j n s) (hq : Queued s) (hp : Placed s) {k : ℕ} {d : Downloader}
    {stage : DownloadStage} (hd : s.downloaders[k]? = some d)
    (hstage : k = j → stage.released = true → d.stage.released = true)
    (hreceivers : s'.receivers = s.receivers) (hcurrent : s'.current = s.current)
    (hset : s'.downloaders = s.downloaders.set k { d with stage := stage }) : Unused j n s' := by
  refine h.frame hq hp hcurrent (hreceivers ▸ fun r hr a ha => .inl ⟨r, hr, ha⟩)
    fun d' hd' hreleased => ?_
  rw [hset] at hd'
  rcases of_getElem?_set hd' with ⟨rfl, rfl⟩ | ⟨-, hd'⟩
  · exact ⟨d, hd, rfl, hstage rfl hreleased⟩
  · exact ⟨d', hd', rfl, hreleased⟩

/-- A new subscription is another one, wherever it is put. -/
theorem create (h : Unused j n s) (hq : Queued s) (hp : Placed s) (fileId owner : ℤ)
    (reused : Option ℕ) : Unused j n (s.create fileId owner reused) := by
  rintro d hd rfl hreleased r hr
  have hbound : d.address < s.allocated :=
    hq.started_bound _ (List.mem_map_of_mem (List.mem_of_getElem? hd))
  have hlead : ∀ a, s.current a ≠ d.address →
      (s.create fileId owner reused).current a ≠ d.address := by
    intro a ha
    change (if reused = some (s.current a) then s.allocated else s.current a) ≠ d.address
    split
    · exact hbound.ne'
    · exact ha
  rcases List.mem_append.1 hr with hr | hr
  · obtain ⟨hself, hused⟩ := h d hd rfl hreleased r hr
    refine ⟨hself, fun heq => ?_⟩
    obtain ⟨a, ha, heq⟩ := used_eq_some_iff.1 heq
    exact hlead a (fun hsame => hused (used_eq_some_iff.2 ⟨a, ha, hsame⟩)) heq
  · rw [List.mem_singleton.1 hr]
    refine ⟨fun heq => hbound.ne' (Option.some.inj heq), fun heq => ?_⟩
    refine hlead s.allocated ?_ (Option.some.inj heq)
    rw [hp.fresh _ le_rfl]
    exact hbound.ne'

/-- A download whose subscription has the count zero, while nobody is about to acknowledge it:
nobody uses the subscription. -/
theorem of_zero (hq : Queued s) (hp : Placed s) (hc : Counted n s) (hown : Own n s) {d : Downloader}
    (hd : d ∈ s.downloaders) (haddress : d.address = n) (hstage : d.stage ≠ .exited)
    (hzero : (s.heap n).subscribers = 0) {r : Receiver} (hr : r ∈ s.receivers)
    (hnot : r ≠ .acknowledging n) : r.pointer ≠ some n ∧ s.used r ≠ some n := by
  have hn : n < s.allocated := haddress ▸ hq.started_bound _ (List.mem_map_of_mem hd)
  have hfreed : (s.heap n).freed = false := haddress ▸ hp.download d hd hstage
  have hused : s.used r ≠ some n :=
    fun hused => hnot (hown.acknowledging_of_used hc hn hfreed hzero hr hused)
  exact ⟨fun hpointer => hused (used_eq_some_iff.2 ⟨n, hpointer, hp.own n hn hfreed⟩), hused⟩

/-- The last subscriber acknowledges: the count is zero, and nobody else is about to. -/
theorem acknowledge (h : Unused j n s) (hx : Exclusive s) (hq : Queued s) (hp : Placed s)
    (hc : Counted n s) (hown : Own n s) (hack : Acknowledged s) {i a : ℕ}
    (hr : s.receivers[i]? = some (.acknowledging a)) : Unused j n (s.acknowledge i a) := by
  intro d' hd' haddress hreleased r hr'
  rw [State.acknowledge, List.getElem?_map, Option.map_eq_some_iff] at hd'
  obtain ⟨d, hd, rfl⟩ := hd'
  obtain ⟨k, hk⟩ := List.mem_iff_getElem?.1 hr'
  rcases of_getElem?_set hk with ⟨-, rfl⟩ | ⟨hki, hk⟩
  · constructor <;> intro huses <;> cases huses
  by_cases hwait : d.address = s.current a ∧ d.stage = .waiting
  · rw [if_pos hwait] at haddress
    have hlead : s.current a = n := hwait.1.symm.trans haddress
    refine of_zero hq hp hc hown (List.mem_of_getElem? hd) haddress (by rw [hwait.2]; simp)
      (hlead ▸ hack a (List.mem_of_getElem? hr)) (List.mem_of_getElem? hk) ?_
    rintro rfl
    exact hki (acknowledging_unique hx hk hr)
  · rw [if_neg hwait] at haddress hreleased
    exact h d hd haddress hreleased r (List.mem_of_getElem? hk)

/-- The download looks at the count while nobody is about to acknowledge. -/
theorem unlockAcknowledge (h : Unused j n s) (hq : Queued s) (hp : Placed s) (hc : Counted n s)
    (hown : Own n s) {k : ℕ} {d : Downloader} (hd : s.downloaders[k]? = some d)
    (hstage : d.stage = .completed)
    (hnot : k = j → ∀ r ∈ s.receivers, r.acknowledges.map s.current ≠ some d.address) :
    Unused j n (s.unlockAcknowledge k d) := by
  by_cases hk : k = j
  · intro d' hd' haddress hreleased r hr
    rcases of_getElem?_set hd' with ⟨-, rfl⟩ | ⟨hne, -⟩
    · have haddress : d.address = n := haddress
      have hzero : (s.heap n).subscribers = 0 := by
        by_contra hne
        rw [haddress, if_pos hne] at hreleased
        cases hreleased
      have hmem := List.mem_of_getElem? hd
      refine of_zero hq hp hc hown hmem haddress (by rw [hstage]; simp) hzero hr ?_
      rintro rfl
      refine hnot hk _ hr ?_
      have hfreed := hp.download d hmem (by rw [hstage]; simp)
      rw [Receiver.acknowledges, Option.map_some, ← haddress,
        hp.own _ (hq.started_bound _ (List.mem_map_of_mem hmem)) hfreed]
    · exact absurd hk.symm hne
  · exact h.frame_downloader hq hp hd (fun hkj => absurd hkj hk) rfl rfl rfl

/-- **What every transition does to the users of a subscription**, if it is not the end of the timed
wait and the count is not read while the last subscriber is about to acknowledge. -/
theorem transition (h : Unused j n s) (hx : Exclusive s) (hq : Queued s) (hp : Placed s)
    (hc : Counted n s) (hown : Own n s) (hack : Acknowledged s) (ht : Transition s action s')
    (hpatient : Patient j n s action s') : Unused j n s' := by
  cases ht with
  | @join fileId owner reused a hfree hfind =>
      refine h.frame hq hp rfl (fun r hr b hb => ?_) fun d hd hstage => ⟨d, hd, rfl, hstage⟩
      rcases List.mem_append.1 hr with hr | hr
      · exact .inl ⟨r, hr, hb⟩
      · rw [List.mem_singleton.1 hr] at hb
        cases hb
        exact .inr (List.mem_of_find?_eq_some hfind)
  | create => exact h.create hq hp _ _ _
  | arm hr | wait hr | leave hr | unsubscribeLast hr | wakeReceiver hr =>
      exact h.frame_receiver hq hp hr rfl rfl rfl fun _ ha => ha
  | unsubscribe hr | unsubscribeNone hr =>
      exact h.frame_receiver hq hp hr rfl rfl rfl fun _ ha => by cases ha
  | acknowledge hr => exact h.acknowledge hx hq hp hc hown hack hr
  | @startDownload slot choice a hp' hready hfile hget =>
      refine h.frame hq hp rfl (fun r hr a ha => .inl ⟨r, hr, ha⟩) fun d hd hreleased => ?_
      rcases of_getElem?_append hd with hd | ⟨-, rfl⟩
      · exact ⟨d, hd, rfl, hreleased⟩
      · cases hreleased
  | prepare hd | transferred hd | failDownload hd | grant hd | finish hd | lockAcknowledge hd =>
      exact h.frame_downloader hq hp hd (fun _ hstage => by cases hstage) rfl rfl rfl
  | @broadcast k d status hd hstage hwait =>
      refine h.frame hq hp rfl (fun r' hr' a ha => .inl ?_) fun d' hd' hreleased => ?_
      · obtain ⟨r, hr, rfl⟩ := List.mem_map.1 hr'
        refine ⟨r, hr, ?_⟩
        split at ha <;> simp_all [Receiver.pointer]
      · rcases of_getElem?_set hd' with ⟨-, rfl⟩ | ⟨-, hd'⟩
        · cases hreleased
        · exact ⟨d', hd', rfl, hreleased⟩
  | unlockAcknowledge hd hstage =>
      refine h.unlockAcknowledge hq hp hc hown hd hstage fun hk => ?_
      exact hpatient hk _ (hk ▸ hd) hstage
  | acknowledged hd hstage | free hd hstage =>
      exact h.frame_downloader hq hp hd (fun _ _ => by rw [hstage]; rfl) rfl rfl rfl
  | expire hd => exact h.frame_downloader hq hp hd (fun hk => absurd hk hpatient) rfl rfl rfl
  | _ => exact h

end Unused

theorem unused_initial (j n : ℕ) (db : Database) : Unused j n (State.initial db) := by
  simp [Unused, State.initial]

/-! ### Every run -/

/-- **A subscription is freed when nobody uses it any more**: a download that is about to free its
subscription, or has freed it, after a run in which its timed wait has not come to its end, in which
it has not looked at the count while the last subscriber was about to acknowledge, and in which its
subscription was not put where one was still used, has no client left that reads or locks a field of
it.  Clients may wake up without a cause, and be as late as they like. -/
theorem unused_of_patient {db : Database} {actions : List Action} {s : State} {j : ℕ}
    {d : Downloader} (hrun : Runs.run step (State.initial db) actions = some s)
    (hpatient : Runs.Along step (Patient j d.address) (State.initial db) actions)
    (hd : s.downloaders[j]? = some d) (hstage : d.stage = .freeing ∨ d.stage = .exited) :
    ∀ r ∈ s.receivers, r.pointer ≠ some d.address ∧ s.used r ≠ some d.address := by
  have hkeep : ∀ s action s',
      (Exclusive s ∧ Queued s ∧ Placed s ∧ Counted d.address s ∧ Own d.address s ∧
        Acknowledged s ∧ Unused j d.address s) → Patient j d.address s action s' →
        step s action = some s' →
        Exclusive s' ∧ Queued s' ∧ Placed s' ∧ Counted d.address s' ∧ Own d.address s' ∧
          Acknowledged s' ∧ Unused j d.address s' := by
    intro s action s' ⟨hx, hq, hp, hc, hown, hack, hunused⟩ hpatient hs
    have ht := transition_of_step hs
    refine ⟨hx.transition ht, hq.transition ht, hp.transition hq ht, ?_,
      hown.transition hq hp ht hpatient, hack.transition hx ht,
      hunused.transition hx hq hp hc hown hack ht hpatient⟩
    refine hc.transition hp ht fun i b _ hr hlead => .inl (hown.counted ?_ hr hlead)
    exact hlead ▸ hp.bound b (hp.pointer _ (List.mem_of_getElem? hr) b rfl)
  obtain ⟨-, -, -, -, -, -, hunused⟩ := Runs.run_inv hkeep ⟨exclusive_initial db,
    queued_initial db, placed_initial db, counted_initial db _, own_initial _ db,
    acknowledged_initial db, unused_initial j _ db⟩ hpatient hrun
  refine hunused d hd rfl ?_
  rcases hstage with hstage | hstage <;> rw [hstage] <;> rfl

/-- The third client has its subscription where that of two others was freed, after both have left,
and leaves itself after the broadcast. -/
def thirdClientLeaves : List Action :=
  reusedAfterwards ++ [.processor 0 0, .processor 0 0, .processor 0 0, .processor 1 0,
    .downloader 1 0, .downloader 1 0, .downloader 1 0, .downloader 1 0, .downloader 1 0,
    .downloader 1 0, .downloader 1 0, .receiver 2, .receiver 2, .receiver 2, .downloader 1 0]

/-- The second download has been acknowledged, and nobody uses its subscription. -/
theorem unused_thirdClient :
    ∃ s, Runs.run step (State.initial .oneFile) thirdClientLeaves = some s ∧
      s.downloaders[1]? = some ⟨0, 1, .freeing⟩ ∧
      ∀ r ∈ s.receivers, r.pointer ≠ some 1 ∧ s.used r ≠ some 1 := by
  have hend : (Runs.run step (State.initial .oneFile) thirdClientLeaves).map (·.downloaders[1]?) =
      some (some ⟨0, 1, .freeing⟩) := by decide +kernel
  obtain ⟨s, hs, hd⟩ := Option.map_eq_some_iff.1 hend
  exact ⟨s, hs, hd, unused_of_patient (d := ⟨0, 1, .freeing⟩) hs (by decide +kernel) hd (.inl rfl)⟩

/-- **A subscription is freed under a late subscriber**: both clients have been woken by the
broadcast, but a minute passes before they go on. -/
theorem freed_while_used :
    ∃ s, Runs.run step (State.initial .oneFile) twoLateClients = some s ∧
      (s.heap 0).freed = true ∧ s.receivers = [.woken 0, .woken 0] ∧
      s.used (.woken 0) = some 0 := by
  have hend : (Runs.run step (State.initial .oneFile) twoLateClients).map
      (fun s => ((s.heap 0).freed, s.receivers, s.used (.woken 0))) =
      some (true, [.woken 0, .woken 0], some 0) := by decide
  obtain ⟨s, hs, heq⟩ := Option.map_eq_some_iff.1 hend
  simp only [Prod.mk.injEq] at heq
  exact ⟨s, hs, heq.1, heq.2.1, heq.2.2⟩

end AwsS3fs
