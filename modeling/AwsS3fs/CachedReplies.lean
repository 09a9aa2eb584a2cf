/-
**What the clients are told about the cache.**

`ClientRequestsDownload` answers `OK` on two ways: if `Query_IsFileCached` says that the file is in
the cache, and after `ReceiveDownload` has returned.  The first answer is wrong for a path that has
no row, if the variable that the query returns happens not to be zero, and the second one for a
client that has woken up without a cause, because `ReceiveDownload` does not look whether the file
is there.  In every run without these two every `OK` is true.

Main definitions:

* `AwsS3fs.Caused` — a step is neither a wake-up without a cause, nor a query for a path that has no
  row, with a variable that is not zero;
* `AwsS3fs.Client.Truthful` — a request is on the way to a true answer, or has given one.

Main results:

* `AwsS3fs.truthful_transition` — every step keeps the answers true;
* `AwsS3fs.cached_of_ok` — **an answer `OK` is given for a file in the cache only**.
-/

import AwsS3fs.CacheClients

set_option relaxedAutoImplicit false
set_option autoImplicit false

namespace AwsS3fs

open CLib Threads

/-- No client wakes up without a cause, and the query for a path that was not found, which is a
query for the file `0`, finds its variable to be zero. -/
def Caused (c : Cache) : ClientAction → Cache → Prop
  | .transfer (.wakeReceiver _), _ => False
  | .check i cached, _ =>
      match c.clients[i]? with
      | some (.found _ _ fileId) => fileId = 0 → cached = 0
      | _ => True
  | _, _ => True

instance (c : Cache) (action : ClientAction) (c' : Cache) : Decidable (Caused c action c') := by
  unfold Caused
  split
  · infer_instance
  · split <;> infer_instance
  · infer_instance

/-- Where a request stands: a call of `ReceiveDownload` is in a subscription to the file or the file
is in the cache, and `OK` is the answer for a file in the cache. -/
def Client.Truthful (c : Cache) : Client → Prop
  | .receiving _ fileId receiver => ∃ r, c.queue.receivers[receiver]? = some r ∧
      (∀ a, r.subscribes a = true → (c.queue.heap a).fileId = fileId) ∧
      ((∀ a, r.subscribes a = false) → c.queue.db.Cached fileId)
  | .answering path .ok | .answered path .ok => c.Cached path
  | _ => True

variable {c c' : Cache} {action : ClientAction}

theorem Cache.Cached.mono {path : Bytes} (h : c.Cached path)
    (hnames : ∀ name ∈ c.names, name ∈ c'.names)
    (hgrow : Database.FilesGrow c.queue.db c'.queue.db) : c'.Cached path := by
  obtain ⟨fileId, hname, hcached⟩ := h
  exact ⟨fileId, hnames _ hname, hgrow.cached hcached⟩

theorem filesGrow_of_clientTransition (ht : ClientTransition c action c') :
    Database.FilesGrow c.queue.db c'.queue.db := by
  rcases queue_of_clientTransition ht with heq | ⟨a, hq, -⟩
  · exact Database.filesGrow_of_eq (by rw [heq])
  · exact filesGrow_of_transition hq

/-- Who leaves a subscription leaves one whose file is in the cache. -/
theorem cached_of_leaves {s : State} (hp : Placed s) (hl : Late s) (hd : Delivered s)
    {r : Receiver} (hr : r ∈ s.receivers) {a : ℕ} (ha : r.leaves a = true) :
    s.db.Cached (s.heap a).fileId :=
  hd.offQueue a (hp.subscribed hr (Receiver.subscribes_of_leaves ha)) (hl r hr a ha).1

/-- A call of `ReceiveDownload` goes on to a file in the cache. -/
theorem receiving_of_transition {s s' : State} {a : Action} (hp : Placed s) (hl : Late s)
    (hd : Delivered s) (ht : Transition s a s') {fileId : ℤ} {k : ℕ} {r : Receiver}
    (hr : s.receivers[k]? = some r)
    (hin : ∀ a, r.subscribes a = true → (s.heap a).fileId = fileId)
    (hout : (∀ a, r.subscribes a = false) → s.db.Cached fileId) :
    ∃ r', s'.receivers[k]? = some r' ∧
      (∀ a, r'.subscribes a = true → (s'.heap a).fileId = fileId) ∧
      ((∀ a, r'.subscribes a = false) → s'.db.Cached fileId) := by
  have hgrow := filesGrow_of_transition ht
  have hmem := List.mem_of_getElem? hr
  have hstay : ∀ a, r.subscribes a = true → (s'.heap a).fileId = fileId := by
    intro a ha
    rw [(fileId_of_transition ht).2 a (hp.subscribed hmem ha)]
    exact hin a ha
  obtain ⟨r', hr', hfollows⟩ := receiver_of_transition ht hr
  refine ⟨r', hr', ?_⟩
  rcases hfollows with rfl | ⟨a, ha, ha'⟩ | ⟨hnone, hwas⟩
  · exact ⟨hstay, fun hno => hgrow.cached (hout hno)⟩
  · refine ⟨fun b hb => ?_, fun hno => ?_⟩
    · have hab : b = a := by
        cases r' <;> simp_all [Receiver.subscribes]
      exact hab ▸ hstay a ha
    · rw [hno a] at ha'
      cases ha'
  · refine ⟨fun b hb => ?_, fun _ => hgrow.cached ?_⟩
    · rw [hnone b] at hb
      cases hb
    · rcases hwas with ⟨a, ha⟩ | hno
      · exact hin a (Receiver.subscribes_of_leaves ha) ▸ cached_of_leaves hp hl hd hmem ha
      · exact hout hno

/-- A request that takes no step keeps what it has. -/
theorem Client.Truthful.keep {client : Client} (h : client.Truthful c) (hcon : Consistent c)
    (hp : Placed c.queue) (hl : Late c.queue) (ht : ClientTransition c action c') :
    client.Truthful c' := by
  have hok : ∀ path, c.Cached path → c'.Cached path := fun path h =>
    h.mono (names_of_clientTransition ht) (filesGrow_of_clientTransition ht)
  match client, h with
  | .found _ _ _, _ => trivial
  | .missing _ _ _, _ => trivial
  | .receiving _ fileId k, ⟨r, hr, hin, hout⟩ =>
      rcases queue_of_clientTransition ht with heq | ⟨a, hq, -⟩
      · exact ⟨r, by rw [heq, hr], by rwa [heq], by rwa [heq]⟩
      · exact receiving_of_transition hp hl hcon.delivered hq hr hin hout
  | .answering path .ok, h => exact hok path h
  | .answering _ .error, _ => trivial
  | .answered path .ok, h => exact hok path h
  | .answered _ .error, _ => trivial

/-- What `ReceiveDownload` begins with: a call that is counted in a subscription to the file. -/
theorem receiver_of_receive {s s' : State} {fileId owner : ℤ} {reused : Option ℕ}
    (ht : Transition s (.receive fileId owner reused) s') :
    ∃ a, s'.receivers = s.receivers ++ [.subscribed a] ∧ (s'.heap a).fileId = fileId := by
  cases ht with
  | @join _ _ _ a hfree hfind =>
      have hfile := List.find?_some hfind
      refine ⟨a, rfl, (field_update Subscription.fileId (by rfl) a).trans ?_⟩
      exact of_decide_eq_true hfile
  | create => exact ⟨s.allocated, rfl, field_update_self Subscription.fileId _ _ _⟩

/-- **Every step keeps the answers true.** -/
theorem truthful_transition (h : ∀ client ∈ c.clients, client.Truthful c) (hcon : Consistent c)
    (hp : Placed c.queue) (hl : Late c.queue) (ht : ClientTransition c action c')
    (hcaused : Caused c action c') : ∀ client ∈ c'.clients, client.Truthful c' := by
  have hkeep : ∀ client ∈ c.clients, client.Truthful c' := fun client hmem =>
    (h client hmem).keep hcon hp hl ht
  have hset : ∀ i client, c'.clients = c.clients.set i client → client.Truthful c' →
      ∀ client' ∈ c'.clients, client'.Truthful c' := by
    intro i client hclients hnew client' hmem
    rw [hclients] at hmem
    rcases List.mem_or_eq_of_mem_set hmem with hmem | rfl
    · exact hkeep client' hmem
    · exact hnew
  cases ht with
  | request path owner =>
      intro client hmem
      rcases List.mem_append.1 hmem with hmem | hmem
      · exact hkeep client hmem
      · rw [List.mem_singleton.1 hmem]
        trivial
  | @check i path owner fileId cached hi =>
      refine hset i _ rfl ?_
      unfold Cache.check
      split
      · rename_i hyes
        rcases hcon.looked _ (List.mem_of_getElem? hi) with rfl | hname
        · -- there is no row with the number `0`, and the variable is zero
          have hunknown : ¬ c.queue.db.Known 0 := by
            rintro ⟨r, hr, hid⟩
            have := hcon.named.positive r hr
            omega
          simp only [Caused, hi] at hcaused
          rw [Database.isFileCached_of_not_known hunknown, hcaused trivial] at hyes
          cases hyes
        · exact ⟨fileId, hname, Database.cached_of_isFileCached (hcon.named.known _ hname) hyes⟩
      · split <;> trivial
  | @receive i path owner fileId reused q hi hq =>
      refine hset i _ rfl ?_
      obtain ⟨a, hreceivers, hfile⟩ := receiver_of_receive hq
      refine ⟨.subscribed a, ?_, fun b hb => ?_, fun hno => ?_⟩
      · change q.receivers[c.queue.receivers.length]? = some (.subscribed a)
        rw [hreceivers, List.getElem?_concat_length]
      · obtain rfl : a = b := by simpa [Receiver.subscribes] using hb
        exact hfile
      · simpa [Receiver.subscribes] using hno a
  | @reply i path reply hi =>
      refine hset i _ rfl ?_
      have hold := hkeep _ (List.mem_of_getElem? hi)
      cases reply with
      | ok => exact hold
      | error => trivial
  | @replyReceived i receiver path fileId hi hdone =>
      refine hset i _ rfl ?_
      obtain ⟨r, hr, -, hout⟩ := h _ (List.mem_of_getElem? hi)
      obtain rfl : r = .done := Option.some.inj (hr.symm.trans hdone)
      exact ⟨fileId, hcon.looked _ (List.mem_of_getElem? hi), hout fun _ => rfl⟩
  | create => exact hkeep
  | transfer => exact hkeep

/-- **An answer `OK` is given for a file in the cache only**: in every run in which no client wakes
up without a cause, and in which the query for a path without a row finds its variable to be zero, a
client that was told `OK` asked for a path that has a row with the flag. -/
theorem cached_of_ok {names : List (Bytes × ℤ)} {db : Database} (hnamed : Named names db)
    {actions : List ClientAction} {c : Cache}
    (hrun : Runs.run clientStep (Cache.initial names db) actions = some c)
    (hcaused : Runs.Along clientStep Caused (Cache.initial names db) actions) :
    ∀ path, .answered path .ok ∈ c.clients → c.Cached path := by
  have hkeep : ∀ c action c', (Consistent c ∧ Placed c.queue ∧ Late c.queue ∧
      ∀ client ∈ c.clients, client.Truthful c) → Caused c action c' →
      clientStep c action = some c' → Consistent c' ∧ Placed c'.queue ∧ Late c'.queue ∧
        ∀ client ∈ c'.clients, client.Truthful c' := by
    intro c action c' ⟨hcon, hp, hl, htrue⟩ hcaused hs
    have ht := clientTransition_of_step hs
    refine ⟨hcon.transition ht, ?_, ?_, truthful_transition htrue hcon hp hl ht hcaused⟩
    · rcases queue_of_clientTransition ht with heq | ⟨a, hq, -⟩
      · exact heq ▸ hp
      · exact hp.transition hcon.queued hq
    · rcases queue_of_clientTransition ht with heq | ⟨a, hq, -, hwake⟩
      · exact heq ▸ hl
      · refine hl.transition hcon.queued hp hq fun i ha => ?_
        rw [hwake i ha] at hcaused
        exact hcaused
  have hstart : ∀ client ∈ (Cache.initial names db).clients,
      client.Truthful (Cache.initial names db) := by simp [Cache.initial]
  obtain ⟨-, -, -, htrue⟩ := Runs.run_inv hkeep
    ⟨consistent_initial hnamed, placed_initial db, late_initial db, hstart⟩ hcaused hrun
  exact fun path hmem => htrue _ hmem

/-- A client asks for the file and is answered when it has been downloaded. -/
def oneRequest : List ClientAction :=
  [.request (ascii "/dir/a") 1000, .check 0 5, .receive 0 none, .transfer (.receiver 0),
    .transfer (.receiver 0), .transfer (.processor 0 0), .transfer (.processor 0 0),
    .transfer (.processor 1 0), .transfer (.downloader 0 0), .transfer (.downloader 0 0),
    .transfer (.downloader 0 0), .transfer (.downloader 0 0), .transfer (.downloader 0 0),
    .transfer (.downloader 0 0), .transfer (.downloader 0 0), .transfer (.receiver 0),
    .transfer (.receiver 0), .transfer (.receiver 0), .reply 0]

/-- The file is in the cache when the client is told so. -/
theorem cached_oneRequest :
    ∃ c, Runs.run clientStep (Cache.initial oneName .oneFile) oneRequest = some c ∧
      c.clients = [.answered (ascii "/dir/a") .ok] ∧ c.Cached (ascii "/dir/a") := by
  have hend : (Runs.run clientStep (Cache.initial oneName .oneFile) oneRequest).map (·.clients) =
      some [.answered (ascii "/dir/a") .ok] := by decide
  obtain ⟨c, hc, hclients⟩ := Option.map_eq_some_iff.1 hend
  refine ⟨c, hc, hclients, cached_of_ok named_oneName hc (by decide) _ ?_⟩
  rw [hclients]
  exact List.mem_singleton_self _

/-- **A client is told `OK` for a file that does not exist**: the path has no row, and the variable
is not zero. -/
theorem ok_without_row :
    Named oneName .oneFile ∧
    ∃ c, Runs.run clientStep (Cache.initial oneName .oneFile)
        [.request (ascii "/dir/b") 1000, .check 0 1, .reply 0] = some c ∧
      c.clients = [.answered (ascii "/dir/b") .ok] ∧ ¬ c.Cached (ascii "/dir/b") := by
  refine ⟨named_oneName, _, rfl, rfl, ?_⟩
  rintro ⟨fileId, hname, -⟩
  have hne : ascii "/dir/b" ≠ ascii "/dir/a" := by decide
  exact hne (congrArg Prod.fst (List.mem_singleton.1 hname))

end AwsS3fs
