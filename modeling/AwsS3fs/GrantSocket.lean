/-
**The socket to the permissions grant process.**

The transfers of `AwsS3fs/TransferQueue.lean` share one datagram socket to the permissions grant
process.  A `BeginDownload` sends three messages over it before it takes its file off the queue, a
`BeginUpload` one before it uploads its part, each with `SendGrantMessage` (`downloadqueue.c`): it
sends the datagram and reads a reply, and what it reads serves only to block the thread until the
other process has completed its task.  But no lock keeps two calls apart and no reply says what it
answers, so of two calls that are under way at the same time either can read the reply to the other.

This module puts the socket, the process behind it and the calls on top of the transfers.  The
process takes the datagrams in order and answers each of them once; a reply is read by any call that
waits for one.

Main definitions:

* `AwsS3fs.Call`, `AwsS3fs.Granting` — a call of `SendGrantMessage`, and the whole state;
* `AwsS3fs.GrantAction`, `AwsS3fs.grantStep` — one step of any thread or of the grant process;
* `AwsS3fs.Serial` — `SendGrantMessage` is called when no other call is under way;
* `AwsS3fs.Call.Executed` — the request of a call has been carried out.

Main results:

* `AwsS3fs.Settled.transition`, `AwsS3fs.Sent.transition` — what every step keeps;
* `AwsS3fs.executed_of_serial` — **a call returns when its own request has been carried out**, and a
  file is marked as cached when it has been published.
-/

import AwsS3fs.GrantMessages
import AwsS3fs.TransferInvariant

set_option relaxedAutoImplicit false
set_option autoImplicit false

namespace AwsS3fs

open CLib Threads Grant

/-! ### Calls of `SendGrantMessage` -/

/-- Who calls `SendGrantMessage`. -/
inductive Sender
  | download (j : ℕ)
  | upload (k : ℕ)
  deriving DecidableEq, Repr

/-- A call of `SendGrantMessage`. -/
structure Call where
  sender : Sender
  message : Message
  /-- What the grant process has done about the message, if it has received it. -/
  outcome : Option Outcome
  returned : Bool

/-- What `Query_GetOwners` delivers for a file. -/
structure Owners where
  parentname : Bytes
  parentUid : ℕ
  parentGid : ℕ
  filename : Bytes
  uid : ℕ
  gid : ℕ

/-- The messages of `MoveToSharedCache` about a file. -/
def Owners.messages (o : Owners) : List Message :=
  moveToSharedCache o.parentname o.parentUid o.parentGid o.filename o.uid o.gid

theorem Owners.exists_publish (o : Owners) :
    ∃ message ∈ o.messages,
      message.text = ascii "PUBLISH " ++ (o.parentname ++ colon :: o.filename) :=
  ⟨_, List.mem_cons_of_mem _ (List.mem_cons_of_mem _ (List.mem_singleton_self _)), rfl⟩

/-- The transfers, the variables of the grant process, the calls in the order in which they were
made, the datagrams on the way to the grant process and the number of replies on the way back. -/
structure Granting where
  queue : State
  loop : Loop
  calls : List Call
  pending : List ℕ
  replies : ℕ

namespace Granting

variable (s : Granting)

/-- The messages that a thread has sent. -/
def messagesOf (sender : Sender) : List Message :=
  s.calls.filterMap fun c => if c.sender = sender then some c.message else none

/-- All calls of a thread have returned. -/
def allReturned (sender : Sender) : Bool :=
  s.calls.all fun c => c.sender ≠ sender || c.returned

/-- A datagram is sent. -/
def call (sender : Sender) (message : Message) : Granting :=
  { s with
    calls := s.calls ++ [⟨sender, message, none, false⟩]
    pending := s.pending ++ [s.calls.length] }

/-- A step of a transfer has to wait for the calls that come before it: a download that is to be
taken off the queue for `MoveToSharedCache`, and an upload for `CreateFilePart`. -/
def ready : Action → Bool
  | .downloader j _ =>
      match s.queue.downloaders[j]? with
      | some d => d.stage ≠ .publishing ||
          ((s.messagesOf (.download j)).length = 3 && s.allReturned (.download j))
      | none => true
  | .uploader k _ _ _ =>
      match s.queue.uploaders[k]? with
      | some ⟨_, _, .part _ .initiated⟩ =>
          (s.messagesOf (.upload k)).length = 1 && s.allReturned (.upload k)
      | _ => true
  | _ => true

end Granting

/-- What happens next. -/
inductive GrantAction
  /-- A download calls `SendGrantMessage` with its next message. -/
  | send (j : ℕ)
  /-- An upload calls `SendGrantMessage` for a part of a file, which is to be put into a file that
  `mkstemp` has created. -/
  | sendChunk (k : ℕ) (filepath fileChunkPath : Bytes)
  /-- The grant process receives a datagram and answers it. -/
  | execute (env : Surroundings)
  /-- A call reads a reply and returns. -/
  | receive (id : ℕ)
  /-- A thread takes a step that has nothing to do with the socket. -/
  | transfer (action : Action)

section

variable (cacheDir : Bytes) (ucred : Credentials) (owners : ℤ → Owners)

/-- One step of any thread or of the grant process. -/
def grantStep (s : Granting) : GrantAction → Option Granting
  | .send j =>
      match s.queue.downloaders[j]? with
      | some d =>
          if d.stage = .publishing ∧ s.allReturned (.download j) then
            ((owners (s.queue.heap d.address).fileId).messages[
              (s.messagesOf (.download j)).length]?).map (s.call (.download j))
          else none
      | none => none
  | .sendChunk k filepath fileChunkPath =>
      match s.queue.uploaders[k]? with
      | some ⟨_, _, .part up .initiated⟩ =>
          if s.messagesOf (.upload k) = [] then
            some (s.call (.upload k)
              (createFilePart filepath up.part up.filesize fileChunkPath).2)
          else none
      | _ => none
  | .execute env =>
      match s.pending with
      | [] => none
      | id :: pending =>
          match s.calls[id]? with
          | none => none
          | some c =>
              let outcome := Grant.round cacheDir ucred.pid s.loop (c.message.datagram ucred) env
              some
                { s with
                  loop := s.loop.receive (c.message.datagram ucred)
                  calls := s.calls.set id { c with outcome := some outcome }
                  pending := pending
                  replies := s.replies + outcome.replies.length }
  | .receive id =>
      match s.calls[id]? with
      | some c =>
          if c.returned = false ∧ 0 < s.replies then
            some { s with
              calls := s.calls.set id { c with returned := true }
              replies := s.replies - 1 }
          else none
      | none => none
  | .transfer action =>
      if s.ready action then (step s.queue action).map fun q => { s with queue := q } else none

/-- One step of any thread or of the grant process, with one constructor for every way to step. -/
inductive GrantTransition (s : Granting) : GrantAction → Granting → Prop
  | send {j : ℕ} {d : Downloader} {message : Message} (hd : s.queue.downloaders[j]? = some d)
      (hstage : d.stage = .publishing)
      (hmessage : (owners (s.queue.heap d.address).fileId).messages[
        (s.messagesOf (.download j)).length]? = some message) :
      GrantTransition s (.send j) (s.call (.download j) message)
  | sendChunk {k : ℕ} {filepath fileChunkPath : Bytes} {message : Message} :
      GrantTransition s (.sendChunk k filepath fileChunkPath) (s.call (.upload k) message)
  | execute {id : ℕ} {pending : List ℕ} {c : Call} {loop : Loop} {outcome : Outcome}
      {env : Surroundings} (hpending : s.pending = id :: pending) (hc : s.calls[id]? = some c)
      (houtcome : outcome = Grant.round cacheDir ucred.pid s.loop (c.message.datagram ucred) env) :
      GrantTransition s (.execute env)
        { s with
          loop := loop
          calls := s.calls.set id { c with outcome := some outcome }
          pending := pending
          replies := s.replies + 1 }
  | receive {id : ℕ} {c : Call} (hc : s.calls[id]? = some c) (hwaits : c.returned = false)
      (hreplies : 0 < s.replies) :
      GrantTransition s (.receive id)
        { s with
          calls := s.calls.set id { c with returned := true }
          replies := s.replies - 1 }
  | transfer {action : Action} {q : State} (hready : s.ready action = true)
      (hq : Transition s.queue action q) :
      GrantTransition s (.transfer action) { s with queue := q }

variable {cacheDir ucred owners} {s s' : Granting} {action : GrantAction}

/-- A datagram is answered once. -/
theorem length_replies_round (loop : Loop) (received : Received) (env : Surroundings) :
    (Grant.round cacheDir ucred.pid loop received env).replies.length = 1 := by
  simp only [Grant.round]
  split <;> rfl

/-- **Every step is one of the transitions.** -/
theorem grantTransition_of_step (h : grantStep cacheDir ucred owners s action = some s') :
    GrantTransition cacheDir ucred owners s action s' := by
  cases action with
  | send j =>
      simp only [grantStep] at h
      split at h
      · rename_i d hd
        split at h
        · rename_i hstage
          obtain ⟨message, hmessage, rfl⟩ := Option.map_eq_some_iff.1 h
          exact .send hd hstage.1 hmessage
        · cases h
      · cases h
  | sendChunk k filepath fileChunkPath =>
      simp only [grantStep] at h
      split at h
      · split at h <;> cases h
        exact .sendChunk
      · cases h
  | execute env =>
      simp only [grantStep] at h
      split at h
      · cases h
      · split at h
        · cases h
        · cases h
          rw [length_replies_round]
          exact .execute ‹_› ‹_› rfl
  | receive id =>
      simp only [grantStep] at h
      split at h
      · split at h <;> cases h
        rename_i hwaits
        exact .receive ‹_› hwaits.1 hwaits.2
      · cases h
  | transfer action =>
      simp only [grantStep] at h
      split at h
      · obtain ⟨q, hq, rfl⟩ := Option.map_eq_some_iff.1 h
        exact .transfer ‹_› (transition_of_step hq)
      · cases h

/-! ### One call at a time -/

/-- **The request of a call has been carried out**, as the grant process has received it. -/
def Call.Executed (c : Call) : Prop :=
  ∃ outcome request, c.outcome = some outcome ∧ outcome.executed = [request] ∧
    (c.message.text ++ [0]).take 100 <+: request

theorem executed_of_round {c : Call} {loop : Loop} {env : Surroundings} {outcome : Outcome}
    (hc : c.outcome = some outcome)
    (houtcome : outcome = Grant.round cacheDir ucred.pid loop (c.message.datagram ucred) env) :
    c.Executed := by
  have hown : (c.message.datagram ucred).ownPid = some ucred.pid := rfl
  have hanswered := (round_answered_iff cacheDir ucred.pid loop (c.message.datagram ucred) env).2
    ⟨⟨_, _, rfl⟩, fun hnone => by rw [hown] at hnone; cases hnone⟩
  rw [← houtcome] at hanswered
  obtain ⟨hexecuted, -⟩ := hanswered
  rw [if_pos (show (Received.datagram _ _).ownPid = some ucred.pid from hown)] at hexecuted
  obtain ⟨request, hrequest, hprefix⟩ := hexecuted
  exact ⟨outcome, request, hc, hrequest, hprefix⟩

/-- `SendGrantMessage` is called when no other call is under way. -/
def Serial (s : Granting) : GrantAction → Granting → Prop
  | .send _, _ => ∀ c ∈ s.calls, c.returned = true
  | .sendChunk _ _ _, _ => ∀ c ∈ s.calls, c.returned = true
  | _, _ => True

instance (s : Granting) (action : GrantAction) (s' : Granting) :
    Decidable (Serial s action s') := by
  cases action <;> unfold Serial <;> infer_instance

/-- At most one call is under way, and what is on the way belongs to it. -/
structure Settled (s : Granting) : Prop where
  returned : ∀ c ∈ s.calls, c.returned = true → c.Executed
  single : ∀ (id id' : ℕ) (c c' : Call), s.calls[id]? = some c → s.calls[id']? = some c' →
    c.returned = false → c'.returned = false → id = id'
  outstanding : ∀ (id : ℕ) (c : Call), s.calls[id]? = some c → c.returned = false →
    s.pending = [id] ∧ s.replies = 0 ∨ s.pending = [] ∧ s.replies = 1 ∧ c.Executed
  idle : (∀ c ∈ s.calls, c.returned = true) → s.pending = [] ∧ s.replies = 0

namespace Settled

/-- A call that is made when no other is under way. -/
theorem call (h : Settled s) (hall : ∀ c ∈ s.calls, c.returned = true) (sender : Sender)
    (message : Message) : Settled (s.call sender message) := by
  obtain ⟨hpending, hreplies⟩ := h.idle hall
  have hnew : ∀ (id : ℕ) (c : Call), (s.call sender message).calls[id]? = some c →
      c.returned = false → id = s.calls.length := by
    intro id c hc hwaits
    rcases of_getElem?_append hc with hc | ⟨hid, -⟩
    · rw [hall c (List.mem_of_getElem? hc)] at hwaits
      cases hwaits
    · exact hid
  constructor
  · intro c hc hreturned
    rcases List.mem_append.1 hc with hc | hc
    · exact h.returned c hc hreturned
    · rw [List.mem_singleton.1 hc] at hreturned
      cases hreturned
  · intro id id' c c' hc hc' hwaits hwaits'
    rw [hnew id c hc hwaits, hnew id' c' hc' hwaits']
  · intro id c hc hwaits
    rw [hnew id c hc hwaits]
    refine .inl ⟨?_, hreplies⟩
    rw [Granting.call, hpending]
    rfl
  · intro hreturned
    have := hreturned _ (List.mem_append_right _ (List.mem_singleton_self _))
    cases this

/-- The datagram on the way is the one of the call that is under way. -/
theorem pending_eq (h : Settled s) {id : ℕ} {pending : List ℕ}
    (hpending : s.pending = id :: pending) :
    pending = [] ∧ s.replies = 0 ∧ ∃ c, s.calls[id]? = some c ∧ c.returned = false := by
  by_cases hall : ∀ c ∈ s.calls, c.returned = true
  · rw [(h.idle hall).1] at hpending
    cases hpending
  · push Not at hall
    obtain ⟨c, hc, hwaits⟩ := hall
    obtain ⟨id', hid'⟩ := List.mem_iff_getElem?.1 hc
    rcases h.outstanding id' c hid' (by simpa using hwaits) with ⟨heq, hreplies⟩ | ⟨heq, -⟩
    · rw [hpending, List.cons.injEq] at heq
      obtain ⟨rfl, rfl⟩ := heq
      exact ⟨rfl, hreplies, c, hid', by simpa using hwaits⟩
    · rw [hpending] at heq
      cases heq

/-- When the call that is under way goes on, all others have returned. -/
theorem returned_of_set (h : Settled s) {id : ℕ} {c c' : Call} (hc : s.calls[id]? = some c)
    (hwaits : c.returned = false) {k : ℕ} {b : Call} (hb : (s.calls.set id c')[k]? = some b) :
    k = id ∧ b = c' ∨ b.returned = true := by
  rcases of_getElem?_set hb with ⟨rfl, rfl⟩ | ⟨hne, hb⟩
  · exact .inl ⟨rfl, rfl⟩
  · right
    by_contra hbwaits
    exact hne (h.single k id b c hb hc (by simpa using hbwaits) hwaits)

/-- The request of the call that is under way has been carried out. -/
theorem execute (h : Settled s) {id : ℕ} {c c' : Call} (hc : s.calls[id]? = some c)
    (hwaits : c.returned = false) (hwaits' : c'.returned = false) (hexecuted : c'.Executed)
    (hset : s'.calls = s.calls.set id c') (hpending : s'.pending = []) (hreplies : s'.replies = 1) :
    Settled s' := by
  -- the call that is under way is the one whose request is carried out
  have honly : ∀ (k : ℕ) (b : Call), s'.calls[k]? = some b → b.returned = false →
      k = id ∧ b = c' := by
    intro k b hb hbwaits
    rw [hset] at hb
    rcases h.returned_of_set hc hwaits hb with hsame | hreturned
    · exact hsame
    · rw [hreturned] at hbwaits
      cases hbwaits
  constructor
  · intro b hb hreturned
    rw [hset] at hb
    rcases List.mem_or_eq_of_mem_set hb with hb | rfl
    · exact h.returned b hb hreturned
    · exact hexecuted
  · intro k k' b b' hb hb' hbwaits hbwaits'
    rw [(honly k b hb hbwaits).1, (honly k' b' hb' hbwaits').1]
  · intro k b hb hbwaits
    obtain ⟨-, rfl⟩ := honly k b hb hbwaits
    exact .inr ⟨hpending, hreplies, hexecuted⟩
  · intro hall
    have := hall c' (by rw [hset]; exact mem_set_self hc)
    rw [hwaits'] at this
    cases this

/-- The call that is under way has read its reply. -/
theorem receive (h : Settled s) {id : ℕ} {c c' : Call} (hc : s.calls[id]? = some c)
    (hwaits : c.returned = false) (hreturned : c'.returned = true) (hexecuted : c'.Executed)
    (hset : s'.calls = s.calls.set id c') (hpending : s'.pending = []) (hreplies : s'.replies = 0) :
    Settled s' := by
  have hall : ∀ (k : ℕ) (b : Call), s'.calls[k]? = some b → b.returned = true := by
    intro k b hb
    rw [hset] at hb
    rcases h.returned_of_set hc hwaits hb with ⟨-, rfl⟩ | hb
    · exact hreturned
    · exact hb
  constructor
  · intro b hb hb'
    obtain ⟨k, hk⟩ := List.mem_iff_getElem?.1 hb
    rw [hset] at hk
    rcases of_getElem?_set hk with ⟨-, rfl⟩ | ⟨-, hk⟩
    · exact hexecuted
    · exact h.returned b (List.mem_of_getElem? hk) hb'
  · intro k k' b b' hb hb' hbwaits
    rw [hall k b hb] at hbwaits
    cases hbwaits
  · intro k b hb hbwaits
    rw [hall k b hb] at hbwaits
    cases hbwaits
  · exact fun _ => ⟨hpending, hreplies⟩

/-- **Every step keeps one call at a time**, if no call is made while another is under way. -/
theorem transition (h : Settled s) (ht : GrantTransition cacheDir ucred owners s action s')
    (hserial : Serial s action s') : Settled s' := by
  cases ht with
  | send => exact h.call hserial _ _
  | sendChunk => exact h.call hserial _ _
  | @execute id pending c loop outcome env hpending hc houtcome =>
      obtain ⟨rfl, hreplies, c', hc', hwaits⟩ := h.pending_eq hpending
      obtain rfl : c = c' := Option.some.inj (hc.symm.trans hc')
      have hexecuted : Call.Executed { c with outcome := some outcome } :=
        executed_of_round rfl houtcome
      refine h.execute hc hwaits ?_ hexecuted rfl rfl ?_
      · exact hwaits
      · simp only [hreplies]
  | @receive id c hc hwaits hreplies =>
      obtain ⟨-, hzero⟩ | ⟨hpending, hone, hexecuted⟩ := h.outstanding id c hc hwaits
      · omega
      · have hexecuted' : Call.Executed { c with returned := true } := hexecuted
        refine h.receive hc hwaits ?_ hexecuted' rfl hpending ?_
        · rfl
        · simp only [hone]
  | transfer => exact { h with }

end Settled

/-! ### What has been sent -/

theorem allReturned_iff {sender : Sender} :
    s.allReturned sender = true ↔ ∀ c ∈ s.calls, c.sender = sender → c.returned = true := by
  simp only [Granting.allReturned, List.all_eq_true, Bool.or_eq_true, decide_eq_true_eq]
  exact forall₂_congr fun c _ => Decidable.imp_iff_not_or.symm

theorem mem_messagesOf {sender : Sender} {message : Message} :
    message ∈ s.messagesOf sender ↔ ∃ c ∈ s.calls, c.sender = sender ∧ c.message = message := by
  simp only [Granting.messagesOf, List.mem_filterMap, Option.ite_none_right_eq_some,
    Option.some.injEq]

theorem messagesOf_call_self (sender : Sender) (message : Message) :
    (s.call sender message).messagesOf sender = s.messagesOf sender ++ [message] := by
  rw [Granting.messagesOf, Granting.call, List.filterMap_append]
  simp [Granting.messagesOf]

theorem messagesOf_call_of_ne {sender sender' : Sender} (hne : sender ≠ sender')
    (message : Message) : (s.call sender message).messagesOf sender' = s.messagesOf sender' := by
  rw [Granting.messagesOf, Granting.call, List.filterMap_append]
  simp [Granting.messagesOf, hne]

/-- The next message of a list behind those that were sent. -/
theorem concat_isPrefix {α : Type*} {l l' : List α} {x : α} (h : l <+: l')
    (hx : l'[l.length]? = some x) : l ++ [x] <+: l' := by
  obtain ⟨r, rfl⟩ := h
  rw [List.getElem?_append_right le_rfl, Nat.sub_self] at hx
  cases r with
  | nil => cases hx
  | cons y r =>
      obtain rfl : y = x := Option.some.inj hx
      exact ⟨r, by rw [List.append_assoc]; rfl⟩

/-- What the downloads have sent: the messages of `MoveToSharedCache` about their files one after
the other, and all of them when they have left the queue. -/
structure Sent (owners : ℤ → Owners) (s : Granting) : Prop where
  queued : Queued s.queue
  known : ∀ c ∈ s.calls, ∀ j, c.sender = .download j → j < s.queue.downloaders.length
  begun : ∀ (j : ℕ) (d : Downloader), s.queue.downloaders[j]? = some d →
    s.messagesOf (.download j) <+: (owners (s.queue.heap d.address).fileId).messages
  finished : ∀ (j : ℕ) (d : Downloader), s.queue.downloaders[j]? = some d →
    d.stage.onQueue = false →
      (s.messagesOf (.download j)).length = 3 ∧ s.allReturned (.download j) = true

namespace Sent

/-- A call that is carried out or returns is still the same call. -/
theorem set (h : Sent owners s) {id : ℕ} {c c' : Call} (hc : s.calls[id]? = some c)
    (hset : s'.calls = s.calls.set id c') (hqueue : s'.queue = s.queue)
    (hsender : c'.sender = c.sender) (hmessage : c'.message = c.message)
    (hreturned : c.returned = true → c'.returned = true) : Sent owners s' := by
  have hmessages : ∀ sender, s'.messagesOf sender = s.messagesOf sender := by
    intro sender
    rw [Granting.messagesOf, hset, filterMap_set_of_eq hc (by rw [hsender, hmessage])]
    rfl
  have hkeep : ∀ sender, s.allReturned sender = true → s'.allReturned sender = true := by
    intro sender hall
    rw [allReturned_iff] at hall ⊢
    intro b hb hbsender
    rw [hset] at hb
    rcases List.mem_or_eq_of_mem_set hb with hb | rfl
    · exact hall b hb hbsender
    · exact hreturned (hall c (List.mem_of_getElem? hc) (hsender ▸ hbsender))
  refine ⟨hqueue ▸ h.queued, ?_, ?_, ?_⟩
  · intro b hb j hj
    rw [hset] at hb
    rw [hqueue]
    rcases List.mem_or_eq_of_mem_set hb with hb | rfl
    · exact h.known b hb j hj
    · exact h.known c (List.mem_of_getElem? hc) j (hsender ▸ hj)
  · intro j d hd
    rw [hqueue] at hd ⊢
    rw [hmessages]
    exact h.begun j d hd
  · intro j d hd hstage
    rw [hqueue] at hd
    rw [hmessages]
    obtain ⟨hlength, hall⟩ := h.finished j d hd hstage
    exact ⟨hlength, hkeep _ hall⟩

/-- A call by someone who is not a download that has left the queue. -/
theorem call (h : Sent owners s) {sender : Sender} {message : Message}
    (hknown : ∀ j, sender = .download j → j < s.queue.downloaders.length)
    (hnext : ∀ (j : ℕ) (d : Downloader), sender = .download j →
      s.queue.downloaders[j]? = some d → d.stage.onQueue = true ∧
        (owners (s.queue.heap d.address).fileId).messages[(s.messagesOf sender).length]? =
          some message) :
    Sent owners (s.call sender message) := by
  refine ⟨h.queued, ?_, ?_, ?_⟩
  · intro c hc j hj
    rcases List.mem_append.1 hc with hc | hc
    · exact h.known c hc j hj
    · rw [List.mem_singleton.1 hc] at hj
      exact hknown j hj
  · intro j d hd
    by_cases hsender : sender = .download j
    · obtain ⟨-, hmessage⟩ := hnext j d hsender hd
      rw [hsender] at hmessage ⊢
      rw [messagesOf_call_self]
      exact concat_isPrefix (h.begun j d hd) hmessage
    · rw [messagesOf_call_of_ne hsender]
      exact h.begun j d hd
  · intro j d hd hstage
    have hsender : sender ≠ .download j := by
      intro hsender
      rw [(hnext j d hsender hd).1] at hstage
      cases hstage
    obtain ⟨hlength, hall⟩ := h.finished j d hd hstage
    rw [messagesOf_call_of_ne hsender]
    refine ⟨hlength, allReturned_iff.2 fun c hc hcsender => ?_⟩
    rcases List.mem_append.1 hc with hc | hc
    · exact allReturned_iff.1 hall c hc hcsender
    · rw [List.mem_singleton.1 hc] at hcsender
      exact absurd hcsender hsender

/-- A step of a transfer: a download leaves the queue when its calls have returned. -/
theorem transfer (h : Sent owners s) {action : Action} {q : State}
    (hready : s.ready action = true) (hq : Transition s.queue action q) :
    Sent owners { s with queue := q } := by
  refine ⟨h.queued.transition hq, ?_, ?_, ?_⟩
  · intro c hc j hj
    exact (h.known c hc j hj).trans_le (length_downloaders_le hq)
  · intro j d' hd'
    rcases downloader_of_transition hq hd' with ⟨hj, -⟩ | ⟨d, hd, haddress, -⟩
    · -- a download that has just been started has not sent anything
      have hnone : s.messagesOf (.download j) = [] := by
        rw [List.eq_nil_iff_forall_not_mem]
        intro message hmessage
        obtain ⟨c, hc, hsender, -⟩ := mem_messagesOf.1 hmessage
        have := h.known c hc j hsender
        omega
      change s.messagesOf (.download j) <+: _
      rw [hnone]
      exact List.nil_prefix
    · have hbound : d.address < s.queue.allocated :=
        h.queued.started_bound _ (List.mem_map_of_mem (List.mem_of_getElem? hd))
      have hfile := (fileId_of_transition hq).2 d.address hbound
      rw [← haddress]
      change s.messagesOf (.download j) <+: (owners (q.heap d.address).fileId).messages
      rw [hfile]
      exact h.begun j d hd
  · intro j d' hd' hstage
    rcases downloader_of_transition hq hd' with ⟨-, hstart⟩ | ⟨d, hd, -, hsame | ⟨hpub, st, rfl⟩⟩
    · rw [hstart] at hstage
      cases hstage
    · exact h.finished j d hd (hsame ▸ hstage)
    · simp only [Granting.ready, hd, hpub] at hready
      have hdone : (s.messagesOf (.download j)).length = 3 ∧
          s.allReturned (.download j) = true := by
        simpa using hready
      exact hdone

/-- **Every step keeps it.** -/
theorem transition (h : Sent owners s) (ht : GrantTransition cacheDir ucred owners s action s') :
    Sent owners s' := by
  cases ht with
  | @send j d message hd hstage hmessage =>
      refine h.call ?_ ?_
      · rintro k hk
        cases hk
        exact (List.getElem?_eq_some_iff.1 hd).1
      · rintro k d' hk hd'
        cases hk
        obtain rfl : d = d' := Option.some.inj (hd.symm.trans hd')
        exact ⟨by rw [hstage]; rfl, hmessage⟩
  | sendChunk => exact h.call (fun j hj => by cases hj) (fun j d hj => by cases hj)
  | execute hpending hc => exact h.set hc rfl rfl rfl rfl fun hreturned => hreturned
  | receive hc => exact h.set hc rfl rfl rfl rfl fun _ => rfl
  | transfer hready hq => exact h.transfer hready hq

end Sent

/-! ### Every run -/

/-- Nothing has been sent yet. -/
def Granting.initial (loop : Loop) (db : Database) : Granting where
  queue := State.initial db
  loop := loop
  calls := []
  pending := []
  replies := 0

theorem settled_initial (loop : Loop) (db : Database) : Settled (Granting.initial loop db) := by
  constructor <;> simp [Granting.initial]

theorem sent_initial (owners : ℤ → Owners) (loop : Loop) (db : Database) :
    Sent owners (Granting.initial loop db) where
  queued := queued_initial db
  known := by simp [Granting.initial]
  begun := by simp [Granting.initial, State.initial]
  finished := by simp [Granting.initial, State.initial]

variable (cacheDir ucred owners) in
/-- **A call returns when its own request has been carried out**: in every run in which no call of
`SendGrantMessage` is made while another one is under way, the request of every call that has
returned has been carried out; and every download that has left the queue, and so every one that has
marked its file as cached or woken its subscribers, has had the request to publish its file carried
out. -/
theorem executed_of_serial {loop : Loop} {db : Database} {actions : List GrantAction} {s : Granting}
    (hrun : Runs.run (grantStep cacheDir ucred owners) (Granting.initial loop db) actions = some s)
    (hserial : Runs.Along (grantStep cacheDir ucred owners) Serial (Granting.initial loop db)
      actions) :
    (∀ c ∈ s.calls, c.returned = true → c.Executed) ∧
    ∀ (j : ℕ) (d : Downloader) (o : Owners), s.queue.downloaders[j]? = some d →
      d.stage.onQueue = false → o = owners (s.queue.heap d.address).fileId →
      ∃ c ∈ s.calls, c.sender = .download j ∧
        c.message.text = ascii "PUBLISH " ++ (o.parentname ++ colon :: o.filename) ∧
        c.Executed := by
  have hkeep : ∀ s action s', Settled s ∧ Sent owners s → Serial s action s' →
      grantStep cacheDir ucred owners s action = some s' → Settled s' ∧ Sent owners s' := by
    intro s action s' ⟨hsettled, hsent⟩ hserial hs
    have ht := grantTransition_of_step hs
    exact ⟨hsettled.transition ht hserial, hsent.transition ht⟩
  obtain ⟨hsettled, hsent⟩ := Runs.run_inv hkeep
    ⟨settled_initial loop db, sent_initial owners loop db⟩ hserial hrun
  refine ⟨hsettled.returned, ?_⟩
  rintro j d o hd hstage rfl
  obtain ⟨hlength, hall⟩ := hsent.finished j d hd hstage
  have hmessages := (hsent.begun j d hd).eq_of_length hlength
  -- the last one of the three messages is the one that publishes the file
  obtain ⟨message, hlast, htext⟩ := (owners (s.queue.heap d.address).fileId).exists_publish
  obtain ⟨c, hc, hsender, rfl⟩ := mem_messagesOf.1 (hmessages ▸ hlast)
  exact ⟨c, hc, hsender, htext, hsettled.returned c hc (allReturned_iff.1 hall c hc hsender)⟩

end

/-- Two files, each in a directory of its own. -/
def twoOwners (fileId : ℤ) : Owners :=
  if fileId = 7 then ⟨ascii "aB3dE5", 70, 71, ascii "012345", 1001, 1002⟩
  else ⟨ascii "fG7hI9", 70, 71, ascii "678901", 1003, 1004⟩

/-- Both files are asked for, and their downloads go on until they send their messages. -/
def twoDownloads : List GrantAction :=
  [.transfer (.receive 7 1000 none), .transfer (.receiver 0), .transfer (.receiver 0),
    .transfer (.receive 8 1000 none), .transfer (.receiver 1), .transfer (.receiver 1),
    .transfer (.processor 0 0), .transfer (.processor 0 0), .transfer (.processor 1 0),
    .transfer (.processor 2 0), .transfer (.downloader 0 0), .transfer (.downloader 0 0),
    .transfer (.downloader 0 0), .transfer (.downloader 1 0), .transfer (.downloader 1 0),
    .transfer (.downloader 1 0)]

/-- A message is sent, carried out and acknowledged. -/
def oneMessage (j id : ℕ) : List GrantAction := [.send j, .execute .empty, .receive id]

/-- Where the calls and the downloads are. -/
def Granting.summary (s : Granting) : List (Sender × Bool × Bool) × List DownloadStage :=
  (s.calls.map fun c => (c.sender, c.returned, c.outcome.isSome), s.queue.downloaders.map (·.stage))

/-- The first download sends its messages while the second one waits, and its file is published when
it is taken off the queue. -/
theorem executed_first :
    ∃ s, Runs.run (grantStep (ascii "/cache") ⟨42, 0, 0⟩ twoOwners)
        (Granting.initial Loop.idle (Database.oneFile.addFile 8))
        (twoDownloads ++ oneMessage 0 0 ++ oneMessage 0 1 ++ oneMessage 0 2 ++ oneMessage 1 3 ++
          [.transfer (.downloader 0 0)]) = some s ∧
      s.queue.downloaders[0]? = some ⟨0, 0, .finishing⟩ ∧
      ∃ c ∈ s.calls, c.sender = .download 0 ∧ c.Executed := by
  have hend : (Runs.run (grantStep (ascii "/cache") ⟨42, 0, 0⟩ twoOwners)
      (Granting.initial Loop.idle (Database.oneFile.addFile 8))
      (twoDownloads ++ oneMessage 0 0 ++ oneMessage 0 1 ++ oneMessage 0 2 ++ oneMessage 1 3 ++
        [.transfer (.downloader 0 0)])).map (·.queue.downloaders[0]?) =
      some (some ⟨0, 0, .finishing⟩) := by decide
  obtain ⟨s, hs, hd⟩ := Option.map_eq_some_iff.1 hend
  obtain ⟨c, hc, hsender, -, hexecuted⟩ :=
    (executed_of_serial (ascii "/cache") ⟨42, 0, 0⟩ twoOwners hs (by decide)).2 0
      ⟨0, 0, .finishing⟩ _ hd rfl rfl
  exact ⟨s, hs, hd, c, hc, hsender, hexecuted⟩

/-- **A reply goes to the wrong call**: the second download sends the request to publish its file
while the first one has sent its first request, reads the reply to that one, and is taken off the
queue before its own request has been carried out. -/
theorem reply_crossed :
    ∃ s, Runs.run (grantStep (ascii "/cache") ⟨42, 0, 0⟩ twoOwners)
        (Granting.initial Loop.idle (Database.oneFile.addFile 8))
        (twoDownloads ++ oneMessage 1 0 ++ oneMessage 1 1 ++
          [.send 0, .send 1, .execute .empty, .receive 3, .transfer (.downloader 1 0)]) = some s ∧
      s.summary = ([(.download 1, true, true), (.download 1, true, true),
        (.download 0, false, true), (.download 1, true, false)], [.publishing, .finishing]) ∧
      ∃ c, s.calls[3]? = some c ∧ c.returned = true ∧ ¬ c.Executed := by
  have hend : (Runs.run (grantStep (ascii "/cache") ⟨42, 0, 0⟩ twoOwners)
      (Granting.initial Loop.idle (Database.oneFile.addFile 8))
      (twoDownloads ++ oneMessage 1 0 ++ oneMessage 1 1 ++
        [.send 0, .send 1, .execute .empty, .receive 3, .transfer (.downloader 1 0)])).map
      Granting.summary = some ([(.download 1, true, true), (.download 1, true, true),
        (.download 0, false, true), (.download 1, true, false)], [.publishing, .finishing]) := by
    decide
  obtain ⟨s, hs, hsummary⟩ := Option.map_eq_some_iff.1 hend
  have hcall := congrArg (fun x => x.1[3]?) hsummary
  simp only [Granting.summary, List.getElem?_map] at hcall
  obtain ⟨c, hc, hc'⟩ := Option.map_eq_some_iff.1 hcall
  rw [Prod.mk.injEq, Prod.mk.injEq] at hc'
  obtain ⟨-, hreturned, hnone⟩ := hc'
  refine ⟨s, hs, hsummary, c, hc, hreturned, ?_⟩
  rintro ⟨outcome, request, hsome, -⟩
  rw [hsome] at hnone
  cases hnone

end AwsS3fs
