/-
**The socket to the cache.**

All threads of a file system share one stream socket to the cache.  `SendCacheRequest`
(`filecacheclient.c`) writes a request with its terminating `'\0'` and returns what the next `read`
delivers.  At the other end `ReadEntireMessage` (`filecache.c`) receives until `poll` finds nothing
more, `CommandDispatcher` takes what has come as one string, and the reply is written with its
terminating `'\0'`.  No lock keeps the threads apart, and neither side looks for the `'\0'` that
ends a message.

A direction of the socket is the bytes that have been written and not yet read, some of which have
arrived.  The commands are not carried out here: what a function replies, if it does, is left open.

Main definitions:

* `AwsS3fs.Stream` — one direction of a stream socket;
* `AwsS3fs.CacheCall`, `AwsS3fs.Link` — a call of `SendCacheRequest`, and the whole state;
* `AwsS3fs.LinkAction`, `AwsS3fs.linkStep` — **one step of any thread or of the server**;
* `AwsS3fs.Paired` — no request was lost or joined with another, and every call that has returned
  has the reply to its own request;
* `AwsS3fs.Framed` — the steps that respect where a message ends;
* `AwsS3fs.Phase` — the one exchange that is under way.

Main results:

* `AwsS3fs.Exchange.transition` — what every step that is framed keeps;
* `AwsS3fs.paired_of_framed` — **requests and replies are paired** in such a run.
-/

import AwsS3fs.CacheCommands
import AwsS3fs.Lib.Runs
import AwsS3fs.Lib.Threads

set_option relaxedAutoImplicit false
set_option autoImplicit false

namespace AwsS3fs

open CLib Runs Threads

/-! ### Streams -/

/-- One direction of a stream socket. -/
structure Stream where
  inFlight : Bytes
  arrived : Bytes
  deriving DecidableEq

namespace Stream

/-- Nothing was written. -/
def empty : Stream := ⟨[], []⟩

variable (s : Stream)

/-- What has been written and not yet read. -/
def contents : Bytes := s.arrived ++ s.inFlight

/-- `write`. -/
def write (bytes : Bytes) : Stream := { s with inFlight := s.inFlight ++ bytes }

/-- Some bytes arrive. -/
def deliver (n : ℕ) : Option Stream :=
  if 0 < n ∧ n ≤ s.inFlight.length then
    some ⟨s.inFlight.drop n, s.arrived ++ s.inFlight.take n⟩
  else none

/-- `recv` or `read` into a buffer of a given size: any number of the bytes that have arrived, but
not none of them. -/
def receive (size n : ℕ) : Option (Bytes × Stream) :=
  if 0 < n ∧ n ≤ size ∧ n ≤ s.arrived.length then
    some (s.arrived.take n, { s with arrived := s.arrived.drop n })
  else none

variable {s} {s' : Stream} {bytes : Bytes} {size n : ℕ}

theorem contents_write : (s.write bytes).contents = s.contents ++ bytes := by
  simp [contents, write]

theorem contents_of_deliver (h : s.deliver n = some s') : s'.contents = s.contents := by
  unfold deliver at h
  split at h <;> cases h
  simp [contents]

theorem contents_of_receive (h : s.receive size n = some (bytes, s')) :
    s.contents = bytes ++ s'.contents ∧ bytes ≠ [] ∧ bytes = s.arrived.take n := by
  unfold receive at h
  split at h <;> cases h
  rename_i hn
  refine ⟨?_, ?_, rfl⟩
  · rw [contents, contents, ← List.append_assoc, List.take_append_drop]
  · rw [Ne, List.take_eq_nil_iff, not_or]
    refine ⟨by omega, ?_⟩
    rintro hnil
    simp [hnil] at hn
    omega

end Stream

/-! ### Calls and the server -/

/-- A string in memory, up to its terminating `'\0'`. -/
def cString (bytes : Bytes) : Bytes := bytes.takeWhile (· ≠ 0)

/-- Where a call of `SendCacheRequest` is. -/
inductive CallStage
  | writing
  | reading
  | returned (reply : Bytes)
  deriving DecidableEq

/-- A call of `SendCacheRequest`. -/
structure CacheCall where
  request : Bytes
  stage : CallStage
  deriving DecidableEq

/-- Where the thread of the server is, with what it has received of a message. -/
inductive ReceiveStage
  /-- In `recv`. -/
  | receiving (message : Bytes)
  /-- In `poll`. -/
  | polling (message : Bytes)
  /-- In `CommandDispatcher`. -/
  | dispatching (message : Bytes)
  deriving DecidableEq

/-- What has been received of a message. -/
def ReceiveStage.message : ReceiveStage → Bytes
  | receiving message => message
  | polling message => message
  | dispatching message => message

/-- The calls, the two directions of the socket and the server; and the requests in the order in
which they were written, with the calls they are from, and the messages that the server has taken,
with the replies to them. -/
structure Link where
  calls : List CacheCall
  requests : Stream
  replies : Stream
  server : ReceiveStage
  written : List (ℕ × Bytes)
  dispatched : List (Bytes × Option Bytes)
  deriving DecidableEq

/-- A connection that has not been used. -/
def Link.initial : Link := ⟨[], .empty, .empty, .receiving [], [], []⟩

/-- What happens next. -/
inductive LinkAction
  /-- A thread calls `SendCacheRequest`. -/
  | call (request : Bytes)
  /-- A call writes its request. -/
  | write (k : ℕ)
  /-- Bytes of requests arrive. -/
  | deliverRequest (n : ℕ)
  /-- The server receives bytes. -/
  | recv (n : ℕ)
  /-- The server looks whether there is more. -/
  | poll
  /-- The server carries out a command, and replies or does not reply. -/
  | dispatch (reply : Option Bytes)
  /-- Bytes of replies arrive. -/
  | deliverReply (n : ℕ)
  /-- A call reads a reply, into a buffer that may hold anything. -/
  | read (k n : ℕ) (buffer : Bytes)

/-- The reply to a message. -/
def answer (message : Bytes) (reply : Option Bytes) : Option Bytes :=
  match commandDispatcher message with
  | none => some (ascii "ERROR: unknown command")
  | some _ => reply

/-- **One step of any thread or of the server.**  Requests and replies are strings, so they have no
`'\0'` in them. -/
def linkStep (s : Link) : LinkAction → Option Link
  | .call request =>
      if 0 ∈ request then none else some { s with calls := s.calls ++ [⟨request, .writing⟩] }
  | .write k =>
      match s.calls[k]? with
      | some ⟨request, .writing⟩ =>
          some { s with
            calls := s.calls.set k ⟨request, .reading⟩
            requests := s.requests.write (request ++ [0])
            written := s.written ++ [(k, request)] }
      | _ => none
  | .deliverRequest n => (s.requests.deliver n).map fun requests => { s with requests := requests }
  | .recv n =>
      match s.server with
      | .receiving message =>
          (s.requests.receive 256 n).map fun received =>
            { s with requests := received.2, server := .polling (message ++ received.1) }
      | _ => none
  | .poll =>
      match s.server with
      | .polling message =>
          some { s with
            server := if s.requests.arrived = [] then .dispatching message
              else .receiving message }
      | _ => none
  | .dispatch reply =>
      match s.server with
      | .dispatching message =>
          if ∃ text ∈ reply, 0 ∈ text then none
          else
            let sent := answer (cString message) reply
            some { s with
              replies := s.replies.write ((sent.map (· ++ [0])).getD [])
              server := .receiving []
              dispatched := s.dispatched ++ [(cString message, sent)] }
      | _ => none
  | .deliverReply n => (s.replies.deliver n).map fun replies => { s with replies := replies }
  | .read k n buffer =>
      match s.calls[k]? with
      | some ⟨request, .reading⟩ =>
          (s.replies.receive 4096 n).map fun received =>
            { s with
              calls := s.calls.set k ⟨request, .returned (cString (received.1 ++ buffer))⟩
              replies := received.2 }
      | _ => none

/-- **Requests and replies are paired.** -/
structure Paired (s : Link) : Prop where
  /-- The messages that the server has taken are the requests, in their order. -/
  inOrder : s.dispatched.map (·.1) <+: s.written.map (·.2)
  /-- All of them, when there is nothing left to receive. -/
  complete : s.requests.contents = [] → s.server = .receiving [] →
    s.dispatched.length = s.written.length
  /-- What a call has returned is the reply to its own request. -/
  own : ∀ (k : ℕ) (request reply : Bytes), s.calls[k]? = some ⟨request, .returned reply⟩ →
    ∃ j : ℕ, s.written[j]? = some (k, request) ∧ s.dispatched[j]? = some (request, some reply)
  /-- When there is nothing left to receive or to read either, a call that still waits is one that
  the server has not replied to. -/
  answered : s.requests.contents = [] → s.server = .receiving [] → s.replies.contents = [] →
    ∀ (k : ℕ) (request : Bytes), s.calls[k]? = some ⟨request, .reading⟩ →
      ∃ j : ℕ, s.written[j]? = some (k, request) ∧ s.dispatched[j]? = some (request, none)

/-- The steps that respect where a message ends: a request is written when no other call waits for a
reply, the server stops to receive at the end of a request, and a call reads up to the end of a
reply. -/
def Framed (s : Link) : LinkAction → Link → Prop
  | .write _, _ => ∀ c ∈ s.calls, c.stage ≠ .reading
  | .poll, _ => s.requests.arrived = [] → s.server.message.getLast? = some 0
  | .read _ n _, _ => 0 ∈ s.replies.arrived.take n
  | _, _ => True

instance (s : Link) (action : LinkAction) (s' : Link) : Decidable (Framed s action s') := by
  cases action <;> unfold Framed <;> infer_instance

variable {s s' : Link} {action : LinkAction}

/-- One step, with one constructor for every way to step. -/
inductive LinkTransition (s : Link) : LinkAction → Link → Prop
  | call {request : Bytes} (hrequest : 0 ∉ request) :
      LinkTransition s (.call request) { s with calls := s.calls ++ [⟨request, .writing⟩] }
  | write {k : ℕ} {request : Bytes} (hk : s.calls[k]? = some ⟨request, .writing⟩) :
      LinkTransition s (.write k)
        { s with
          calls := s.calls.set k ⟨request, .reading⟩
          requests := s.requests.write (request ++ [0])
          written := s.written ++ [(k, request)] }
  | deliverRequest {n : ℕ} {requests : Stream} (hrequests : s.requests.deliver n = some requests) :
      LinkTransition s (.deliverRequest n) { s with requests := requests }
  | recv {n : ℕ} {message bytes : Bytes} {requests : Stream}
      (hserver : s.server = .receiving message)
      (hreceived : s.requests.receive 256 n = some (bytes, requests)) :
      LinkTransition s (.recv n)
        { s with requests := requests, server := .polling (message ++ bytes) }
  | pollMore {message : Bytes} (hserver : s.server = .polling message)
      (hmore : s.requests.arrived ≠ []) :
      LinkTransition s .poll { s with server := .receiving message }
  | pollNone {message : Bytes} (hserver : s.server = .polling message)
      (hnone : s.requests.arrived = []) :
      LinkTransition s .poll { s with server := .dispatching message }
  | dispatch {message : Bytes} {reply : Option Bytes} (hserver : s.server = .dispatching message)
      (hreply : ∀ text ∈ answer (cString message) reply, 0 ∉ text) :
      LinkTransition s (.dispatch reply)
        { s with
          replies := s.replies.write (((answer (cString message) reply).map (· ++ [0])).getD [])
          server := .receiving []
          dispatched := s.dispatched ++ [(cString message, answer (cString message) reply)] }
  | deliverReply {n : ℕ} {replies : Stream} (hreplies : s.replies.deliver n = some replies) :
      LinkTransition s (.deliverReply n) { s with replies := replies }
  | read {k n : ℕ} {buffer request bytes : Bytes} {replies : Stream}
      (hk : s.calls[k]? = some ⟨request, .reading⟩)
      (hreceived : s.replies.receive 4096 n = some (bytes, replies)) :
      LinkTransition s (.read k n buffer)
        { s with
          calls := s.calls.set k ⟨request, .returned (cString (bytes ++ buffer))⟩
          replies := replies }

theorem not_mem_of_answer {message text : Bytes} {reply : Option Bytes}
    (hreply : ¬ ∃ text ∈ reply, 0 ∈ text) (htext : text ∈ answer message reply) : 0 ∉ text := by
  unfold answer at htext
  split at htext
  · rw [← Option.some.inj htext]
    decide
  · exact fun hmem => hreply ⟨text, htext, hmem⟩

/-- **Every step is one of the transitions.** -/
theorem linkTransition_of_step (h : linkStep s action = some s') : LinkTransition s action s' := by
  cases action with
  | call request =>
      simp only [linkStep] at h
      split at h <;> cases h
      exact .call ‹_›
  | write k =>
      simp only [linkStep] at h
      split at h <;> cases h
      exact .write ‹_›
  | deliverRequest n =>
      obtain ⟨requests, hrequests, rfl⟩ := Option.map_eq_some_iff.1 h
      exact .deliverRequest hrequests
  | recv n =>
      simp only [linkStep] at h
      split at h
      · obtain ⟨⟨bytes, requests⟩, hreceived, rfl⟩ := Option.map_eq_some_iff.1 h
        exact .recv ‹_› hreceived
      · cases h
  | poll =>
      simp only [linkStep] at h
      split at h <;> cases h
      split
      · exact .pollNone ‹_› ‹_›
      · exact .pollMore ‹_› ‹_›
  | dispatch reply =>
      simp only [linkStep] at h
      split at h
      · split at h <;> cases h
        exact .dispatch ‹_› fun text htext => not_mem_of_answer ‹_› htext
      · cases h
  | deliverReply n =>
      obtain ⟨replies, hreplies, rfl⟩ := Option.map_eq_some_iff.1 h
      exact .deliverReply hreplies
  | read k n buffer =>
      simp only [linkStep] at h
      split at h
      · obtain ⟨⟨bytes, replies⟩, hreceived, rfl⟩ := Option.map_eq_some_iff.1 h
        exact .read ‹_› hreceived
      · cases h

/-! ### One exchange at a time -/

/-- The beginning of a terminated string that holds the `'\0'` is the whole of it. -/
theorem eq_of_terminated {b c text : Bytes} (h : b ++ c = text ++ [0]) (htext : 0 ∉ text)
    (hb : 0 ∈ b) : b = text ++ [0] ∧ c = [] := by
  rcases List.append_eq_append_iff.1 h with ⟨a, ha, -⟩ | ⟨a, ha, hc⟩
  · exact absurd (ha ▸ List.mem_append_left a hb) htext
  · cases a with
    | nil =>
        rw [ha, List.append_nil] at hb
        exact absurd hb htext
    | cons d a =>
        obtain ⟨rfl, hnil⟩ := List.cons.inj hc
        obtain ⟨rfl, rfl⟩ := List.append_eq_nil_iff.1 hnil.symm
        exact ⟨ha, rfl⟩

theorem cString_append {text rest : Bytes} (htext : 0 ∉ text) :
    cString (text ++ 0 :: rest) = text := by
  have hne : ∀ b ∈ text, decide (b ≠ 0) = true := by
    intro b hb
    rw [decide_eq_true_eq]
    rintro rfl
    exact htext hb
  rw [cString, List.takeWhile_append_of_pos hne, List.takeWhile_cons_of_neg (by simp),
    List.append_nil]

/-- A call waits for a reply, the only one that does, and its request is the last. -/
structure Waiting (s : Link) (k : ℕ) (request : Bytes) (written : List (ℕ × Bytes)) : Prop where
  reading : s.calls[k]? = some ⟨request, .reading⟩
  only : ∀ (j : ℕ) (r : Bytes), s.calls[j]? = some ⟨r, .reading⟩ → j = k
  last : s.written = written ++ [(k, request)]

/-- The one exchange that is under way. -/
inductive Phase (s : Link) : Prop
  /-- There is none. -/
  | idle (hcalls : ∀ c ∈ s.calls, c.stage ≠ .reading) (hrequests : s.requests.contents = [])
      (hreplies : s.replies.contents = []) (hserver : s.server = .receiving [])
      (hdispatched : s.dispatched.map (·.1) = s.written.map (·.2))
  /-- The request has not been carried out. -/
  | requesting {k : ℕ} {request : Bytes} {written : List (ℕ × Bytes)}
      (hwaiting : Waiting s k request written)
      (hrequests : s.server.message ++ s.requests.contents = request ++ [0])
      (hserver : ∀ message, s.server = .dispatching message → s.requests.contents = [])
      (hreplies : s.replies.contents = [])
      (hdispatched : s.dispatched.map (·.1) = written.map (·.2))
  /-- The reply, if there is one, has not been read. -/
  | replying {k : ℕ} {request : Bytes} {written : List (ℕ × Bytes)}
      {dispatched : List (Bytes × Option Bytes)} {reply : Option Bytes}
      (hwaiting : Waiting s k request written) (hrequests : s.requests.contents = [])
      (hserver : s.server = .receiving [])
      (hreplies : s.replies.contents = (reply.map (· ++ [0])).getD [])
      (hreply : ∀ text ∈ reply, 0 ∉ text)
      (hlast : s.dispatched = dispatched ++ [(request, reply)])
      (hdispatched : dispatched.map (·.1) = written.map (·.2))

/-- One exchange at a time. -/
structure Exchange (s : Link) : Prop where
  clean : ∀ c ∈ s.calls, 0 ∉ c.request
  own : ∀ (k : ℕ) (request reply : Bytes), s.calls[k]? = some ⟨request, .returned reply⟩ →
    ∃ j : ℕ, s.written[j]? = some (k, request) ∧ s.dispatched[j]? = some (request, some reply)
  phase : Phase s

/-- The request that is waited for stands at the same place as its reply. -/
theorem Waiting.paired {k : ℕ} {request : Bytes} {written : List (ℕ × Bytes)}
    {dispatched : List (Bytes × Option Bytes)} {reply : Option Bytes}
    (h : Waiting s k request written) (hlast : s.dispatched = dispatched ++ [(request, reply)])
    (hdispatched : dispatched.map (·.1) = written.map (·.2)) :
    ∃ j : ℕ, s.written[j]? = some (k, request) ∧ s.dispatched[j]? = some (request, reply) := by
  have hlength : dispatched.length = written.length := by
    simpa using congrArg List.length hdispatched
  refine ⟨written.length, ?_, ?_⟩
  · rw [h.last, List.getElem?_concat_length]
  · rw [hlast, ← hlength, List.getElem?_concat_length]

theorem Exchange.paired (h : Exchange s) : Paired s where
  inOrder := by
    cases h.phase with
    | idle _ _ _ _ hdispatched => exact hdispatched ▸ List.prefix_rfl
    | requesting hwaiting _ _ _ hdispatched =>
        rw [hwaiting.last, hdispatched, List.map_append]
        exact List.prefix_append _ _
    | replying hwaiting _ _ _ _ hlast hdispatched =>
        rw [hwaiting.last, hlast, List.map_append, List.map_append, hdispatched]
        exact List.prefix_rfl
  complete := by
    intro hrequests hserver
    cases h.phase with
    | idle _ _ _ _ hdispatched => simpa using congrArg List.length hdispatched
    | requesting _ hcontents _ _ _ =>
        rw [hserver, hrequests] at hcontents
        simp [ReceiveStage.message] at hcontents
    | replying hwaiting _ _ _ _ hlast hdispatched =>
        rw [hwaiting.last, hlast]
        simpa using congrArg List.length hdispatched
  own := h.own
  answered := by
    intro hrequests hserver hempty k request hk
    cases h.phase with
    | idle hcalls => exact absurd rfl (hcalls _ (List.mem_of_getElem? hk))
    | requesting _ hcontents =>
        rw [hserver, hrequests] at hcontents
        simp [ReceiveStage.message] at hcontents
    | @replying k' request' written dispatched reply hwaiting _ _ hreplies _ hlast hdispatched =>
        obtain rfl : k = k' := hwaiting.only k request hk
        have hpaired := hwaiting.paired hlast hdispatched
        rw [hwaiting.reading] at hk
        cases hk
        cases reply with
        | none => exact hpaired
        | some text =>
            rw [hempty] at hreplies
            simp at hreplies

theorem exchange_initial : Exchange .initial where
  clean := by simp [Link.initial]
  own := by simp [Link.initial]
  phase := .idle (by simp [Link.initial]) rfl rfl rfl rfl

/-! ### Steps that are framed -/

theorem Waiting.frame {k : ℕ} {request : Bytes} {written : List (ℕ × Bytes)}
    (h : Waiting s k request written) (hcalls : s'.calls = s.calls)
    (hwritten : s'.written = s.written) : Waiting s' k request written :=
  ⟨hcalls ▸ h.reading, hcalls ▸ h.only, hwritten ▸ h.last⟩

namespace Exchange

/-- A step that changes neither what is in the socket nor where the server is. -/
theorem frame (h : Exchange s) (hcalls : s'.calls = s.calls)
    (hrequests : s'.requests.contents = s.requests.contents)
    (hreplies : s'.replies.contents = s.replies.contents) (hserver : s'.server = s.server)
    (hwritten : s'.written = s.written) (hdispatched : s'.dispatched = s.dispatched) :
    Exchange s' where
  clean := hcalls ▸ h.clean
  own := by
    rw [hcalls, hwritten, hdispatched]
    exact h.own
  phase := by
    cases h.phase with
    | idle h₁ h₂ h₃ h₄ h₅ =>
        exact .idle (hcalls ▸ h₁) (hrequests ▸ h₂) (hreplies ▸ h₃) (hserver ▸ h₄)
          (by rw [hdispatched, hwritten, h₅])
    | requesting hwaiting h₂ h₃ h₄ h₅ =>
        refine .requesting (hwaiting.frame hcalls hwritten) ?_ ?_ (hreplies ▸ h₄)
          (hdispatched ▸ h₅)
        · rw [hserver, hrequests, h₂]
        · rw [hserver, hrequests]
          exact h₃
    | replying hwaiting h₂ h₃ h₄ h₅ h₆ h₇ =>
        exact .replying (hwaiting.frame hcalls hwritten) (hrequests ▸ h₂) (hserver ▸ h₃)
          (hreplies ▸ h₄) h₅ (hdispatched ▸ h₆) h₇

theorem call (h : Exchange s) {request : Bytes} (hrequest : 0 ∉ request) :
    Exchange { s with calls := s.calls ++ [⟨request, .writing⟩] } := by
  have hold : ∀ (j : ℕ) (r : Bytes) (stage : CallStage), stage ≠ .writing →
      (s.calls ++ [⟨request, .writing⟩])[j]? = some ⟨r, stage⟩ → s.calls[j]? = some ⟨r, stage⟩ := by
    intro j r stage hstage hj
    rcases of_getElem?_append hj with hj | ⟨-, heq⟩
    · exact hj
    · exact absurd (congrArg CacheCall.stage heq) hstage
  have hwait : ∀ {k : ℕ} {r : Bytes} {written : List (ℕ × Bytes)}, Waiting s k r written →
      Waiting { s with calls := s.calls ++ [⟨request, .writing⟩] } k r written := by
    intro k r written hwaiting
    refine ⟨?_, fun j r' hj => hwaiting.only j r' (hold j r' _ (by simp) hj), hwaiting.last⟩
    rw [List.getElem?_append_left (List.getElem?_eq_some_iff.1 hwaiting.reading).1,
      hwaiting.reading]
  refine ⟨?_, fun k r reply hk => h.own k r reply (hold k r _ (by simp) hk), ?_⟩
  · intro c hc
    rcases List.mem_append.1 hc with hc | hc
    · exact h.clean c hc
    · rw [List.mem_singleton.1 hc]
      exact hrequest
  · cases h.phase with
    | idle h₁ h₂ h₃ h₄ h₅ =>
        refine .idle (fun c hc => ?_) h₂ h₃ h₄ h₅
        rcases List.mem_append.1 hc with hc | hc
        · exact h₁ c hc
        · rw [List.mem_singleton.1 hc]
          simp
    | requesting hwaiting h₂ h₃ h₄ h₅ => exact .requesting (hwait hwaiting) h₂ h₃ h₄ h₅
    | replying hwaiting h₂ h₃ h₄ h₅ h₆ h₇ => exact .replying (hwait hwaiting) h₂ h₃ h₄ h₅ h₆ h₇

/-- A request that is written when no call waits starts an exchange. -/
theorem write (h : Exchange s) {k : ℕ} {request : Bytes}
    (hk : s.calls[k]? = some ⟨request, .writing⟩) (hnone : ∀ c ∈ s.calls, c.stage ≠ .reading) :
    Exchange
      { s with
        calls := s.calls.set k ⟨request, .reading⟩
        requests := s.requests.write (request ++ [0])
        written := s.written ++ [(k, request)] } := by
  have hlt := (List.getElem?_eq_some_iff.1 hk).1
  have hclean : 0 ∉ request := h.clean _ (List.mem_of_getElem? hk)
  refine ⟨?_, ?_, ?_⟩
  · intro c hc
    rcases List.mem_or_eq_of_mem_set hc with hc | rfl
    · exact h.clean c hc
    · exact hclean
  · intro j r reply hj
    rcases of_getElem?_set hj with ⟨-, heq⟩ | ⟨-, hj⟩
    · cases heq
    · obtain ⟨i, hwritten, hdispatched⟩ := h.own j r reply hj
      refine ⟨i, ?_, hdispatched⟩
      rw [List.getElem?_append_left (List.getElem?_eq_some_iff.1 hwritten).1, hwritten]
  · cases h.phase with
    | idle _ hrequests hreplies hserver hdispatched =>
        refine .requesting ⟨List.getElem?_set_self hlt, ?_, rfl⟩ ?_ ?_ hreplies hdispatched
        · intro j r hj
          rcases of_getElem?_set hj with ⟨hjk, -⟩ | ⟨-, hj⟩
          · exact hjk
          · exact absurd rfl (hnone _ (List.mem_of_getElem? hj))
        · rw [hserver, Stream.contents_write, hrequests]
          rfl
        · intro message hmessage
          rw [hserver] at hmessage
          cases hmessage
    | requesting hwaiting | replying hwaiting =>
        exact absurd rfl (hnone _ (List.mem_of_getElem? hwaiting.reading))

theorem recv (h : Exchange s) {n : ℕ} {message bytes : Bytes} {requests : Stream}
    (hserver : s.server = .receiving message)
    (hreceived : s.requests.receive 256 n = some (bytes, requests)) :
    Exchange { s with requests := requests, server := .polling (message ++ bytes) } := by
  obtain ⟨hcontents, hne, -⟩ := Stream.contents_of_receive hreceived
  refine ⟨h.clean, h.own, ?_⟩
  cases h.phase with
  | idle _ hrequests | replying _ hrequests =>
      rw [hcontents, List.append_eq_nil_iff] at hrequests
      exact absurd hrequests.1 hne
  | requesting hwaiting hrequests _ hreplies hdispatched =>
      refine .requesting (hwaiting.frame rfl rfl) ?_ (fun m hm => by cases hm) hreplies hdispatched
      rw [hserver, hcontents] at hrequests
      rw [← hrequests]
      simp [ReceiveStage.message]

/-- When the server stops to receive, it has the whole request. -/
theorem poll (h : Exchange s) {message : Bytes} (hserver : s.server = .polling message)
    {stage : ReceiveStage} (hstage : stage = .receiving message ∨
      stage = .dispatching message ∧ message.getLast? = some 0) :
    Exchange { s with server := stage } := by
  refine ⟨h.clean, h.own, ?_⟩
  cases h.phase with
  | idle _ _ _ hidle | replying _ _ hidle =>
      rw [hserver] at hidle
      cases hidle
  | @requesting k request written hwaiting hrequests _ hreplies hdispatched =>
      have hsame : stage.message = s.server.message := by
        rw [hserver]
        rcases hstage with rfl | ⟨rfl, -⟩ <;> rfl
      refine .requesting (hwaiting.frame rfl rfl) (hsame.symm ▸ hrequests) ?_ hreplies hdispatched
      intro m hm
      rcases hstage with rfl | ⟨-, hlast⟩
      · cases hm
      · rw [hserver] at hrequests
        exact (eq_of_terminated hrequests (h.clean _ (List.mem_of_getElem? hwaiting.reading))
          (List.mem_of_getLast? hlast)).2

/-- The message that the server takes is the request of the call that waits. -/
theorem dispatch (h : Exchange s) {message : Bytes} {reply : Option Bytes}
    (hserver : s.server = .dispatching message)
    (hreply : ∀ text ∈ answer (cString message) reply, 0 ∉ text) :
    Exchange
      { s with
        replies := s.replies.write (((answer (cString message) reply).map (· ++ [0])).getD [])
        server := .receiving []
        dispatched := s.dispatched ++ [(cString message, answer (cString message) reply)] } := by
  refine ⟨h.clean, ?_, ?_⟩
  · intro k r text hk
    obtain ⟨j, hwritten, hdispatched⟩ := h.own k r text hk
    refine ⟨j, hwritten, ?_⟩
    rw [List.getElem?_append_left (List.getElem?_eq_some_iff.1 hdispatched).1, hdispatched]
  · cases h.phase with
    | idle _ _ _ hidle | replying _ _ hidle =>
        rw [hserver] at hidle
        cases hidle
    | @requesting k request written hwaiting hrequests hnone hreplies hdispatched =>
        have hcontents := hnone message hserver
        rw [hserver, hcontents, List.append_nil] at hrequests
        have hmessage : cString message = request := by
          rw [show message = request ++ [0] from hrequests]
          exact cString_append (h.clean _ (List.mem_of_getElem? hwaiting.reading))
        refine .replying (hwaiting.frame rfl rfl) hcontents rfl ?_ hreply (by rw [hmessage])
          hdispatched
        rw [Stream.contents_write, hreplies, List.nil_append]

/-- What a call reads up to the end of a reply is the reply to its request. -/
theorem read (h : Exchange s) {k n : ℕ} {buffer request bytes : Bytes} {replies : Stream}
    (hk : s.calls[k]? = some ⟨request, .reading⟩)
    (hreceived : s.replies.receive 4096 n = some (bytes, replies))
    (hend : 0 ∈ s.replies.arrived.take n) :
    Exchange
      { s with
        calls := s.calls.set k ⟨request, .returned (cString (bytes ++ buffer))⟩
        replies := replies } := by
  obtain ⟨hcontents, hne, hbytes⟩ := Stream.contents_of_receive hreceived
  have hlt := (List.getElem?_eq_some_iff.1 hk).1
  cases h.phase with
  | idle hcalls => exact absurd rfl (hcalls _ (List.mem_of_getElem? hk))
  | requesting _ _ _ hreplies =>
      rw [hcontents, List.append_eq_nil_iff] at hreplies
      exact absurd hreplies.1 hne
  | @replying k' request' written dispatched reply hwaiting hrequests hserver hreplies hreply hlast
      hdispatched =>
      obtain rfl : k = k' := hwaiting.only k request hk
      obtain rfl : request = request' := by
        rw [hwaiting.reading] at hk
        cases hk
        rfl
      obtain ⟨text, rfl⟩ : ∃ text, reply = some text := by
        cases reply with
        | none =>
            rw [hcontents] at hreplies
            exact absurd (List.append_eq_nil_iff.1 hreplies).1 hne
        | some text => exact ⟨text, rfl⟩
      have htext : 0 ∉ text := hreply text rfl
      obtain ⟨hwhole, hempty⟩ :=
        eq_of_terminated (hcontents.symm.trans hreplies) htext (hbytes.symm ▸ hend)
      have hreturned : cString (bytes ++ buffer) = text := by
        rw [hwhole, List.append_assoc]
        exact cString_append htext
      rw [hreturned]
      have hall : s.dispatched.map (·.1) = s.written.map (·.2) := by
        rw [hlast, hwaiting.last, List.map_append, List.map_append, hdispatched]
        rfl
      refine ⟨?_, ?_, .idle ?_ hrequests hempty hserver hall⟩
      · intro c hc
        rcases List.mem_or_eq_of_mem_set hc with hc | rfl
        · exact h.clean c hc
        · exact h.clean ⟨request, .reading⟩ (List.mem_of_getElem? hk)
      · intro j r text' hj
        rcases of_getElem?_set hj with ⟨rfl, heq⟩ | ⟨-, hj⟩
        · cases heq
          exact hwaiting.paired hlast hdispatched
        · exact h.own j r text' hj
      · intro c hc hstage
        obtain ⟨j, hj⟩ := List.mem_iff_getElem?.1 hc
        obtain ⟨r, stage⟩ := c
        obtain rfl : stage = .reading := hstage
        rcases of_getElem?_set hj with ⟨-, heq⟩ | ⟨hjk, hj⟩
        · cases heq
        · exact hjk (hwaiting.only j r hj)

/-- **Every framed step keeps it.** -/
theorem transition (h : Exchange s) (ht : LinkTransition s action s')
    (hframed : Framed s action s') : Exchange s' := by
  cases ht with
  | call hrequest => exact h.call hrequest
  | write hk => exact h.write hk hframed
  | deliverRequest hrequests =>
      exact h.frame rfl (Stream.contents_of_deliver hrequests) rfl rfl rfl rfl
  | recv hserver hreceived => exact h.recv hserver hreceived
  | pollMore hserver _ => exact h.poll hserver (.inl rfl)
  | pollNone hserver hnone =>
      have hlast := hframed hnone
      rw [hserver] at hlast
      exact h.poll hserver (.inr ⟨rfl, hlast⟩)
  | dispatch hserver hreply => exact h.dispatch hserver hreply
  | deliverReply hreplies =>
      exact h.frame rfl rfl (Stream.contents_of_deliver hreplies) rfl rfl rfl
  | read hk hreceived => exact h.read hk hreceived hframed

end Exchange

/-- **Requests and replies are paired** in every run in which a request is written when no other
call waits for its reply, the server stops to receive at the end of a request, and a call reads up
to the end of a reply. -/
theorem paired_of_framed {actions : List LinkAction} (hrun : run linkStep .initial actions = some s)
    (hframed : Along linkStep Framed .initial actions) : Paired s :=
  (run_inv (fun _ _ _ h hC hstep => h.transition (linkTransition_of_step hstep) hC)
    exchange_initial hframed hrun).paired

/-- Two calls at the same time that are answered one after the other. -/
def callsInTurn : List LinkAction :=
  [.call (ascii "FILE a"), .call (ascii "FILE b"), .write 0, .deliverRequest 4, .recv 4,
    .deliverRequest 3, .poll, .recv 3, .poll, .dispatch (some (ascii "FILE -")), .deliverReply 7,
    .read 0 7 [], .write 1, .deliverRequest 7, .recv 7, .poll, .dispatch (some (ascii "FILE aB")),
    .deliverReply 8, .read 1 8 (ascii "FILE -")]

theorem paired_callsInTurn :
    ∃ s, run linkStep .initial callsInTurn = some s ∧ Paired s ∧
      s.calls = [⟨ascii "FILE a", .returned (ascii "FILE -")⟩,
        ⟨ascii "FILE b", .returned (ascii "FILE aB")⟩] := by
  obtain ⟨s, hs⟩ : ∃ s, run linkStep .initial callsInTurn = some s :=
    Option.isSome_iff_exists.1 (by decide +kernel)
  have hcalls : (run linkStep .initial callsInTurn).map (·.calls) =
      some [⟨ascii "FILE a", .returned (ascii "FILE -")⟩,
        ⟨ascii "FILE b", .returned (ascii "FILE aB")⟩] := by
    decide +kernel
  rw [hs] at hcalls
  exact ⟨s, hs, paired_of_framed hs (by decide +kernel), Option.some.inj hcalls⟩

/-- Two requests that arrive together: the server takes them as one message, and its only reply is
read by the call whose request it has not seen. -/
def joinedCalls : List LinkAction :=
  [.call (ascii "FILE a"), .call (ascii "FILE b"), .write 0, .write 1, .deliverRequest 14, .recv 14,
    .poll, .dispatch (some (ascii "FILE -")), .deliverReply 7, .read 1 7 []]

theorem not_paired_joinedCalls :
    ∃ s, run linkStep .initial joinedCalls = some s ∧ ¬ Paired s := by
  have hrun : run linkStep .initial joinedCalls = some
      { calls := [⟨ascii "FILE a", .reading⟩, ⟨ascii "FILE b", .returned (ascii "FILE -")⟩]
        requests := .empty
        replies := .empty
        server := .receiving []
        written := [(0, ascii "FILE a"), (1, ascii "FILE b")]
        dispatched := [(ascii "FILE a", some (ascii "FILE -"))] } := by
    decide +kernel
  exact ⟨_, hrun, fun h => absurd (h.complete rfl rfl) (by decide)⟩

end AwsS3fs
