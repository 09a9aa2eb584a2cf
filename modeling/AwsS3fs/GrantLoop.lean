/-
**The main loop of the permissions grant process.**

`InitializePermissionsGrant` receives a datagram, compares the pid in its credentials with that of
the download queue, carries out the request and replies.  The request buffer and the credentials
are variables of the loop: what `SocketReceiveDatagramFromClient` does not overwrite is still there
in the next round.  And it does not overwrite everything: when `recvmsg` fails it leaves both as
they are, and when a datagram comes without credentials it leaves the credentials, and the loop
does not look at the `-1` that either case returns.

So the loop does what it is for, to carry out each request of the download queue once and nothing
else, exactly as long as no receive fails and no datagram without credentials arrives while the
credentials of the download queue are held.

Main definitions:

* `AwsS3fs.Grant.socketReceiveDatagramFromClient` — the receive helper;
* `AwsS3fs.Grant.dispatch` — the body of the loop for an authorised request;
* `AwsS3fs.Grant.round`, `AwsS3fs.Grant.rounds` — one round of the loop, and a run;
* `AwsS3fs.Grant.Answered` — the purpose of a round;
* `AwsS3fs.Grant.Trusted` — no failed receive, and no datagram that is taken for one of the
  download queue.

Main results:

* `AwsS3fs.Grant.isSome_handler` — no handler runs off the stack;
* `AwsS3fs.Grant.rounds_answered_iff` — **a run answers every request as it should if and only if
  its receives can be trusted**;
* `AwsS3fs.Grant.failed_receive_replays` — the request before a failed receive is carried out
  twice.
-/

import AwsS3fs.Grant

set_option relaxedAutoImplicit false
set_option autoImplicit false

namespace AwsS3fs.Grant

open CLib

/-! ### Receiving -/

/-- `struct ucred`. -/
structure Credentials where
  pid : ℤ
  uid : ℤ
  gid : ℤ
  deriving DecidableEq

/-- An ancillary message. -/
inductive ControlMessage where
  | credentials (ucred : Credentials)
  | rights (fileHandle : ℤ)
  | other

/-- What `recvmsg` may come back with. -/
inductive Received where
  | failure
  | datagram (data : Bytes) (control : List ControlMessage)

/-- The loop over the ancillary messages: the result and the credentials. -/
def readControl (size : ℤ) : List ControlMessage → ℤ × Credentials → ℤ × Credentials
  | [], r => r
  | .credentials ucred :: control, _ => readControl size control (size, ucred)
  | .rights _ :: control, r => readControl size control r
  | .other :: control, r => readControl size control r

/-- `SocketReceiveDatagramFromClient`: the result, the buffer and the credentials.  The result of a
datagram with credentials is the size of the buffer, not that of the datagram. -/
def socketReceiveDatagramFromClient (buffer : Bytes) (credentials : Credentials) :
    Received → ℤ × Bytes × Credentials
  | .failure => (-1, buffer, credentials)
  | .datagram data control =>
      let (result, credentials) := readControl buffer.length control (-1, credentials)
      (result, data.take buffer.length ++ buffer.drop data.length, credentials)

/-- The credentials that came with the ancillary messages, the last ones if there were several. -/
def ownCredentials : List ControlMessage → Option Credentials
  | [] => none
  | .credentials ucred :: control => some ((ownCredentials control).getD ucred)
  | .rights _ :: control => ownCredentials control
  | .other :: control => ownCredentials control

/-- The pid that came with a datagram. -/
def Received.ownPid : Received → Option ℤ
  | .failure => none
  | .datagram _ control => (ownCredentials control).map Credentials.pid

/-- Credentials are replaced exactly if new ones came. -/
theorem readControl_eq (size : ℤ) (control : List ControlMessage) (r : ℤ × Credentials) :
    readControl size control r = match ownCredentials control with
      | none => r
      | some ucred => (size, ucred) := by
  induction control generalizing r with
  | nil => rfl
  | cons msg control ih =>
      cases msg with
      | credentials ucred =>
          rw [readControl, ih, ownCredentials]
          cases ownCredentials control <;> rfl
      | rights fd => rw [readControl, ih, ownCredentials]
      | other => rw [readControl, ih, ownCredentials]

/-! ### Carrying out a request -/

/-- What lies on the stack behind the request buffer.  The system leaves eight zero bytes at the
bottom of every stack. -/
structure Stack where
  bytes : Bytes
  bottom : List.replicate 8 0 <:+ bytes

/-- What a round of the loop depends on besides the datagram: the stack, the uninitialised arrays
of the handlers, and the file system. -/
structure Surroundings where
  stack : Stack
  directory : CharArray
  filename : CharArray
  fs : FileSystem
  reads : Reads

/-- `COMPARESTRINGS`, true when the macro yields `0`. -/
def compareStrings (request keyword : Bytes) (length : ℕ) : Bool :=
  decide (keyword.length < length) &&
    (request.take keyword.length).map tolower == keyword.map tolower

/-- The value of type `size_t` that a result of type `int` is converted to. -/
def sizeT (x : ℤ) : ℕ := (x % 2 ^ 64).toNat

/-- The handler a request is given to; nothing is done about `DELETE` and unknown requests. -/
def handler (cacheDir : Bytes) (env : Surroundings) (request : Bytes) (length : ℕ) :
    Option (List Syscall) :=
  let memory := request ++ env.stack.bytes
  if compareStrings request (ascii "CHOWN ") length then
    grantChown cacheDir (memory.drop 6) env.filename
  else if compareStrings request (ascii "PUBLISH ") length then
    grantPublish cacheDir (memory.drop 8) env.directory env.filename
  else if compareStrings request (ascii "CHUNK ") length then
    createFileChunk cacheDir env.fs env.reads (memory.drop 6) env.filename
  else some []

theorem Stack.count_drop_le (stack : Stack) {request : Bytes} {k : ℕ} (hk : k ≤ request.length) :
    8 ≤ ((request ++ stack.bytes).drop k).count 0 := by
  have hstack : 8 ≤ stack.bytes.count 0 := by
    have := stack.bottom.sublist.count_le 0
    rwa [List.count_replicate_self] at this
  rw [List.drop_append_of_le_length hk, List.count_append]
  omega

/-- **No handler runs off the stack.** -/
theorem isSome_handler (cacheDir : Bytes) (env : Surroundings) {request : Bytes} (length : ℕ)
    (hlen : request.length = 100) : (handler cacheDir env request length).isSome = true := by
  have h6 := env.stack.count_drop_le (show 6 ≤ request.length by omega)
  have h8 := env.stack.count_drop_le (show 8 ≤ request.length by omega)
  simp only [handler]
  split
  · exact isSome_grantChown cacheDir (by omega) _
  split
  · exact isSome_grantPublish cacheDir (by omega) _ _
  split
  · exact isSome_createFileChunk cacheDir (by omega) _ _ _
  · rfl

/-- The system calls made for an authorised request. -/
def dispatch (cacheDir : Bytes) (env : Surroundings) (request : Bytes) (length : ℕ)
    (hlen : request.length = 100) : List Syscall :=
  (handler cacheDir env request length).get (isSome_handler cacheDir env length hlen)

/-! ### The loop -/

/-- The variables that survive a round. -/
structure Loop where
  request : Bytes
  credentials : Credentials
  request_length : request.length = 100

/-- What a round does: the contents of the request buffer that it carries out, the system calls it
makes for them, and the replies it sends. -/
structure Outcome where
  executed : List Bytes
  calls : List Syscall
  replies : List Bytes

theorem length_socketReceiveDatagramFromClient (buffer : Bytes) (credentials : Credentials)
    (received : Received) :
    (socketReceiveDatagramFromClient buffer credentials received).2.1.length = buffer.length := by
  cases received with
  | failure => rfl
  | datagram data control =>
      simp only [socketReceiveDatagramFromClient, List.length_append, List.length_take,
        List.length_drop]
      omega

/-- The variables after a receive. -/
def Loop.receive (loop : Loop) (received : Received) : Loop where
  request := (socketReceiveDatagramFromClient loop.request loop.credentials received).2.1
  credentials := (socketReceiveDatagramFromClient loop.request loop.credentials received).2.2
  request_length := by
    rw [length_socketReceiveDatagramFromClient, loop.request_length]

/-- The variable `length` after a receive. -/
def Loop.length (loop : Loop) (received : Received) : ℕ :=
  sizeT (socketReceiveDatagramFromClient loop.request loop.credentials received).1

/-- One round of `InitializePermissionsGrant`. -/
def round (cacheDir : Bytes) (childPid : ℤ) (loop : Loop) (received : Received)
    (env : Surroundings) : Outcome :=
  let loop' := loop.receive received
  -- the result of the receive is used as the length of the request, and for nothing else
  if loop'.credentials.pid = childPid then
    { executed := [loop'.request]
      calls := dispatch cacheDir env loop'.request (loop.length received) loop'.request_length
      replies := [ascii "ACK" ++ [0]] }
  else
    { executed := []
      calls := []
      replies := [ascii "Not authorized" ++ [0]] }

/-- The loop of `InitializePermissionsGrant` over a sequence of receives. -/
def rounds (cacheDir : Bytes) (childPid : ℤ) : Loop → List (Received × Surroundings) →
    List Outcome
  | _, [] => []
  | loop, (received, env) :: rs =>
      round cacheDir childPid loop received env ::
        rounds cacheDir childPid (loop.receive received) rs

/-! ### What the loop is for -/

/-- **The purpose of a round**: a datagram that carries the pid of the download queue is carried
out once, as it was received; on anything else nothing is carried out; and there is one reply to a
datagram and none without. -/
def Answered (childPid : ℤ) (received : Received) (outcome : Outcome) : Prop :=
  match received with
  | .failure => outcome.executed = [] ∧ outcome.replies.length = 0
  | .datagram data control =>
      (if (Received.datagram data control).ownPid = some childPid then
        ∃ request, outcome.executed = [request] ∧ data.take 100 <+: request
      else outcome.executed = []) ∧
      outcome.replies.length = 1

/-- **The receives that can be trusted**, with the pid `held` in the credentials before them: none
fails, and a datagram without credentials does not find those of the download queue. -/
def Trusted (childPid : ℤ) : ℤ → List (Received × Surroundings) → Prop
  | _, [] => True
  | held, (received, _) :: rs =>
      (∃ data control, received = .datagram data control) ∧
      (received.ownPid = none → held ≠ childPid) ∧
      Trusted childPid (received.ownPid.getD held) rs

/-- The pid that is held after a receive. -/
theorem Loop.receive_pid (loop : Loop) (received : Received) :
    (loop.receive received).credentials.pid
      = received.ownPid.getD loop.credentials.pid := by
  cases received with
  | failure => rfl
  | datagram data control =>
      simp only [receive, socketReceiveDatagramFromClient, readControl_eq, Received.ownPid]
      cases ownCredentials control <;> rfl

/-- The request buffer starts with the datagram that was received last. -/
theorem Loop.take_prefix_receive (loop : Loop) (data : Bytes) (control : List ControlMessage) :
    data.take 100 <+: (loop.receive (.datagram data control)).request := by
  simp only [receive, socketReceiveDatagramFromClient, loop.request_length]
  exact List.prefix_append _ _

/-- A round does what it is for exactly if its receive can be trusted. -/
theorem round_answered_iff (cacheDir : Bytes) (childPid : ℤ) (loop : Loop) (received : Received)
    (env : Surroundings) :
    Answered childPid received (round cacheDir childPid loop received env) ↔
      (∃ data control, received = .datagram data control) ∧
      (received.ownPid = none → loop.credentials.pid ≠ childPid) := by
  have hpid := loop.receive_pid received
  cases received with
  | failure =>
      -- whatever the credentials are, a reply is sent
      simp only [Answered, round]
      split <;> simp
  | datagram data control =>
      simp only [Answered, round, hpid]
      cases hown : (Received.datagram data control).ownPid with
      | none =>
          simp only [Option.getD_none]
          by_cases hheld : loop.credentials.pid = childPid
          · simp [hheld]
          · simp [hheld]
      | some pid =>
          simp only [Option.getD_some, Option.some_inj]
          by_cases heq : pid = childPid
          · simp [heq, loop.take_prefix_receive data control]
          · simp [heq]

/-- **A run answers every request as it should if and only if its receives can be trusted.** -/
theorem rounds_answered_iff (cacheDir : Bytes) (childPid : ℤ) (loop : Loop)
    (rs : List (Received × Surroundings)) :
    List.Forall₂ (fun r outcome => Answered childPid r.1 outcome) rs
        (rounds cacheDir childPid loop rs) ↔
      Trusted childPid loop.credentials.pid rs := by
  induction rs generalizing loop with
  | nil => simp [rounds, Trusted]
  | cons r rs ih =>
      obtain ⟨received, env⟩ := r
      rw [rounds, List.forall₂_cons, ih, round_answered_iff, loop.receive_pid, Trusted, and_assoc]

/-! ### A failed receive -/

/-- A loop that has not received anything yet. -/
def Loop.idle : Loop := ⟨List.replicate 100 0, ⟨0, 0, 0⟩, by simp⟩

/-- Surroundings with nothing in them. -/
def Surroundings.empty : Surroundings :=
  ⟨⟨List.replicate 8 0, List.suffix_rfl⟩, fun _ => 0, fun _ => 0, fun _ => none, fun _ n => n⟩

/-- **The request before a failed receive is carried out twice**: the loop finds the credentials
and the request of the round before, and a length that no keyword exceeds. -/
theorem failed_receive_replays :
    (rounds (ascii "/cache") 42 Loop.idle
        [(.datagram (ascii "CHOWN 7:8:aB3dE5" ++ [0]) [.credentials ⟨42, 0, 0⟩], .empty),
          (.failure, .empty)]).map Outcome.calls
      = [[.chown (ascii "/cache/files/aB3dE5") 7 8], [.chown (ascii "/cache/files/aB3dE5") 7 8]] ∧
    ¬ List.Forall₂ (fun r outcome => Answered 42 r.1 outcome)
        [(Received.datagram (ascii "CHOWN 7:8:aB3dE5" ++ [0]) [.credentials ⟨42, 0, 0⟩],
            Surroundings.empty), (.failure, .empty)]
        (rounds (ascii "/cache") 42 Loop.idle
          [(.datagram (ascii "CHOWN 7:8:aB3dE5" ++ [0]) [.credentials ⟨42, 0, 0⟩], .empty),
            (.failure, .empty)]) := by
  refine ⟨by decide, fun h => ?_⟩
  simp only [rounds, List.forall₂_cons, round_answered_iff] at h
  obtain ⟨-, ⟨⟨data, control, hfailure⟩, -⟩, -⟩ := h
  exact absurd hfailure (by simp)

end AwsS3fs.Grant
