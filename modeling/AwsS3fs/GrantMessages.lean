/-
**The messages between the two processes.**

The unprivileged process writes its requests with `sprintf` into memory it has allocated by
counting the characters of a template, in `MoveToSharedCache` and `CreateFilePart`
(`downloadqueue.c`), and `SendGrantMessage` sends the string with its terminator.  This module
models the three kinds of messages and follows them through a round of the loop on the other side.

Main definitions:

* `AwsS3fs.Grant.Message` — a message and the memory allocated for it;
* `AwsS3fs.Grant.moveToSharedCache` — the three messages that publish a downloaded file;
* `AwsS3fs.Grant.createFilePart` — the length of a part, and the message that asks for it;
* `AwsS3fs.Grant.Message.datagram` — a message on its way.

Main results:

* `AwsS3fs.Grant.messages_roundtrip` — **the messages fit into the memory allocated for them and
  into the request buffer, and what is carried out is what was written**.
-/

import AwsS3fs.GrantLoop
import AwsS3fs.GrantRequests

set_option relaxedAutoImplicit false
set_option autoImplicit false

namespace AwsS3fs.Grant

open CLib

/-- A message, and the number of bytes allocated for it. -/
structure Message where
  size : ℕ
  text : Bytes

/-- A chown message, `sprintf( "CHOWN %d:%d:" )` and the path: `MoveToSharedCache` sends two of
them. -/
def chownMessage (path : Bytes) (uid gid : ℕ) : Message where
  size := path.length + (ascii "chown xxxxx xxxxx ").length + 1
  text := ascii "CHOWN " ++
    (formatInt (wrapInt uid) ++ colon :: (formatInt (wrapInt gid) ++ colon :: path))

/-- `MoveToSharedCache`: the messages it sends. -/
def moveToSharedCache (parentname : Bytes) (parentUid parentGid : ℕ) (filename : Bytes)
    (uid gid : ℕ) : List Message :=
  [chownMessage parentname parentUid parentGid,
    chownMessage (parentname ++ slash :: filename) uid gid,
    { size := parentname.length + filename.length + (ascii "publish :").length + 1
      text := ascii "PUBLISH " ++ (parentname ++ colon :: filename) }]

/-- `CreateFilePart`, with the name `fileChunkPath` that `mkstemp` has made up: the length of the
part, and the message it sends. -/
def createFilePart (filepath : Bytes) (part filesize : ℤ) (fileChunkPath : Bytes) : ℤ × Message :=
  (partSize part filesize,
    { size := filepath.length + fileChunkPath.length + 1 + (ascii "CHUNK 10000::").length
      text := ascii "CHUNK " ++ (formatInt part ++ colon :: (filepath ++ colon :: fileChunkPath)) })

/-- `SendGrantMessage`: the message as it arrives, with its terminator and the sender's
credentials. -/
def Message.datagram (msg : Message) (ucred : Credentials) : Received :=
  .datagram (msg.text ++ [0]) [.credentials ucred]

/-! ### Through a round of the loop -/

section

variable (cacheDir : Bytes) (childPid : ℤ) (loop : Loop) (env : Surroundings)
  {ucred : Credentials}

/-- A message of the download queue that fits into the request buffer is given to its handler. -/
theorem calls_round_datagram (hpid : ucred.pid = childPid) {msg : Message}
    (hlen : msg.text.length + 1 ≤ 100) :
    some (round cacheDir childPid loop (msg.datagram ucred) env).calls
      = handler cacheDir env (msg.text ++ 0 :: loop.request.drop (msg.text.length + 1)) 100 := by
  have hrequest : (loop.receive (msg.datagram ucred)).request
      = msg.text ++ 0 :: loop.request.drop (msg.text.length + 1) := by
    have htake : (msg.text ++ [0]).take 100 = msg.text ++ [0] :=
      List.take_of_length_le (by simpa using hlen)
    simp only [Loop.receive, Message.datagram, socketReceiveDatagramFromClient,
      loop.request_length, htake]
    simp
  have hlength : loop.length (msg.datagram ucred) = 100 := by
    simp only [Loop.length, Message.datagram, socketReceiveDatagramFromClient, readControl_eq,
      ownCredentials, loop.request_length]
    rfl
  have hheld : (loop.receive (msg.datagram ucred)).credentials.pid = childPid := by
    rw [loop.receive_pid]
    exact hpid
  simp only [round, hheld, if_true, dispatch, Option.some_get, hrequest, hlength]

/-- Memory behind a keyword of the request. -/
theorem drop_keyword (keyword params rest : Bytes) :
    (keyword ++ params ++ 0 :: rest ++ env.stack.bytes).drop keyword.length
      = params ++ 0 :: (rest ++ env.stack.bytes) := by
  simp

theorem handler_chown (params rest : Bytes) :
    handler cacheDir env (ascii "CHOWN " ++ params ++ 0 :: rest) 100
      = grantChown cacheDir (params ++ 0 :: (rest ++ env.stack.bytes)) env.filename := by
  have hchown : compareStrings (ascii "CHOWN " ++ params ++ 0 :: rest) (ascii "CHOWN ") 100
      = true := by rfl
  simp only [handler, hchown, if_true]
  rw [show (6 : ℕ) = (ascii "CHOWN ").length by rfl, drop_keyword env]

theorem handler_publish (params rest : Bytes) :
    handler cacheDir env (ascii "PUBLISH " ++ params ++ 0 :: rest) 100
      = grantPublish cacheDir (params ++ 0 :: (rest ++ env.stack.bytes)) env.directory
          env.filename := by
  have hchown : compareStrings (ascii "PUBLISH " ++ params ++ 0 :: rest) (ascii "CHOWN ") 100
      = false := by rfl
  have hpublish : compareStrings (ascii "PUBLISH " ++ params ++ 0 :: rest) (ascii "PUBLISH ") 100
      = true := by rfl
  simp only [handler, hchown, hpublish, if_true, Bool.false_eq_true, if_false]
  rw [show (8 : ℕ) = (ascii "PUBLISH ").length by rfl, drop_keyword env]

theorem handler_chunk (params rest : Bytes) :
    handler cacheDir env (ascii "CHUNK " ++ params ++ 0 :: rest) 100
      = createFileChunk cacheDir env.fs env.reads (params ++ 0 :: (rest ++ env.stack.bytes))
          env.filename := by
  have hchown : compareStrings (ascii "CHUNK " ++ params ++ 0 :: rest) (ascii "CHOWN ") 100
      = false := by rfl
  have hpublish : compareStrings (ascii "CHUNK " ++ params ++ 0 :: rest) (ascii "PUBLISH ") 100
      = false := by rfl
  have hchunk : compareStrings (ascii "CHUNK " ++ params ++ 0 :: rest) (ascii "CHUNK ") 100
      = true := by rfl
  simp only [handler, hchown, hpublish, hchunk, if_true, Bool.false_eq_true, if_false]
  rw [show (6 : ℕ) = (ascii "CHUNK ").length by rfl, drop_keyword env]

end

/-! ### The messages -/

/-- A number of at most five digits, as `sprintf` writes it. -/
theorem number_formatInt {n : ℕ} (h : n ≤ 99999) : Number (formatInt n) where
  digits := fun _ hd => isdigit_of_mem_formatInt hd
  ne_nil := formatInt_ne_nil n
  short := length_formatInt_le (by omega) (by omega)

theorem wrapInt_natCast {n : ℕ} (h : n ≤ 99999) : wrapInt n = n :=
  wrapInt_of_lt (by omega) (by omega)

/-- A chown message is in the notation of its handler. -/
theorem chownNotation_message {path : Bytes} (hpath : PathNotation path) {uid gid : ℕ}
    (huid : uid ≤ 99999) (hgid : gid ≤ 99999) :
    ∃ params, (chownMessage path uid gid).text = ascii "CHOWN " ++ params ∧
      ChownNotation params uid gid path := by
  refine ⟨_, rfl, ?_⟩
  rw [wrapInt_natCast huid, wrapInt_natCast hgid]
  have h := ChownNotation.intro (number_formatInt huid) (number_formatInt hgid) hpath
  rwa [decimalValue_formatInt, decimalValue_formatInt] at h

/-- A chown message fits, with its terminator. -/
theorem chownMessage_fits {path : Bytes} {uid gid : ℕ} (huid : uid ≤ 99999) (hgid : gid ≤ 99999)
    (hpath : path.length ≤ 13) :
    (chownMessage path uid gid).text.length + 1 ≤ (chownMessage path uid gid).size ∧
      (chownMessage path uid gid).text.length + 1 ≤ 100 := by
  have hu := (number_formatInt huid).short
  have hg := (number_formatInt hgid).short
  have h6 : (ascii "CHOWN ").length = 6 := rfl
  have h18 : (ascii "chown xxxxx xxxxx ").length = 18 := rfl
  simp only [chownMessage, List.length_append, List.length_cons, wrapInt_natCast huid,
    wrapInt_natCast hgid, h6, h18]
  omega

/-- The message of `CreateFilePart` is in the notation of its handler. -/
theorem chunkNotation_message {path : Bytes} (hpath : PathNotation path) {part : ℕ}
    (h₀ : 1 ≤ part) (h₁ : part ≤ 10000) (filesize : ℤ) (dest : Name) :
    ∃ params, (createFilePart path part filesize dest.chars).2.text = ascii "CHUNK " ++ params ∧
      ChunkNotation params part path dest := by
  refine ⟨_, rfl, ?_⟩
  have h := ChunkNotation.intro (number_formatInt (show part ≤ 99999 by omega)) hpath dest
    (by rw [decimalValue_formatInt]; exact h₀) (by rw [decimalValue_formatInt]; exact h₁)
  rwa [decimalValue_formatInt] at h

/-- The message of `CreateFilePart` fits, with its terminator. -/
theorem chunkMessage_fits {path : Bytes} {part : ℕ} (h₁ : part ≤ 10000)
    (hpath : path.length ≤ 13) (filesize : ℤ) (dest : Name) :
    (createFilePart path part filesize dest.chars).2.text.length + 1
        ≤ (createFilePart path part filesize dest.chars).2.size ∧
      (createFilePart path part filesize dest.chars).2.text.length + 1 ≤ 100 := by
  have hpart := (number_formatInt (show part ≤ 99999 by omega)).short
  have h6 : (ascii "CHUNK ").length = 6 := rfl
  have h13 : (ascii "CHUNK 10000::").length = 13 := rfl
  simp only [createFilePart, List.length_append, List.length_cons, Name.length_eq, h6, h13]
  omega

section

variable (cacheDir : Bytes) (childPid : ℤ) (loop : Loop) (env : Surroundings)
  {ucred : Credentials} (hpid : ucred.pid = childPid)

include hpid

/-- A chown message is carried out as it was written. -/
theorem calls_chownMessage {path : Bytes} (hpath : PathNotation path) (hlen : path.length ≤ 13)
    {uid gid : ℕ} (huid : uid ≤ 99999) (hgid : gid ≤ 99999) :
    (round cacheDir childPid loop ((chownMessage path uid gid).datagram ucred) env).calls
      = [.chown (cacheFiles cacheDir ++ path) uid gid] := by
  obtain ⟨params, htext, hnot⟩ := chownNotation_message hpath huid hgid
  have h := calls_round_datagram cacheDir childPid loop env hpid
    (chownMessage_fits huid hgid hlen).2
  rw [htext, handler_chown, (hnot.text.request _).grantChown_eq] at h
  exact Option.some_inj.1 h

/-- A chunk message is carried out as it was written. -/
theorem calls_chunkMessage {path : Bytes} (hpath : PathNotation path) (hlen : path.length ≤ 13)
    {part : ℕ} (h₀ : 1 ≤ part) (h₁ : part ≤ 10000) (filesize : ℤ) (dest : Name) :
    (round cacheDir childPid loop
        ((createFilePart path part filesize dest.chars).2.datagram ucred) env).calls
      = copyChunk env.fs env.reads part (cacheFiles cacheDir ++ path)
          (cacheInprogress cacheDir ++ dest.chars) := by
  obtain ⟨params, htext, hnot⟩ := chunkNotation_message hpath h₀ h₁ filesize dest
  have h := calls_round_datagram cacheDir childPid loop env hpid
    (chunkMessage_fits h₁ hlen filesize dest).2
  rw [htext, handler_chunk, (hnot.text.request _).createFileChunk_eq] at h
  exact Option.some_inj.1 h

/-- A publish message is carried out as it was written. -/
theorem calls_publishMessage {msg : Message} (d n : Name)
    (htext : msg.text = ascii "PUBLISH " ++ (d.chars ++ colon :: n.chars)) :
    (round cacheDir childPid loop (msg.datagram ucred) env).calls
      = publishCalls cacheDir d.chars n.chars := by
  have hlen : msg.text.length + 1 ≤ 100 := by
    have h8 : (ascii "PUBLISH ").length = 8 := rfl
    rw [htext]
    simp [h8]
  have h := calls_round_datagram cacheDir childPid loop env hpid hlen
  rw [htext, handler_publish,
    ((PublishNotation.intro d n).text.request _).grantPublish_eq] at h
  exact Option.some_inj.1 h

/-- **The messages fit, and what is carried out is what was written.**  Each of the messages that
`MoveToSharedCache` and `CreateFilePart` build fits, with its terminator, into the memory allocated
for it and into the request buffer; and in a round that receives it from the download queue,
whatever the loop has received before, the handler acts with exactly the owners, the directory, the
file, the part and the destination that were written into it. -/
theorem messages_roundtrip (dir file dest : Name) {parentUid parentGid uid gid part : ℕ}
    (hparentUid : parentUid ≤ 99999) (hparentGid : parentGid ≤ 99999) (huid : uid ≤ 99999)
    (hgid : gid ≤ 99999) (h₀ : 1 ≤ part) (h₁ : part ≤ 10000) (filesize : ℤ) :
    (∀ msg ∈ (createFilePart (dir.chars ++ slash :: file.chars) part filesize dest.chars).2 ::
        moveToSharedCache dir.chars parentUid parentGid file.chars uid gid,
      msg.text.length + 1 ≤ msg.size ∧ msg.text.length + 1 ≤ 100) ∧
    (moveToSharedCache dir.chars parentUid parentGid file.chars uid gid).map
        (fun msg => (round cacheDir childPid loop (msg.datagram ucred) env).calls)
      = [[.chown (cacheFiles cacheDir ++ dir.chars) parentUid parentGid],
          [.chown (cacheFiles cacheDir ++ (dir.chars ++ slash :: file.chars)) uid gid],
          publishCalls cacheDir dir.chars file.chars] ∧
    (round cacheDir childPid loop ((createFilePart (dir.chars ++ slash :: file.chars) part filesize
        dest.chars).2.datagram ucred) env).calls
      = copyChunk env.fs env.reads part (cacheFiles cacheDir ++ (dir.chars ++ slash :: file.chars))
          (cacheInprogress cacheDir ++ dest.chars) := by
  have hlen : (dir.chars ++ slash :: file.chars).length ≤ 13 := by simp
  refine ⟨fun msg hmsg => ?_, ?_, ?_⟩
  · simp only [moveToSharedCache, List.mem_cons, List.not_mem_nil, or_false] at hmsg
    rcases hmsg with rfl | rfl | rfl | rfl
    · exact chunkMessage_fits h₁ hlen filesize dest
    · exact chownMessage_fits hparentUid hparentGid (by simp)
    · exact chownMessage_fits huid hgid hlen
    · have h8 : (ascii "PUBLISH ").length = 8 := rfl
      have h9 : (ascii "publish :").length = 9 := rfl
      simp [h8, h9]
  · simp only [moveToSharedCache, List.map_cons, List.map_nil]
    rw [calls_chownMessage cacheDir childPid loop env hpid (PathNotation.name dir) (by simp)
        hparentUid hparentGid,
      calls_chownMessage cacheDir childPid loop env hpid (PathNotation.nested dir file) hlen
        huid hgid,
      calls_publishMessage cacheDir childPid loop env hpid dir file rfl]
  · exact calls_chunkMessage cacheDir childPid loop env hpid (PathNotation.nested dir file) hlen
      h₀ h₁ filesize dest

end

/-- The name `aB3dE5`. -/
def Name.sample : Name := ⟨ascii "aB3dE5", rfl, List.all_eq_true.mp rfl⟩

/-- A name of digits only, which could be taken for a number. -/
def Name.digits : Name := ⟨ascii "012345", rfl, List.all_eq_true.mp rfl⟩

/-- The largest owners and the largest part, for a file whose name is all digits. -/
theorem messages_roundtrip_largest :
    (moveToSharedCache Name.sample.chars 99999 99999 Name.digits.chars 99999 99999).map
        (fun msg => (round (ascii "/cache") 42 Loop.idle (msg.datagram ⟨42, 0, 0⟩) .empty).calls)
      = [[.chown (ascii "/cache/files/aB3dE5") 99999 99999],
          [.chown (ascii "/cache/files/aB3dE5/012345") 99999 99999],
          publishCalls (ascii "/cache") Name.sample.chars Name.digits.chars] :=
  (messages_roundtrip (ascii "/cache") 42 Loop.idle .empty
    (show Credentials.pid ⟨42, 0, 0⟩ = 42 from rfl) Name.sample Name.digits Name.sample
    (by decide) (by decide) (by decide) (by decide) (show 1 ≤ 10000 by decide) (by decide) 0).2.1

end AwsS3fs.Grant
