/-
**Bodies of requests and responses.**

`curl` delivers the body of a response in pieces, each with a call of `CurlWriteData`, and fetches
the body of a request with calls of `CurlReadData` (`s3comms.c`), each of which fills a buffer of
`curl`.  `CurlWriteData` puts a terminator behind every piece and counts it, so the next piece does
not begin where the last one ended.  `CurlReadData` copies one byte more than there is room for.

Main definitions:

* `AwsS3fs.curlWriteData`, `AwsS3fs.submitResponse` — a piece of a response, and what
  `s3_SubmitS3Request` returns after all of them;
* `AwsS3fs.curlReadData`, `AwsS3fs.readOffset`, `AwsS3fs.readPiece` — the calls for the body of a
  request;
* `AwsS3fs.ReceivedUnchanged`, `AwsS3fs.SentUnchanged` — the body arrives as it was sent.

Main results:

* `AwsS3fs.submitResponse_eq` — what is received: the pieces and a terminator behind each;
* `AwsS3fs.receivedUnchanged_iff` — **when a response is received unchanged**;
* `AwsS3fs.sent_eq` — what is sent is a prefix of the body;
* `AwsS3fs.sentUnchanged_iff` — **when a request is sent unchanged**: the first buffer holds it.
-/

import AwsS3fs.Lib.Bytes
import AwsS3fs.Lib.Pieces

set_option relaxedAutoImplicit false
set_option autoImplicit false

namespace AwsS3fs

open CLib Pieces

/-! ### Receiving a response -/

/-- `struct CurlWriteBuffer`; without data the pointer is `NULL`. -/
structure CurlWriteBuffer where
  data : Option Bytes
  size : ℕ

/-- A call of `CurlWriteData`: the data it is given, and what newly allocated memory holds. -/
structure WriteCall where
  piece : Bytes
  fresh : CharArray

/-- A block of `n` bytes, from `malloc` or `realloc`, that begins like an old one. -/
def enlarge (fresh : CharArray) (old : Bytes) (n : ℕ) : Bytes :=
  old.take n ++ fresh.read old.length (n - old.length)

/-- `CurlWriteData`. -/
def curlWriteData (writeBuffer : CurlWriteBuffer) (call : WriteCall) : CurlWriteBuffer :=
  let toCopy := call.piece.length
  let size := if writeBuffer.data = none then 0 else writeBuffer.size
  let data := enlarge call.fresh (writeBuffer.data.getD []) (size + toCopy + 1)
  { data := some (memcpy data size (call.piece.take (wrapInt toCopy).toNat ++ [0]))
    size := size + toCopy + 1 }

/-- What `s3_SubmitS3Request` returns after the calls: the response and its length. -/
def submitResponse (calls : List WriteCall) : Option Bytes × ℤ :=
  let writeBuffer := calls.foldl curlWriteData ⟨none, 0⟩
  (writeBuffer.data, wrapInt writeBuffer.size)

/-- The body that is delivered by the calls. -/
def deliveredBody (calls : List WriteCall) : Bytes := calls.flatMap (·.piece)

/-- **A response is received unchanged**: the buffer begins with the body, and the length is that of
the body. -/
def ReceivedUnchanged (calls : List WriteCall) : Prop :=
  deliveredBody calls <+: (submitResponse calls).1.getD [] ∧
    (submitResponse calls).2 = (deliveredBody calls).length

/-- `CURL_MAX_WRITE_SIZE`, the most that `curl` delivers at once. -/
def curlMaxWriteSize : ℕ := 16384

/-- A call in a buffer that is full up to its size. -/
theorem curlWriteData_eq {writeBuffer : CurlWriteBuffer} {call : WriteCall}
    (hsize : (writeBuffer.data.getD []).length = writeBuffer.size)
    (hmax : call.piece.length ≤ curlMaxWriteSize) :
    curlWriteData writeBuffer call =
      ⟨some (writeBuffer.data.getD [] ++ call.piece ++ [0]),
        writeBuffer.size + call.piece.length + 1⟩ := by
  have hcopy : (wrapInt call.piece.length).toNat = call.piece.length := by
    rw [curlMaxWriteSize] at hmax
    rw [wrapInt_of_lt (by omega) (by omega), Int.toNat_natCast]
  have hstart : (if writeBuffer.data = none then 0 else writeBuffer.size) = writeBuffer.size := by
    split
    · rename_i hnone
      rw [hnone] at hsize
      exact hsize
    · rfl
  have hblock : ∀ old fresh : Bytes, fresh.length = call.piece.length + 1 →
      memcpy (old ++ fresh) old.length (call.piece ++ [0]) = old ++ (call.piece ++ [0]) := by
    intro old fresh hfresh
    rw [memcpy_append, List.drop_of_length_le (by simp [hfresh]), List.append_nil]
  simp only [curlWriteData, hstart, hcopy, List.take_length]
  rw [← hsize, enlarge, List.take_of_length_le (by omega), hblock _ _ (by simp; omega),
    List.append_assoc]

/-- **What is received**: the pieces and a terminator behind each. -/
theorem foldl_curlWriteData {calls : List WriteCall}
    (hmax : ∀ call ∈ calls, call.piece.length ≤ curlMaxWriteSize) :
    ((calls.foldl curlWriteData ⟨none, 0⟩).data.getD [] = marked 0 (calls.map (·.piece))) ∧
      (calls.foldl curlWriteData ⟨none, 0⟩).size =
        (marked 0 (calls.map (·.piece))).length := by
  induction calls using List.reverseRecOn with
  | nil => exact ⟨rfl, rfl⟩
  | append_singleton calls call ih =>
      obtain ⟨hdata, hsize⟩ := ih fun c hc => hmax c (List.mem_append_left _ hc)
      have hcall := curlWriteData_eq (by rw [hdata, hsize])
        (hmax call (List.mem_append_right _ (List.mem_singleton_self call)))
      rw [List.foldl_append, List.foldl_cons, List.foldl_nil, hcall, hdata, hsize, List.map_append,
        marked_append]
      constructor
      · simp
      · simp
        omega

theorem deliveredBody_eq (calls : List WriteCall) :
    deliveredBody calls = (calls.map (·.piece)).flatten := List.flatMap_def

/-- A length is right although the terminators are counted. -/
theorem wrapInt_add_eq_iff (n k : ℕ) :
    wrapInt ((n + k : ℕ) : ℤ) = n ↔ n < 2 ^ 31 ∧ k % 2 ^ 32 = 0 := by
  rw [wrapInt, Int.bmod_def]
  omega

/-- The length that is reported. -/
theorem length_submitResponse {calls : List WriteCall}
    (hmax : ∀ call ∈ calls, call.piece.length ≤ curlMaxWriteSize) :
    (submitResponse calls).2 = wrapInt ((deliveredBody calls).length + calls.length : ℕ) := by
  simp only [submitResponse, (foldl_curlWriteData hmax).2, length_marked, deliveredBody_eq,
    List.length_map]

/-- **When a response is received unchanged**: never, unless the number of calls is a multiple of
`2 ^ 32`, as without any call, and everything behind the first piece is `'\\0'`. -/
theorem receivedUnchanged_iff {calls : List WriteCall}
    (hmax : ∀ call ∈ calls, call.piece.length ≤ curlMaxWriteSize) :
    ReceivedUnchanged calls ↔
      calls.length % 2 ^ 32 = 0 ∧ (deliveredBody calls).length < 2 ^ 31 ∧
        ∀ ch ∈ deliveredBody calls.tail, ch = 0 := by
  have hprefix : deliveredBody calls <+: (submitResponse calls).1.getD [] ↔
      ∀ ch ∈ deliveredBody calls.tail, ch = 0 := by
    simp only [submitResponse, (foldl_curlWriteData hmax).1]
    rw [deliveredBody_eq, deliveredBody_eq, flatten_prefix_marked_iff, List.map_tail]
  rw [ReceivedUnchanged, hprefix, length_submitResponse hmax, wrapInt_add_eq_iff]
  constructor
  · rintro ⟨hzero, hshort, hcalls⟩
    exact ⟨hcalls, hshort, hzero⟩
  · rintro ⟨hcalls, hshort, hzero⟩
    exact ⟨hzero, hshort, hcalls⟩

/-- A response in fewer than `2 ^ 32` calls is not received unchanged. -/
theorem not_receivedUnchanged {calls : List WriteCall} (hne : calls ≠ [])
    (hlt : calls.length < 2 ^ 32)
    (hmax : ∀ call ∈ calls, call.piece.length ≤ curlMaxWriteSize) : ¬ ReceivedUnchanged calls := by
  intro h
  have hlength := h.2
  rw [length_submitResponse hmax, wrapInt_add_eq_iff, Nat.mod_eq_of_lt hlt] at hlength
  exact hne (List.length_eq_zero_iff.1 hlength.2)

/-- The body `ab` in two calls. -/
def twoCalls : List WriteCall := [⟨ascii "a", fun _ => 0⟩, ⟨ascii "b", fun _ => 0⟩]

/-- What is received is not `ab`. -/
theorem receivedUnchanged_twoCalls : ¬ ReceivedUnchanged twoCalls :=
  fun h => absurd ((receivedUnchanged_iff (by decide +kernel)).1 h) (by decide +kernel)

/-- **A terminator stays between the pieces.** -/
theorem not_receivedUnchanged_twoCalls :
    ¬ ∀ calls : List WriteCall, calls ≠ [] →
      (∀ call ∈ calls, call.piece.length ≤ curlMaxWriteSize) → ReceivedUnchanged calls := by
  intro h
  have hreceived := h twoCalls (List.cons_ne_nil _ _) (by decide +kernel)
  revert hreceived
  rw [ReceivedUnchanged]
  decide +kernel

/-! ### Sending a request -/

/-- The loop of `CurlReadData` over the rest of the body, after `bytesCopied` bytes. -/
def copyBlock (maxWrite bytesCopied : ℤ) : Bytes → Bytes
  | [] => []
  | ch :: rest =>
      if bytesCopied ≤ maxWrite then ch :: copyBlock maxWrite (bytesCopied + 1) rest else []

/-- `CurlReadData` for a buffer with room for `room` bytes: what it writes there, and the offset
afterwards.  The number of bytes that it reports is the number of those that it writes. -/
def curlReadData (data : Bytes) (offset room : ℕ) : Bytes × ℕ :=
  let accumulatedTotal := (wrapInt offset).toNat
  let rest := (data.take (wrapInt data.length).toNat).drop accumulatedTotal
  let written := copyBlock (wrapInt room) 0 rest
  (written, accumulatedTotal + written.length)

section Send

variable (data : Bytes) (rooms : ℕ → ℕ)

/-- The offset before a call. -/
def readOffset : ℕ → ℕ
  | 0 => 0
  | n + 1 => (curlReadData data (readOffset n) (rooms n)).2

/-- What a call writes. -/
def readPiece (n : ℕ) : Bytes := (curlReadData data (readOffset data rooms n) (rooms n)).1

/-- What has been sent before a call. -/
def sent (n : ℕ) : Bytes := (List.range n).flatMap (readPiece data rooms)

/-- **A request is sent unchanged**, with buffers of any size: no call writes more than there is
room for, the pieces put together are the body, and a call writes nothing exactly if that is
done. -/
structure SentUnchanged : Prop where
  room : ∀ n, (readPiece data rooms n).length ≤ rooms n
  body : ∃ n, sent data rooms n = data
  exhausted : ∀ n, readPiece data rooms n = [] ↔ sent data rooms n = data

variable {data rooms}

/-- The loop stops one byte too late. -/
theorem copyBlock_eq (maxWrite bytesCopied : ℤ) (rest : Bytes) :
    copyBlock maxWrite bytesCopied rest = rest.take (maxWrite + 1 - bytesCopied).toNat := by
  induction rest generalizing bytesCopied with
  | nil => rw [List.take_nil, copyBlock]
  | cons ch rest ih =>
      rw [copyBlock]
      split
      · rename_i hle
        have hsucc : (maxWrite + 1 - bytesCopied).toNat =
            (maxWrite + 1 - (bytesCopied + 1)).toNat + 1 := by omega
        rw [ih, hsucc, List.take_succ_cons]
      · rename_i hlt
        rw [show (maxWrite + 1 - bytesCopied).toNat = 0 by omega, List.take_zero]

/-- The part of the body that the type `int` can count. -/
def countable (data : Bytes) : Bytes := data.take (wrapInt data.length).toNat

theorem length_countable_lt (data : Bytes) : (countable data).length < 2 ^ 31 := by
  have hlt : wrapInt data.length < 2 ^ 31 := by
    rw [wrapInt, Int.bmod_def]
    omega
  have hle := List.length_take_le (wrapInt data.length).toNat data
  rw [countable]
  omega

theorem countable_of_lt (h : data.length < 2 ^ 31) : countable data = data := by
  rw [countable, wrapInt_of_lt (by omega) (by omega), Int.toNat_natCast, List.take_length]

/-- The offset stays inside the body. -/
theorem readOffset_le (n : ℕ) : readOffset data rooms n ≤ (countable data).length := by
  induction n with
  | zero => exact Nat.zero_le _
  | succ n ih =>
      have hlt := length_countable_lt data
      have hoffset : (wrapInt (readOffset data rooms n)).toNat = readOffset data rooms n := by
        rw [wrapInt_of_lt (by omega) (by omega), Int.toNat_natCast]
      rw [readOffset, curlReadData]
      simp only [copyBlock_eq, hoffset, List.length_take, List.length_drop]
      rw [countable, List.length_take] at ih ⊢
      omega

/-- The offset fits into the type `int`. -/
theorem wrapInt_readOffset (n : ℕ) :
    (wrapInt (readOffset data rooms n)).toNat = readOffset data rooms n := by
  have hlt := length_countable_lt data
  have hle : readOffset data rooms n ≤ (countable data).length := readOffset_le n
  rw [wrapInt_of_lt (by omega) (by omega), Int.toNat_natCast]

/-- What a call writes: the next bytes of the body, one more than there is room for. -/
theorem readPiece_eq (n : ℕ) :
    readPiece data rooms n =
      ((countable data).drop (readOffset data rooms n)).take (wrapInt (rooms n) + 1).toNat := by
  rw [readPiece, curlReadData]
  simp only [copyBlock_eq, wrapInt_readOffset, Int.sub_zero]
  rfl

theorem readOffset_succ (n : ℕ) :
    readOffset data rooms (n + 1) =
      readOffset data rooms n + (readPiece data rooms n).length := by
  rw [readOffset, readPiece, curlReadData, wrapInt_readOffset]

/-- **What is sent** is what lies in front of the offset. -/
theorem sent_eq (n : ℕ) :
    sent data rooms n = (countable data).take (readOffset data rooms n) := by
  induction n with
  | zero => rfl
  | succ n ih =>
      have hnext : readPiece data rooms n =
          ((countable data).drop (readOffset data rooms n)).take
            (readPiece data rooms n).length := by
        conv_lhs => rw [readPiece_eq]
        rw [readPiece_eq, List.take_eq_take_iff, List.length_take]
        omega
      rw [sent, List.range_succ, List.flatMap_append, List.flatMap_singleton, ← sent, ih,
        readOffset_succ, List.take_add, ← hnext]

/-- A buffer with room for the whole body takes it at once. -/
theorem readOffset_of_le (hlt : data.length < 2 ^ 31) (hroom : data.length ≤ rooms 0)
    (hint : rooms 0 < 2 ^ 31) (n : ℕ) : readOffset data rooms (n + 1) = data.length := by
  induction n with
  | zero =>
      have hwrap : wrapInt (rooms 0) = rooms 0 := wrapInt_of_lt (by omega) (by omega)
      rw [readOffset_succ, readPiece_eq, countable_of_lt hlt, hwrap, readOffset, List.drop_zero,
        List.take_of_length_le (by omega), Nat.zero_add]
  | succ n ih =>
      rw [readOffset_succ, readPiece_eq, countable_of_lt hlt, ih, List.drop_length, List.take_nil]
      rfl

/-- **When a request is sent unchanged**: the first buffer has room for the whole body.  The buffers
of `curl` have room for at least one byte and for two megabytes at most, which an `int` can
count. -/
theorem sentUnchanged_iff (hrooms : ∀ n, 1 ≤ rooms n ∧ rooms n < 2 ^ 31) :
    SentUnchanged data rooms ↔ data.length < 2 ^ 31 ∧ data.length ≤ rooms 0 := by
  constructor
  · intro h
    have hlt : data.length < 2 ^ 31 := by
      obtain ⟨n, hn⟩ := h.body
      have hcountable := length_countable_lt data
      have hlength := congrArg List.length hn
      rw [sent_eq, List.length_take] at hlength
      omega
    refine ⟨hlt, ?_⟩
    have hroom := h.room 0
    have hwrap : wrapInt (rooms 0) = rooms 0 :=
      wrapInt_of_lt (by omega) (by have := (hrooms 0).2; omega)
    rw [readPiece_eq, countable_of_lt hlt, hwrap, readOffset, List.drop_zero, List.length_take]
      at hroom
    omega
  · rintro ⟨hlt, hroom⟩
    have hoffset := readOffset_of_le hlt hroom (hrooms 0).2
    have hwrap : wrapInt (rooms 0) = rooms 0 :=
      wrapInt_of_lt (by omega) (by have := (hrooms 0).2; omega)
    -- the first call writes the body, the others write nothing
    have hfirst : readPiece data rooms 0 = data := by
      rw [readPiece_eq, countable_of_lt hlt, hwrap, readOffset, List.drop_zero,
        List.take_of_length_le (by omega)]
    have hothers : ∀ n, readPiece data rooms (n + 1) = [] := fun n => by
      rw [readPiece_eq, countable_of_lt hlt, hoffset, List.drop_length, List.take_nil]
    have hsent : ∀ n, sent data rooms (n + 1) = data := fun n => by
      rw [sent_eq, countable_of_lt hlt, hoffset, List.take_length]
    constructor
    case room =>
      intro n
      cases n with
      | zero => rwa [hfirst]
      | succ n => rw [hothers]; exact Nat.zero_le _
    case body => exact ⟨1, hsent 0⟩
    case exhausted =>
      intro n
      cases n with
      | zero => rw [hfirst]; exact eq_comm
      | succ n => simp [hothers, hsent]

end Send

/-- Buffers of sixteen bytes are enough for a body of three, and buffers of two are not. -/
theorem sentUnchanged_abc :
    SentUnchanged (ascii "abc") (fun _ => 16) ∧ ¬ SentUnchanged (ascii "abc") fun _ => 2 :=
  ⟨(sentUnchanged_iff fun _ => ⟨by omega, by omega⟩).2 (by decide +kernel),
    fun h => absurd ((sentUnchanged_iff fun _ => ⟨by omega, by omega⟩).1 h) (by decide +kernel)⟩

/-- **Two bytes are written into a buffer for one.** -/
theorem not_sentUnchanged_abc :
    ¬ ∀ (data : Bytes) (rooms : ℕ → ℕ), (∀ n, 1 ≤ rooms n ∧ rooms n < 2 ^ 31) →
      SentUnchanged data rooms := by
  intro h
  have hroom := (h (ascii "abc") (fun _ => 1) fun _ => ⟨by omega, by omega⟩).room 0
  revert hroom
  decide +kernel

end AwsS3fs
