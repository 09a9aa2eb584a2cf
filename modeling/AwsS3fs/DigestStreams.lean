/-
**Digests of data that arrives in pieces.**

A digest is made from data in memory, from a file, or from pieces that are passed one after another.
MD5 takes complete blocks from wherever they are and carries up to 64 bytes over in its buffer;
SHA-1 takes one byte at a time.  A file is read in blocks of 4096 bytes, each of them by as many
calls of `fread` as it takes.  Whatever the way, the state says how much of the data has been mixed
with the registers, and the rest of it is in the buffer.

Main definitions:

* `AwsS3fs.md5ProcessContinuous`, `AwsS3fs.md5FlushState` — pieces of data, and the end of it;
* `AwsS3fs.sha1Input`, `AwsS3fs.sha1Result` — the same for SHA-1;
* `AwsS3fs.digestBuffer`, `AwsS3fs.digestStream` — the digests of memory and of a file;
* `AwsS3fs.Md5Fed`, `AwsS3fs.Sha1Fed` — **the invariant**: the state of a digest after some data.

Main results:

* `AwsS3fs.Md5Fed.processContinuous`, `AwsS3fs.Sha1Fed.input` — what a piece does to the state;
* `AwsS3fs.Md5Fed.flushState`, `AwsS3fs.Sha1Fed.result` — what is returned in the end;
* `AwsS3fs.digests_eq` — **every way gives the digest of the data**.
-/

import AwsS3fs.DigestBlocks
import AwsS3fs.Base64Coding

set_option relaxedAutoImplicit false
set_option autoImplicit false

open CLib Digests

namespace AwsS3fs

/-! ### MD5 -/

/-- `n & ~63`. -/
def completeBlocks (n : ℕ) : ℕ := n / 64 * 64

/-- `MD5ProcessContinuous`, the bytes that are concatenated with those in the internal buffer: the
state, and how many they are. -/
def md5FillBuffer (buffer : Bytes) (ctx : DigestState) : DigestState × ℕ :=
  let leftOver := ctx.buflen
  let toAdd := if buffer.length < 128 - leftOver then buffer.length else 128 - leftOver
  let ctx := { ctx with
    buffer := ctx.buffer.write leftOver (buffer.take toAdd)
    buflen := ctx.buflen + toAdd }
  if 64 < leftOver + toAdd then
    let full := completeBlocks (leftOver + toAdd)
    let ctx := md5ProcessBlock (ctx.buffer.read 0 full) ctx
    ({ ctx with
      buffer := ctx.buffer.write 0 (ctx.buffer.read full ((leftOver + toAdd) % 64))
      buflen := (leftOver + toAdd) % 64 }, toAdd)
  else (ctx, toAdd)

/-- `MD5ProcessContinuous`, the available complete blocks: the state, and the remaining bytes. -/
def md5CompleteBlocks (buffer : Bytes) (ctx : DigestState) : DigestState × Bytes :=
  if 64 < buffer.length then
    (md5ProcessBlock (buffer.take (completeBlocks buffer.length)) ctx,
      buffer.drop (completeBlocks buffer.length))
  else (ctx, buffer)

/-- `MD5ProcessContinuous`, the remaining bytes. -/
def md5MoveRemaining (buffer : Bytes) (ctx : DigestState) : DigestState :=
  if 0 < buffer.length then
    { ctx with buffer := ctx.buffer.write 0 buffer, buflen := buffer.length }
  else ctx

/-- `MD5ProcessContinuous`. -/
def md5ProcessContinuous (buffer : Bytes) (ctx : DigestState) : DigestState :=
  let (ctx, toAdd) := if ctx.buflen ≠ 0 then md5FillBuffer buffer ctx else (ctx, 0)
  let (ctx, remaining) := md5CompleteBlocks (buffer.drop toAdd) ctx
  md5MoveRemaining remaining ctx

/-- `fillbuf`. -/
def fillbuf : Bytes := 0x80 :: List.replicate 63 0

/-- `RestoreState`, on a little-endian host. -/
def restoreState (ctx : DigestState) : Bytes :=
  toLE 4 ctx.registers.A.toNat ++ toLE 4 ctx.registers.B.toNat ++
    toLE 4 ctx.registers.C.toNat ++ toLE 4 ctx.registers.D.toNat

/-- The padding that `MD5FlushState` chooses. -/
def md5PaddingLength (bytes : ℕ) : ℕ := if 56 ≤ bytes then 64 + 56 - bytes else 56 - bytes

/-- `MD5FlushState`. -/
def md5FlushState (ctx : DigestState) : Bytes :=
  let bytes := ctx.buflen
  let total0 := ctx.total0 + UInt32.ofNat bytes
  let total1 := if total0.toNat < bytes then ctx.total1 + 1 else ctx.total1
  let padding := md5PaddingLength bytes
  let buffer := ctx.buffer.write bytes (fillbuf.take padding)
  -- the 64-bit file length in bits at the end of the buffer, in two little-endian words
  let buffer := buffer.write (bytes + padding) (toLE 4 (total0 <<< 3).toNat)
  let buffer := buffer.write (bytes + padding + 4)
    (toLE 4 ((total1 <<< 3) ||| (total0 >>> 29)).toNat)
  let ctx := { ctx with total0 := total0, total1 := total1, buffer := buffer }
  restoreState (md5ProcessBlock (ctx.buffer.read 0 (bytes + padding + 8)) ctx)

/-! ### SHA-1 -/

/-- One byte in the loop of `SHA1Input`. -/
def sha1InputByte (ctx : DigestState) (ch : UInt8) : DigestState :=
  if ctx.corrupted then ctx
  else
    let total0 := (ctx.total0 + 8) &&& 0xFFFFFFFF
    let ctx := { ctx with
      buffer := ctx.buffer.write ctx.buflen [ch]
      buflen := ctx.buflen + 1
      total0 := total0 }
    let ctx : DigestState :=
      if total0 = 0 then
        let total1 := (ctx.total1 + 1) &&& 0xFFFFFFFF
        -- a message that is too long
        { ctx with total1 := total1, corrupted := ctx.corrupted || total1 == 0 }
      else ctx
    if ctx.buflen = 64 then sha1ProcessMessageBlock ctx else ctx

/-- `SHA1Input`.  The length is an `unsigned`. -/
def sha1Input (ctx : DigestState) (message_array : Bytes) : DigestState :=
  let length := message_array.length % 2 ^ 32
  if length = 0 then ctx
  else if ctx.computed || ctx.corrupted then { ctx with corrupted := true }
  else (message_array.take length).foldl sha1InputByte ctx

/-- The bytes of a word, the most significant one first: `( word >> 24 ) & 0xFF` and so on. -/
def wordBytes (word : UInt32) : Bytes :=
  [((word >>> 24) &&& 0xFF).toUInt8, ((word >>> 16) &&& 0xFF).toUInt8,
    ((word >>> 8) &&& 0xFF).toUInt8, (word &&& 0xFF).toUInt8]

/-- The loop that appends zeros to the buffer up to an index. -/
def sha1FillTo (n : ℕ) (ctx : DigestState) : DigestState :=
  { ctx with
    buffer := ctx.buffer.write ctx.buflen (List.replicate (n - ctx.buflen) 0)
    buflen := max n ctx.buflen }

/-- The message length as the last 8 octets. -/
def sha1StoreLength (ctx : DigestState) : DigestState :=
  { ctx with buffer := ctx.buffer.write 56 (wordBytes ctx.total1 ++ wordBytes ctx.total0) }

/-- `SHA1PadMessage`. -/
def sha1PadMessage (ctx : DigestState) : DigestState :=
  let start := { ctx with
    buffer := ctx.buffer.write ctx.buflen [0x80]
    buflen := ctx.buflen + 1 }
  let ctx :=
    if 55 < ctx.buflen then sha1FillTo 56 (sha1ProcessMessageBlock (sha1FillTo 64 start))
    else sha1FillTo 56 start
  sha1ProcessMessageBlock (sha1StoreLength ctx)

/-- `SHA1Result`. -/
def sha1Result (ctx : DigestState) : DigestState :=
  if ctx.corrupted then ctx
  else if ctx.computed then ctx
  else { sha1PadMessage ctx with computed := true }

/-- `Sha1StateToBinDigest`. -/
def sha1StateToBinDigest (state : DigestState) : Bytes :=
  wordBytes state.registers.A ++ wordBytes state.registers.B ++ wordBytes state.registers.C ++
    wordBytes state.registers.D ++ wordBytes state.registers.E

/-! ### Digests of memory and of files -/

/-- `enum HashFunctions`. -/
inductive HashFunction
  | md5 | sha1
deriving DecidableEq

/-- `enum HashEncodings`. -/
inductive HashEncoding
  | base64 | bin | hex
deriving DecidableEq

/-- `sprintf( "%02x" )` of a byte. -/
def hexByte (ch : UInt8) : Bytes :=
  let digits := ascii "0123456789abcdef"
  [digits.getD (ch.toNat / 16) 0, digits.getD (ch.toNat % 16) 0]

/-- `EncodeDigest`. -/
def encodeDigest (resblock : Bytes) : HashEncoding → Bytes
  | .hex => resblock.flatMap hexByte
  | .base64 => encodeBase64 resblock
  | .bin => resblock

/-- `DigestBuffer`.  The state is a local variable that was not initialised. -/
def digestBuffer (state : DigestState) (buffer : Bytes) (function : HashFunction)
    (encoding : HashEncoding) : Bytes :=
  let state := initializeDigestState state
  let resblock :=
    match function with
    | .md5 => md5FlushState (md5ProcessContinuous buffer state)
    | .sha1 => sha1StateToBinDigest (sha1Result (sha1Input state buffer))
  encodeDigest resblock encoding

/-- A file that is read: how many bytes each call of `fread` wants to return, the calls that were
made, what has not been read, and whether the end of it is a read error. -/
structure InputStream where
  wants : ℕ → ℕ
  calls : ℕ
  rest : Bytes
  error : Bool

/-- `fread` of at most `n` bytes.  It may return fewer, but it only returns none at the end. -/
def InputStream.fread (stream : InputStream) (n : ℕ) : Bytes × InputStream :=
  let k := min n (max 1 (stream.wants stream.calls))
  (stream.rest.take k, { stream with calls := stream.calls + 1, rest := stream.rest.drop k })

theorem InputStream.fread_append (stream : InputStream) (n : ℕ) :
    (stream.fread n).1 ++ (stream.fread n).2.rest = stream.rest :=
  List.take_append_drop _ _

theorem InputStream.length_fread (stream : InputStream) (n : ℕ) :
    (stream.fread n).1.length + (stream.fread n).2.rest.length = stream.rest.length := by
  rw [← List.length_append, stream.fread_append]

/-- `BLOCKSIZE`. -/
def blocksize : ℕ := 4096

/-- The loop that reads a block, which goes on after a partial read: the bytes in the buffer, those
of the last read, and the file. -/
def readBlock (buffer : Bytes) (stream : InputStream) : Bytes × Bytes × InputStream :=
  let bytes := (stream.fread (blocksize - buffer.length)).1
  let stream' := (stream.fread (blocksize - buffer.length)).2
  if _h : (buffer ++ bytes).length < blocksize ∧ bytes ≠ [] then readBlock (buffer ++ bytes) stream'
  else (buffer ++ bytes, bytes, stream')
termination_by stream.rest.length
decreasing_by
  have hlength := stream.length_fread (blocksize - buffer.length)
  have hpos : 0 < (stream.fread (blocksize - buffer.length)).1.length := List.length_pos_iff.2 _h.2
  change (stream.fread (blocksize - buffer.length)).2.rest.length < stream.rest.length
  omega

/-- Reading a block takes it from the file. -/
theorem readBlock_append (buffer : Bytes) (stream : InputStream) :
    (readBlock buffer stream).1 ++ (readBlock buffer stream).2.2.rest = buffer ++ stream.rest := by
  induction buffer, stream using readBlock.induct with
  | case1 buffer stream bytes stream' h ih =>
      rw [readBlock, dif_pos h, ih, List.append_assoc, stream.fread_append]
  | case2 buffer stream bytes h =>
      rw [readBlock, dif_neg h, List.append_assoc, stream.fread_append]

/-- A block whose last read returned something is full. -/
theorem length_readBlock {buffer : Bytes} (hbuffer : buffer.length < blocksize)
    {stream : InputStream}
    (h : (readBlock buffer stream).2.1 ≠ []) : (readBlock buffer stream).1.length = blocksize := by
  induction buffer, stream using readBlock.induct with
  | case1 buffer stream bytes stream' hmore ih =>
      rw [readBlock, dif_pos hmore] at h ⊢
      exact ih hmore.1 h
  | case2 buffer stream bytes hmore =>
      rw [readBlock, dif_neg hmore] at h ⊢
      have hle : bytes.length ≤ blocksize - buffer.length :=
        (List.length_take_le _ _).trans (min_le_left _ _)
      have hfull : ¬ (buffer ++ bytes).length < blocksize := fun hlt => hmore ⟨hlt, h⟩
      change (buffer ++ bytes).length = blocksize
      rw [List.length_append] at hfull ⊢
      omega

/-- A block whose last read returned nothing is the end of the file. -/
theorem rest_readBlock {buffer : Bytes} (hbuffer : buffer.length < blocksize) {stream : InputStream}
    (h : (readBlock buffer stream).2.1 = []) : (readBlock buffer stream).2.2.rest = [] := by
  induction buffer, stream using readBlock.induct with
  | case1 buffer stream bytes stream' hmore ih =>
      rw [readBlock, dif_pos hmore] at h ⊢
      exact ih hmore.1 h
  | case2 buffer stream bytes hmore =>
      rw [readBlock, dif_neg hmore] at h ⊢
      have hnone : (stream.fread (blocksize - buffer.length)).1 = [] := h
      have hk : 0 < min (blocksize - buffer.length) (max 1 (stream.wants stream.calls)) := by omega
      have hrest : stream.rest = [] := by
        rcases List.take_eq_nil_iff.1 hnone with h₀ | h₀
        · omega
        · exact h₀
      change stream.rest.drop _ = []
      rw [hrest, List.drop_nil]

theorem error_readBlock (buffer : Bytes) (stream : InputStream) :
    (readBlock buffer stream).2.2.error = stream.error := by
  induction buffer, stream using readBlock.induct with
  | case1 buffer stream bytes stream' h ih =>
      rw [readBlock, dif_pos h, ih]
      rfl
  | case2 buffer stream bytes h =>
      rw [readBlock, dif_neg h]
      rfl

/-- What `DigestStream` does with a full block of `BLOCKSIZE` bytes. -/
def digestFullBlock (function : HashFunction) (buffer : Bytes) (state : DigestState) :
    DigestState :=
  match function with
  | .md5 => md5ProcessBlock buffer state
  | .sha1 => sha1Input state buffer

/-- The loop of `DigestStream`: the state and the bytes of the last, incomplete block.  On a read
error there is nothing. -/
def digestBlocks (function : HashFunction) (state : DigestState) (stream : InputStream) :
    Option (DigestState × Bytes) :=
  if _h : (readBlock [] stream).2.1 = [] then
    if stream.error then none else some (state, (readBlock [] stream).1)
  else
    digestBlocks function (digestFullBlock function (readBlock [] stream).1 state)
      (readBlock [] stream).2.2
termination_by stream.rest.length
decreasing_by
  have happend := congrArg List.length (readBlock_append [] stream)
  have hlength := length_readBlock (by decide) _h
  simp only [List.length_append, List.nil_append, hlength, blocksize] at happend
  omega

/-- `DigestStream`: the digest, and nothing on file errors. -/
def digestStream (state : DigestState) (stream : InputStream) (function : HashFunction)
    (encoding : HashEncoding) : Option Bytes :=
  (digestBlocks function (initializeDigestState state) stream).map fun (state, remaining) =>
    let resblock :=
      match function with
      | .md5 =>
          md5FlushState
            (if 0 < remaining.length then md5ProcessContinuous remaining state else state)
      | .sha1 =>
          sha1StateToBinDigest (sha1Result
            (if 0 < remaining.length then sha1Input state remaining else state))
    encodeDigest resblock encoding

/-! ### Data in MD5 -/

/-- Complete blocks that are mixed with the registers and counted. -/
structure Md5Mixed (registers : Registers) (total0 total1 : UInt32) (done : Bytes) : Prop where
  dvd : 64 ∣ done.length
  total0 : total0.toNat = done.length
  total1 : total1 = 0
  registers : registers.seenFrom .A = Blocks.absorb MD5.compress 64 MD5.init done

/-- **The state of MD5 after some data**: complete blocks are mixed with the registers, and the
buffer holds what follows them. -/
structure Md5Fed (ctx : DigestState) (data : Bytes) : Prop where
  buflen_le : ctx.buflen ≤ 64
  mixed : ∃ done, data = done ++ ctx.buffer.read 0 ctx.buflen ∧
    Md5Mixed ctx.registers ctx.total0 ctx.total1 done

theorem md5Fed_initial (ctx : DigestState) : Md5Fed (initializeDigestState ctx) [] where
  buflen_le := Nat.zero_le _
  mixed := ⟨[], rfl, Nat.dvd_zero _, rfl, rfl, rfl⟩

theorem dvd_completeBlocks (n : ℕ) : 64 ∣ completeBlocks n := Nat.dvd_mul_left 64 _

theorem completeBlocks_add_mod (n : ℕ) : completeBlocks n + n % 64 = n := by
  rw [completeBlocks]
  omega

/-- `MD5ProcessBlock` mixes complete blocks with the registers. -/
theorem Md5Mixed.processBlock {ctx : DigestState} {done : Bytes}
    (h : Md5Mixed ctx.registers ctx.total0 ctx.total1 done) {buffer : Bytes}
    (hdvd : 64 ∣ buffer.length) (hlt : (done ++ buffer).length < 2 ^ 32) :
    Md5Mixed (md5ProcessBlock buffer ctx).registers (md5ProcessBlock buffer ctx).total0
      (md5ProcessBlock buffer ctx).total1 (done ++ buffer) := by
  rw [List.length_append] at hlt
  have hsum : (md5ProcessBlock buffer ctx).total0.toNat = done.length + buffer.length := by
    simp only [md5ProcessBlock, UInt32.toNat_add, UInt32.toNat_ofNat', Nat.add_mod_mod, h.total0]
    exact Nat.mod_eq_of_lt hlt
  refine ⟨?_, ?_, ?_, ?_⟩
  · rw [List.length_append]
    exact Nat.dvd_add h.dvd hdvd
  · rw [hsum, List.length_append]
  · -- the count does not wrap around
    have hnot : ¬ (ctx.total0 + UInt32.ofNat buffer.length).toNat < buffer.length := by
      change ¬ (md5ProcessBlock buffer ctx).total0.toNat < buffer.length
      omega
    simp only [md5ProcessBlock, if_neg hnot]
    exact h.total1
  · rw [Blocks.absorb_append _ (by omega) _ h.dvd, ← h.registers]
    exact seenFrom_absorb _ _

/-- With an empty buffer all data is mixed with the registers. -/
theorem Md5Fed.mixed_of_empty {ctx : DigestState} {data : Bytes} (h : Md5Fed ctx data)
    (hempty : ctx.buflen = 0) : Md5Mixed ctx.registers ctx.total0 ctx.total1 data := by
  obtain ⟨-, done, rfl, hmixed⟩ := h
  rw [hempty]
  change Md5Mixed _ _ _ (done ++ [])
  rwa [List.append_nil]

theorem md5Fed_of_mixed {ctx : DigestState} {data : Bytes}
    (h : Md5Mixed ctx.registers ctx.total0 ctx.total1 data) (hempty : ctx.buflen = 0) :
    Md5Fed ctx data := by
  refine ⟨by rw [hempty]; exact Nat.zero_le _, data, ?_, h⟩
  rw [hempty]
  exact (List.append_nil data).symm

/-- Bytes that are concatenated with those in the buffer.  Afterwards the buffer is empty, or there
are no bytes left. -/
theorem Md5Fed.fillBuffer {ctx : DigestState} {data : Bytes} (h : Md5Fed ctx data) (buffer : Bytes)
    (hlt : (data ++ buffer).length < 2 ^ 32) :
    Md5Fed (md5FillBuffer buffer ctx).1 (data ++ buffer.take (md5FillBuffer buffer ctx).2) ∧
      ((md5FillBuffer buffer ctx).1.buflen = 0 ∨
        buffer.drop (md5FillBuffer buffer ctx).2 = []) := by
  obtain ⟨hbuflen, done, rfl, hmixed⟩ := h
  obtain ⟨toAdd, htoAdd⟩ : ∃ toAdd, (if buffer.length < 128 - ctx.buflen then buffer.length
      else 128 - ctx.buflen) = toAdd := ⟨_, rfl⟩
  have hle : toAdd ≤ buffer.length := by split at htoAdd <;> omega
  have hall : ctx.buflen + toAdd = 128 ∨ toAdd = buffer.length := by split at htoAdd <;> omega
  have htake : (buffer.take toAdd).length = toAdd := by rw [List.length_take]; omega
  -- the buffer holds its bytes and those that are added
  obtain ⟨bytes, hbytes⟩ : ∃ bytes, ctx.buffer.read 0 ctx.buflen ++ buffer.take toAdd = bytes :=
    ⟨_, rfl⟩
  have hlength : bytes.length = ctx.buflen + toAdd := by
    rw [← hbytes, List.length_append, CharArray.length_read, htake]
  have hread : (ctx.buffer.write ctx.buflen (buffer.take toAdd)).read 0 (ctx.buflen + toAdd)
      = bytes := by
    have h := CharArray.read_write_after ctx.buffer 0 ctx.buflen (buffer.take toAdd)
    rwa [Nat.zero_add, htake, hbytes] at h
  have hdata : done ++ ctx.buffer.read 0 ctx.buflen ++ buffer.take toAdd = done ++ bytes := by
    rw [List.append_assoc, hbytes]
  unfold md5FillBuffer
  simp only [htoAdd]
  rw [List.append_assoc, ← List.take_append_drop toAdd buffer,
    ← List.append_assoc (ctx.buffer.read _ _),
    hbytes] at hlt
  by_cases hfull : 64 < ctx.buflen + toAdd
  · rw [if_pos hfull]
    -- the complete blocks of the buffer are processed, and the rest of it is moved to its start
    generalize hbuffer : ctx.buffer.write ctx.buflen (buffer.take toAdd) = memory at hread ⊢
    have hsplit : memory.read 0 (completeBlocks (ctx.buflen + toAdd))
        ++ memory.read (completeBlocks (ctx.buflen + toAdd)) ((ctx.buflen + toAdd) % 64) =
          bytes := by
      rw [← hread]
      conv_rhs =>
        rw [← completeBlocks_add_mod (ctx.buflen + toAdd), CharArray.read_add, Nat.zero_add]
    have hblocks := CharArray.length_read memory 0 (completeBlocks (ctx.buflen + toAdd))
    rw [← hsplit] at hlt hdata
    refine ⟨⟨(Nat.mod_lt _ (by omega)).le,
      done ++ memory.read 0 (completeBlocks (ctx.buflen + toAdd)), ?_, ?_⟩, ?_⟩
    · rw [hdata, ← List.append_assoc]
      refine congrArg _ ?_
      have h := CharArray.read_write memory 0
        (memory.read (completeBlocks (ctx.buflen + toAdd)) ((ctx.buflen + toAdd) % 64))
      rw [CharArray.length_read] at h
      exact h.symm
    · refine @Md5Mixed.processBlock { ctx with buffer := memory } _ hmixed _
        (hblocks.symm ▸ dvd_completeBlocks _) (lt_of_le_of_lt ?_ hlt)
      simp only [List.length_append]
      omega
    · rcases hall with hall | hall
      · exact .inl (by rw [hall])
      · exact .inr (List.drop_eq_nil_of_le hall.ge)
  · rw [if_neg hfull]
    refine ⟨⟨Nat.le_of_not_lt hfull, done, ?_, hmixed⟩, .inr (List.drop_eq_nil_of_le (by omega))⟩
    rw [hdata]
    exact congrArg (done ++ ·) hread.symm

/-- Complete blocks that are processed where they are, and the bytes that remain. -/
theorem Md5Fed.processBlocks {ctx : DigestState} {data : Bytes} (h : Md5Fed ctx data)
    {buffer : Bytes} (hempty : ctx.buflen = 0 ∨ buffer = [])
    (hlt : (data ++ buffer).length < 2 ^ 32) :
    Md5Fed (md5MoveRemaining (md5CompleteBlocks buffer ctx).2 (md5CompleteBlocks buffer ctx).1)
      (data ++ buffer) := by
  have hmove : ∀ {ctx : DigestState} {data remaining : Bytes},
      Md5Mixed ctx.registers ctx.total0 ctx.total1 data → ctx.buflen = 0 → remaining.length ≤ 64 →
      Md5Fed (md5MoveRemaining remaining ctx) (data ++ remaining) := by
    intro ctx data remaining hmixed hempty hle
    unfold md5MoveRemaining
    split
    · exact ⟨hle, data, congrArg (data ++ ·) (CharArray.read_write _ _ _).symm, hmixed⟩
    · obtain rfl : remaining = [] := List.length_eq_zero_iff.1 (by omega)
      rw [List.append_nil]
      exact md5Fed_of_mixed hmixed hempty
  rcases hempty with hempty | rfl
  · have hmixed := h.mixed_of_empty hempty
    unfold md5CompleteBlocks
    split
    · have hsplit : data ++ buffer = data ++ buffer.take (completeBlocks buffer.length)
          ++ buffer.drop (completeBlocks buffer.length) := by
        rw [List.append_assoc, List.take_append_drop]
      have hblocks := completeBlocks_add_mod buffer.length
      have hdvd : 64 ∣ (buffer.take (completeBlocks buffer.length)).length := by
        rw [List.length_take_of_le (by omega)]
        exact dvd_completeBlocks _
      rw [hsplit] at hlt ⊢
      refine hmove (hmixed.processBlock hdvd ?_) hempty ?_
      · rw [List.length_append] at hlt
        omega
      · rw [List.length_drop]
        omega
    · rename_i hshort
      exact hmove hmixed hempty (Nat.le_of_not_lt hshort)
  · rw [List.append_nil]
    exact h

/-- **A piece of data.** -/
theorem Md5Fed.processContinuous {ctx : DigestState} {data : Bytes} (h : Md5Fed ctx data)
    {buffer : Bytes} (hlt : (data ++ buffer).length < 2 ^ 32) :
    Md5Fed (md5ProcessContinuous buffer ctx) (data ++ buffer) := by
  unfold md5ProcessContinuous
  by_cases hempty : ctx.buflen = 0
  · rw [if_neg (not_not.2 hempty)]
    exact h.processBlocks (.inl hempty) hlt
  · rw [if_pos hempty]
    obtain ⟨hfed, hrest⟩ := h.fillBuffer buffer hlt
    have hsplit : data ++ buffer = data ++ buffer.take (md5FillBuffer buffer ctx).2
        ++ buffer.drop (md5FillBuffer buffer ctx).2 := by
      rw [List.append_assoc, List.take_append_drop]
    rw [hsplit] at hlt ⊢
    exact hfed.processBlocks hrest hlt

/-- The bytes that `MD5FlushState` appends are the padding of the message. -/
theorem fillbuf_append_length {length : ℕ} {total0 : UInt32} (htotal : total0.toNat = length)
    {bytes : ℕ} (hbytes : bytes ≤ 64) (hmod : length % 64 = bytes % 64) :
    fillbuf.take (md5PaddingLength bytes) ++
        (toLE 4 (total0 <<< 3).toNat ++ toLE 4 (((0 : UInt32) <<< 3) ||| (total0 >>> 29)).toNat)
      = 0x80 :: List.replicate (zeros length) 0 ++ toLE 8 (8 * length) := by
  have hlow : (total0 <<< 3).toNat = 8 * length % 256 ^ 4 := by
    rw [UInt32.toNat_shiftLeft, htotal, Nat.shiftLeft_eq, Nat.mul_comm]
    rfl
  have hhigh : (((0 : UInt32) <<< 3) ||| (total0 >>> 29)).toNat = 8 * length / 256 ^ 4 := by
    have hzero : ((0 : UInt32) <<< 3) ||| (total0 >>> 29) = total0 >>> 29 := UInt32.zero_or
    rw [hzero, UInt32.toNat_shiftRight, htotal, Nat.shiftRight_eq_div_pow]
    simp only [UInt32.reduceToNat, Nat.reduceMod, Nat.reducePow]
    omega
  have hfill : ∀ n < 64, fillbuf.take (n + 1) = 0x80 :: List.replicate n 0 := by
    intro n hn
    rw [fillbuf, List.take_succ_cons, List.take_replicate, min_eq_left (by omega)]
  have hzeros : md5PaddingLength bytes = zeros length + 1 ∧ zeros length < 64 := by
    rw [md5PaddingLength, zeros, hmod]
    split <;> omega
  rw [hlow, hhigh, toLE_mod, ← toLE_add 4 4, hzeros.1, hfill _ hzeros.2]

/-- **The end of the data.** -/
theorem Md5Fed.flushState {ctx : DigestState} {data : Bytes} (h : Md5Fed ctx data)
    (hlt : data.length < 2 ^ 32) : md5FlushState ctx = MD5.digest data := by
  obtain ⟨hbuflen, done, hdata, hmixed⟩ := h
  have hlength : data.length = done.length + ctx.buflen := by
    rw [hdata, List.length_append, CharArray.length_read]
  have hsum : (ctx.total0 + UInt32.ofNat ctx.buflen).toNat = data.length := by
    rw [UInt32.toNat_add, UInt32.toNat_ofNat', Nat.add_mod_mod, hmixed.total0, ← hlength,
      Nat.mod_eq_of_lt hlt]
  have hdvd := hmixed.dvd
  have hpadding := fillbuf_append_length hsum hbuflen (by omega)
  have hfill : (fillbuf.take (md5PaddingLength ctx.buflen)).length =
      md5PaddingLength ctx.buflen := by
    rw [List.length_take, fillbuf, List.length_cons, List.length_replicate, md5PaddingLength]
    split <;> omega
  generalize hlow : toLE 4 ((ctx.total0 + UInt32.ofNat ctx.buflen) <<< 3).toNat = low at hpadding
  generalize hhigh : toLE 4 (((0 : UInt32) <<< 3) |||
    ((ctx.total0 + UInt32.ofNat ctx.buflen) >>> 29)).toNat = high at hpadding
  have hwords : low.length = 4 ∧ high.length = 4 := by
    rw [← hlow, ← hhigh]
    exact ⟨length_toLE _ _, length_toLE _ _⟩
  -- the buffer ends in the padding of the whole message
  obtain ⟨padding, hpad⟩ : ∃ padding, 0x80 :: List.replicate (zeros data.length) 0
      ++ toLE 8 (8 * data.length) = padding := ⟨_, rfl⟩
  rw [hpad] at hpadding
  have hread : (((ctx.buffer.write ctx.buflen (fillbuf.take (md5PaddingLength ctx.buflen))).write
        (ctx.buflen + md5PaddingLength ctx.buflen) low).write
        (ctx.buflen + md5PaddingLength ctx.buflen + 4) high).read 0
          (ctx.buflen + md5PaddingLength ctx.buflen + 8)
      = ctx.buffer.read 0 ctx.buflen ++ padding := by
    have hwrite : ctx.buffer.write ctx.buflen padding
        = ((ctx.buffer.write ctx.buflen (fillbuf.take (md5PaddingLength ctx.buflen))).write
          (ctx.buflen + md5PaddingLength ctx.buflen) low).write
          (ctx.buflen + md5PaddingLength ctx.buflen + 4) high := by
      rw [← hpadding, CharArray.write_append, CharArray.write_append, hfill, hwords.1]
    have hafter := CharArray.read_write_after ctx.buffer 0 ctx.buflen padding
    have hlen : padding.length = md5PaddingLength ctx.buflen + 8 := by
      rw [← hpadding, List.length_append, List.length_append, hfill, hwords.1, hwords.2]
    rwa [Nat.zero_add, hwrite, hlen, ← Nat.add_assoc] at hafter
  have hmessage : done ++ (ctx.buffer.read 0 ctx.buflen ++ padding) = pad (toLE 8) data := by
    rw [pad, List.append_assoc, hpad, ← List.append_assoc, ← hdata]
  have hnot : ¬ (ctx.total0 + UInt32.ofNat ctx.buflen).toNat < ctx.buflen := by omega
  unfold md5FlushState
  simp only [if_neg hnot, hmixed.total1, hlow, hhigh, hread]
  rw [MD5.digest, ← hmessage, Blocks.absorb_append _ (by omega) _ hdvd, ← hmixed.registers,
    ← seenFrom_absorb]
  rfl

/-! ### Data in SHA-1 -/

/-- The number in the two words of the count. -/
def bitCount (total0 total1 : UInt32) : ℕ := total0.toNat + total1.toNat * 2 ^ 32

/-- **The state of SHA-1 after some data**: complete blocks are mixed with the registers, the buffer
holds what follows them, and all bits are counted. -/
structure Sha1Fed (ctx : DigestState) (data : Bytes) : Prop where
  buflen_lt : ctx.buflen < 64
  total : bitCount ctx.total0 ctx.total1 = 8 * data.length
  computed : ctx.computed = false
  corrupted : ctx.corrupted = false
  mixed : ∃ done, data = done ++ ctx.buffer.read 0 ctx.buflen ∧ 64 ∣ done.length ∧
    ctx.registers.sha1 = Blocks.absorb SHA1.compress 64 SHA1.init done

theorem sha1Fed_initial (ctx : DigestState) : Sha1Fed (initializeDigestState ctx) [] where
  buflen_lt := by
    change 0 < 64
    omega
  total := by
    change 0 + 0 * 2 ^ 32 = 8 * 0
    omega
  computed := rfl
  corrupted := rfl
  mixed := ⟨[], rfl, Nat.dvd_zero _, rfl⟩

/-- The block in the buffer is mixed with the registers. -/
theorem sha1_processMessageBlock_absorb {ctx : DigestState} {done block : Bytes}
    (hdone : 64 ∣ done.length) (hread : ctx.buffer.read 0 64 = block)
    (h : ctx.registers.sha1 = Blocks.absorb SHA1.compress 64 SHA1.init done) :
    (sha1ProcessMessageBlock ctx).registers.sha1
      = Blocks.absorb SHA1.compress 64 SHA1.init (done ++ block) := by
  have hblock : block.length = 64 := hread ▸ CharArray.length_read _ _ _
  rw [Blocks.absorb_append _ (by omega) _ hdone, ← h, Blocks.absorb_block _ (by omega) _ hblock,
    sha1_sha1ProcessMessageBlock, hread]

/-- Eight more bits carry over into the high word when the low word becomes zero. -/
theorem count_add_eight {t₀ t₁ n : ℕ} (h : t₀ + t₁ * 2 ^ 32 = 8 * n) (ht₀ : t₀ < 2 ^ 32) :
    (t₀ + 8) % 2 ^ 32 + (if (t₀ + 8) % 2 ^ 32 = 0 then t₁ + 1 else t₁) * 2 ^ 32 = 8 * (n + 1) := by
  split
  · omega
  · omega

/-- **The count of the bits** after another byte, which does not overflow. -/
theorem total_add_eight {total0 total1 : UInt32} {n : ℕ}
    (h : bitCount total0 total1 = 8 * n) (hn : n < 2 ^ 32) :
    bitCount (total0 + 8) (if total0 + 8 = 0 then total1 + 1 else total1) = 8 * (n + 1) ∧
      (total1 + 1 == 0) = false := by
  have h₀ := total0.toNat_lt
  rw [bitCount] at h
  have hnat0 : (total0 + 8).toNat = (total0.toNat + 8) % 2 ^ 32 := UInt32.toNat_add _ _
  have hnat1 : (total1 + 1).toNat = total1.toNat + 1 := by
    rw [UInt32.toNat_add]
    exact Nat.mod_eq_of_lt (by simp only [UInt32.reduceToNat]; omega)
  have hzero : total0 + 8 = 0 ↔ (total0.toNat + 8) % 2 ^ 32 = 0 := by
    rw [← UInt32.toNat_inj, hnat0, UInt32.toNat_zero]
  constructor
  · rw [bitCount, hnat0, apply_ite UInt32.toNat, hnat1]
    simp only [hzero]
    exact count_add_eight h h₀
  · refine beq_eq_false_iff_ne.2 fun heq => ?_
    rw [heq, UInt32.toNat_zero] at hnat1
    omega

/-- **A byte of data.** -/
theorem Sha1Fed.inputByte {ctx : DigestState} {data : Bytes} (h : Sha1Fed ctx data) (ch : UInt8)
    (hlt : data.length < 2 ^ 32) : Sha1Fed (sha1InputByte ctx ch) (data ++ [ch]) := by
  obtain ⟨registers, total0, total1, buflen, buffer, computed, corrupted⟩ := ctx
  obtain ⟨hbuflen, htotal, rfl, rfl, done, hdata, hdone, hregisters⟩ := h
  obtain ⟨hcount, hshort⟩ := total_add_eight htotal hlt
  rw [← List.length_singleton (a := ch), ← List.length_append] at hcount
  have hread : (buffer.write buflen [ch]).read 0 (buflen + 1) = buffer.read 0 buflen ++ [ch] := by
    have h := CharArray.read_write_after buffer 0 buflen [ch]
    rwa [Nat.zero_add] at h
  have hdata' : data ++ [ch] = done ++ (buffer.write buflen [ch]).read 0 (buflen + 1) := by
    rw [hread, ← List.append_assoc, ← hdata]
  have hcounted : (if total0 + 8 = 0 then
        (⟨registers, total0 + 8, total1 + 1, buflen + 1, buffer.write buflen [ch], false,
          false || total1 + 1 == 0⟩ : DigestState)
      else ⟨registers, total0 + 8, total1, buflen + 1, buffer.write buflen [ch], false, false⟩)
      = ⟨registers, total0 + 8, if total0 + 8 = 0 then total1 + 1 else total1, buflen + 1,
          buffer.write buflen [ch], false, false⟩ := by
    rw [hshort]
    split
    · rfl
    · rfl
  unfold sha1InputByte
  simp only [Bool.false_eq_true, if_false, and_ffffffff]
  rw [hcounted]
  by_cases hfull : buflen + 1 = 64
  · -- the byte completes a block
    rw [if_pos hfull]
    rw [hfull] at hdata'
    refine ⟨by change 0 < 64; omega, hcount, rfl, rfl, data ++ [ch], ?_, ?_, ?_⟩
    · exact (List.append_nil _).symm
    · rw [hdata', List.length_append, CharArray.length_read]
      omega
    · rw [hdata']
      exact sha1_processMessageBlock_absorb hdone rfl hregisters
  · rw [if_neg hfull]
    refine ⟨?_, hcount, rfl, rfl, done, hdata', hdone, hregisters⟩
    change buflen + 1 < 64
    change buflen < 64 at hbuflen
    omega

/-- **A piece of data.** -/
theorem Sha1Fed.input {ctx : DigestState} {data : Bytes} (h : Sha1Fed ctx data)
    {message_array : Bytes} (hlt : (data ++ message_array).length < 2 ^ 32) :
    Sha1Fed (sha1Input ctx message_array) (data ++ message_array) := by
  have hfold : ∀ {ctx : DigestState} {data bytes : Bytes}, Sha1Fed ctx data →
      (data ++ bytes).length < 2 ^ 32 →
        Sha1Fed (bytes.foldl sha1InputByte ctx) (data ++ bytes) := by
    intro ctx data bytes h hlt
    induction bytes generalizing ctx data with
    | nil => rwa [List.append_nil]
    | cons ch bytes ih =>
        rw [List.append_cons] at hlt ⊢
        refine ih (h.inputByte ch ?_) hlt
        simp only [List.length_append, List.length_singleton] at hlt
        omega
  have hlength : message_array.length % 2 ^ 32 = message_array.length := by
    rw [List.length_append] at hlt
    exact Nat.mod_eq_of_lt (by omega)
  simp only [sha1Input, hlength, h.computed, h.corrupted, Bool.or_false, List.take_length]
  split
  · rename_i hzero
    rwa [List.length_eq_zero_iff.1 hzero, List.append_nil]
  · exact hfold h hlt

/-- A byte of a word. -/
theorem toUInt8_shiftRight_and {k : UInt32} (hk : k.toNat < 32) (word : UInt32) :
    ((word >>> k) &&& 0xFF).toUInt8 = UInt8.ofNat (word.toNat / 2 ^ k.toNat) := by
  refine UInt8.toNat_inj.1 ?_
  rw [UInt32.toNat_toUInt8, UInt32.toNat_and, UInt32.toNat_shiftRight, Nat.mod_eq_of_lt hk,
    Nat.shiftRight_eq_div_pow, UInt8.toNat_ofNat']
  exact (congrArg (· % 256) (Nat.and_two_pow_sub_one_eq_mod _ 8)).trans (Nat.mod_mod _ _)

/-- The bytes of a word. -/
theorem wordBytes_eq (word : UInt32) : wordBytes word = toBE 4 word.toNat := by
  have hlast : (word &&& 0xFF).toUInt8 = UInt8.ofNat word.toNat := by
    refine UInt8.toNat_inj.1 ?_
    rw [UInt32.toNat_toUInt8, UInt32.toNat_and, UInt8.toNat_ofNat']
    exact (congrArg (· % 256) (Nat.and_two_pow_sub_one_eq_mod _ 8)).trans (Nat.mod_mod _ _)
  rw [wordBytes, toUInt8_shiftRight_and (by decide), toUInt8_shiftRight_and (by decide),
    toUInt8_shiftRight_and (by decide), hlast]
  simp [toBE, toLE, List.range_succ]

theorem sha1StateToBinDigest_eq (state : DigestState) :
    sha1StateToBinDigest state = SHA1.output state.registers.sha1 := by
  simp only [sha1StateToBinDigest, wordBytes_eq, SHA1.output, Registers.sha1]

@[simp] theorem total_sha1FillTo (n : ℕ) (ctx : DigestState) :
    (sha1FillTo n ctx).total0 = ctx.total0 ∧ (sha1FillTo n ctx).total1 = ctx.total1 := ⟨rfl, rfl⟩

@[simp] theorem total_sha1ProcessMessageBlock (ctx : DigestState) :
    (sha1ProcessMessageBlock ctx).total0 = ctx.total0 ∧
      (sha1ProcessMessageBlock ctx).total1 = ctx.total1 := by
  cases ctx
  exact ⟨rfl, rfl⟩

/-- The loop that appends zeros. -/
theorem read_sha1FillTo {n : ℕ} {ctx : DigestState} (h : ctx.buflen ≤ n) :
    (sha1FillTo n ctx).buffer.read 0 n
      = ctx.buffer.read 0 ctx.buflen ++ List.replicate (n - ctx.buflen) 0 := by
  have hafter := CharArray.read_write_after ctx.buffer 0 ctx.buflen
    (List.replicate (n - ctx.buflen) 0)
  rw [Nat.zero_add, List.length_replicate, Nat.add_sub_cancel' h] at hafter
  exact hafter

/-- The last block: 56 bytes, and the length. -/
theorem sha1_last {ctx : DigestState} {done first : Bytes} {length : ℕ}
    (htotal : bitCount ctx.total0 ctx.total1 = 8 * length) (hdone : 64 ∣ done.length)
    (hfirst : ctx.buffer.read 0 56 = first)
    (h : ctx.registers.sha1 = Blocks.absorb SHA1.compress 64 SHA1.init done) :
    (sha1ProcessMessageBlock (sha1StoreLength ctx)).registers.sha1
      = Blocks.absorb SHA1.compress 64 SHA1.init (done ++ (first ++ toBE 8 (8 * length))) := by
  have h₀ := ctx.total0.toNat_lt
  rw [bitCount] at htotal
  have hhigh : 8 * length / 256 ^ 4 = ctx.total1.toNat := by omega
  have hlow : 8 * length % 256 ^ 4 = ctx.total0.toNat := by omega
  have hbytes : wordBytes ctx.total1 ++ wordBytes ctx.total0 = toBE 8 (8 * length) := by
    rw [wordBytes_eq, wordBytes_eq, toBE_add 4 4, hhigh, ← hlow, toBE_mod]
  refine sha1_processMessageBlock_absorb hdone ?_ h
  change (ctx.buffer.write 56 (wordBytes ctx.total1 ++ wordBytes ctx.total0)).read 0 64 = _
  have hafter := CharArray.read_write_after ctx.buffer 0 56 (toBE 8 (8 * length))
  rw [Nat.zero_add, length_toBE, hfirst] at hafter
  rw [hbytes]
  exact hafter

section Pad

/-! The buffer holds the end of the data and the bit that follows it. -/

variable {start : DigestState} {done carried : Bytes}
  (hread : start.buffer.read 0 start.buflen = carried ++ [0x80])
  (hbuflen : start.buflen = carried.length + 1) (hdone : 64 ∣ done.length)
  (htotal : bitCount start.total0 start.total1 = 8 * (done ++ carried).length)
  (hregisters : start.registers.sha1 = Blocks.absorb SHA1.compress 64 SHA1.init done)

include hread hbuflen hdone htotal hregisters

/-- The padding in one block. -/
theorem sha1_fillTo_56 (hshort : carried.length ≤ 55) :
    (sha1ProcessMessageBlock (sha1StoreLength (sha1FillTo 56 start))).registers.sha1
      = Blocks.absorb SHA1.compress 64 SHA1.init (pad (toBE 8) (done ++ carried)) := by
  have hfill : (sha1FillTo 56 start).buffer.read 0 56
      = carried ++ [0x80] ++ List.replicate (55 - carried.length) 0 := by
    rw [read_sha1FillTo (by omega), hread, hbuflen, Nat.add_comm, ← Nat.sub_sub]
  have hzeros : zeros (done ++ carried).length = 55 - carried.length := by
    rw [zeros, List.length_append]
    omega
  have hmessage : pad (toBE 8) (done ++ carried) = done ++ ((carried ++ [0x80]
      ++ List.replicate (55 - carried.length) 0) ++ toBE 8 (8 * (done ++ carried).length)) := by
    rw [pad, hzeros]
    simp only [List.append_assoc, List.cons_append, List.nil_append]
  rw [hmessage]
  exact sha1_last (by simpa using htotal) hdone hfill hregisters

/-- The padding in two blocks: the length does not fit into the first one. -/
theorem sha1_fillTo_64 (hlong : 55 < carried.length) (hlt : carried.length < 64) :
    (sha1ProcessMessageBlock (sha1StoreLength
        (sha1FillTo 56 (sha1ProcessMessageBlock (sha1FillTo 64 start))))).registers.sha1
      = Blocks.absorb SHA1.compress 64 SHA1.init (pad (toBE 8) (done ++ carried)) := by
  have hfill : (sha1FillTo 64 start).buffer.read 0 64
      = carried ++ [0x80] ++ List.replicate (63 - carried.length) 0 := by
    rw [read_sha1FillTo (by omega), hread, hbuflen, Nat.add_comm, ← Nat.sub_sub]
  have hmixed := sha1_processMessageBlock_absorb hdone hfill hregisters
  have hblock : 64 ∣ (done ++ (carried ++ [0x80]
      ++ List.replicate (63 - carried.length) 0)).length := by
    simp only [List.length_append, List.length_singleton, List.length_replicate]
    omega
  have hzeros : zeros (done ++ carried).length = (63 - carried.length) + 56 := by
    rw [zeros, List.length_append]
    omega
  have hmessage : pad (toBE 8) (done ++ carried) = done ++ (carried ++ [0x80]
      ++ List.replicate (63 - carried.length) 0)
        ++ (List.replicate 56 0 ++ toBE 8 (8 * (done ++ carried).length)) := by
    rw [pad, hzeros, List.replicate_add]
    simp only [List.append_assoc, List.cons_append, List.nil_append]
  have hsecond : (sha1FillTo 56 (sha1ProcessMessageBlock (sha1FillTo 64 start))).buffer.read 0 56
      = List.replicate 56 0 := read_sha1FillTo (Nat.zero_le 56)
  rw [hmessage]
  exact sha1_last (by simpa using htotal) hblock hsecond hmixed

end Pad

/-- **The end of the data.** -/
theorem Sha1Fed.result {ctx : DigestState} {data : Bytes} (h : Sha1Fed ctx data) :
    sha1StateToBinDigest (sha1Result ctx) = SHA1.digest data := by
  obtain ⟨registers, total0, total1, buflen, buffer, computed, corrupted⟩ := ctx
  obtain ⟨hbuflen, htotal, rfl, rfl, done, rfl, hdone, hregisters⟩ := h
  change buflen < 64 at hbuflen
  obtain ⟨carried, hcarried⟩ : ∃ carried, buffer.read 0 buflen = carried := ⟨_, rfl⟩
  have hlength : carried.length = buflen := hcarried ▸ CharArray.length_read _ _ _
  obtain ⟨start, hctx⟩ : ∃ start : DigestState,
      ⟨registers, total0, total1, buflen + 1, buffer.write buflen [0x80], false, false⟩ = start :=
    ⟨_, rfl⟩
  have hread : start.buffer.read 0 start.buflen = carried ++ [0x80] := by
    have hafter := CharArray.read_write_after buffer 0 buflen [0x80]
    rw [Nat.zero_add, hcarried] at hafter
    rw [← hctx]
    exact hafter
  have hbuflen' : start.buflen = carried.length + 1 := by rw [← hctx, hlength]
  have htotal' : bitCount start.total0 start.total1 = 8 * (done ++ carried).length := by
    rw [← hctx, ← hcarried]
    exact htotal
  have hregisters' : start.registers.sha1 = Blocks.absorb SHA1.compress 64 SHA1.init done := by
    rw [← hctx]
    exact hregisters
  rw [sha1StateToBinDigest_eq, SHA1.digest]
  change SHA1.output _ = SHA1.output
    (Blocks.absorb SHA1.compress 64 SHA1.init (pad (toBE 8) (done ++ buffer.read 0 buflen)))
  rw [hcarried]
  refine congrArg SHA1.output ?_
  simp only [sha1Result, sha1PadMessage, Bool.false_eq_true, if_false, hctx]
  by_cases hlong : 55 < buflen
  · rw [if_pos hlong]
    exact sha1_fillTo_64 hread hbuflen' hdone htotal' hregisters' (by omega) (by omega)
  · rw [if_neg hlong]
    exact sha1_fillTo_56 hread hbuflen' hdone htotal' hregisters' (by omega)

/-! ### Every way gives the digest of the data -/

/-- The digest of a function. -/
def HashFunction.digest : HashFunction → Bytes → Bytes
  | .md5 => MD5.digest
  | .sha1 => SHA1.digest

/-- The digest of data in memory. -/
theorem digestBuffer_eq (state : DigestState) {data : Bytes} (hlt : data.length < 2 ^ 32)
    (function : HashFunction) (encoding : HashEncoding) :
    digestBuffer state data function encoding = encodeDigest (function.digest data) encoding := by
  cases function with
  | md5 =>
      have hfed : Md5Fed (md5ProcessContinuous data (initializeDigestState state)) ([] ++ data) :=
        (md5Fed_initial state).processContinuous hlt
      simp only [digestBuffer, hfed.flushState hlt, HashFunction.digest, List.nil_append]
  | sha1 =>
      have hfed : Sha1Fed (sha1Input (initializeDigestState state) data) ([] ++ data) :=
        (sha1Fed_initial state).input hlt
      simp only [digestBuffer, hfed.result, HashFunction.digest, List.nil_append]

/-- Pieces of data that are passed one after another. -/
theorem Md5Fed.foldl_processContinuous {ctx : DigestState} {data : Bytes} (h : Md5Fed ctx data)
    (pieces : List Bytes) (hlt : (data ++ pieces.flatten).length < 2 ^ 32) :
    Md5Fed (pieces.foldl (fun ctx piece => md5ProcessContinuous piece ctx) ctx)
      (data ++ pieces.flatten) := by
  induction pieces generalizing ctx data with
  | nil =>
      rw [List.flatten_nil, List.append_nil]
      exact h
  | cons piece pieces ih =>
      rw [List.flatten_cons, ← List.append_assoc] at hlt ⊢
      refine ih (h.processContinuous ?_) hlt
      rw [List.length_append] at hlt
      omega

/-- **The loop over a file**: what holds of the state and the data in full blocks holds of them in
the end, and the rest of the data is the last block. -/
theorem digestBlocks_eq (function : HashFunction) {P : DigestState → Bytes → Prop}
    (hblock : ∀ state data block, P state data → block.length = blocksize →
      (data ++ block).length < 2 ^ 32 → P (digestFullBlock function block state) (data ++ block))
    {state : DigestState} {stream : InputStream} {data : Bytes} (h : P state data)
    (hlt : (data ++ stream.rest).length < 2 ^ 32) (herror : stream.error = false) :
    ∃ state' done remaining, digestBlocks function state stream = some (state', remaining) ∧
      data ++ stream.rest = done ++ remaining ∧ P state' done := by
  induction state, stream using digestBlocks.induct function generalizing data with
  | case1 state stream hend herror' => rw [herror] at herror'; cases herror'
  | case2 state stream hend herror' =>
      have hread := readBlock_append [] stream
      rw [rest_readBlock (by decide) hend, List.append_nil, List.nil_append] at hread
      refine ⟨state, data, (readBlock [] stream).1, ?_, by rw [hread], h⟩
      rw [digestBlocks, dif_pos hend, if_neg herror']
  | case3 state stream hmore ih =>
      have hread := readBlock_append [] stream
      rw [List.nil_append] at hread
      rw [← hread, ← List.append_assoc] at hlt ⊢
      have hfull := hblock _ _ _ h (length_readBlock (by decide) hmore)
        (by rw [List.length_append] at hlt; omega)
      obtain ⟨state', done, remaining, heq, hdata, hP⟩ :=
        ih hfull hlt ((error_readBlock [] stream).trans herror)
      refine ⟨state', done, remaining, ?_, hdata, hP⟩
      rw [digestBlocks, dif_neg hmore, heq]

/-- The digest of a file. -/
theorem digestStream_eq (state : DigestState) (stream : InputStream)
    (hlt : stream.rest.length < 2 ^ 32) (herror : stream.error = false) (function : HashFunction)
    (encoding : HashEncoding) :
    digestStream state stream function encoding
      = some (encodeDigest (function.digest stream.rest) encoding) := by
  cases function with
  | md5 =>
      -- MD5 only carries bytes over from the last block
      have hstart : Md5Mixed (initializeDigestState state).registers
          (initializeDigestState state).total0 (initializeDigestState state).total1 [] ∧
            (initializeDigestState state).buflen = 0 :=
        ⟨(md5Fed_initial state).mixed_of_empty rfl, rfl⟩
      obtain ⟨state', done, remaining, heq, hdata, hfed, hempty⟩ := digestBlocks_eq .md5
        (P := fun state data => Md5Mixed state.registers state.total0 state.total1 data ∧
          state.buflen = 0)
        (fun state data block h hblock hlt =>
          ⟨h.1.processBlock (hblock ▸ by decide) hlt, h.2⟩)
        hstart hlt herror
      rw [List.nil_append] at hdata
      rw [hdata] at hlt ⊢
      have hend : Md5Fed
          (if 0 < remaining.length then md5ProcessContinuous remaining state' else state')
          (done ++ remaining) := by
        split
        · exact (md5Fed_of_mixed hfed hempty).processContinuous hlt
        · rename_i hnone
          rw [List.length_eq_zero_iff.1 (Nat.eq_zero_of_not_pos hnone), List.append_nil]
          exact md5Fed_of_mixed hfed hempty
      rw [digestStream, heq]
      simp only [Option.map_some, hend.flushState hlt, HashFunction.digest]
  | sha1 =>
      obtain ⟨state', done, remaining, heq, hdata, hfed⟩ := digestBlocks_eq .sha1
        (P := Sha1Fed) (fun state data block h _ hlt => h.input hlt)
        (sha1Fed_initial state) hlt herror
      rw [List.nil_append] at hdata
      rw [hdata] at hlt ⊢
      have hend : Sha1Fed (if 0 < remaining.length then sha1Input state' remaining else state')
          (done ++ remaining) := by
        split
        · exact hfed.input hlt
        · rename_i hnone
          rwa [List.length_eq_zero_iff.1 (Nat.eq_zero_of_not_pos hnone), List.append_nil]
      rw [digestStream, heq]
      simp only [Option.map_some, hend.result, HashFunction.digest]

/-- **Every way gives the digest of the data**: from memory, from a file that is read in parts of
any size, and, for MD5, in pieces.  What the uninitialised state holds does not matter. -/
theorem digests_eq (state : DigestState) (data : Bytes) (hlt : data.length < 2 ^ 32) :
    (∀ function, digestBuffer state data function .bin = HashFunction.digest function data) ∧
      (∀ function wants, digestStream state ⟨wants, 0, data, false⟩ function .bin
        = some (HashFunction.digest function data)) ∧
      ∀ pieces : List Bytes, pieces.flatten = data →
        md5FlushState (pieces.foldl (fun ctx piece => md5ProcessContinuous piece ctx)
          (initializeDigestState state)) = MD5.digest data := by
  refine ⟨fun function => digestBuffer_eq state hlt function .bin,
    fun function wants => digestStream_eq state ⟨wants, 0, data, false⟩ hlt rfl
      function .bin, ?_⟩
  rintro pieces rfl
  exact ((md5Fed_initial state).foldl_processContinuous pieces hlt).flushState hlt

/-- The digests of three bytes. -/
theorem digests_eq_abc :
    let state : DigestState := ⟨⟨0, 0, 0, 0, 0⟩, 0, 0, 0, fun _ => 7, false, false⟩
    digestBuffer state (ascii "abc") .md5 .bin
        = [144, 1, 80, 152, 60, 210, 79, 176, 214, 150, 63, 125, 40, 225, 127, 114] ∧
      digestStream state ⟨fun _ => 2, 0, ascii "abc", false⟩ .sha1 .bin
        = some [169, 153, 62, 54, 71, 6, 129, 106, 186, 62, 37, 113, 120, 80, 194, 108, 156, 208,
          216, 157] := by
  have h := digests_eq ⟨⟨0, 0, 0, 0, 0⟩, 0, 0, 0, fun _ => 7, false, false⟩ (ascii "abc")
    (by decide)
  refine ⟨(h.1 .md5).trans (by decide +kernel), ((h.2.1 .sha1 fun _ => 2)).trans ?_⟩
  have hsha1 : SHA1.digest (ascii "abc") = [169, 153, 62, 54, 71, 6, 129, 106, 186, 62, 37, 113,
      120, 80, 194, 108, 156, 208, 216, 157] := by decide +kernel
  exact congrArg some hsha1

end AwsS3fs
