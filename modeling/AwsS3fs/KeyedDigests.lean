/-
**Keyed digests.**

`HMAC` (`digest.c`) follows its documentation except in one place.  A key that is longer than a
block is replaced by its digest, which is binary, but the padding of the key is then found with
`strlen`.  A zero byte in the digest ends it, and the bytes behind it are overwritten with zeros; a
digest without a zero byte goes on into an array that was never initialised, up to the next zero
there.  Keys of at most one block are copied with `strncpy`, which fills the array with zeros, and
are right.

Main definitions:

* `AwsS3fs.HmacLocals` — what the local variables hold before they are set;
* `AwsS3fs.paddedKey`, `AwsS3fs.hmac` — the padded key, and the function;
* `AwsS3fs.KeyIsPadded` — **the condition**: the keys that are padded as they should be.

Main results:

* `AwsS3fs.hmac_eq_keyed` — the two digests are right for whatever the padded key is;
* `AwsS3fs.paddedKey_eq_keyBlock_iff` — **when the padded key is right**;
* `AwsS3fs.hmac_eq_of_keyIsPadded` — the keyed digest of the key and the message.
-/

import AwsS3fs.DigestStreams

set_option relaxedAutoImplicit false
set_option autoImplicit false

open CLib Digests

namespace AwsS3fs

/-- What the local variables of `HMAC` and of the functions it calls hold before they are set. -/
structure HmacLocals where
  workKey : CharArray
  /-- The memory behind `workKey`. -/
  following : Bytes
  /-- The state in `DigestBuffer`. -/
  keyState : DigestState
  /-- The state before the first pass. -/
  state : DigestState
  /-- The state that the first pass leaves to the second. -/
  passState : DigestState

/-- `strlen` of the string at the start of some memory. -/
def strlen (memory : Bytes) : ℕ := (memory.takeWhile (· ≠ 0)).length

/-- `workKey` after the padding. -/
def paddedKey (locals : HmacLocals) (key : Bytes) (function : HashFunction) : Bytes :=
  let workKey :=
    if 64 < key.length then
      locals.workKey.write 0 (digestBuffer locals.keyState key function .bin)
    else locals.workKey.write 0 (key ++ List.replicate (64 - key.length) 0)
  -- there is nothing to pad if the string does not end within the array
  let padding := 64 - strlen (workKey.read 0 64 ++ locals.following)
  (workKey.write (64 - padding) (List.replicate padding 0)).read 0 64

/-- `XorMemory`. -/
def xorMemory (src : Bytes) (ch : UInt8) : Bytes := src.map (· ^^^ ch)

/-- A pass: the digest of a block and what follows it. -/
def hashPass (state : DigestState) (function : HashFunction) (xored bytes : Bytes) : Bytes :=
  let state := initializeDigestState state
  match function with
  | .md5 => md5FlushState (md5ProcessContinuous bytes (md5ProcessContinuous xored state))
  | .sha1 => sha1StateToBinDigest (sha1Result (sha1Input (sha1Input state xored) bytes))

/-- `HMAC`. -/
def hmac (locals : HmacLocals) (message key : Bytes) (function : HashFunction)
    (encoding : HashEncoding) : Bytes :=
  let workKey := paddedKey locals key function
  let outerXor := xorMemory workKey 0x5c
  let innerXor := xorMemory workKey 0x36
  let hashPass1 := hashPass locals.state function innerXor message
  let hashPass2 := hashPass locals.passState function outerXor hashPass1
  encodeDigest hashPass2 encoding

/-- **The keys that are padded as they should be**: those that fit into a block, and those whose
digest ends in its first zero byte, or runs into one. -/
def KeyIsPadded (locals : HmacLocals) (key : Bytes) (function : HashFunction) : Prop :=
  key.length ≤ 64 ∨
    (∀ b ∈ (function.digest key).dropWhile (· ≠ 0), b = 0) ∧
      (0 ∈ function.digest key ∨ locals.workKey (function.digest key).length = 0)

/-! ### The two passes -/

theorem hashPass_eq (state : DigestState) (function : HashFunction) (xored bytes : Bytes)
    (hlt : (xored ++ bytes).length < 2 ^ 32) :
    hashPass state function xored bytes = function.digest (xored ++ bytes) := by
  have hxored : xored.length < 2 ^ 32 := by
    rw [List.length_append] at hlt
    omega
  cases function with
  | md5 =>
      have hpad : Md5Fed (md5ProcessContinuous xored (initializeDigestState state)) ([] ++ xored) :=
        (md5Fed_initial state).processContinuous hxored
      exact (hpad.processContinuous hlt).flushState hlt
  | sha1 =>
      have hpad : Sha1Fed (sha1Input (initializeDigestState state) xored) ([] ++ xored) :=
        (sha1Fed_initial state).input hxored
      exact (hpad.input hlt).result

theorem length_digest_le (function : HashFunction) (m : Bytes) :
    (function.digest m).length ≤ 20 := by
  cases function with
  | md5 => exact (MD5.length_digest m).le.trans (by omega)
  | sha1 => exact (SHA1.length_digest m).le

theorem length_paddedKey (locals : HmacLocals) (key : Bytes) (function : HashFunction) :
    (paddedKey locals key function).length = 64 := CharArray.length_read _ _ _

/-- **The two digests are right** for whatever the padded key is. -/
theorem hmac_eq_keyed (locals : HmacLocals) {message : Bytes} (hmessage : message.length < 2 ^ 31)
    (key : Bytes) (function : HashFunction) :
    hmac locals message key function .bin
      = keyed function.digest (paddedKey locals key function) message := by
  have hlength : ∀ ch, (xorMemory (paddedKey locals key function) ch).length = 64 := fun ch => by
    rw [xorMemory, List.length_map, length_paddedKey]
  have hdigest := length_digest_le function
  have hinner := hashPass_eq locals.state function
    (xorMemory (paddedKey locals key function) 0x36) message
    (by rw [List.length_append, hlength]; omega)
  have houter := hashPass_eq locals.passState function
    (xorMemory (paddedKey locals key function) 0x5c)
    (function.digest (xorMemory (paddedKey locals key function) 0x36 ++ message))
    (by rw [List.length_append, hlength]; exact lt_of_le_of_lt (Nat.add_le_add_left (hdigest _) _)
          (by omega))
  simp only [hmac, encodeDigest, hinner, houter]
  rfl

/-! ### The padded key -/

/-- A string that is filled up with zeros to a length. -/
def fillZeros (n : ℕ) (s : Bytes) : Bytes := s ++ List.replicate (n - s.length) 0

theorem fillZeros_append (n : ℕ) (a b : Bytes) :
    fillZeros n (a ++ b) = a ++ fillZeros (n - a.length) b := by
  rw [fillZeros, fillZeros, List.length_append, Nat.sub_sub, List.append_assoc]

/-- The padding keeps the string at the start of the array and fills the rest with zeros. -/
theorem read_pad (buf : CharArray) (following : Bytes) :
    (buf.write (64 - (64 - strlen (buf.read 0 64 ++ following)))
        (List.replicate (64 - strlen (buf.read 0 64 ++ following)) 0)).read 0 64
      = fillZeros 64 ((buf.read 0 64).takeWhile (· ≠ 0)) := by
  obtain ⟨bytes, hbytes⟩ : ∃ bytes, buf.read 0 64 = bytes := ⟨_, rfl⟩
  have hlength : bytes.length = 64 := hbytes ▸ CharArray.length_read _ _ _
  -- the string ends within the array, or there is nothing to pad
  have hstrlen : 64 - strlen (bytes ++ following) = 64 - (bytes.takeWhile (· ≠ 0)).length := by
    have hle : (bytes.takeWhile (· ≠ 0)).length ≤ bytes.length :=
      (List.takeWhile_prefix _).length_le
    rw [strlen, List.takeWhile_append]
    split
    · rename_i hall
      rw [List.length_append]
      omega
    · rfl
  have hshort : (bytes.takeWhile (· ≠ 0)).length ≤ 64 :=
    hlength ▸ (List.takeWhile_prefix _).length_le
  have hsub : 64 - (64 - (bytes.takeWhile (· ≠ 0)).length) = (bytes.takeWhile (· ≠ 0)).length := by
    omega
  rw [hbytes, hstrlen, hsub, fillZeros]
  have hafter := CharArray.read_write_after buf 0 (bytes.takeWhile (· ≠ 0)).length
    (List.replicate (64 - (bytes.takeWhile (· ≠ 0)).length) 0)
  have hread : buf.read 0 (bytes.takeWhile (· ≠ 0)).length = bytes.takeWhile (· ≠ 0) := by
    have htake := CharArray.take_drop_read buf 0 (i := 0)
      (k := (bytes.takeWhile (· ≠ 0)).length) (n := 64) (by omega)
    rw [List.drop_zero, hbytes, Nat.zero_add] at htake
    rw [← htake]
    exact (List.prefix_iff_eq_take.1 (List.takeWhile_prefix _)).symm
  rw [Nat.zero_add, List.length_replicate, Nat.add_sub_cancel' hshort, hread] at hafter
  exact hafter

/-- Filling up the string before the first zero fills up a string that ends in zeros. -/
theorem fillZeros_takeWhile_iff {s : Bytes} {n : ℕ} (hlen : s.length ≤ n) :
    fillZeros n (s.takeWhile (· ≠ 0)) = fillZeros n s ↔ ∀ b ∈ s.dropWhile (· ≠ 0), b = 0 := by
  obtain ⟨t, ht⟩ : ∃ t, s.takeWhile (· ≠ 0) = t := ⟨_, rfl⟩
  obtain ⟨r, hr⟩ : ∃ r, s.dropWhile (· ≠ 0) = r := ⟨_, rfl⟩
  have hs : t ++ r = s := by rw [← ht, ← hr, List.takeWhile_append_dropWhile]
  have hlength : t.length + r.length = s.length := by rw [← hs, List.length_append]
  have hsplit : n - t.length = r.length + (n - s.length) := by omega
  have hfill : fillZeros n s = t ++ (r ++ List.replicate (n - s.length) 0) := by
    rw [fillZeros, ← List.append_assoc, hs]
  rw [ht, hr, hfill, fillZeros, hsplit, List.replicate_add, List.append_right_inj,
    List.append_left_inj]
  exact eq_comm.trans List.eq_replicate_iff |>.trans ⟨fun h => h.2, fun h => ⟨rfl, h⟩⟩

/-- A key that fits into a block is copied, and padded with zeros. -/
theorem paddedKey_of_le (locals : HmacLocals) {key : Bytes} (hkey : 0 ∉ key)
    (hlen : key.length ≤ 64) (function : HashFunction) :
    paddedKey locals key function = fillZeros 64 key := by
  have hread : (locals.workKey.write 0 (key ++ List.replicate (64 - key.length) 0)).read 0 64
      = fillZeros 64 key := by
    have h := CharArray.read_write locals.workKey 0 (fillZeros 64 key)
    rwa [show (fillZeros 64 key).length = 64 by simp [fillZeros]; omega] at h
  have htake : (fillZeros 64 key).takeWhile (· ≠ 0) = key := by
    have hne : ∀ b ∈ key, decide (b ≠ 0) = true := by
      intro b hb
      refine decide_eq_true ?_
      rintro rfl
      exact hkey hb
    rw [fillZeros, List.takeWhile_append_of_pos hne]
    cases 64 - key.length <;> simp [List.replicate_succ]
  simp only [paddedKey, if_neg (show ¬ 64 < key.length by omega)]
  rw [read_pad, hread, htake]

/-- A longer key is its digest, up to the first zero in what the array holds then. -/
theorem paddedKey_of_lt (locals : HmacLocals) {key : Bytes} (hlen : 64 < key.length)
    (hlt : key.length < 2 ^ 32) (function : HashFunction) :
    paddedKey locals key function = fillZeros 64 ((function.digest key ++
      locals.workKey.read (function.digest key).length
        (64 - (function.digest key).length)).takeWhile (· ≠ 0)) := by
  have hdigest := length_digest_le function key
  have hread : (locals.workKey.write 0 (function.digest key)).read 0 64
      = function.digest key ++ locals.workKey.read (function.digest key).length
        (64 - (function.digest key).length) := by
    have hsplit : 64 = (function.digest key).length + (64 - (function.digest key).length) := by
      omega
    conv_lhs => rw [hsplit, CharArray.read_add, CharArray.read_write, Nat.zero_add]
    rw [CharArray.read_write_of_ge _ _ (by omega)]
  simp only [paddedKey, if_pos hlen, digestBuffer_eq locals.keyState hlt, encodeDigest]
  rw [read_pad, hread]

/-- **When the padded key is right.** -/
theorem paddedKey_eq_keyBlock_iff (locals : HmacLocals) {key : Bytes} (hkey : 0 ∉ key)
    (hlt : key.length < 2 ^ 32) (function : HashFunction) :
    paddedKey locals key function = keyBlock function.digest 64 key ↔
      KeyIsPadded locals key function := by
  by_cases hlen : key.length ≤ 64
  · refine iff_of_true ?_ (.inl hlen)
    rw [paddedKey_of_le locals hkey hlen, keyBlock, if_neg (by omega)]
    rfl
  · have hlong : 64 < key.length := Nat.lt_of_not_le hlen
    have hdigest := length_digest_le function key
    have hblock : keyBlock function.digest 64 key = fillZeros 64 (function.digest key) := by
      rw [keyBlock, if_pos hlong]
      rfl
    rw [paddedKey_of_lt locals hlong hlt, hblock, KeyIsPadded, or_iff_right hlen]
    generalize function.digest key = digest at hdigest ⊢
    by_cases hzero : 0 ∈ digest
    · -- the digest has a zero byte, and the bytes behind it are lost
      rw [List.takeWhile_append, if_neg, fillZeros_takeWhile_iff (by omega)]
      · exact ⟨fun h => ⟨h, .inl hzero⟩, fun h => h.1⟩
      · intro hall
        have hself := List.takeWhile_eq_self_iff.1 ((List.takeWhile_prefix _).eq_of_length hall)
        exact absurd rfl (of_decide_eq_true (hself 0 hzero))
    · -- the string goes on behind the digest
      have hself : digest.takeWhile (· ≠ 0) = digest := by
        refine List.takeWhile_eq_self_iff.2 fun b hb => decide_eq_true ?_
        rintro rfl
        exact hzero hb
      have hdrop : ∀ b ∈ digest.dropWhile (· ≠ 0), b = 0 := by
        rw [List.dropWhile_eq_nil_iff.2 (List.takeWhile_eq_self_iff.1 hself)]
        simp
      obtain ⟨m, hm⟩ : ∃ m, 64 - digest.length = m + 1 := ⟨63 - digest.length, by omega⟩
      have hfill : fillZeros 64 digest = digest ++ List.replicate (m + 1) 0 := by
        rw [fillZeros, hm]
      rw [List.takeWhile_append, hself, if_pos rfl, fillZeros_append, hm, hfill,
        List.append_right_inj, CharArray.read_succ, List.takeWhile_cons, or_iff_right hzero,
        and_iff_right hdrop]
      by_cases hnext : locals.workKey digest.length = 0
      · simp [hnext, fillZeros]
      · simp [hnext, fillZeros, List.replicate_succ]

/-- **The keyed digest of the key and the message**, for the keys that are padded as they should
be. -/
theorem hmac_eq_of_keyIsPadded (locals : HmacLocals) {key message : Bytes} (hkey : 0 ∉ key)
    (hlt : key.length < 2 ^ 32) (hmessage : message.length < 2 ^ 31) (function : HashFunction) :
    (paddedKey locals key function = keyBlock function.digest 64 key ↔
        KeyIsPadded locals key function) ∧
      (KeyIsPadded locals key function →
        hmac locals message key function .bin = Digests.hmac function.digest 64 key message) := by
  have hiff := paddedKey_eq_keyBlock_iff locals hkey hlt function
  refine ⟨hiff, fun h => ?_⟩
  rw [hmac_eq_keyed locals hmessage, hiff.2 h]
  rfl

/-- Local variables that happen to be zero. -/
def HmacLocals.zero : HmacLocals :=
  let state : DigestState := ⟨⟨0, 0, 0, 0, 0⟩, 0, 0, 0, fun _ => 0, false, false⟩
  ⟨fun _ => 0, [0], state, state, state⟩

/-- A short key. -/
theorem hmac_jefe :
    hmac HmacLocals.zero (ascii "what do ya want for nothing?") (ascii "Jefe") .md5 .bin
      = [117, 12, 120, 62, 106, 176, 181, 3, 234, 168, 110, 49, 10, 93, 183, 56] := by
  have hkey : 0 ∉ ascii "Jefe" ∧ (ascii "Jefe").length < 2 ^ 32 := by decide
  have hmessage : (ascii "what do ya want for nothing?").length < 2 ^ 31 := by decide
  have h := (hmac_eq_of_keyIsPadded HmacLocals.zero hkey.1 hkey.2 hmessage .md5).2
    (.inl (by decide))
  exact h.trans (by decide +kernel)

/-- A key of 66 characters whose digest begins with a zero byte: the padded key is empty. -/
theorem not_hmac_eq :
    ¬ ∀ (locals : HmacLocals) (key message : Bytes) (function : HashFunction), 0 ∉ key →
      hmac locals message key function .bin = Digests.hmac function.digest 64 key message := by
  intro h
  have hwrong := h HmacLocals.zero (List.replicate 66 68) [] .md5 (by decide)
  rw [hmac_eq_keyed _ (by decide), paddedKey_of_lt _ (by decide) (by decide)] at hwrong
  exact absurd hwrong (by decide +kernel)

end AwsS3fs
